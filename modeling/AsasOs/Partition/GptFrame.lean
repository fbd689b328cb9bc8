import AsasOs.Partition.GptCrash

/-!
# What a change of a GPT writes

The places that a commit writes come from the headers on the disk. What the reader
checks of a header keeps them out of the usable range: both headers and, unless the
block layer refuses the request, the whole entry array. So whatever the disk holds and
whatever fails, only the headers and the entry arrays are written.
-/
namespace AsasOs.Partition

open Bytes Medium Block

/-- The blocks between the first and the last usable one. -/
def GptHeader.usable (header : GptHeader) (lba : Nat) : Prop :=
  header.firstUsableLba ≤ lba ∧ lba ≤ header.lastUsableLba

/-- The two headers and the two entry arrays that the primary header names. -/
def gptMetadata (device : Device) (medium : Nat → List UInt8) (lba : Nat) : Prop :=
  let primary := gptHeader (medium 1)
  let backup := gptHeader (medium primary.backupLba)
  let sectors := primary.entriesSectors device.logicalBlockSize
  lba = 1 ∨ lba = primary.backupLba ∨ Disk.range primary.entriesLba sectors lba ∨
    Disk.range backup.entriesLba sectors lba

section Header

variable {device : Device} {headerLba : Nat} {header : GptHeader}

theorem headers_not_usable (valid : gptPlacementValid device headerLba header = true) :
    ¬header.usable headerLba ∧ ¬header.usable header.backupLba := by
  simp only [gptPlacementValid, Bool.and_eq_true, Bool.not_eq_true', Bool.or_eq_false_iff,
    Bool.and_eq_false_iff, decide_eq_false_iff_not] at valid
  obtain ⟨-, here, there⟩ := valid
  exact ⟨fun usable => here.elim (fun low => low usable.1) fun high => high usable.2,
    fun usable => there.elim (fun low => low usable.1) fun high => high usable.2⟩

theorem entries_not_usable (valid : gptPlacementValid device headerLba header = true)
    {sectors lba : Nat} (whole : header.entriesSectors device.logicalBlockSize = sectors)
    (small : header.entriesLba < 2 ^ 64)
    (bounds : requestInBounds device header.entriesLba sectors = true)
    (inside : Disk.range header.entriesLba sectors lba) : ¬header.usable lba := by
  simp only [gptPlacementValid, Bool.and_eq_true, Bool.not_eq_true', Bool.and_eq_false_iff,
    decide_eq_false_iff_not, whole] at valid
  obtain ⟨⟨-, apart⟩, -⟩ := valid
  rintro ⟨low, high⟩
  obtain ⟨first, last⟩ := inside
  -- an accepted request ends below 2^64, so the sum of the check does not wrap
  have exact_end : (header.entriesLba + sectors - 1) % 2 ^ 64 = header.entriesLba + sectors - 1 := by
    unfold requestInBounds maxU64 at bounds
    split at bounds
    · cases bounds
    split at bounds
    · cases bounds
    exact Nat.mod_eq_of_lt (by omega)
  rw [exact_end] at apart
  omega

end Header

/-! ### The blocks that are written -/

/-- An operation that writes writes into the region, unless it is out of bounds. -/
def WritesIn (device : Device) (region : Nat → Prop) : DeviceOp → Prop
  | .write lba count _ =>
    requestInBounds device lba count = true → ∀ k, Disk.range lba count k → region k
  | _ => True

theorem handle_wroteIn {size : Nat} {device : Device} {region : Nat → Prop} (op : DeviceOp)
    (disk : Disk size) (writes : WritesIn device region op) :
    Disk.WroteIn region disk (Disk.handle device op disk).2 := by
  cases op with
  | read lba count => exact (Disk.read_untouched device lba count disk).wroteIn region
  | write lba count data =>
    by_cases bounds : requestInBounds device lba count = true
    · exact (Disk.write_wroteIn device lba count data disk).1.mono (writes bounds)
    · have refused : (Disk.handle device (.write lba count data) disk).2 =
          { disk with failedWrites := disk.failedWrites + 1 } := by
        simp only [Disk.handle, Disk.write, Bool.eq_false_of_not_eq_true bounds, Bool.false_and]
        rfl
      rw [refused]
      exact ⟨rfl, ⟨[], by simp⟩, by simp, by simp⟩
  | flush => exact (Disk.flush_wroteIn region disk).1
  | kmalloc bytes => exact (Disk.kmalloc_untouched bytes disk).wroteIn region

theorem run_wroteIn {size : Nat} {α : Type} {device : Device} {region : Nat → Prop}
    {p : DeviceProg α} (uses : Prog.Uses (WritesIn device region) p) (disk : Disk size) :
    Disk.WroteIn region disk (Prog.run (Disk.handle device) p disk).2 :=
  Prog.run_preserves_of_uses
    (fun op _ writes wrote => wrote.trans (handle_wroteIn op _ writes)) uses disk (.refl region disk)

section Store

variable {P : DeviceOp → Prop} {header : GptHeader} {sectors : Nat} {entries sector : List UInt8}

structure CopyWrites (P : DeviceOp → Prop) (header : GptHeader) (sectors : Nat)
    (entries sector : List UInt8) : Prop where
  array : P (.write header.entriesLba sectors entries)
  head : P (.write header.currentLba 1 sector)

theorem gptWriteCopy_uses (writes : CopyWrites P header sectors entries sector)
    (flushes : P .flush) : Prog.Uses P (gptWriteCopy header sectors entries sector) := by
  refine Prog.uses_bind (Prog.uses_perform writes.array) fun ok => ?_
  cases ok with
  | false => exact Prog.uses_pure false
  | true =>
    refine Prog.uses_bind (Prog.uses_perform writes.head) fun ok => ?_
    cases ok with
    | false => exact Prog.uses_pure false
    | true => exact Prog.uses_perform flushes

theorem gptRestoreCopy_uses (writes : CopyWrites P header sectors entries sector) :
    Prog.Uses P (gptRestoreCopy header sectors entries sector) :=
  Prog.uses_bind (Prog.uses_perform writes.array) fun _ =>
    Prog.uses_bind (Prog.uses_perform writes.head) fun _ => Prog.uses_pure ()

/-- The old and the new contents of a copy may both be stored, where its new header says. -/
structure VersionWrites (P : DeviceOp → Prop) (sectors : Nat) (old new sector sector' : List UInt8) :
    Prop where
  new : CopyWrites P (gptHeader sector') sectors new sector'
  old : CopyWrites P (gptHeader sector') sectors old sector

theorem gptStore_uses {copies : GptCopies} (entries : List UInt8) (flushes : P .flush)
    (primaryWrites : ∀ crc < 2 ^ 32, VersionWrites P copies.sectors copies.entries entries
      copies.primarySector (gptUpdateHeaderCrc copies.primarySector crc))
    (backupWrites : ∀ crc < 2 ^ 32, VersionWrites P copies.sectors copies.entries entries
      copies.backupSector (gptUpdateHeaderCrc copies.backupSector crc)) :
    Prog.Uses P (gptStore copies entries) := by
  obtain ⟨newPrimary, oldPrimary⟩ := primaryWrites
    (crc32 (entries.take (gptHeader copies.primarySector).entriesBytes)) (crc32_lt _)
  obtain ⟨newBackup, oldBackup⟩ := backupWrites
    (crc32 (entries.take (gptHeader copies.primarySector).entriesBytes)) (crc32_lt _)
  refine Prog.uses_bind (gptWriteCopy_uses newBackup flushes) fun ok => ?_
  cases ok with
  | false =>
    exact Prog.uses_bind (gptRestoreCopy_uses oldBackup) fun _ =>
      Prog.uses_bind (Prog.uses_perform flushes) fun _ => Prog.uses_pure false
  | true =>
    refine Prog.uses_bind (gptWriteCopy_uses newPrimary flushes) fun ok => ?_
    cases ok with
    | false =>
      exact Prog.uses_bind (gptRestoreCopy_uses oldPrimary) fun _ =>
        Prog.uses_bind (gptRestoreCopy_uses oldBackup) fun _ =>
          Prog.uses_bind (Prog.uses_perform flushes) fun _ => Prog.uses_pure false
    | true => exact Prog.uses_pure true

/-- The region holds a copy where the block layer accepts it. -/
structure CopyIn (device : Device) (region : Nat → Prop) (header : GptHeader) (sectors : Nat) :
    Prop where
  sector : region header.currentLba
  array : requestInBounds device header.entriesLba sectors = true →
    ∀ k, Disk.range header.entriesLba sectors k → region k

theorem CopyIn.writes {device : Device} {region : Nat → Prop}
    (inside : CopyIn device region header sectors) (entries sector : List UInt8) :
    CopyWrites (WritesIn device region) header sectors entries sector := by
  refine ⟨inside.array, fun _ k here => ?_⟩
  have same : k = header.currentLba := by
    have bounds := here
    unfold Disk.range at bounds
    omega
  rw [same]
  exact inside.sector

end Store

/-! ### The commit -/

/-- The blocks that a commit may write: metadata outside the usable range. -/
def gptFrame (device : Device) (medium : Nat → List UInt8) (lba : Nat) : Prop :=
  gptMetadata device medium lba ∧ ¬(gptHeader (medium 1)).usable lba

theorem Loaded.copiesIn {device : Device} {slot : Nat} {medium : Nat → List UInt8}
    {copies : GptCopies} (sized : ∀ lba, (medium lba).length = device.logicalBlockSize)
    (loaded : Loaded device slot medium copies) {crc : Nat} (small : crc < 2 ^ 32) :
    CopyIn device (gptFrame device medium)
        (gptHeader (gptUpdateHeaderCrc copies.primarySector crc)) copies.sectors ∧
      CopyIn device (gptFrame device medium)
        (gptHeader (gptUpdateHeaderCrc copies.backupSector crc)) copies.sectors := by
  have roomy := loaded.roomy
  have primaryRoom : 92 ≤ copies.primarySector.length := by
    rw [loaded.primary, sized]
    omega
  have backupRoom : 92 ≤ copies.backupSector.length := by
    rw [loaded.backup, sized]
    omega
  rw [gptHeader_update primaryRoom small, gptHeader_update backupRoom small]
  have placed := (Bool.and_eq_true_iff.mp loaded.primaryValid).1
  have placed' := (Bool.and_eq_true_iff.mp loaded.backupValid).1
  have layouts := loaded.layouts
  simp only [gptLayoutsMatch, Bool.and_eq_true, beq_iff_eq] at layouts
  obtain ⟨headerOut, backupOut⟩ := headers_not_usable placed
  have here := (gptHeaderValid_fields loaded.primaryValid).1
  have there := (gptHeaderValid_fields loaded.backupValid).1
  -- the backup header declares the same usable range
  have alike : ∀ lba, (gptHeader copies.backupSector).usable lba =
      (gptHeader copies.primarySector).usable lba := by
    intro lba
    simp only [GptHeader.usable, layouts]
  have same : gptHeader (medium 1) = gptHeader copies.primarySector := by rw [loaded.primary]
  have same' : gptHeader (medium (gptHeader copies.primarySector).backupLba) =
      gptHeader copies.backupSector := by rw [loaded.backup]
  have frame : ∀ lba, gptFrame device medium lba ↔
      (lba = 1 ∨ lba = (gptHeader copies.primarySector).backupLba ∨
        Disk.range (gptHeader copies.primarySector).entriesLba copies.sectors lba ∨
        Disk.range (gptHeader copies.backupSector).entriesLba copies.sectors lba) ∧
      ¬(gptHeader copies.primarySector).usable lba := by
    intro lba
    simp only [gptFrame, gptMetadata, same, same', ← loaded.sectors]
  have lba64 {sector : List UInt8} (room : 92 ≤ sector.length) :
      (gptHeader sector).entriesLba < 2 ^ 64 := getLE_lt (by omega)
  constructor
  · refine ⟨(frame _).mpr ⟨.inl here, ?_⟩, fun bounds lba inside => (frame lba).mpr ⟨?_, ?_⟩⟩
    · dsimp only
      rw [here]
      exact headerOut
    · exact .inr (.inr (.inl inside))
    · exact entries_not_usable placed loaded.sectors.symm (lba64 primaryRoom) bounds inside
  · refine ⟨(frame _).mpr ⟨.inr (.inl there), ?_⟩, fun bounds lba inside => (frame lba).mpr ⟨?_, ?_⟩⟩
    · dsimp only
      rw [there]
      exact backupOut
    · exact .inr (.inr (.inr inside))
    · rw [← alike]
      exact entries_not_usable placed' loaded.backup_sectors.2 (lba64 backupRoom) bounds inside

/-- **The frame of a change**: whatever the disk holds and whatever fails, a create, a
delete or a resize writes blocks of the two headers and the two entry arrays only, and
none of the usable range; it writes nothing at all unless both headers are valid. -/
theorem partitionGptCommit_frame (device : Device) (mounted : Bool) (slot : Nat)
    (operation : GptOperation) (start : Nat → List UInt8)
    (sized : ∀ lba, (start lba).length = device.logicalBlockSize) (outcomes : List Outcome) :
    ∀ w ∈ (Prog.run (Disk.handle device) (partitionGptCommit device mounted slot operation).run
        (Disk.boot start sized outcomes)).2.written,
      gptHeaderValid device 1 (start 1) = true ∧ gptHeaderValid device (gptHeader (start 1)).backupLba
          (start (gptHeader (start 1)).backupLba) = true ∧
        gptMetadata device start w.1 ∧ ¬(gptHeader (start 1)).usable w.1 := by
  obtain ⟨result, final, ran⟩ : ∃ result final, Prog.run (Disk.handle device)
    (partitionGptCommit device mounted slot operation).run (Disk.boot start sized outcomes) =
      (result, final) := ⟨_, _, rfl⟩
  rw [ran]
  rcases partitionGptCommit_cases ran with ⟨-, same⟩ | ⟨copies, entries, disk, same, load, -, store⟩
  · have nothing : final.written = [] := same.written
    rw [nothing]
    exact fun w member => nomatch member
  · have loaded : Loaded device slot start copies := load
    have nothing : disk.written = [] := same.written
    have valid' := loaded.backupValid
    have valid := loaded.primaryValid
    have writes : Prog.Uses (WritesIn device (gptFrame device start)) (gptStore copies entries) := by
      refine gptStore_uses entries trivial (fun crc small => ?_) fun crc small => ?_
      · have inside := (loaded.copiesIn sized small).1
        exact ⟨inside.writes _ _, inside.writes _ _⟩
      · have inside := (loaded.copiesIn sized small).2
        exact ⟨inside.writes _ _, inside.writes _ _⟩
    obtain ⟨made, trace, inside⟩ := (run_wroteIn writes disk).trace
    rw [loaded.backup, loaded.primary] at valid'
    rw [loaded.primary] at valid
    rw [store, nothing, List.nil_append] at trace
    dsimp only at trace ⊢
    rw [trace]
    exact fun w member => ⟨valid, valid', inside w member⟩

/-- The writes of a create on the small disk, some of which fail. -/
theorem partitionGptCommit_frame_example : ¬∃ w ∈ (Prog.run (Disk.handle exampleDevice)
        (partitionGptCommit exampleDevice false 0 exampleCreate).run
        (@Disk.boot exampleDevice.logicalBlockSize exampleStart exampleStart_sized
          exampleOutcomes)).2.written,
      ¬(gptMetadata exampleDevice exampleStart w.1 ∧ ¬(gptHeader (exampleStart 1)).usable w.1) :=
  fun ⟨w, member, bad⟩ => bad (partitionGptCommit_frame exampleDevice false 0 exampleCreate
    exampleStart exampleStart_sized exampleOutcomes w member).2.2

end AsasOs.Partition
