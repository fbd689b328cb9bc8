import AsasOs.Partition.Gpt

/-!
# Crash consistency of GPT changes

A copy of the table is a header and an entry array that pass the checks of the
reader. The commit writes the two copies one after the other, and takes back one
after the other what it wrote, so that at every moment one of them is complete.
-/
namespace AsasOs.Partition

open Block Bytes Medium

/-! ### Copies on a medium -/

/-- The table that the copy with its header at `headerLba` describes, if the copy is
valid: the checks of the reader pass, and the CRC of the entries is right. -/
def gptCopy (device : Device) (medium : Nat → List UInt8) (headerLba : Nat) : Option (List UInt8) :=
  let header := gptHeader (medium headerLba)
  let table := (blocksAt medium header.entriesLba
    (header.entriesSectors device.logicalBlockSize)).flatten.take header.entriesBytes
  if gptHeaderValid device headerLba (medium headerLba) && crc32 table == header.entriesCrc32 then
    some table
  else none

/-- The table after an operation on the table of the primary copy, if it is allowed. -/
def gptNewTable (device : Device) (medium : Nat → List UInt8) (slot : Nat)
    (operation : GptOperation) : Option (List UInt8) :=
  let header := gptHeader (medium 1)
  (gptEdited header slot operation (blocksAt medium header.entriesLba
    (header.entriesSectors device.logicalBlockSize)).flatten).map (·.take header.entriesBytes)

/-- The headers and the entry arrays of the two copies lie apart. -/
def DisjointCopies (device : Device) (medium : Nat → List UInt8) : Prop :=
  let primary := gptHeader (medium 1)
  let backup := gptHeader (medium primary.backupLba)
  [(1, 1), (primary.entriesLba, primary.entriesSectors device.logicalBlockSize), (primary.backupLba, 1),
    (backup.entriesLba, backup.entriesSectors device.logicalBlockSize)].Pairwise
    fun left right => left.1 + left.2 ≤ right.1 ∨ right.1 + right.2 ≤ left.1

instance (device : Device) (medium : Nat → List UInt8) : Decidable (DisjointCopies device medium) :=
  inferInstanceAs (Decidable (List.Pairwise _ _))

/-- One of the two copies is valid and holds a whole table, old or new. -/
def SurvivingCopy (device : Device) (backupLba : Nat) (old : List UInt8)
    (new : Option (List UInt8)) (medium : Nat → List UInt8) : Prop :=
  ∃ headerLba ∈ [1, backupLba], ∃ table,
    gptCopy device medium headerLba = some table ∧ (table = old ∨ new = some table)

/-! ### Header updates -/

theorem crc32_lt (data : List UInt8) : crc32 data < 2 ^ 32 :=
  UInt32.toNat_lt _

section Update

variable {sector : List UInt8} {crc : Nat}

theorem gptUpdateHeaderCrc_length (room : 92 ≤ sector.length) :
    (gptUpdateHeaderCrc sector crc).length = sector.length := by
  have first : (putLE sector 88 4 crc).length = sector.length := putLE_length (by omega) crc
  have second : (putLE (putLE sector 88 4 crc) 16 4 0).length = sector.length := by
    rw [putLE_length (by omega), first]
  rw [gptUpdateHeaderCrc, putLE_length (by omega), second]

theorem slice_update (room : 92 ≤ sector.length) {start width : Nat}
    (headerField : start + width ≤ 16 ∨ 20 ≤ start)
    (entriesField : start + width ≤ 88 ∨ 92 ≤ start) :
    slice (gptUpdateHeaderCrc sector crc) start width = slice sector start width := by
  have first : (putLE sector 88 4 crc).length = sector.length := putLE_length (by omega) crc
  have second : (putLE (putLE sector 88 4 crc) 16 4 0).length = sector.length := by
    rw [putLE_length (by omega), first]
  rw [gptUpdateHeaderCrc, slice_putLE_other (by omega) headerField,
    slice_putLE_other (by omega) headerField, slice_putLE_other (by omega) entriesField]

theorem getLE_update (room : 92 ≤ sector.length) {start width : Nat}
    (headerField : start + width ≤ 16 ∨ 20 ≤ start)
    (entriesField : start + width ≤ 88 ∨ 92 ≤ start) :
    getLE (gptUpdateHeaderCrc sector crc) start width = getLE sector start width := by
  rw [getLE, slice_update room headerField entriesField, getLE]

theorem gptHeader_update (room : 92 ≤ sector.length) (small : crc < 2 ^ 32) :
    gptHeader (gptUpdateHeaderCrc sector crc) =
      { gptHeader sector with
        entriesCrc32 := crc
        headerCrc32 := headerCrc (gptUpdateHeaderCrc sector crc) } := by
  have first : (putLE sector 88 4 crc).length = sector.length := putLE_length (by omega) crc
  have second : (putLE (putLE sector 88 4 crc) 16 4 0).length = sector.length := by
    rw [putLE_length (by omega), first]
  have entriesCrc : getLE (gptUpdateHeaderCrc sector crc) 88 4 = crc := by
    rw [gptUpdateHeaderCrc, getLE, slice_putLE_other (by omega) (by omega),
      slice_putLE_other (by omega) (by omega)]
    exact (getLE_putLE (by omega) crc).trans (Nat.mod_eq_of_lt (by omega))
  -- the field that is zero while the CRC is computed is zero when it is checked
  have ownCrc : getLE (gptUpdateHeaderCrc sector crc) 16 4 =
      headerCrc (gptUpdateHeaderCrc sector crc) := by
    have size : (gptHeader (gptUpdateHeaderCrc sector crc)).headerSize =
        (gptHeader (putLE (putLE sector 88 4 crc) 16 4 0)).headerSize := by
      simp only [gptHeader, gptUpdateHeaderCrc, getLE]
      rw [slice_putLE_other (by omega) (by omega)]
    rw [headerCrc, size]
    unfold gptUpdateHeaderCrc
    dsimp only
    rw [putLE_putLE (by omega), putLE_putLE (by omega), getLE_putLE (by omega)]
    exact Nat.mod_eq_of_lt (crc32_lt _)
  simp only [gptHeader, GptHeader.mk.injEq]
  simp only [slice_update room, getLE_update room, ownCrc, entriesCrc, and_self,
    Nat.reduceAdd, Nat.reduceLeDiff, true_or, or_true]

theorem gptHeaderValid_update {device : Device} {headerLba : Nat} (room : 92 ≤ sector.length)
    (small : crc < 2 ^ 32) (valid : gptHeaderValid device headerLba sector = true) :
    gptHeaderValid device headerLba (gptUpdateHeaderCrc sector crc) = true := by
  simp only [gptHeaderValid, Bool.and_eq_true, beq_iff_eq] at valid ⊢
  rw [gptHeader_update room small]
  exact ⟨valid.1, rfl⟩

end Update

/-! ### One copy -/

def copyRegion (header : GptHeader) (sectors : Nat) : Nat → Prop :=
  fun lba => lba = header.currentLba ∨ Disk.range header.entriesLba sectors lba

structure HoldsCopy (header : GptHeader) (sectors : Nat) (entries sector : List UInt8)
    (medium : Nat → List UInt8) : Prop where
  sectorThere : medium header.currentLba = sector
  entriesThere : (blocksAt medium header.entriesLba sectors).flatten = entries

theorem HoldsCopy.congr {header : GptHeader} {sectors : Nat} {entries sector : List UInt8}
    {medium medium' : Nat → List UInt8} (holds : HoldsCopy header sectors entries sector medium)
    (agree : ∀ lba, copyRegion header sectors lba → medium' lba = medium lba) :
    HoldsCopy header sectors entries sector medium' where
  sectorThere := by rw [agree _ (Or.inl rfl), holds.sectorThere]
  entriesThere := by
    rw [blocksAt_congr fun lba low high => agree lba (Or.inr ⟨low, high⟩)]
    exact holds.entriesThere

variable {device : Device} {medium : Nat → List UInt8}

theorem gptCopy_of_holds {headerLba sectors : Nat} {entries sector : List UInt8}
    (holds : HoldsCopy (gptHeader sector) sectors entries sector medium)
    (whole : (gptHeader sector).entriesSectors device.logicalBlockSize = sectors)
    (here : (gptHeader sector).currentLba = headerLba)
    (valid : gptHeaderValid device headerLba sector = true)
    (crc : crc32 (entries.take (gptHeader sector).entriesBytes) = (gptHeader sector).entriesCrc32) :
    gptCopy device medium headerLba = some (entries.take (gptHeader sector).entriesBytes) := by
  have stored := holds.sectorThere
  rw [here] at stored
  simp only [gptCopy, stored, whole, holds.entriesThere, valid, crc, beq_self_eq_true, Bool.and_self, if_true]

section Write

variable {size : Nat} {device : Device} {disk : Disk size} {header : GptHeader} {sectors : Nat}
  {entries sector : List UInt8}

theorem write_block {lba : Nat} (whole : sector.length = size)
    (success : (disk.write device lba 1 sector).1 = true) :
    (disk.write device lba 1 sector).2.medium lba = sector := by
  have block := congrArg List.flatten (Disk.write_holds success)
  rw [Disk.flatten_chunks 1 sector (by omega)] at block
  simpa [blocksAt] using block

theorem write_header_keeps {lba : Nat} (apart : ¬Disk.range header.entriesLba sectors lba) :
    blocksAt (disk.write device lba 1 sector).2.medium header.entriesLba sectors =
      blocksAt disk.medium header.entriesLba sectors := by
  apply blocksAt_congr
  intro k low high
  apply (Disk.write_wroteIn device lba 1 sector disk).1.medium_outside
  rintro ⟨lower, upper⟩
  have same : k = lba := by omega
  exact apart (same ▸ ⟨low, high⟩)

theorem header_range {lba : Nat} (inside : Disk.range header.currentLba 1 lba) :
    copyRegion header sectors lba := by
  obtain ⟨low, high⟩ := inside
  exact Or.inl (by omega)

variable (device disk)

/-- The two writes of a copy, the entries first. -/
theorem copyWrites_spec (wholeSector : sector.length = size)
    (wholeEntries : entries.length = sectors * size)
    (apart : ¬Disk.range header.entriesLba sectors header.currentLba)
    {ok ok' : Bool} {disk₁ disk₂ : Disk size}
    (first : disk.write device header.entriesLba sectors entries = (ok, disk₁))
    (second : disk₁.write device header.currentLba 1 sector = (ok', disk₂)) :
    Disk.WroteIn (copyRegion header sectors) disk disk₁ ∧
      Disk.WroteIn (copyRegion header sectors) disk₁ disk₂ ∧
      disk₁.failedWrites = disk.failedWrites + (if ok then 0 else 1) ∧
      disk₂.failedWrites = disk₁.failedWrites + (if ok' then 0 else 1) ∧
      (ok = true → ok' = true → HoldsCopy header sectors entries sector disk₂.medium) := by
  obtain ⟨entriesIn, -, failed⟩ := Disk.write_wroteIn device header.entriesLba sectors entries disk
  obtain ⟨headerIn, -, failed'⟩ := Disk.write_wroteIn device header.currentLba 1 sector disk₁
  have stored : (disk.write device header.entriesLba sectors entries).1 = true → _ :=
    Disk.write_holds
  have block : (disk₁.write device header.currentLba 1 sector).1 = true → _ :=
    write_block wholeSector
  have kept : blocksAt (disk₁.write device header.currentLba 1 sector).2.medium _ sectors = _ :=
    write_header_keeps apart
  rw [first] at entriesIn failed stored
  rw [second] at headerIn failed' block kept
  refine ⟨entriesIn.mono fun lba => Or.inr, headerIn.mono fun lba => header_range, failed, failed',
    fun done done' => ⟨block done', ?_⟩⟩
  rw [kept, stored done, Disk.flatten_chunks _ _ wholeEntries]

theorem gptWriteCopy_spec (wholeSector : sector.length = size)
    (wholeEntries : entries.length = sectors * size)
    (apart : ¬Disk.range header.entriesLba sectors header.currentLba) :
    let out := Prog.run (Disk.handle device) (gptWriteCopy header sectors entries sector) disk
    Disk.WroteIn (copyRegion header sectors) disk out.2 ∧
      (out.1 = true → HoldsCopy header sectors entries sector out.2.medium) ∧
      (out.1 = false → disk.failedWrites < out.2.failedWrites ∨
        disk.failedFlushes < out.2.failedFlushes) := by
  obtain ⟨ok, disk₁, first⟩ : ∃ ok disk₁,
      disk.write device header.entriesLba sectors entries = (ok, disk₁) := ⟨_, _, rfl⟩
  obtain ⟨ok', disk₂, second⟩ : ∃ ok disk₂,
      disk₁.write device header.currentLba 1 sector = (ok, disk₂) := ⟨_, _, rfl⟩
  obtain ⟨entriesIn, headerIn, failed, failed', holds⟩ :=
    copyWrites_spec device disk wholeSector wholeEntries apart first second
  simp only [gptWriteCopy, Prog.run_bind, Disk.run_deviceWrite, first]
  cases ok with
  | false => exact ⟨entriesIn, by simp, fun _ => Or.inl (by simp [failed])⟩
  | true =>
    simp only [Bool.not_true, Bool.false_eq_true, if_false, Prog.run_bind, Disk.run_deviceWrite, second]
    have both := entriesIn.trans headerIn
    cases ok' with
    | false =>
      refine ⟨both, by simp, fun _ => Or.inl ?_⟩
      have before := entriesIn.writes
      simp only [Bool.false_eq_true, if_false, Bool.not_false, if_true, Prog.run_pure] at *
      omega
    | true =>
      obtain ⟨flushed, _, same, failures⟩ :=
        Disk.flush_wroteIn (copyRegion header sectors) disk₂
      simp only [Bool.not_true, Bool.false_eq_true, if_false, Disk.run_deviceFlush]
      refine ⟨both.trans flushed, ?_, ?_⟩
      · intro _
        rw [same]
        exact holds rfl rfl
      · intro failed
        rw [failed] at failures
        have before := both.flushes
        simp only [Bool.false_eq_true, if_false] at failures
        exact Or.inr (by omega)

theorem gptRestoreCopy_spec (wholeSector : sector.length = size)
    (wholeEntries : entries.length = sectors * size)
    (apart : ¬Disk.range header.entriesLba sectors header.currentLba) :
    let out := Prog.run (Disk.handle device) (gptRestoreCopy header sectors entries sector) disk
    Disk.WroteIn (copyRegion header sectors) disk out.2 ∧ (out.2.failedWrites ≤ disk.failedWrites →
        HoldsCopy header sectors entries sector out.2.medium) := by
  obtain ⟨ok, disk₁, first⟩ : ∃ ok disk₁,
      disk.write device header.entriesLba sectors entries = (ok, disk₁) := ⟨_, _, rfl⟩
  obtain ⟨ok', disk₂, second⟩ : ∃ ok disk₂,
      disk₁.write device header.currentLba 1 sector = (ok, disk₂) := ⟨_, _, rfl⟩
  obtain ⟨entriesIn, headerIn, failed, failed', holds⟩ :=
    copyWrites_spec device disk wholeSector wholeEntries apart first second
  simp only [gptRestoreCopy, Prog.run_bind, Disk.run_deviceWrite, Prog.run_pure, first, second]
  refine ⟨entriesIn.trans headerIn, fun faultless => ?_⟩
  -- a write that had failed would have been counted
  apply holds
  · by_contra early
    rw [if_neg early] at failed
    have after := headerIn.writes
    omega
  · by_contra late
    rw [if_neg late] at failed'
    have before := entriesIn.writes
    omega

end Write

/-! ### Loading -/

/-- What is known of the copies once they have been loaded from a medium. -/
structure Loaded (device : Device) (slot : Nat) (medium : Nat → List UInt8)
    (copies : GptCopies) : Prop where
  primary : copies.primarySector = medium 1
  primaryValid : gptHeaderValid device 1 copies.primarySector = true
  backup : copies.backupSector = medium (gptHeader copies.primarySector).backupLba
  backupValid : gptHeaderValid device (gptHeader copies.primarySector).backupLba
    copies.backupSector = true
  layouts : gptLayoutsMatch (gptHeader copies.primarySector) (gptHeader copies.backupSector) = true
  slotInside : slot < (gptHeader copies.primarySector).entryCount
  sectors : copies.sectors = (gptHeader copies.primarySector).entriesSectors device.logicalBlockSize
  entries : copies.entries =
    (blocksAt medium (gptHeader copies.primarySector).entriesLba copies.sectors).flatten
  same : copies.entries.take (gptHeader copies.primarySector).entriesBytes =
    (blocksAt medium (gptHeader copies.backupSector).entriesLba copies.sectors).flatten.take
      (gptHeader copies.primarySector).entriesBytes
  primaryCrc : crc32 (copies.entries.take (gptHeader copies.primarySector).entriesBytes) =
    (gptHeader copies.primarySector).entriesCrc32
  backupCrc : crc32 (copies.entries.take (gptHeader copies.primarySector).entriesBytes) =
    (gptHeader copies.backupSector).entriesCrc32
  roomy : 512 ≤ device.logicalBlockSize

section Load

variable {size : Nat} {device : Device} {disk : Disk size}

theorem readGptHeader_spec (headerLba : Nat) :
    Prog.wp (Disk.handle device) (readGptHeader device headerLba)
      (fun result disk' => Disk.Untouched disk disk' ∧ ∀ sector, result = some sector →
        sector = disk.medium headerLba ∧ gptHeaderValid device headerLba sector = true) disk := by
  rw [readGptHeader, Prog.wp_guard]
  split
  · rw [Prog.wp_bind]
    apply Disk.wp_deviceRead
    · exact fun disk' same => ⟨same, by simp⟩
    · intro disk' same
      dsimp only
      rw [Prog.wp_guard]
      split
      · rename_i valid
        refine ⟨same, ?_⟩
        intro sector returned
        cases returned
        exact ⟨by simp [blocksAt], valid⟩
      · exact ⟨same, by simp⟩
  · exact ⟨Disk.Untouched.refl disk, by simp⟩

theorem sectors_no_wrap {header : GptHeader} {blockSize : Nat} (roomy : 512 ≤ blockSize)
    (small : header.entriesBytes ≤ 128 * 1024) :
    header.entriesSectors blockSize % 2 ^ 32 = header.entriesSectors blockSize := by
  apply Nat.mod_eq_of_lt
  rw [GptHeader.entriesSectors, Nat.div_lt_iff_lt_mul (by omega)]
  omega

theorem gptLoad_spec (mounted : Bool) (slot : Nat) :
    Prog.wp (Disk.handle device) (gptLoad device mounted slot)
      (fun result disk' => Disk.Untouched disk disk' ∧ ∀ copies, result = some copies →
        Loaded device slot disk.medium copies) disk := by
  rw [gptLoad, Prog.wp_guard]
  split
  · rename_i allowed
    rw [Prog.wp_bind]
    apply Prog.wp_mono (readGptHeader_spec 1)
    rintro (_ | primarySector) disk₁ ⟨same₁, primaryRead⟩
    · exact ⟨same₁, by simp⟩
    obtain ⟨primary, primaryValid⟩ := primaryRead _ rfl
    dsimp only
    rw [Prog.wp_bind]
    apply Prog.wp_mono (readGptHeader_spec _)
    rintro (_ | backupSector) disk₂ ⟨same₂, backupRead⟩
    · exact ⟨same₁.trans same₂, by simp⟩
    obtain ⟨backup, backupValid⟩ := backupRead _ rfl
    rw [same₁.medium] at backup
    have same := same₁.trans same₂
    dsimp only
    rw [Prog.wp_guard]
    split
    · rename_i matching
      rw [Prog.wp_guard]
      split
      · rename_i fits
        apply Disk.wp_deviceKmalloc
        intro _ disk₃ same₃
        apply Disk.wp_deviceKmalloc
        intro _ disk₄ same₄
        have same := same.trans (same₃.trans same₄)
        rw [Prog.wp_guard]
        split
        · rw [sectors_no_wrap (by omega) (by omega), Prog.wp_bind]
          apply Disk.wp_deviceRead
          · exact fun disk₅ same₅ => ⟨same.trans same₅, by simp⟩
          intro disk₅ same₅
          dsimp only
          rw [Prog.wp_bind]
          apply Disk.wp_deviceRead
          · exact fun disk₆ same₆ => ⟨(same.trans same₅).trans same₆, by simp⟩
          intro disk₆ same₆
          have media := same.medium
          have media' := (same.trans same₅).medium
          have same := (same.trans same₅).trans same₆
          dsimp only
          rw [Prog.wp_guard]
          split
          · rename_i equal
            rw [Prog.wp_guard]
            split
            · rename_i checked
              refine ⟨same, ?_⟩
              intro copies returned
              cases returned
              rw [media, media'] at equal
              rw [media] at checked ⊢
              exact ⟨primary, primaryValid, backup, backupValid, matching.1, matching.2, rfl, rfl,
                equal, checked.1, checked.2, by omega⟩
            · exact ⟨same, by simp⟩
          · exact ⟨same, by simp⟩
        · exact ⟨same, by simp⟩
      · exact ⟨same, by simp⟩
    · exact ⟨same, by simp⟩
  · exact ⟨Disk.Untouched.refl disk, by simp⟩

end Load

/-! ### Storing -/

/-- No block belongs to both copies, and in neither the header lies among the entries. -/
structure Apart (primary backup : GptHeader) (sectors : Nat) : Prop where
  primaryHeader : ¬Disk.range primary.entriesLba sectors primary.currentLba
  backupHeader : ¬Disk.range backup.entriesLba sectors backup.currentLba
  copies : ∀ lba, copyRegion primary sectors lba → ¬copyRegion backup sectors lba

/-- At most one write fails, and no flush does when one fails. -/
structure OneWriteFails {size : Nat} (disk disk' : Disk size) : Prop where
  writes : disk'.failedWrites ≤ disk.failedWrites + 1
  flushes : disk'.failedFlushes ≤ disk.failedFlushes ∨ disk'.failedWrites ≤ disk.failedWrites

/-- A medium with the copies that were loaded, and the entries, the CRC and the headers that
are about to be stored in their place. -/
structure Storing (size : Nat) (copies : GptCopies) (entries primarySector backupSector : List UInt8)
    (primary backup : GptHeader) (crc : Nat) (medium : Nat → List UInt8) : Prop where
  crcHere : crc32 (entries.take (gptHeader copies.primarySector).entriesBytes) = crc
  primaryNew : gptUpdateHeaderCrc copies.primarySector crc = primarySector
  backupNew : gptUpdateHeaderCrc copies.backupSector crc = backupSector
  primaryHeader : gptHeader primarySector = primary
  backupHeader : gptHeader backupSector = backup
  apart : Apart primary backup copies.sectors
  wholeEntries : entries.length = copies.sectors * size
  wholeOld : copies.entries.length = copies.sectors * size
  wholePrimary : copies.primarySector.length = size
  wholeBackup : copies.backupSector.length = size
  wholePrimaryNew : primarySector.length = size
  wholeBackupNew : backupSector.length = size
  old : HoldsCopy primary copies.sectors copies.entries copies.primarySector medium

/-- Taking one copy back: what it writes, and what is there when none of its writes fails. -/
structure TakenBack {size : Nat} (header : GptHeader) (sectors : Nat) (entries sector : List UInt8)
    (disk disk' : Disk size) : Prop where
  wrote : Disk.WroteIn (copyRegion header sectors) disk disk'
  holds : disk'.failedWrites ≤ disk.failedWrites → HoldsCopy header sectors entries sector disk'.medium

theorem TakenBack.flush {size : Nat} {header : GptHeader} {sectors : Nat}
    {entries sector : List UInt8} {disk disk' : Disk size}
    (back : TakenBack header sectors entries sector disk disk') :
    TakenBack header sectors entries sector disk disk'.flush.2 := by
  obtain ⟨flushed, writes, same, _⟩ := Disk.flush_wroteIn (copyRegion header sectors) disk'
  exact ⟨back.wrote.trans flushed, fun kept => same ▸ back.holds (writes ▸ kept)⟩

/-- A write or a flush failed in between. -/
def Failed {size : Nat} (disk disk' : Disk size) : Prop :=
  disk.failedWrites < disk'.failedWrites ∨ disk.failedFlushes < disk'.failedFlushes

section Store

variable {size : Nat} {disk : Disk size} {copies : GptCopies}
  {entries primarySector backupSector : List UInt8} {primary backup : GptHeader} {crc : Nat}

/-- The three ways to store: the backup copy fails and is taken back, both copies are
written, or the primary copy fails and both are taken back. -/
theorem gptStore_cases
    (storing : Storing size copies entries primarySector backupSector primary backup crc
      disk.medium)
    {stored : Bool} {final : Disk size}
    (ran : Prog.run (Disk.handle device) (gptStore copies entries) disk = (stored, final)) :
    ∃ middle, Disk.WroteIn (copyRegion backup copies.sectors) disk middle ∧
      (stored = false ∧ Failed disk middle ∧
        TakenBack backup copies.sectors copies.entries copies.backupSector middle final ∨
      HoldsCopy backup copies.sectors entries backupSector middle.medium ∧
        (stored = true ∧ Disk.WroteIn (copyRegion primary copies.sectors) middle final ∧
          HoldsCopy primary copies.sectors entries primarySector final.medium ∨
        stored = false ∧ ∃ broken restored,
          Disk.WroteIn (copyRegion primary copies.sectors) middle broken ∧ Failed middle broken ∧
          TakenBack primary copies.sectors copies.entries copies.primarySector broken restored ∧
          TakenBack backup copies.sectors copies.entries copies.backupSector restored final)) := by
  obtain ⟨crcHere, primaryNew, backupNew, primaryHeader, backupHeader, apart, wholeEntries,
    wholeOld, wholePrimary, wholeBackup, wholePrimaryNew, wholeBackupNew, old⟩ := storing
  have takesBack (disk : Disk size) :=
    gptRestoreCopy_spec device disk wholeBackup wholeOld apart.backupHeader
  simp only [gptStore, crcHere, primaryNew, backupNew, primaryHeader, backupHeader,
    Prog.run_bind] at ran
  obtain ⟨wroteBackup, newBackup, backupFailed⟩ :=
    gptWriteCopy_spec device disk wholeBackupNew wholeEntries apart.backupHeader
  obtain ⟨ok, middle, first⟩ : ∃ ok middle, Prog.run (Disk.handle device)
    (gptWriteCopy backup copies.sectors entries backupSector) disk = (ok, middle) := ⟨_, _, rfl⟩
  simp only [first] at wroteBackup newBackup backupFailed ran
  refine ⟨middle, wroteBackup, ?_⟩
  cases ok with
  | false =>
    simp only [Bool.not_false, if_true, Prog.run_bind, Disk.run_deviceFlush, Prog.run_pure] at ran
    obtain ⟨rfl, rfl⟩ := Prod.mk.inj ran
    exact Or.inl ⟨rfl, backupFailed rfl, TakenBack.flush ⟨(takesBack _).1, (takesBack _).2⟩⟩
  | true =>
    obtain ⟨wrotePrimary, newPrimary, primaryFailed⟩ :=
      gptWriteCopy_spec device middle wholePrimaryNew wholeEntries apart.primaryHeader
    obtain ⟨ok, broken, second⟩ : ∃ ok broken, Prog.run (Disk.handle device)
      (gptWriteCopy primary copies.sectors entries primarySector) middle = (ok, broken) :=
      ⟨_, _, rfl⟩
    simp only [Bool.not_true, Bool.false_eq_true, if_false, Prog.run_bind, second]
      at wrotePrimary newPrimary primaryFailed ran
    refine Or.inr ⟨newBackup rfl, ?_⟩
    cases ok with
    | true =>
      obtain ⟨rfl, rfl⟩ := Prod.mk.inj ran
      exact Or.inl ⟨rfl, wrotePrimary, newPrimary rfl⟩
    | false =>
      simp only [Bool.not_false, if_true, Prog.run_bind, Disk.run_deviceFlush, Prog.run_pure]
        at ran
      obtain ⟨rfl, rfl⟩ := Prod.mk.inj ran
      have restored :=
        gptRestoreCopy_spec device broken wholePrimary wholeOld apart.primaryHeader
      exact Or.inr ⟨rfl, broken, _, wrotePrimary, primaryFailed rfl, ⟨restored.1, restored.2⟩,
        TakenBack.flush ⟨(takesBack _).1, (takesBack _).2⟩⟩

theorem gptStore_crash
    (storing : Storing size copies entries primarySector backupSector primary backup crc
      disk.medium)
    (oneFails : OneWriteFails disk (Prog.run (Disk.handle device) (gptStore copies entries) disk).2)
    {medium : Nat → List UInt8}
    (crash : Disk.CrashBetween disk (Prog.run (Disk.handle device) (gptStore copies entries) disk).2 medium) :
    HoldsCopy primary copies.sectors copies.entries copies.primarySector medium ∨
      HoldsCopy backup copies.sectors entries backupSector medium := by
  have apart := storing.apart.copies
  obtain ⟨stored, final, ran⟩ : ∃ stored final, Prog.run (Disk.handle device)
    (gptStore copies entries) disk = (stored, final) := ⟨_, _, rfl⟩
  simp only [ran] at oneFails crash
  have keepsPrimary {disk' : Disk size}
      (wrote : Disk.WroteIn (copyRegion backup copies.sectors) disk disk')
      (crash : Disk.CrashBetween disk disk' medium) :
      HoldsCopy primary copies.sectors copies.entries copies.primarySector medium :=
    storing.old.congr fun lba inside => wrote.crash_outside crash (apart lba inside)
  obtain ⟨middle, wroteBackup, early | ⟨newBackup, written | late⟩⟩ := gptStore_cases storing ran
  · -- nothing but the backup copy is touched
    exact Or.inl (keepsPrimary (wroteBackup.trans early.2.2.wrote) crash)
  · rcases wroteBackup.crash_split written.2.1 crash with early | late
    · exact Or.inl (keepsPrimary wroteBackup early)
    · exact Or.inr (newBackup.congr fun lba inside =>
        written.2.1.crash_outside late fun other => apart lba other inside)
  · obtain ⟨-, broken, restored, wrotePrimary, failed, primaryBack, backupBack⟩ := late
    -- the failure has been counted, so the primary copy was restored
    have restored := primaryBack.holds (by
      have started := wroteBackup.writes
      have startedFlushes := wroteBackup.flushes
      have later := backupBack.wrote.writes
      have laterFlushes := primaryBack.wrote.flushes.trans backupBack.wrote.flushes
      have mono := wrotePrimary.writes
      have monoFlushes := wrotePrimary.flushes
      obtain ⟨writes, flushes⟩ := oneFails
      rw [Failed] at failed
      omega)
    have primaryPhase := wrotePrimary.trans primaryBack.wrote
    rcases wroteBackup.crash_split (primaryPhase.trans_any backupBack.wrote) crash with early | late
    · exact Or.inl (keepsPrimary wroteBackup early)
    · rcases primaryPhase.crash_split backupBack.wrote late with middle | last
      · exact Or.inr (newBackup.congr fun lba inside =>
          primaryPhase.crash_outside middle fun other => apart lba other inside)
      · exact Or.inl (restored.congr fun lba inside =>
          backupBack.wrote.crash_outside last (apart lba inside))

end Store

/-! ### The whole commit -/

theorem blocksAt_flatten_length {size : Nat} (sized : ∀ lba, (medium lba).length = size)
    (lba count : Nat) :
    (blocksAt medium lba count).flatten.length = count * size := by
  induction count with
  | zero => simp [blocksAt]
  | succ count ih =>
    simp only [blocksAt] at ih
    rw [blocksAt, List.range_succ, List.map_append, List.flatten_append, List.length_append, ih]
    simp [sized, Nat.succ_mul]

theorem entriesBytes_le (header : GptHeader) {blockSize : Nat} (positive : 0 < blockSize) :
    header.entriesBytes ≤ header.entriesSectors blockSize * blockSize := by
  have rounded := Nat.lt_div_mul_add positive (a := header.entriesBytes + blockSize - 1)
  simp only [GptHeader.entriesSectors]
  omega

variable {operation : GptOperation}

theorem gptEdit_length {header : GptHeader} {slot : Nat} {entries edited : List UInt8}
    (room : (slot + 1) * header.entrySize ≤ entries.length)
    (large : 128 ≤ header.entrySize)
    (done : gptEdit header slot operation entries = some edited) :
    edited.length = entries.length := by
  rw [Nat.succ_mul] at room
  have cleared : (put entries (slot * header.entrySize)
      (List.replicate header.entrySize 0)).length = entries.length :=
    put_length (by simpa using room)
  have extent : ∀ (bytes : List UInt8) (startLba blockCount : UInt64), bytes.length = entries.length →
      (putExtent bytes (slot * header.entrySize) startLba blockCount).length = entries.length := by
    intro bytes startLba blockCount whole
    have first : (putLE bytes (slot * header.entrySize + 32) 8 startLba.toNat).length =
        bytes.length := putLE_length (by omega) _
    rw [putExtent, putLE_length (by omega), first, whole]
  cases operation with
  | create typeGuid uniqueGuid name startLba blockCount =>
    cases typeGuid with
    | none => cases done
    | some typeGuid =>
      cases uniqueGuid with
      | none => cases done
      | some uniqueGuid =>
        simp only [gptEdit] at done
        split at done
        · cases done
        · cases done
          have typed : (put (put entries (slot * header.entrySize)
              (List.replicate header.entrySize 0)) (slot * header.entrySize) typeGuid.1).length =
                entries.length := by
            rw [put_length (by rw [typeGuid.2]; omega), cleared]
          have identified : (put (put (put entries (slot * header.entrySize)
              (List.replicate header.entrySize 0)) (slot * header.entrySize) typeGuid.1)
                (slot * header.entrySize + 16) uniqueGuid.1).length = entries.length := by
            rw [put_length (by rw [uniqueGuid.2]; omega), typed]
          apply extent
          cases name with
          | none => exact identified
          | some name =>
            dsimp only
            rw [put_length (by rw [name.2]; omega), identified]
  | delete =>
    simp only [gptEdit] at done
    split at done
    · cases done
    · cases done
      exact cleared
  | resize startLba blockCount =>
    simp only [gptEdit] at done
    split at done
    · cases done
    · cases done
      exact extent entries startLba blockCount rfl

theorem gptHeaderValid_fields {headerLba : Nat} {sector : List UInt8}
    (valid : gptHeaderValid device headerLba sector = true) :
    (gptHeader sector).currentLba = headerLba ∧ 128 ≤ (gptHeader sector).entrySize := by
  simp only [gptHeaderValid, gptPlacementValid, Bool.and_eq_true, Bool.not_eq_true',
    decide_eq_false_iff_not, beq_iff_eq] at valid
  omega

namespace Loaded

variable {device : Device} {slot : Nat} {medium : Nat → List UInt8} {copies : GptCopies}

theorem backup_sectors (loaded : Loaded device slot medium copies) :
    (gptHeader copies.backupSector).entriesBytes = (gptHeader copies.primarySector).entriesBytes ∧
      (gptHeader copies.backupSector).entriesSectors device.logicalBlockSize = copies.sectors := by
  have layouts := loaded.layouts
  simp only [gptLayoutsMatch, Bool.and_eq_true, beq_iff_eq] at layouts
  have bytes : (gptHeader copies.backupSector).entriesBytes =
      (gptHeader copies.primarySector).entriesBytes := by
    simp only [GptHeader.entriesBytes, layouts]
  exact ⟨bytes, by rw [loaded.sectors, GptHeader.entriesSectors, GptHeader.entriesSectors, bytes]⟩

theorem apart (loaded : Loaded device slot medium copies) (disjoint : DisjointCopies device medium) :
    Apart (gptHeader copies.primarySector) (gptHeader copies.backupSector) copies.sectors := by
  have here := (gptHeaderValid_fields loaded.primaryValid).1
  have there := (gptHeaderValid_fields loaded.backupValid).1
  have sectors := loaded.backup_sectors.2
  simp only [DisjointCopies, ← loaded.primary, ← loaded.backup, sectors, ← loaded.sectors,
    List.pairwise_cons, List.mem_cons, List.not_mem_nil, or_false, forall_eq_or_imp, forall_eq,
    List.Pairwise.nil, and_true] at disjoint
  refine ⟨?_, ?_, ?_⟩
  · rintro ⟨low, high⟩
    omega
  · rintro ⟨low, high⟩
    omega
  · rintro lba (rfl | ⟨low, high⟩) (same | ⟨low', high'⟩)
    all_goals omega

theorem copies_valid (loaded : Loaded device slot medium copies) : gptCopy device medium 1 =
        some (copies.entries.take (gptHeader copies.primarySector).entriesBytes) ∧
      gptCopy device medium (gptHeader copies.primarySector).backupLba =
        some (copies.entries.take (gptHeader copies.primarySector).entriesBytes) := by
  obtain ⟨bytes, sectors⟩ := loaded.backup_sectors
  constructor
  · simp only [gptCopy, ← loaded.primary, loaded.primaryValid, ← loaded.sectors, ← loaded.entries,
      loaded.primaryCrc, beq_self_eq_true, Bool.and_self, if_true]
  · simp only [gptCopy, ← loaded.backup, loaded.backupValid, sectors, bytes, ← loaded.same,
      loaded.backupCrc, beq_self_eq_true, Bool.and_self, if_true]

end Loaded

theorem untouched_crash {size : Nat} {disk disk' : Disk size}
    (same : Disk.Untouched disk disk') {medium : Nat → List UInt8}
    (crash : Disk.CrashBetween disk disk' medium) : medium = disk.medium := by
  funext lba
  exact (same.wroteIn fun _ => False).crash_outside crash id

def GptHeader.stamped (header : GptHeader) (entriesCrc ownCrc : Nat) : GptHeader :=
  { header with entriesCrc32 := entriesCrc, headerCrc32 := ownCrc }

theorem Loaded.storing {slot : Nat} {copies : GptCopies} {entries : List UInt8}
    (sized : ∀ lba, (medium lba).length = device.logicalBlockSize)
    (loaded : Loaded device slot medium copies) (disjoint : DisjointCopies device medium)
    (edited : gptEdited (gptHeader copies.primarySector) slot operation copies.entries = some entries) :
    ∃ crc < 2 ^ 32, ∃ primaryCrc backupCrc,
      Storing device.logicalBlockSize copies entries (gptUpdateHeaderCrc copies.primarySector crc)
        (gptUpdateHeaderCrc copies.backupSector crc)
        ((gptHeader copies.primarySector).stamped crc primaryCrc)
        ((gptHeader copies.backupSector).stamped crc backupCrc) crc medium := by
  obtain ⟨here, large⟩ := gptHeaderValid_fields loaded.primaryValid
  have apart := loaded.apart disjoint
  have roomy := loaded.roomy
  have wholePrimary : copies.primarySector.length = device.logicalBlockSize := by
    rw [loaded.primary, sized]
  have wholeBackup : copies.backupSector.length = device.logicalBlockSize := by
    rw [loaded.backup, sized]
  have wholeOld : copies.entries.length = copies.sectors * device.logicalBlockSize := by
    rw [loaded.entries, blocksAt_flatten_length sized]
  have wholeNew : entries.length = copies.sectors * device.logicalBlockSize := by
    rw [← wholeOld]
    apply gptEdit_length _ large (Option.filter_eq_some_iff.mp edited).1
    rw [wholeOld, loaded.sectors]
    calc (slot + 1) * (gptHeader copies.primarySector).entrySize
        ≤ (gptHeader copies.primarySector).entriesBytes :=
          Nat.mul_le_mul_right _ loaded.slotInside
      _ ≤ _ := entriesBytes_le _ (by omega)
  obtain ⟨crc, crcHere⟩ : ∃ crc,
      crc32 (entries.take (gptHeader copies.primarySector).entriesBytes) = crc := ⟨_, rfl⟩
  have small : crc < 2 ^ 32 := crcHere ▸ crc32_lt _
  refine ⟨crc, small, headerCrc (gptUpdateHeaderCrc copies.primarySector crc),
    headerCrc (gptUpdateHeaderCrc copies.backupSector crc), ?_⟩
  exact {
    crcHere := crcHere
    primaryNew := rfl
    backupNew := rfl
    primaryHeader := gptHeader_update (by omega) small
    backupHeader := gptHeader_update (by omega) small
    apart := ⟨apart.primaryHeader, apart.backupHeader, apart.copies⟩
    wholeEntries := wholeNew
    wholeOld := wholeOld
    wholePrimary := wholePrimary
    wholeBackup := wholeBackup
    wholePrimaryNew := by rw [gptUpdateHeaderCrc_length (by omega), wholePrimary]
    wholeBackupNew := by rw [gptUpdateHeaderCrc_length (by omega), wholeBackup]
    old := ⟨by rw [GptHeader.stamped, here, loaded.primary], loaded.entries.symm⟩ }

theorem store_survives {slot : Nat} {disk : Disk device.logicalBlockSize} {copies : GptCopies}
    {entries : List UInt8}
    (sized : ∀ lba, (disk.medium lba).length = device.logicalBlockSize)
    (loaded : Loaded device slot disk.medium copies)
    (disjoint : DisjointCopies device disk.medium)
    (edited : gptEdited (gptHeader copies.primarySector) slot operation copies.entries = some entries)
    (oneFails : OneWriteFails disk (Prog.run (Disk.handle device) (gptStore copies entries) disk).2)
    {medium : Nat → List UInt8}
    (crash : Disk.CrashBetween disk (Prog.run (Disk.handle device) (gptStore copies entries) disk).2 medium) :
    SurvivingCopy device (gptHeader copies.primarySector).backupLba
      (copies.entries.take (gptHeader copies.primarySector).entriesBytes)
      (gptNewTable device disk.medium slot operation) medium := by
  obtain ⟨hereP, _⟩ := gptHeaderValid_fields loaded.primaryValid
  obtain ⟨hereB, _⟩ := gptHeaderValid_fields loaded.backupValid
  obtain ⟨bytes, sectorsB⟩ := loaded.backup_sectors
  have roomy := loaded.roomy
  obtain ⟨crc, small, _, _, storing⟩ := loaded.storing sized disjoint edited
  have backupHeader := storing.backupHeader
  have wholeBackup := storing.wholeBackup
  have new : gptNewTable device disk.medium slot operation =
      some (entries.take (gptHeader copies.primarySector).entriesBytes) := by
    simp only [gptNewTable, ← loaded.primary, ← loaded.sectors, ← loaded.entries, edited, Option.map_some]
  rcases gptStore_crash storing oneFails crash with old | updated
  · refine ⟨1, by simp, _, ?_, Or.inl rfl⟩
    exact gptCopy_of_holds ⟨old.sectorThere, old.entriesThere⟩ loaded.sectors.symm hereP
      loaded.primaryValid loaded.primaryCrc
  · refine ⟨_, List.mem_cons_of_mem _ (List.mem_singleton_self _), _, ?_, Or.inr new⟩
    have fields : (gptHeader (gptUpdateHeaderCrc copies.backupSector crc)).entriesBytes =
        (gptHeader copies.primarySector).entriesBytes := by
      rw [backupHeader]
      exact bytes
    rw [← fields]
    apply gptCopy_of_holds
    · exact ⟨by rw [backupHeader]; exact updated.sectorThere,
        by rw [backupHeader]; exact updated.entriesThere⟩
    · rw [backupHeader]
      exact sectorsB
    · rw [backupHeader]
      exact hereB
    · exact gptHeaderValid_update (by omega) small loaded.backupValid
    · rw [fields, storing.crcHere, backupHeader, GptHeader.stamped]

/-- A commit stops before it writes, or it stores what it has loaded and changed. -/
theorem partitionGptCommit_cases {mounted : Bool} {slot : Nat}
    {disk final : Disk device.logicalBlockSize} {result : Option Unit}
    (ran : Prog.run (Disk.handle device) (partitionGptCommit device mounted slot operation).run
      disk = (result, final)) :
    result = none ∧ Disk.Untouched disk final ∨ ∃ copies entries disk',
      Disk.Untouched disk disk' ∧ Loaded device slot disk.medium copies ∧
      gptEdited (gptHeader copies.primarySector) slot operation copies.entries = some entries ∧
      Prog.run (Disk.handle device) (gptStore copies entries) disk' = (result.isSome, final) := by
  have all : Prog.wp (Disk.handle device) (partitionGptCommit device mounted slot operation)
      (fun result final => result = none ∧ Disk.Untouched disk final ∨ ∃ copies entries disk',
        Disk.Untouched disk disk' ∧ Loaded device slot disk.medium copies ∧
        gptEdited (gptHeader copies.primarySector) slot operation copies.entries = some entries ∧
        Prog.run (Disk.handle device) (gptStore copies entries) disk' = (result.isSome, final))
      disk := by
    rw [partitionGptCommit, Prog.wp_bind]
    apply Prog.wp_mono (gptLoad_spec mounted slot)
    rintro (_ | copies) disk' ⟨same, load⟩
    · exact Or.inl ⟨rfl, same⟩
    dsimp only
    rw [Prog.wp_ofOption]
    cases edited : gptEdited (gptHeader copies.primarySector) slot operation copies.entries with
    | none => exact Or.inl ⟨rfl, same⟩
    | some entries =>
      dsimp only
      rw [Prog.wp_lift, Prog.wp_guard_last]
      split
      · rename_i stored
        exact Or.inr ⟨copies, entries, disk', same, load copies rfl, edited, Prod.ext stored rfl⟩
      · rename_i failed
        exact Or.inr ⟨copies, entries, disk', same, load copies rfl, edited,
          Prod.ext (Bool.eq_false_iff.mpr failed) rfl⟩
  rw [Prog.wp, ran] at all
  exact all

/-- After every prefix of the block writes of a create, delete or resize, in a run in
which at most one write fails, one of the two copies is valid and describes the
complete old table or the complete new one. -/
theorem partitionGptCommit_survives (device : Device) (mounted : Bool) (slot : Nat)
    (operation : GptOperation) (start : Nat → List UInt8)
    (sized : ∀ lba, (start lba).length = device.logicalBlockSize) (outcomes : List Outcome)
    (disjoint : DisjointCopies device start) (backupLba : Nat)
    (named : gptHeaderValid device 1 (start 1) = true → (gptHeader (start 1)).backupLba = backupLba)
    (old : List UInt8)
    (valid : gptCopy device start 1 = some old ∨ gptCopy device start backupLba = some old)
    (oneFails : OneWriteFails (Disk.boot start sized outcomes)
      (Prog.run (Disk.handle device) (partitionGptCommit device mounted slot operation).run
        (Disk.boot start sized outcomes)).2)
    (medium : Nat → List UInt8)
    (crash : Disk.CrashBetween (Disk.boot start sized outcomes)
      (Prog.run (Disk.handle device) (partitionGptCommit device mounted slot operation).run
        (Disk.boot start sized outcomes)).2 medium) :
    SurvivingCopy device backupLba old (gptNewTable device start slot operation) medium := by
  obtain ⟨result, final, ran⟩ : ∃ result final, Prog.run (Disk.handle device)
    (partitionGptCommit device mounted slot operation).run (Disk.boot start sized outcomes) =
      (result, final) := ⟨_, _, rfl⟩
  rw [ran] at oneFails crash
  rcases partitionGptCommit_cases ran with ⟨-, same⟩ | ⟨copies, entries, disk', same, load, edited, store⟩
  · have here : medium = start := untouched_crash same crash
    rw [here]
    rcases valid with valid | valid
    · exact ⟨1, by simp, old, valid, Or.inl rfl⟩
    · exact ⟨backupLba, by simp, old, valid, Or.inl rfl⟩
  · have loaded : Loaded device slot start copies := load
    have medium' : disk'.medium = start := same.medium
    obtain ⟨primaryCopy, backupCopy⟩ := loaded.copies_valid
    have lba : (gptHeader copies.primarySector).backupLba = backupLba := by
      rw [loaded.primary]
      exact named (loaded.primary ▸ loaded.primaryValid)
    rw [lba] at backupCopy
    have table : copies.entries.take (gptHeader copies.primarySector).entriesBytes = old := by
      rcases valid with valid | valid
      · exact Option.some.inj (primaryCopy.symm.trans valid)
      · exact Option.some.inj (backupCopy.symm.trans valid)
    rw [← lba, ← table, ← medium']
    apply store_survives (by rwa [medium']) (by rwa [medium']) (by rwa [medium']) edited
    · rw [store]
      exact ⟨by rw [same.writes]; exact oneFails.writes,
        by rw [same.writes, same.flushes]; exact oneFails.flushes⟩
    · rw [store]
      obtain ⟨writes, made, trace, before, rfl⟩ := crash
      exact ⟨writes, made, by rw [same.written]; exact trace, before, by rw [same.medium]⟩

/-! A disk of 64 blocks with a table of one free entry. -/

def exampleDevice : Device where
  id := 0
  name := ['d', 'i', 's', 'k', '0']
  logicalBlockSize := 512
  physicalBlockSize := 512
  blockCount := 64
  flags := 0
  target := 0
  lun := 0
  startLba := 0
  parent := none
  ops := .driver

def exampleHeader (own other entries : Nat) : List UInt8 :=
  let sector := put (List.replicate 512 0) 0 gptSignature
  let sector := putLE (putLE (putLE sector 12 4 92) 24 8 own) 32 8 other
  let sector := putLE (putLE sector 40 8 3) 48 8 60
  let sector := putLE (putLE (putLE sector 72 8 entries) 80 4 1) 84 4 128
  gptUpdateHeaderCrc sector (crc32 (List.replicate 128 0))

def exampleStart (lba : Nat) : List UInt8 :=
  if lba = 1 then exampleHeader 1 63 2
  else if lba = 63 then exampleHeader 63 1 62
  else List.replicate 512 0

theorem exampleStart_sized (lba : Nat) : (exampleStart lba).length = 512 := by
  unfold exampleStart
  split
  · decide +kernel
  · split
    · decide +kernel
    · exact List.length_replicate

/-- A partition on blocks 10 to 19. -/
def exampleCreate : GptOperation :=
  .create (some ⟨List.replicate 16 1, rfl⟩) (some ⟨List.replicate 16 2, rfl⟩) none 10 10

/-- The write of the primary entries fails, having stored them at its first attempt. -/
def exampleOutcomes : List Outcome := List.replicate 9 ⟨false, []⟩ ++ [⟨true, [1, 0]⟩]

def exampleFinal : Disk exampleDevice.logicalBlockSize :=
  (Prog.run (Disk.handle exampleDevice)
    (partitionGptCommit exampleDevice false 0 exampleCreate).run
    (Disk.boot exampleStart exampleStart_sized exampleOutcomes)).2

/-- Right after the write that fails, only the backup copy is valid. -/
theorem partitionGptCommit_survives_example : SurvivingCopy exampleDevice 63 (List.replicate 128 0)
      (gptNewTable exampleDevice exampleStart 0 exampleCreate)
      (apply exampleStart (exampleFinal.written.take 3)) := by
  apply partitionGptCommit_survives exampleDevice false 0 exampleCreate exampleStart
    exampleStart_sized exampleOutcomes
  · decide +kernel
  · intro _
    decide +kernel
  · exact Or.inl (by decide +kernel)
  · exact ⟨by decide +kernel, by decide +kernel⟩
  · exact Disk.crashBetween_take exampleStart exampleStart_sized exampleOutcomes exampleFinal 3

end AsasOs.Partition
