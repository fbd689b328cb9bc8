import AsasOs.Partition.GptEdits
import AsasOs.Partition.Rescan

/-!
# What the commit accepts and what the scan accepts

The commit and the scan check a GPT table each on their own. Behind every sequence of
successful changes both copies hold the changed table, and the scan takes exactly its
entries over, unless more of them are in use than the scan has room for: the commit has no
such limit.
-/
namespace AsasOs.Partition

open Block Bytes Medium Prog

/-- A disk with a GPT: a protective MBR, and two copies of one table that lie apart. -/
structure GptDisk (device : Device) (medium : Nat → List UInt8) (table : List UInt8) : Prop where
  signature : bootSignature (medium 0) = true
  behind : protective (medium 0) = true
  primary : gptCopy device medium 1 = some table
  backup : gptCopy device medium (gptHeader (medium 1)).backupLba = some table
  layouts : gptLayoutsMatch (gptHeader (medium 1))
    (gptHeader (medium (gptHeader (medium 1)).backupLba)) = true
  entries : gptEntriesValid (gptHeader (medium 1)) table = true
  disjoint : DisjointCopies device medium
  notFirst : (gptHeader (medium 1)).backupLba ≠ 0
  whole : (gptHeader (medium 1)).entriesLba +
    (gptHeader (medium 1)).entriesSectors device.logicalBlockSize ≤ 2 ^ 64

/-! ### The commit -/

variable {device : Device}

theorem gptStore_holds {size : Nat} {disk : Disk size} {copies : GptCopies}
    {entries primarySector backupSector : List UInt8} {primary backup : GptHeader} {crc : Nat}
    (storing : Storing size copies entries primarySector backupSector primary backup crc disk.medium)
    (stored : (run (Disk.handle device) (gptStore copies entries) disk).1 = true) :
    let final := (run (Disk.handle device) (gptStore copies entries) disk).2
    HoldsCopy primary copies.sectors entries primarySector final.medium ∧
      HoldsCopy backup copies.sectors entries backupSector final.medium ∧
      Disk.WroteIn (fun lba => copyRegion backup copies.sectors lba ∨
        copyRegion primary copies.sectors lba) disk final := by
  obtain ⟨ok, final, ran⟩ : ∃ ok final, run (Disk.handle device)
    (gptStore copies entries) disk = (ok, final) := ⟨_, _, rfl⟩
  simp only [ran] at stored ⊢
  subst stored
  obtain ⟨middle, wroteBackup, early | ⟨newBackup, written | late⟩⟩ := gptStore_cases storing ran
  · cases early.1
  · obtain ⟨-, wrotePrimary, newPrimary⟩ := written
    refine ⟨newPrimary, ?_, wroteBackup.trans_any wrotePrimary⟩
    exact newBackup.congr fun lba inside =>
      wrotePrimary.medium_outside fun other => storing.apart.copies lba other inside
  · cases late.1

theorem gptHeaderValid_entriesLba {headerLba : Nat} {sector : List UInt8}
    (valid : gptHeaderValid device headerLba sector = true) :
    (gptHeader sector).entriesLba ≠ 0 := by
  simp only [gptHeaderValid, gptPlacementValid, Bool.and_eq_true, bne_iff_ne] at valid
  omega

/-- A copy that was stored with its new checksums is valid. -/
theorem gptCopy_stored {headerLba sectors crc own : Nat} {entries sector : List UInt8}
    {medium : Nat → List UInt8}
    (stamped : gptHeader (gptUpdateHeaderCrc sector crc) = (gptHeader sector).stamped crc own)
    (holds : HoldsCopy ((gptHeader sector).stamped crc own) sectors entries
      (gptUpdateHeaderCrc sector crc) medium)
    (whole : (gptHeader sector).entriesSectors device.logicalBlockSize = sectors)
    (sum : crc32 (entries.take (gptHeader sector).entriesBytes) = crc)
    (room : 92 ≤ sector.length) (small : crc < 2 ^ 32)
    (valid : gptHeaderValid device headerLba sector = true) :
    gptCopy device medium headerLba = some (entries.take (gptHeader sector).entriesBytes) := by
  have fields : (gptHeader (gptUpdateHeaderCrc sector crc)).entriesBytes =
      (gptHeader sector).entriesBytes := by
    rw [stamped]
    rfl
  rw [← stamped] at holds
  rw [← fields]
  apply gptCopy_of_holds holds
  · rw [stamped]
    exact whole
  · rw [stamped]
    exact (gptHeaderValid_fields valid).1
  · exact gptHeaderValid_update room small valid
  · rw [fields, sum, stamped, GptHeader.stamped]

/-- The change of a loaded table, stored on a disk with a GPT, is a disk with a GPT. -/
theorem store_commits {slot : Nat} {operation : GptOperation} {disk : Disk device.logicalBlockSize}
    {copies : GptCopies} {entries table : List UInt8}
    (sized : ∀ lba, (disk.medium lba).length = device.logicalBlockSize)
    (gpt : GptDisk device disk.medium table) (loaded : Loaded device slot disk.medium copies)
    (edited : gptEdited (gptHeader copies.primarySector) slot operation copies.entries = some entries)
    (stored : (run (Disk.handle device) (gptStore copies entries) disk).1 = true) :
    let final := (run (Disk.handle device) (gptStore copies entries) disk).2
    ∃ table', gptEdited (gptHeader (disk.medium 1)) slot operation table = some table' ∧
      GptDisk device final.medium table' ∧
      ∃ crc own, gptHeader (final.medium 1) =
        (gptHeader (disk.medium 1)).stamped crc own := by
  obtain ⟨hereP, large⟩ := gptHeaderValid_fields loaded.primaryValid
  obtain ⟨hereB, _⟩ := gptHeaderValid_fields loaded.backupValid
  obtain ⟨bytes, sectorsB⟩ := loaded.backup_sectors
  have roomy := loaded.roomy
  obtain ⟨crc, small, primaryCrc, backupCrc, storing⟩ := loaded.storing sized gpt.disjoint edited
  obtain ⟨newPrimary, newBackup, wrote⟩ := gptStore_holds storing stored
  have wholePrimary := storing.wholePrimary
  have wholeBackup := storing.wholeBackup
  have primaryHeader := storing.primaryHeader
  have backupHeader := storing.backupHeader
  obtain ⟨final, there⟩ : ∃ final,
      (run (Disk.handle device) (gptStore copies entries) disk).2 = final := ⟨_, rfl⟩
  rw [there] at newPrimary newBackup wrote ⊢
  have primarySector : final.medium 1 = gptUpdateHeaderCrc copies.primarySector crc := by
    have stored := newPrimary.sectorThere
    rwa [GptHeader.stamped, hereP] at stored
  have backupSector : final.medium (gptHeader copies.primarySector).backupLba =
      gptUpdateHeaderCrc copies.backupSector crc := by
    have stored := newBackup.sectorThere
    rwa [GptHeader.stamped, hereB] at stored
  have header : gptHeader (final.medium 1) =
      (gptHeader copies.primarySector).stamped crc primaryCrc := by
    rw [primarySector, primaryHeader]
  have lba : (gptHeader (final.medium 1)).backupLba =
      (gptHeader copies.primarySector).backupLba := by rw [header, GptHeader.stamped]
  have header' : gptHeader (final.medium (gptHeader (final.medium 1)).backupLba) =
      (gptHeader copies.backupSector).stamped crc backupCrc := by
    rw [lba, backupSector, backupHeader]
  -- the first block is in neither copy
  have first : final.medium 0 = disk.medium 0 := by
    apply wrote.medium_outside
    have entriesP := gptHeaderValid_entriesLba loaded.primaryValid
    have entriesB := gptHeaderValid_entriesLba loaded.backupValid
    have notFirst := gpt.notFirst
    rw [← loaded.primary] at notFirst
    rintro ((here | ⟨low, high⟩) | (here | ⟨low, high⟩))
    · exact notFirst (hereB.symm.trans here.symm)
    · exact entriesB (Nat.le_zero.mp low)
    · exact absurd (hereP.symm.trans here.symm) (by decide)
    · exact entriesP (Nat.le_zero.mp low)
  have room : (gptHeader copies.primarySector).entriesBytes ≤ copies.entries.length := by
    rw [storing.wholeOld, loaded.sectors]
    exact entriesBytes_le _ (by omega)
  have old : table = copies.entries.take (gptHeader copies.primarySector).entriesBytes :=
    Option.some.inj (gpt.primary.symm.trans loaded.copies_valid.1)
  have change : gptEdited _ slot operation _ = _ := gptEdited_take loaded.slotInside large room
  rw [edited, Option.map_some, ← old] at change
  have accepted := (Option.filter_eq_some_iff.mp edited).2
  refine ⟨entries.take (gptHeader copies.primarySector).entriesBytes, ?_, ?_, crc, primaryCrc, ?_⟩
  · rw [← loaded.primary]
    exact change
  · constructor
    · rw [first]
      exact gpt.signature
    · rw [first]
      exact gpt.behind
    · exact gptCopy_stored primaryHeader newPrimary loaded.sectors.symm storing.crcHere (by omega) small
        loaded.primaryValid
    · rw [lba, ← bytes]
      exact gptCopy_stored backupHeader newBackup sectorsB (bytes ▸ storing.crcHere) (by omega) small
        loaded.backupValid
    · rw [header', header]
      exact loaded.layouts
    · rw [header]
      exact (gptEntriesValid_take large entries).trans accepted
    · have disjoint := gpt.disjoint
      simp only [DisjointCopies, ← loaded.primary, ← loaded.backup] at disjoint
      simp only [DisjointCopies]
      rw [header', header]
      exact disjoint
    · rw [lba, loaded.primary]
      exact gpt.notFirst
    · rw [header]
      have whole := gpt.whole
      rw [← loaded.primary] at whole
      exact whole
  · rw [header, loaded.primary]

/-! ### The commit on a disk on which nothing fails -/

/-- A device whose partition table may be changed. -/
structure Changeable (device : Device) : Prop where
  root : device.parent = none
  valid : descriptionValid device = true
  writable : device.hasFlag BLOCK_DEVICE_FLAG_READ_ONLY = false
  known : device.blockCount ≠ 0
  bounded : device.blockCount < 2 ^ 64

section Succeeds

variable {device : Device} {disk : Disk device.logicalBlockSize}

theorem readGptHeader_succeeds {headerLba : Nat}
    {post : Option (List UInt8) → Disk device.logicalBlockSize → Prop}
    (changeable : Changeable device) (calm : disk.Calm)
    (valid : gptHeaderValid device headerLba (disk.medium headerLba) = true)
    (rest : ∀ disk', disk'.Calm → Disk.Untouched disk disk' → post (some (disk.medium headerLba)) disk') :
    Prog.wp (Disk.handle device) (readGptHeader device headerLba) post disk := by
  have inside := (gptHeaderValid_layout valid).2 changeable.known
  rw [readGptHeader, Prog.wp_guard, if_pos (scan_sizes changeable.valid), Prog.wp_bind]
  apply Disk.wp_deviceRead_calm calm
    (Disk.requestInBounds_inside (by omega) (by omega) changeable.bounded)
  intro disk' calm' same
  dsimp only
  have one : (blocksAt disk.medium headerLba 1).flatten = disk.medium headerLba := by
    simp [blocksAt]
  rw [Prog.wp_guard, one, if_pos valid]
  exact rest disk' calm' same

theorem gptCopy_valid {medium : Nat → List UInt8} {headerLba : Nat} {table : List UInt8}
    (copy : gptCopy device medium headerLba = some table) :
    gptHeaderValid device headerLba (medium headerLba) = true ∧
      table = entryTable device (gptHeader (medium headerLba)) medium ∧
      crc32 table = (gptHeader (medium headerLba)).entriesCrc32 := by
  unfold gptCopy at copy
  dsimp only at copy
  split at copy
  · rename_i valid
    cases copy
    rw [Bool.and_eq_true, beq_iff_eq] at valid
    exact ⟨valid.1, rfl, valid.2⟩
  · cases copy

theorem gptLoad_succeeds {slot : Nat} {table : List UInt8} (changeable : Changeable device)
    (calm : disk.Calm) (gpt : GptDisk device disk.medium table)
    (inside : slot < (gptHeader (disk.medium 1)).entryCount)
    (small : (gptHeader (disk.medium 1)).entriesBytes ≤ 128 * 1024) :
    Prog.wp (Disk.handle device) (gptLoad device false slot)
      (fun result disk' => ∃ copies, result = some copies ∧ disk'.Calm) disk := by
  have sizes := scan_sizes changeable.valid
  obtain ⟨primaryValid, primaryTable, primaryCrc⟩ := gptCopy_valid gpt.primary
  obtain ⟨backupValid, backupTable, backupCrc⟩ := gptCopy_valid gpt.backup
  have layout := (gptHeaderValid_layout primaryValid).1
  have layoutB := (gptHeaderValid_layout backupValid).1
  have large := layout.large
  have insideP := layout.inside changeable.known
  have insideB := layoutB.inside changeable.known
  have layouts := gpt.layouts
  simp only [gptLayoutsMatch, Bool.and_eq_true, beq_iff_eq] at layouts
  have bytes : (gptHeader (disk.medium (gptHeader (disk.medium 1)).backupLba)).entriesBytes =
      (gptHeader (disk.medium 1)).entriesBytes := by
    obtain ⟨⟨⟨-, count⟩, entrySize⟩, -⟩ := layouts
    rw [GptHeader.entriesBytes, GptHeader.entriesBytes, count, entrySize]
  have sectors : (gptHeader (disk.medium (gptHeader (disk.medium 1)).backupLba)).entriesSectors
      device.logicalBlockSize = (gptHeader (disk.medium 1)).entriesSectors device.logicalBlockSize := by
    rw [GptHeader.entriesSectors, GptHeader.entriesSectors, bytes]
  have nonempty : 128 ≤ (gptHeader (disk.medium 1)).entriesBytes := by
    have within := entry_within inside
    omega
  have someSectors : 0 < (gptHeader (disk.medium 1)).entriesSectors device.logicalBlockSize := by
    have room : _ ≤ _ * device.logicalBlockSize :=
      entriesBytes_le (gptHeader (disk.medium 1)) (by omega)
    rcases Nat.eq_zero_or_pos
      ((gptHeader (disk.medium 1)).entriesSectors device.logicalBlockSize) with none | more
    · rw [none, Nat.zero_mul] at room
      omega
    · exact more
  have allocation : (gptHeader (disk.medium 1)).entriesSectors device.logicalBlockSize *
      device.logicalBlockSize ≠ 0 := Nat.mul_ne_zero (by omega) (by omega)
  rw [gptLoad, Prog.wp_guard, if_pos ⟨changeable.root, fun low => sizes (Or.inl low),
    fun high => sizes (Or.inr high), changeable.writable, rfl⟩, Prog.wp_bind]
  apply readGptHeader_succeeds changeable calm primaryValid
  intro disk₁ calm₁ same₁
  have medium₁ := same₁.medium
  dsimp only
  rw [Prog.wp_bind]
  apply readGptHeader_succeeds changeable calm₁ (by rw [medium₁]; exact backupValid)
  intro disk₂ calm₂ same₂
  have medium₂ : disk₂.medium = disk.medium := same₂.medium.trans medium₁
  dsimp only
  rw [medium₁, Prog.wp_guard, if_pos ⟨gpt.layouts, inside⟩, Prog.wp_guard,
    if_pos ⟨by omega, by omega⟩, sectors_no_wrap (by omega) small]
  apply Disk.wp_deviceKmalloc_calm calm₂ allocation
  intro disk₃ calm₃ same₃
  apply Disk.wp_deviceKmalloc_calm calm₃ allocation
  intro disk₄ calm₄ same₄
  have medium₄ : disk₄.medium = disk.medium := (same₃.trans same₄).medium.trans medium₂
  rw [Prog.wp_guard, if_pos ⟨rfl, rfl⟩, Prog.wp_bind]
  apply Disk.wp_deviceRead_calm calm₄
    (Disk.requestInBounds_inside someSectors insideP changeable.bounded)
  intro disk₅ calm₅ same₅
  have medium₅ : disk₅.medium = disk.medium := same₅.medium.trans medium₄
  dsimp only
  rw [Prog.wp_bind]
  apply Disk.wp_deviceRead_calm calm₅
    (Disk.requestInBounds_inside someSectors (sectors ▸ insideB) changeable.bounded)
  intro disk₆ calm₆ same₆
  dsimp only
  rw [entryTable] at primaryTable
  rw [entryTable, bytes, sectors] at backupTable
  rw [medium₄, medium₅, Prog.wp_guard, if_pos (primaryTable.symm.trans backupTable), Prog.wp_guard]
  have checked : crc32 ((blocksAt disk.medium (gptHeader (disk.medium 1)).entriesLba
      ((gptHeader (disk.medium 1)).entriesSectors device.logicalBlockSize)).flatten.take
        (gptHeader (disk.medium 1)).entriesBytes) = crc32 table :=
    congrArg crc32 primaryTable.symm
  rw [if_pos ⟨checked.trans primaryCrc, checked.trans backupCrc⟩]
  exact ⟨_, rfl, calm₆⟩

theorem gptWriteCopy_succeeds {header : GptHeader} {sectors : Nat} {entries sector : List UInt8}
    (changeable : Changeable device) (calm : disk.Calm) (someSectors : 0 < sectors)
    (entriesInside : header.entriesLba + sectors ≤ device.blockCount)
    (headerInside : header.currentLba < device.blockCount) :
    (run (Disk.handle device) (gptWriteCopy header sectors entries sector) disk).1 = true ∧
      (run (Disk.handle device) (gptWriteCopy header sectors entries sector) disk).2.Calm := by
  have inside := Disk.requestInBounds_inside someSectors entriesInside changeable.bounded
  have insideHeader : requestInBounds device header.currentLba 1 = true :=
    Disk.requestInBounds_inside (by omega) (by omega) changeable.bounded
  have wroteEntries := calm.write device header.entriesLba sectors entries
  have calm₁ : (disk.write device header.entriesLba sectors entries).2.Calm :=
    calm.handle device (.write header.entriesLba sectors entries)
  rw [inside, changeable.writable] at wroteEntries
  simp only [gptWriteCopy, run_bind, Disk.run_deviceWrite, wroteEntries]
  simp only [Bool.not_false, Bool.and_self, Bool.not_true, Bool.false_eq_true, if_false, run_bind,
    Disk.run_deviceWrite]
  have wroteHeader := calm₁.write device header.currentLba 1 sector
  have calm₂ : ((disk.write device header.entriesLba sectors entries).2.write device
      header.currentLba 1 sector).2.Calm := calm₁.handle device (.write header.currentLba 1 sector)
  rw [insideHeader, changeable.writable] at wroteHeader
  simp only [wroteHeader]
  simp only [Bool.not_false, Bool.and_self, Bool.not_true, Bool.false_eq_true, if_false, Disk.run_deviceFlush]
  exact ⟨calm₂.flush, calm₂.handle device .flush⟩

theorem partitionGptCommit_succeeds {slot : Nat} {operation : GptOperation}
    {table edited : List UInt8} (changeable : Changeable device) (calm : disk.Calm)
    (gpt : GptDisk device disk.medium table)
    (inside : slot < (gptHeader (disk.medium 1)).entryCount)
    (small : (gptHeader (disk.medium 1)).entriesBytes ≤ 128 * 1024)
    (allowed : gptEdited (gptHeader (disk.medium 1)) slot operation table = some edited) :
    (run (Disk.handle device) (partitionGptCommit device false slot operation).run disk).1 =
    some () := by
  have sized : ∀ lba, (disk.medium lba).length = device.logicalBlockSize :=
    Disk.medium_sized calm.whole
  have load : Prog.wp (Disk.handle device) (gptLoad device false slot)
      (fun result disk' => (∃ copies, result = some copies ∧ disk'.Calm) ∧
        Disk.Untouched disk disk' ∧ ∀ copies, result = some copies →
          Loaded device slot disk.medium copies) disk :=
    ⟨gptLoad_succeeds changeable calm gpt inside small, gptLoad_spec false slot⟩
  have all : Prog.wp (Disk.handle device) (partitionGptCommit device false slot operation)
      (fun result _ => result = some ()) disk := by
    rw [partitionGptCommit, Prog.wp_bind]
    apply Prog.wp_mono load
    rintro result disk' ⟨⟨copies, rfl, calm'⟩, same, loads⟩
    have loaded : Loaded device slot disk.medium copies := loads copies rfl
    obtain ⟨hereP, large⟩ := gptHeaderValid_fields loaded.primaryValid
    obtain ⟨hereB, _⟩ := gptHeaderValid_fields loaded.backupValid
    obtain ⟨layoutP, blockP⟩ := gptHeaderValid_layout loaded.primaryValid
    obtain ⟨layoutB, blockB⟩ := gptHeaderValid_layout loaded.backupValid
    have known := changeable.known
    have sizes := scan_sizes changeable.valid
    have room : (gptHeader copies.primarySector).entriesBytes ≤ copies.entries.length := by
      rw [loaded.entries, blocksAt_flatten_length sized, loaded.sectors]
      exact entriesBytes_le _ (by omega)
    have old : table = copies.entries.take (gptHeader copies.primarySector).entriesBytes :=
      Option.some.inj (gpt.primary.symm.trans loaded.copies_valid.1)
    dsimp only
    rw [Prog.wp_ofOption]
    have change : gptEdited (gptHeader copies.primarySector) slot operation
        (copies.entries.take (gptHeader copies.primarySector).entriesBytes) = _ :=
      gptEdited_take loaded.slotInside large room
    rw [← old, loaded.primary, allowed] at change
    cases edited' : gptEdited (gptHeader copies.primarySector) slot operation copies.entries with
    | none =>
      rw [← loaded.primary, edited'] at change
      cases change
    | some entries =>
      dsimp only
      rw [Prog.wp_lift, Prog.wp_guard_last]
      obtain ⟨crc, small', primaryCrc, backupCrc, storing⟩ :=
        loaded.storing sized gpt.disjoint edited'
      have someSectors : 0 < copies.sectors := by
        have within := entry_within loaded.slotInside
        have room := storing.wholeOld
        rcases Nat.eq_zero_or_pos copies.sectors with none | more
        · rw [none, Nat.zero_mul] at room
          omega
        · exact more
      have insideP := layoutP.inside known
      have insideB := layoutB.inside known
      rw [← loaded.sectors] at insideP
      rw [loaded.backup_sectors.2] at insideB
      obtain ⟨wroteB, calmB⟩ := @gptWriteCopy_succeeds device disk'
        ((gptHeader copies.backupSector).stamped crc backupCrc) copies.sectors entries
        (gptUpdateHeaderCrc copies.backupSector crc) changeable calm' someSectors insideB
        (by rw [GptHeader.stamped, hereB]; exact blockB known)
      obtain ⟨wroteP, -⟩ := @gptWriteCopy_succeeds device _
        ((gptHeader copies.primarySector).stamped crc primaryCrc) copies.sectors entries
        (gptUpdateHeaderCrc copies.primarySector crc) changeable calmB someSectors insideP
        (by rw [GptHeader.stamped, hereP]; exact blockP known)
      have stored : (run (Disk.handle device) (gptStore copies entries) disk').1 = true := by
        simp only [gptStore, storing.crcHere, storing.primaryHeader, storing.backupHeader, run_bind, wroteB]
        simp only [Bool.not_true, Bool.false_eq_true, if_false, run_bind, wroteP]
        rfl
      rw [if_pos stored]
  exact all

end Succeeds

/-! ### Sequences of changes -/

/-- A call of `partition_gpt_create`, `partition_gpt_delete` or `partition_gpt_resize`, with
how the calls that it makes end. -/
structure GptCall where
  slot : Nat
  operation : GptOperation
  mounted : Bool
  outcomes : List Outcome

def GptCall.run {size : Nat} (device : Device) (call : GptCall) (disk : Disk size) :
    Option Unit × Disk size :=
  Prog.run (Disk.handle device)
    (partitionGptCommit device call.mounted call.slot call.operation).run
    { disk with outcomes := call.outcomes }

/-- The disk after a sequence of calls, if all of them succeed. -/
def commitAll {size : Nat} (device : Device) : List GptCall → Disk size → Option (Disk size)
  | [], disk => some disk
  | first :: rest, disk =>
    match first.run device disk with
    | (none, _) => none
    | (some _, disk) => commitAll device rest disk

/-- The table after a sequence of changes, if all of them are allowed. -/
def editAll (header : GptHeader) : List GptCall → List UInt8 → Option (List UInt8)
  | [], table => some table
  | first :: rest, table =>
    (gptEdited header first.slot first.operation table).bind (editAll header rest)

def creates (calls : List GptCall) : Nat := (calls.map (·.operation.creates)).sum

def deletes (calls : List GptCall) : Nat := (calls.map (·.operation.deletes)).sum

/-- A disk with a GPT, whose header has got other checksums and whose table is the changed
one. -/
structure Committed (device : Device) (header : GptHeader) (medium : Nat → List UInt8)
    (table : List UInt8) : Prop where
  gpt : GptDisk device medium table
  stamped : ∃ crc own, gptHeader (medium 1) = header.stamped crc own

theorem gptCopy_length {medium : Nat → List UInt8} {headerLba : Nat} {table : List UInt8}
    (sized : ∀ lba, (medium lba).length = device.logicalBlockSize)
    (copy : gptCopy device medium headerLba = some table) :
    128 ≤ (gptHeader (medium headerLba)).entrySize ∧
      table.length = (gptHeader (medium headerLba)).entriesBytes := by
  unfold gptCopy at copy
  dsimp only at copy
  split at copy
  · rename_i valid
    cases copy
    have headerValid := (Bool.and_eq_true_iff.mp valid).1
    have layout := (gptHeaderValid_layout headerValid).1
    have large := layout.large
    have fits := layout.fits
    refine ⟨large, List.length_take_of_le ?_⟩
    rw [blocksAt_flatten_length sized]
    exact entriesBytes_le _ (by omega)
  · cases copy

theorem call_commits {header : GptHeader} {disk : Disk device.logicalBlockSize}
    {table : List UInt8} {call : GptCall}
    (whole : disk.WholeBlocks)
    (committed : Committed device header disk.medium table)
    (done : (call.run device disk).1 = some ()) :
    ∃ table', gptEdited header call.slot call.operation table = some table' ∧
    call.slot < header.entryCount ∧
      Committed device header (call.run device disk).2.medium table' := by
  obtain ⟨crc, own, stamped⟩ := committed.stamped
  have sized : ∀ lba, (disk.medium lba).length = device.logicalBlockSize :=
    Disk.medium_sized whole
  obtain ⟨result, final, ran⟩ : ∃ result final, call.run device disk = (result, final) := ⟨_, _, rfl⟩
  rw [ran] at done ⊢
  cases done
  rcases partitionGptCommit_cases ran with ⟨failed, -⟩ | ⟨copies, entries, disk', same, load, edited, store⟩
  · cases failed
  · have medium' : disk'.medium = disk.medium := same.medium
    have loaded : Loaded device call.slot disk'.medium copies := by
      rw [medium']
      exact load
    have commits := store_commits (by rwa [medium']) (by rw [medium']; exact committed.gpt) loaded edited
      (congrArg Prod.fst store)
    simp only [store] at commits
    obtain ⟨table', change, gpt, crc', own', restamped⟩ := commits
    rw [medium', stamped] at change restamped
    have inside := loaded.slotInside
    rw [loaded.primary, medium', stamped] at inside
    exact ⟨table', change, inside, gpt, crc', own', restamped⟩

theorem commitAll_commits {header : GptHeader} :
    ∀ (calls : List GptCall) {disk final : Disk device.logicalBlockSize} {table : List UInt8},
      disk.WholeBlocks → Committed device header disk.medium table →
      commitAll device calls disk = some final →
      ∃ table', editAll header calls table = some table' ∧
        Committed device header final.medium table' ∧ final.WholeBlocks ∧
        (gptEntries header table').length + deletes calls =
          (gptEntries header table).length + creates calls := by
  intro calls
  induction calls with
  | nil =>
    intro disk final table whole committed done
    cases done
    exact ⟨table, rfl, committed, whole, rfl⟩
  | cons call rest ih =>
    intro disk final table whole committed done
    rw [commitAll] at done
    obtain ⟨disk', ran, done⟩ : ∃ disk', call.run device disk = (some (), disk') ∧
        commitAll device rest disk' = some final := by
      split at done
      · cases done
      · rename_i disk' ran
        exact ⟨disk', ran, done⟩
    have done' : (call.run device disk).1 = some () := by rw [ran]
    obtain ⟨table', change, inside, committed'⟩ := call_commits whole committed done'
    have whole' : (call.run device disk).2.WholeBlocks :=
      run_preserves (Disk.handle_wholeBlocks device) _ _ whole
    rw [ran] at committed' whole'
    obtain ⟨table'', edits, last, wholeLast, used⟩ := ih whole' committed' done
    obtain ⟨crc, own, stamped⟩ := committed.stamped
    have sizes := gptCopy_length (Disk.medium_sized whole) committed.gpt.primary
    rw [stamped] at sizes
    have step := gptEdited_used inside sizes.1 sizes.2 change
    refine ⟨table'', by rw [editAll, change]; exact edits, last, wholeLast, ?_⟩
    simp only [creates, deletes, List.map_cons, List.sum_cons] at used ⊢
    omega

/-! ### The scan -/

theorem gptEntries_stamped (header : GptHeader) (entriesCrc ownCrc : Nat) (table : List UInt8) :
    gptEntries (header.stamped entriesCrc ownCrc) table = gptEntries header table := rfl

/-- An entry in use with its type. -/
abbrev TypedEntry := TableEntry × List UInt8

def Candidate.typed (candidate : Candidate) : TypedEntry := (candidate.entry, candidate.typeGuid)

def PartitionInfo.typed (info : PartitionInfo) : TypedEntry := (info.entry, info.typeGuid)

/-- The entries in use of a GPT entry array, with their types. -/
def gptTypedEntries (header : GptHeader) (table : List UInt8) : List TypedEntry :=
  (List.range header.entryCount).filterMap fun index =>
    let entry := gptEntry table (index * header.entrySize)
    if guidIsZero entry.typeGuid then none
    else some (⟨index + 1, entry.firstLba, entry.lastLba - entry.firstLba + 1⟩, entry.typeGuid)

theorem gptTypedEntries_stamped (header : GptHeader) (entriesCrc ownCrc : Nat) (table : List UInt8) :
    gptTypedEntries (header.stamped entriesCrc ownCrc) table = gptTypedEntries header table := rfl

/-- The partitions that a scan records in a registry that holds only the disk. -/
def scanned (device : Device) (medium : Nat → List UInt8) : List TypedEntry :=
  (eval (mediumAnswer device medium)
    (partitionScanDevice 0 ⟨[device], []⟩)).2.partitions.map PartitionInfo.typed

def lastBlockTable (device : Device) (medium : Nat → List UInt8) : Option (List UInt8) :=
  if device.blockCount < 2 then none else acceptedTable device medium (device.blockCount - 1)

/-- The last block holds no table that the scan takes over, or one of which it records
nothing: no entry is in use, or the first one starts at block 0. -/
def NothingBehind (device : Device) (medium : Nat → List UInt8) : Prop :=
  ∀ table ∈ lastBlockTable device medium, ∀ candidate ∈
    (gptCandidatesOf (gptHeader (medium (device.blockCount - 1))) table
      (gptHeader (medium (device.blockCount - 1))).entryCount).head?, candidate.startLba = 0

section Scan

variable {device : Device} {medium : Nat → List UInt8} {table : List UInt8} {header : GptHeader}

theorem gptTypedEntries_entries (header : GptHeader) (table : List UInt8) :
    (gptTypedEntries header table).map Prod.fst = gptEntries header table := by
  unfold gptTypedEntries gptEntries
  rw [List.map_filterMap]
  apply List.filterMap_congr
  intro index _
  dsimp only
  split
  · rfl
  · rfl

theorem gptCandidatesOf_typed (placed : ∀ entry ∈ gptEntries header table, entry.startLba ≠ 0) :
    (gptCandidatesOf header table header.entryCount).map Candidate.typed =
    gptTypedEntries header table := by
  unfold gptCandidatesOf gptTypedEntries gptEntries at *
  rw [List.map_filterMap]
  apply List.filterMap_congr
  intro index member
  unfold gptCandidate
  dsimp only
  split
  · rfl
  · rename_i used
    have start := placed _ (List.mem_filterMap.mpr ⟨index, member, if_neg used⟩)
    have last := getLE_bound table (index * header.entrySize + 40) 8
    have count : ((gptEntry table (index * header.entrySize)).lastLba -
        (gptEntry table (index * header.entrySize)).firstLba + 1) % 2 ^ 64 =
          (gptEntry table (index * header.entrySize)).lastLba -
            (gptEntry table (index * header.entrySize)).firstLba + 1 := by
      apply Nat.mod_eq_of_lt
      dsimp only [gptEntry] at start ⊢
      omega
    simp only [Option.map_some, Candidate.typed, Candidate.entry, count]

theorem gptCandidatesOf_length (header : GptHeader) (table : List UInt8) :
    (gptCandidatesOf header table header.entryCount).length = (gptEntries header table).length := by
  unfold gptCandidatesOf gptEntries
  induction List.range header.entryCount with
  | nil => rfl
  | cons index rest ih =>
    rw [List.filterMap_cons, List.filterMap_cons]
    unfold gptCandidate at ih ⊢
    dsimp only at ih ⊢
    by_cases free : guidIsZero (gptEntry table (index * header.entrySize)).typeGuid = true
    · rw [if_pos free, if_pos free]
      exact ih
    · rw [if_neg free, if_neg free, List.length_cons, List.length_cons, ih]

theorem recordAll_typed (parent : Nat) (disk : Device) :
    ∀ (candidates : List Candidate) (s : Registries), ∃ taken, taken <+: candidates ∧
      (recordAll parent disk candidates s).2.partitions.map PartitionInfo.typed =
        s.partitions.map PartitionInfo.typed ++ taken.map Candidate.typed ∧
      ((recordAll parent disk candidates s).1 = true → taken = candidates) := by
  intro candidates
  induction candidates with
  | nil => exact fun s => ⟨[], List.prefix_refl _, (List.append_nil _).symm, fun _ => rfl⟩
  | cons candidate rest ih =>
    intro s
    rw [recordAll]
    cases found : recordPartition parent disk candidate s with
    | none =>
      refine ⟨[], List.nil_prefix, (List.append_nil _).symm, fun all => ?_⟩
      cases all
    | some s' =>
      obtain ⟨-, -, -, window, -, -, -, rfl⟩ := recordPartition_cases found
      obtain ⟨taken, front, recorded, all⟩ := ih ⟨s.devices ++ [window],
        s.partitions ++ [partitionInfo s.devices.length parent candidate]⟩
      refine ⟨candidate :: taken, List.cons_prefix_cons.mpr ⟨rfl, front⟩, ?_, fun done => ?_⟩
      · dsimp only
        rw [recorded, List.map_append, List.append_assoc]
        rfl
      · rw [all done]

theorem recordTable_some (parent : Nat) (disk : Device) (candidates : List Candidate) (s : Registries) :
    recordTable parent disk (some candidates) s =
      (if (recordAll parent disk candidates s).1 then candidates.length else 0,
        (recordAll parent disk candidates s).2) := by
  unfold recordTable
  dsimp only
  split
  · rename_i s' all
    rw [all]
    rfl
  · rename_i s' stopped
    rw [stopped]
    rfl

theorem scanned_eq (valid : descriptionValid device = true) (root : device.parent = none)
    (signature : bootSignature (medium 0) = true) (behind : protective (medium 0) = true) :
    scanned device medium = (eval (mediumAnswer device medium)
      (scanGpt 0 device ⟨[device], []⟩)).2.partitions.map PartitionInfo.typed := by
  unfold scanned
  rw [partitionScanDevice_eval rfl, scannedSector_medium valid root signature]
  dsimp only
  rw [if_pos behind]

theorem scanGpt_eval (answer : (op : DeviceOp) → op.Response) (parent : Nat) (s : Registries) :
    eval answer (scanGpt parent device s) =
      let result := recordTable parent device (eval answer (gptTableAt device 1).run) s
      if result.1 ≠ 0 ∨ device.blockCount < 2 then result
      else recordTable parent device
        (eval answer (gptTableAt device (device.blockCount - 1)).run) result.2 := by
  unfold scanGpt
  rw [eval_bind]
  dsimp only
  split
  · rfl
  · rw [eval_bind]
    rfl

theorem lastBlock_eval (valid : descriptionValid device = true) (bounded : device.blockCount < 2 ^ 64)
    (sized : ∀ lba, (medium lba).length = device.logicalBlockSize)
    (two : ¬device.blockCount < 2) :
    eval (mediumAnswer device medium) (gptTableAt device (device.blockCount - 1)).run =
      (lastBlockTable device medium).map fun table =>
        gptCandidatesOf (gptHeader (medium (device.blockCount - 1))) table
          (gptHeader (medium (device.blockCount - 1))).entryCount := by
  unfold lastBlockTable
  rw [if_neg two]
  apply gptTableAt_eval (scan_sizes valid) sized
  intro headerValid
  have inside := (gptHeaderValid_layout headerValid).1.inside (by omega)
  omega

theorem lastBlockTable_few (last : lastBlockTable device medium = some table) :
    (gptCandidatesOf (gptHeader (medium (device.blockCount - 1))) table
      (gptHeader (medium (device.blockCount - 1))).entryCount).length ≤ PARTITION_MAX_PER_DISK := by
  unfold lastBlockTable at last
  split at last
  · cases last
  · have accepted := (Option.filter_eq_some_iff.mp last).2
    exact of_decide_eq_true (Bool.and_eq_true_iff.mp accepted).2

theorem lastBlock_few (valid : descriptionValid device = true) (bounded : device.blockCount < 2 ^ 64)
    (sized : ∀ lba, (medium lba).length = device.logicalBlockSize)
    (two : ¬device.blockCount < 2) :
    ((recordTable 0 device (eval (mediumAnswer device medium)
      (gptTableAt device (device.blockCount - 1)).run) ⟨[device], []⟩).2.partitions.map
        PartitionInfo.typed).length ≤ PARTITION_MAX_PER_DISK := by
  rw [lastBlock_eval valid bounded sized two]
  cases last : lastBlockTable device medium with
  | none => exact Nat.zero_le _
  | some table =>
    rw [Option.map_some, recordTable_some]
    obtain ⟨taken, front, recorded, -⟩ := recordAll_typed 0 device
      (gptCandidatesOf (gptHeader (medium (device.blockCount - 1))) table
        (gptHeader (medium (device.blockCount - 1))).entryCount) ⟨[device], []⟩
    rw [recorded, List.map_nil, List.nil_append, List.length_map]
    exact front.length_le.trans (lastBlockTable_few last)

theorem alone_room (device : Device) {count : Nat} (few : count ≤ PARTITION_MAX_PER_DISK) :
    Room ⟨[device], []⟩ count := by
  have spare : 1 + PARTITION_MAX_PER_DISK ≤ BLOCK_DEVICE_MAX_COUNT := by decide
  constructor
  · simp only [List.length_singleton]
    omega
  · simp only [List.length_nil]
    omega

theorem scanned_start (device : Device) (medium : Nat → List UInt8) :
    ∀ entry ∈ scanned device medium, entry.1.startLba ≠ 0 := by
  intro entry member
  have start : Safe ⟨[device], []⟩ := (Scanned.start [device]).safe
  have safe : Safe (eval (mediumAnswer device medium)
      (partitionScanDevice 0 ⟨[device], []⟩)).2 := (partitionScanDevice_safe 0 start).eval
  obtain ⟨info, among, rfl⟩ := List.mem_map.mp member
  exact Nat.ne_of_gt (safe.recorded info among).start

theorem lastBlock_records (valid : descriptionValid device = true) (bounded : device.blockCount < 2 ^ 64)
    (sized : ∀ lba, (medium lba).length = device.logicalBlockSize)
    (two : ¬device.blockCount < 2) :
    (recordTable 0 device (eval (mediumAnswer device medium)
      (gptTableAt device (device.blockCount - 1)).run) ⟨[device], []⟩).2.partitions.map
        PartitionInfo.typed = [] ↔ NothingBehind device medium := by
  rw [lastBlock_eval valid bounded sized two]
  unfold NothingBehind
  cases last : lastBlockTable device medium with
  | none =>
    constructor
    · intro _ table found
      cases found
    · exact fun _ => rfl
  | some table =>
    rw [Option.map_some, recordTable_some]
    simp only [Option.mem_some_iff, forall_eq']
    cases candidates : gptCandidatesOf (gptHeader (medium (device.blockCount - 1))) table
        (gptHeader (medium (device.blockCount - 1))).entryCount with
    | nil =>
      constructor
      · intro _ candidate first
        cases first
      · exact fun _ => rfl
    | cons candidate rest =>
      simp only [List.head?_cons, Option.mem_some_iff, forall_eq']
      rw [recordAll]
      by_cases start : candidate.startLba = 0
      · -- the first candidate is refused, and the others with it
        have refused : recordPartition 0 device candidate ⟨[device], []⟩ = none := by
          unfold recordPartition extentRefused
          rw [if_pos]
          refine Or.inr ?_
          rw [start]
          simp
        rw [refused]
        exact ⟨fun _ => start, fun _ => rfl⟩
      · have among : candidate ∈ gptCandidatesOf (gptHeader (medium (device.blockCount - 1))) table
            (gptHeader (medium (device.blockCount - 1))).entryCount := by
          rw [candidates]
          exact List.mem_cons_self
        obtain ⟨index, member, made⟩ := List.mem_filterMap.mp among
        unfold lastBlockTable at last
        rw [if_neg two] at last
        obtain ⟨copy, accepted⟩ := Option.filter_eq_some_iff.mp last
        obtain ⟨entries, few⟩ := Bool.and_eq_true_iff.mp accepted
        have all := entriesAccepted_iff.mpr ⟨entries, of_decide_eq_true few⟩ index
          (List.mem_range.mp member)
        have used : ¬guidIsZero (gptEntry table (index *
            (gptHeader (medium (device.blockCount - 1))).entrySize)).typeGuid = true := by
          intro free
          have none_made : gptCandidate (gptHeader (medium (device.blockCount - 1))) table index =
              none := if_pos free
          rw [none_made] at made
          cases made
        have placed := gptCandidate_placed (gptCopy_lastUsable copy) (all.resolve_left used) made
          start
        have here : (⟨[device], []⟩ : Registries).devices[0]? = some device := rfl
        obtain ⟨window, -, recorded⟩ := recordPartition_succeeds here valid
          (alone_room device (by decide)) placed (fun existing member => by cases member)
        rw [recorded]
        obtain ⟨taken, -, grown, -⟩ := recordAll_typed 0 device rest
          ⟨[device] ++ [window], [] ++ [partitionInfo 1 0 candidate]⟩
        constructor
        · intro empty
          have nothing := grown.symm.trans empty
          simp at nothing
        · exact fun same => absurd same start

/-- The scan of a disk with a GPT records the entries of its table exactly if there is room for
them, none starts at block 0, and a table without entries has none behind it. -/
theorem scanned_iff (valid : descriptionValid device = true) (root : device.parent = none)
    (bounded : device.blockCount < 2 ^ 64)
    (sized : ∀ lba, (medium lba).length = device.logicalBlockSize)
    (gpt : GptDisk device medium table) :
    scanned device medium = gptTypedEntries (gptHeader (medium 1)) table ↔
      (gptEntries (gptHeader (medium 1)) table).length ≤ PARTITION_MAX_PER_DISK ∧
        (∀ entry ∈ gptEntries (gptHeader (medium 1)) table, entry.startLba ≠ 0) ∧
        (gptEntries (gptHeader (medium 1)) table = [] → NothingBehind device medium) := by
  have lengths : (gptTypedEntries (gptHeader (medium 1)) table).length =
      (gptEntries (gptHeader (medium 1)) table).length := by
    rw [← gptTypedEntries_entries, List.length_map]
  have primary := gptTableAt_eval (scan_sizes valid) sized fun _ => gpt.whole
  have onDisk := scanned_eq valid root gpt.signature gpt.behind
  rw [scanGpt_eval] at onDisk
  by_cases few : (gptEntries (gptHeader (medium 1)) table).length ≤ PARTITION_MAX_PER_DISK
  · have taken : acceptedTable device medium 1 = some table := by
      unfold acceptedTable
      rw [gpt.primary, Option.filter_some, gpt.entries, gptCandidatesOf_length, decide_eq_true few]
      rfl
    rw [primary, taken, Option.map_some, recordTable_some] at onDisk
    by_cases placed : ∀ entry ∈ gptEntries (gptHeader (medium 1)) table, entry.startLba ≠ 0
    · have same := gptCandidatesOf_typed placed
      have count := gptCandidatesOf_length (gptHeader (medium 1)) table
      have recordable := gptCandidatesOf_recordable gpt.entries (by rw [count]; exact few) placed
        (gptCopy_lastUsable gpt.primary) _ (Nat.le_refl _)
      have here : (⟨[device], []⟩ : Registries).devices[0]? = some device := rfl
      have room : Room ⟨[device], []⟩ (gptCandidatesOf (gptHeader (medium 1)) table
          (gptHeader (medium 1)).entryCount).length := alone_room device (by rw [count]; exact few)
      obtain ⟨s', all, -⟩ := recordAll_adds valid _ _ here room recordable
        (fun _ _ existing member => by cases member)
      obtain ⟨recorded, front, typed, whole⟩ := recordAll_typed 0 device
        (gptCandidatesOf (gptHeader (medium 1)) table (gptHeader (medium 1)).entryCount)
        ⟨[device], []⟩
      rw [all] at typed whole onDisk
      rw [whole rfl, List.map_nil, List.nil_append, same] at typed
      dsimp only at onDisk typed
      rw [if_pos rfl, count] at onDisk
      by_cases empty : gptEntries (gptHeader (medium 1)) table = []
      · have nothing : gptTypedEntries (gptHeader (medium 1)) table = [] := by
          apply List.eq_nil_of_length_eq_zero
          rw [lengths, empty]
          rfl
        have none_made : gptCandidatesOf (gptHeader (medium 1)) table
            (gptHeader (medium 1)).entryCount = [] := by
          apply List.eq_nil_of_length_eq_zero
          rw [count, empty]
          rfl
        have unchanged : s' = ⟨[device], []⟩ := by
          rw [none_made] at all
          exact (congrArg Prod.snd all).symm
        rw [nothing]
        rw [empty, unchanged] at onDisk
        simp only [List.length_nil, ne_eq, not_true_eq_false, false_or] at onDisk
        have condition : (([] : List TableEntry).length ≤ PARTITION_MAX_PER_DISK ∧
            (∀ entry ∈ ([] : List TableEntry), entry.startLba ≠ 0) ∧
            (([] : List TableEntry) = [] → NothingBehind device medium)) ↔ NothingBehind device medium :=
          ⟨fun all => all.2.2 rfl, fun clear => ⟨Nat.zero_le _, by simp, fun _ => clear⟩⟩
        rw [empty, condition]
        by_cases two : device.blockCount < 2
        · rw [if_pos two] at onDisk
          rw [onDisk]
          refine ⟨fun _ table found => ?_, fun _ => rfl⟩
          unfold lastBlockTable at found
          rw [if_pos two] at found
          cases found
        · rw [if_neg two] at onDisk
          rw [onDisk]
          exact lastBlock_records valid bounded sized two
      · have some_made : (gptEntries (gptHeader (medium 1)) table).length ≠ 0 :=
          fun zero => empty (List.eq_nil_of_length_eq_zero zero)
        rw [if_pos (Or.inl some_made)] at onDisk
        rw [onDisk, typed]
        exact ⟨fun _ => ⟨few, placed, fun none => absurd none empty⟩, fun _ => rfl⟩
    · -- what is recorded does not start at block 0
      refine ⟨fun same => ?_, fun condition => absurd condition.2.1 placed⟩
      exfalso
      apply placed
      intro entry member
      rw [← gptTypedEntries_entries, ← same] at member
      obtain ⟨typed, among, rfl⟩ := List.mem_map.mp member
      exact scanned_start device medium typed among
  · -- the primary copy is not taken over, and the last block does not make up for it
    refine ⟨fun same => ?_, fun condition => absurd condition.1 few⟩
    have refused : acceptedTable device medium 1 = none := by
      unfold acceptedTable
      rw [gpt.primary, Option.filter_some, gptCandidatesOf_length, decide_eq_false few,
        Bool.and_false, if_neg Bool.false_ne_true]
    rw [primary, refused, Option.map_none] at onDisk
    have none_recorded : recordTable 0 device none ⟨[device], []⟩ = (0, ⟨[device], []⟩) := rfl
    rw [none_recorded] at onDisk
    simp only [ne_eq, not_true_eq_false, false_or] at onDisk
    exfalso
    apply few
    rw [← lengths, ← same, onDisk]
    by_cases two : device.blockCount < 2
    · rw [if_pos two]
      exact Nat.zero_le _
    · rw [if_neg two]
      exact lastBlock_few valid bounded sized two

theorem gptEntries_placed (gpt : GptDisk device medium table) :
    (∀ entry ∈ gptEntries (gptHeader (medium 1)) table, entry.startLba ≠ 0) ↔
      (gptHeader (medium 1)).firstUsableLba ≠ 0 ∨ (gptEntries (gptHeader (medium 1)) table).length =
      0 := by
  have bounds : ∀ entry ∈ gptEntries (gptHeader (medium 1)) table,
      (gptHeader (medium 1)).firstUsableLba ≤ entry.startLba ∧
        entry.startLba ≤ (gptHeader (medium 1)).lastUsableLba := by
    intro entry member
    obtain ⟨index, inside, made⟩ := List.mem_filterMap.mp member
    dsimp only at made
    split at made
    · cases made
    · rename_i used
      cases made
      have valid := List.all_eq_true.mp gpt.entries index inside
      simp only [Bool.or_eq_true, used, Bool.false_eq_true, false_or, Bool.and_eq_true,
        Bool.not_eq_true', decide_eq_false_iff_not] at valid
      dsimp only
      omega
  constructor
  · intro placed
    by_cases zero : (gptHeader (medium 1)).firstUsableLba = 0
    · right
      cases here : gptEntries (gptHeader (medium 1)) table with
      | nil => rfl
      | cons entry rest =>
        -- the header at block 1 lies outside the blocks for partitions
        have member : entry ∈ gptEntries (gptHeader (medium 1)) table := by
          rw [here]
          exact List.mem_cons_self
        have start := placed entry member
        have inside := bounds entry member
        have primary := gpt.primary
        unfold gptCopy at primary
        dsimp only at primary
        split at primary
        · rename_i valid
          have headerValid := (Bool.and_eq_true_iff.mp valid).1
          simp only [gptHeaderValid, gptPlacementValid, Bool.and_eq_true, Bool.not_eq_true',
            decide_eq_false_iff_not, beq_iff_eq, bne_iff_ne, Bool.and_eq_false_iff,
            Bool.or_eq_false_iff, bne_eq_false_iff_eq] at headerValid
          omega
        · cases primary
    · exact Or.inl zero
  · rintro (first | none_used) entry member
    · have inside := bounds entry member
      omega
    · rw [List.eq_nil_of_length_eq_zero none_used] at member
      cases member

end Scan

/-- Whatever GPT disk and whatever sequence of successful creates, deletes and resizes: both
copies hold the changed table, and the scan of the disk with a registry that holds only this
disk records exactly the entries in use of that table, with their extents and types, if and
only if no more of them are in use than the scan has room for, block 0 is no block for
partitions (or no entry is in use), and no other table stands behind a table without
entries. -/
theorem gpt_scan_agrees (device : Device) (valid : descriptionValid device = true)
    (root : device.parent = none) (bounded : device.blockCount < 2 ^ 64)
    (start : Nat → List UInt8) (sized : ∀ lba, (start lba).length = device.logicalBlockSize)
    (table : List UInt8) (gpt : GptDisk device start table) (calls : List GptCall)
    (final : Disk device.logicalBlockSize)
    (done : commitAll device calls (Disk.boot start sized []) = some final) :
    ∃ table', editAll (gptHeader (start 1)) calls table = some table' ∧
      gptCopy device final.medium 1 = some table' ∧
      gptCopy device final.medium (gptHeader (start 1)).backupLba = some table' ∧
      (scanned device final.medium = gptTypedEntries (gptHeader (start 1)) table' ↔
        (gptEntries (gptHeader (start 1)) table).length + creates calls ≤
          PARTITION_MAX_PER_DISK + deletes calls ∧
        ((gptHeader (start 1)).firstUsableLba ≠ 0 ∨
          (gptEntries (gptHeader (start 1)) table).length + creates calls = deletes calls) ∧
        ((gptEntries (gptHeader (start 1)) table).length + creates calls = deletes calls →
          NothingBehind device final.medium)) := by
  have begin : Committed device (gptHeader (start 1)) (Disk.boot start sized []).medium table :=
    ⟨gpt, _, _, rfl⟩
  obtain ⟨table', edits, committed, whole, used⟩ := commitAll_commits calls
    (fun _ member => (List.not_mem_nil member).elim) begin done
  obtain ⟨crc, own, stamped⟩ := committed.stamped
  have backup := committed.gpt.backup
  have agrees := scanned_iff valid root bounded (Disk.medium_sized whole) committed.gpt
  rw [gptEntries_placed committed.gpt] at agrees
  rw [stamped] at backup agrees
  rw [gptEntries_stamped, gptTypedEntries_stamped] at agrees
  refine ⟨table', edits, committed.gpt.primary, backup, agrees.trans ?_⟩
  rw [← List.length_eq_zero_iff]
  have few : (gptEntries (gptHeader (start 1)) table').length ≤ PARTITION_MAX_PER_DISK ↔
      (gptEntries (gptHeader (start 1)) table).length + creates calls ≤
        PARTITION_MAX_PER_DISK + deletes calls := by omega
  have none_used : (gptEntries (gptHeader (start 1)) table').length = 0 ↔
      (gptEntries (gptHeader (start 1)) table).length + creates calls = deletes calls := by omega
  rw [few, none_used]
  rfl

/-- The disk with one free entry, behind a protective MBR. -/
def protectedStart (lba : Nat) : List UInt8 :=
  if lba = 0 then put (putLE (List.replicate 512 0) 450 1 0xEE) 510 [0x55, 0xAA]
  else exampleStart lba

theorem protectedStart_sized (lba : Nat) : (protectedStart lba).length = 512 := by
  unfold protectedStart
  split
  · decide +kernel
  · exact exampleStart_sized lba

theorem protectedStart_gpt : GptDisk exampleDevice protectedStart (List.replicate 128 0) := by
  constructor
  all_goals decide +kernel

/-- The partition that is created is found by the scan. -/
theorem gpt_scan_agrees_example : ∃ final table', commitAll exampleDevice [⟨0, exampleCreate, false, []⟩]
        (Disk.boot protectedStart protectedStart_sized []) = some final ∧
      editAll (gptHeader (protectedStart 1)) [⟨0, exampleCreate, false, []⟩]
        (List.replicate 128 0) = some table' ∧
      scanned exampleDevice final.medium = gptTypedEntries (gptHeader (protectedStart 1)) table' := by
  have succeeds : (commitAll exampleDevice [⟨0, exampleCreate, false, []⟩]
      (Disk.boot protectedStart protectedStart_sized [])).isSome = true := by decide +kernel
  obtain ⟨final, done⟩ := Option.isSome_iff_exists.mp succeeds
  obtain ⟨table', edits, -, -, agrees⟩ := gpt_scan_agrees exampleDevice (by decide +kernel) rfl
    (by decide) protectedStart protectedStart_sized _ protectedStart_gpt _ final done
  refine ⟨final, table', done, edits, agrees.mpr ⟨by decide +kernel, ?_, ?_⟩⟩
  · exact Or.inl (by decide +kernel)
  · intro none_used
    exact absurd none_used (by decide +kernel)

example : scanned exampleDevice protectedStart = [] := by decide +kernel

/-! ### A disk with one entry less in use than the array has -/

theorem gptCopy_made {medium : Nat → List UInt8} {headerLba : Nat} {sector table : List UInt8}
    (room : 92 ≤ sector.length)
    (there : medium headerLba = gptUpdateHeaderCrc sector (crc32 table))
    (placed : gptPlacementValid device headerLba (gptHeader sector) = true)
    (entries : entryTable device (gptHeader sector) medium = table) :
    gptCopy device medium headerLba = some table ∧
      ∃ own, gptHeader (medium headerLba) = (gptHeader sector).stamped (crc32 table) own := by
  have header : gptHeader (medium headerLba) = (gptHeader sector).stamped (crc32 table) _ :=
    (congrArg gptHeader there).trans (gptHeader_update room (crc32_lt table))
  refine ⟨?_, _, header⟩
  have own : headerCrc (medium headerLba) = (gptHeader (medium headerLba)).headerCrc32 := by
    rw [header, GptHeader.stamped, there]
  have same : entryTable device (gptHeader (medium headerLba)) medium = table := by
    rw [header]
    exact entries
  have placed' : gptPlacementValid device headerLba (gptHeader (medium headerLba)) = true := by
    rw [header]
    exact placed
  have crc : crc32 table = (gptHeader (medium headerLba)).entriesCrc32 := by
    rw [header, GptHeader.stamped]
  rw [entryTable] at same
  simp only [gptCopy, gptHeaderValid, placed', own, same, ← crc, beq_self_eq_true, Bool.and_self, if_true]

/-- Sixteen partitions of one block each, and a free entry. -/
def fullTable : List UInt8 :=
  ((List.range 16).flatMap fun index => List.replicate 16 1 ++ List.replicate 16 2 ++
    digits 8 (10 + index) ++ digits 8 (10 + index) ++ List.replicate 80 0) ++ List.replicate 128 0

def fullSector (own other entries : Nat) : List UInt8 :=
  let sector := put (List.replicate 512 0) 0 gptSignature
  let sector := putLE (putLE (putLE sector 12 4 92) 24 8 own) 32 8 other
  let sector := putLE (putLE sector 40 8 7) 48 8 57
  putLE (putLE (putLE sector 72 8 entries) 80 4 17) 84 4 128

def fullStart (lba : Nat) : List UInt8 :=
  if lba = 0 then put (putLE (List.replicate 512 0) 450 1 0xEE) 510 [0x55, 0xAA]
  else if lba = 1 then gptUpdateHeaderCrc (fullSector 1 63 2) (crc32 fullTable)
  else if lba = 63 then gptUpdateHeaderCrc (fullSector 63 1 58) (crc32 fullTable)
  else if 2 ≤ lba ∧ lba < 7 then Disk.chunk 512 fullTable (lba - 2)
  else if 58 ≤ lba ∧ lba < 63 then Disk.chunk 512 fullTable (lba - 58)
  else List.replicate 512 0

theorem fullSector_length : (fullSector 1 63 2).length = 512 ∧ (fullSector 63 1 58).length = 512 := by
  decide +kernel

theorem fullStart_sized (lba : Nat) : (fullStart lba).length = 512 := by
  obtain ⟨primary, backup⟩ := fullSector_length
  unfold fullStart
  split
  · exact protectedStart_sized 0
  · split
    · rw [gptUpdateHeaderCrc_length (by omega), primary]
    · split
      · rw [gptUpdateHeaderCrc_length (by omega), backup]
      · split
        · exact Disk.chunk_length _ _
        · split
          · exact Disk.chunk_length _ _
          · exact List.length_replicate

theorem fullStart_primary : gptCopy exampleDevice fullStart 1 = some fullTable ∧ ∃ own,
      gptHeader (fullStart 1) = (gptHeader (fullSector 1 63 2)).stamped (crc32 fullTable) own :=
  @gptCopy_made exampleDevice fullStart 1 (fullSector 1 63 2) fullTable
    (by rw [fullSector_length.1]; decide) rfl (by decide +kernel) (by decide +kernel)

/-- A disk with two stamped copies has a GPT if the sectors that were stamped agree: nothing
else depends on the checksums. -/
theorem gptDisk_made {medium : Nat → List UInt8} {primary backup table : List UInt8}
    {lba crc own own' : Nat} (signature : bootSignature (medium 0) = true)
    (behind : protective (medium 0) = true)
    (first : gptCopy device medium 1 = some table)
    (header : gptHeader (medium 1) = (gptHeader primary).stamped crc own)
    (second : gptCopy device medium lba = some table)
    (header' : gptHeader (medium lba) = (gptHeader backup).stamped crc own')
    (other : (gptHeader primary).backupLba = lba)
    (layouts : gptLayoutsMatch (gptHeader primary) (gptHeader backup) = true)
    (entries : gptEntriesValid (gptHeader primary) table = true)
    (disjoint : [(1, 1), ((gptHeader primary).entriesLba,
        (gptHeader primary).entriesSectors device.logicalBlockSize), (lba, 1),
      ((gptHeader backup).entriesLba, (gptHeader backup).entriesSectors device.logicalBlockSize)].Pairwise
      fun left right => left.1 + left.2 ≤ right.1 ∨ right.1 + right.2 ≤ left.1)
    (notFirst : lba ≠ 0)
    (whole : (gptHeader primary).entriesLba +
      (gptHeader primary).entriesSectors device.logicalBlockSize ≤ 2 ^ 64) :
    GptDisk device medium table := by
  have place : (gptHeader (medium 1)).backupLba = lba := by
    rw [header]
    exact other
  constructor
  · exact signature
  · exact behind
  · exact first
  · rwa [place]
  · rw [place, header, header']
    exact layouts
  · rw [header]
    exact entries
  · simp only [DisjointCopies]
    rw [place, header, header']
    exact disjoint
  · rwa [place]
  · rw [header]
    exact whole

theorem fullStart_gpt : GptDisk exampleDevice fullStart fullTable := by
  obtain ⟨primary, own, header⟩ := fullStart_primary
  obtain ⟨backup, own', header'⟩ := @gptCopy_made exampleDevice fullStart 63 (fullSector 63 1 58)
    fullTable (by rw [fullSector_length.2]; decide) rfl (by decide +kernel) (by decide +kernel)
  exact gptDisk_made (by decide +kernel) (by decide +kernel) primary header backup header'
    (by decide +kernel) (by decide +kernel) (by decide +kernel) (by decide +kernel) (by decide)
    (by decide)

def fullGuid (byte : UInt8) : Guid := ⟨List.replicate 16 byte, rfl⟩

/-- One more partition, at block 40. -/
def fullCreate : GptCall := ⟨16, .create (some (fullGuid 1)) (some (fullGuid 2)) none 40 1, false, []⟩

/-- Seventeen partitions. -/
def overfullTable : List UInt8 :=
  ((List.range 16 ++ [30]).flatMap fun index => List.replicate 16 1 ++ List.replicate 16 2 ++
    digits 8 (10 + index) ++ digits 8 (10 + index) ++ List.replicate 80 0)

theorem fullCreate_edits : gptEdited (gptHeader (fullSector 1 63 2)) 16 fullCreate.operation fullTable =
      some overfullTable := by
  have edit : gptEdit (gptHeader (fullSector 1 63 2)) 16 fullCreate.operation fullTable =
      some overfullTable := by decide +kernel
  have valid : gptEntriesValid (gptHeader (fullSector 1 63 2)) overfullTable = true := by
    decide +kernel
  rw [gptEdited, edit, Option.filter_some, if_pos valid]

/-- The commit accepts a seventeenth partition, and the scan then does not record the table. -/
theorem scan_rejects_committed : GptDisk exampleDevice fullStart fullTable ∧
    ∃ final table', commitAll exampleDevice [fullCreate]
        (Disk.boot fullStart fullStart_sized []) = some final ∧
      editAll (gptHeader (fullStart 1)) [fullCreate] fullTable = some table' ∧
      gptCopy exampleDevice final.medium 1 = some table' ∧
      scanned exampleDevice final.medium ≠ gptTypedEntries (gptHeader (fullStart 1)) table' := by
  have gpt := fullStart_gpt
  obtain ⟨-, own, header⟩ := fullStart_primary
  have changeable : Changeable exampleDevice := by
    constructor
    all_goals decide +kernel
  have calm : Disk.Calm { Disk.boot fullStart fullStart_sized [] with
      outcomes := fullCreate.outcomes } := by
    constructor
    · intro outcome member
      cases member
    · intro write member
      cases member
  have committed : (fullCreate.run exampleDevice (Disk.boot fullStart fullStart_sized [])).1 =
      some () := by
    apply partitionGptCommit_succeeds changeable calm gpt
    · change 16 < (gptHeader (fullStart 1)).entryCount
      rw [header]
      change 16 < (gptHeader (fullSector 1 63 2)).entryCount
      decide +kernel
    · change (gptHeader (fullStart 1)).entriesBytes ≤ 128 * 1024
      rw [header]
      change (gptHeader (fullSector 1 63 2)).entriesBytes ≤ 128 * 1024
      decide +kernel
    · change gptEdited (gptHeader (fullStart 1)) 16 fullCreate.operation fullTable = _
      rw [header]
      exact fullCreate_edits
  obtain ⟨final, done⟩ : ∃ final, commitAll exampleDevice [fullCreate]
      (Disk.boot fullStart fullStart_sized []) = some final := by
    rw [commitAll]
    split
    · rename_i failed
      rw [failed] at committed
      cases committed
    · exact ⟨_, rfl⟩
  obtain ⟨table', edits, after, whole, used⟩ := commitAll_commits [fullCreate]
    (fun _ member => (List.not_mem_nil member).elim)
    (⟨gpt, _, _, rfl⟩ : Committed exampleDevice (gptHeader (fullStart 1)) _ fullTable) done
  refine ⟨gpt, final, table', done, edits, after.gpt.primary, fun same => ?_⟩
  obtain ⟨crc, own', stamped⟩ := after.stamped
  have agrees := scanned_iff changeable.valid changeable.root changeable.bounded
    (Disk.medium_sized whole) after.gpt
  rw [stamped, gptTypedEntries_stamped, gptEntries_stamped] at agrees
  obtain ⟨most, -⟩ := agrees.mp same
  have sixteen : (gptEntries (gptHeader (fullStart 1)) fullTable).length = 16 := by
    rw [header]
    change (gptEntries (gptHeader (fullSector 1 63 2)) fullTable).length = 16
    decide +kernel
  rw [sixteen] at used
  have one : creates [fullCreate] = 1 := rfl
  have none_deleted : deletes [fullCreate] = 0 := rfl
  unfold PARTITION_MAX_PER_DISK at most
  omega

end AsasOs.Partition
