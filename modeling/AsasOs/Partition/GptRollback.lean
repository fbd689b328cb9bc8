import AsasOs.Partition.Tables

/-!
# Rolling back a GPT change

A commit that fails takes back what it has written: the copy that was being written,
and before it the copy that was complete. The entries that it writes back are those of
the primary copy, whole sectors of them, so that the backup copy gets its own entries
back but not what followed them in their last sector.
-/
namespace AsasOs.Partition

open Block Bytes Medium

/-- The copy that had its header at `headerLba` is there as it was: the sector of the
header, and the bytes of the entry array. -/
structure KeepsCopy (device : Device) (headerLba : Nat) (start medium : Nat → List UInt8) :
    Prop where
  header : medium headerLba = start headerLba
  entries : entryTable device (gptHeader (start headerLba)) medium =
    entryTable device (gptHeader (start headerLba)) start

theorem KeepsCopy.refl (device : Device) (headerLba : Nat) (start : Nat → List UInt8) :
    KeepsCopy device headerLba start start :=
  ⟨rfl, rfl⟩

theorem keepsCopy_of_holds {device : Device} {headerLba sectors : Nat} {entries : List UInt8}
    {start medium : Nat → List UInt8}
    (holds : HoldsCopy (gptHeader (start headerLba)) sectors entries (start headerLba) medium)
    (here : (gptHeader (start headerLba)).currentLba = headerLba)
    (whole : (gptHeader (start headerLba)).entriesSectors device.logicalBlockSize = sectors)
    (same : entries.take (gptHeader (start headerLba)).entriesBytes =
      (blocksAt start (gptHeader (start headerLba)).entriesLba sectors).flatten.take
        (gptHeader (start headerLba)).entriesBytes) :
    KeepsCopy device headerLba start medium where
  header := by
    have stored := holds.sectorThere
    rwa [here] at stored
  entries := by
    rw [entryTable, entryTable, whole, holds.entriesThere, same]

/-- At most one write or flush fails. -/
def OneFails {size : Nat} (disk disk' : Disk size) : Prop :=
  disk'.failedWrites + disk'.failedFlushes ≤ disk.failedWrites + disk.failedFlushes + 1

theorem gptStore_rolls_back {size : Nat} {device : Device} {disk : Disk size}
    {copies : GptCopies} {entries primarySector backupSector : List UInt8}
    {primary backup : GptHeader} {crc : Nat}
    (storing : Storing size copies entries primarySector backupSector primary backup crc disk.medium)
    (failed : (Prog.run (Disk.handle device) (gptStore copies entries) disk).1 = false)
    (oneFails : OneFails disk (Prog.run (Disk.handle device) (gptStore copies entries) disk).2) :
    let medium := (Prog.run (Disk.handle device) (gptStore copies entries) disk).2.medium
    HoldsCopy primary copies.sectors copies.entries copies.primarySector medium ∧
      HoldsCopy backup copies.sectors copies.entries copies.backupSector medium := by
  have apart := storing.apart.copies
  obtain ⟨stored, final, ran⟩ : ∃ stored final, Prog.run (Disk.handle device)
    (gptStore copies entries) disk = (stored, final) := ⟨_, _, rfl⟩
  simp only [ran, OneFails] at failed oneFails ⊢
  subst failed
  obtain ⟨middle, wroteBackup, ⟨-, failed, back⟩ | ⟨newBackup, written | late⟩⟩ :=
    gptStore_cases storing ran
  · -- the failure is spent on the backup copy, which is then written back
    constructor
    · have all := wroteBackup.trans back.wrote
      exact storing.old.congr fun lba inside => all.medium_outside (apart lba inside)
    · apply back.holds
      have writes := wroteBackup.writes
      have flushes := wroteBackup.flushes
      have laterFlushes := back.wrote.flushes
      rw [Failed] at failed
      omega
  · cases written.1
  · -- both copies have been written to, and both are written back
    obtain ⟨-, broken, restored, wrotePrimary, failed, primaryBack, backupBack⟩ := late
    have writes := wroteBackup.writes
    have flushes := wroteBackup.flushes
    have primaryWrites := wrotePrimary.writes
    have primaryFlushes := wrotePrimary.flushes
    have restoreWrites := primaryBack.wrote.writes
    have restoreFlushes := primaryBack.wrote.flushes
    have lastWrites := backupBack.wrote.writes
    have lastFlushes := backupBack.wrote.flushes
    rw [Failed] at failed
    constructor
    · have restored := primaryBack.holds (by omega)
      exact restored.congr fun lba inside =>
        backupBack.wrote.medium_outside (apart lba inside)
    · exact backupBack.holds (by omega)

theorem store_rolls_back {device : Device} {slot : Nat} {operation : GptOperation}
    {disk : Disk device.logicalBlockSize} {copies : GptCopies} {entries : List UInt8}
    (sized : ∀ lba, (disk.medium lba).length = device.logicalBlockSize)
    (loaded : Loaded device slot disk.medium copies)
    (disjoint : DisjointCopies device disk.medium)
    (edited : gptEdited (gptHeader copies.primarySector) slot operation copies.entries = some entries)
    (failed : (Prog.run (Disk.handle device) (gptStore copies entries) disk).1 = false)
    (oneFails : OneFails disk (Prog.run (Disk.handle device) (gptStore copies entries) disk).2) :
    let medium := (Prog.run (Disk.handle device) (gptStore copies entries) disk).2.medium
    KeepsCopy device 1 disk.medium medium ∧
      KeepsCopy device (gptHeader (disk.medium 1)).backupLba disk.medium medium := by
  obtain ⟨hereP, _⟩ := gptHeaderValid_fields loaded.primaryValid
  obtain ⟨hereB, _⟩ := gptHeaderValid_fields loaded.backupValid
  obtain ⟨bytes, sectorsB⟩ := loaded.backup_sectors
  obtain ⟨crc, small, _, _, storing⟩ := loaded.storing sized disjoint edited
  obtain ⟨primaryKept, backupKept⟩ := gptStore_rolls_back storing failed oneFails
  have primarySector := loaded.primary
  have backupSector := loaded.backup
  have sectors := loaded.sectors
  have primaryEntries := loaded.entries
  have same := loaded.same
  rw [primarySector] at backupSector primaryEntries same hereP sectors bytes hereB primaryKept
  rw [backupSector] at hereB bytes sectorsB same backupKept
  constructor
  · apply keepsCopy_of_holds ⟨primaryKept.sectorThere, primaryKept.entriesThere⟩ hereP sectors.symm
    rw [primaryEntries]
  · apply keepsCopy_of_holds ⟨backupKept.sectorThere, backupKept.entriesThere⟩ hereB sectorsB
    rw [bytes]
    exact same

/-- A create, delete or resize that returns 0, in a run in which no more than one write or
flush fails, leaves both headers and both entry arrays with their content before it. -/
theorem partitionGptCommit_rolls_back (device : Device) (mounted : Bool) (slot : Nat)
    (operation : GptOperation) (start : Nat → List UInt8)
    (sized : ∀ lba, (start lba).length = device.logicalBlockSize) (outcomes : List Outcome)
    (disjoint : DisjointCopies device start)
    (returned : (Prog.run (Disk.handle device) (partitionGptCommit device mounted slot operation).run
      (Disk.boot start sized outcomes)).1 = none)
    (oneFails : OneFails (Disk.boot start sized outcomes)
      (Prog.run (Disk.handle device) (partitionGptCommit device mounted slot operation).run
        (Disk.boot start sized outcomes)).2) :
    let final := (Prog.run (Disk.handle device)
      (partitionGptCommit device mounted slot operation).run (Disk.boot start sized outcomes)).2
    KeepsCopy device 1 start final.medium ∧
      KeepsCopy device (gptHeader (start 1)).backupLba start final.medium := by
  obtain ⟨result, final, ran⟩ : ∃ result final, Prog.run (Disk.handle device)
    (partitionGptCommit device mounted slot operation).run (Disk.boot start sized outcomes) =
      (result, final) := ⟨_, _, rfl⟩
  rw [ran] at returned oneFails ⊢
  cases returned
  rcases partitionGptCommit_cases ran with ⟨-, same⟩ | ⟨copies, entries, disk', same, load, edited, store⟩
  · have here : final.medium = start := same.medium
    dsimp only
    rw [here]
    exact ⟨KeepsCopy.refl _ _ _, KeepsCopy.refl _ _ _⟩
  · have medium' : disk'.medium = start := same.medium
    have rolled := store_rolls_back (by rwa [medium']) (by rw [medium']; exact load) (by rwa [medium'])
      edited (congrArg Prod.fst store)
    simp only [store, OneFails, same.writes, same.flushes, medium'] at rolled
    exact rolled oneFails

/-- The second of the two writes of the primary copy fails, after the sector was stored. -/
def exampleLateOutcomes : List Outcome := List.replicate 10 ⟨false, []⟩ ++ [⟨true, [1, 1]⟩]

theorem partitionGptCommit_rolls_back_example : KeepsCopy exampleDevice 1 exampleStart
        (Prog.run (Disk.handle exampleDevice) (partitionGptCommit exampleDevice false 0 exampleCreate).run
          (Disk.boot exampleStart exampleStart_sized exampleLateOutcomes)).2.medium ∧
      KeepsCopy exampleDevice (gptHeader (exampleStart 1)).backupLba exampleStart
        (Prog.run (Disk.handle exampleDevice) (partitionGptCommit exampleDevice false 0 exampleCreate).run
          (Disk.boot exampleStart exampleStart_sized exampleLateOutcomes)).2.medium := by
  apply partitionGptCommit_rolls_back exampleDevice false 0 exampleCreate exampleStart
    exampleStart_sized exampleLateOutcomes
  · decide +kernel
  · decide +kernel
  · unfold OneFails
    decide +kernel

end AsasOs.Partition
