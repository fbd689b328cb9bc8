import AsasOs.Partition.ScanOutcome

/-!
# Changes of an MBR and the scan after them

Seen from the scan, an MBR without extended partitions is four slots that are empty or hold
a candidate, and a change replaces one of them. The code edits sixteen bytes of the first
block instead, and checks the edited table by rules of its own before it is written. The
module shows that the scan reads every table that passes the check slot by slot, and from
it that a change of the bytes is a change of one slot.
-/
namespace AsasOs.Partition

open Block Bytes Medium Prog

/-! ### The edit of an entry -/

def MbrOperation.leaves (slot : Nat) : MbrOperation → Option Candidate
  | .delete => none
  | .set type startLba blockCount =>
    some (primaryCandidate slot type.toNat startLba.toNat blockCount.toNat)

section Edit

variable {sector new entry : List UInt8} {slot : Nat}

theorem mbrEntry_put (whole : entry.length = 16) (room : 446 + 16 * slot + 16 ≤ sector.length) :
    mbrEntry (put sector (446 + 16 * slot) entry) slot =
      ⟨getLE entry 4 1, getLE entry 8 4, getLE entry 12 4⟩ := by
  have put_back : slice (put sector (446 + 16 * slot) entry) (446 + 16 * slot) 16 = entry := by
    have back : slice (put sector (446 + 16 * slot) entry) (446 + 16 * slot) entry.length = entry :=
      slice_put (by omega)
    rwa [whole] at back
  have field (start width : Nat) (inside : start + width ≤ 16) :
      getLE (put sector (446 + 16 * slot) entry) (446 + 16 * slot + start) width =
        getLE entry start width := by
    rw [getLE, ← slice_slice inside, put_back, getLE]
  unfold mbrEntry
  rw [field 4 1 (by omega), field 8 4 (by omega), field 12 4 (by omega)]

theorem mbrEntry_put_other (whole : entry.length = 16)
    (room : 446 + 16 * slot + 16 ≤ sector.length) {other : Nat} (apart : other ≠ slot) :
    mbrEntry (put sector (446 + 16 * slot) entry) other = mbrEntry sector other := by
  have field (start width : Nat) (inside : start + width ≤ 16) :
      getLE (put sector (446 + 16 * slot) entry) (446 + 16 * other + start) width =
        getLE sector (446 + 16 * other + start) width :=
    getLE_put_other (by omega) (by omega)
  unfold mbrEntry
  rw [field 4 1 (by omega), field 8 4 (by omega), field 12 4 (by omega)]

theorem mbrEdit_puts {operation : MbrOperation} (edited : mbrEdit slot operation sector = some new)
    (room : 446 + 16 * slot + 16 ≤ sector.length) :
    ∃ entry : List UInt8, entry.length = 16 ∧ new = put sector (446 + 16 * slot) entry ∧
      mbrCandidate new slot = operation.leaves slot := by
  cases operation with
  | delete =>
    unfold mbrEdit at edited
    dsimp only at edited
    split_ifs at edited
    have cleared : (List.replicate 16 (0 : UInt8)).length = 16 := List.length_replicate
    refine ⟨_, cleared, (Option.some.inj edited).symm, ?_⟩
    rw [← Option.some.inj edited, mbrCandidate, mbrEntry_put cleared room]
    rfl
  | set type startLba blockCount =>
    unfold mbrEdit at edited
    dsimp only at edited
    split_ifs at edited with refused
    simp only [not_or] at refused
    obtain ⟨typed, -, -, -, sized, low, short⟩ := refused
    have front : [0, 0, 0, 0, type, 0, 0, 0].length = 8 := rfl
    have filled : ([0, 0, 0, 0, type, 0, 0, 0] ++ digits 4 startLba.toNat ++
        digits 4 blockCount.toNat).length = 16 := by
      rw [List.length_append, List.length_append, digits_length, digits_length, front]
    have digit4 (number : Nat) : getLE (digits 4 number) 0 4 = number % 2 ^ 32 := by
      have all : slice (digits 4 number) 0 (digits 4 number).length = digits 4 number := slice_whole
      have base : 256 ^ 4 = 2 ^ 32 := by norm_num
      rw [digits_length] at all
      rw [getLE, all, value_digits, base]
    -- the three fields, each found behind what stands before it
    have type_field : getLE ([0, 0, 0, 0, type, 0, 0, 0] ++ digits 4 startLba.toNat ++
        digits 4 blockCount.toNat) 4 1 = type.toNat := by
      rw [List.append_assoc, getLE_append_left (by simp)]
      rfl
    have start_field : getLE ([0, 0, 0, 0, type, 0, 0, 0] ++ digits 4 startLba.toNat ++
        digits 4 blockCount.toNat) 8 4 = startLba.toNat := by
      have behind : 8 = [0, 0, 0, 0, type, 0, 0, 0].length + 0 := rfl
      rw [getLE_append_left (by simp), behind, getLE_append_right, digit4]
      have small : startLba.toNat ≤ 0xFFFFFFFF := UInt64.le_iff_toNat_le.mp (UInt64.not_lt.mp low)
      omega
    have count_field : getLE ([0, 0, 0, 0, type, 0, 0, 0] ++ digits 4 startLba.toNat ++
        digits 4 blockCount.toNat) 12 4 = blockCount.toNat := by
      have behind : 12 = ([0, 0, 0, 0, type, 0, 0, 0] ++ digits 4 startLba.toNat).length + 0 := by
        simp
      rw [behind, getLE_append_right, digit4]
      have small : blockCount.toNat ≤ 0xFFFFFFFF :=
        UInt64.le_iff_toNat_le.mp (UInt64.not_lt.mp short)
      omega
    refine ⟨_, filled, (Option.some.inj edited).symm, ?_⟩
    rw [← Option.some.inj edited, mbrCandidate, mbrEntry_put filled room, type_field, start_field,
      count_field]
    dsimp only
    rw [if_neg]
    · rfl
    · rintro (zero | zero)
      · exact typed (UInt8.toNat_inj.mp zero)
      · exact sized (UInt64.toNat_inj.mp zero)

/-- What an edit of the table does to the first block. -/
structure Edited (sector new : List UInt8) (slot : Nat) (left : Option Candidate) : Prop where
  length : new.length = sector.length
  outside : ∀ place, place < 446 + 16 * slot ∨ 446 + 16 * slot + 16 ≤ place → new[place]? = sector[place]?
  slots : mbrCandidate new = Function.update (mbrCandidate sector) slot left

theorem mbrEdit_edited {operation : MbrOperation} (edited : mbrEdit slot operation sector = some new)
    (room : 446 + 16 * slot + 16 ≤ sector.length) :
    Edited sector new slot (operation.leaves slot) := by
  obtain ⟨entry, whole, rfl, here⟩ := mbrEdit_puts edited room
  refine ⟨put_length (by omega), fun place apart => ?_, ?_⟩
  · rw [put_getElem? (by omega), if_neg (by omega)]
  · funext other
    by_cases same : other = slot
    · rw [same, Function.update_self, here]
    · rw [Function.update_of_ne same, mbrCandidate, mbrCandidate, mbrEntry_put_other whole room same]

theorem Edited.signature {left : Option Candidate} (edited : Edited sector new slot left)
    (below : slot < 4) : bootSignature new = bootSignature sector := by
  unfold bootSignature byteAt
  rw [List.getD_eq_getElem?_getD, List.getD_eq_getElem?_getD, edited.outside 510 (by omega),
    edited.outside 511 (by omega), ← List.getD_eq_getElem?_getD, ← List.getD_eq_getElem?_getD]

end Edit

/-! ### The scan of a valid table -/

theorem mbrTableValid_entry {sector : List UInt8} {deviceBlocks : Nat} :
    ∀ (indices : List Nat) (candidates : List Candidate),
      mbrTableValid sector deviceBlocks indices candidates = true → ∀ index ∈ indices,
        (mbrEntry sector index).type ≠ 0xEE ∧
          ((mbrEntry sector index).type = 0 ↔ (mbrEntry sector index).sectorCount = 0) := by
  intro indices
  induction indices with
  | nil => exact fun _ _ _ absent => nomatch absent
  | cons first rest ih =>
    intro candidates valid index member
    rw [mbrTableValid] at valid
    split_ifs at valid with free bad
    · rcases List.mem_cons.mp member with rfl | later
      · rw [free.1, free.2]
        decide
      · exact ih candidates valid index later
    · split at valid
      · cases valid
      next more added =>
        rcases List.mem_cons.mp member with rfl | later
        · simp only [not_or] at bad
          exact ⟨bad.2.2.1, iff_of_false bad.1 bad.2.1⟩
        · exact ih more valid index later

theorem mbrTableValid_plain {sector : List UInt8} {deviceBlocks : Nat}
    (valid : mbrTableValid sector deviceBlocks [0, 1, 2, 3] [] = true) :
    protective sector = false := by
  unfold protective
  rw [List.any_eq_false]
  intro index member gpt
  exact (mbrTableValid_entry _ _ valid index member).1 (eq_of_beq gpt)

/-- A scan of the disk, alone in the registry, records exactly the candidates of the slots. -/
def ScanRecords (device : Device) (medium : Nat → List UInt8) (slots : Nat → Option Candidate) : Prop :=
  let scanned := eval (mediumAnswer device medium) (partitionScanDevice 0 ⟨[device], []⟩)
  scanned.1 = (primaries slots).length ∧ scanned.2.partitions = infos ⟨[device], []⟩ 0 (primaries slots)

section Calls

variable {device : Device}

theorem primaries_length (slots : Nat → Option Candidate) : (primaries slots).length ≤ 4 :=
  List.length_filterMap_le slots [0, 1, 2, 3]

theorem scanRecords_mbr (valid : descriptionValid device = true) (root : device.parent = none)
    {medium : Nat → List UInt8} (signed : bootSignature (medium 0) = true)
    (table : mbrTableValid (medium 0) device.blockCount [0, 1, 2, 3] [] = true) :
    ScanRecords device medium (mbrCandidate (medium 0)) := by
  have here : (⟨[device], []⟩ : Registries).devices[0]? = some device := rfl
  have read := scannedSector_medium valid root signed
  obtain ⟨found, recordable⟩ := @mbrTable_reads device (medium 0) (mediumAnswer device medium) table
  obtain ⟨count, s', recorded, done⟩ :=
    recordTable_first here ((mbrTable_wellRead device (medium 0)).eval found)
  have few := primaries_length (mbrCandidate (medium 0))
  -- both registries have room for four, and there is nothing to overlap
  have all : count = (primaries (mbrCandidate (medium 0))).length := by
    refine done.all_iff.mpr fun index candidate at_index => ?_
    have below := (List.getElem?_eq_some_iff.mp at_index).1
    refine ⟨valid, ?_, ?_, recordable.placed candidate (List.mem_of_getElem? at_index), nofun⟩
    · rw [List.length_nil, BLOCK_DEVICE_MAX_COUNT]
      omega
    · rw [List.length_singleton, BLOCK_DEVICE_MAX_COUNT]
      omega
  have partitions := done.partitions
  rw [all, List.take_length, List.nil_append] at partitions
  unfold ScanRecords
  dsimp only
  rw [partitionScanDevice_eval here, read]
  dsimp only
  rw [mbrTableValid_plain table, if_neg Bool.false_ne_true, found, recorded, if_pos all]
  exact ⟨rfl, partitions⟩

/-! ### The calls -/

/-- What `partition_mbr_commit` does to a disk: it stores the edited table, or it writes
nothing unless the disk fails. -/
structure MbrCommit (device : Device) (slot : Nat) (operation : MbrOperation)
    (disk : Disk device.logicalBlockSize) (result : Option Unit)
    (final : Disk device.logicalBlockSize) : Prop where
  stored : result = some () → device.parent = none ∧ slot < 4 ∧ ∃ new,
    mbrEdit slot operation (disk.medium 0) = some new ∧
    mbrTableValid new device.blockCount [0, 1, 2, 3] [] = true ∧
    final.medium = Function.update disk.medium 0 (Disk.chunk device.logicalBlockSize new 0)
  refused : result = none → final.failedWrites = disk.failedWrites →
    final.failedFlushes = disk.failedFlushes → Disk.Untouched disk final

theorem MbrCommit.untouched {slot : Nat} {operation : MbrOperation}
    {disk disk' : Disk device.logicalBlockSize} (same : Disk.Untouched disk disk') :
    MbrCommit device slot operation disk none disk' :=
  ⟨nofun, fun _ _ _ => same⟩

theorem MbrCommit.later {slot : Nat} {operation : MbrOperation} {result : Option Unit}
    {disk disk' final : Disk device.logicalBlockSize} (same : Disk.Untouched disk disk')
    (commit : MbrCommit device slot operation disk' result final) :
    MbrCommit device slot operation disk result final := by
  obtain ⟨stored, refused⟩ := commit
  rw [same.medium] at stored
  rw [same.writes, same.flushes] at refused
  exact ⟨stored, fun failed writes flushes => same.trans (refused failed writes flushes)⟩

theorem one_block (medium : Nat → List UInt8) : (blocksAt medium 0 1).flatten = medium 0 := by
  simp [blocksAt]

theorem partitionMbrCommit_spec (mounted : Bool) (slot : Nat) (operation : MbrOperation)
    (disk : Disk device.logicalBlockSize) :
    Prog.wp (Disk.handle device) (partitionMbrCommit device mounted slot operation)
      (MbrCommit device slot operation disk) disk := by
  unfold partitionMbrCommit
  rw [Prog.wp_guard]
  split_ifs with suits
  · rw [Prog.wp_bind]
    refine Disk.wp_deviceRead (fun _ same => .untouched same) fun disk₁ same => ?_
    dsimp only
    rw [one_block, Prog.wp_guard]
    split_ifs
    · rw [Prog.wp_guard]
      split_ifs
      · exact .untouched same
      · rw [Prog.wp_ofOption]
        cases edited : mbrEdit slot operation (disk.medium 0) with
        | none => exact .untouched same
        | some new =>
          dsimp only
          rw [Prog.wp_guard]
          split_ifs with table
          · obtain ⟨-, kept, counted⟩ := Disk.write_wroteIn device 0 1 new disk₁
            obtain ⟨block, medium, holds⟩ := Disk.write_one device 0 new disk₁
            rw [Prog.wp_lift, Prog.wp_guard, Disk.run_deviceWrite]
            split_ifs with written
            · obtain ⟨-, -, flushed_medium, flushes⟩ := Disk.flush_wroteIn (fun _ => True)
                (disk₁.write device 0 1 new).2
              rw [Prog.wp_lift, Prog.wp_guard_last, Disk.run_deviceFlush]
              split_ifs with flushed
              · refine ⟨fun _ => ⟨suits.1, suits.2.1, new, edited, table, ?_⟩, nofun⟩
                rw [flushed_medium, medium, holds written, same.medium]
              · refine ⟨nofun, fun _ _ unfailed => ?_⟩
                rw [if_neg flushed, kept, same.flushes] at flushes
                omega
            · refine ⟨nofun, fun _ unfailed _ => ?_⟩
              rw [if_neg written, same.writes] at counted
              omega
          · exact .untouched same
    · exact .untouched same
  · exact .untouched (.refl disk)

inductive MbrCall where
  | create (slot : Nat) (type : UInt8) (startLba blockCount : UInt64)
  | delete (slot : Nat)
  | resize (slot : Nat) (startLba blockCount : UInt64)

def MbrCall.slot : MbrCall → Nat
  | .create slot _ _ _ => slot
  | .delete slot => slot
  | .resize slot _ _ => slot

def MbrCall.code (device : Device) (mounted : Bool) : MbrCall → DeviceCode Unit
  | .create slot type startLba blockCount =>
    partitionMbrCreate device mounted slot type startLba blockCount
  | .delete slot => partitionMbrDelete device mounted slot
  | .resize slot startLba blockCount => partitionMbrResize device mounted slot startLba blockCount

/-- The operation that the call commits, for the table it finds. -/
def MbrCall.operation (sector : List UInt8) : MbrCall → MbrOperation
  | .create _ type startLba blockCount => .set type startLba blockCount
  | .delete _ => .delete
  | .resize slot startLba blockCount =>
    .set (UInt8.ofNat (mbrEntry sector slot).type) startLba blockCount

/-- What the call is for: it adds a partition to an empty slot, or removes or resizes the one
that is there. -/
def MbrCall.replace : MbrCall → Option Candidate → Option (Option Candidate)
  | .create slot type startLba blockCount, none =>
    some (some (primaryCandidate slot type.toNat startLba.toNat blockCount.toNat))
  | .delete _, some _ => some none
  | .resize _ startLba blockCount, some old =>
    some (some { old with startLba := startLba.toNat, blockCount := blockCount.toNat })
  | _, _ => none

/-- The slots after the call, if it suits them. -/
def MbrCall.apply (call : MbrCall) (slots : Nat → Option Candidate) : Option (Nat → Option Candidate) :=
  (call.replace (slots call.slot)).map (Function.update slots call.slot)

def MbrCall.Ends (call : MbrCall) (disk : Disk device.logicalBlockSize) (result : Option Unit)
    (final : Disk device.logicalBlockSize) : Prop :=
  MbrCommit device call.slot (call.operation (disk.medium 0)) disk result final ∧
    (result = some () → call.replace (mbrCandidate (disk.medium 0) call.slot) =
      some ((call.operation (disk.medium 0)).leaves call.slot))

theorem MbrCall.ends_untouched {call : MbrCall} {disk disk' : Disk device.logicalBlockSize}
    (same : Disk.Untouched disk disk') : call.Ends disk none disk' :=
  ⟨.untouched same, nofun⟩

theorem MbrCall.code_spec (mounted : Bool) (call : MbrCall) (disk : Disk device.logicalBlockSize)
    (table : mbrTableValid (disk.medium 0) device.blockCount [0, 1, 2, 3] [] = true) :
    Prog.wp (Disk.handle device) (call.code device mounted) (call.Ends disk) disk := by
  cases call with
  | create slot type startLba blockCount =>
    dsimp only [MbrCall.code]
    unfold partitionMbrCreate
    rw [Prog.wp_guard]
    split_ifs
    · rw [Prog.wp_bind]
      refine Disk.wp_deviceRead (fun _ same => ends_untouched same) fun disk₁ same => ?_
      dsimp only
      rw [one_block, Prog.wp_guard]
      split_ifs with free
      · refine Prog.wp_mono (partitionMbrCommit_spec mounted slot _ disk₁) fun result final commit =>
          ⟨commit.later same, fun _ => ?_⟩
        have empty : mbrCandidate (disk.medium 0) slot = none := if_pos (.inl free.1)
        rw [MbrCall.slot, empty]
        rfl
      · exact ends_untouched same
    · exact ends_untouched (.refl disk)
  | delete slot =>
    refine Prog.wp_mono (partitionMbrCommit_spec mounted slot .delete disk) fun result final commit =>
      ⟨commit, fun success => ?_⟩
    obtain ⟨-, below, new, edited, -, -⟩ := commit.stored success
    unfold mbrEdit at edited
    dsimp only at edited
    split_ifs at edited with free
    -- in a valid table an entry with a type has blocks
    have member : slot ∈ [0, 1, 2, 3] := by
      simp only [List.mem_cons, List.not_mem_nil]
      omega
    have sized := mt (mbrTableValid_entry _ _ table slot member).2.mpr free
    have used : mbrCandidate (disk.medium 0) slot = some _ := if_neg (not_or.mpr ⟨free, sized⟩)
    rw [MbrCall.slot, used]
    rfl
  | resize slot startLba blockCount =>
    dsimp only [MbrCall.code]
    unfold partitionMbrResize
    rw [Prog.wp_guard]
    split_ifs
    · rw [Prog.wp_bind]
      refine Disk.wp_deviceRead (fun _ same => ends_untouched same) fun disk₁ same => ?_
      dsimp only
      rw [one_block, Prog.wp_guard]
      split_ifs with filled
      · refine Prog.wp_mono (partitionMbrCommit_spec mounted slot _ disk₁) fun result final commit =>
          ⟨commit.later same, fun _ => ?_⟩
        have used : mbrCandidate (disk.medium 0) slot = some _ := if_neg (not_or.mpr filled)
        have byte : (UInt8.ofNat (mbrEntry (disk.medium 0) slot).type).toNat =
            (mbrEntry (disk.medium 0) slot).type := by
          have small := getLE_bound (disk.medium 0) (446 + 16 * slot + 4) 1
          exact Nat.mod_eq_of_lt small
        rw [MbrCall.slot, used, MbrCall.operation, MbrOperation.leaves, byte]
        rfl
      · exact ends_untouched same
    · exact ends_untouched (.refl disk)

/-- What a successful call has done: sixteen bytes are new, and the scan finds the slots that
the call is to leave. -/
structure MbrRefines (device : Device) (start : Nat → List UInt8) (call : MbrCall)
    (medium : Nat → List UInt8) : Prop where
  elsewhere : ∀ lba ≠ 0, medium lba = start lba
  outside : ∀ place, place < 446 + 16 * call.slot ∨ 446 + 16 * call.slot + 16 ≤ place →
    (medium 0)[place]? = (start 0)[place]?
  before : ScanRecords device start (mbrCandidate (start 0))
  after : ∃ slots, call.apply (mbrCandidate (start 0)) = some slots ∧ ScanRecords device medium slots

/-- **Refinement of the MBR**: on a disk with a valid table, a call that succeeds replaces its
slot for the scan and changes no other byte, and one that is rejected writes nothing, unless a
write or a flush has failed. -/
theorem mbr_refinement (device : Device) (valid : descriptionValid device = true) (mounted : Bool)
    (call : MbrCall) (start : Nat → List UInt8)
    (sized : ∀ lba, (start lba).length = device.logicalBlockSize)
    (signed : bootSignature (start 0) = true)
    (table : mbrTableValid (start 0) device.blockCount [0, 1, 2, 3] [] = true)
    (outcomes : List Outcome) :
    let final := Prog.run (Disk.handle device) (call.code device mounted).run
      (Disk.boot start sized outcomes)
    (final.1 = some () → MbrRefines device start call final.2.medium) ∧
      (final.1 = none → final.2.failedWrites = 0 → final.2.failedFlushes = 0 →
        final.2.medium = start) := by
  intro final
  obtain ⟨⟨stored, refused⟩, replaced⟩ := MbrCall.code_spec mounted call
    (Disk.boot start sized outcomes) table
  have booted : (Disk.boot start sized outcomes).medium = start := rfl
  rw [booted] at stored replaced
  constructor
  · intro success
    obtain ⟨root, below, new, edit, newTable, medium⟩ := stored success
    have roomy := (not_or.mp (scan_sizes valid)).1
    have edited : Edited (start 0) new call.slot ((call.operation (start 0)).leaves call.slot) := by
      refine mbrEdit_edited edit ?_
      rw [sized]
      omega
    have whole : new.length = device.logicalBlockSize := edited.length.trans (sized 0)
    have first : final.2.medium 0 = new := by
      rw [medium, Function.update_self, Disk.chunk_self whole]
    refine ⟨fun lba other => ?_, fun place apart => ?_, scanRecords_mbr valid root signed table,
      mbrCandidate new, ?_, ?_⟩
    · rw [medium, Function.update_of_ne other]
    · rw [first]
      exact edited.outside place apart
    · rw [MbrCall.apply, replaced success, edited.slots]
      rfl
    · rw [← first]
      refine scanRecords_mbr valid root ?_ ?_
      · rw [first, edited.signature below, signed]
      · rw [first]
        exact newTable
  · intro rejected writes flushes
    exact (refused rejected writes flushes).medium

end Calls

theorem twoPartitions_sized (lba : Nat) : (twoPartitions lba).length =
    loopingDevice.logicalBlockSize := by
  change (tableSector (0x83, 8, 8) (0x83, 16, 8)).length = 512
  decide +kernel

/-- The second of two partitions is given half of its blocks. -/
theorem mbr_refinement_example : MbrRefines loopingDevice twoPartitions (.resize 1 16 4)
      (Prog.run (Disk.handle loopingDevice) (partitionMbrResize loopingDevice false 1 16 4).run
        (@Disk.boot loopingDevice.logicalBlockSize twoPartitions twoPartitions_sized [])).2.medium :=
  (mbr_refinement loopingDevice (by decide +kernel) false (.resize 1 16 4) twoPartitions
    twoPartitions_sized (by decide +kernel) (by decide +kernel) []).1 (by decide +kernel)

end AsasOs.Partition
