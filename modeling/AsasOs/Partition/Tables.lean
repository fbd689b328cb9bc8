import AsasOs.Partition.GptCrash
import AsasOs.Partition.ScanSafety

/-!
# Partition tables on a medium

The entries of the table that a disk holds, written down without the code that reads them:
four entries in the first block, or, behind a protective entry there, the entries of the
primary GPT copy. The readers of the scan find exactly these, one after the other, as long
as a GPT table has no more entries in use than the scan has room for.
-/
namespace AsasOs.Partition

open Block Bytes Medium Prog

/-! ### Tables -/

/-- The number of a partition and its extent. -/
structure TableEntry where
  number : Nat
  startLba : Nat
  blockCount : Nat
  deriving DecidableEq, Repr

def Candidate.entry (candidate : Candidate) : TableEntry :=
  ⟨candidate.number, candidate.startLba, candidate.blockCount⟩

def mbrEntries (sector : List UInt8) : List TableEntry :=
  [0, 1, 2, 3].filterMap fun index =>
    let entry := mbrEntry sector index
    if entry.type = 0 ∨ entry.sectorCount = 0 then none
    else some ⟨index + 1, entry.firstLba, entry.sectorCount⟩

def gptEntries (header : GptHeader) (table : List UInt8) : List TableEntry :=
  (List.range header.entryCount).filterMap fun index =>
    let entry := gptEntry table (index * header.entrySize)
    if guidIsZero entry.typeGuid then none
    else some ⟨index + 1, entry.firstLba, entry.lastLba - entry.firstLba + 1⟩

/-- An MBR with an entry that stands for a GPT. -/
def protective (sector : List UInt8) : Bool :=
  [0, 1, 2, 3].any fun index => (mbrEntry sector index).type == 0xEE

def tableOn (device : Device) (medium : Nat → List UInt8) : List TableEntry :=
  if !bootSignature (medium 0) then []
  else if protective (medium 0) then
    match gptCopy device medium 1 with
    | some table => gptEntries (gptHeader (medium 1)) table
    | none => []
  else mbrEntries (medium 0)

/-! ### Changes of an MBR -/

/-- `mbr_table_valid`, from some of the entries on. -/
def mbrTableValid (sector : List UInt8) (deviceBlocks : Nat) : List Nat → List Candidate → Bool
  | [], _ => true
  | index :: rest, candidates =>
    let entry := mbrEntry sector index
    if entry.type = 0 ∧ entry.sectorCount = 0 then mbrTableValid sector deviceBlocks rest candidates
    else if entry.type = 0 ∨ entry.sectorCount = 0 ∨ entry.type = 0xEE ∨
        mbrTypeIsExtended entry.type then false
    else
      match mbrCandidateAdd candidates (index + 1) entry.type entry.firstLba entry.sectorCount
        deviceBlocks with
      | none => false
      | some candidates => mbrTableValid sector deviceBlocks rest candidates

/-- The three operations of `partition_mbr_commit`. -/
inductive MbrOperation where
  | delete
  | set (type : UInt8) (startLba blockCount : UInt64)

/-- The change that `partition_mbr_commit` makes to entry `slot`. -/
def mbrEdit (slot : Nat) (operation : MbrOperation) (sector : List UInt8) : Option (List UInt8) :=
  match operation with
  | .delete =>
    if (mbrEntry sector slot).type = 0 then none
    else some (put sector (446 + 16 * slot) (List.replicate 16 0))
  | .set type startLba blockCount =>
    if type = 0 ∨ type = 0xEE ∨ mbrTypeIsExtended type.toNat ∨ startLba = 0 ∨ blockCount = 0 ∨
        startLba > 0xFFFFFFFF ∨ blockCount > 0xFFFFFFFF then none
    else some (put sector (446 + 16 * slot)
      ([0, 0, 0, 0, type, 0, 0, 0] ++ digits 4 startLba.toNat ++ digits 4 blockCount.toNat))

def partitionMbrCommit (device : Device) (mounted : Bool) (slot : Nat)
    (operation : MbrOperation) : DeviceCode Unit := do
  guard (device.parent = none ∧ slot < 4 ∧ ¬device.logicalBlockSize < 512 ∧
    ¬device.logicalBlockSize > PARTITION_MAX_BLOCK_SIZE ∧
    device.hasFlag BLOCK_DEVICE_FLAG_READ_ONLY = false ∧ mounted = false)
  let sector ← deviceRead 0 1
  guard (bootSignature sector)
  guard (¬protective sector)
  let sector ← Prog.ofOption (mbrEdit slot operation sector)
  guard (mbrTableValid sector device.blockCount [0, 1, 2, 3] [])
  let written ← deviceWrite 0 1 sector
  guard written
  let flushed ← deviceFlush
  guard flushed

def partitionMbrCreate (device : Device) (mounted : Bool) (slot : Nat) (type : UInt8)
    (startLba blockCount : UInt64) : DeviceCode Unit := do
  guard (slot < 4)
  let sector ← deviceRead 0 1
  guard ((mbrEntry sector slot).type = 0 ∧ (mbrEntry sector slot).sectorCount = 0)
  partitionMbrCommit device mounted slot (.set type startLba blockCount)

def partitionMbrDelete (device : Device) (mounted : Bool) (slot : Nat) : DeviceCode Unit :=
  partitionMbrCommit device mounted slot .delete

def partitionMbrResize (device : Device) (mounted : Bool) (slot : Nat)
    (startLba blockCount : UInt64) : DeviceCode Unit := do
  guard (slot < 4)
  let sector ← deviceRead 0 1
  guard ((mbrEntry sector slot).type ≠ 0 ∧ (mbrEntry sector slot).sectorCount ≠ 0)
  partitionMbrCommit device mounted slot
    (.set (UInt8.ofNat (mbrEntry sector slot).type) startLba blockCount)

/-! ### Reading an MBR -/

/-- What a disk without failures answers. -/
def mediumAnswer (device : Device) (medium : Nat → List UInt8) : (op : DeviceOp) → op.Response
  | .read lba count =>
    if requestInBounds device lba count then some (blocksAt medium lba count).flatten else none
  | .write _ _ _ => true
  | .flush => true
  | .kmalloc _ => true

/-- What `record_partition` accepts one after the other, where there is room. -/
structure Recordable (deviceBlocks : Nat) (candidates : List Candidate) : Prop where
  placed : ∀ candidate ∈ candidates,
    extentRefused deviceBlocks candidate.startLba candidate.blockCount = false
  apart : candidates.Pairwise fun earlier later =>
    overlap later.startLba later.blockCount earlier.startLba earlier.blockCount = false

theorem Recordable.nil (deviceBlocks : Nat) : Recordable deviceBlocks [] :=
  ⟨fun _ member => (List.not_mem_nil member).elim, List.Pairwise.nil⟩

/-- A candidate that is placed and apart from the others can be recorded behind them. -/
theorem Recordable.add {deviceBlocks : Nat} {candidates : List Candidate} {candidate : Candidate}
    (recordable : Recordable deviceBlocks candidates)
    (placed : extentRefused deviceBlocks candidate.startLba candidate.blockCount = false)
    (apart : ∀ earlier ∈ candidates, overlap candidate.startLba candidate.blockCount
      earlier.startLba earlier.blockCount = false) :
    Recordable deviceBlocks (candidates ++ [candidate]) := by
  constructor
  · intro other member
    rcases List.mem_append.mp member with old | new
    · exact recordable.placed other old
    · rw [List.mem_singleton.mp new]
      exact placed
  · refine List.pairwise_append.mpr ⟨recordable.apart, List.pairwise_singleton _ _, ?_⟩
    intro earlier member later new
    rw [List.mem_singleton.mp new]
    exact apart earlier member

/-- What a primary entry is to be recorded as. -/
def primaryCandidate (slot type startLba blockCount : Nat) : Candidate where
  scheme := .mbr
  number := slot + 1
  type := type
  typeGuid := List.replicate 16 0
  uniqueGuid := List.replicate 16 0
  name := []
  startLba := startLba
  blockCount := blockCount

/-- The candidate that entry `slot` of an MBR makes. -/
def mbrCandidate (sector : List UInt8) (slot : Nat) : Option Candidate :=
  let entry := mbrEntry sector slot
  if entry.type = 0 ∨ entry.sectorCount = 0 then none
  else some (primaryCandidate slot entry.type entry.firstLba entry.sectorCount)

/-- The candidates of the primary entries, in their order. -/
def primaries (slots : Nat → Option Candidate) : List Candidate := [0, 1, 2, 3].filterMap slots

theorem primaries_entries (sector : List UInt8) :
    (primaries (mbrCandidate sector)).map Candidate.entry = mbrEntries sector := by
  unfold primaries mbrEntries
  rw [List.map_filterMap]
  refine List.filterMap_congr fun index _ => ?_
  dsimp only [mbrCandidate]
  split <;> rfl

/-- An entry that is accepted is appended. -/
theorem mbrCandidateAdd_appends {candidates candidates' : List Candidate}
    {slot type startLba blockCount deviceBlocks : Nat}
    (added : mbrCandidateAdd candidates (slot + 1) type startLba blockCount deviceBlocks = some candidates') :
    candidates' = candidates ++ [primaryCandidate slot type startLba blockCount] ∧
    (Recordable deviceBlocks candidates → Recordable deviceBlocks candidates') := by
  unfold mbrCandidateAdd at added
  split_ifs at added with refused overlapping
  cases added
  simp only [not_or, Bool.not_eq_true] at refused
  simp only [Bool.not_eq_true, List.any_eq_false] at overlapping
  exact ⟨rfl, fun recordable => recordable.add refused.2 overlapping⟩

/-- The loop over the four entries collects those in use. -/
theorem mbrPrimaries_reads (disk : Device) (sector : List UInt8) :
    ∀ (indices : List Nat) (candidates : List Candidate) (extended : Nat × Nat),
      mbrTableValid sector disk.blockCount indices candidates = true →
      mbrPrimaries disk sector indices candidates extended =
        some (candidates ++ indices.filterMap (mbrCandidate sector), extended) ∧
      (Recordable disk.blockCount candidates →
        Recordable disk.blockCount (candidates ++ indices.filterMap (mbrCandidate sector))) := by
  intro indices
  induction indices with
  | nil =>
    intro candidates extended _
    rw [List.filterMap_nil, List.append_nil]
    exact ⟨rfl, id⟩
  | cons index rest ih =>
    intro candidates extended valid
    rw [mbrTableValid] at valid
    rw [mbrPrimaries]
    split_ifs at valid with free bad
    · -- an entry that is not in use
      obtain ⟨found, recordable⟩ := ih candidates extended valid
      have nothing : mbrCandidate sector index = none := if_pos (.inl free.1)
      rw [if_pos (.inl free.1), List.filterMap_cons, nothing]
      exact ⟨found, recordable⟩
    · simp only [not_or] at bad
      obtain ⟨typed, sized, noGpt, primary⟩ := bad
      -- the check goes on with what the reader goes on with
      obtain ⟨more, added, valid⟩ : ∃ more, mbrCandidateAdd candidates (index + 1)
          (mbrEntry sector index).type (mbrEntry sector index).firstLba
          (mbrEntry sector index).sectorCount disk.blockCount = some more ∧
          mbrTableValid sector disk.blockCount rest more = true := by
        cases found : mbrCandidateAdd candidates (index + 1) (mbrEntry sector index).type
            (mbrEntry sector index).firstLba (mbrEntry sector index).sectorCount
            disk.blockCount with
        | none =>
          rw [found] at valid
          cases valid
        | some more =>
          rw [found] at valid
          exact ⟨more, rfl, valid⟩
      obtain ⟨found, recordable⟩ := ih more extended valid
      obtain ⟨appended, moreRecordable⟩ := mbrCandidateAdd_appends added
      have used : mbrCandidate sector index = some (primaryCandidate index
          (mbrEntry sector index).type (mbrEntry sector index).firstLba
          (mbrEntry sector index).sectorCount) :=
        if_neg (by simp only [not_or]; exact ⟨typed, sized⟩)
      have onward : candidates ++ (index :: rest).filterMap (mbrCandidate sector) =
          more ++ rest.filterMap (mbrCandidate sector) := by
        rw [List.filterMap_cons, used, appended, List.append_assoc, List.singleton_append]
      rw [onward]
      refine ⟨?_, fun before => recordable (moreRecordable before)⟩
      rw [if_neg (by simp only [not_or]; exact ⟨typed, sized, noGpt⟩), if_neg primary, added]
      exact found

/-- A valid MBR is read as its entries. -/
theorem mbrTable_reads {disk : Device} {sector : List UInt8} {answer : (op : DeviceOp) → op.Response}
    (valid : mbrTableValid sector disk.blockCount [0, 1, 2, 3] [] = true) :
    eval answer (mbrTable disk sector).run = some (primaries (mbrCandidate sector)) ∧
      Recordable disk.blockCount (primaries (mbrCandidate sector)) := by
  obtain ⟨found, recordable⟩ := mbrPrimaries_reads disk sector _ [] (0, 0) valid
  refine ⟨?_, recordable (Recordable.nil _)⟩
  unfold mbrTable
  rw [eval_fallible_bind, found]
  rfl

/-! ### Reading a GPT -/

theorem slice_blocksAt {medium : Nat → List UInt8} {size : Nat}
    (sized : ∀ lba, (medium lba).length = size) {lba count k offset width : Nat} (inside : k < count)
    (fits : offset + width ≤ size) :
    slice (blocksAt medium lba count).flatten (k * size + offset) width =
      slice (medium (lba + k)) offset width := by
  have split : blocksAt medium lba count =
      blocksAt medium lba k ++ (medium (lba + k) :: blocksAt medium (lba + k + 1) (count - k - 1)) := by
    simp only [blocksAt]
    apply List.ext_getElem
    · simp only [List.length_map, List.length_range, List.length_append, List.length_cons]
      omega
    · intro i left right
      rw [List.getElem_map, List.getElem_range]
      rcases Nat.lt_trichotomy i k with before | here | after
      · rw [List.getElem_append_left (by simpa using before)]
        simp only [List.getElem_map, List.getElem_range]
      · subst here
        rw [List.getElem_append_right (by simp)]
        simp
      · rw [List.getElem_append_right (by simp; omega)]
        simp only [List.length_map, List.length_range]
        rw [List.getElem_cons, dif_neg (by omega)]
        simp only [List.getElem_map, List.getElem_range]
        congr 1
        omega
  rw [split, List.flatten_append, List.flatten_cons]
  unfold slice
  have front : (blocksAt medium lba k).flatten.length = k * size :=
    blocksAt_flatten_length sized lba k
  rw [List.drop_append, front, Nat.add_sub_cancel_left,
    List.drop_eq_nil_of_le (by omega), List.nil_append, List.drop_append,
    List.take_append_of_le_length]
  rw [List.length_drop, sized]
  omega

theorem slice_take {bytes : List UInt8} {limit offset width : Nat} (inside : offset + width ≤ limit) :
    slice (bytes.take limit) offset width = slice bytes offset width := by
  unfold slice
  rw [List.drop_take, List.take_take]
  congr 1
  omega

/-- The candidate that entry `index` of an entry array makes. -/
def gptCandidate (header : GptHeader) (table : List UInt8) (index : Nat) : Option Candidate :=
  let start := index * header.entrySize
  let entry := gptEntry table start
  if guidIsZero entry.typeGuid then none
  else some { scheme := .gpt, number := index + 1, type := 0, typeGuid := entry.typeGuid
              uniqueGuid := slice table (start + 16) 16
              name := slice table (start + 56) 72
              startLba := entry.firstLba
              blockCount := (entry.lastLba - entry.firstLba + 1) % 2 ^ 64 }

/-- The candidates of the first `count` entries. -/
def gptCandidatesOf (header : GptHeader) (table : List UInt8) (count : Nat) : List Candidate :=
  (List.range count).filterMap (gptCandidate header table)

/-- What the scan needs of a GPT copy: it is valid, its entries do not overlap, no more of
them are in use than the scan has room for, none starts at the first block, and the entry
array does not run past the last block number. -/
structure ScannableCopy (device : Device) (medium : Nat → List UInt8) (headerLba : Nat)
    (table : List UInt8) : Prop where
  valid : gptCopy device medium headerLba = some table
  entries : gptEntriesValid (gptHeader (medium headerLba)) table = true
  few : (gptEntries (gptHeader (medium headerLba)) table).length ≤ PARTITION_MAX_PER_DISK
  placed : ∀ entry ∈ gptEntries (gptHeader (medium headerLba)) table, entry.startLba ≠ 0
  whole : (gptHeader (medium headerLba)).entriesLba +
    (gptHeader (medium headerLba)).entriesSectors device.logicalBlockSize ≤ 2 ^ 64

/-- The fields of a valid header that the scan of its entries relies on. -/
structure EntryLayout (device : Device) (header : GptHeader) : Prop where
  large : 128 ≤ header.entrySize
  divides : device.logicalBlockSize % header.entrySize = 0
  fits : header.entrySize ≤ device.logicalBlockSize
  inside : device.blockCount ≠ 0 →
    header.entriesLba + header.entriesSectors device.logicalBlockSize ≤ device.blockCount

/-- A header that is accepted has its entries on the disk. -/
theorem gptHeaderValid_layout {device : Device} {headerLba : Nat} {sector : List UInt8}
    (valid : gptHeaderValid device headerLba sector = true) :
    EntryLayout device (gptHeader sector) ∧ (device.blockCount ≠ 0 → headerLba < device.blockCount) := by
  simp only [gptHeaderValid, gptPlacementValid, Bool.and_eq_true, Bool.not_eq_true',
    decide_eq_false_iff_not, beq_iff_eq, bne_iff_ne, Bool.and_eq_false_iff, Bool.or_eq_false_iff,
    bne_eq_false_iff_eq] at valid
  refine ⟨⟨by omega, by omega, by omega, ?_⟩, ?_⟩
  · intro known
    omega
  · intro known
    omega

theorem crc32Update_append (crc : UInt32) (first second : List UInt8) :
    crc32Update (crc32Update crc first) second = crc32Update crc (first ++ second) :=
  List.foldl_append.symm

theorem gptCandidatesOf_succ (header : GptHeader) (table : List UInt8) (count : Nat) :
    gptCandidatesOf header table (count + 1) =
      gptCandidatesOf header table count ++ (gptCandidate header table count).toList := by
  unfold gptCandidatesOf
  rw [List.range_succ, List.filterMap_append]
  cases here : gptCandidate header table count <;> simp [here]

theorem gptCandidatesOf_entries {header : GptHeader} {table : List UInt8}
    (placed : ∀ entry ∈ gptEntries header table, entry.startLba ≠ 0) :
    (gptCandidatesOf header table header.entryCount).map Candidate.entry = gptEntries header table := by
  unfold gptCandidatesOf gptEntries at *
  rw [List.map_filterMap]
  apply List.filterMap_congr
  intro index member
  unfold gptCandidate
  dsimp only
  split
  · rfl
  · rename_i used
    have start := placed _ (List.mem_filterMap.mpr ⟨index, member, if_neg used⟩)
    have last := getLE_bound table (index * header.entrySize + 40) 8
    simp only [Option.map_some, Candidate.entry, Option.some.injEq, TableEntry.mk.injEq, true_and]
    apply Nat.mod_eq_of_lt
    dsimp only [gptEntry] at start ⊢
    omega

section Reading

variable {device : Device} {medium : Nat → List UInt8} {headerLba : Nat} {table : List UInt8}

theorem mediumAnswer_block {lba : Nat} (inside : device.blockCount ≠ 0 → lba < device.blockCount) :
    mediumAnswer device medium (.read lba 1) = some (medium lba) := by
  have bounds : requestInBounds device lba 1 = true := by
    unfold requestInBounds
    rw [if_neg (by decide), if_neg (by omega)]
    by_cases unknown : device.blockCount = 0
    · rw [if_pos unknown]
    · have := inside unknown
      rw [if_neg unknown, if_neg (by omega)]
      exact decide_eq_true (by omega)
  simp only [mediumAnswer, bounds, if_true]
  simp [blocksAt]

structure EntryPlace (device : Device) (header : GptHeader) (index : Nat) : Prop where
  sector : index * header.entrySize / device.logicalBlockSize < header.entriesSectors device.logicalBlockSize
  early : index * header.entrySize / device.logicalBlockSize ≤ index
  fits : index * header.entrySize % device.logicalBlockSize + header.entrySize ≤ device.logicalBlockSize

variable {header : GptHeader}

theorem EntryLayout.place (layout : EntryLayout device header) {index : Nat}
    (below : index < header.entryCount) : EntryPlace device header index := by
  have large := layout.large
  have positive : 0 < device.logicalBlockSize := lt_of_lt_of_le (by omega) layout.fits
  have room : (index + 1) * header.entrySize ≤ header.entriesBytes :=
    Nat.mul_le_mul_right _ below
  rw [Nat.succ_mul] at room
  constructor
  · have sectors := entriesBytes_le header positive
    rw [Nat.div_lt_iff_lt_mul positive]
    omega
  · apply Nat.div_le_of_le_mul
    rw [Nat.mul_comm]
    exact Nat.mul_le_mul_right _ layout.fits
  · obtain ⟨per, whole⟩ := Nat.dvd_of_mod_eq_zero layout.divides
    rw [whole, Nat.mul_comm header.entrySize per, Nat.mul_mod_mul_right, ← Nat.succ_mul]
    apply Nat.mul_le_mul_right
    apply Nat.mod_lt
    rcases Nat.eq_zero_or_pos per with zero | more
    · rw [zero, Nat.mul_zero] at whole
      omega
    · exact more

/-- An entry lies in one block. -/
theorem EntryPlace.slice {index : Nat} (place : EntryPlace device header index)
    (sized : ∀ lba, (medium lba).length = device.logicalBlockSize) (below : index < header.entryCount)
    {start width : Nat} (inside : start + width ≤ header.entrySize) :
    slice (medium (header.entriesLba + index * header.entrySize / device.logicalBlockSize))
        (index * header.entrySize % device.logicalBlockSize + start) width =
      Bytes.slice ((blocksAt medium header.entriesLba
        (header.entriesSectors device.logicalBlockSize)).flatten.take header.entriesBytes)
        (index * header.entrySize + start) width := by
  have room : (index + 1) * header.entrySize ≤ header.entriesBytes :=
    Nat.mul_le_mul_right _ below
  rw [Nat.succ_mul] at room
  have fits := place.fits
  rw [slice_take (by omega), ← slice_blocksAt sized place.sector (by omega), ← Nat.add_assoc,
    Nat.div_add_mod']

/-- The entries of a header, read from a medium. -/
def entryTable (device : Device) (header : GptHeader) (medium : Nat → List UInt8) : List UInt8 :=
  (blocksAt medium header.entriesLba
    (header.entriesSectors device.logicalBlockSize)).flatten.take header.entriesBytes

/-- The block of an entry is read, or still there. -/
theorem gptEntrySector_reads (layout : EntryLayout device header) (count : header.entryCount < 2 ^ 32)
    (whole : header.entriesLba + header.entriesSectors device.logicalBlockSize ≤ 2 ^ 64)
    {index current : Nat} {sector : List UInt8} (below : index < header.entryCount)
    (kept : current = 0xFFFFFFFF ∨ sector = medium (header.entriesLba + current)) :
    eval (mediumAnswer device medium) (gptEntrySector header
        (index * header.entrySize / device.logicalBlockSize % 2 ^ 32) current sector).run =
      some (medium (header.entriesLba + index * header.entrySize / device.logicalBlockSize)) := by
  have place := layout.place below
  have early := place.early
  have inSectors := place.sector
  have small : index * header.entrySize / device.logicalBlockSize % 2 ^ 32 =
      index * header.entrySize / device.logicalBlockSize := Nat.mod_eq_of_lt (by omega)
  rw [small]
  unfold gptEntrySector
  split
  · rw [Nat.mod_eq_of_lt (by omega)]
    exact mediumAnswer_block fun known => by
      have := layout.inside known
      omega
  · rename_i same
    -- it cannot be the number that stands for no sector
    rcases kept with none | here
    · omega
    · rw [here, ← not_not.mp same]
      rfl

/-- What the loop checks of entry `index`, with the candidates of the entries before it. -/
def entryAccepted (header : GptHeader) (table : List UInt8) (index : Nat) : Prop :=
  ¬((gptCandidatesOf header table index).length ≥ PARTITION_MAX_PER_DISK ∨
    (gptEntry table (index * header.entrySize)).firstLba < header.firstUsableLba ∨
    (gptEntry table (index * header.entrySize)).lastLba > header.lastUsableLba ∨
    (gptEntry table (index * header.entrySize)).lastLba <
      (gptEntry table (index * header.entrySize)).firstLba) ∧
  ¬(gptCandidatesOf header table index).any (fun candidate =>
    (gptEntry table (index * header.entrySize)).firstLba ≤
        lastBlock candidate.startLba candidate.blockCount &&
      candidate.startLba ≤ (gptEntry table (index * header.entrySize)).lastLba) = true

instance (header : GptHeader) (table : List UInt8) (index : Nat) :
    Decidable (entryAccepted header table index) :=
  inferInstanceAs (Decidable (_ ∧ _))

theorem gptCandidate_accepted {index : Nat} (entries : gptEntriesValid header table = true)
    (few : (gptCandidatesOf header table header.entryCount).length ≤ PARTITION_MAX_PER_DISK)
    (below : index < header.entryCount)
    (used : ¬guidIsZero (gptEntry table (index * header.entrySize)).typeGuid = true) :
    entryAccepted header table index := by
  have valid := List.all_eq_true.mp entries index (List.mem_range.mpr below)
  simp only [Bool.or_eq_true, used, Bool.false_eq_true, false_or, Bool.and_eq_true,
    Bool.not_eq_true', decide_eq_false_iff_not, List.all_eq_true, List.mem_range,
    Bool.and_eq_false_iff] at valid
  obtain ⟨⟨⟨low, high⟩, ordered⟩, apart⟩ := valid
  constructor
  · -- the entry itself is among the few that are in use
    have next := gptCandidatesOf_succ header table index
    have made : (gptCandidate header table index).toList.length = 1 := by
      unfold gptCandidate
      dsimp only
      rw [if_neg used]
      rfl
    have prefix_le : (gptCandidatesOf header table (index + 1)).length ≤
        (gptCandidatesOf header table header.entryCount).length := by
      apply List.Sublist.length_le
      exact (List.range_sublist.mpr below).filterMap _
    rw [next, List.length_append, made] at prefix_le
    simp only [not_or]
    exact ⟨by omega, low, high, ordered⟩
  · rw [Bool.not_eq_true, List.any_eq_false]
    intro candidate member
    obtain ⟨other, earlier, made⟩ := List.mem_filterMap.mp member
    have before := apart other (List.mem_range.mp earlier)
    unfold gptCandidate at made
    dsimp only at made
    split at made
    · cases made
    · rename_i otherUsed
      cases made
      have otherValid := List.all_eq_true.mp entries other
        (List.mem_range.mpr (lt_trans (List.mem_range.mp earlier) below))
      simp only [Bool.or_eq_true, otherUsed, Bool.false_eq_true, false_or, Bool.and_eq_true,
        Bool.not_eq_true', decide_eq_false_iff_not] at otherValid
      have last := getLE_bound table (other * header.entrySize + 40) 8
      have ordered' := otherValid.1.2
      simp only [otherUsed, Bool.not_false, Bool.true_eq_false, false_or] at before
      simp only [Bool.and_eq_true, decide_eq_true_eq, not_and]
      unfold lastBlock
      dsimp only [gptEntry] at *
      omega

theorem gptEntry_reads {index offset : Nat} {sector : List UInt8} (large : 128 ≤ header.entrySize)
    (part : ∀ start width, start + width ≤ header.entrySize →
      slice sector (offset + start) width = slice table (index * header.entrySize + start) width) :
    gptEntry sector offset = gptEntry table (index * header.entrySize) := by
  have typeGuid := part 0 16 (by omega)
  have first := part 32 8 (by omega)
  have last := part 40 8 (by omega)
  simp only [gptEntry, getLE, first, last]
  exact congrArg (fun guid => GptEntry.mk guid _ _) typeGuid

/-- One round of the loop over the entries. -/
theorem gptCandidates_step (layout : EntryLayout device header)
    (sized : ∀ lba, (medium lba).length = device.logicalBlockSize)
    (count : header.entryCount < 2 ^ 32)
    (whole : header.entriesLba + header.entriesSectors device.logicalBlockSize ≤ 2 ^ 64)
    (left : Nat) {index current : Nat} {sector : List UInt8} (below : index < header.entryCount)
    (kept : current = 0xFFFFFFFF ∨ sector = medium (header.entriesLba + current)) :
    ∃ current' sector', (current' = 0xFFFFFFFF ∨ sector' = medium (header.entriesLba + current')) ∧
      eval (mediumAnswer device medium) (gptCandidates device header (left + 1) index current sector
          (crc32Update 0xFFFFFFFF ((entryTable device header medium).take (index * header.entrySize)))
          (gptCandidatesOf header (entryTable device header medium) index)).run =
        if guidIsZero (gptEntry (entryTable device header medium)
              (index * header.entrySize)).typeGuid = true ∨
            entryAccepted header (entryTable device header medium) index then
          eval (mediumAnswer device medium) (gptCandidates device header left (index + 1)
            current' sector' (crc32Update 0xFFFFFFFF
              ((entryTable device header medium).take ((index + 1) * header.entrySize)))
            (gptCandidatesOf header (entryTable device header medium) (index + 1))).run
        else none := by
  have place := layout.place below
  have part : ∀ start width, start + width ≤ header.entrySize →
      slice (medium (header.entriesLba + index * header.entrySize / device.logicalBlockSize))
          (index * header.entrySize % device.logicalBlockSize + start) width =
        slice (entryTable device header medium) (index * header.entrySize + start) width :=
    fun start width inside => place.slice sized below inside
  have entry := gptEntry_reads layout.large part
  have here := part 0 header.entrySize (by omega)
  simp only [Nat.add_zero] at here
  have early := place.early
  have small : index * header.entrySize / device.logicalBlockSize % 2 ^ 32 =
      index * header.entrySize / device.logicalBlockSize := Nat.mod_eq_of_lt (by omega)
  have crc : crc32Update (crc32Update 0xFFFFFFFF
        ((entryTable device header medium).take (index * header.entrySize)))
        (slice (medium (header.entriesLba + index * header.entrySize / device.logicalBlockSize))
          (index * header.entrySize % device.logicalBlockSize) header.entrySize) =
      crc32Update 0xFFFFFFFF
        ((entryTable device header medium).take ((index + 1) * header.entrySize)) := by
    rw [here, crc32Update_append, Nat.succ_mul, List.take_add]
    rfl
  refine ⟨index * header.entrySize / device.logicalBlockSize % 2 ^ 32,
    medium (header.entriesLba + index * header.entrySize / device.logicalBlockSize), ?_, ?_⟩
  · -- the sector that was read is the one that the next entry may find again
    rw [small]
    exact Or.inr rfl
  rw [gptCandidates, eval_fallible_bind,
    gptEntrySector_reads layout count whole below kept, Option.bind_some, eval_fallible_bind,
    eval_guard, if_pos (Nat.not_lt.mpr place.fits), Option.bind_some]
  dsimp only
  rw [entry, crc, gptCandidatesOf_succ]
  by_cases free : guidIsZero
      (gptEntry (entryTable device header medium) (index * header.entrySize)).typeGuid = true
  · have none_made : gptCandidate header (entryTable device header medium) index = none := by
      unfold gptCandidate
      exact if_pos free
    rw [if_pos free, if_pos (Or.inl free), none_made, Option.toList_none, List.append_nil]
  · rw [if_neg free, eval_fallible_bind, eval_guard]
    by_cases accepted : entryAccepted header (entryTable device header medium) index
    · have large := layout.large
      have made : gptCandidate header (entryTable device header medium) index = some
          { scheme := .gpt, number := index + 1, type := 0
            typeGuid := (gptEntry (entryTable device header medium)
              (index * header.entrySize)).typeGuid
            uniqueGuid := slice
              (medium (header.entriesLba + index * header.entrySize / device.logicalBlockSize))
              (index * header.entrySize % device.logicalBlockSize + 16) 16
            name := slice
              (medium (header.entriesLba + index * header.entrySize / device.logicalBlockSize))
              (index * header.entrySize % device.logicalBlockSize + 56) 72
            startLba := (gptEntry (entryTable device header medium)
              (index * header.entrySize)).firstLba
            blockCount := ((gptEntry (entryTable device header medium)
              (index * header.entrySize)).lastLba - (gptEntry (entryTable device header medium)
              (index * header.entrySize)).firstLba + 1) % 2 ^ 64 } := by
        unfold gptCandidate
        dsimp only
        rw [if_neg free, part 16 16 (by omega), part 56 72 (by omega)]
      rw [if_pos (Or.inr accepted), if_pos accepted.1, Option.bind_some, eval_fallible_bind,
        eval_guard, if_pos accepted.2, Option.bind_some, made, Option.toList_some]
    · rw [if_neg (not_or.mpr ⟨free, accepted⟩)]
      by_cases fits : ¬((gptCandidatesOf header (entryTable device header medium) index).length ≥
            PARTITION_MAX_PER_DISK ∨
          (gptEntry (entryTable device header medium) (index * header.entrySize)).firstLba <
            header.firstUsableLba ∨
          (gptEntry (entryTable device header medium) (index * header.entrySize)).lastLba >
            header.lastUsableLba ∨
          (gptEntry (entryTable device header medium) (index * header.entrySize)).lastLba <
            (gptEntry (entryTable device header medium) (index * header.entrySize)).firstLba)
      · rw [if_pos fits, Option.bind_some, eval_fallible_bind, eval_guard,
          if_neg fun apart => accepted ⟨fits, apart⟩]
        rfl
      · rw [if_neg fits]
        rfl

/-- The loop collects the entries in use, if they are accepted. -/
theorem gptCandidates_eval (layout : EntryLayout device header)
    (sized : ∀ lba, (medium lba).length = device.logicalBlockSize)
    (count : header.entryCount < 2 ^ 32)
    (whole : header.entriesLba + header.entriesSectors device.logicalBlockSize ≤ 2 ^ 64) :
    ∀ (left index current : Nat) (sector : List UInt8), index + left = header.entryCount →
      (current = 0xFFFFFFFF ∨ sector = medium (header.entriesLba + current)) →
      eval (mediumAnswer device medium) (gptCandidates device header left index current sector
          (crc32Update 0xFFFFFFFF ((entryTable device header medium).take (index * header.entrySize)))
          (gptCandidatesOf header (entryTable device header medium) index)).run =
        if ∀ i < header.entryCount, index ≤ i → guidIsZero (gptEntry (entryTable device header medium)
              (i * header.entrySize)).typeGuid = true ∨
            entryAccepted header (entryTable device header medium) i then
          some (crc32Update 0xFFFFFFFF (entryTable device header medium),
            gptCandidatesOf header (entryTable device header medium) header.entryCount)
        else none := by
  intro left
  induction left with
  | zero =>
    intro index current sector last _
    have done : index = header.entryCount := by omega
    have all : (entryTable device header medium).take (index * header.entrySize) =
        entryTable device header medium := by
      rw [done]
      exact List.take_of_length_le (List.length_take_le _ _)
    rw [gptCandidates, all, if_pos (by omega), done]
    rfl
  | succ left ih =>
    intro index current sector last kept
    have below : index < header.entryCount := by omega
    obtain ⟨current', sector', kept', turn⟩ :=
      gptCandidates_step layout sized count whole left below kept
    rw [turn]
    by_cases accepted : guidIsZero (gptEntry (entryTable device header medium)
          (index * header.entrySize)).typeGuid = true ∨
        entryAccepted header (entryTable device header medium) index
    · rw [if_pos accepted, ih (index + 1) _ _ (by omega) kept']
      apply if_congr _ rfl rfl
      constructor
      · intro rest i inside from_index
        rcases Nat.eq_or_lt_of_le from_index with rfl | later
        · exact accepted
        · exact rest i inside later
      · exact fun all i inside later => all i inside (by omega)
    · rw [if_neg accepted, if_neg fun all => accepted (all index below (Nat.le_refl _))]

theorem entriesAccepted_iff :
    (∀ i < header.entryCount, guidIsZero (gptEntry table (i * header.entrySize)).typeGuid = true ∨
        entryAccepted header table i) ↔
      gptEntriesValid header table = true ∧
        (gptCandidatesOf header table header.entryCount).length ≤ PARTITION_MAX_PER_DISK := by
  constructor
  · intro all
    constructor
    · apply List.all_eq_true.mpr
      intro index member
      have below := List.mem_range.mp member
      rcases all index below with free | accepted
      · simp only [free, Bool.true_or]
      · obtain ⟨fits, apart⟩ := accepted
        simp only [not_or] at fits
        obtain ⟨-, low, high, ordered⟩ := fits
        simp only [Bool.or_eq_true, Bool.and_eq_true, Bool.not_eq_true', decide_eq_false_iff_not,
          List.all_eq_true, List.mem_range, Bool.and_eq_false_iff]
        refine Or.inr ⟨⟨⟨low, high⟩, ordered⟩, fun other earlier => ?_⟩
        -- an entry in use before it is one of the candidates
        by_cases free : guidIsZero (gptEntry table (other * header.entrySize)).typeGuid = true
        · exact Or.inl (Or.inl (by rw [free]; rfl))
        · have inOrder := ((all other (by omega)).resolve_left free).1
          simp only [not_or] at inOrder
          have made : gptCandidate header table other = some _ := if_neg free
          rw [Bool.not_eq_true, List.any_eq_false] at apart
          have before := apart _ (List.mem_filterMap.mpr
            ⟨other, List.mem_range.mpr earlier, made⟩)
          have last := getLE_bound table (other * header.entrySize + 40) 8
          simp only [Bool.and_eq_true, decide_eq_true_eq, not_and] at before
          unfold lastBlock at before
          dsimp only [gptEntry] at *
          omega
    · -- each entry in use has found room for one more
      have few : ∀ count ≤ header.entryCount,
          (gptCandidatesOf header table count).length ≤ PARTITION_MAX_PER_DISK := by
        intro count
        induction count with
        | zero => exact fun _ => Nat.zero_le _
        | succ index ih =>
          intro below
          rw [gptCandidatesOf_succ, List.length_append]
          rcases all index below with free | accepted
          · have none_made : gptCandidate header table index = none := if_pos free
            rw [none_made]
            exact ih (by omega)
          · have room := (not_or.mp accepted.1).1
            have one : (gptCandidate header table index).toList.length ≤ 1 := by
              cases gptCandidate header table index <;> simp
            omega
      exact few _ (Nat.le_refl _)
  · rintro ⟨entries, few⟩ index below
    by_cases free : guidIsZero (gptEntry table (index * header.entrySize)).typeGuid = true
    · exact Or.inl free
    · exact Or.inr (gptCandidate_accepted entries few below free)

theorem readGptHeader_reads
    (sizes : ¬(device.logicalBlockSize < 512 ∨ device.logicalBlockSize > PARTITION_MAX_BLOCK_SIZE))
    (valid : gptHeaderValid device headerLba (medium headerLba) = true) :
    eval (mediumAnswer device medium) (readGptHeader device headerLba).run =
    some (medium headerLba) := by
  have read : eval (mediumAnswer device medium) (deviceRead headerLba 1).run =
      some (medium headerLba) := mediumAnswer_block (gptHeaderValid_layout valid).2
  unfold readGptHeader
  rw [eval_fallible_bind, eval_guard, if_pos sizes, Option.bind_some, eval_fallible_bind, read,
    Option.bind_some, eval_fallible_bind, eval_guard, if_pos valid]
  rfl

theorem gptCopy_lastUsable (copy : gptCopy device medium headerLba = some table) :
    device.blockCount ≠ 0 → (gptHeader (medium headerLba)).lastUsableLba < device.blockCount := by
  unfold gptCopy at copy
  dsimp only at copy
  split at copy
  · rename_i valid
    have headerValid := (Bool.and_eq_true_iff.mp valid).1
    simp only [gptHeaderValid, gptPlacementValid, Bool.and_eq_true, Bool.not_eq_true',
      decide_eq_false_iff_not, beq_iff_eq, bne_iff_ne, Bool.and_eq_false_iff,
      Bool.or_eq_false_iff, bne_eq_false_iff_eq] at headerValid
    omega
  · cases copy

theorem gptCandidate_placed {index : Nat} {candidate : Candidate}
    (inside : device.blockCount ≠ 0 → header.lastUsableLba < device.blockCount)
    (accepted : entryAccepted header table index)
    (made : gptCandidate header table index = some candidate) (start : candidate.startLba ≠ 0) :
    extentRefused device.blockCount candidate.startLba candidate.blockCount = false := by
  unfold gptCandidate at made
  dsimp only at made
  split at made
  · cases made
  · cases made
    obtain ⟨fits, -⟩ := accepted
    simp only [not_or] at fits
    obtain ⟨-, -, high, ordered⟩ := fits
    have last := getLE_bound table (index * header.entrySize + 40) 8
    rw [extentRefused_eq_false]
    dsimp only [gptEntry] at *
    refine ⟨by omega, by omega, fun known => ?_⟩
    have := inside known
    omega

/-- The entries of a valid table can be recorded together. -/
theorem gptCandidatesOf_recordable (entries : gptEntriesValid header table = true)
    (few : (gptCandidatesOf header table header.entryCount).length ≤ PARTITION_MAX_PER_DISK)
    (placed : ∀ entry ∈ gptEntries header table, entry.startLba ≠ 0)
    (inside : device.blockCount ≠ 0 → header.lastUsableLba < device.blockCount) :
    ∀ count ≤ header.entryCount, Recordable device.blockCount (gptCandidatesOf header table count) := by
  intro count
  induction count with
  | zero => exact fun _ => Recordable.nil _
  | succ index ih =>
    intro below
    have before := ih (by omega)
    rw [gptCandidatesOf_succ]
    cases made : gptCandidate header table index with
    | none =>
      rw [Option.toList_none, List.append_nil]
      exact before
    | some candidate =>
      have used : ¬guidIsZero (gptEntry table (index * header.entrySize)).typeGuid = true := by
        intro free
        have none_made : gptCandidate header table index = none := if_pos free
        rw [none_made] at made
        cases made
      have accepted := gptCandidate_accepted entries few below used
      have start := placed _ (List.mem_filterMap.mpr
        ⟨index, List.mem_range.mpr below, if_neg used⟩)
      have placed' := @gptCandidate_placed device table header index candidate inside accepted made
      have candidate_eq : some candidate = some _ := made.symm.trans (if_neg used)
      cases candidate_eq
      rw [Option.toList_some]
      apply before.add (placed' start)
      obtain ⟨fits, apart⟩ := accepted
      simp only [not_or] at fits
      have ordered := fits.2.2.2
      have last := getLE_bound table (index * header.entrySize + 40) 8
      rw [Bool.not_eq_true, List.any_eq_false] at apart
      intro earlier member
      have disjoint := apart earlier member
      simp only [Bool.and_eq_true, decide_eq_true_eq, not_and] at disjoint
      unfold overlap
      rw [Bool.and_eq_false_iff, decide_eq_false_iff_not, decide_eq_false_iff_not]
      by_cases overlapping : (gptEntry table (index * header.entrySize)).firstLba ≤
          lastBlock earlier.startLba earlier.blockCount
      · have behind := disjoint overlapping
        refine Or.inr fun early => behind (early.trans ?_)
        unfold lastBlock
        dsimp only [gptEntry] at *
        omega
      · exact Or.inl overlapping

/-- A header that is not valid is refused. -/
theorem readGptHeader_refuses (invalid : ¬gptHeaderValid device headerLba (medium headerLba) = true) :
    eval (mediumAnswer device medium) (readGptHeader device headerLba).run = none := by
  unfold readGptHeader
  rw [eval_fallible_bind, eval_guard]
  split
  · rw [Option.bind_some, eval_fallible_bind]
    cases read : eval (mediumAnswer device medium) (deviceRead headerLba 1).run with
    | none => rfl
    | some sector =>
      have answered : mediumAnswer device medium (.read headerLba 1) = some sector := read
      simp only [mediumAnswer] at answered
      split at answered
      · cases answered
        have one : (blocksAt medium headerLba 1).flatten = medium headerLba := by simp [blocksAt]
        rw [Option.bind_some, eval_fallible_bind, eval_guard, one, if_neg invalid]
        rfl
      · cases answered
  · rfl

/-- The table of a copy, if the scan takes it over: its entries are valid, and no more of them
are in use than the scan has room for. -/
def acceptedTable (device : Device) (medium : Nat → List UInt8) (headerLba : Nat) :
    Option (List UInt8) :=
  (gptCopy device medium headerLba).filter fun table =>
    gptEntriesValid (gptHeader (medium headerLba)) table &&
      decide ((gptCandidatesOf (gptHeader (medium headerLba)) table
        (gptHeader (medium headerLba)).entryCount).length ≤ PARTITION_MAX_PER_DISK)

theorem gptTableAt_eval
    (sizes : ¬(device.logicalBlockSize < 512 ∨ device.logicalBlockSize > PARTITION_MAX_BLOCK_SIZE))
    (sized : ∀ lba, (medium lba).length = device.logicalBlockSize)
    (whole : gptHeaderValid device headerLba (medium headerLba) = true →
      (gptHeader (medium headerLba)).entriesLba +
        (gptHeader (medium headerLba)).entriesSectors device.logicalBlockSize ≤ 2 ^ 64) :
    eval (mediumAnswer device medium) (gptTableAt device headerLba).run =
      (acceptedTable device medium headerLba).map fun table =>
        gptCandidatesOf (gptHeader (medium headerLba)) table (gptHeader (medium headerLba)).entryCount := by
  by_cases headerValid : gptHeaderValid device headerLba (medium headerLba) = true
  · have layout := (gptHeaderValid_layout headerValid).1
    have count := getLE_bound (medium headerLba) 80 4
    have loop := gptCandidates_eval layout sized count (whole headerValid)
      (gptHeader (medium headerLba)).entryCount 0 0xFFFFFFFF [] (by omega) (Or.inl rfl)
    have started : crc32Update 0xFFFFFFFF [] = 0xFFFFFFFF := rfl
    have empty : gptCandidatesOf (gptHeader (medium headerLba))
        (entryTable device (gptHeader (medium headerLba)) medium) 0 = [] := rfl
    simp only [Nat.zero_mul, List.take_zero, started, empty, Nat.zero_le, forall_const] at loop
    have copy : gptCopy device medium headerLba =
        if crc32 (entryTable device (gptHeader (medium headerLba)) medium) =
            (gptHeader (medium headerLba)).entriesCrc32 then
          some (entryTable device (gptHeader (medium headerLba)) medium)
        else none := by
      unfold gptCopy
      dsimp only
      rw [headerValid, Bool.true_and]
      exact if_congr beq_iff_eq rfl rfl
    unfold gptTableAt acceptedTable
    rw [eval_fallible_bind, readGptHeader_reads sizes headerValid, Option.bind_some,
      eval_fallible_bind, loop, copy]
    by_cases accepted : ∀ i < (gptHeader (medium headerLba)).entryCount,
        guidIsZero (gptEntry (entryTable device (gptHeader (medium headerLba)) medium)
          (i * (gptHeader (medium headerLba)).entrySize)).typeGuid = true ∨
        entryAccepted (gptHeader (medium headerLba))
          (entryTable device (gptHeader (medium headerLba)) medium) i
    · obtain ⟨entries, few⟩ := entriesAccepted_iff.mp accepted
      rw [if_pos accepted, Option.bind_some, eval_fallible_bind, eval_guard]
      by_cases crc : crc32 (entryTable device (gptHeader (medium headerLba)) medium) =
          (gptHeader (medium headerLba)).entriesCrc32
      · have passed : (crc32Update 0xFFFFFFFF (entryTable device (gptHeader (medium headerLba))
            medium) ^^^ 0xFFFFFFFF).toNat = (gptHeader (medium headerLba)).entriesCrc32 := crc
        rw [if_pos passed, if_pos crc, Option.filter_some, entries, decide_eq_true few]
        rfl
      · have refused : ¬(crc32Update 0xFFFFFFFF (entryTable device (gptHeader (medium headerLba))
            medium) ^^^ 0xFFFFFFFF).toNat = (gptHeader (medium headerLba)).entriesCrc32 := crc
        rw [if_neg refused, if_neg crc]
        rfl
    · rw [if_neg accepted]
      split
      · rw [Option.filter_some, if_neg]
        · rfl
        · rw [Bool.and_eq_true, decide_eq_true_iff]
          exact fun both => accepted (entriesAccepted_iff.mpr both)
      · rfl
  · have no_copy : gptCopy device medium headerLba = none := by
      unfold gptCopy
      dsimp only
      rw [Bool.not_eq_true] at headerValid
      rw [headerValid, Bool.false_and, if_neg Bool.false_ne_true]
    unfold gptTableAt acceptedTable
    rw [eval_fallible_bind, readGptHeader_refuses headerValid, no_copy]
    rfl

/-- A valid copy is read as its entries. -/
theorem gptTableAt_reads
    (sizes : ¬(device.logicalBlockSize < 512 ∨ device.logicalBlockSize > PARTITION_MAX_BLOCK_SIZE))
    (sized : ∀ lba, (medium lba).length = device.logicalBlockSize)
    (copy : ScannableCopy device medium headerLba table) :
    ∃ candidates, eval (mediumAnswer device medium) (gptTableAt device headerLba).run = some candidates ∧
      candidates.map Candidate.entry = gptEntries (gptHeader (medium headerLba)) table ∧
      Recordable device.blockCount candidates := by
  have same := gptCandidatesOf_entries copy.placed
  have few : (gptCandidatesOf (gptHeader (medium headerLba)) table
      (gptHeader (medium headerLba)).entryCount).length ≤ PARTITION_MAX_PER_DISK := by
    rw [← List.length_map Candidate.entry, same]
    exact copy.few
  have taken : acceptedTable device medium headerLba = some table := by
    unfold acceptedTable
    rw [copy.valid, Option.filter_some, copy.entries, decide_eq_true few]
    rfl
  refine ⟨_, by rw [gptTableAt_eval sizes sized fun _ => copy.whole, taken]; rfl, same,
    gptCandidatesOf_recordable copy.entries few copy.placed ?_ _ (Nat.le_refl _)⟩
  exact gptCopy_lastUsable copy.valid

end Reading

end AsasOs.Partition
