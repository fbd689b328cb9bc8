import AsasOs.Lib.Packed
import Mathlib.Data.List.Lex

/-!
# NTFS: names, index entries and update sequences

The parts of `ntfs.c` that work on the bytes of one record: the comparison of names, an
index entry that is copied into a buffer, and the update sequence array, which saves the
last two bytes of every sector of a record when the record is written and puts them back
when it is read.

## Model

- A buffer has a byte at every offset, and a pointer into a buffer is the buffer from
  that position on. What lies beyond the end of a buffer is never what matters.
- The sizes of the structures on disk are 16 bytes (`NTFS_INDEX_ENTRY`,
  `NTFS_INDEX_HEADER`, `NTFS_INDEX_ROOT`), 24 bytes (`NTFS_INDEX_BLOCK`) and 66 bytes
  (`NTFS_FILE_NAME`).

## Main results

- `ntfsCompareNames_neg_iff`: names are compared by their case-folded characters.
- `ntfsIndexCopyEntry_spec`: the entry that is written, and where.
- `applyFixup_protectFixup`: what a guarded record is read back as.
-/
namespace AsasOs.Ntfs

open Bytes Packed

/-- A buffer, or what a pointer shows of it. -/
abbrev Memory := Nat → UInt8

/-! ### The mounted volume -/

/-- What the boot sector says about the sizes of sectors, clusters and index records. -/
structure Geometry where
  bytesPerSector : Nat
  sectorsPerCluster : Nat
  clustersPerIndexRecord : Int
  deriving DecidableEq, Repr

namespace Geometry

def bytesPerCluster (g : Geometry) : Nat := g.bytesPerSector * g.sectorsPerCluster

/-- A negative number of clusters is the exponent of the size; the shift is one of 32 bits. -/
def indexRecordSize (g : Geometry) : Nat :=
  if g.clustersPerIndexRecord < 0 then 2 ^ ((-g.clustersPerIndexRecord).toNat % 32)
  else g.clustersPerIndexRecord.toNat * g.bytesPerCluster

/-- The checks of `ntfs_initialize_context` on these sizes. -/
def accepted (g : Geometry) : Bool :=
  (g.bytesPerSector == 512 || g.bytesPerSector == 1024 || g.bytesPerSector == 2048 ||
    g.bytesPerSector == 4096) &&
  g.sectorsPerCluster != 0 && g.sectorsPerCluster < 256 &&
  -128 ≤ g.clustersPerIndexRecord && g.clustersPerIndexRecord < 128 &&
  g.indexRecordSize != 0 && g.indexRecordSize ≤ 4096

end Geometry

/-- `NTFS_CONTEXT`, as far as the directory index uses it. No up-case table is an empty one. -/
structure NtfsContext extends Geometry where
  accepted : toGeometry.accepted = true
  upcase : List Nat

variable {context : NtfsContext}

theorem NtfsContext.indexRecordSize_le (context : NtfsContext) : context.indexRecordSize ≤ 4096 := by
  have accepted := context.accepted
  simp only [Geometry.accepted, Bool.and_eq_true, decide_eq_true_eq] at accepted
  exact accepted.2

/-! ### Names -/

def ntfsUpcase (context : NtfsContext) (character : Nat) : Nat :=
  match context.upcase[character]? with
  | some folded => folded
  | none => if 97 ≤ character ∧ character ≤ 122 then character - 32 else character

def ntfsCompareNames (context : NtfsContext) : List Nat → List Nat → Int
  | left :: lefts, right :: rights =>
    let leftCharacter := ntfsUpcase context left
    let rightCharacter := ntfsUpcase context right
    if leftCharacter < rightCharacter then -1
    else if leftCharacter > rightCharacter then 1
    else ntfsCompareNames context lefts rights
  | [], _ :: _ => -1
  | _ :: _, [] => 1
  | [], [] => 0

/-- The characters by which a name is placed. -/
def collated (context : NtfsContext) (name : List Nat) : List Nat := name.map (ntfsUpcase context)

theorem ntfsCompareNames_neg_iff {left right : List Nat} :
    ntfsCompareNames context left right < 0 ↔ collated context left < collated context right := by
  induction left generalizing right with
  | nil =>
    cases right with
    | nil => simp [ntfsCompareNames, collated]
    | cons right rights => simp [ntfsCompareNames, collated]
  | cons left lefts ih =>
    cases right with
    | nil => simp [ntfsCompareNames, collated]
    | cons right rights =>
      simp only [ntfsCompareNames, collated, List.map_cons, List.cons_lt_cons_iff]
      rcases Nat.lt_trichotomy (ntfsUpcase context left) (ntfsUpcase context right) with
        below | same | above
      · simp [below]
      · have rest := @ih rights
        rw [collated, collated] at rest
        simp [same, rest]
      · simp [Nat.not_lt_of_gt above, above, (Nat.ne_of_lt above).symm]

/-- The name in a `$FILE_NAME` value. -/
def fileName (value : Memory) : List Nat :=
  (List.range (value 64).toNat).map fun i => wordAt value (66 + 2 * i) 2

/-! ### Index entries -/

def ntfsAlign8 (value : Nat) : Nat := (value + 7) / 8 * 8

theorem le_ntfsAlign8 (value : Nat) : value ≤ ntfsAlign8 value := by
  unfold ntfsAlign8
  omega

/-- What an entry of a directory index stands for: a file, and its `$FILE_NAME` value. -/
structure IndexEntry where
  reference : Nat
  key : List UInt8
  deriving DecidableEq

namespace IndexEntry

def name (entry : IndexEntry) : List Nat := fileName (byteAt entry.key)

/-- The value holds the whole name. -/
def Named (entry : IndexEntry) : Prop := 66 + 2 * (byteAt entry.key 64).toNat ≤ entry.key.length

instance (entry : IndexEntry) : Decidable entry.Named := inferInstanceAs (Decidable (_ ≤ _))

end IndexEntry

/-- The key by which a directory index is sorted. -/
def placed (context : NtfsContext) (entry : IndexEntry) : List Nat := collated context entry.name

theorem header_positive : 0 < 16 := by decide

theorem wordAt_header {memory memory' : Memory} {position position' offset width : Nat}
    (fits : offset + width ≤ 16)
    (same : ∀ i < 16, memory' (position' + i) = memory (position + i)) :
    wordAt memory' (position' + offset) width = wordAt memory (position + offset) width := by
  simp only [wordAt, window]
  congr 1
  apply List.map_congr_left
  intro i member
  have below := List.mem_range.mp member
  have here := same (offset + i) (by omega)
  rwa [← Nat.add_assoc, ← Nat.add_assoc] at here

/-- How an index entry tells its length. -/
def entryFormat : Format where
  header := 16
  size memory position := wordAt memory (position + 8) 2
  header_pos := header_positive
  size_congr _ _ _ _ := wordAt_header (Nat.le_of_ble_eq_true rfl)

def entryFlags (memory : Memory) (position : Nat) : UInt8 := memory (position + 12)

/-- The last entry of a node, which has no key. -/
def isLast (memory : Memory) (position : Nat) : Bool := entryFlags memory position &&& 2 != 0

def keyLength (memory : Memory) (position : Nat) : Nat := wordAt memory (position + 10) 2

def entryAt (memory : Memory) (position : Nat) : IndexEntry :=
  ⟨wordAt memory position 8, window memory (position + 16) (keyLength memory position)⟩

@[simp] theorem entryAt_key_length (memory : Memory) (position : Nat) :
    (entryAt memory position).key.length = keyLength memory position := by simp [entryAt]

theorem entryAt_congr {memory memory' : Memory} {position position' : Nat}
    (same : ∀ i, i < 16 + keyLength memory position → memory' (position' + i) = memory (position + i)) :
    entryAt memory' position' = entryAt memory position := by
  have words : ∀ start width, start + width ≤ 16 + keyLength memory position →
      window memory' (position' + start) width = window memory (position + start) width := by
    intro start width inside
    apply List.map_congr_left
    intro i member
    have below := List.mem_range.mp member
    have here := same (start + i) (by omega)
    rwa [← Nat.add_assoc, ← Nat.add_assoc] at here
  have length : keyLength memory' position' = keyLength memory position := by
    rw [keyLength, wordAt, words 10 2 (by omega), keyLength, wordAt]
  have reference : wordAt memory' position' 8 = wordAt memory position 8 := by
    have here := words 0 8 (by omega)
    rw [Nat.add_zero, Nat.add_zero] at here
    rw [wordAt, here, wordAt]
  rw [entryAt, entryAt, length, reference, words 16 _ (Nat.le_refl _)]

theorem fileName_entryAt {memory : Memory} {position : Nat} (named : (entryAt memory position).Named) :
    fileName (rest memory (position + 16)) = (entryAt memory position).name := by
  have whole : 66 + 2 * (byteAt (entryAt memory position).key 64).toNat ≤ keyLength memory position := by
    rw [← entryAt_key_length]
    exact named
  have count : byteAt (entryAt memory position).key 64 = rest memory (position + 16) 64 :=
    byteAt_window (by omega)
  rw [IndexEntry.name, fileName, fileName, count]
  rw [count] at whole
  apply List.map_congr_left
  intro i member
  have below := List.mem_range.mp member
  rw [wordAt_rest, wordAt, wordAt, entryAt, window_byteAt_window (by omega)]

/-- `ntfs_index_copy_entry`: the buffer afterwards, and the length of the entry. -/
def ntfsIndexCopyEntry (memory : Memory) (destination capacity reference : Nat) (key : Memory)
    (keyLength : Nat) (flags : UInt8) (childVcn : Nat) : Option (Memory × Nat) :=
  let length := ntfsAlign8 (16 + keyLength + if flags &&& 1 != 0 then 8 else 0)
  if length > capacity || length > 0xFFFF then none
  else
    let memory := patch memory destination (List.replicate length 0)
    let memory := patch memory destination (digits 8 reference)
    let memory := patch memory (destination + 8) (digits 2 length)
    let memory := patch memory (destination + 10) (digits 2 keyLength)
    let memory := patch memory (destination + 12) [flags]
    let memory := patch memory (destination + 16) (window key 0 keyLength)
    let memory :=
      if flags &&& 1 != 0 then patch memory (destination + length - 8) (digits 8 childVcn) else memory
    some (memory, length)

def entryLength (keyLength : Nat) (flags : UInt8) : Nat :=
  ntfsAlign8 (16 + keyLength + if flags &&& 1 != 0 then 8 else 0)

/-- An entry of a length has been written over a part of the buffer. -/
structure Copied (memory memory' : Memory) (destination length : Nat) (entry : IndexEntry)
    (flags : UInt8) (childVcn : Nat) : Prop where
  entry : entryAt memory' destination = entry
  size : entryFormat.size memory' destination = length
  flagged : entryFlags memory' destination = flags
  child : flags &&& 1 != 0 → wordAt memory' (destination + length - 8) 8 = childVcn
  other : ∀ i, i < destination ∨ destination + length ≤ i → memory' i = memory i

theorem ntfsIndexCopyEntry_spec {memory memory' key : Memory}
    {destination capacity reference keyLength childVcn length : Nat} {flags : UInt8}
    (done : ntfsIndexCopyEntry memory destination capacity reference key keyLength flags childVcn =
      some (memory', length))
    (referenceSmall : reference < 2 ^ 64) (childSmall : childVcn < 2 ^ 64) :
    Copied memory memory' destination length ⟨reference, window key 0 keyLength⟩ flags childVcn ∧
      length = entryLength keyLength flags ∧ length ≤ capacity ∧ length ≤ 0xFFFF := by
  unfold ntfsIndexCopyEntry at done
  rw [show ntfsAlign8 (16 + keyLength + if flags &&& 1 != 0 then 8 else 0) =
    entryLength keyLength flags from rfl] at done
  have long : 16 + keyLength + (if flags &&& 1 != 0 then 8 else 0) ≤ entryLength keyLength flags :=
    le_ntfsAlign8 _
  simp only [Bool.or_eq_true, decide_eq_true_eq, gt_iff_lt] at done
  by_cases exceeds : capacity < entryLength keyLength flags ∨ 0xFFFF < entryLength keyLength flags
  · rw [if_pos exceeds] at done
    cases done
  rw [if_neg exceeds] at done
  rw [not_or, Nat.not_lt, Nat.not_lt] at exceeds
  obtain ⟨rfl, rfl⟩ := Prod.mk.inj (Option.some.inj done)
  have child : entryLength keyLength flags = 0 ∨ 8 ≤ entryLength keyLength flags := by
    unfold entryLength ntfsAlign8
    omega
  -- The sub-node pointer lies behind the key, where it hides nothing of what is read.
  generalize bareDef : patch (patch (patch (patch (patch (patch memory destination
    (List.replicate (entryLength keyLength flags) 0)) destination (digits 8 reference))
    (destination + 8) (digits 2 (entryLength keyLength flags))) (destination + 10)
    (digits 2 keyLength)) (destination + 12) [flags]) (destination + 16)
    (window key 0 keyLength) = bare
  have referenceField : wordAt bare destination 8 = reference := by
    subst bareDef
    simp (disch := simp only [digits_length, window_length, List.length_singleton]; omega) only
      [wordAt_patch_other, wordAt_patch]
    omega
  have sizeField : wordAt bare (destination + 8) 2 = entryLength keyLength flags := by
    subst bareDef
    simp (disch := simp only [digits_length, window_length, List.length_singleton]; omega) only
      [wordAt_patch_other, wordAt_patch]
    omega
  have lengthField : wordAt bare (destination + 10) 2 = keyLength := by
    subst bareDef
    simp (disch := simp only [digits_length, window_length, List.length_singleton]; omega) only
      [wordAt_patch_other, wordAt_patch]
    omega
  have flagsField : bare (destination + 12) = flags := by
    subst bareDef
    simp [patch, byteAt]
  have keyField : window bare (destination + 16) keyLength = window key 0 keyLength := by
    subst bareDef
    have whole := fun content => window_patch content (destination + 16) (window key 0 keyLength)
    simp only [window_length] at whole
    exact whole _
  have frame : ∀ i, i < destination ∨ destination + entryLength keyLength flags ≤ i →
      bare i = memory i := by
    subst bareDef
    intro i apart
    simp only [patch, digits_length, window_length, List.length_replicate, List.length_singleton]
    repeat rw [if_neg (by omega)]
  have entry : entryAt bare destination = ⟨reference, window key 0 keyLength⟩ := by
    rw [entryAt, Ntfs.keyLength, lengthField, referenceField, keyField]
  cases flag : flags &&& 1 != 0 with
  | false =>
    refine ⟨⟨entry, sizeField, flagsField, fun set => ?_, frame⟩, rfl, exceeds.1, exceeds.2⟩
    rw [flag] at set
    cases set
  | true =>
    rw [if_pos flag] at long
    refine ⟨⟨?_, ?_, ?_, fun _ => ?_, ?_⟩, rfl, exceeds.1, exceeds.2⟩
    · rw [← entry]
      apply entryAt_congr
      intro i inside
      rw [Ntfs.keyLength, lengthField] at inside
      rw [if_pos rfl, patch, if_neg (by rw [digits_length]; omega)]
    · rw [← sizeField, if_pos rfl]
      exact wordAt_patch_other (Or.inl (by omega))
    · rw [if_pos rfl, entryFlags, patch, if_neg (by rw [digits_length]; omega)]
      exact flagsField
    · rw [if_pos rfl, wordAt_patch]
      omega
    · intro i apart
      rw [if_pos rfl, patch, if_neg (by rw [digits_length]; omega)]
      exact frame i apart

/-! ### Moving bytes -/

/-- Move the bytes up, the last one first: `for (index = bytes; index > limit; index--)`. -/
def shiftBytes (newLength limit : Nat) (entries : Memory) : Nat → Memory
  | 0 => entries
  | index + 1 =>
    if index + 1 > limit then
      shiftBytes newLength limit (patch entries (index + newLength) [entries index]) index
    else entries

/-- A buffer in which the bytes from `limit` to `bytes` have been moved. -/
def moved (memory : Memory) (newLength limit bytes : Nat) : Memory := fun k =>
  if limit + newLength ≤ k ∧ k < bytes + newLength then memory (k - newLength) else memory k

theorem shiftBytes_eq (newLength limit bytes : Nat) (entries : Memory) :
    shiftBytes newLength limit entries bytes = moved entries newLength limit bytes := by
  induction bytes generalizing entries with
  | zero =>
    funext k
    rw [shiftBytes, moved, if_neg (by omega)]
  | succ index ih =>
    rw [shiftBytes]
    split
    · rename_i more
      rw [ih]
      funext k
      simp only [moved, patch, List.length_singleton]
      by_cases here : k = index + newLength
      · rw [if_neg (by omega), if_pos (by omega), if_pos (by omega), here, Nat.sub_self, Nat.add_sub_cancel]
        rfl
      · by_cases below : limit + newLength ≤ k ∧ k < index + newLength
        · rw [if_pos below, if_neg (by omega), if_pos (by omega)]
        · rw [if_neg below, if_neg (by omega), if_neg (by omega)]
    · funext k
      rw [moved, if_neg (by omega)]

/-! ### Update sequences -/

/-- Where the last two bytes of a sector of a record lie; the first sector has number 1. -/
def tailAt (sectorSize index : Nat) : Nat := index * sectorSize - 2

/-- The checks that `apply_fixup` and `protect_fixup` make. -/
def fixupValid (record : Memory) (recordSize sectorSize : Nat) : Bool :=
  !(recordSize < 8 || sectorSize < 512 || sectorSize > 4096 || recordSize % sectorSize != 0) &&
  !(wordAt record 4 2 < 8 || wordAt record 4 2 % 2 != 0 ||
    wordAt record 6 2 != recordSize / sectorSize + 1 ||
    wordAt record 4 2 + wordAt record 6 2 * 2 > recordSize)

/-- Put the saved ends of the sectors back. -/
def applyTails (sectorSize fixupOffset count : Nat) (record : Memory) : Memory :=
  (List.range count).foldl (fun record i =>
    patch record (tailAt sectorSize (i + 1))
      (digits 2 (wordAt record (fixupOffset + 2 * (i + 1)) 2))) record

def applyFixup (record : Memory) (recordSize sectorSize : Nat) : Option Memory :=
  if !fixupValid record recordSize sectorSize then none
  else
    let sectorCount := recordSize / sectorSize
    let fixupOffset := wordAt record 4 2
    let check := wordAt record fixupOffset 2
    if (List.range sectorCount).any fun i => wordAt record (tailAt sectorSize (i + 1)) 2 != check
    then none
    else some (applyTails sectorSize fixupOffset sectorCount record)

/-- Save the end of a sector, and mark it. -/
def protectTail (sectorSize fixupOffset sequence : Nat) (record : Memory) (i : Nat) : Memory :=
  let saved := wordAt record (tailAt sectorSize (i + 1)) 2
  let record := patch record (fixupOffset + 2 * (i + 1)) (digits 2 saved)
  patch record (tailAt sectorSize (i + 1)) (digits 2 sequence)

def protectFixup (record : Memory) (recordSize sectorSize : Nat) : Option Memory :=
  if !fixupValid record recordSize sectorSize then none
  else
    let sectorCount := recordSize / sectorSize
    let fixupOffset := wordAt record 4 2
    let sequence := (wordAt record fixupOffset 2 + 1) % 65536
    let sequence := if sequence = 0 then 1 else sequence
    let record := patch record fixupOffset (digits 2 sequence)
    some ((List.range sectorCount).foldl (protectTail sectorSize fixupOffset sequence) record)

/-- The update sequence array overlaps the end of no sector. -/
def ArrayApart (fixupOffset sectorSize sectorCount : Nat) : Prop :=
  ∀ index, 1 ≤ index → index ≤ sectorCount → tailAt sectorSize index + 2 ≤ fixupOffset ∨
      fixupOffset + 2 * (sectorCount + 1) ≤ tailAt sectorSize index

/-- Two bytes are as two bytes elsewhere. -/
def SameWord (memory memory' : Memory) (position position' : Nat) : Prop :=
  ∀ k < 2, memory' (position' + k) = memory (position + k)

theorem patch_wordAt (memory : Memory) (position position' : Nat) :
    SameWord memory (patch memory position' (digits 2 (wordAt memory position 2))) position position' := by
  have word : digits 2 (wordAt memory position 2) = window memory position 2 := by
    have whole := digits_value (window memory position 2)
    rwa [window_length] at whole
  intro k below
  rw [word, patch, window_length, if_pos (by omega), Nat.add_sub_cancel_left, byteAt_window below]

theorem tail_lt {sectorSize i j : Nat} (large : 512 ≤ sectorSize) (below : i < j) :
    tailAt sectorSize (i + 1) + 512 ≤ tailAt sectorSize (j + 1) := by
  have steps : (i + 1) * sectorSize + sectorSize ≤ (j + 1) * sectorSize := by
    rw [← Nat.succ_mul]
    exact Nat.mul_le_mul_right _ (by omega)
  have first : sectorSize ≤ (i + 1) * sectorSize := Nat.le_mul_of_pos_left _ (by omega)
  unfold tailAt
  omega

structure Guarded (sectorSize fixupOffset sequence count : Nat) (before after : Memory) : Prop where
  saved : ∀ i < count, SameWord before after (tailAt sectorSize (i + 1)) (fixupOffset + 2 * (i + 1))
  marked : ∀ i < count, wordAt after (tailAt sectorSize (i + 1)) 2 = sequence
  other : ∀ k, (k < fixupOffset + 2 ∨ fixupOffset + 2 * (count + 1) ≤ k) →
    (∀ i < count, k < tailAt sectorSize (i + 1) ∨ tailAt sectorSize (i + 1) + 2 ≤ k) → after k = before k

theorem protectTails_guarded {sectorSize fixupOffset sequence total count : Nat} (record : Memory)
    (large : 512 ≤ sectorSize) (apart : ArrayApart fixupOffset sectorSize total)
    (small : sequence < 65536) (within : count ≤ total) :
    Guarded sectorSize fixupOffset sequence count record
      ((List.range count).foldl (protectTail sectorSize fixupOffset sequence) record) := by
  induction count with
  | zero => exact ⟨nofun, nofun, fun _ _ _ => rfl⟩
  | succ count ih =>
    have before := ih (by omega)
    rw [List.range_succ, List.foldl_append, List.foldl_cons, List.foldl_nil]
    generalize (List.range count).foldl _ _ = after at before
    have here := apart (count + 1) (by omega) within
    -- The sector that is guarded now has its end where nothing was written before.
    have fresh : SameWord record after (tailAt sectorSize (count + 1)) (tailAt sectorSize (count + 1)) := by
      intro k below
      apply before.other
      · omega
      · intro i low
        have gap := tail_lt large low
        omega
    have tails : ∀ i < count, tailAt sectorSize (i + 1) + 512 ≤ tailAt sectorSize (count + 1) :=
      fun i low => tail_lt large low
    have elsewhere : ∀ k, (k < fixupOffset + 2 * (count + 1) ∨ fixupOffset + 2 * (count + 2) ≤ k) →
        (k < tailAt sectorSize (count + 1) ∨ tailAt sectorSize (count + 1) + 2 ≤ k) →
        protectTail sectorSize fixupOffset sequence after count k = after k := by
      intro k array tail
      simp only [protectTail, patch, digits_length]
      rw [if_neg (by omega), if_neg (by omega)]
    refine ⟨?_, ?_, ?_⟩
    · intro i low k below
      rcases Nat.lt_succ_iff_lt_or_eq.mp low with earlier | rfl
      · have old := apart (i + 1) (by omega) (by omega)
        rw [elsewhere _ (by omega) (by omega)]
        exact before.saved i earlier k below
      · have stored := patch_wordAt after (tailAt sectorSize (i + 1)) (fixupOffset + 2 * (i + 1)) k below
        simp only [protectTail]
        rw [patch, digits_length, if_neg (by omega), stored, fresh k below]
    · intro i low
      rcases Nat.lt_succ_iff_lt_or_eq.mp low with earlier | rfl
      · have gap := tails i earlier
        have old := apart (i + 1) (by omega) (by omega)
        refine Eq.trans (wordAt_congr ?_) (before.marked i earlier)
        intro k first last
        exact elsewhere k (by omega) (by omega)
      · rw [protectTail, wordAt_patch]
        exact Nat.mod_eq_of_lt small
    · intro k array tail
      have now := tail count (by omega)
      rw [elsewhere k (by omega) now]
      exact before.other k (by omega) fun i low => tail i (by omega)

theorem applyTails_spec {sectorSize fixupOffset total count : Nat} (record : Memory)
    (large : 512 ≤ sectorSize) (apart : ArrayApart fixupOffset sectorSize total)
    (within : count ≤ total) :
    (∀ i < count, SameWord record (applyTails sectorSize fixupOffset count record)
      (fixupOffset + 2 * (i + 1)) (tailAt sectorSize (i + 1))) ∧
    ∀ k, (∀ i < count, k < tailAt sectorSize (i + 1) ∨ tailAt sectorSize (i + 1) + 2 ≤ k) →
      applyTails sectorSize fixupOffset count record k = record k := by
  induction count with
  | zero => exact ⟨nofun, fun _ _ => rfl⟩
  | succ count ih =>
    have before := ih (by omega)
    have here := apart (count + 1) (by omega) within
    have tails : ∀ i < count, tailAt sectorSize (i + 1) + 512 ≤ tailAt sectorSize (count + 1) :=
      fun i low => tail_lt large low
    unfold applyTails at before ⊢
    rw [List.range_succ, List.foldl_append, List.foldl_cons, List.foldl_nil]
    generalize (List.range count).foldl _ _ = after at before
    refine ⟨?_, ?_⟩
    · intro i low k below
      rcases Nat.lt_succ_iff_lt_or_eq.mp low with earlier | rfl
      · have gap := tails i earlier
        rw [patch, digits_length, if_neg (by omega)]
        exact before.1 i earlier k below
      · rw [patch_wordAt after (fixupOffset + 2 * (i + 1)) (tailAt sectorSize (i + 1)) k below]
        apply before.2
        intro j low
        have old := apart (j + 1) (by omega) (by omega)
        omega
    · intro k tail
      have now := tail count (by omega)
      rw [patch, digits_length, if_neg (by omega)]
      exact before.2 k fun i low => tail i (by omega)

variable {recordSize sectorSize : Nat}

theorem fixupValid_iff {record : Memory} : fixupValid record recordSize sectorSize = true ↔
      (8 ≤ recordSize ∧ 512 ≤ sectorSize ∧ sectorSize ≤ 4096 ∧ recordSize % sectorSize = 0) ∧
      8 ≤ wordAt record 4 2 ∧ wordAt record 4 2 % 2 = 0 ∧
      wordAt record 6 2 = recordSize / sectorSize + 1 ∧
      wordAt record 4 2 + wordAt record 6 2 * 2 ≤ recordSize := by
  simp only [fixupValid, Bool.and_eq_true, Bool.not_eq_true', Bool.or_eq_false_iff,
    decide_eq_false_iff_not, bne_eq_false_iff_eq, Nat.not_lt, gt_iff_lt]
  tauto

theorem fixup_first {record : Memory}
    (valid : fixupValid record recordSize sectorSize = true) : wordAt record 4 2 + 2 ≤ recordSize := by
  obtain ⟨_, _, _, count, array⟩ := fixupValid_iff.mp valid
  rw [count] at array
  generalize recordSize / sectorSize = sectors at array
  omega

theorem fixup_inside {record : Memory}
    (valid : fixupValid record recordSize sectorSize = true) {i : Nat}
    (below : i < recordSize / sectorSize) :
    tailAt sectorSize (i + 1) + 2 ≤ recordSize ∧ wordAt record 4 2 + 2 * (i + 1) + 2 ≤ recordSize := by
  obtain ⟨⟨_, large, _, whole⟩, _, _, count, array⟩ := fixupValid_iff.mp valid
  have sectors : (i + 1) * sectorSize ≤ recordSize := by
    rw [← Nat.div_mul_cancel (Nat.dvd_of_mod_eq_zero whole)]
    exact Nat.mul_le_mul_right sectorSize below
  have first : 1 * sectorSize ≤ (i + 1) * sectorSize := Nat.mul_le_mul_right sectorSize (by omega)
  unfold tailAt
  omega

variable {record guarded : Memory}

theorem protectFixup_valid (done : protectFixup record recordSize sectorSize = some guarded) :
    fixupValid record recordSize sectorSize = true := by
  by_contra invalid
  rw [protectFixup, if_pos (by simpa using invalid)] at done
  cases done

theorem fixupValid_sizes {record : Memory}
    (valid : fixupValid record recordSize sectorSize = true) (small : recordSize ≤ 4096) :
    1 ≤ recordSize / sectorSize ∧ recordSize / sectorSize ≤ 8 ∧
      recordSize / sectorSize * sectorSize = recordSize ∧ 512 ≤ recordSize := by
  obtain ⟨⟨some, large, _, whole⟩, -⟩ := fixupValid_iff.mp valid
  have multiple := Nat.div_mul_cancel (Nat.dvd_of_mod_eq_zero whole)
  generalize recordSize / sectorSize = sectorCount at *
  have one : 1 ≤ sectorCount := by
    by_contra none
    rw [Nat.lt_one_iff.mp (Nat.not_le.mp none)] at multiple
    omega
  have low := Nat.mul_le_mul one large
  refine ⟨one, ?_, multiple, by omega⟩
  by_contra more
  have product := Nat.mul_le_mul (Nat.lt_of_not_le more) large
  omega

theorem arrayApart_first {fixupOffset sectorSize sectorCount : Nat} (large : 512 ≤ sectorSize)
    (inside : fixupOffset + 2 * (sectorCount + 1) ≤ 510) :
    ArrayApart fixupOffset sectorSize sectorCount := by
  intro index low high
  have tail := Nat.mul_le_mul low large
  unfold tailAt
  omega

def sequenceNumber (record : Memory) : Nat := wordAt record (wordAt record 4 2) 2

def nextSequence (number : Nat) : Nat := if (number + 1) % 65536 = 0 then 1 else (number + 1) % 65536

theorem nextSequence_lt (number : Nat) : nextSequence number < 65536 := by
  unfold nextSequence
  split <;> omega

theorem protectFixup_guarded (done : protectFixup record recordSize sectorSize = some guarded)
    (apart : ArrayApart (wordAt record 4 2) sectorSize (recordSize / sectorSize)) :
    Guarded sectorSize (wordAt record 4 2) (nextSequence (sequenceNumber record)) (recordSize / sectorSize)
      (patch record (wordAt record 4 2) (digits 2 (nextSequence (sequenceNumber record)))) guarded := by
  have valid := protectFixup_valid done
  rw [protectFixup, if_neg (by simpa using valid)] at done
  cases done
  exact protectTails_guarded _ (fixupValid_iff.mp valid).1.2.1 apart (nextSequence_lt (sequenceNumber record))
    (Nat.le_refl _)

theorem protectFixup_number (done : protectFixup record recordSize sectorSize = some guarded)
    (apart : ArrayApart (wordAt record 4 2) sectorSize (recordSize / sectorSize)) :
    (∀ i < 8, guarded i = record i) ∧
      wordAt guarded (wordAt record 4 2) 2 = nextSequence (sequenceNumber record) := by
  have steps := protectFixup_guarded done apart
  obtain ⟨⟨_, large, _, _⟩, low, _⟩ := fixupValid_iff.mp (protectFixup_valid done)
  have lowTail : ∀ i, 510 ≤ tailAt sectorSize (i + 1) := by
    intro i
    have first : sectorSize ≤ (i + 1) * sectorSize := Nat.le_mul_of_pos_left _ (by omega)
    unfold tailAt
    omega
  constructor
  · intro i below
    rw [steps.other i (by omega) fun j _ => Or.inl (by have := lowTail j; omega), patch, digits_length,
      if_neg (by omega)]
  · have stored := (wordAt_patch record (wordAt record 4 2) 2 (nextSequence (sequenceNumber record))).trans
      (Nat.mod_eq_of_lt (nextSequence_lt _))
    refine Eq.trans ?_ stored
    apply wordAt_congr
    intro i first last
    apply steps.other i (by omega)
    intro j inside
    have away := apart (j + 1) (by omega) (by omega)
    omega

/-- A record that was guarded is read back, except for the update sequence array. -/
theorem applyFixup_protectFixup {record guarded memory : Memory}
    (done : protectFixup record recordSize sectorSize = some guarded)
    (apart : ArrayApart (wordAt record 4 2) sectorSize (recordSize / sectorSize))
    (same : ∀ i < recordSize, memory i = guarded i) :
    ∃ plain, applyFixup memory recordSize sectorSize = some plain ∧ ∀ i < recordSize,
        (i < wordAt record 4 2 ∨ wordAt record 4 2 + 2 * (recordSize / sectorSize + 1) ≤ i) →
          plain i = record i := by
  have valid := protectFixup_valid done
  have steps := protectFixup_guarded done apart
  obtain ⟨kept, number⟩ := protectFixup_number done apart
  obtain ⟨⟨_, large, _, whole⟩, low, even, count, room⟩ := fixupValid_iff.mp valid
  generalize fixupDef : wordAt record 4 2 = fixupOffset at *
  generalize countDef : recordSize / sectorSize = sectorCount at *
  generalize nextSequence (sequenceNumber record) = sequence at *
  have size : sectorCount * sectorSize = recordSize := by
    rw [← countDef]
    exact Nat.div_mul_cancel (Nat.dvd_of_mod_eq_zero whole)
  have highTail : ∀ i < sectorCount, tailAt sectorSize (i + 1) + 2 ≤ recordSize := by
    intro i below
    have last : (i + 1) * sectorSize ≤ sectorCount * sectorSize := Nat.mul_le_mul_right _ (by omega)
    have first : sectorSize ≤ (i + 1) * sectorSize := Nat.le_mul_of_pos_left _ (by omega)
    unfold tailAt
    omega
  -- The bytes before the array that matter are those of the record.
  have frame : ∀ i < recordSize, (i < fixupOffset ∨ fixupOffset + 2 * (sectorCount + 1) ≤ i) →
      (∀ j < sectorCount, i < tailAt sectorSize (j + 1) ∨ tailAt sectorSize (j + 1) + 2 ≤ i) →
        memory i = record i := by
    intro i below array tails
    rw [same i below, steps.other i (by omega) tails, patch, digits_length, if_neg (by omega)]
  have head : ∀ i < 8, memory i = record i := fun i below => (same i (by omega)).trans (kept i below)
  have fixup : wordAt memory 4 2 = fixupOffset := by
    rw [← fixupDef]
    exact wordAt_congr fun i _ below => head i (by omega)
  have sectors : wordAt memory 6 2 = sectorCount + 1 := by
    rw [← count]
    exact wordAt_congr fun i _ below => head i (by omega)
  have check : wordAt memory fixupOffset 2 = sequence := by
    rw [← number]
    exact wordAt_congr fun i _ below => same i (by omega)
  have restored := applyTails_spec memory large apart (Nat.le_refl sectorCount)
  refine ⟨applyTails sectorSize fixupOffset sectorCount memory, ?_, ?_⟩
  · have valid' : fixupValid memory recordSize sectorSize = true := by
      refine fixupValid_iff.mpr ⟨⟨by omega, large, by omega, whole⟩, ?_⟩
      rw [fixup, sectors, countDef]
      omega
    rw [applyFixup, if_neg (by simpa using valid')]
    simp only
    rw [fixup, countDef, check, if_neg]
    rw [List.any_eq_true]
    rintro ⟨i, member, differs⟩
    have below := List.mem_range.mp member
    have inside := highTail i below
    have marked : wordAt memory (tailAt sectorSize (i + 1)) 2 = sequence := by
      rw [← steps.marked i below]
      exact wordAt_congr fun k _ last => same k (by omega)
    rw [marked] at differs
    simp at differs
  · intro i below array
    by_cases tail : ∃ j < sectorCount, tailAt sectorSize (j + 1) ≤ i ∧ i < tailAt sectorSize (j + 1) + 2
    · obtain ⟨j, low, first, last⟩ := tail
      obtain ⟨k, rfl⟩ := Nat.exists_eq_add_of_le first
      rw [restored.1 j low k (by omega), same _ (by omega), steps.saved j low k (by omega), patch,
        digits_length, if_neg (by omega)]
    · have tails : ∀ j < sectorCount,
          i < tailAt sectorSize (j + 1) ∨ tailAt sectorSize (j + 1) + 2 ≤ i := by
        intro j low
        by_contra inside
        exact tail ⟨j, low, by omega, by omega⟩
      rw [restored.2 i tails, frame i below array tails]

end AsasOs.Ntfs
