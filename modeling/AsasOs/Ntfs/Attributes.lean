import AsasOs.Ntfs.Nodes

/-!
# NTFS: the resident attributes of a record

An MFT record holds its attributes one after another, each with its length. The index
code finds the index root and the bitmap of a directory among them, and makes room in
one of them or takes room away, which moves those behind it.

## Main results

- `ntfsResizeResidentAttribute_spec`: what is where when an attribute has another length.
-/
namespace AsasOs.Ntfs

open Bytes Packed

/-! ### Fields -/

def attrOffset (mft : Memory) : Nat := wordAt mft 20 2

def usedSize (mft : Memory) : Nat := wordAt mft 24 4

def recordAllocSize (mft : Memory) : Nat := wordAt mft 28 4

def attributeType (mft : Memory) (position : Nat) : Nat := wordAt mft position 4

def attributeLength (mft : Memory) (position : Nat) : Nat := wordAt mft (position + 4) 4

def nonResident (mft : Memory) (position : Nat) : Bool := mft (position + 8) != 0

def valueLength (mft : Memory) (position : Nat) : Nat := wordAt mft (position + 16) 4

def valueOffset (mft : Memory) (position : Nat) : Nat := wordAt mft (position + 20) 2

def ATTR_INDEX_ROOT : Nat := 0x90
def ATTR_BITMAP : Nat := 0xB0
def ATTR_END : Nat := 0xFFFFFFFF

def i30Name : List Nat := [0x24, 0x49, 0x33, 0x30]

/-- How an attribute tells its length. -/
def attributeFormat : Format where
  header := 16
  size memory position := wordAt memory (position + 4) 4
  header_pos := header_positive
  size_congr _ _ _ _ := wordAt_header (Nat.le_of_ble_eq_true rfl)

/-! ### Attributes -/

def residentValid (mft : Memory) (position : Nat) : Bool :=
  24 ≤ attributeLength mft position && valueOffset mft position ≤ attributeLength mft position &&
    valueLength mft position ≤ attributeLength mft position - valueOffset mft position

/-- There is an attribute at a position, within what the record uses. -/
abbrev AttributeAt (mft : Memory) (position : Nat) : Prop :=
  Fits attributeFormat mft (usedSize mft) position

section Bytes

variable {mft mft' : Memory} {position position' size : Nat}

theorem word_local {start width : Nat} (same : ∀ k < size, mft' (position' + k) = mft (position + k))
    (inside : start + width ≤ size) :
    wordAt mft' (position' + start) width = wordAt mft (position + start) width := by
  unfold wordAt window
  congr 1
  apply List.map_congr_left
  intro i member
  have below := List.mem_range.mp member
  rw [Nat.add_assoc, Nat.add_assoc]
  exact same (start + i) (by omega)

theorem attributeLength_local (same : ∀ k < size, mft' (position' + k) = mft (position + k))
    (inside : 8 ≤ size) : attributeLength mft' position' = attributeLength mft position :=
  word_local same inside

theorem attributeType_local (same : ∀ k < size, mft' (position' + k) = mft (position + k))
    (inside : 4 ≤ size) : attributeType mft' position' = attributeType mft position := by
  have word : wordAt mft' (position' + 0) 4 = wordAt mft (position + 0) 4 := word_local same (by omega)
  exact word

end Bytes

/-! ### Room in an attribute -/

/-- Move the bytes down, the first one first: `for (index = low; index < high; index++)`. -/
def dropBytes (memory : Memory) (shrink low high : Nat) : Memory :=
  (List.range' low (high - low)).foldl (fun memory index => patch memory (index - shrink) [memory index])
    memory

def ntfsResizeResidentAttribute (mft : Memory) (position : Nat) (delta : Int) : Option Memory :=
  let length := attributeLength mft position
  let used := usedSize mft
  let oldEnd := position + length
  if 0 < delta then
    let grow := delta.toNat % 2 ^ 32
    if grow > sub32 (recordAllocSize mft) used then none
    else
      let mft := shiftBytes grow oldEnd mft used
      let mft := patch mft oldEnd (List.replicate grow 0)
      let mft := patch mft (position + 4) (digits 4 (length + grow))
      some (patch mft 24 (digits 4 (used + grow)))
  else if delta < 0 then
    let shrink := (-delta).toNat % 2 ^ 32
    if shrink ≥ length || oldEnd > used then none
    else
      let mft := dropBytes mft shrink oldEnd used
      let mft := patch mft (used - shrink) (List.replicate shrink 0)
      let mft := patch mft (position + 4) (digits 4 (length - shrink))
      some (patch mft 24 (digits 4 (used - shrink)))
  else some mft

theorem dropBytes_eq {memory : Memory} {shrink low high : Nat} (some : 0 < shrink) (order : shrink ≤ low)
    (k : Nat) :
    dropBytes memory shrink low high k =
      if low - shrink ≤ k ∧ k < high - shrink then memory (k + shrink) else memory k := by
  unfold dropBytes
  generalize countDef : high - low = count
  induction count generalizing high k with
  | zero =>
    rw [List.range'_zero, List.foldl_nil, if_neg (by omega)]
  | succ count ih =>
    obtain ⟨last, rfl⟩ : ∃ last, high = last + 1 := ⟨high - 1, by omega⟩
    have before : ∀ k, (List.range' low count).foldl (fun memory index =>
        patch memory (index - shrink) [memory index]) memory k =
          if low - shrink ≤ k ∧ k < last - shrink then memory (k + shrink) else memory k :=
      fun k => ih k (by omega)
    rw [List.range'_concat, List.foldl_append, List.foldl_cons, List.foldl_nil, Nat.one_mul]
    generalize (List.range' low count).foldl _ memory = after at before
    have place : low + count = last := by omega
    rw [place, patch, List.length_singleton]
    by_cases here : k = last - shrink
    · rw [if_pos (by omega), if_pos (by omega), here, Nat.sub_self]
      change after last = _
      rw [before, if_neg (by omega), Nat.sub_add_cancel (by omega)]
    · rw [if_neg (by omega), before]
      by_cases inside : low - shrink ≤ k ∧ k < last - shrink
      · rw [if_pos inside, if_pos (by omega)]
      · rw [if_neg inside, if_neg (by omega)]

/-- An attribute has another length, and the attributes behind it have moved with its end. -/
structure Resized (mft mft' : Memory) (position newLength : Nat) : Prop where
  length : attributeLength mft' position = newLength
  used : usedSize mft' + attributeLength mft position = usedSize mft + newLength
  room : usedSize mft' ≤ recordAllocSize mft
  front : ∀ k < position, (k < 24 ∨ 28 ≤ k) → mft' k = mft k
  kept : ∀ k, k < attributeLength mft position → k < newLength → (k < 4 ∨ 8 ≤ k) →
    mft' (position + k) = mft (position + k)
  behind : ∀ k, position + attributeLength mft position + k < usedSize mft →
    mft' (position + newLength + k) = mft (position + attributeLength mft position + k)

theorem Resized.stored {mft body : Memory} {position newLength used : Nat}
    (low : 28 ≤ position) (large : 8 ≤ newLength) (header : 8 ≤ attributeLength mft position)
    (sum : used + attributeLength mft position = usedSize mft + newLength)
    (inside : position + newLength ≤ used) (room : used ≤ recordAllocSize mft)
    (kept : ∀ k, k < position + attributeLength mft position → k < position + newLength → body k = mft k)
    (behind : ∀ k, position + attributeLength mft position + k < usedSize mft →
      body (position + newLength + k) = mft (position + attributeLength mft position + k)) :
    Resized mft (patch (patch body (position + 4) (digits 4 newLength)) 24 (digits 4 used)) position
      newLength := by
  have small : recordAllocSize mft < 2 ^ 32 := wordAt_lt mft 28 4
  have other : ∀ k, (k < 24 ∨ 28 ≤ k) → (k < position + 4 ∨ position + 8 ≤ k) →
      patch (patch body (position + 4) (digits 4 newLength)) 24 (digits 4 used) k = body k := by
    intro k outside apart
    rw [patch, digits_length, if_neg (by omega), patch, digits_length, if_neg (by omega)]
  have total : usedSize (patch (patch body (position + 4) (digits 4 newLength)) 24 (digits 4 used)) = used := by
    rw [usedSize, wordAt_patch]
    exact Nat.mod_eq_of_lt (by omega)
  refine ⟨?_, ?_, ?_, ?_, ?_, ?_⟩
  · rw [attributeLength, wordAt_patch_other (Or.inr (by rw [digits_length]; omega)), wordAt_patch]
    exact Nat.mod_eq_of_lt (by omega)
  · rw [total, sum]
  · rw [total]
    exact room
  · intro k below outside
    rw [other k outside (by omega), kept k (by omega) (by omega)]
  · intro k below below' outside
    rw [other _ (by omega) (by omega), kept _ (by omega) (by omega)]
  · intro k below
    rw [other _ (by omega) (by omega), behind k below]

theorem ntfsResizeResidentAttribute_spec {mft mft' : Memory} {position newLength : Nat}
    (header : 8 ≤ attributeLength mft position)
    (inside : position + attributeLength mft position ≤ usedSize mft)
    (low : 28 ≤ position) (room : usedSize mft ≤ recordAllocSize mft) (large : 8 ≤ newLength)
    (bounded : newLength < 2 ^ 32)
    (done : ntfsResizeResidentAttribute mft position (newLength - attributeLength mft position) = some mft') :
    Resized mft mft' position newLength := by
  have old : attributeLength mft position < 2 ^ 32 := wordAt_lt mft (position + 4) 4
  have small : recordAllocSize mft < 2 ^ 32 := wordAt_lt mft 28 4
  unfold ntfsResizeResidentAttribute at done
  simp only at done
  rcases Nat.lt_trichotomy (attributeLength mft position) newLength with grows | same | shrinks
  · have delta : ((newLength : Int) - attributeLength mft position).toNat % 2 ^ 32 =
        newLength - attributeLength mft position := by omega
    rw [if_pos (by omega), sub32_eq room small, delta] at done
    split at done
    · cases done
    rename_i fit
    obtain rfl := Option.some.inj done
    rw [Nat.add_sub_cancel' grows.le]
    refine .stored low large (by omega) (by omega) (by omega) (by omega) ?_ ?_
    · intro k below _
      rw [patch, List.length_replicate, if_neg (by omega), shiftBytes_eq, moved, if_neg (by omega)]
    · intro k below
      rw [patch, List.length_replicate, if_neg (by omega), shiftBytes_eq, moved, if_pos (by omega)]
      congr 1
      omega
  · rw [if_neg (by omega), if_neg (by omega)] at done
    obtain rfl := Option.some.inj done
    exact ⟨same, by omega, room, fun _ _ _ => rfl, fun _ _ _ _ => rfl, fun _ _ => by rw [same]⟩
  · have delta : (-((newLength : Int) - attributeLength mft position)).toNat % 2 ^ 32 =
        attributeLength mft position - newLength := by omega
    rw [if_neg (by omega), if_pos (by omega), delta] at done
    split at done
    · cases done
    obtain rfl := Option.some.inj done
    rw [Nat.sub_sub_self shrinks.le]
    have dropped := @dropBytes_eq mft (attributeLength mft position - newLength)
      (position + attributeLength mft position) (usedSize mft) (by omega) (by omega)
    refine .stored low large (by omega) (by omega) (by omega) (by omega) ?_ ?_
    · intro k _ below
      rw [patch, List.length_replicate, if_neg (by omega), dropped, if_neg (by omega)]
    · intro k below
      rw [patch, List.length_replicate, if_neg (by omega), dropped, if_pos (by omega)]
      congr 1
      omega

end AsasOs.Ntfs
