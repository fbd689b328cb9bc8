import Mathlib.Data.List.Basic
import Mathlib.Tactic.Ring

/-!
# Byte strings with numeric fields

Reading and replacing parts of a byte string, and numbers stored in it with the
least or with the most significant byte first. A replacement stays inside the string wherever a
lemma needs it to; the lemmas say what is read from a part that was replaced, from
one that was not, and how replacements compose.
-/
namespace Bytes

variable {bytes data other : List UInt8} {offset size width : Nat}

/-- The `size` bytes at `offset`, or those that there are. -/
def slice (bytes : List UInt8) (offset size : Nat) : List UInt8 :=
  (bytes.drop offset).take size

/-- The string with `data` at `offset`. -/
def put (bytes : List UInt8) (offset : Nat) (data : List UInt8) : List UInt8 :=
  bytes.take offset ++ data ++ bytes.drop (offset + data.length)

/-- The number whose digits to base 256 are the bytes, the lowest first. -/
def value : List UInt8 → Nat
  | [] => 0
  | byte :: rest => byte.toNat + 256 * value rest

/-- The lowest `width` digits of a number. -/
def digits : Nat → Nat → List UInt8
  | 0, _ => []
  | width + 1, number => UInt8.ofNat number :: digits width (number / 256)

/-- The number in the `width` bytes at `offset`. -/
def getLE (bytes : List UInt8) (offset width : Nat) : Nat :=
  value (slice bytes offset width)

/-- The string with a number in the `width` bytes at `offset`. -/
def putLE (bytes : List UInt8) (offset width number : Nat) : List UInt8 :=
  put bytes offset (digits width number)

/-- The number in the `width` bytes at `offset`, the highest first. -/
def getBE (bytes : List UInt8) (offset width : Nat) : Nat :=
  value (slice bytes offset width).reverse

/-- The string with a number in the `width` bytes at `offset`, the highest first. -/
def putBE (bytes : List UInt8) (offset width number : Nat) : List UInt8 :=
  put bytes offset (digits width number).reverse

/-- The byte at `offset`, zero outside the string. -/
def byteAt (bytes : List UInt8) (offset : Nat) : UInt8 := bytes.getD offset 0

/-! ### Parts -/

theorem slice_getElem? (i : Nat) :
    (slice bytes offset size)[i]? = if i < size then bytes[offset + i]? else none := by
  simp only [slice, List.getElem?_take, List.getElem?_drop]

theorem slice_length (inside : offset + size ≤ bytes.length) :
    (slice bytes offset size).length = size := by
  simp only [slice, List.length_take, List.length_drop]
  omega

theorem put_getElem? (inside : offset ≤ bytes.length) (i : Nat) : (put bytes offset data)[i]? =
      if offset ≤ i ∧ i < offset + data.length then data[i - offset]? else bytes[i]? := by
  have front : (bytes.take offset).length = offset := by
    rw [List.length_take]
    omega
  unfold put
  rw [List.append_assoc, List.getElem?_append, front]
  split
  · rename_i before
    rw [if_neg (by omega), List.getElem?_take, if_pos before]
  · rename_i notBefore
    rw [List.getElem?_append]
    split
    · rw [if_pos (by omega)]
    · rename_i after
      rw [if_neg (by omega), List.getElem?_drop]
      congr 1
      omega

theorem byteAt_put (inside : offset ≤ bytes.length) (i : Nat) : byteAt (put bytes offset data) i =
      if offset ≤ i ∧ i < offset + data.length then byteAt data (i - offset)
      else byteAt bytes i := by
  simp only [byteAt, List.getD_eq_getElem?_getD, put_getElem? inside]
  split <;> rfl

@[simp] theorem put_length (inside : offset + data.length ≤ bytes.length) :
    (put bytes offset data).length = bytes.length := by
  simp only [put, List.length_append, List.length_take, List.length_drop]
  omega

theorem slice_put (inside : offset + data.length ≤ bytes.length) :
    slice (put bytes offset data) offset data.length = data := by
  apply List.ext_getElem?
  intro i
  rw [slice_getElem?, put_getElem? (by omega)]
  by_cases below : i < data.length
  · rw [if_pos below, if_pos (by omega)]
    congr 1
    omega
  · rw [if_neg below, List.getElem?_eq_none (by omega)]

theorem slice_put_other {start : Nat} (inside : offset ≤ bytes.length)
    (apart : start + size ≤ offset ∨ offset + data.length ≤ start) :
    slice (put bytes offset data) start size = slice bytes start size := by
  apply List.ext_getElem?
  intro i
  simp only [slice_getElem?]
  split
  · rw [put_getElem? inside, if_neg (by omega)]
  · rfl

theorem put_put (inside : offset + data.length ≤ bytes.length) (same : other.length = data.length) :
    put (put bytes offset data) offset other = put bytes offset other := by
  have kept := put_length inside
  apply List.ext_getElem?
  intro i
  rw [put_getElem? (by omega), put_getElem? (by omega), put_getElem? (by omega)]
  split
  · rfl
  · rw [if_neg (by omega)]

theorem put_slice (inside : offset + size ≤ bytes.length) :
    put bytes offset (slice bytes offset size) = bytes := by
  have length := slice_length inside
  apply List.ext_getElem?
  intro i
  rw [put_getElem? (by omega), length]
  split
  · rw [slice_getElem?, if_pos (by omega)]
    congr 1
    omega
  · rfl

theorem put_within {start : Nat} (inside : offset + data.length ≤ bytes.length)
    (within : start + other.length ≤ data.length) :
    put (put bytes offset data) (offset + start) other = put bytes offset (put data start other) := by
  have kept := put_length inside
  have keptInside := put_length within
  apply List.ext_getElem?
  intro i
  rw [put_getElem? (by omega), put_getElem? (by omega), put_getElem? (by omega), keptInside]
  by_cases here : offset ≤ i ∧ i < offset + data.length
  · rw [if_pos here, if_pos here, put_getElem? (by omega)]
    by_cases replaced : offset + start ≤ i ∧ i < offset + start + other.length
    · rw [if_pos replaced, if_pos (by omega)]
      congr 1
      omega
    · rw [if_neg replaced, if_neg (by omega)]
  · rw [if_neg here, if_neg here, if_neg (by omega)]

theorem slice_whole : slice bytes 0 bytes.length = bytes := by
  rw [slice, List.drop_zero, List.take_length]

theorem slice_slice {start width : Nat} (within : start + width ≤ size) :
    slice (slice bytes offset size) start width = slice bytes (offset + start) width := by
  apply List.ext_getElem?
  intro i
  simp only [slice_getElem?]
  split
  · rw [if_pos (by omega), Nat.add_assoc]
  · rfl

theorem put_take {limit : Nat} (inside : offset + data.length ≤ limit) (room : limit ≤ bytes.length) :
    put (bytes.take limit) offset data = (put bytes offset data).take limit := by
  have short : (bytes.take limit).length = limit := List.length_take_of_le room
  apply List.ext_getElem?
  intro i
  rw [put_getElem? (by omega), List.getElem?_take, List.getElem?_take, put_getElem? (by omega)]
  split
  · rw [if_pos (by omega)]
  · rfl

/-! ### Numbers -/

@[simp] theorem digits_length (width number : Nat) : (digits width number).length = width := by
  induction width generalizing number with
  | zero => rfl
  | succ width ih => simp [digits, ih]

theorem value_digits (width number : Nat) : value (digits width number) = number % 256 ^ width := by
  induction width generalizing number with
  | zero => simp [digits, value, Nat.mod_one]
  | succ width ih =>
    have byte : (UInt8.ofNat number).toNat = number % 256 := by simp
    rw [digits, value, ih, byte, Nat.pow_succ, Nat.mul_comm (256 ^ width) 256]
    exact Nat.mod_mul.symm

theorem value_lt (bytes : List UInt8) : value bytes < 256 ^ bytes.length := by
  induction bytes with
  | nil => simp [value]
  | cons byte rest ih =>
    have small := byte.toNat_lt
    simp only [value, List.length_cons, Nat.pow_succ]
    omega

theorem digits_value (bytes : List UInt8) : digits bytes.length (value bytes) = bytes := by
  induction bytes with
  | nil => rfl
  | cons byte rest ih =>
    have small := byte.toNat_lt
    have low : UInt8.ofNat (byte.toNat + 256 * value rest) = byte := by
      apply UInt8.toNat_inj.mp
      rw [UInt8.toNat_ofNat']
      omega
    have high : (byte.toNat + 256 * value rest) / 256 = value rest := by omega
    rw [List.length_cons, value, digits, low, high, ih]

theorem getLE_lt (inside : offset + width ≤ bytes.length) : getLE bytes offset width < 256 ^ width := by
  have bound := value_lt (slice bytes offset width)
  rwa [slice_length inside] at bound

theorem getLE_lt_pow (bytes : List UInt8) (offset width : Nat) :
    getLE bytes offset width < 256 ^ width := by
  refine lt_of_lt_of_le (value_lt _) (Nat.pow_le_pow_right (by decide) ?_)
  rw [slice, List.length_take]
  exact Nat.min_le_left _ _

theorem getLE_putLE (inside : offset + width ≤ bytes.length) (number : Nat) :
    getLE (putLE bytes offset width number) offset width = number % 256 ^ width := by
  have part : slice (put bytes offset (digits width number)) offset (digits width number).length =
      digits width number := slice_put (by simpa using inside)
  rw [digits_length] at part
  rw [getLE, putLE, part, value_digits]

@[simp] theorem putLE_length (inside : offset + width ≤ bytes.length) (number : Nat) :
    (putLE bytes offset width number).length = bytes.length :=
  put_length (by rwa [digits_length])

theorem slice_putLE_other {start number : Nat} (inside : offset + width ≤ bytes.length)
    (apart : start + size ≤ offset ∨ offset + width ≤ start) :
    slice (putLE bytes offset width number) start size = slice bytes start size :=
  slice_put_other (by omega) (by rwa [digits_length])

theorem putLE_putLE (inside : offset + width ≤ bytes.length) (first second : Nat) :
    putLE (putLE bytes offset width first) offset width second = putLE bytes offset width second :=
  put_put (by rwa [digits_length]) (by rw [digits_length, digits_length])

theorem getLE_put_other {start : Nat} (inside : offset ≤ bytes.length)
    (apart : start + width ≤ offset ∨ offset + data.length ≤ start) :
    getLE (put bytes offset data) start width = getLE bytes start width := by
  rw [getLE, slice_put_other inside apart, getLE]

theorem putBE_getBE (inside : offset + width ≤ bytes.length) :
    putBE bytes offset width (getBE bytes offset width) = bytes := by
  have whole := digits_value (slice bytes offset width).reverse
  rw [List.length_reverse, slice_length inside] at whole
  rw [putBE, getBE, whole, List.reverse_reverse, put_slice inside]

/-! ### Blocks -/

section Blocks

variable {blocks : List (List UInt8)}

theorem flatten_length (sized : ∀ block ∈ blocks, block.length = size) :
    blocks.flatten.length = blocks.length * size := by
  induction blocks with
  | nil => simp
  | cons block rest ih =>
    rw [List.flatten_cons, List.length_append, sized block List.mem_cons_self,
      ih fun other member => sized other (List.mem_cons_of_mem _ member), List.length_cons,
      Nat.succ_mul, Nat.add_comm]

theorem slice_flatten (sized : ∀ block ∈ blocks, block.length = size) {i : Nat}
    (below : i < blocks.length) : slice blocks.flatten (i * size) size = blocks[i] := by
  induction blocks generalizing i with
  | nil => simp at below
  | cons block rest ih =>
    have here := sized block List.mem_cons_self
    cases i with
    | zero =>
      rw [slice, Nat.zero_mul, List.drop_zero, List.flatten_cons, List.take_left' here]
      rfl
    | succ i =>
      have later := ih (fun other member => sized other (List.mem_cons_of_mem _ member))
        (Nat.lt_of_succ_lt_succ below)
      rw [slice, Nat.succ_mul, Nat.add_comm, List.flatten_cons, ← List.drop_drop, List.drop_left' here]
      exact later

theorem slice_append_left (inside : offset + size ≤ data.length) :
    slice (data ++ other) offset size = slice data offset size := by
  rw [slice, slice, List.drop_append_of_le_length (by omega), List.take_append_of_le_length]
  rw [List.length_drop]
  omega

theorem slice_append_right : slice (data ++ other) (data.length + offset) size =
    slice other offset size := by
  rw [slice, slice, ← List.drop_drop, List.drop_left]

theorem getLE_append_left (inside : offset + width ≤ data.length) :
    getLE (data ++ other) offset width = getLE data offset width := by
  rw [getLE, slice_append_left inside, getLE]

theorem getLE_append_right :
    getLE (data ++ other) (data.length + offset) width = getLE other offset width := by
  rw [getLE, slice_append_right, getLE]

theorem byteAt_append_left (inside : offset < data.length) :
    byteAt (data ++ other) offset = byteAt data offset := by
  rw [byteAt, byteAt, List.getD_eq_getElem?_getD, List.getD_eq_getElem?_getD,
    List.getElem?_append_left inside]

theorem byteAt_append_right : byteAt (data ++ other) (data.length + offset) = byteAt other offset := by
  rw [byteAt, byteAt, List.getD_eq_getElem?_getD, List.getD_eq_getElem?_getD,
    List.getElem?_append_right (Nat.le_add_right _ _), Nat.add_sub_cancel_left]

theorem put_append_left (inside : offset + data.length ≤ bytes.length) :
    put (bytes ++ other) offset data = put bytes offset data ++ other := by
  rw [put, put, List.take_append_of_le_length (by omega), List.drop_append_of_le_length (by omega),
    List.append_assoc, List.append_assoc, List.append_assoc]

end Blocks

/-! ### Contents

A content gives a byte at every offset. What is read from it is a window, and what is
written into it a patch. -/

/-- The `size` bytes of a content from `offset` on. -/
def window (content : Nat → UInt8) (offset size : Nat) : List UInt8 :=
  (List.range size).map fun i => content (offset + i)

/-- The content with `data` from `offset` on. -/
def patch (content : Nat → UInt8) (offset : Nat) (data : List UInt8) (i : Nat) : UInt8 :=
  if offset ≤ i ∧ i < offset + data.length then byteAt data (i - offset) else content i

section Contents

variable {content content' : Nat → UInt8}

@[simp] theorem window_length (content : Nat → UInt8) (offset size : Nat) :
    (window content offset size).length = size := by simp [window]

theorem window_getElem? (i : Nat) :
    (window content offset size)[i]? = if i < size then some (content (offset + i)) else none := by
  by_cases below : i < size
  · simp [window, below]
  · simp [window, below]

theorem byteAt_window {i : Nat} (below : i < size) :
    byteAt (window content offset size) i = content (offset + i) := by
  rw [byteAt, List.getD_eq_getElem?_getD, window_getElem?, if_pos below, Option.getD_some]

theorem window_congr (same : ∀ i, offset ≤ i → i < offset + size → content' i = content i) :
    window content' offset size = window content offset size := by
  apply List.map_congr_left
  intro i member
  have below := List.mem_range.mp member
  exact same (offset + i) (by omega) (by omega)

theorem slice_eq_window (inside : offset + size ≤ bytes.length) :
    slice bytes offset size = window (byteAt bytes) offset size := by
  apply List.ext_getElem?
  intro i
  rw [slice_getElem?, window_getElem?]
  split
  · rw [byteAt, List.getD_eq_getElem?_getD, List.getElem?_eq_getElem (by omega), Option.getD_some]
  · rfl

theorem window_add (content : Nat → UInt8) (offset first second : Nat) :
    window content offset (first + second) =
      window content offset first ++ window content (offset + first) second := by
  rw [window, List.range_add, List.map_append, List.map_map]
  simp only [window, Function.comp_def, Nat.add_assoc]

theorem slice_window {start : Nat} (inside : start + width ≤ size) :
    slice (window content offset size) start width = window content (offset + start) width := by
  apply List.ext_getElem?
  intro i
  rw [slice_getElem?, window_getElem?, window_getElem?]
  split
  · rw [if_pos (by omega), Nat.add_assoc]
  · rfl

theorem window_patch (content : Nat → UInt8) (offset : Nat) (data : List UInt8) :
    window (patch content offset data) offset data.length = data := by
  apply List.ext_getElem?
  intro i
  rw [window_getElem?]
  split
  · rename_i below
    rw [patch, if_pos (by omega), byteAt, List.getD_eq_getElem?_getD, Nat.add_sub_cancel_left,
      List.getElem?_eq_getElem below, Option.getD_some]
  · rw [List.getElem?_eq_none (by omega)]

theorem window_patch_other {start : Nat} (apart : start + size ≤ offset ∨ offset + data.length ≤ start) :
    window (patch content offset data) start size = window content start size := by
  apply window_congr
  intro i low high
  rw [patch, if_neg (by omega)]

theorem patch_patch (content : Nat → UInt8) (offset : Nat) (data : List UInt8) (count : Nat)
    (fits : count ≤ data.length) :
    patch (patch content offset (data.take count)) (offset + count) (data.drop count) =
      patch content offset data := by
  have taken : (data.take count).length = count := by simp [fits]
  funext i
  simp only [patch, taken, List.length_drop]
  by_cases late : offset + count ≤ i ∧ i < offset + count + (data.length - count)
  · rw [if_pos late, if_pos (by omega)]
    simp only [byteAt, List.getD_eq_getElem?_getD, List.getElem?_drop]
    congr 2
    omega
  · rw [if_neg late]
    by_cases early : offset ≤ i ∧ i < offset + count
    · rw [if_pos early, if_pos (by omega)]
      simp only [byteAt, List.getD_eq_getElem?_getD, List.getElem?_take]
      rw [if_pos (by omega)]
    · rw [if_neg early, if_neg (by omega)]

@[simp] theorem patch_nil (content : Nat → UInt8) (offset : Nat) :
    patch content offset [] = content := by
  funext i
  rw [patch, if_neg (by simp)]

theorem window_byteAt_window {start : Nat} (inside : start + width ≤ size) :
    window (byteAt (window content offset size)) start width =
    window content (offset + start) width := by
  rw [← slice_eq_window (by simpa using inside), slice_window inside]

/-- The number in the `width` bytes of a content at `offset`. -/
def wordAt (content : Nat → UInt8) (offset width : Nat) : Nat := value (window content offset width)

theorem wordAt_lt (content : Nat → UInt8) (offset width : Nat) :
    wordAt content offset width < 256 ^ width := by
  have bound := value_lt (window content offset width)
  rwa [window_length] at bound

theorem wordAt_congr (same : ∀ i, offset ≤ i → i < offset + width → content' i = content i) :
    wordAt content' offset width = wordAt content offset width := by
  rw [wordAt, window_congr same, wordAt]

theorem wordAt_patch (content : Nat → UInt8) (offset width number : Nat) :
    wordAt (patch content offset (digits width number)) offset width = number % 256 ^ width := by
  have part := window_patch content offset (digits width number)
  rw [digits_length] at part
  rw [wordAt, part, value_digits]

theorem wordAt_patch_other {start : Nat}
    (apart : start + width ≤ offset ∨ offset + data.length ≤ start) :
    wordAt (patch content offset data) start width = wordAt content start width := by
  rw [wordAt, window_patch_other apart, wordAt]

/-- The content from a position on, as a pointer to it shows it. -/
def rest (content : Nat → UInt8) (position : Nat) : Nat → UInt8 := fun i => content (position + i)

@[simp] theorem window_rest (content : Nat → UInt8) (position offset size : Nat) :
    window (rest content position) offset size = window content (position + offset) size := by
  simp only [window, rest, Nat.add_assoc]

@[simp] theorem wordAt_rest (content : Nat → UInt8) (position offset width : Nat) :
    wordAt (rest content position) offset width = wordAt content (position + offset) width := by
  rw [wordAt, window_rest, wordAt]

end Contents

end Bytes
