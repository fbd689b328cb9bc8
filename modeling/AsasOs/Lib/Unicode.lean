import Mathlib.Data.List.Basic
import Mathlib.Algebra.Group.Nat.Defs

/-!
# Characters in UTF-8 and UTF-16

A character is encoded in UTF-8 by one to four bytes and in UTF-16 by one unit, or two
from `2 ^ 16` on. UTF-8 synchronises itself: where the bytes of a character occur in an
encoded text, the character occurs there.
-/
namespace Unicode

def utf16EncodeChar (c : Char) : List Nat :=
  if c.toNat < 2 ^ 16 then [c.toNat]
  else [0xD800 + (c.toNat - 2 ^ 16) / 2 ^ 10, 0xDC00 + (c.toNat - 2 ^ 16) % 2 ^ 10]

def utf8 (text : List Char) : List UInt8 := text.flatMap String.utf8EncodeChar

def utf16 (text : List Char) : List Nat := text.flatMap utf16EncodeChar

variable {c d : Char} {text rest : List Char}

@[simp] theorem utf8_nil : utf8 [] = [] := rfl

@[simp] theorem utf8_cons : utf8 (c :: text) = String.utf8EncodeChar c ++ utf8 text := rfl

@[simp] theorem utf8_append : utf8 (text ++ rest) = utf8 text ++ utf8 rest := List.flatMap_append

@[simp] theorem utf16_nil : utf16 [] = [] := rfl

@[simp] theorem utf16_cons : utf16 (c :: text) = utf16EncodeChar c ++ utf16 text := rfl

@[simp] theorem utf16_append : utf16 (text ++ rest) = utf16 text ++ utf16 rest :=
  List.flatMap_append

theorem scalar (c : Char) : c.toNat < 0xD800 ∨ 0xDFFF < c.toNat ∧ c.toNat < 0x110000 := c.valid

theorem exists_char (cp : Nat) (valid : cp < 0xD800 ∨ 0xDFFF < cp ∧ cp < 0x110000) :
    ∃ c : Char, c.toNat = cp := by
  refine ⟨Char.ofNat cp, ?_⟩
  rw [Char.ofNat, dif_pos valid]
  rfl

/-! ### Lengths -/

theorem utf16EncodeChar_length (c : Char) : (utf16EncodeChar c).length ≤ c.utf8Size := by
  have value : c.val.toNat = c.toNat := rfl
  unfold utf16EncodeChar Char.utf8Size
  simp only [UInt32.le_iff_toNat_le, value]
  split
  · have positive := c.utf8Size_pos
    simp only [List.length_singleton]
    split_ifs <;> omega
  · -- a pair of surrogates stands for four bytes
    rename_i large
    simp only [List.length_cons, List.length_nil, UInt32.toNat_ofNatLT]
    split_ifs <;> omega

theorem utf16_length_le (text : List Char) : (utf16 text).length ≤ (utf8 text).length := by
  induction text with
  | nil => simp
  | cons c rest ih =>
    have here := utf16EncodeChar_length c
    simp only [utf16_cons, utf8_cons, List.length_append, String.length_utf8EncodeChar]
    omega

example : (utf16 [Char.ofNat 0x1F600], utf8 [Char.ofNat 0x1F600]) = ([0xD83D, 0xDE00], [0xF0, 0x9F, 0x98, 0x80]) := by
  decide +kernel

theorem utf16_unit_lt {unit : Nat} (member : unit ∈ utf16 text) : unit < 2 ^ 16 := by
  obtain ⟨c, -, inside⟩ := List.mem_flatMap.mp member
  have valid := scalar c
  unfold utf16EncodeChar at inside
  split at inside <;> simp at inside <;> omega

/-! ### Synchronisation -/

theorem encode_starts {left right : List UInt8}
    (same : String.utf8EncodeChar c ++ left = String.utf8EncodeChar d ++ right) : c = d := by
  have decoded := congrArg (fun bytes => bytes.toByteArray.utf8DecodeChar? 0) same
  simp only [List.toByteArray_append, ByteArray.utf8DecodeChar?_utf8EncodeChar_append] at decoded
  exact Option.some.inj decoded

theorem mem_of_bytes_occur (inside : String.utf8EncodeChar c <:+: utf8 text) : c ∈ text := by
  induction text with
  | nil =>
    simp only [utf8_nil, List.infix_nil] at inside
    exact absurd inside String.utf8EncodeChar_ne_nil
  | cons d rest ih =>
    obtain ⟨before, behind, whole⟩ := inside
    rw [utf8_cons, List.append_assoc] at whole
    obtain ⟨skipped, cut, left⟩ | ⟨later, cut, left⟩ := List.append_eq_append_iff.mp whole
    · cases before with
      | nil => exact List.mem_cons.mpr (.inl (encode_starts whole))
      | cons byte before =>
        -- the encoding of `c` would begin inside that of `d`
        cases skipped with
        | nil =>
          refine List.mem_cons_of_mem _ (ih ⟨[], behind, ?_⟩)
          rw [List.nil_append, left, List.nil_append]
        | cons first skipped =>
          exfalso
          have bound : before.length + 1 < (String.utf8EncodeChar d).length := by
            rw [cut]
            simp
          have starts : (String.utf8EncodeChar d)[before.length + 1].IsUTF8FirstByte := by
            have head : 0 < (String.utf8EncodeChar c).length :=
              List.length_pos_of_ne_nil String.utf8EncodeChar_ne_nil
            have same : (String.utf8EncodeChar d)[before.length + 1] = (String.utf8EncodeChar c)[0] := by
              apply Option.some.inj
              rw [← List.getElem?_eq_getElem, ← List.getElem?_eq_getElem, cut]
              have first' := congrArg (·[0]?) left
              simp only [List.cons_append, List.getElem?_cons_zero,
                List.getElem?_append_left head] at first'
              rw [first', List.cons_append, List.getElem?_cons_succ, List.getElem?_append_right (by simp)]
              simp
            rw [same]
            exact UInt8.isUTF8FirstByte_getElem_zero_utf8EncodeChar
          rw [UInt8.isUTF8FirstByte_getElem_utf8EncodeChar] at starts
          omega
    · exact List.mem_cons_of_mem _ (ih ⟨later, behind, by rw [left, List.append_assoc]⟩)

end Unicode
