import Mathlib.Data.List.Basic

/-!
# Back references

A compressed text repeats a part of what it has said already. The part may reach into its
own repetition: then the last `displacement` items go round as often as it takes.
-/
namespace Lz77

variable {α : Type} [Inhabited α]

/-- A text with its last `displacement` items repeated over `length` items. -/
def repeatTail (out : List α) (displacement length : Nat) : List α :=
  out ++ (List.range length).map fun i => out.getD (out.length - displacement + i % displacement) default

variable {out : List α} {displacement length : Nat}

@[simp] theorem repeatTail_length : (repeatTail out displacement length).length =
    out.length + length := by
  simp [repeatTail]

@[simp] theorem repeatTail_zero : repeatTail out displacement 0 = out := by
  simp [repeatTail]

theorem repeatTail_succ (some : 0 < displacement) (inside : displacement ≤ out.length) :
    repeatTail (out ++ [out.getD (out.length - displacement) default]) displacement length =
      repeatTail out displacement (length + 1) := by
  rw [repeatTail, repeatTail, List.append_assoc, List.range_succ_eq_map, List.map_cons, List.map_map]
  congr 1
  rw [Nat.zero_mod, Nat.add_zero, List.singleton_append]
  congr 1
  apply List.map_congr_left
  intro i _
  simp only [List.length_append, List.length_singleton, Function.comp_apply]
  have below := Nat.mod_lt i some
  have parts := Nat.div_add_mod i displacement
  rw [List.getD_eq_getElem?_getD, List.getD_eq_getElem?_getD, List.getD_eq_getElem?_getD]
  by_cases last : i % displacement + 1 = displacement
  · have round : (i + 1) % displacement = 0 := by
      have whole : i + 1 = displacement * (i / displacement + 1) := by
        rw [Nat.mul_succ]
        omega
      rw [whole, Nat.mul_mod_right]
    have place : out.length + 1 - displacement + i % displacement = out.length := by omega
    rw [round, place, List.getElem?_append_right (Nat.le_refl _), Nat.sub_self]
    rfl
  · have next : (i + 1) % displacement = i % displacement + 1 := by
      have whole : i + 1 = i % displacement + 1 + displacement * (i / displacement) := by omega
      rw [whole, Nat.add_mul_mod_self_left]
      exact Nat.mod_eq_of_lt (by omega)
    have place : out.length + 1 - displacement + i % displacement =
        out.length - displacement + (i % displacement + 1) := by omega
    rw [next, place, List.getElem?_append_left (by omega)]

end Lz77
