import Mathlib.Data.UInt
import Mathlib.Logic.Function.Basic

/-!
# Rings with counters that run freely

The producer and the consumer of a ring have counters of 16 bits, which wrap. A cell is at a counter modulo the size of
the ring, which is a power of two, so the cells from one counter up to another are a queue.
-/
namespace FreeRunning

variable {α : Type} {ring : Nat → α} {n : Nat} {first last : UInt16}

def cells (ring : Nat → α) (n : Nat) : UInt16 → Nat → List α
  | _, 0 => []
  | first, count + 1 => ring (first.toNat % n) :: cells ring n (first + 1) count

/-- The cells between two counters. -/
def pending (ring : Nat → α) (n : Nat) (first last : UInt16) :
    List α := cells ring n first (last - first).toNat

theorem cells_length (first : UInt16) (count : Nat) : (cells ring n first count).length = count := by
  induction count generalizing first with
  | zero => rfl
  | succ count ih => rw [cells, List.length_cons, ih]

@[simp] theorem pending_self (first : UInt16) : pending ring n first first = [] := by
  rw [pending, UInt16.sub_self]
  rfl

theorem distance_succ (some : first ≠ last) : (last - first).toNat = (last - (first + 1)).toNat + 1 := by
  have apart : first.toNat ≠ last.toNat := fun same => some (UInt16.toNat_inj.mp same)
  have one := first.toNat_lt
  have other := last.toNat_lt
  rw [UInt16.toNat_sub, UInt16.toNat_sub, UInt16.toNat_add]
  change _ = _ + 1
  have unit : (1 : UInt16).toNat = 1 := rfl
  rw [unit]
  omega

theorem pending_pop (some : first ≠ last) :
    pending ring n first last = ring (first.toNat % n) :: pending ring n (first + 1) last := by
  rw [pending, distance_succ some, cells]
  rfl

theorem slot_succ (divides : n ∣ 2 ^ 16) (first : UInt16) (k : Nat) :
    ((first + 1).toNat + k) % n = (first.toNat + (k + 1)) % n := by
  rw [UInt16.toNat_add, Nat.add_mod, Nat.mod_mod_of_dvd _ divides, ← Nat.add_mod]
  congr 1
  rw [Nat.add_assoc, Nat.add_comm k]
  rfl

theorem cells_push (divides : n ∣ 2 ^ 16) (value : α) {count : Nat} (room : count < n) :
    cells (Function.update ring ((first.toNat + count) % n) value) n first (count + 1) =
      cells ring n first count ++ [value] := by
  induction count generalizing first with
  | zero =>
    rw [cells, cells, Nat.add_zero, Function.update_self]
    rfl
  | succ count ih =>
    have other : first.toNat % n ≠ (first.toNat + (count + 1)) % n := by
      intro same
      have gap := (Nat.modEq_iff_dvd' (Nat.le_add_right _ _)).mp same
      rw [Nat.add_sub_cancel_left] at gap
      exact absurd (Nat.le_of_dvd (Nat.succ_pos _) gap) (Nat.not_le.mpr room)
    rw [cells, Function.update_of_ne other, ← slot_succ divides, ih (by omega)]
    rfl

theorem pending_push (divides : n ∣ 2 ^ 16) (small : n < 2 ^ 16) (value : α)
    (room : (pending ring n first last).length < n) :
    pending (Function.update ring (last.toNat % n) value) n first (last + 1) =
    pending ring n first last ++ [value] := by
  rw [pending, cells_length] at room
  have one := first.toNat_lt
  have other := last.toNat_lt
  have unit : (1 : UInt16).toNat = 1 := rfl
  have whole : (last + 1 - first).toNat = (last - first).toNat + 1 := by
    rw [UInt16.toNat_sub] at room ⊢
    rw [UInt16.toNat_sub, UInt16.toNat_add, unit]
    omega
  have slot : last.toNat % n = (first.toNat + (last - first).toNat) % n := by
    have sum : (first.toNat + (last - first).toNat) % 2 ^ 16 = last.toNat := by
      rw [UInt16.toNat_sub]
      omega
    rw [← sum, Nat.mod_mod_of_dvd _ divides]
  rw [pending, pending, whole, slot]
  exact cells_push divides value room

end FreeRunning
