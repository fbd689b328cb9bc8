import Mathlib.Data.List.Sort
import Mathlib.Order.Basic

/-!
# Insertion into sorted lists

Lists whose elements grow strictly by a key. What it means that a list is another one
with an element inserted does not say where; there is one such list.
-/
namespace Sorted

variable {α β : Type} [LinearOrder β] {key : α → β} {new : α} {old result result' : List α}

def Growing (key : α → β) (xs : List α) : Prop := xs.Pairwise fun a b => key a < key b

/-- The element is inserted, and nothing else is changed. -/
structure Insertion (key : α → β) (new : α) (old result : List α) : Prop where
  same : result.Perm (new :: old)
  growing : Growing key result

def Fresh (key : α → β) (new : α) (old : List α) : Prop := ∀ a ∈ old, key a ≠ key new

/-- Whether an element has a greater key. -/
def above (key : α → β) (new a : α) : Bool := decide (key new < key a)

theorem above_iff {a : α} : above key new a = true ↔ key new < key a := decide_eq_true_iff

def place (key : α → β) (new : α) (old : List α) : Nat := old.findIdx (above key new)

theorem place_le : place key new old ≤ old.length := List.findIdx_le_length

theorem place_lt_iff : place key new old < old.length ↔ ∃ a ∈ old, key new < key a := by
  unfold place
  rw [List.findIdx_lt_length]
  simp only [above_iff]

theorem before_place (fresh : Fresh key new old) {a : α} (member : a ∈ old.take (place key new old)) :
    key a < key new := by
  obtain ⟨i, below, rfl⟩ := List.mem_iff_getElem.mp member
  rw [List.length_take] at below
  rw [List.getElem_take]
  have notAbove := List.not_of_lt_findIdx (show i < place key new old by omega)
  rw [above, decide_eq_false_iff_not] at notAbove
  exact lt_of_le_of_ne (not_lt.mp notAbove) (fresh _ (List.getElem_mem _))

theorem behind_place (growing : Growing key old) {a : α} (member : a ∈ old.drop (place key new old)) :
    key new < key a := by
  have some : place key new old < old.length := by
    by_contra none
    rw [List.drop_eq_nil_of_le (by omega)] at member
    cases member
  have first : key new < key old[place key new old] :=
    above_iff.mp (List.findIdx_getElem (w := some))
  rw [List.drop_eq_getElem_cons some] at member
  rcases List.mem_cons.mp member with rfl | later
  · exact first
  · have rest := List.Pairwise.drop (i := place key new old) growing
    rw [List.drop_eq_getElem_cons some, List.pairwise_cons] at rest
    exact first.trans (rest.1 a later)

theorem insertion_place (growing : Growing key old) (fresh : Fresh key new old) :
    Insertion key new old (old.take (place key new old) ++ new :: old.drop (place key new old)) := by
  constructor
  · calc (old.take (place key new old) ++ new :: old.drop (place key new old)).Perm
          (new :: (old.take (place key new old) ++ old.drop (place key new old))) := List.perm_middle
      _ = (new :: old) := by rw [List.take_append_drop]
  · refine List.pairwise_append.mpr ⟨growing.take, ?_, ?_⟩
    · exact List.pairwise_cons.mpr ⟨fun a member => behind_place growing member, growing.drop⟩
    · intro a before b after
      have low := before_place fresh before
      rcases List.mem_cons.mp after with rfl | later
      · exact low
      · exact low.trans (behind_place growing later)

theorem Insertion.unique (first : Insertion key new old result)
    (second : Insertion key new old result') :
    result = result' := by
  have one : result.Pairwise fun a b => key a < key b := first.growing
  have other : result'.Pairwise fun a b => key a < key b := second.growing
  refine List.Perm.eq_of_pairwise (fun a b _ _ below above => ?_) one other
    (first.same.trans second.same.symm)
  exact absurd below above.not_gt

end Sorted
