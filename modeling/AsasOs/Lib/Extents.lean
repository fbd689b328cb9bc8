import Mathlib.Algebra.GroupWithZero.Nat
import Mathlib.Data.List.Basic

/-!
# Scattered streams

A stream lies in pieces, each of which says where its elements are. What is at a position
of the stream is found by walking over the pieces. A stream is fetched from the front,
and what is fetched ends where enough has been fetched or where nothing can be. Where
elements are put in their places, the last one stays where several have the same.
-/
namespace Extents

variable {α β : Type}

/-- A piece of a stream: how long it is, and where each of its elements is. -/
structure Piece (α : Type) where
  length : Nat
  place : Nat → α

/-- Where the element at a position of a stream is. -/
def locate : List (Piece α) → Nat → Option α
  | [], _ => none
  | piece :: pieces, position =>
    if position < piece.length then some (piece.place position) else locate pieces (position - piece.length)

variable {piece : Piece α} {pieces more : List (Piece α)} {position : Nat}

theorem locate_here (inside : position < piece.length) :
    locate (piece :: pieces) position = some (piece.place position) := by
  rw [locate, if_pos inside]

theorem locate_later (position : Nat) :
    locate (piece :: pieces) (piece.length + position) = locate pieces position := by
  rw [locate, if_neg (by omega), Nat.add_sub_cancel_left]

/-- Behind some pieces a stream goes on with the others. -/
theorem locate_append (position : Nat) :
    locate (pieces ++ more) ((pieces.map Piece.length).sum + position) = locate more position := by
  induction pieces with
  | nil => rw [List.nil_append, List.map_nil, List.sum_nil, Nat.zero_add]
  | cons piece pieces ih =>
    rw [List.cons_append, List.map_cons, List.sum_cons, Nat.add_assoc, locate_later, ih]

/-- What is fetched of `count` elements: those up to the first that cannot be fetched. -/
structure Fetched (element : Nat → Option β) (count : Nat) (fetched : List β) : Prop where
  few : fetched.length ≤ count
  right : ∀ i (h : i < fetched.length), element i = some fetched[i]
  stops : fetched.length = count ∨ element fetched.length = none

section Fetched

variable {element : Nat → Option β} {count : Nat} {fetched later : List β}

theorem Fetched.nil (stops : count = 0 ∨ element 0 = none) : Fetched element count [] :=
  ⟨Nat.zero_le _, nofun, stops.imp_left Eq.symm⟩

theorem Fetched.congr {element' : Nat → Option β} (fetch : Fetched element count fetched)
    (same : ∀ i < count, element' i = element i) : Fetched element' count fetched := by
  refine ⟨fetch.few, fun i inside => ?_, ?_⟩
  · rw [same i (Nat.lt_of_lt_of_le inside fetch.few)]
    exact fetch.right i inside
  · rcases Nat.lt_or_eq_of_le fetch.few with short | full
    · rw [same _ short]
      exact fetch.stops
    · exact Or.inl full

theorem Fetched.append (first : Fetched element fetched.length fetched)
    (rest : Fetched (fun i => element (fetched.length + i)) count later) :
    Fetched element (fetched.length + count) (fetched ++ later) := by
  refine ⟨?_, fun i inside => ?_, ?_⟩
  · rw [List.length_append]
    exact Nat.add_le_add_left rest.few _
  · rw [List.length_append] at inside
    by_cases front : i < fetched.length
    · rw [List.getElem_append_left front]
      exact first.right i front
    · rw [List.getElem_append_right (Nat.not_lt.mp front), ← rest.right (i - fetched.length) (by omega)]
      congr 1
      omega
  · rw [List.length_append]
    exact rest.stops.imp_left (congrArg _)

theorem Fetched.short (fetch : Fetched element count fetched) (short : fetched.length < count)
    {more : Nat}
    (enough : count ≤ more) : Fetched element more fetched :=
  ⟨Nat.le_trans fetch.few enough, fetch.right, Or.inr (fetch.stops.resolve_left (Nat.ne_of_lt short))⟩

theorem Fetched.lt_length_iff (fetch : Fetched element count fetched) {i : Nat} :
    i < fetched.length ↔ i < count ∧ ∀ j ≤ i, (element j).isSome := by
  constructor
  · intro inside
    refine ⟨Nat.lt_of_lt_of_le inside fetch.few, fun j below => ?_⟩
    rw [fetch.right j (by omega)]
    rfl
  · rintro ⟨inside, elements⟩
    by_contra beyond
    rcases fetch.stops with full | none
    · omega
    · have here := elements fetched.length (by omega)
      rw [none] at here
      cases here

end Fetched

section Landed

variable {place : Nat → Option α} {source : Nat → β} {first middle last : Nat} {content content' content'' : α → β}

/-- Nothing is changed but in the places of some elements. -/
def Kept (place : Nat → Option α) (first last : Nat) (content content' : α → β) : Prop :=
  ∀ a, (∀ i, first ≤ i → i < last → place i ≠ some a) → content' a = content a

/-- Elements have been put in their places, and nothing else has changed. -/
structure Landed (place : Nat → Option α) (source : Nat → β) (first last : Nat) (content content' : α → β) :
    Prop where
  inside : ∀ i, first ≤ i → i < last → (place i).isSome
  placed : ∀ i a, first ≤ i → i < last → place i = some a → (∀ j, i < j → j < last → place j ≠ some a) →
    content' a = source i
  kept : Kept place first last content content'

theorem Kept.refl : Kept place first last content content := fun _ _ => rfl

theorem Kept.mono (kept : Kept place first middle content content') (more : middle ≤ last) :
    Kept place first last content content' :=
  fun a apart => kept a fun i low high => apart i low (by omega)

theorem Kept.trans (kept : Kept place first middle content content') (low : first ≤ middle)
    (kept' : Kept place middle last content' content'') (high : middle ≤ last) :
    Kept place first last content content'' :=
  fun a apart => (kept' a fun i after below => apart i (by omega) below).trans ((kept.mono high) a apart)

theorem Landed.refl : Landed place source first first content content :=
  ⟨fun _ low high => by omega, fun _ _ low high => by omega, .refl⟩

theorem Landed.trans (landed : Landed place source first middle content content') (low : first ≤ middle)
    (landed' : Landed place source middle last content' content'') (high : middle ≤ last) :
    Landed place source first last content content'' := by
  refine ⟨fun i after below => ?_, fun i a after below here later => ?_, landed.kept.trans low landed'.kept high⟩
  · by_cases early : i < middle
    · exact landed.inside i after early
    · exact landed'.inside i (by omega) below
  · by_cases early : i < middle
    · rw [landed'.kept a fun j behind below => later j (by omega) below]
      exact landed.placed i a after early here fun j behind below => later j behind (by omega)
    · exact landed'.placed i a (by omega) below here later

end Landed

end Extents
