import Mathlib.Data.List.Nodup
import Mathlib.Data.List.Infix
import Mathlib.Data.Fintype.Card
import Mathlib.Data.Finset.Card
import Mathlib.Logic.Function.Basic

/-!
# Chains of cells

Cells that are linked to one another, as a link function gives them: nothing for a cell
whose link cannot be followed, an end, or the next cell. A chain is the list of the cells
from a first one to an end. A cell has at most one chain, no cell occurs twice in it, and
it depends on the links of its own cells only. So a chain survives what is done to other
cells, and grows when its last cell is linked to another chain.
-/
namespace Chains

variable {α : Type} {link link' : α → Option (Option α)} {a b : α} {cells other : List α}

/-- The cells from a first one along the links to an end. -/
inductive Chain (link : α → Option (Option α)) : α → List α → Prop
  | last {a : α} (ends : link a = some none) : Chain link a [a]
  | next {a b : α} {cells : List α} (linked : link a = some (some b)) (rest : Chain link b cells) :
      Chain link a (a :: cells)

namespace Chain

theorem head_mem (chain : Chain link a cells) : a ∈ cells := by
  cases chain <;> exact List.mem_cons_self

theorem ne_nil (chain : Chain link a cells) : cells ≠ [] := List.ne_nil_of_mem chain.head_mem

theorem unique (chain : Chain link a cells) (chain' : Chain link a other) : other = cells := by
  induction chain generalizing other with
  | last ends =>
    cases chain' with
    | last _ => rfl
    | next linked _ => rw [ends] at linked; cases linked
  | next linked _ ih =>
    cases chain' with
    | last ends => rw [linked] at ends; cases ends
    | next linked' rest' =>
      rw [linked] at linked'
      cases linked'
      rw [ih rest']

theorem linked_of_mem (chain : Chain link a cells) (member : b ∈ cells) : link b ≠ none := by
  induction chain with
  | last ends =>
    rw [List.mem_singleton.mp member, ends]
    exact Option.some_ne_none _
  | next linked _ ih =>
    rcases List.mem_cons.mp member with rfl | later
    · rw [linked]
      exact Option.some_ne_none _
    · exact ih later

theorem suffix_of_mem (chain : Chain link a cells) (member : b ∈ cells) :
    ∃ rest, Chain link b rest ∧ rest <:+ cells := by
  induction chain with
  | last ends =>
    rw [List.mem_singleton.mp member]
    exact ⟨_, .last ends, List.suffix_rfl⟩
  | next linked rest ih =>
    rcases List.mem_cons.mp member with rfl | later
    · exact ⟨_, .next linked rest, List.suffix_rfl⟩
    · obtain ⟨tail, chain, suffix⟩ := ih later
      exact ⟨tail, chain, suffix.trans (List.suffix_cons _ _)⟩

theorem nodup (chain : Chain link a cells) : cells.Nodup := by
  induction chain with
  | last => exact List.nodup_singleton _
  | next linked rest ih =>
    refine List.nodup_cons.mpr ⟨fun member => ?_, ih⟩
    -- a chain that came back would be longer than itself
    obtain ⟨tail, chain, suffix⟩ := rest.suffix_of_mem member
    have same := chain.unique (.next linked rest)
    have short := suffix.length_le
    rw [← same, List.length_cons] at short
    omega

theorem congr (chain : Chain link a cells) (same : ∀ cell ∈ cells, link' cell = link cell) :
    Chain link' a cells := by
  induction chain with
  | last ends => exact .last ((same _ List.mem_cons_self).trans ends)
  | next linked _ ih =>
    exact .next ((same _ List.mem_cons_self).trans linked)
      (ih fun cell member => same cell (List.mem_cons_of_mem _ member))

theorem extend {front : List α} (chain : Chain link a (front ++ [b])) {c : α}
    (linked : link' b = some (some c))
    (ends : link' c = some none) (same : ∀ cell ∈ front, link' cell = link cell) :
    Chain link' a (front ++ [b] ++ [c]) := by
  induction front generalizing a with
  | nil =>
    cases chain with
    | last _ => exact .next linked (.last ends)
    | next _ rest => exact absurd rfl rest.ne_nil
  | cons first front ih =>
    rw [List.cons_append] at chain
    generalize tail : front ++ [b] = cells at chain
    cases chain with
    | last _ => exact absurd tail (List.append_ne_nil_of_right_ne_nil front (List.cons_ne_nil b []))
    | next linked' rest =>
      subst tail
      exact .next ((same _ List.mem_cons_self).trans linked')
        (ih rest fun cell member => same cell (List.mem_cons_of_mem _ member))

theorem length_le [DecidableEq α] (chain : Chain link a cells) {cellsAll : Finset α}
    (inside : ∀ cell, link cell ≠ none → cell ∈ cellsAll) : cells.length ≤ cellsAll.card := by
  have card : cells.toFinset.card = cells.length := List.toFinset_card_of_nodup chain.nodup
  rw [← card]
  refine Finset.card_le_card fun cell member => inside cell ?_
  exact chain.linked_of_mem (List.mem_toFinset.mp member)

end Chain

def follow (link : α → Option (Option α)) : Nat → α → Bool
  | 0, _ => false
  | steps + 1, a =>
    match link a with
    | none => false
    | some none => true
    | some (some b) => follow link steps b

theorem follow_iff {steps : Nat} :
    follow link steps a = true ↔ ∃ cells, Chain link a cells ∧ cells.length ≤ steps := by
  induction steps generalizing a with
  | zero =>
    refine ⟨nofun, fun ⟨cells, chain, short⟩ => ?_⟩
    exact absurd (List.eq_nil_of_length_eq_zero (by omega)) chain.ne_nil
  | succ steps ih =>
    rw [follow]
    constructor
    · intro followed
      split at followed
      · cases followed
      · rename_i ends
        exact ⟨[a], .last ends, by simp⟩
      · rename_i b linked
        obtain ⟨cells, chain, short⟩ := ih.mp followed
        exact ⟨a :: cells, .next linked chain, by simpa using short⟩
    · rintro ⟨cells, chain, short⟩
      cases chain with
      | last ends => rw [ends]
      | next linked rest =>
        rw [linked]
        exact ih.mpr ⟨_, rest, by simpa using short⟩

end Chains
