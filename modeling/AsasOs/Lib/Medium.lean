import Mathlib.Logic.Function.Basic
import Mathlib.Data.List.Basic

/-!
# Media written block by block

A medium maps block numbers to blocks, and a block write is atomic. A trace of
writes gives the medium after each of its prefixes, which are the media a crash can
leave behind.
-/
namespace Medium

variable {β : Type}

/-- The medium after a trace of block writes. -/
def apply (medium : Nat → β) : List (Nat × β) → Nat → β
  | [] => medium
  | (lba, block) :: rest => apply (Function.update medium lba block) rest

/-- The writes that store consecutive blocks. -/
def span : Nat → List β → List (Nat × β)
  | _, [] => []
  | lba, block :: rest => (lba, block) :: span (lba + 1) rest

/-- The `count` blocks from `lba` on. -/
def blocksAt (medium : Nat → β) (lba count : Nat) : List β :=
  (List.range count).map fun i => medium (lba + i)

@[simp] theorem apply_append (medium : Nat → β) (ws vs : List (Nat × β)) :
    apply medium (ws ++ vs) = apply (apply medium ws) vs := by
  induction ws generalizing medium with
  | nil => rfl
  | cons w ws ih => exact ih _

theorem apply_other {ws : List (Nat × β)} {lba : Nat} (untouched : ∀ w ∈ ws, w.1 ≠ lba)
    (medium : Nat → β) : apply medium ws lba = medium lba := by
  induction ws generalizing medium with
  | nil => rfl
  | cons w ws ih =>
    rw [apply, ih fun v member => untouched v (List.mem_cons_of_mem _ member)]
    exact Function.update_of_ne (untouched w List.mem_cons_self).symm _ _

theorem mem_span {lba : Nat} {blocks : List β} {w : Nat × β} (member : w ∈ span lba blocks) :
    lba ≤ w.1 ∧ w.1 < lba + blocks.length := by
  induction blocks generalizing lba with
  | nil => cases member
  | cons block rest ih =>
    rcases List.mem_cons.mp member with rfl | later
    · simp
    · have bounds := ih later
      rw [List.length_cons]
      omega

theorem mem_of_mem_span {lba : Nat} {blocks : List β} {w : Nat × β} (member : w ∈ span lba blocks) :
    w.2 ∈ blocks := by
  induction blocks generalizing lba with
  | nil => cases member
  | cons block rest ih =>
    rcases List.mem_cons.mp member with rfl | later
    · exact List.mem_cons_self
    · exact List.mem_cons_of_mem _ (ih later)

theorem getElem?_of_mem_span {lba : Nat} {blocks : List β} {w : Nat × β}
    (member : w ∈ span lba blocks) : ∃ k, w.1 = lba + k ∧ blocks[k]? = some w.2 := by
  induction blocks generalizing lba with
  | nil => cases member
  | cons block rest ih =>
    rcases List.mem_cons.mp member with rfl | later
    · exact ⟨0, rfl, rfl⟩
    · obtain ⟨k, place, there⟩ := ih later
      exact ⟨k + 1, by omega, there⟩

theorem apply_among {P : Nat → β → Prop} {ws : List (Nat × β)} (all : ∀ w ∈ ws, P w.1 w.2)
    (medium : Nat → β) (lba : Nat) :
    apply medium ws lba = medium lba ∨ P lba (apply medium ws lba) := by
  induction ws generalizing medium with
  | nil => exact .inl rfl
  | cons w ws ih =>
    obtain ⟨first, later⟩ := List.forall_mem_cons.mp all
    rcases ih later (Function.update medium w.1 w.2) with same | written
    · by_cases here : lba = w.1
      · refine .inr ?_
        rw [apply, same, here, Function.update_self]
        exact first
      · refine .inl ?_
        rw [apply, same, Function.update_of_ne here]
    · exact .inr written

theorem apply_span (medium : Nat → β) (lba : Nat) (blocks : List β) :
    blocksAt (apply medium (span lba blocks)) lba blocks.length = blocks := by
  induction blocks generalizing lba medium with
  | nil => rfl
  | cons block rest ih =>
    have first : apply medium (span lba (block :: rest)) lba = block := by
      rw [span, apply, apply_other]
      · exact Function.update_self ..
      · intro w member
        have bounds := mem_span member
        omega
    have later : (List.range rest.length).map
        (fun i => apply medium (span lba (block :: rest)) (lba + (i + 1))) = rest := by
      have tail := ih (Function.update medium lba block) (lba + 1)
      simp only [blocksAt, Nat.add_right_comm lba 1] at tail
      exact tail
    rw [blocksAt, List.length_cons, List.range_succ_eq_map, List.map_cons, List.map_map]
    simp only [Function.comp_def, Nat.succ_eq_add_one, Nat.add_zero, first, later]

theorem blocksAt_congr {m m' : Nat → β} {lba count : Nat}
    (agree : ∀ k, lba ≤ k → k < lba + count → m k = m' k) :
    blocksAt m lba count = blocksAt m' lba count := by
  apply List.map_congr_left
  intro i member
  have below := List.mem_range.mp member
  exact agree (lba + i) (by omega) (by omega)

end Medium
