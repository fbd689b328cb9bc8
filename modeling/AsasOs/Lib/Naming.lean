import Mathlib.Data.List.Basic
import Mathlib.Data.List.Infix

/-!
# Directories that hold items under names

A tree of directories is given by what each directory holds under each name, and by
the directory that an item leads into. A path is followed from name to name. In a tree
with a root every directory is reached by one path only.

## Main results

- `reach_unique`: there is one path to a directory.
-/
namespace Naming

variable {D N X : Type}

section Paths

variable (child : D → N → Option X) (enter : X → Option D)

/-- The directory under a name. -/
def step (d : D) (n : N) : Option D := (child d n).bind enter

/-- The directory at a path. -/
def reach : D → List N → Option D
  | d, [] => some d
  | d, n :: rest => (step child enter d n).bind fun e => reach e rest

/-- Every directory but the root is held by one directory under one name. -/
structure Rooted (root : D) (parent : D → Option (D × N)) : Prop where
  root : parent root = none
  held : ∀ d n e, step child enter d n = some e → parent e = some (d, n)

end Paths

variable {child child' : D → N → Option X} {enter : X → Option D} {root d e f t : D} {l n s : N}
  {names rest pre : List N} {parent : D → Option (D × N)}

theorem reach_append : reach child enter d (pre ++ rest) =
    (reach child enter d pre).bind fun e => reach child enter e rest := by
  induction pre generalizing d with
  | nil => rfl
  | cons n pre ih =>
    rw [List.cons_append, reach, reach, Option.bind_assoc]
    congr 1
    funext e
    exact ih

theorem reach_concat : reach child enter d (pre ++ [n]) =
    (reach child enter d pre).bind fun e => step child enter e n := by
  rw [reach_append]
  congr 1
  funext e
  rw [reach]
  cases step child enter e n <;> rfl

/-- There is one path to a directory. -/
theorem reach_unique (rooted : Rooted child enter root parent) {p q : List N}
    (here : reach child enter root p = some d) (there : reach child enter root q = some d) :
    p = q := by
  induction p using List.reverseRecOn generalizing q d with
  | nil =>
    cases here
    induction q using List.reverseRecOn with
    | nil => rfl
    | append_singleton q n =>
      rw [reach_concat] at there
      obtain ⟨e, _, last⟩ := Option.bind_eq_some_iff.mp there
      have held := rooted.held e n root last
      rw [rooted.root] at held
      cases held
  | append_singleton p n ih =>
    rw [reach_concat] at here
    obtain ⟨e, before, last⟩ := Option.bind_eq_some_iff.mp here
    have held := rooted.held e n d last
    induction q using List.reverseRecOn with
    | nil =>
      cases there
      rw [rooted.root] at held
      cases held
    | append_singleton q m =>
      rw [reach_concat] at there
      obtain ⟨e', before', last'⟩ := Option.bind_eq_some_iff.mp there
      have held' := rooted.held e' m d last'
      rw [held] at held'
      cases held'
      rw [ih before before']

end Naming
