import Mathlib.Data.List.TakeWhile

/-!
# The components of a path

A path is taken apart at a separator. Separators behind one another count as one, and what is behind the limit of a
component is left out.

## Main results

- `next_shorter`, `next_component`: what is taken off a path, and what is left of it.
- `next_append`, `next_extend`, `next_last`: what is taken off a path that is put together.
- `split_append`: a component at the end of a path is its last.
-/
namespace AsasOs.Components

variable {α : Type} [DecidableEq α]

/-- A component, and the rest of the path. -/
def next (separator : α) (limit : Nat) (path : List α) : Option (List α × List α) :=
  let rest := path.dropWhile (· == separator)
  if rest = [] then none else some ((rest.takeWhile (· != separator)).take limit, rest.dropWhile (· != separator))

/-- A name that a path can have. -/
structure IsComponent (separator : α) (limit : Nat) (name : List α) : Prop where
  some : name ≠ []
  plain : separator ∉ name
  fits : name.length ≤ limit

variable {separator : α} {limit : Nat} {path rest name component : List α}

theorem trimmed_first {first : α} {tail : List α} (trimmed : path.dropWhile (· == separator) = first :: tail) :
    first ≠ separator := by
  have head := List.head?_dropWhile_not (· == separator) path
  rw [trimmed] at head
  simpa using head

/-- Something is taken off a path, so that a walk over its components ends. -/
theorem next_shorter (taken : next separator limit path = some (component, rest)) : rest.length < path.length := by
  unfold next at taken
  dsimp only at taken
  split at taken
  next => cases taken
  next some =>
    obtain ⟨-, rfl⟩ := Prod.mk.inj (Option.some.inj taken)
    have whole := (List.dropWhile_suffix (· == separator) (l := path)).length_le
    cases trimmed : path.dropWhile (· == separator) with
    | nil => exact absurd trimmed some
    | cons first tail =>
      rw [trimmed, List.length_cons] at whole
      have here := trimmed_first trimmed
      have less := (List.dropWhile_suffix (· != separator) (l := tail)).length_le
      simp only [List.dropWhile_cons, bne_iff_ne, ne_eq, here, not_false_eq_true, if_true]
      omega

theorem next_subset (taken : next separator limit path = some (component, rest)) :
    component ⊆ path ∧ rest ⊆ path := by
  unfold next at taken
  dsimp only at taken
  split at taken
  next => cases taken
  next =>
    obtain ⟨rfl, rfl⟩ := Prod.mk.inj (Option.some.inj taken)
    have within := (List.dropWhile_suffix (· == separator) (l := path)).subset
    exact ⟨fun _ member => within ((List.takeWhile_prefix _).subset (List.mem_of_mem_take member)),
      fun _ member => within ((List.dropWhile_suffix _).subset member)⟩

theorem next_component (positive : 0 < limit) (taken : next separator limit path = some (component, rest)) :
    IsComponent separator limit component := by
  unfold next at taken
  dsimp only at taken
  split at taken
  next => cases taken
  next some =>
    obtain ⟨rfl, -⟩ := Prod.mk.inj (Option.some.inj taken)
    refine ⟨?_, fun member => ?_, List.length_take_le _ _⟩
    · cases trimmed : path.dropWhile (· == separator) with
      | nil => exact absurd trimmed some
      | cons first tail => simp [trimmed_first trimmed, positive.ne']
    · have other := List.all_takeWhile (p := (· != separator)) (l := path.dropWhile (· == separator))
      exact absurd rfl (bne_iff_ne.mp (List.all_eq_true.mp other _ (List.mem_of_mem_take member)))

/-! ### Paths that are put together -/

theorem dropWhile_append_separator (path : List α) :
    (path ++ separator :: name).dropWhile (· != separator) = path.dropWhile (· != separator) ++ separator :: name := by
  induction path with
  | nil => simp
  | cons first path ih =>
    rw [List.cons_append, List.dropWhile_cons, List.dropWhile_cons]
    split
    next => exact ih
    next => rfl

theorem takeWhile_append_separator (path : List α) :
    (path ++ separator :: name).takeWhile (· != separator) = path.takeWhile (· != separator) := by
  induction path with
  | nil => simp
  | cons first path ih =>
    rw [List.cons_append, List.takeWhile_cons, List.takeWhile_cons]
    split
    next => rw [ih]
    next => rfl

/-- A component behind a separator, in front of another or of nothing. -/
theorem next_append (component : IsComponent separator limit name)
    (stops : rest = [] ∨ rest.head? = some separator) :
    next separator limit (separator :: (name ++ rest)) = some (name, rest) := by
  have others : ∀ byte ∈ name, (byte != separator) = true :=
    fun byte member => bne_iff_ne.mpr fun same => component.plain (same ▸ member)
  have trimmed : (separator :: (name ++ rest)).dropWhile (· == separator) = name ++ rest := by
    rw [List.dropWhile_cons_of_pos (by simp)]
    cases name with
    | nil => exact absurd rfl component.some
    | cons first tail =>
      refine List.dropWhile_cons_of_neg fun same => component.plain ?_
      rw [eq_of_beq same]
      exact List.mem_cons_self ..
  have ends : rest.takeWhile (· != separator) = [] ∧ rest.dropWhile (· != separator) = rest := by
    rcases stops with rfl | here
    · exact ⟨rfl, rfl⟩
    · obtain ⟨rest, rfl⟩ := List.head?_eq_some_iff.mp here
      simp
  unfold next
  rw [trimmed]
  dsimp only
  rw [if_neg (by simp [component.some]), List.takeWhile_append_of_pos others, List.dropWhile_append_of_pos others,
    ends.1, ends.2, List.append_nil, List.take_of_length_le component.fits]

/-- What is taken off a path is taken off a longer one as well. -/
theorem next_extend (taken : next separator limit path = some (component, rest)) (more : List α) :
    next separator limit (path ++ separator :: more) = some (component, rest ++ separator :: more) := by
  unfold next at taken ⊢
  dsimp only at taken ⊢
  split at taken
  next => cases taken
  next begun =>
    obtain ⟨rfl, rfl⟩ := Prod.mk.inj (Option.some.inj taken)
    have cursor : (path ++ separator :: more).dropWhile (· == separator) =
        path.dropWhile (· == separator) ++ separator :: more := by
      rw [List.dropWhile_append, if_neg (by simpa using begun)]
    rw [cursor, if_neg (by simp), takeWhile_append_separator, dropWhile_append_separator]

/-- Behind nothing but separators a component is the first. -/
theorem next_last (done : next separator limit path = none) (component : IsComponent separator limit name) :
    next separator limit (path ++ separator :: name) = some (name, []) := by
  have separators : path.dropWhile (· == separator) = [] := by
    unfold next at done
    dsimp only at done
    split at done
    next empty => exact empty
    next => cases done
  have cursor : (path ++ separator :: name).dropWhile (· == separator) =
      (separator :: name).dropWhile (· == separator) := by
    rw [List.dropWhile_append, if_pos (by rw [separators]; rfl)]
  have alone := next_append component (.inl rfl)
  rw [List.append_nil] at alone
  rw [← alone, next, next, cursor]

/-! ### All components -/

def split (separator : α) (limit : Nat) (path : List α) : List (List α) :=
  match _next : next separator limit path with
  | none => []
  | some (component, rest) => component :: split separator limit rest
termination_by path.length
decreasing_by exact next_shorter _next

theorem split_none (last : next separator limit path = none) : split separator limit path = [] := by
  rw [split]
  split
  next => rfl
  next taken => rw [last] at taken; cases taken

theorem split_next (taken : next separator limit path = some (component, rest)) :
    split separator limit path = component :: split separator limit rest := by
  rw [split]
  split
  next last => rw [taken] at last; cases last
  next same =>
    rw [taken] at same
    cases same
    rfl

/-- What holds of what is taken off a path, and is kept by the rest of it, holds of all components. -/
theorem split_forall {P : List α → List α → Prop}
    (each : ∀ {path component rest}, next separator limit path = some (component, rest) →
      P component path ∧ ∀ name, P name rest → P name path)
    (member : name ∈ split separator limit path) : P name path := by
  induction size : path.length using Nat.strong_induction_on generalizing path with
  | _ total ih =>
    cases taken : next separator limit path with
    | none =>
      rw [split_none taken] at member
      cases member
    | some pair =>
      obtain ⟨component, rest⟩ := pair
      rw [split_next taken] at member
      rcases List.mem_cons.mp member with rfl | later
      · exact (each taken).1
      · exact (each taken).2 name (ih rest.length (size ▸ next_shorter taken) later rfl)

theorem split_component (positive : 0 < limit) (member : name ∈ split separator limit path) :
    IsComponent separator limit name :=
  split_forall (P := fun name _ => IsComponent separator limit name)
    (fun taken => ⟨next_component positive taken, fun _ same => same⟩) member

theorem split_subset (member : name ∈ split separator limit path) : name ⊆ path :=
  split_forall (P := fun name path => name ⊆ path)
    (fun taken => ⟨(next_subset taken).1, fun _ within => List.Subset.trans within (next_subset taken).2⟩) member

/-- A name at the end of a path is its last component. -/
theorem split_append (component : IsComponent separator limit name) (path : List α) :
    split separator limit (path ++ separator :: name) = split separator limit path ++ [name] := by
  induction size : path.length using Nat.strong_induction_on generalizing path with
  | _ total ih =>
    cases taken : next separator limit path with
    | none =>
      rw [split_none taken, split_next (next_last taken component), split_none rfl]
      rfl
    | some pair =>
      obtain ⟨first, rest⟩ := pair
      have shorter := next_shorter taken
      rw [split_next taken, split_next (next_extend taken name), ih _ (by omega) _ rfl, List.cons_append]

end AsasOs.Components
