import AsasOs.Ext2.Entries

/-!
# ext2 paths

`find_inode` takes one component after the other off a path and looks it up in the directory that it
has come to.

## Main results

- `nextPathComponent_spec`, `nextPathComponent_append`: what is taken off a path.
-/
namespace AsasOs.Ext2

open Bytes Checked Filling

/-- What `next_path_component` takes off a path of characters other than the terminator. -/
structure Component (name : Name) : Prop extends Components.IsComponent SLASH 255 name where
  terminator : 0 ∉ name

section Paths

variable {path name rest : Name}

theorem nextPathComponent_spec (terminated : 0 ∉ path)
    (next : nextPathComponent path = .some (name, rest)) :
    Component name ∧ rest.length < path.length ∧ 0 ∉ rest := by
  obtain ⟨taken, left⟩ := Components.next_subset next
  exact ⟨⟨Components.next_component (by decide) next, fun member => terminated (taken member)⟩,
    Components.next_shorter next, fun member => terminated (left member)⟩

/-- A component behind a slash, in front of another or of nothing. -/
theorem nextPathComponent_append (component : Component name)
    (stops : rest = [] ∨ rest.head? = .some SLASH) :
    nextPathComponent (SLASH :: (name ++ rest)) = .some (name, rest) :=
  Components.next_append component.toIsComponent stops

theorem nextPathComponent_extend {component : Name}
    (next : nextPathComponent path = .some (component, rest)) (more : Name) :
    nextPathComponent (path ++ SLASH :: more) = .some (component, rest ++ SLASH :: more) :=
  Components.next_extend next more

theorem nextPathComponent_last (done : nextPathComponent path = none) (component : Component name) :
    nextPathComponent (path ++ SLASH :: name) = .some (name, []) :=
  Components.next_last done component.toIsComponent

end Paths

theorem walk_extend {c : Context} {steps : Nat} {leftover : Leftover} {name : Name}
    (component : Component name)
    {found : Inode} (rounds : Nat) (s : Walk)
    (resolved : iterate (walkBody steps c leftover) rounds s = .ok found) :
    ∃ depth, ∀ more, s.cursor.length + 1 < more →
      iterate (walkBody steps c leftover) more ⟨s.cursor ++ SLASH :: name, s.current, s.depth⟩ =
        findInDirectory steps c (leftover.under depth) found name := by
  induction rounds generalizing s with
  | zero => cases resolved
  | succ rounds ih =>
    rw [iterate_succ, walkBody] at resolved
    cases next : nextPathComponent s.cursor with
    | none =>
      rw [next] at resolved
      cases resolved
      refine ⟨s.depth, fun more enough => ?_⟩
      obtain ⟨more, rfl⟩ : ∃ left, more = left + 2 := ⟨more - 2, by omega⟩
      rw [iterate_succ, walkBody]
      dsimp only
      rw [nextPathComponent_last next component]
      dsimp only
      cases findInDirectory steps c (leftover.under s.depth) s.current name with
      | error stop => rfl
      | ok inode => rfl
    | some parts =>
      obtain ⟨first, cursor⟩ := parts
      rw [next] at resolved
      dsimp only at resolved
      cases lookedUp : findInDirectory steps c (leftover.under s.depth) s.current first with
      | error stop =>
        rw [lookedUp] at resolved
        cases resolved
      | ok inode =>
        rw [lookedUp] at resolved
        obtain ⟨depth, later⟩ := ih ⟨cursor, inode, s.depth + 1⟩ resolved
        refine ⟨depth, fun more enough => ?_⟩
        obtain ⟨more, rfl⟩ : ∃ left, more = left + 1 := ⟨more - 1, by omega⟩
        have shorter := Components.next_shorter next
        rw [iterate_succ, walkBody]
        dsimp only
        rw [nextPathComponent_extend next name]
        dsimp only
        rw [lookedUp]
        exact later more (by dsimp only; omega)

end AsasOs.Ext2
