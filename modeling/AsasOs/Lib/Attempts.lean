import Mathlib.Data.List.Basic

/-!
# Code with a state that may fail

What has been done to the state before a failure stays done. An attempt that succeeds is
one all of whose parts succeed, each from the state that the part before it left.
-/
namespace Attempts

variable {σ α β : Type}

/-- Code that works on a state, and gives a value unless it fails. -/
abbrev Attempt (σ α : Type) := OptionT (StateM σ) α

/-- The value of an attempt from a state, and the state behind it. -/
def attempt (code : Attempt σ α) (s : σ) : Option α × σ := code s

/-- Fail unless there is a value. -/
def need (value : Option α) : Attempt σ α := OptionT.mk (Pure.pure value)

def state : Attempt σ σ := OptionT.mk fun s => (some s, s)

def change (f : σ → σ) : Attempt σ Unit := OptionT.mk fun s => (some (), f s)

variable {code : Attempt σ α} {next : α → Attempt σ β} {s t : σ}

@[simp] theorem attempt_pure (value : α) : attempt (pure value) s = (some value, s) := rfl

@[simp] theorem attempt_failure : attempt (failure : Attempt σ α) s = (none, s) := rfl

@[simp] theorem attempt_need (value : Option α) : attempt (need value) s = (value, s) := rfl

@[simp] theorem attempt_state : attempt (state : Attempt σ σ) s = (some s, s) := rfl

@[simp] theorem attempt_change (f : σ → σ) : attempt (change f) s = (some (), f s) := rfl

theorem attempt_bind : attempt (code >>= next) s = match attempt code s with
    | (some value, t) => attempt (next value) t
    | (none, t) => (none, t) := by
  unfold attempt
  rcases first : code s with ⟨_ | value, t⟩
  · simp only [bind, OptionT.bind, OptionT.mk, StateT.bind, first]
    rfl
  · simp only [bind, OptionT.bind, OptionT.mk, StateT.bind, first]

theorem attempt_orElse {other : Attempt σ α} : attempt (code <|> other) s = match attempt code s with
    | (some value, t) => (some value, t)
    | (none, t) => attempt other t := by
  unfold attempt
  rcases first : code s with ⟨_ | value, t⟩
  · change OptionT.orElse code (fun _ => other) s = _
    simp only [OptionT.orElse, bind, OptionT.mk, StateT.bind, first]
  · change OptionT.orElse code (fun _ => other) s = _
    simp only [OptionT.orElse, bind, OptionT.mk, StateT.bind, first]
    rfl

theorem attempt_bind_of {value : α} (first : attempt code s = (some value, t)) :
    attempt (code >>= next) s = attempt (next value) t := by
  rw [attempt_bind, first]

theorem attempt_bind_some {result : β} (done : attempt (code >>= next) s = (some result, t)) :
    ∃ value middle, attempt code s = (some value, middle) ∧
    attempt (next value) middle = (some result, t) := by
  rw [attempt_bind] at done
  rcases first : attempt code s with ⟨_ | value, middle⟩
  · rw [first] at done
    cases done
  · rw [first] at done
    exact ⟨value, middle, rfl, done⟩

/-! ### What code leaves alone -/

/-- The code leaves alone what `view` shows of the state, whether it succeeds or not. -/
def Keeps {β : Type} (view : σ → β) (code : Attempt σ α) : Prop := ∀ s, view (attempt code s).2 = view s

section Keeps

variable {γ : Type} {view : σ → γ}

theorem keeps_pure (value : α) : Keeps view (pure value : Attempt σ α) := fun _ => rfl

theorem keeps_failure : Keeps view (failure : Attempt σ α) := fun _ => rfl

theorem keeps_need (value : Option α) : Keeps view (need value : Attempt σ α) := fun _ => rfl

theorem keeps_state : Keeps view (state : Attempt σ σ) := fun _ => rfl

theorem keeps_change {f : σ → σ} (same : ∀ s, view (f s) = view s) : Keeps view (change f) := same

theorem keeps_bind (first : Keeps view code) (rest : ∀ value, Keeps view (next value)) :
    Keeps view (code >>= next) := by
  intro s
  rw [attempt_bind]
  have kept := first s
  rcases done : attempt code s with ⟨_ | value, t⟩
  · rw [done] at kept
    exact kept
  · rw [done] at kept
    exact (rest value t).trans kept

theorem keeps_orElse {other : Attempt σ α} (first : Keeps view code) (second : Keeps view other) :
    Keeps view (code <|> other) := by
  intro s
  rw [attempt_orElse]
  have kept := first s
  rcases done : attempt code s with ⟨_ | value, t⟩
  · rw [done] at kept
    exact (second t).trans kept
  · rw [done] at kept
    exact kept

end Keeps

/-! ### Two states -/

/-- From two states that are related, the code fails both times, or it gives the same value. -/
def Twin (before failed : σ → σ → Prop) (after : α → σ → σ → Prop) (code : Attempt σ α) : Prop :=
  ∀ s s', before s s' →
    match attempt code s, attempt code s' with
    | (some value, t), (some value', t') => value = value' ∧ after value t t'
    | (none, t), (none, t') => failed t t'
    | _, _ => False

section Twin

variable {before failed : σ → σ → Prop} {after : α → σ → σ → Prop}

theorem twin_pure {value : α} (holds : ∀ s s', before s s' → after value s s') :
    Twin before failed after (pure value) := fun s s' related => ⟨rfl, holds s s' related⟩

theorem twin_failure (holds : ∀ s s', before s s' → failed s s') :
    Twin before failed after (failure : Attempt σ α) := fun s s' related => holds s s' related

theorem twin_mono {before' : σ → σ → Prop} (twin : Twin before failed after code)
    (stronger : ∀ s s', before' s s' → before s s') : Twin before' failed after code :=
  fun s s' related => twin s s' (stronger s s' related)

theorem twin_bind {later : β → σ → σ → Prop} (first : Twin before failed after code)
    (rest : ∀ value, Twin (after value) failed later (next value)) :
    Twin before failed later (code >>= next) := by
  intro s s' related
  have here := first s s' related
  rw [attempt_bind, attempt_bind]
  generalize attempt code s = result at here ⊢
  generalize attempt code s' = result' at here ⊢
  rcases result with ⟨_ | value, t⟩
  · rcases result' with ⟨_ | value', t'⟩
    · exact here
    · exact here.elim
  · rcases result' with ⟨_ | value', t'⟩
    · exact here.elim
    · obtain ⟨rfl, related⟩ := here
      exact rest value t t' related

theorem twin_orElse {other : Attempt σ α} (first : Twin before failed after code)
    (second : Twin failed failed after other) : Twin before failed after (code <|> other) := by
  intro s s' related
  have here := first s s' related
  rw [attempt_orElse, attempt_orElse]
  generalize attempt code s = result at here ⊢
  generalize attempt code s' = result' at here ⊢
  rcases result with ⟨_ | value, t⟩
  · rcases result' with ⟨_ | value', t'⟩
    · exact second t t' here
    · exact here.elim
  · rcases result' with ⟨_ | value', t'⟩
    · exact here.elim
    · exact here

end Twin

end Attempts
