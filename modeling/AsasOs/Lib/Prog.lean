import Mathlib.Control.Lawful
import Mathlib.Control.Basic

/-!
# Programs over an interface

A program is what a piece of sequential code does at its interface: it calls an
operation and goes on with the response, or it returns. Code is written once, in
`do` notation, and given its meaning by the handler of its operations, which may
fail, count, log or store as the situation requires. What every operation preserves
is preserved by every program, whatever the program is.
-/

inductive Prog (Op : Type) (Res : Op → Type) (α : Type) : Type where
  | pure (value : α)
  | call (op : Op) (next : Res op → Prog Op Res α)

namespace Prog

variable {Op Op' : Type} {Res : Op → Type} {Res' : Op' → Type} {α β γ σ τ : Type}

def bind : Prog Op Res α → (α → Prog Op Res β) → Prog Op Res β
  | .pure value, rest => rest value
  | .call op next, rest => .call op fun response => (next response).bind rest

instance : Monad (Prog Op Res) where
  pure := Prog.pure
  bind := Prog.bind

def perform (op : Op) : Prog Op Res (Res op) := .call op .pure

theorem bind_pure (p : Prog Op Res α) : p.bind .pure = p := by
  induction p with
  | pure value => rfl
  | call op next ih =>
    simp only [bind]
    congr 1
    funext response
    exact ih response

theorem bind_assoc (p : Prog Op Res α) (f : α → Prog Op Res β) (g : β → Prog Op Res γ) :
    (p.bind f).bind g = p.bind fun value => (f value).bind g := by
  induction p with
  | pure value => rfl
  | call op next ih =>
    simp only [bind]
    congr 1
    funext response
    exact ih response

instance : LawfulMonad (Prog Op Res) :=
  LawfulMonad.mk' _ bind_pure (fun _ _ => rfl) bind_assoc

/-! ### Handlers -/

/-- Run a program on a state, each operation by its handler. -/
def run (handle : (op : Op) → σ → Res op × σ) : Prog Op Res α → σ → α × σ
  | .pure value, s => (value, s)
  | .call op next, s =>
    let answered := handle op s
    run handle (next answered.1) answered.2

section Run

variable (handle : (op : Op) → σ → Res op × σ)

@[simp] theorem run_pure (value : α) (s : σ) :
    run handle (Pure.pure value : Prog Op Res α) s = (value, s) := rfl

@[simp] theorem run_perform (op : Op) (s : σ) : run handle (perform op) s = handle op s := rfl

@[simp] theorem run_bind (p : Prog Op Res α) (f : α → Prog Op Res β) (s : σ) :
    run handle (p >>= f) s = run handle (f (run handle p s).1) (run handle p s).2 := by
  induction p generalizing s with
  | pure value => rfl
  | call op next ih => exact ih (handle op s).1 (handle op s).2

variable {handle}

theorem run_preserves {Inv : σ → Prop} (step : ∀ op s, Inv s → Inv (handle op s).2)
    (p : Prog Op Res α) : ∀ s, Inv s → Inv (run handle p s).2 := by
  induction p with
  | pure value => exact fun _ inv => inv
  | call op next ih => exact fun s inv => ih _ _ (step op s inv)

end Run

/-! ### The calls of a run -/

/-- Every call of the run has the property, in the state in which it is made. -/
def Along (handle : (op : Op) → σ → Res op × σ) (P : Op → σ → Prop) : Prog Op Res α → σ → Prop
  | .pure _, _ => True
  | .call op next, s => P op s ∧ Along handle P (next (handle op s).1) (handle op s).2

section Along

variable {handle : (op : Op) → σ → Res op × σ} {P : Op → σ → Prop}

theorem along_bind {p : Prog Op Res α} {f : α → Prog Op Res β} {s : σ} : Along handle P (p >>= f) s ↔
      Along handle P p s ∧ Along handle P (f (run handle p s).1) (run handle p s).2 := by
  induction p generalizing s with
  | pure value => exact (iff_of_eq (true_and _)).symm
  | call op next ih =>
    change P op s ∧ Along handle P (next (handle op s).1 >>= f) (handle op s).2 ↔ _
    rw [ih, ← and_assoc]
    rfl

end Along

/-! ### Calls

`Uses P p` says that every call that the program can make, whatever it is answered,
satisfies `P`. -/

def Uses (P : Op → Prop) : Prog Op Res α → Prop
  | .pure _ => True
  | .call op next => P op ∧ ∀ response, Uses P (next response)

section Uses

variable {P Q : Op → Prop}

@[simp] theorem uses_pure (value : α) : Uses P (Pure.pure value : Prog Op Res α) := trivial

theorem uses_perform {op : Op} (permitted : P op) : Uses P (perform op : Prog Op Res (Res op)) :=
  ⟨permitted, fun _ => trivial⟩

theorem uses_bind {p : Prog Op Res α} {f : α → Prog Op Res β} (first : Uses P p)
    (rest : ∀ value, Uses P (f value)) : Uses P (p >>= f) := by
  induction p with
  | pure value => exact rest value
  | call op next ih => exact ⟨first.1, fun response => ih response (first.2 response)⟩

theorem uses_mono {p : Prog Op Res α} (uses : Uses P p) (weaker : ∀ op, P op → Q op) : Uses Q p := by
  induction p with
  | pure value => trivial
  | call op next ih =>
    exact ⟨weaker op uses.1, fun response => ih response (uses.2 response)⟩

theorem run_preserves_of_uses {handle : (op : Op) → σ → Res op × σ} {Inv : σ → Prop}
    (step : ∀ op s, P op → Inv s → Inv (handle op s).2) {p : Prog Op Res α} (uses : Uses P p) :
    ∀ s, Inv s → Inv (run handle p s).2 := by
  induction p with
  | pure value => exact fun _ inv => inv
  | call op next ih =>
    intro s inv
    exact ih _ (uses.2 _) _ (step op s uses.1 inv)

end Uses

/-! ### Fixed answers -/

/-- The result of a program when every operation has one answer. -/
def eval (answer : (op : Op) → Res op) : Prog Op Res α → α
  | .pure value => value
  | .call op next => eval answer (next (answer op))

section Eval

variable {answer answer' : (op : Op) → Res op}

@[simp] theorem eval_pure (value : α) : eval answer (Pure.pure value : Prog Op Res α) = value :=
  rfl

@[simp] theorem eval_bind (p : Prog Op Res α) (f : α → Prog Op Res β) :
    eval answer (p >>= f) = eval answer (f (eval answer p)) := by
  induction p with
  | pure value => rfl
  | call op next ih => exact ih (answer op)

theorem run_eq_eval (p : Prog Op Res α) (s : σ) :
    run (fun op s => (answer op, s)) p s = (eval answer p, s) := by
  induction p with
  | pure value => rfl
  | call op next ih => exact ih (answer op)

end Eval

/-! ### Fallible programs

Code that returns early when a call fails. `wp handle x post s` says that `post`
holds of the result of `x`, nothing on failure, and of the state in which it ends. -/

abbrev Fallible (Op : Type) (Res : Op → Type) := OptionT (Prog Op Res)

/-- A computed value, or an early return. -/
def ofOption (value : Option α) : Fallible Op Res α := OptionT.mk (Pure.pure value)

/-- Go on with the outcome of a part that may fail. -/
def observe (x : Fallible Op Res α) : Fallible Op Res (Option α) := OptionT.lift x.run

def wp (handle : (op : Op) → σ → Res op × σ) (x : Fallible Op Res α)
    (post : Option α → σ → Prop) (s : σ) : Prop :=
  post (run handle x.run s).1 (run handle x.run s).2

section UsesFallible

variable {P : Op → Prop}

theorem uses_some {value : α} : Uses P (Pure.pure value : Fallible Op Res α).run := trivial

theorem uses_failure : Uses P (failure : Fallible Op Res α).run := trivial

theorem uses_fallible_bind {x : Fallible Op Res β} {f : β → Fallible Op Res α}
    (first : Uses P x.run) (rest : ∀ value, Uses P (f value).run) : Uses P (x >>= f).run := by
  rw [OptionT.run_bind]
  refine uses_bind first fun result => ?_
  cases result with
  | none => trivial
  | some value => exact rest value

theorem uses_guard {p : Prop} [Decidable p] : Uses P (guard p : Fallible Op Res Unit).run := by
  by_cases holds : p
  · simp only [guard, if_pos holds]
    trivial
  · simp only [guard, if_neg holds]
    trivial

theorem uses_lift {p : Prog Op Res α} (uses : Uses P p) : Uses P (liftM p : Fallible Op Res α).run :=
  uses_bind uses fun _ => trivial

end UsesFallible

theorem along_fallible_bind {handle : (op : Op) → σ → Res op × σ} {P : Op → σ → Prop}
    {x : Fallible Op Res β} {f : β → Fallible Op Res α} {s : σ}
    (along : Along handle P (x >>= f).run s) :
    Along handle P x.run s ∧ ∀ value, (run handle x.run s).1 = some value →
      Along handle P (f value).run (run handle x.run s).2 := by
  rw [OptionT.run_bind, Option.elimM, along_bind] at along
  refine ⟨along.1, fun value found => ?_⟩
  have rest := along.2
  rw [found] at rest
  exact rest

section EvalFallible

variable {answer : (op : Op) → Res op}

theorem eval_fallible_bind (x : Fallible Op Res β) (f : β → Fallible Op Res α) :
    eval answer (x >>= f).run =
      (eval answer x.run).bind fun value => eval answer (f value).run := by
  rw [OptionT.run_bind, Option.elimM, eval_bind]
  cases eval answer x.run <;> rfl

theorem eval_lift_bind (p : Prog Op Res β) (f : β → Fallible Op Res α) :
    eval answer ((liftM p : Fallible Op Res β) >>= f).run = eval answer (f (eval answer p)).run := by
  rw [eval_fallible_bind]
  change (eval answer (p >>= fun value => Pure.pure (some value))).bind _ = _
  rw [eval_bind, eval_pure, Option.bind_some]

@[simp] theorem eval_some (value : α) :
    eval answer (Pure.pure value : Fallible Op Res α).run = some value := rfl

@[simp] theorem eval_failure : eval answer (failure : Fallible Op Res α).run = none := rfl

theorem eval_guard {p : Prop} [Decidable p] :
    eval answer (guard p : Fallible Op Res Unit).run = if p then some () else none := by
  by_cases holds : p
  · simp only [guard, if_pos holds, eval_some]
  · simp only [guard, if_neg holds, eval_failure]

end EvalFallible

/-! ### Values

`Yields Q x` says that every value that `x` can return satisfies `Q`. -/

def Returns (Q : α → Prop) : Prog Op Res α → Prop
  | .pure value => Q value
  | .call _ next => ∀ response, Returns Q (next response)

def Yields (Q : α → Prop) (x : Fallible Op Res α) : Prop :=
  Returns (fun result => ∀ value, result = some value → Q value) x.run

section Yields

variable {Q : α → Prop}

variable {p : Prog Op Res α}

theorem returns_bind {Q : β → Prop} {f : α → Prog Op Res β}
    (rest : ∀ value, Returns Q (f value)) : Returns Q (p >>= f) := by
  induction p with
  | pure value => exact rest value
  | call op next ih => exact fun response => ih response

theorem returns_bind_of {P : α → Prop} {Q : β → Prop} {f : α → Prog Op Res β}
    (first : Returns P p) (rest : ∀ value, P value → Returns Q (f value)) :
    Returns Q (p >>= f) := by
  induction p with
  | pure value => exact rest value first
  | call op next ih => exact fun response => ih response (first response)

theorem returns_mono {P Q : α → Prop} (returns : Returns P p)
    (weaker : ∀ value, P value → Q value) : Returns Q p := by
  induction p with
  | pure value => exact weaker value returns
  | call op next ih => exact fun response => ih response (returns response)

theorem Returns.run {handle : (op : Op) → σ → Res op × σ}
    (returns : Returns Q p) (s : σ) : Q (Prog.run handle p s).1 := by
  induction p generalizing s with
  | pure value => exact returns
  | call op next ih => exact ih _ (returns _) _

theorem Returns.eval {answer : (op : Op) → Res op} (returns : Returns Q p) : Q (Prog.eval answer p) := by
  induction p with
  | pure value => exact returns
  | call op next ih => exact ih _ (returns _)

theorem yields_pure {value : α} (holds : Q value) : Yields Q (Pure.pure value : Fallible Op Res α) := by
  intro other same
  cases same
  exact holds

variable {f : β → Fallible Op Res α}

theorem yields_bind {x : Fallible Op Res β} (rest : ∀ value, Yields Q (f value)) :
    Yields Q (x >>= f) := by
  unfold Yields
  rw [OptionT.run_bind]
  refine returns_bind fun result => ?_
  cases result with
  | none =>
    intro value impossible
    cases impossible
  | some value => exact rest value

theorem yields_bind_of {P : β → Prop} {x : Fallible Op Res β}
    (first : Yields P x) (rest : ∀ value, P value → Yields Q (f value)) : Yields Q (x >>= f) := by
  unfold Yields
  rw [OptionT.run_bind]
  refine returns_bind_of first fun result holds => ?_
  cases result with
  | none =>
    intro value impossible
    cases impossible
  | some value => exact rest value (holds value rfl)

theorem yields_guard {p : Prop} [Decidable p] {f : Unit → Fallible Op Res α}
    (rest : p → Yields Q (f ())) : Yields Q (guard p >>= f) := by
  by_cases holds : p
  · simp only [guard, if_pos holds]
    exact rest holds
  · simp only [guard, if_neg holds]
    intro value impossible
    cases impossible

theorem yields_ofOption {found : Option β}
    (rest : ∀ value, found = some value → Yields Q (f value)) : Yields Q (ofOption found >>= f) := by
  cases found with
  | none =>
    intro value impossible
    cases impossible
  | some value => exact rest value rfl

theorem Yields.run {handle : (op : Op) → σ → Res op × σ} {x : Fallible Op Res α}
    (yields : Yields Q x) {s : σ} {value : α} (result : (Prog.run handle x.run s).1 = some value) :
    Q value :=
  Returns.run yields s value result

theorem Yields.eval {answer : (op : Op) → Res op} {x : Fallible Op Res α} (yields : Yields Q x)
    {value : α} (result : Prog.eval answer x.run = some value) : Q value :=
  Returns.eval yields value result

theorem yields_failure : Yields Q (failure : Fallible Op Res α) := by
  intro value impossible
  cases impossible

end Yields

/-! ### Bounds

`AtMost n p` says that `p` ends after at most `n` calls, whatever they are answered. -/

def AtMost : Nat → Prog Op Res α → Prop
  | _, .pure _ => True
  | 0, .call _ _ => False
  | n + 1, .call _ next => ∀ response, AtMost n (next response)

section AtMost

variable {m n : Nat}

theorem atMost_pure (n : Nat) (value : α) : AtMost n (Pure.pure value : Prog Op Res α) := by
  cases n <;> trivial

theorem AtMost.mono {p : Prog Op Res α} (bound : AtMost m p) (more : m ≤ n) : AtMost n p := by
  induction p generalizing m n with
  | pure value => exact atMost_pure n value
  | call op next ih =>
    cases m with
    | zero => exact bound.elim
    | succ m =>
      cases n with
      | zero => omega
      | succ n => exact fun response => ih response (bound response) (by omega)

theorem atMost_bind {p : Prog Op Res α} {f : α → Prog Op Res β} (first : AtMost m p)
    (rest : ∀ value, AtMost n (f value)) : AtMost (m + n) (p >>= f) := by
  induction p generalizing m with
  | pure value => exact (rest value).mono (Nat.le_add_left n m)
  | call op next ih =>
    cases m with
    | zero => exact first.elim
    | succ m =>
      rw [Nat.add_right_comm]
      exact fun response => ih response (first response)

theorem atMost_fallible_bind {x : Fallible Op Res β} {f : β → Fallible Op Res α}
    (first : AtMost m x.run) (rest : ∀ value, AtMost n (f value).run) :
    AtMost (m + n) (x >>= f).run := by
  rw [OptionT.run_bind]
  refine atMost_bind first fun result => ?_
  cases result with
  | none => exact atMost_pure n _
  | some value => exact rest value

theorem atMost_guard {p : Prop} [Decidable p] {f : Unit → Fallible Op Res α}
    (rest : AtMost n (f ()).run) : AtMost n (guard p >>= f).run := by
  by_cases holds : p
  · simp only [guard, if_pos holds]
    exact rest
  · simp only [guard, if_neg holds]
    exact atMost_pure n _

theorem atMost_ofOption {found : Option β} {f : β → Fallible Op Res α}
    (rest : ∀ value, AtMost n (f value).run) : AtMost n (ofOption found >>= f).run := by
  cases found with
  | none => exact atMost_pure n _
  | some value => exact rest value

end AtMost

section Wp

variable {handle : (op : Op) → σ → Res op × σ} {post : Option α → σ → Prop} {s : σ}

@[simp] theorem wp_pure {value : α} : wp handle (Pure.pure value) post s ↔ post (some value) s :=
  Iff.rfl

@[simp] theorem wp_failure : wp handle failure post s ↔ post none s := Iff.rfl

variable {f : β → Fallible Op Res α}

theorem wp_bind {x : Fallible Op Res β} : wp handle (x >>= f) post s ↔ wp handle x (fun result s' =>
        match result with
        | none => post none s'
        | some value => wp handle (f value) post s') s := by
  simp only [wp, OptionT.run_bind, Option.elimM, run_bind]
  cases (run handle x.run s).1 <;> rfl

theorem wp_ofOption {value : Option β} : wp handle (ofOption value >>= f) post s ↔ match value with
      | none => post none s
      | some value => wp handle (f value) post s := by
  rw [wp_bind]
  rfl

theorem wp_guard_last {p : Prop} [Decidable p] {post : Option Unit → σ → Prop} :
    wp handle (guard p) post s ↔ if p then post (some ()) s else post none s := by
  by_cases holds : p
  · simp only [guard, if_pos holds, wp_pure]
  · simp only [guard, if_neg holds, wp_failure]

theorem wp_guard {p : Prop} [Decidable p] {f : Unit → Fallible Op Res α} :
    wp handle (guard p >>= f) post s ↔ if p then wp handle (f ()) post s else post none s := by
  rw [wp_bind]
  by_cases holds : p
  · simp only [guard, if_pos holds, wp_pure]
  · simp only [guard, if_neg holds, wp_failure]

theorem wp_lift {p : Prog Op Res β} : wp handle (liftM p >>= f) post s ↔
      wp handle (f (run handle p s).1) post (run handle p s).2 := by
  have lifted : run handle (liftM p : Fallible Op Res β).run s =
      (some (run handle p s).1, (run handle p s).2) := by
    change run handle (p >>= fun value => Pure.pure (some value)) s = _
    rw [run_bind, run_pure]
  rw [wp_bind, wp, lifted]

theorem wp_orElse {x y : Fallible Op Res α} : wp handle (x <|> y) post s ↔ wp handle x (fun result s' =>
        match result with
        | none => wp handle y post s'
        | some value => post (some value) s') s := by
  change post (run handle (x.run >>= _) s).1 (run handle (x.run >>= _) s).2 ↔ _
  rw [run_bind, wp]
  cases (run handle x.run s).1 <;> rfl

theorem wp_mono {post' : Option α → σ → Prop} {x : Fallible Op Res α}
    (done : wp handle x post' s) (weaker : ∀ result s', post' result s' → post result s') :
    wp handle x post s :=
  weaker _ _ done

end Wp

/-! ### Invariants

`Keeps handle Inv Q p` says that `p` preserves `Inv` and that what it returns then satisfies
`Q`; `Guards` says so of a fallible program, which returns nothing on failure. -/

def Keeps (handle : (op : Op) → σ → Res op × σ) (Inv : σ → Prop) (Q : α → Prop)
    (p : Prog Op Res α) : Prop :=
  ∀ s, Inv s → Inv (run handle p s).2 ∧ Q (run handle p s).1

def Guards (handle : (op : Op) → σ → Res op × σ) (Inv : σ → Prop) (Q : α → Prop)
    (x : Fallible Op Res α) : Prop :=
  Keeps handle Inv (fun result => ∀ value, result = some value → Q value) x.run

section Keeps

variable {handle : (op : Op) → σ → Res op × σ} {Inv : σ → Prop} {P : β → Prop} {Q : α → Prop}

theorem keeps_pure {value : α} (holds : Q value) :
    Keeps handle Inv Q (Pure.pure value : Prog Op Res α) :=
  fun _ inv => ⟨inv, holds⟩

theorem keeps_bind {p : Prog Op Res β} {f : β → Prog Op Res α} (first : Keeps handle Inv P p)
    (rest : ∀ value, P value → Keeps handle Inv Q (f value)) : Keeps handle Inv Q (p >>= f) := by
  intro s inv
  obtain ⟨inv', holds⟩ := first s inv
  rw [run_bind]
  exact rest _ holds _ inv'

theorem keeps_mono {Q' : α → Prop} {p : Prog Op Res α} (keeps : Keeps handle Inv Q' p)
    (weaker : ∀ value, Q' value → Q value) : Keeps handle Inv Q p :=
  fun s inv => ⟨(keeps s inv).1, weaker _ (keeps s inv).2⟩

theorem keeps_and {p : Prog Op Res α} {Q' : α → Prop} (first : Keeps handle Inv Q p)
    (second : Keeps handle Inv Q' p) :
    Keeps handle Inv (fun value => Q value ∧ Q' value) p :=
  fun s inv => ⟨(first s inv).1, (first s inv).2, (second s inv).2⟩

theorem guards_pure {value : α} (holds : Q value) :
    Guards handle Inv Q (Pure.pure value : Fallible Op Res α) :=
  keeps_pure fun _ same => Option.some.inj same ▸ holds

theorem guards_failure : Guards handle Inv Q (failure : Fallible Op Res α) :=
  keeps_pure fun _ impossible => by cases impossible

variable {f : β → Fallible Op Res α}

theorem guards_bind {x : Fallible Op Res β}
    (first : Guards handle Inv P x) (rest : ∀ value, P value → Guards handle Inv Q (f value)) :
    Guards handle Inv Q (x >>= f) := by
  unfold Guards
  rw [OptionT.run_bind]
  refine keeps_bind first fun result holds => ?_
  cases result with
  | none => exact keeps_pure fun _ impossible => by cases impossible
  | some value => exact rest value (holds value rfl)

theorem guards_guard {p : Prop} [Decidable p] {f : Unit → Fallible Op Res α}
    (rest : p → Guards handle Inv Q (f ())) : Guards handle Inv Q (guard p >>= f) := by
  by_cases holds : p
  · simp only [guard, if_pos holds]
    exact rest holds
  · simp only [guard, if_neg holds]
    exact guards_failure

theorem guards_guard_last {p : Prop} [Decidable p] :
    Guards handle Inv (fun _ => p) (guard p : Fallible Op Res Unit) := by
  by_cases holds : p
  · simp only [guard, if_pos holds]
    exact guards_pure holds
  · simp only [guard, if_neg holds]
    exact guards_failure

theorem guards_ofOption {found : Option β}
    (rest : ∀ value, found = some value → Guards handle Inv Q (f value)) :
    Guards handle Inv Q (ofOption found >>= f) := by
  cases found with
  | none => exact guards_failure
  | some value => exact rest value rfl

theorem guards_lift {p : Prog Op Res β} (first : Keeps handle Inv P p)
    (rest : ∀ value, P value → Guards handle Inv Q (f value)) :
    Guards handle Inv Q ((liftM p : Fallible Op Res β) >>= f) := by
  refine @guards_bind _ _ _ _ _ _ _ P Q _ _ ?_ rest
  exact keeps_bind first fun value holds => keeps_pure fun _ same => Option.some.inj same ▸ holds

theorem guards_observe {x : Fallible Op Res β} {f : Option β → Fallible Op Res α}
    (first : Guards handle Inv P x)
    (rest : ∀ result, (∀ value, result = some value → P value) → Guards handle Inv Q (f result)) :
    Guards handle Inv Q (observe x >>= f) :=
  guards_lift first rest

theorem guards_mono {Q' : α → Prop} {x : Fallible Op Res α} (guards : Guards handle Inv Q' x)
    (weaker : ∀ value, Q' value → Q value) : Guards handle Inv Q x :=
  keeps_mono guards fun _ holds value same => weaker value (holds value same)

end Keeps

end Prog
