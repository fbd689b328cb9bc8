import Mathlib.Data.List.Basic
import Mathlib.Logic.Function.Iterate
import Mathlib.Logic.Relation

/-!
# Code whose accesses are checked

Code that reads and writes buffers through indices of its own, and that loops as long as
its data says. A run ends in a value, or it stops: because the code refuses its input,
because an access lies outside its buffer, or because a loop has used up its steps. A run
is safe when the first of these is the only way in which it stops. Each construct has a
rule, and a loop is safe if its body keeps an invariant and decreases a measure. Where
there is no such invariant, a loop is safe for enough steps just if its rounds lead to
one that ends it.
-/
namespace Checked

/-- Why a run has no value. -/
inductive Stop where
  | outside
  | endless
  | refused
  deriving DecidableEq, Repr

abbrev Run := Except Stop

variable {α β σ ρ : Type}

/-- `buffer[index]` -/
def load (buffer : List α) (index : Nat) : Run α :=
  match buffer[index]? with
  | some value => .ok value
  | none => .error .outside

/-- `buffer[index] = value` -/
def store (buffer : List α) (index : Nat) (value : α) : Run (List α) :=
  if index < buffer.length then .ok (buffer.set index value) else .error .outside

/-- An access to `count` cells of a buffer of a size, from an index on. -/
def access (size index count : Nat) : Run Unit :=
  if count = 0 ∨ index + count ≤ size then .ok () else .error .outside

/-- `if (!call(&value)) return 0;` -/
def supplied : Option α → Run α
  | some value => .ok value
  | none => .error .refused

/-- `if (!condition) return 0;` -/
def demand (condition : Prop) [Decidable condition] : Run Unit :=
  if condition then .ok () else .error .refused

/-- `if (call(&value))`, where the code goes on when the call has failed. -/
def tried : Run α → Run (Option α)
  | .ok value => .ok (some value)
  | .error .refused => .ok none
  | .error stop => .error stop

/-- Repeat the body, until it gives a result, as long as there are steps left. -/
def iterate (body : σ → Run (σ ⊕ ρ)) : Nat → σ → Run ρ
  | 0, _ => .error .endless
  | steps + 1, s =>
    match body s with
    | .error stop => .error stop
    | .ok (.inl s) => iterate body steps s
    | .ok (.inr result) => .ok result

/-- The run ends in a value as `post` says, or refuses its input. -/
def Safe (run : Run α) (post : α → Prop) : Prop :=
  match run with
  | .ok value => post value
  | .error stop => stop = .refused

theorem ok_bind (value : α) (next : α → Run β) : (Except.ok value : Run α) >>= next = next value := rfl

theorem error_bind (stop : Stop) (next : α → Run β) :
    (Except.error stop : Run α) >>= next = .error stop := rfl

theorem demand_holds {condition : Prop} [Decidable condition] (holds : condition) :
    demand condition = .ok () :=
  if_pos holds

theorem demand_fails {condition : Prop} [Decidable condition] (fails : ¬condition) :
    demand condition = .error .refused := if_neg fails

variable {run : Run α} {post post' : α → Prop}

theorem safe_pure {value : α} (holds : post value) : Safe (pure value) post := holds

theorem safe_ok {value : α} (holds : post value) : Safe (.ok value) post := holds

theorem safe_bind {next : α → Run β} {after : β → Prop} (first : Safe run post)
    (rest : ∀ value, post value → Safe (next value) after) : Safe (run >>= next) after := by
  cases run with
  | error stop => exact first
  | ok value => exact rest value first

theorem safe_bind_iff {next : α → Run β} {after : β → Prop} :
    Safe (run >>= next) after ↔ Safe run fun value => Safe (next value) after := by
  cases run with
  | error stop => exact Iff.rfl
  | ok value => exact Iff.rfl

theorem safe_mono (safe : Safe run post) (weaker : ∀ value, post value → post' value) :
    Safe run post' := by
  cases run with
  | error stop => exact safe
  | ok value => exact weaker value safe

theorem safe_load {buffer : List α} {index : Nat} (inside : index < buffer.length) :
    Safe (load buffer index) fun value => value = buffer[index] := by
  rw [load, List.getElem?_eq_getElem inside]
  exact rfl

theorem safe_store {buffer : List α} {index : Nat} {value : α} (inside : index < buffer.length) :
    Safe (store buffer index value) fun buffer' => buffer' = buffer.set index value := by
  rw [store, if_pos inside]
  exact rfl

theorem safe_supplied {value : Option α} : Safe (supplied value) fun result => value = some result := by
  cases value with
  | none => exact rfl
  | some value => exact rfl

theorem safe_demand {condition : Prop} [Decidable condition] : Safe (demand condition) fun _ => condition := by
  unfold demand
  split
  · assumption
  · exact rfl

/-- A step keeps the invariant and decreases the measure, or gives a result. -/
def Proceeds (invariant : σ → Prop) (measure : σ → Nat) (after : ρ → Prop) (s : σ) : σ ⊕ ρ → Prop
  | .inl s' => invariant s' ∧ measure s' < measure s
  | .inr result => after result

theorem safe_iterate {body : σ → Run (σ ⊕ ρ)} {invariant : σ → Prop} {after : ρ → Prop}
    {measure : σ → Nat}
    (step : ∀ s, invariant s → Safe (body s) (Proceeds invariant measure after s)) :
    ∀ steps s, invariant s → measure s < steps → Safe (iterate body steps s) after := by
  intro steps
  induction steps with
  | zero => exact fun _ _ none => absurd none (Nat.not_lt_zero _)
  | succ steps ih =>
    intro s holds enough
    have here := step s holds
    rw [iterate]
    cases result : body s with
    | error stop =>
      rw [result] at here
      exact here
    | ok value =>
      rw [result] at here
      cases value with
      | inl s' =>
        obtain ⟨kept, less⟩ := here
        exact ih s' kept (by omega)
      | inr last => exact here

section Rounds

variable {body : σ → Run (σ ⊕ ρ)} {after : ρ → Prop} {s : σ}

/-- A round of a loop that does not end it. -/
def Next (body : σ → Run (σ ⊕ ρ)) (s s' : σ) : Prop := body s = .ok (.inl s')

/-- A round that ends a loop. -/
def Last (body : σ → Run (σ ⊕ ρ)) (after : ρ → Prop) (s : σ) : Prop :=
  Safe (body s) (Sum.elim (fun _ => False) after)

theorem iterate_next {s' : σ} (next : Next body s s') (steps : Nat) :
    iterate body (steps + 1) s = iterate body steps s' := by
  rw [iterate, next]

theorem iterate_last (last : Last body after s) (steps : Nat) :
    Safe (iterate body (steps + 1) s) after := by
  unfold Last at last
  rw [iterate]
  cases result : body s with
  | error stop =>
    rw [result] at last
    exact last
  | ok value =>
    rw [result] at last
    cases value with
    | inl s' => exact last.elim
    | inr value => exact last

theorem iterate_safe {t : σ} (way : Relation.ReflTransGen (Next body) s t) (last : Last body after t) :
    ∃ enough, ∀ steps, enough ≤ steps → Safe (iterate body steps s) after := by
  induction way using Relation.ReflTransGen.head_induction_on with
  | refl =>
    refine ⟨1, fun steps enough => ?_⟩
    obtain ⟨steps, rfl⟩ : ∃ more, steps = more + 1 := ⟨steps - 1, by omega⟩
    exact iterate_last last steps
  | head next _ ih =>
    obtain ⟨enough, ends⟩ := ih
    refine ⟨enough + 1, fun steps more => ?_⟩
    obtain ⟨steps, rfl⟩ : ∃ more, steps = more + 1 := ⟨steps - 1, by omega⟩
    rw [iterate_next next]
    exact ends steps (by omega)

theorem iterate_ends (steps : Nat) : ∀ s, Safe (iterate body steps s) after →
    ∃ t, Relation.ReflTransGen (Next body) s t ∧ Last body after t := by
  induction steps with
  | zero => exact fun _ safe => Stop.noConfusion safe
  | succ steps ih =>
    intro s safe
    rw [iterate] at safe
    cases result : body s with
    | error stop =>
      rw [result] at safe
      refine ⟨s, .refl, ?_⟩
      rw [Last, result]
      exact safe
    | ok value =>
      rw [result] at safe
      cases value with
      | inl s' =>
        obtain ⟨t, way, last⟩ := ih s' safe
        exact ⟨t, .head result way, last⟩
      | inr value =>
        refine ⟨s, .refl, ?_⟩
        rw [Last, result]
        exact safe

theorem reached_safe {t : σ} {steps : Nat} (way : Relation.ReflTransGen (Next body) s t)
    (safe : Safe (iterate body steps s) after) : Safe (body t) fun _ => True := by
  induction way using Relation.ReflTransGen.head_induction_on generalizing steps with
  | refl =>
    cases steps with
    | zero => exact Stop.noConfusion safe
    | succ steps =>
      rw [iterate] at safe
      cases result : body t with
      | error stop =>
        rw [result] at safe
        exact safe
      | ok value => trivial
  | head next _ ih =>
    cases steps with
    | zero => exact Stop.noConfusion safe
    | succ steps =>
      rw [iterate_next next] at safe
      exact ih safe

theorem rounds_iff {next : σ → σ} {more : σ → Prop}
    (step : ∀ s s', Next body s s' ↔ more s ∧ s' = next s) {t : σ} :
    Relation.ReflTransGen (Next body) s t ↔ ∃ n, t = next^[n] s ∧ ∀ k < n, more (next^[k] s) := by
  constructor
  · intro way
    induction way with
    | refl => exact ⟨0, rfl, fun _ none => absurd none (Nat.not_lt_zero _)⟩
    | tail _ last ih =>
      obtain ⟨n, rfl, goesOn⟩ := ih
      obtain ⟨here, rfl⟩ := (step _ _).mp last
      refine ⟨n + 1, (Function.iterate_succ_apply' next n s).symm, fun k below => ?_⟩
      rcases Nat.lt_succ_iff_lt_or_eq.mp below with earlier | rfl
      · exact goesOn k earlier
      · exact here
  · rintro ⟨n, rfl, goesOn⟩
    induction n with
    | zero => exact .refl
    | succ n ih =>
      refine .tail (ih fun k below => goesOn k (by omega)) ((step _ _).mpr ⟨goesOn n (by omega), ?_⟩)
      exact Function.iterate_succ_apply' next n s

end Rounds

/-! ### Two runs -/

/-- Two runs stop in the same way, or end in related values. -/
def Alike (R : α → α → Prop) : Run α → Run α → Prop
  | .ok value, .ok value' => R value value'
  | .error stop, .error stop' => stop = stop'
  | _, _ => False

theorem alike_bind {R : α → α → Prop} {Q : β → β → Prop} {first first' : Run α} {next next' : α → Run β}
    (before : Alike R first first')
    (rest : ∀ value value', R value value' → Alike Q (next value) (next' value')) :
    Alike Q (first >>= next) (first' >>= next') := by
  cases first with
  | error stop =>
    cases first' with
    | error stop' => exact before
    | ok value' => exact before.elim
  | ok value =>
    cases first' with
    | error stop' => exact before.elim
    | ok value' => exact rest value value' before

theorem alike_iterate {body body' : σ → Run (σ ⊕ ρ)} {R : σ → σ → Prop} {Q : ρ → ρ → Prop}
    (round : ∀ s s', R s s' → Alike (Sum.LiftRel R Q) (body s) (body' s')) :
    ∀ steps s s', R s s' → Alike Q (iterate body steps s) (iterate body' steps s') := by
  intro steps
  induction steps with
  | zero => exact fun _ _ _ => rfl
  | succ steps ih =>
    intro s s' related
    have here := round s s' related
    rw [iterate, iterate]
    cases result : body s with
    | error stop =>
      rw [result] at here
      cases result' : body' s' with
      | error stop' =>
        rw [result'] at here
        exact here
      | ok value' =>
        rw [result'] at here
        exact here.elim
    | ok value =>
      rw [result] at here
      cases result' : body' s' with
      | error stop' =>
        rw [result'] at here
        exact here.elim
      | ok value' =>
        rw [result'] at here
        cases here with
        | inl related => exact ih _ _ related
        | inr related => exact related

/-! ### Loops over a list -/

theorem foldlM_ok {f : σ → α → Run σ} {g : σ → α → σ} {xs : List α}
    (each : ∀ s, ∀ x ∈ xs, f s x = .ok (g s x))
    (s : σ) : xs.foldlM f s = .ok (xs.foldl g s) := by
  induction xs generalizing s with
  | nil => rfl
  | cons x xs ih =>
    rw [List.foldlM_cons, each s x (List.mem_cons_self ..), List.foldl_cons]
    exact ih (fun s x member => each s x (List.mem_cons_of_mem _ member)) _

theorem foldlM_supplied {f : σ → α → Run σ} {g : σ → α → Option σ} {xs : List α}
    (each : ∀ s, ∀ x ∈ xs, f s x = supplied (g s x)) (s : σ) :
    xs.foldlM f s = supplied (xs.foldlM g s) := by
  induction xs generalizing s with
  | nil => rfl
  | cons x xs ih =>
    rw [List.foldlM_cons, each s x (List.mem_cons_self ..), List.foldlM_cons]
    cases g s x with
    | none => rfl
    | some t => exact ih (fun s x member => each s x (List.mem_cons_of_mem _ member)) t

theorem safe_foldlM {f : σ → α → Run σ} {xs : List α} {invariant : σ → Prop}
    (each : ∀ s, invariant s → ∀ x ∈ xs, Safe (f s x) invariant) (s : σ) (holds : invariant s) :
    Safe (xs.foldlM f s) invariant := by
  induction xs generalizing s with
  | nil => exact holds
  | cons x xs ih =>
    rw [List.foldlM_cons]
    refine safe_bind (each s holds x (List.mem_cons_self ..)) fun t kept => ?_
    exact ih (fun s holds x member => each s holds x (List.mem_cons_of_mem _ member)) t kept

theorem forM_demand {f : α → Run Unit} {p : α → Prop} [DecidablePred p] {xs : List α}
    (each : ∀ x ∈ xs, f x = demand (p x)) : xs.forM f = demand (∀ x ∈ xs, p x) := by
  induction xs with
  | nil =>
    rw [demand_holds fun _ none => absurd none List.not_mem_nil]
    rfl
  | cons x xs ih =>
    change (f x >>= fun _ => xs.forM f) = _
    rw [ih fun x member => each x (List.mem_cons_of_mem _ member), each x (List.mem_cons_self ..)]
    by_cases here : p x
    · rw [demand_holds here, ok_bind]
      simp only [demand, List.forall_mem_cons, here, true_and]
    · rw [demand_fails here, error_bind, demand_fails fun all => here (List.forall_mem_cons.mp all).1]

theorem Safe.cases (safe : Safe run post) : (∃ value, run = .ok value ∧ post value) ∨ run =
    .error .refused := by
  cases run with
  | error stop => exact Or.inr (congrArg _ safe)
  | ok value => exact Or.inl ⟨value, rfl, safe⟩

end Checked
