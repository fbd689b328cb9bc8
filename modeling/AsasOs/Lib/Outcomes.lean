import AsasOs.Lib.Checked

/-!
# Outcomes of checked runs

A run follows an outcome as long as it stays inside: it gives the value, or refuses its input where
there is none. Outside it is not safe. So a run that follows an outcome is safe just if it is
inside, and the rules take a program apart into the conditions of its accesses.
-/
namespace Checked

variable {α β σ : Type} {run : Run α}

theorem supplied_inj {value value' : Option α} (same : supplied value = supplied value') :
    value = value' := by
  cases value with
  | none =>
    cases value' with
    | none => rfl
    | some _ => cases same
  | some _ =>
    cases value' with
    | none => cases same
    | some _ =>
      cases same
      rfl

theorem ok_of_toOption {value : α} (given : run.toOption = some value) : run = .ok value := by
  cases run with
  | error stop => cases given
  | ok _ =>
    cases given
    rfl

theorem bind_eq_ok_iff {next : α → Run β} {result : β} :
    run >>= next = .ok result ↔ ∃ value, run = .ok value ∧ next value = .ok result := by
  cases run with
  | error stop => exact iff_of_false nofun (by rintro ⟨_, none, -⟩; cases none)
  | ok value =>
    constructor
    · exact fun given => ⟨value, rfl, given⟩
    · rintro ⟨_, same, given⟩
      cases same
      exact given

theorem demand_bind_eq_ok_iff {condition : Prop} [Decidable condition] {next : Unit → Run β}
    {result : β} :
    demand condition >>= next = .ok result ↔ condition ∧ next () = .ok result := by
  unfold demand
  split
  next holds => exact (and_iff_right holds).symm
  next fails => exact iff_of_false nofun fun both => fails both.1

theorem supplied_eq_ok_iff {source : Option α} {value : α} : supplied source = .ok value ↔
    source = some value := by
  cases source with
  | none => exact iff_of_false nofun nofun
  | some _ => exact ⟨fun same => by cases same; rfl, fun same => by cases same; rfl⟩

theorem supplied_bind_eq_ok_iff {source : Option α} {next : α → Run β} {result : β} :
    supplied source >>= next = .ok result ↔ ∃ value, source = some value ∧ next value = .ok result := by
  simp only [bind_eq_ok_iff, supplied_eq_ok_iff]

/-- Inside, a run gives the outcome. Otherwise it is not safe. -/
structure Follows (run : Run α) (inside : Prop) (outcome : Option α) : Prop where
  gives : inside → run = supplied outcome
  leaves : ¬inside → ¬Safe run fun _ => True

variable {inside inside' : Prop} {outcome outcome' : Option α}

theorem Follows.safe_iff (follows : Follows run inside outcome) : Safe run (fun _ => True) ↔ inside := by
  refine ⟨fun safe => Classical.byContradiction fun outside => follows.leaves outside safe, fun here => ?_⟩
  rw [follows.gives here]
  exact safe_mono safe_supplied fun _ _ => trivial

theorem Follows.of_eq (gives : run = supplied outcome) : Follows run True outcome :=
  ⟨fun _ => gives, fun outside => absurd trivial outside⟩

theorem Follows.anyway (here : inside) (gives : run = supplied outcome) : Follows run inside outcome :=
  ⟨fun _ => gives, fun outside => absurd here outside⟩

theorem Follows.refused (here : inside) : Follows (.error .refused : Run α) inside none :=
  ⟨fun _ => rfl, fun outside => absurd here outside⟩

theorem Follows.congr (follows : Follows run inside outcome) (same : inside' ↔ inside)
    (gives : inside → outcome' = outcome) : Follows run inside' outcome' where
  gives here := by rw [follows.gives (same.mp here), gives (same.mp here)]
  leaves outside := follows.leaves fun here => outside (same.mpr here)

theorem Follows.bind_map {τ : Type} {shown : τ → α} {source : Option τ} {next : α → Run β}
    {insideNext : τ → Prop}
    {outcomeNext : τ → Option β} (first : Follows run inside (source.map shown))
    (later : ∀ value, source = some value → Follows (next (shown value)) (insideNext value) (outcomeNext value)) :
    Follows (run >>= next) (inside ∧ ∀ value, source = some value → insideNext value)
      (source.bind outcomeNext) where
  gives := by
    rintro ⟨here, there⟩
    rw [first.gives here]
    cases source with
    | none => rfl
    | some value => exact (later value rfl).gives (there value rfl)
  leaves outside safe := by
    rw [safe_bind_iff] at safe
    have here : inside := first.safe_iff.mp (safe_mono safe fun _ _ => trivial)
    refine outside ⟨here, fun value given => ?_⟩
    rw [first.gives here, given] at safe
    exact (later value given).safe_iff.mp safe

theorem Follows.bind {next : α → Run β} {insideNext : α → Prop} {outcomeNext : α → Option β}
    (first : Follows run inside outcome)
    (later : ∀ value, outcome = some value → Follows (next value) (insideNext value) (outcomeNext value)) :
    Follows (run >>= next) (inside ∧ ∀ value, outcome = some value → insideNext value)
      (outcome.bind outcomeNext) :=
  @bind_map _ _ _ _ _ id _ _ _ _ (by rwa [Option.map_id]) later

theorem Follows.bind_some {value : α} {next : α → Run β} {insideNext : Prop} {outcomeNext : Option β}
    (first : Follows run inside (some value)) (later : Follows (next value) insideNext outcomeNext) :
    Follows (run >>= next) (inside ∧ insideNext) outcomeNext where
  gives := by
    rintro ⟨here, there⟩
    rw [first.gives here]
    exact later.gives there
  leaves outside safe := by
    rw [safe_bind_iff] at safe
    have here : inside := first.safe_iff.mp (safe_mono safe fun _ _ => trivial)
    rw [first.gives here] at safe
    exact outside ⟨here, later.safe_iff.mp safe⟩

theorem Follows.bind_eq {next : α → Run β} {outcomeNext : α → Option β}
    (first : Follows run inside outcome)
    (later : ∀ value, outcome = some value → next value = supplied (outcomeNext value)) :
    Follows (run >>= next) inside (outcome.bind outcomeNext) :=
  (first.bind fun value given => .of_eq (later value given)).congr (and_iff_left fun _ _ => trivial).symm fun _ => rfl

theorem Follows.tried (follows : Follows run inside outcome) :
    Follows (Checked.tried run) inside (some outcome) where
  gives here := by
    rw [follows.gives here]
    cases outcome <;> rfl
  leaves outside safe := by
    refine follows.leaves outside ?_
    cases run with
    | ok value => trivial
    | error stop =>
      cases stop with
      | refused => rfl
      | outside => exact safe
      | endless => exact safe

theorem iterate_succ {ρ : Type} (body : σ → Run (σ ⊕ ρ)) (steps : Nat) (s : σ) :
    iterate body (steps + 1) s = body s >>= Sum.elim (iterate body steps) .ok := by
  rw [iterate]
  cases body s with
  | error stop => rfl
  | ok value => cases value <;> rfl

theorem reached_last {ρ : Type} {body : σ → Run (σ ⊕ ρ)} {after : ρ → Prop} {s t : σ} {result : ρ}
    {steps : Nat}
    (way : Relation.ReflTransGen (Next body) s t) (last : body t = .ok (.inr result))
    (safe : Safe (iterate body steps s) after) : after result := by
  induction way using Relation.ReflTransGen.head_induction_on generalizing steps with
  | refl =>
    cases steps with
    | zero => exact Stop.noConfusion safe
    | succ steps =>
      rw [iterate, last] at safe
      exact safe
  | head next _ ih =>
    cases steps with
    | zero => exact Stop.noConfusion safe
    | succ steps =>
      rw [iterate_next next] at safe
      exact ih safe

theorem safe_discard_iff : Safe (run >>= fun _ => (pure () : Run Unit)) (fun _ => True) ↔ Safe run fun _ => True :=
  safe_bind_iff

theorem access_inside {size index count : Nat} (inside : index + count ≤ size) :
    access size index count = .ok () :=
  if_pos (Or.inr inside)

theorem follows_access {size index count : Nat} (some : count ≠ 0) :
    Follows (access size index count) (index + count ≤ size) (.some ()) where
  gives inside := if_pos (Or.inr inside)
  leaves outside safe := by
    rw [access, if_neg fun or => or.elim some outside] at safe
    exact Stop.noConfusion safe

/-- What holds at each element of a list, as far as the steps over the elements before it come. -/
def Along (inside : σ → α → Prop) (step : σ → α → Option σ) : List α → σ → Prop
  | [], _ => True
  | x :: xs, s => inside s x ∧ ∀ t, step s x = some t → Along inside step xs t

theorem follows_foldlM {τ : Type} {f : σ → α → Run σ} {inside : τ → α → Prop} {step : τ → α → Option τ}
    (shown : τ → σ) (each : ∀ s x, Follows (f (shown s) x) (inside s x) ((step s x).map shown))
    (xs : List α) (s : τ) :
    Follows (xs.foldlM f (shown s)) (Along inside step xs s) ((xs.foldlM step s).map shown) := by
  induction xs generalizing s with
  | nil => exact .of_eq rfl
  | cons x xs ih =>
    rw [List.foldlM_cons, List.foldlM_cons]
    refine (Follows.bind_map (each s x) fun t _ => ih t).congr Iff.rfl fun _ => ?_
    exact Option.map_bind

/-! ### Runs that refuse nothing -/

/-- Inside, a run gives a value. Otherwise an access is outside. -/
structure Given (run : Run α) (inside : Prop) : Prop where
  gives : inside → ∃ value, run = .ok value
  leaves : ¬inside → run = .error .outside

theorem Given.ok {value : α} : Given (.ok value : Run α) True := ⟨fun _ => ⟨value, rfl⟩, fun outside => absurd trivial outside⟩

theorem Given.anyway (here : inside) (gives : ∃ value, run = .ok value) : Given run inside :=
  ⟨fun _ => gives, fun outside => absurd here outside⟩

theorem Given.bind {next : α → Run β} {insideNext : α → Prop} (first : Given run inside)
    (later : ∀ value, run = .ok value → Given (next value) (insideNext value)) :
    Given (run >>= next) (inside ∧ ∀ value, run = .ok value → insideNext value) where
  gives := by
    rintro ⟨here, there⟩
    obtain ⟨value, same⟩ := first.gives here
    rw [same]
    exact (later value same).gives (there value same)
  leaves outside := by
    by_cases here : inside
    · obtain ⟨value, same⟩ := first.gives here
      rw [same]
      refine (later value same).leaves fun there => outside ⟨here, fun other also => ?_⟩
      rw [same] at also
      cases also
      exact there
    · rw [first.leaves here]
      rfl

theorem Given.congr (given : Given run inside) (same : inside' ↔ inside) : Given run inside' :=
  ⟨fun here => given.gives (same.mp here), fun outside => given.leaves fun here => outside (same.mpr here)⟩

theorem eq_supplied (safe : Safe run fun _ => True) : run = supplied run.toOption := by
  cases run with
  | ok value => rfl
  | error stop =>
    cases safe
    rfl

end Checked
