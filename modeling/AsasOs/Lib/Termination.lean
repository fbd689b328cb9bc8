import AsasOs.Lib.Checked

/-!
# Runs with more steps

Code with loops is given a number of steps. A run that does not use them up is the same with more of them, whatever
loops are in its loops. So code terminates if there is a number of steps that it does not use up, and a loop that
goes from one state to the next terminates just if it comes to a state that ends it.

## Main results

- `steady_iterate`, `steady_bind`: more steps change nothing.
- `terminates_bind_iff`: code and what follows it.
- `walk_terminates_iff`: a loop whose rounds go from one state to the next.
-/
namespace Checked

variable {α β σ ρ : Type}

/-- More steps change nothing but a run that has used them up. -/
def Steady (run : Nat → Run α) : Prop := ∀ n m, n ≤ m → run n ≠ .error .endless → run m = run n

/-- From some number of steps on, they are not used up. -/
def Terminates (run : Nat → Run α) : Prop := ∃ enough, ∀ steps, enough ≤ steps →
    run steps ≠ .error .endless

theorem steady_const (run : Run α) : Steady fun _ => run := fun _ _ _ _ => rfl

theorem steady_bind {run : Nat → Run α} {next : Nat → α → Run β} (first : Steady run)
    (later : ∀ value, Steady fun steps => next steps value) : Steady fun steps => run steps >>= next steps := by
  intro n m more settled
  dsimp only at settled ⊢
  have same : run n ≠ .error .endless := by
    intro used
    rw [used] at settled
    exact settled rfl
  rw [first n m more same]
  cases result : run n with
  | error stop => rfl
  | ok value =>
    rw [result] at settled
    exact later value n m more settled

theorem iterate_more {body : Nat → σ → Run (σ ⊕ ρ)} (each : ∀ s, Steady fun steps => body steps s) {n m : Nat}
    (more : n ≤ m) {k l : Nat} (least : k ≤ l) (s : σ)
    (settled : iterate (body n) k s ≠ .error .endless) :
    iterate (body m) l s = iterate (body n) k s := by
  induction k generalizing l s with
  | zero => exact absurd rfl settled
  | succ k ih =>
    obtain ⟨l, rfl⟩ : ∃ less, l = less + 1 := ⟨l - 1, by omega⟩
    rw [iterate] at settled ⊢
    rw [iterate]
    have same : body n s ≠ .error .endless := by
      intro used
      rw [used] at settled
      exact settled rfl
    have given : body m s = body n s := each s n m more same
    rw [given]
    cases result : body n s with
    | error stop => rfl
    | ok value =>
      rw [result] at settled
      cases value with
      | inl t => exact ih (by omega) t settled
      | inr value => rfl

theorem steady_iterate {body : Nat → σ → Run (σ ⊕ ρ)} (each : ∀ s, Steady fun steps => body steps s) (s : σ) :
    Steady fun steps => iterate (body steps) steps s :=
  fun _ _ more settled => iterate_more each more more s settled

theorem steady_loop (body : σ → Run (σ ⊕ ρ)) (s : σ) : Steady fun steps => iterate body steps s :=
  fun _ _ more settled => iterate_more (fun s => steady_const (body s)) (Nat.le_refl 0) more s settled

section Terminating

variable {run : Nat → Run α}

theorem terminates_iff (steady : Steady run) : Terminates run ↔
    ∃ steps, run steps ≠ .error .endless := by
  constructor
  · rintro ⟨enough, settled⟩
    exact ⟨enough, settled enough (Nat.le_refl _)⟩
  · rintro ⟨enough, settled⟩
    refine ⟨enough, fun steps more => ?_⟩
    rw [steady enough steps more settled]
    exact settled

theorem terminates_const {result : Run α} (settled : result ≠ .error .endless) : Terminates fun _ => result :=
  ⟨0, fun _ _ => settled⟩

theorem Steady.agree {run : Nat → Run α} (steady : Steady run) {n m : Nat} {value : α}
    (given : run n = .ok value)
    (settled : run m ≠ .error .endless) : run m = .ok value := by
  have other : run n ≠ .error .endless := by
    rw [given]
    exact nofun
  rcases Nat.le_total n m with less | more
  · rw [steady n m less other, given]
  · rw [← steady m n more settled, given]

/-- Code and what follows it. -/
theorem terminates_bind_iff {next : Nat → α → Run β} (first : Steady run)
    (later : ∀ value, Steady fun steps => next steps value) :
    Terminates (fun steps => run steps >>= next steps) ↔
      Terminates run ∧ ∀ value steps, run steps = .ok value → Terminates fun steps => next steps value := by
  rw [terminates_iff (steady_bind first later), terminates_iff first]
  constructor
  · rintro ⟨steps, settled⟩
    have same : run steps ≠ .error .endless := by
      intro used
      rw [used] at settled
      exact settled rfl
    refine ⟨⟨steps, same⟩, fun value other given => (terminates_iff (later value)).mpr ⟨steps, fun used => settled ?_⟩⟩
    rw [first.agree given same]
    exact used
  · rintro ⟨⟨steps, settled⟩, after⟩
    cases result : run steps with
    | error stop =>
      rw [result] at settled
      refine ⟨steps, fun used => settled ?_⟩
      rw [result, error_bind] at used
      exact congrArg Except.error (Except.error.inj used)
    | ok value =>
      obtain ⟨enough, ends⟩ := after value steps result
      refine ⟨max steps enough, ?_⟩
      rw [first steps _ (Nat.le_max_left _ _) settled, result]
      exact ends _ (Nat.le_max_right _ _)

theorem terminates_bind_const {next : α → Run β} (first : Steady run) :
    Terminates (fun steps => run steps >>= next) ↔
      Terminates run ∧ ∀ value steps, run steps = .ok value → next value ≠ .error .endless := by
  rw [terminates_bind_iff first fun value => steady_const (next value)]
  refine and_congr_right fun _ => forall_congr' fun value => forall_congr' fun steps => forall_congr' fun _ => ?_
  exact ⟨fun ⟨enough, settled⟩ => settled enough (Nat.le_refl _), terminates_const⟩

theorem terminates_iterate_iff {body : Nat → σ → Run (σ ⊕ ρ)} (each : ∀ s, Steady fun steps => body steps s) (s : σ) :
    Terminates (fun steps => iterate (body steps) steps s) ↔ Terminates (fun steps => body steps s) ∧
      ∀ t steps, body steps s = .ok (.inl t) → Terminates fun steps => iterate (body steps) steps t := by
  rw [terminates_iff (steady_iterate each s), terminates_iff (each s)]
  constructor
  · rintro ⟨steps, settled⟩
    cases steps with
    | zero => exact absurd rfl settled
    | succ steps =>
      rw [iterate] at settled
      have same : body (steps + 1) s ≠ .error .endless := by
        intro used
        rw [used] at settled
        exact settled rfl
      refine ⟨⟨_, same⟩, fun t other given => (terminates_iff (steady_iterate each t)).mpr ⟨steps + 1, fun used => ?_⟩⟩
      have agree : body (steps + 1) s = .ok (.inl t) := (each s).agree given same
      rw [agree] at settled
      -- With one step less the rest has ended, and so it has with this many.
      rw [iterate_more each (Nat.le_refl _) (Nat.le_succ _) t settled] at used
      exact settled used
  · rintro ⟨⟨steps, settled⟩, after⟩
    have given (more : Nat) (enough : steps ≤ more) : body more s = body steps s := each s _ _ enough settled
    cases result : body steps s with
    | error stop =>
      refine ⟨steps + 1, ?_⟩
      rw [iterate, given _ (Nat.le_succ _), result]
      intro used
      exact settled (result.trans (congrArg Except.error (Except.error.inj used)))
    | ok value =>
      cases value with
      | inl t =>
        obtain ⟨enough, ends⟩ := after t steps result
        have ended := ends (max steps enough) (Nat.le_max_right _ _)
        refine ⟨max steps enough + 1, ?_⟩
        rw [iterate, given _ (by omega), result]
        dsimp only
        rw [iterate_more each (Nat.le_succ _) (Nat.le_refl _) t ended]
        exact ended
      | inr value =>
        refine ⟨steps + 1, ?_⟩
        rw [iterate, given _ (Nat.le_succ _), result]
        rintro ⟨⟩

/-- A loop whose rounds go from a state to the next one, up to a state that ends it. -/
theorem walk_terminates_iff {body : σ → Run (σ ⊕ ρ)} {more : σ → Prop} {next : σ → σ}
    (goesOn : ∀ s, more s → body s = .ok (.inl (next s)))
    (ends : ∀ s, ¬more s → ∃ outcome : Run ρ, outcome ≠ .error .endless ∧ body s = outcome.map Sum.inr) (s : σ) :
    Terminates (fun steps => iterate body steps s) ↔ ∃ n, ¬more (next^[n] s) := by
  rw [terminates_iff (steady_loop body s)]
  constructor
  · rintro ⟨steps, settled⟩
    induction steps generalizing s with
    | zero => exact absurd rfl settled
    | succ steps ih =>
      by_cases here : more s
      · rw [iterate, goesOn s here] at settled
        obtain ⟨n, last⟩ := ih (next s) settled
        exact ⟨n + 1, last⟩
      · exact ⟨0, here⟩
  · rintro ⟨n, last⟩
    induction n generalizing s with
    | zero =>
      obtain ⟨outcome, settled, same⟩ := ends s last
      refine ⟨1, ?_⟩
      rw [iterate, same]
      cases outcome with
      | error stop => exact settled
      | ok value => rintro ⟨⟩
    | succ n ih =>
      by_cases here : more s
      · obtain ⟨steps, settled⟩ := ih (next s) last
        refine ⟨steps + 1, ?_⟩
        rw [iterate, goesOn s here]
        exact settled
      · obtain ⟨outcome, settled, same⟩ := ends s here
        refine ⟨1, ?_⟩
        rw [iterate, same]
        cases outcome with
        | error stop => exact settled
        | ok value => rintro ⟨⟩

theorem measured_terminates {body : σ → Run (σ ⊕ ρ)} (invariant : σ → Prop) (measure : σ → Nat)
    (round : ∀ s, invariant s → body s ≠ .error .endless ∧
      ∀ t, body s = .ok (.inl t) → invariant t ∧ measure t < measure s) (s : σ) (holds : invariant s) :
    Terminates fun steps => iterate body steps s := by
  refine (terminates_iff (steady_loop body s)).mpr ⟨measure s + 1, ?_⟩
  have all (steps : Nat) (s : σ) (holds : invariant s) (enough : measure s < steps) :
      iterate body steps s ≠ .error .endless := by
    induction steps generalizing s with
    | zero => exact absurd enough (Nat.not_lt_zero _)
    | succ steps ih =>
      obtain ⟨settled, less⟩ := round s holds
      rw [iterate]
      cases result : body s with
      | error stop =>
        rw [result] at settled
        intro used
        exact settled (congrArg Except.error (Except.error.inj used))
      | ok value =>
        cases value with
        | inl t =>
          obtain ⟨kept, fewer⟩ := less t result
          exact ih t kept (by omega)
        | inr value => rintro ⟨⟩
  exact all _ s holds (Nat.lt_succ_self _)

end Terminating

end Checked
