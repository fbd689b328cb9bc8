/-!
# Runs of events

A state that changes by events, and a condition on the events that may happen in it.
`Reaches` says that some allowed events lead from one state to another; an invariant of
the allowed events is an invariant of every such run.
-/
namespace Trace

variable {σ ε : Type} {apply : σ → ε → σ} {allowed allowed' : σ → ε → Prop} {s t u : σ}

/-- Some allowed events lead from one state to another. -/
inductive Reaches (apply : σ → ε → σ) (allowed : σ → ε → Prop) : σ → σ → Prop where
  | refl (s : σ) : Reaches apply allowed s s
  | step {s t : σ} {e : ε} (first : allowed s e) (rest : Reaches apply allowed (apply s e) t) :
      Reaches apply allowed s t

namespace Reaches

theorem of_eq (same : s = t) : Reaches apply allowed s t := by
  subst same
  exact .refl s

theorem one {e : ε} (only : allowed s e) : Reaches apply allowed s (apply s e) :=
  .step only (.refl _)

theorem trans (first : Reaches apply allowed s t) (second : Reaches apply allowed t u) :
    Reaches apply allowed s u := by
  induction first with
  | refl _ => exact second
  | step here _ ih => exact .step here (ih second)

theorem mono (reaches : Reaches apply allowed s t)
    (weaker : ∀ s e, allowed s e → allowed' s e) : Reaches apply allowed' s t := by
  induction reaches with
  | refl _ => exact .refl _
  | step here _ ih => exact .step (weaker _ _ here) ih

theorem preserves {Inv : σ → Prop} (event : ∀ s e, Inv s → allowed s e → Inv (apply s e))
    (reaches : Reaches apply allowed s t) : Inv s → Inv t := by
  induction reaches with
  | refl _ => exact id
  | step here _ ih => exact fun inv => ih (event _ _ inv here)

end Reaches

end Trace
