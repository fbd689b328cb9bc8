import AsasOs.Lib.Prog

/-!
# What a completed program has called

The transcript of a run is the list of the calls that a program makes, each with its
response. A fallible program that runs to its end is taken apart into its calls: the
transcript of a sequence is that of its parts, one after the other.
-/
namespace Prog

variable {Op : Type} {Res : Op → Type} {α β σ : Type}

/-- The calls of a run with their responses. -/
def transcript (handle : (op : Op) → σ → Res op × σ) : Prog Op Res α → σ → List (Sigma Res)
  | .pure _, _ => []
  | .call op next, s =>
    let answered := handle op s
    ⟨op, answered.1⟩ :: transcript handle (next answered.1) answered.2

/-- A program runs to its end, with these calls, and returns a value. -/
def Completed (handle : (op : Op) → σ → Res op × σ) (x : Fallible Op Res α) (s : σ)
    (calls : List (Sigma Res)) (value : α) (s' : σ) : Prop :=
  run handle x.run s = (some value, s') ∧ transcript handle x.run s = calls

variable {handle : (op : Op) → σ → Res op × σ} {s s' : σ} {calls : List (Sigma Res)} {value : α}

theorem transcript_bind (p : Prog Op Res α) (f : α → Prog Op Res β) (s : σ) :
    transcript handle (p >>= f) s =
      transcript handle p s ++ transcript handle (f (run handle p s).1) (run handle p s).2 := by
  induction p generalizing s with
  | pure value => rfl
  | call op next ih =>
    change _ :: transcript handle (next (handle op s).1 >>= f) (handle op s).2 = _
    rw [ih]
    rfl

theorem transcript_answered {p : Prog Op Res α} {s : σ} {answered : Sigma Res}
    (member : answered ∈ transcript handle p s) : ∃ s', answered.2 = (handle answered.1 s').1 := by
  induction p generalizing s with
  | pure value => cases member
  | call op next ih =>
    rcases List.mem_cons.mp member with rfl | later
    · exact ⟨s, rfl⟩
    · exact ih _ later

theorem completed_of_run {x : Fallible Op Res α} (done : (run handle x.run s).1 = some value) :
    Completed handle x s (transcript handle x.run s) value (run handle x.run s).2 :=
  ⟨by rw [← done], rfl⟩

theorem completed_pure {result : α} :
    Completed handle (Pure.pure value : Fallible Op Res α) s calls result s' ↔
      calls = [] ∧ result = value ∧ s' = s := by
  constructor
  · rintro ⟨done, rfl⟩
    cases done
    exact ⟨rfl, rfl, rfl⟩
  · rintro ⟨rfl, rfl, rfl⟩
    exact ⟨rfl, rfl⟩

theorem completed_bind {x : Fallible Op Res β} {f : β → Fallible Op Res α} :
    Completed handle (x >>= f) s calls value s' ↔
      ∃ first middle here later, Completed handle x s here first middle ∧
        Completed handle (f first) middle later value s' ∧ calls = here ++ later := by
  unfold Completed
  rw [OptionT.run_bind, Option.elimM, run_bind, transcript_bind]
  constructor
  · rintro ⟨done, rfl⟩
    cases result : run handle x.run s with
    | mk returned middle =>
      rw [result] at done
      cases returned with
      | none => cases done
      | some first => exact ⟨first, middle, _, _, ⟨rfl, rfl⟩, ⟨done, rfl⟩, rfl⟩
  · rintro ⟨first, middle, here, later, ⟨ran, rfl⟩, ⟨done, rfl⟩, rfl⟩
    rw [ran]
    exact ⟨done, rfl⟩

theorem completed_ofOption {found : Option α} :
    Completed handle (ofOption found) s calls value s' ↔ calls = [] ∧ found = some value ∧ s' = s := by
  constructor
  · rintro ⟨done, rfl⟩
    obtain ⟨rfl, rfl⟩ := Prod.mk.inj done
    exact ⟨rfl, rfl, rfl⟩
  · rintro ⟨rfl, rfl, rfl⟩
    exact ⟨rfl, rfl⟩

theorem completed_guard {p : Prop} [Decidable p] {result : Unit} :
    Completed handle (guard p : Fallible Op Res Unit) s calls result s' ↔ calls = [] ∧ p ∧ s' = s := by
  by_cases holds : p
  · rw [guard, if_pos holds, completed_pure]
    exact ⟨fun ⟨empty, _, same⟩ => ⟨empty, holds, same⟩, fun ⟨empty, _, same⟩ => ⟨empty, rfl, same⟩⟩
  · simp only [guard, if_neg holds]
    constructor
    · rintro ⟨done, -⟩
      cases done
    · exact fun impossible => absurd impossible.2.1 holds

theorem completed_lift {op : Op} {response : Res op} :
    Completed handle (liftM (perform op : Prog Op Res (Res op)) : Fallible Op Res (Res op)) s calls
        response s' ↔
      handle op s = (response, s') ∧ calls = [⟨op, response⟩] := by
  constructor
  · rintro ⟨done, made⟩
    obtain ⟨first, last⟩ := Prod.mk.inj done
    obtain rfl := Option.some.inj first
    obtain rfl := last
    exact ⟨rfl, made.symm⟩
  · rintro ⟨answered, rfl⟩
    constructor
    · change (some (handle op s).1, (handle op s).2) = _
      rw [answered]
    · change [(⟨op, (handle op s).1⟩ : Sigma Res)] = _
      rw [answered]

end Prog
