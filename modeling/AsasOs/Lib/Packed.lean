import AsasOs.Lib.Bytes

/-!
# Records packed one after another

A stretch of memory that holds records of different lengths one after another, each of
which tells its own length. A walk visits the records and gives up when one of them
does not fit; what it does at a record, it does with a state, and it may stop there.
Walks over the same records are compared step by step, and a walk depends on the
memory that it visits only.
-/
namespace Packed

open Bytes

variable {σ τ : Type}

/-- How many bytes a record has at least, and the length that the record at a position tells
in these bytes. -/
structure Format where
  header : Nat
  size : (Nat → UInt8) → Nat → Nat
  header_pos : 0 < header
  size_congr : ∀ memory memory' position position',
    (∀ i < header, memory' (position' + i) = memory (position + i)) →
      size memory' position' = size memory position

/-- Whether to go on after a record. -/
inductive Step (σ : Type) where
  | next (state : σ)
  | stop (state : σ)

variable (F : Format)

/-- Visit the records from `position` on, of which none reaches beyond `total`. -/
def walk (memory : Nat → UInt8) (total : Nat) (body : Nat → σ → Option (Step σ)) : Nat → Nat → σ →
    Option σ
  | 0, _, state => some state
  | fuel + 1, position, state =>
    if position + F.header ≤ total then
      let size := F.size memory position
      if size < F.header || size > total - position then none
      else
        match body position state with
        | none => none
        | some (.stop state) => some state
        | some (.next state) => walk memory total body fuel (position + size) state
    else some state

/-- Every record that a walk meets takes up at least one byte, so that this is enough. -/
def visit (memory : Nat → UInt8) (total : Nat) (body : Nat → σ → Option (Step σ))
    (position : Nat) (state : σ) : Option σ :=
  walk F memory total body (total + 1) position state

/-- There is a record at a position that ends before `total`. -/
structure Fits (memory : Nat → UInt8) (total position : Nat) : Prop where
  room : position + F.header ≤ total
  large : F.header ≤ F.size memory position
  inside : position + F.size memory position ≤ total

variable {F} {memory memory' : Nat → UInt8} {total position fuel fuel' d : Nat}
  {body : Nat → σ → Option (Step σ)} {body' : Nat → τ → Option (Step τ)} {state : σ} {state' : τ}

theorem walk_fits (fits : Fits F memory total position) :
    walk F memory total body (fuel + 1) position state =
      match body position state with
      | none => none
      | some (.stop state) => some state
      | some (.next state) => walk F memory total body fuel (position + F.size memory position) state := by
  have large := fits.large
  have inside := fits.inside
  rw [walk, if_pos fits.room]
  simp only
  rw [if_neg (by simp only [Bool.or_eq_true, decide_eq_true_eq]; omega)]

theorem walk_end (after : total < position + F.header) :
    walk F memory total body fuel position state = some state := by
  cases fuel with
  | zero => rfl
  | succ fuel => rw [walk, if_neg (by omega)]

theorem walk_misfit (room : position + F.header ≤ total) (misfit : ¬Fits F memory total position) :
    walk F memory total body (fuel + 1) position state = none := by
  rw [walk, if_pos room]
  simp only
  rw [if_pos]
  simp only [Bool.or_eq_true, decide_eq_true_eq]
  by_contra fine
  exact misfit ⟨room, by omega, by omega⟩

/-- Steps that go on with states related by `R`, or stop with states related by `Q`. -/
inductive Steps (R Q : σ → τ → Prop) : Step σ → Step τ → Prop where
  | next {s : σ} {t : τ} (related : R s t) : Steps R Q (.next s) (.next t)
  | stop {s : σ} {t : τ} (related : Q s t) : Steps R Q (.stop s) (.stop t)

theorem walk_both {R : Nat → σ → τ → Prop} {Q : σ → τ → Prop}
    (step : ∀ position s t a b, Fits F memory total position → R position s t →
      body position s = some a → body' position t = some b →
        Steps (R (position + F.size memory position)) Q a b)
    (finish : ∀ position s t, R position s t → Q s t) :
    ∀ fuel position s t s' t', R position s t → walk F memory total body fuel position s = some s' →
      walk F memory total body' fuel position t = some t' → Q s' t' := by
  intro fuel
  induction fuel with
  | zero =>
    intro position s t s' t' related first second
    cases first
    cases second
    exact finish _ _ _ related
  | succ fuel ih =>
    intro position s t s' t' related first second
    by_cases room : position + F.header ≤ total
    · by_cases fits : Fits F memory total position
      · rw [walk_fits fits] at first second
        cases one : body position s with
        | none =>
          rw [one] at first
          cases first
        | some a =>
          cases other : body' position t with
          | none =>
            rw [other] at second
            cases second
          | some b =>
            rw [one] at first
            rw [other] at second
            cases step position s t a b fits related one other with
            | next related' => exact ih _ _ _ _ _ related' first second
            | stop related' =>
              cases first
              cases second
              exact related'
      · rw [walk_misfit room fits] at first
        cases first
    · rw [walk_end (by omega)] at first second
      cases first
      cases second
      exact finish _ _ _ related

theorem walk_fuel (enough : total < position + fuel) (enough' : total < position + fuel') :
    walk F memory total body fuel position state = walk F memory total body fuel' position state := by
  have some := F.header_pos
  induction fuel generalizing fuel' position state with
  | zero => rw [walk_end (by omega), walk_end (by omega)]
  | succ fuel ih =>
    by_cases room : position + F.header ≤ total
    · obtain ⟨fuel', rfl⟩ : ∃ n, fuel' = n + 1 := ⟨fuel' - 1, by omega⟩
      by_cases fits : Fits F memory total position
      · have large := fits.large
        rw [walk_fits fits, walk_fits fits]
        cases body position state with
        | none => rfl
        | some step =>
          cases step with
          | stop state => rfl
          | next state => exact ih (by omega) (by omega)
      · rw [walk_misfit room fits, walk_misfit room fits]
    · rw [walk_end (by omega), walk_end (by omega)]

theorem visit_fits (fits : Fits F memory total position) : visit F memory total body position state =
      match body position state with
      | none => none
      | some (.stop state) => some state
      | some (.next state) => visit F memory total body (position + F.size memory position) state := by
  have some := F.header_pos
  have large := fits.large
  rw [visit, walk_fits fits]
  cases body position state with
  | none => rfl
  | some step =>
    cases step with
    | stop state => rfl
    | next state => exact walk_fuel (by omega) (by omega)

theorem visit_both {R : Nat → σ → τ → Prop} {Q : σ → τ → Prop} {s' : σ} {t' : τ}
    (step : ∀ position s t a b, Fits F memory total position → R position s t →
      body position s = some a → body' position t = some b →
        Steps (R (position + F.size memory position)) Q a b)
    (finish : ∀ position s t, R position s t → Q s t) (related : R position state state')
    (first : visit F memory total body position state = some s')
    (second : visit F memory total body' position state' = some t') : Q s' t' :=
  walk_both step finish _ _ _ _ _ _ related first second

theorem visit_keeps {R : Nat → σ → Prop} {Q : σ → Prop} {s' : σ}
    (step : ∀ position s, Fits F memory total position → R position s → match body position s with
      | some (.next s') => R (position + F.size memory position) s'
      | some (.stop s') => Q s'
      | none => True)
    (finish : ∀ position s, R position s → Q s) (holds : R position state)
    (done : visit F memory total body position state = some s') : Q s' := by
  -- A walk beside itself.
  refine (visit_both (R := fun position s t => s = t ∧ R position s)
    (Q := fun s t => s = t ∧ Q s) ?_ ?_ ⟨rfl, holds⟩ done done).2
  · rintro position s t a b fits ⟨rfl, here⟩ one other
    rw [one] at other
    obtain rfl := Option.some.inj other
    have kept := step position s fits here
    rw [one] at kept
    cases a with
    | next after => exact .next ⟨rfl, kept⟩
    | stop after => exact .stop ⟨rfl, kept⟩
  · exact fun position s t related => ⟨related.1, finish position s related.2⟩

end Packed
