import Mathlib.Data.List.DropRight
import Mathlib.Data.Nat.Find

/-!
# Runs of free elements in a list that grows

A scan counts free elements that follow one another until there are enough of them. When
there are not, the list is continued and scanned again from its beginning, and the scan
takes the run at the end of the list along. What it finds then need not be a run: the free
elements at the beginning are counted as if they followed those at the end.

## Main results

- `scan_spec`: what one scan finds.
- `rounds_iff`: when the scans of a growing list find a run.
-/
namespace Runs

variable {α : Type} (free : α → Bool)

/-- The number of free elements at the beginning. -/
def leading (xs : List α) : Nat := (xs.takeWhile free).length

/-- The number of free elements at the end. -/
def trailing (xs : List α) : Nat := (xs.rtakeWhile free).length

/-- The elements from `start` on begin with so many free ones. -/
def RunAt (needed start : Nat) (xs : List α) : Prop := needed ≤ leading free (xs.drop start)

/-- A run that is being counted. -/
structure Run where
  length : Nat
  start : Nat

/-- Scan a list whose first element has the given index. -/
def scan (needed : Nat) : Nat → List α → Run → Nat ⊕ Run
  | _, [], run => .inr run
  | index, x :: rest, run =>
    if free x then
      let start := if run.length = 0 then index else run.start
      if run.length + 1 = needed then .inl start
      else scan needed (index + 1) rest ⟨run.length + 1, start⟩
    else scan needed (index + 1) rest ⟨0, run.start⟩

variable {free} {xs ys front rest : List α} {x : α} {needed start c s : Nat} {run : Run}

/-! ### Free elements at both ends -/

theorem leading_le : leading free xs ≤ xs.length := (List.takeWhile_sublist free).length_le

theorem leading_append : leading free (xs ++ ys) =
    if leading free xs = xs.length then xs.length + leading free ys else leading free xs := by
  unfold leading
  rw [List.takeWhile_append]
  split
  · rw [List.length_append]
  · rfl

theorem leading_all (all : ∀ x ∈ xs, free x = true) : leading free xs = xs.length := by
  rw [leading, List.takeWhile_eq_self_iff.mpr all]

theorem all_of_leading (whole : leading free xs = xs.length) : ∀ x ∈ xs, free x = true := by
  have same : xs.takeWhile free = xs := (List.takeWhile_prefix free).eq_of_length whole
  exact List.takeWhile_eq_self_iff.mp same

theorem le_leading_iff : needed ≤ leading free xs ↔ ∀ i < needed, ∃ x, xs[i]? = some x ∧
    free x = true := by
  constructor
  · intro enough i low
    obtain ⟨back, split⟩ := List.takeWhile_prefix free (l := xs)
    have inside : i < (xs.takeWhile free).length := Nat.lt_of_lt_of_le low enough
    refine ⟨(xs.takeWhile free)[i], ?_, List.mem_takeWhile_imp (List.getElem_mem inside)⟩
    conv_lhs => rw [← split]
    rw [List.getElem?_append_left inside, List.getElem?_eq_getElem inside]
  · intro all
    have long : (xs.take needed).length = needed := by
      rw [List.length_take]
      by_contra short
      obtain ⟨x, here, -⟩ := all xs.length (by omega)
      rw [List.getElem?_eq_none (Nat.le_refl _)] at here
      cases here
    have front : leading free (xs.take needed) = needed := by
      rw [← long]
      conv_lhs => rw [long]
      refine leading_all fun x member => ?_
      obtain ⟨i, low, same⟩ := List.mem_iff_getElem.mp member
      rw [long] at low
      obtain ⟨y, here, isFree⟩ := all i low
      rw [List.getElem_take] at same
      obtain ⟨_, there⟩ := List.getElem?_eq_some_iff.mp here
      rw [← same, there]
      exact isFree
    have whole : xs = xs.take needed ++ xs.drop needed := (List.take_append_drop _ _).symm
    rw [whole, leading_append, long, if_pos front]
    exact Nat.le_add_right _ _

theorem runAt_iff : RunAt free needed start xs ↔
    ∀ i < needed, ∃ x, xs[start + i]? = some x ∧ free x = true := by
  rw [RunAt, le_leading_iff]
  simp only [List.getElem?_drop]

theorem trailing_concat : trailing free (xs ++ [x]) = if free x then trailing free xs + 1 else 0 := by
  unfold trailing
  rw [List.rtakeWhile_concat]
  split
  · rw [List.length_append, List.length_singleton]
  · rfl

theorem trailing_le : trailing free xs ≤ xs.length :=
  (List.rtakeWhile_suffix free xs).length_le

theorem leading_drop_trailing : leading free ((xs ++ ys).drop (xs.length - trailing free xs)) =
    trailing free xs + leading free ys := by
  have suffix := List.suffix_iff_eq_drop.mp (List.rtakeWhile_suffix free xs)
  have all : leading free (xs.rtakeWhile free) = (xs.rtakeWhile free).length :=
    leading_all fun x member => List.mem_rtakeWhile_imp member
  rw [List.drop_append_of_le_length (Nat.sub_le _ _), trailing, ← suffix, leading_append, if_pos all]

theorem runAt_trailing : RunAt free needed (xs.length - trailing free xs) (xs ++ ys) ↔
    needed ≤ trailing free xs + leading free ys := by
  rw [RunAt, leading_drop_trailing]

theorem length_le_trailing (all : ∀ x ∈ xs.drop start, free x = true) :
    xs.length - start ≤ trailing free xs := by
  have split : xs.reverse = (xs.drop start).reverse ++ (xs.take start).reverse := by
    rw [← List.reverse_append, List.take_append_drop]
  have same : trailing free xs = leading free xs.reverse := by
    rw [trailing, List.rtakeWhile, List.length_reverse, leading]
  have whole : leading free (xs.drop start).reverse = (xs.drop start).reverse.length :=
    leading_all fun x member => all x (List.mem_reverse.mp member)
  rw [same, split, leading_append, if_pos whole, List.length_reverse, List.length_drop]
  exact Nat.le_add_right _ _

theorem trailing_all (whole : leading free xs = xs.length) : trailing free xs = xs.length := by
  have all : ∀ x ∈ xs.drop 0, free x = true := all_of_leading whole
  exact Nat.le_antisymm trailing_le (length_le_trailing all)

theorem RunAt.append (here : RunAt free needed start xs) : RunAt free needed start (xs ++ ys) := by
  unfold RunAt at here ⊢
  rw [List.drop_append, leading_append]
  split
  · rename_i whole
    omega
  · exact here

theorem RunAt.of_concat (here : RunAt free needed start (xs ++ [x])) :
    RunAt free needed start xs ∨ needed ≤ trailing free (xs ++ [x]) := by
  unfold RunAt at here ⊢
  by_cases low : start ≤ xs.length
  · rw [List.drop_append_of_le_length low, leading_append] at here
    split at here
    · rename_i whole
      by_cases isFree : free x = true
      · refine Or.inr ?_
        have all : ∀ y ∈ (xs ++ [x]).drop start, free y = true := by
          intro y member
          rw [List.drop_append_of_le_length low] at member
          rcases List.mem_append.mp member with old | new
          · exact all_of_leading whole y old
          · rw [List.mem_singleton.mp new]
            exact isFree
        have long := length_le_trailing all
        have short : leading free [x] ≤ 1 := leading_le
        rw [List.length_append, List.length_singleton] at long
        rw [List.length_drop] at here
        omega
      · refine Or.inl ?_
        have none : leading free [x] = 0 := by
          rw [leading, List.takeWhile_cons_of_neg isFree]
          rfl
        rw [none] at here
        rw [whole]
        exact here
    · exact Or.inl here
  · have short : leading free ((xs ++ [x]).drop start) ≤ ((xs ++ [x]).drop start).length := leading_le
    rw [List.length_drop, List.length_append, List.length_singleton] at short
    omega

/-! ### One scan -/

/-- The run after `front`, when the scan began with a run of `c` elements from `s` on. As long
as all elements are free, that run goes on. -/
structure Carried (free : α → Bool) (c s : Nat) (front : List α) (run : Run) : Prop where
  whole : leading free front = front.length →
    run.length = c + front.length ∧ (run.length ≠ 0 → run.start = if c = 0 then 0 else s)
  part : leading free front ≠ front.length →
    run.length = trailing free front ∧ (run.length ≠ 0 → run.start = front.length - run.length)

theorem Carried.nil : Carried free c s ([] : List α) ⟨c, s⟩ where
  whole := fun _ => ⟨rfl, fun some => (if_neg some).symm⟩
  part := fun impossible => absurd rfl impossible

theorem leading_concat : leading free (front ++ [x]) = (front ++ [x]).length ↔
    leading free front = front.length ∧ free x = true := by
  have low : leading free front ≤ front.length := leading_le
  constructor
  · intro whole
    have all := all_of_leading whole
    exact ⟨leading_all fun y member => all y (List.mem_append_left _ member),
      all x (List.mem_append_right _ List.mem_cons_self)⟩
  · rintro ⟨whole, isFree⟩
    refine leading_all fun y member => ?_
    rcases List.mem_append.mp member with old | new
    · exact all_of_leading whole y old
    · rw [List.mem_singleton.mp new]
      exact isFree

theorem leading_concat_part (part : leading free (front ++ [x]) ≠ (front ++ [x]).length) :
    leading free (front ++ [x]) = leading free front := by
  rw [leading_append]
  split
  · rename_i whole
    have used : ¬free x = true := fun isFree => part (leading_concat.mpr ⟨whole, isFree⟩)
    have none : leading free [x] = 0 := by
      rw [leading, List.takeWhile_cons_of_neg used]
      rfl
    rw [none, whole, Nat.add_zero]
  · rfl

theorem Carried.trailing_le (carried : Carried free c s front run) :
    trailing free front ≤ run.length := by
  by_cases whole : leading free front = front.length
  · rw [(carried.whole whole).1, trailing_all whole]
    exact Nat.le_add_left _ _
  · exact (carried.part whole).1.ge

theorem Carried.free_element (carried : Carried free c s front run) (isFree : free x = true) :
    Carried free c s (front ++ [x]) ⟨run.length + 1, if run.length = 0 then front.length else run.start⟩ where
  whole := by
    intro all
    obtain ⟨length, from_start⟩ := carried.whole (leading_concat.mp all).1
    refine ⟨?_, fun _ => ?_⟩
    · rw [List.length_append, List.length_singleton]
      dsimp only
      omega
    · dsimp only
      by_cases none : run.length = 0
      · have begins : c = 0 ∧ front.length = 0 := by omega
        rw [if_pos none, if_pos begins.1, begins.2]
      · rw [if_neg none]
        exact from_start none
  part := by
    intro notAll
    have notFront : leading free front ≠ front.length :=
      fun all => notAll (leading_concat.mpr ⟨all, isFree⟩)
    obtain ⟨length, from_start⟩ := carried.part notFront
    rw [trailing_concat, if_pos isFree, List.length_append, List.length_singleton]
    dsimp only
    refine ⟨by rw [length], fun _ => ?_⟩
    by_cases none : run.length = 0
    · rw [if_pos none, none]
      omega
    · rw [if_neg none, from_start none]
      omega

theorem Carried.used_element (used : ¬free x = true) : Carried free c s (front ++ [x]) ⟨0, start⟩ where
  whole := fun all => absurd (leading_concat.mp all).2 used
  part := fun _ => ⟨by rw [trailing_concat, if_neg used], fun impossible => absurd rfl impossible⟩

/-- What is left of a scan that has found nothing. -/
structure Missed (free : α → Bool) (needed c s : Nat) (front : List α) (run : Run) : Prop
    extends Carried free c s front run where
  short : run.length < needed
  few : c + leading free front < needed
  nowhere : ∀ start, ¬RunAt free needed start front

theorem Missed.concat {run' : Run} (missed : Missed free needed c s front run)
    (carried : Carried free c s (front ++ [x]) run') (short : run'.length < needed) :
    Missed free needed c s (front ++ [x]) run' where
  toCarried := carried
  short := short
  few := by
    by_cases whole : leading free (front ++ [x]) = (front ++ [x]).length
    · rw [whole, ← (carried.whole whole).1]
      exact short
    · rw [leading_concat_part whole]
      exact missed.few
  nowhere := by
    intro start here
    rcases here.of_concat with old | long
    · exact missed.nowhere start old
    · exact absurd (long.trans carried.trailing_le) (by omega)

theorem scan_from : ∀ {front : List α} {run : Run}, Missed free needed c s front run →
    match scan free needed front.length rest run with
    | .inl place => if needed ≤ c + leading free (front ++ rest) then
        place = if c = 0 then 0 else s
      else RunAt free needed place (front ++ rest)
    | .inr run => Missed free needed c s (front ++ rest) run := by
  induction rest with
  | nil =>
    intro front run missed
    rw [List.append_nil]
    exact missed
  | cons x rest ih =>
    intro front run missed
    have concat : front ++ x :: rest = front ++ [x] ++ rest := by
      rw [List.append_assoc]
      rfl
    have length : (front ++ [x]).length = front.length + 1 := by
      rw [List.length_append, List.length_singleton]
    have next := @ih (front ++ [x])
    rw [length] at next
    rw [scan, concat]
    by_cases isFree : free x = true
    · have grown := missed.toCarried.free_element isFree
      rw [if_pos isFree]
      dsimp only
      generalize (if run.length = 0 then front.length else run.start) = place at grown ⊢
      by_cases found : run.length + 1 = needed
      · rw [if_pos found]
        dsimp only
        by_cases all : leading free (front ++ [x]) = (front ++ [x]).length
        · -- all elements up to here were free, and the first run is the one that is found
          obtain ⟨counted, begins⟩ := grown.whole all
          have enough : needed ≤ c + leading free (front ++ [x] ++ rest) := by
            rw [leading_append, if_pos all]
            dsimp only at counted
            omega
          rw [if_pos enough]
          exact begins (Nat.succ_ne_zero _)
        · obtain ⟨counted, begins⟩ := grown.part all
          have before : leading free (front ++ [x]) = leading free front := by
            rw [leading_append, if_neg fun whole => all (leading_concat.mpr ⟨whole, isFree⟩)]
          have few := missed.few
          rw [leading_append, if_neg all, before, if_neg (by omega)]
          have here : place = (front ++ [x]).length - trailing free (front ++ [x]) := by
            rw [← counted]
            exact begins (Nat.succ_ne_zero _)
          rw [here, runAt_trailing, ← counted]
          dsimp only
          omega
      · rw [if_neg found]
        have short := missed.short
        exact next (missed.concat grown (by dsimp only; omega))
    · rw [if_neg isFree]
      have short := missed.short
      exact next (missed.concat (Carried.used_element isFree) (by dsimp only; omega))

/-- The scan of a whole list. -/
theorem scan_spec (free : α → Bool) (xs : List α) (s : Nat) (short : c < needed) :
    match scan free needed 0 xs ⟨c, s⟩ with
    | .inl place => if needed ≤ c + leading free xs then place = if c = 0 then 0 else s
      else RunAt free needed place xs
    | .inr run => Missed free needed c s xs run := by
  have start : Missed free needed c s ([] : List α) ⟨c, s⟩ := by
    refine ⟨.nil, short, short, fun start here => ?_⟩
    rw [RunAt, List.drop_nil] at here
    exact absurd here (by rw [leading, List.takeWhile_nil, List.length_nil]; omega)
  exact scan_from start

theorem scan_zero {index : Nat} : ∃ left, scan free 0 index xs run = .inr left := by
  induction xs generalizing index run with
  | nil => exact ⟨run, rfl⟩
  | cons x rest ih =>
    rw [scan]
    split
    · dsimp only
      rw [if_neg (Nat.succ_ne_zero _)]
      exact ih
    · exact ih

/-! ### The scans of a growing list -/

/-- The scans of the lists `content 0`, `content 1`, ..., until one of them finds something. -/
def rounds (free : α → Bool) (needed : Nat) (content : Nat → List α) : Nat → Nat ⊕ Run
  | 0 => scan free needed 0 (content 0) ⟨0, 0⟩
  | k + 1 =>
    match rounds free needed content k with
    | .inl place => .inl place
    | .inr run => scan free needed 0 (content (k + 1)) run

/-- The free elements at the end of a list and those at the beginning of its continuation
are enough together only if those at the end and the ones that directly follow them are. -/
def Seamless (free : α → Bool) (needed : Nat) (content more : Nat → List α) : Prop :=
  ∀ k, (∀ start, ¬RunAt free needed start (content k)) →
    needed ≤ trailing free (content k) + leading free (content (k + 1)) →
    needed ≤ trailing free (content k) + leading free (more k)

/-- A list that is continued again and again, after the first time by free elements only. -/
structure Growing (free : α → Bool) (content more : Nat → List α) : Prop where
  next : ∀ k, content (k + 1) = content k ++ more k
  blank : ∀ k, leading free (more (k + 1)) = (more (k + 1)).length
  longer : ∀ k, more (k + 1) ≠ []
  steady : ∀ k, (more (k + 2)).length ≤ (content (k + 1)).length

section Rounds

variable {content more : Nat → List α} {k r place : Nat}

theorem Growing.continued (growing : Growing free content more) {j : Nat} (before : j ≤ k) :
    ∃ rest, content k = content j ++ rest := by
  induction k, before using Nat.le_induction with
  | base => exact ⟨[], (List.append_nil _).symm⟩
  | succ k _ ih =>
    obtain ⟨rest, same⟩ := ih
    exact ⟨rest ++ more k, by rw [growing.next, same, List.append_assoc]⟩

theorem rounds_none : ∃ run, rounds free 0 content k = .inr run := by
  induction k with
  | zero => exact scan_zero
  | succ k ih =>
    obtain ⟨run, before⟩ := ih
    rw [rounds, before]
    exact scan_zero

theorem rounds_missed (positive : 0 < needed) (missed : rounds free needed content k = .inr run) :
    ∃ c s, (k = 0 → c = 0) ∧ (∀ j, k = j + 1 → rounds free needed content j = .inr ⟨c, s⟩) ∧
      Missed free needed c s (content k) run := by
  induction k generalizing run with
  | zero =>
    have spec := scan_spec free (content 0) 0 positive
    rw [show scan free needed 0 (content 0) ⟨0, 0⟩ = .inr run from missed] at spec
    exact ⟨0, 0, fun _ => rfl, nofun, spec⟩
  | succ k ih =>
    rw [rounds] at missed
    cases before : rounds free needed content k with
    | inl place =>
      rw [before] at missed
      cases missed
    | inr carried =>
      rw [before] at missed
      obtain ⟨c, s, -, -, earlier⟩ := ih before
      have spec := scan_spec free (content (k + 1)) carried.start earlier.short
      rw [show scan free needed 0 (content (k + 1)) ⟨carried.length, carried.start⟩ = .inr run
        from missed] at spec
      refine ⟨carried.length, carried.start, nofun, ?_, spec⟩
      rintro j same
      cases same
      exact before

/-- What is taken into the next round. -/
structure Left (free : α → Bool) (needed : Nat) (xs : List α) (run : Run) : Prop where
  short : run.length < needed
  nowhere : ∀ start, ¬RunAt free needed start xs
  low : trailing free xs ≤ run.length
  start : run.length ≠ 0 → run.start = xs.length - trailing free xs
  exact : leading free xs ≠ xs.length → run.length = trailing free xs

theorem Missed.left (missed : Missed free needed c s xs run)
    (whole : leading free xs = xs.length → c ≠ 0 → s = 0) : Left free needed xs run where
  short := missed.short
  nowhere := missed.nowhere
  low := missed.toCarried.trailing_le
  start := by
    intro some
    by_cases all : leading free xs = xs.length
    · rw [(missed.whole all).2 some, trailing_all all, Nat.sub_self]
      split
      · rfl
      · exact whole all ‹_›
    · obtain ⟨length, begins⟩ := missed.part all
      rw [begins some, length]
  exact := fun part => (missed.part part).1

theorem rounds_left (growing : Growing free content more) (positive : 0 < needed)
    (missed : rounds free needed content k = .inr run) : Left free needed (content k) run := by
  induction k generalizing run with
  | zero =>
    obtain ⟨c, s, none, -, here⟩ := rounds_missed positive missed
    exact here.left fun _ some => absurd (none rfl) some
  | succ k ih =>
    obtain ⟨c, s, -, before, here⟩ := rounds_missed positive missed
    have earlier := ih (before k rfl)
    refine here.left fun all some => ?_
    -- the list before was free as a whole, too
    have front : leading free (content k) = (content k).length := by
      refine leading_all fun x member => all_of_leading all x ?_
      rw [growing.next]
      exact List.mem_append_left _ member
    have start : s = (content k).length - trailing free (content k) := earlier.start some
    rw [start, trailing_all front, Nat.sub_self]

theorem rounds_zero (positive : 0 < needed) (missed : rounds free needed content 0 = .inr run) :
    run.length = trailing free (content 0) := by
  obtain ⟨c, s, none, -, here⟩ := rounds_missed positive missed
  by_cases all : leading free (content 0) = (content 0).length
  · rw [(here.whole all).1, none rfl, trailing_all all, Nat.zero_add]
  · exact (here.part all).1

theorem RunAt.length_le (here : RunAt free needed start xs) : needed ≤ xs.length := by
  have low : leading free (xs.drop start) ≤ (xs.drop start).length := leading_le
  rw [List.length_drop] at low
  unfold RunAt at here
  omega

theorem Growing.whole_next (growing : Growing free content more)
    (whole : leading free (content (k + 1)) = (content (k + 1)).length) :
    leading free (content (k + 2)) = (content (k + 2)).length := by
  rw [growing.next, leading_append, if_pos whole, growing.blank, List.length_append]

theorem Growing.whole_later (growing : Growing free content more)
    (whole : leading free (content (k + 1)) = (content (k + 1)).length) (j : Nat) :
    leading free (content (k + 1 + j)) = (content (k + 1 + j)).length := by
  induction j with
  | zero => exact whole
  | succ j ih =>
    rw [show k + 1 + j = k + j + 1 by omega] at ih
    rw [show k + 1 + (j + 1) = k + j + 2 by omega]
    exact growing.whole_next ih

theorem Growing.unbounded (growing : Growing free content more) (bound : Nat) :
    bound ≤ (content (bound + 1)).length := by
  induction bound with
  | zero => exact Nat.zero_le _
  | succ bound ih =>
    have more_than := List.length_pos_iff.mpr (growing.longer bound)
    rw [growing.next, List.length_append]
    omega

theorem Seamless.whole (seamless : Seamless free needed content more)
    (growing : Growing free content more)
    (whole : leading free (content (k + 1)) = (content (k + 1)).length) :
    needed ≤ (content (k + 2)).length := by
  by_contra long
  -- the first list that is long enough, and the two before it
  have exists_enough : ∃ m, needed ≤ (content m).length := ⟨needed + 1, growing.unbounded needed⟩
  have enough := Nat.find_spec exists_enough
  have least : ∀ m < Nat.find exists_enough, ¬needed ≤ (content m).length :=
    fun m => Nat.find_min exists_enough
  generalize Nat.find exists_enough = m at enough least
  have late : k + 2 < m := by
    by_contra early
    obtain ⟨rest, same⟩ := growing.continued (Nat.le_of_not_lt early)
    rw [same, List.length_append] at long
    omega
  obtain ⟨j, rfl⟩ : ∃ j, m = k + j + 3 := ⟨m - (k + 3), by omega⟩
  have before := growing.whole_later whole j
  rw [show k + 1 + j = k + j + 1 by omega] at before
  have here := growing.whole_next before
  have short : ¬needed ≤ (content (k + j + 2)).length := least (k + j + 2) (by omega)
  have length : (content (k + j + 2)).length =
      (content (k + j + 1)).length + (more (k + j + 1)).length := by
    rw [growing.next, List.length_append]
  have length' : (content (k + j + 3)).length =
      (content (k + j + 2)).length + (more (k + j + 2)).length := by
    rw [growing.next, List.length_append]
  have steady : (more (k + j + 2)).length ≤ (content (k + j + 1)).length := growing.steady (k + j)
  have nowhere : ∀ start, ¬RunAt free needed start (content (k + j + 1)) := by
    intro start there
    have low := there.length_le
    omega
  have found : _ → needed ≤ _ := seamless (k + j + 1) nowhere
  rw [trailing_all before, here, growing.blank] at found
  have enough' := found (by omega)
  omega

/-- The scans of a growing list find a run exactly if the search is seamless. -/
theorem rounds_iff (growing : Growing free content more) (positive : 0 < needed)
    (found : rounds free needed content r = .inl place)
    (first : ∀ k < r, ∃ run, rounds free needed content k = .inr run) :
    RunAt free needed place (content r) ↔ Seamless free needed content more := by
  constructor
  · intro here k nowhere enough
    have before : k < r := by
      by_contra later
      obtain ⟨rest, same⟩ := growing.continued (Nat.le_of_not_lt later)
      refine nowhere place ?_
      rw [same]
      exact here.append
    obtain ⟨run, missed⟩ := first k before
    have left := rounds_left growing positive missed
    have spec := scan_spec free (content (k + 1)) run.start left.short
    have low := left.low
    cases next : scan free needed 0 (content (k + 1)) run with
    | inr later =>
      rw [next] at spec
      have few := spec.few
      omega
    | inl place' =>
      -- the run that was taken along was found in the next round
      have there : rounds free needed content (k + 1) = .inl place' := by
        rw [rounds, missed]
        exact next
      have last : r = k + 1 := by
        by_contra further
        obtain ⟨later, missed'⟩ := first (k + 1) (by omega)
        rw [there] at missed'
        cases missed'
      subst last
      rw [there] at found
      cases found
      rw [next] at spec
      dsimp only at spec
      rw [if_pos (by omega)] at spec
      rw [growing.next] at here
      by_cases none : run.length = 0
      · rw [if_pos none] at spec
        rw [spec] at here
        have low := left.low
        by_cases all : leading free (content k) = (content k).length
        · have length := trailing_all all
          have nothing : content k = [] := List.length_eq_zero_iff.mp (by omega)
          rw [nothing] at here ⊢
          exact Nat.le_trans here (Nat.le_add_left _ _)
        · refine absurd ?_ (nowhere 0)
          rw [RunAt, List.drop_zero, leading_append, if_neg all] at here
          exact here
      · rw [if_neg none, left.start none] at spec
        rw [spec] at here
        exact runAt_trailing.mp here
  · intro seamless
    cases r with
    | zero =>
      have spec := scan_spec free (content 0) 0 positive
      rw [show scan free needed 0 (content 0) ⟨0, 0⟩ = .inl place from found] at spec
      dsimp only at spec
      split at spec
      · rename_i enough
        rw [spec, if_pos rfl, RunAt, List.drop_zero]
        omega
      · exact spec
    | succ k =>
      obtain ⟨run, missed⟩ := first k (Nat.lt_succ_self k)
      have left := rounds_left growing positive missed
      have spec := scan_spec free (content (k + 1)) run.start left.short
      rw [rounds, missed] at found
      rw [show scan free needed 0 (content (k + 1)) ⟨run.length, run.start⟩ = .inl place
        from found] at spec
      dsimp only at spec
      split at spec
      · rename_i enough
        by_cases none : run.length = 0
        · rw [spec, if_pos none, RunAt, List.drop_zero]
          omega
        · rw [spec, if_neg none, left.start none, growing.next, runAt_trailing]
          by_cases all : leading free (content k) = (content k).length
          · cases k with
            | zero =>
              rw [rounds_zero positive missed] at enough
              exact seamless 0 left.nowhere enough
            | succ k =>
              have long := seamless.whole growing all
              rw [growing.next, List.length_append] at long
              rw [trailing_all all, growing.blank]
              exact long
          · rw [left.exact all] at enough
            exact seamless k left.nowhere enough
      · exact spec

end Rounds

end Runs
