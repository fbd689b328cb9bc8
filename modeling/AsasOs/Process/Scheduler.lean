import AsasOs.Lib.Ring

/-!
# The scheduler

Threads share the processor in turns: a thread that yields looks for the next active one in
the table, round the threads that there have been so far. Which threads are active changes
when one is created or ends, not by a yield.

## Model

- The functions run under one lock, so their calls follow one another.
- A yield is given the stack pointer that the processor has when it is called.
- What a new thread finds on its stack is not part of the model.

## Main results

- `Reached.wellFormed`: what holds of the table at any time.
- `schedulerYield_round`: in as many yields as there are active threads, every one of them runs once.
-/
namespace AsasOs.Process.Scheduler

/-! ### The code -/

def MAX_THREADS : Nat := 16
def THREAD_STACK_SIZE : Nat := 16384

/-- `ASAS_THREAD` -/
structure Thread where
  stackPointer : Nat
  entry : Nat
  active : Bool

structure State where
  threads : Nat → Thread
  currentThread : Nat
  threadCount : Nat
  preemptionEnabled : Bool

def schedulerInitialize : State where
  threads index := ⟨0, 0, index == 0⟩
  currentThread := 0
  threadCount := 1
  preemptionEnabled := false

/-- The stack pointer of a new thread: behind the address of `thread_bootstrap` and eight registers. -/
def firstStackPointer (threadStacks index : Nat) :
    Nat := threadStacks + (index + 1) * THREAD_STACK_SIZE - 9 * 8

/-- `scheduler_create_thread`, with the stacks at the address `threadStacks`. -/
def schedulerCreateThread (threadStacks : Nat) (s : State) (entry : Nat) : State × Bool :=
  match ((List.range (MAX_THREADS - 1)).map (· + 1)).find? fun index => !(s.threads index).active with
  | none => (s, false)
  | some index =>
    ({ s with
        threads := Function.update s.threads index ⟨firstStackPointer threadStacks index, entry, true⟩
        threadCount := if index ≥ s.threadCount then index + 1 else s.threadCount }, true)

/-- The end of `thread_bootstrap`, behind which the thread only yields. -/
def threadEnds (s : State) : State :=
  { s with
    threads := Function.update s.threads s.currentThread { s.threads s.currentThread with active := false } }

/-- The loop of `scheduler_yield`. -/
def findNext (s : State) : Nat → Nat → Option Nat
  | 0, _ => none
  | left + 1, next =>
    let next := (next + 1) % s.threadCount
    if (s.threads next).active then some next else findNext s left next

/-- `context_switch`, to the thread `next`. -/
def contextSwitch (s : State) (stackPointer next : Nat) : State :=
  { s with
    currentThread := next
    threads := Function.update s.threads s.currentThread
      { s.threads s.currentThread with stackPointer := stackPointer } }

/-- `scheduler_yield`: also the thread that the processor is switched to, if it is, and its stack pointer. -/
def schedulerYield (s : State) (stackPointer : Nat) : State × Option (Nat × Nat) :=
  match findNext s s.threadCount s.currentThread with
  | none => (s, none)
  | some next =>
    if next = s.currentThread then (s, none)
    else (contextSwitch s stackPointer next, some (next, (s.threads next).stackPointer))

/-! ### The table -/

/-- The table and the counters agree. -/
structure WellFormed (s : State) : Prop where
  bounded : s.threadCount ≤ MAX_THREADS
  current : s.currentThread < s.threadCount
  counted : ∀ index, (s.threads index).active = true → index < s.threadCount

/-- The states of the scheduler. -/
inductive Reached (threadStacks : Nat) : State → Prop where
  | start : Reached threadStacks schedulerInitialize
  | create {s : State} (before : Reached threadStacks s) (entry : Nat) :
      Reached threadStacks (schedulerCreateThread threadStacks s entry).1
  | ends {s : State} (before : Reached threadStacks s) : Reached threadStacks (threadEnds s)
  | yield {s : State} (before : Reached threadStacks s) (stackPointer : Nat) :
      Reached threadStacks (schedulerYield s stackPointer).1
  | preemption {s : State} (before : Reached threadStacks s) (enabled : Bool) :
      Reached threadStacks { s with preemptionEnabled := enabled }

section Steps

variable {s : State} {threadStacks next : Nat}

theorem findNext_active (left : Nat) : ∀ start, findNext s left start = some next →
    (s.threads next).active = true := by
  induction left with
  | zero => exact nofun
  | succ left ih =>
    intro start found
    rw [findNext] at found
    split at found
    next active =>
      cases found
      exact active
    next => exact ih _ found

theorem schedulerYield_active {stackPointer pointer : Nat}
    (switched : (schedulerYield s stackPointer).2 = some (next, pointer)) :
    (s.threads next).active = true := by
  unfold schedulerYield at switched
  split at switched
  next => cases switched
  next found =>
    split at switched
    · cases switched
    · cases switched
      exact findNext_active _ _ found

theorem schedulerYield_frame (stackPointer : Nat) :
    (schedulerYield s stackPointer).1.threadCount = s.threadCount ∧
      ∀ index, ((schedulerYield s stackPointer).1.threads index).active = (s.threads index).active := by
  unfold schedulerYield
  split
  next => exact ⟨rfl, fun _ => rfl⟩
  next found =>
    split
    · exact ⟨rfl, fun _ => rfl⟩
    · refine ⟨rfl, fun index => ?_⟩
      simp only [contextSwitch]
      by_cases same : index = s.currentThread
      · rw [same, Function.update_self]
      · rw [Function.update_of_ne same]

theorem WellFormed.yield (wellFormed : WellFormed s) (stackPointer : Nat) :
    WellFormed (schedulerYield s stackPointer).1 := by
  obtain ⟨count, active⟩ := @schedulerYield_frame s stackPointer
  refine ⟨count ▸ wellFormed.bounded, ?_, fun index runs => ?_⟩
  · rw [count]
    unfold schedulerYield
    split
    next => exact wellFormed.current
    next found =>
      split
      · exact wellFormed.current
      · exact wellFormed.counted _ (findNext_active _ _ found)
  · rw [active] at runs
    rw [count]
    exact wellFormed.counted index runs

theorem WellFormed.create (wellFormed : WellFormed s) (entry : Nat) :
    WellFormed (schedulerCreateThread threadStacks s entry).1 := by
  unfold schedulerCreateThread
  have bounded := wellFormed.bounded
  have current := wellFormed.current
  split
  next => exact wellFormed
  next index found =>
    have member := List.mem_of_find?_eq_some found
    obtain ⟨slot, below, rfl⟩ := List.mem_map.mp member
    have inside := List.mem_range.mp below
    unfold MAX_THREADS at inside bounded
    refine ⟨?_, ?_, fun other active => ?_⟩
    · change (if slot + 1 ≥ s.threadCount then slot + 1 + 1 else s.threadCount) ≤ 16
      split <;> omega
    · change s.currentThread < if slot + 1 ≥ s.threadCount then slot + 1 + 1 else s.threadCount
      split <;> omega
    · change other < if slot + 1 ≥ s.threadCount then slot + 1 + 1 else s.threadCount
      by_cases same : other = slot + 1
      · split <;> omega
      · simp only [Function.update_of_ne same] at active
        have := wellFormed.counted other active
        split <;> omega

theorem WellFormed.ends (wellFormed : WellFormed s) : WellFormed (threadEnds s) := by
  refine ⟨wellFormed.bounded, wellFormed.current, fun index active => ?_⟩
  by_cases same : index = s.currentThread
  · rw [same]
    exact wellFormed.current
  · simp only [threadEnds, Function.update_of_ne same] at active
    exact wellFormed.counted index active

/-- The table and the counters agree at any time. -/
theorem Reached.wellFormed (reached : Reached threadStacks s) : WellFormed s := by
  induction reached with
  | start =>
    refine ⟨by decide, by decide, fun index active => ?_⟩
    have zero : index = 0 := by simpa [schedulerInitialize] using active
    rw [zero]
    decide
  | create before entry ih => exact ih.create entry
  | ends before ih => exact ih.ends
  | yield before stackPointer ih => exact ih.yield stackPointer
  | preemption before enabled ih => exact ⟨ih.bounded, ih.current, ih.counted⟩

end Steps

/-! ### Turns -/

/-- As many yields as there are stack pointers, one after the other. -/
def yields (s : State) (stackPointers : List Nat) : State :=
  stackPointers.foldl (fun s stackPointer => (schedulerYield s stackPointer).1) s

def activeCount (s : State) : Nat := (List.range MAX_THREADS).countP fun index => (s.threads index).active

/-- The state as a ring: its active slots and the current one. -/
structure Shows {n : Nat} (s : State) (p : Fin n → Bool) (i : Fin n) : Prop where
  count : s.threadCount = n
  active : ∀ k : Fin n, (s.threads k).active = p k
  current : s.currentThread = i

section Turns

variable {n : Nat} [NeZero n] {s : State} {p : Fin n → Bool} {i : Fin n}

theorem Shows.findNext (shows : Shows s p i) (left : Nat) : ∀ start : Fin n,
    findNext s left start = (Ring.seek p left (Ring.slot start 1)).map Fin.val := by
  induction left with
  | zero => exact fun _ => rfl
  | succ left ih =>
    intro start
    have place : (start.val + 1) % s.threadCount = (Ring.slot start 1).val := by
      rw [shows.count]
      rfl
    rw [Scheduler.findNext, Ring.seek, place, shows.active, ih]
    split
    · rfl
    · rfl

theorem Shows.yield (shows : Shows s p i) (active : p i = true) (stackPointer : Nat) :
    Shows (schedulerYield s stackPointer).1 p (Ring.next p i) := by
  obtain ⟨count, same⟩ := @schedulerYield_frame s stackPointer
  refine ⟨count.trans shows.count, fun k => (same k).trans (shows.active k), ?_⟩
  unfold schedulerYield
  rw [shows.current, shows.findNext, shows.count]
  cases found : Ring.seek p n (Ring.slot i 1) with
  | none =>
    have missed := Ring.seek_eq_none.mp found i
    rw [active] at missed
    cases missed
  | some j =>
    have next : Ring.next p i = j := by rw [Ring.next, found, Option.getD_some]
    rw [next, Option.map_some]
    dsimp only
    split
    next same => rw [shows.current, same]
    next => rfl

theorem Shows.yields (shows : Shows s p i) (active : p i = true) (stackPointers : List Nat) :
    Shows (yields s stackPointers) p ((Ring.next p)^[stackPointers.length] i) := by
  induction stackPointers generalizing s i with
  | nil => exact shows
  | cons stackPointer stackPointers ih => exact ih (shows.yield active stackPointer) (Ring.turns_next active).1

theorem WellFormed.yields (wellFormed : WellFormed s) (stackPointers : List Nat) :
    WellFormed (yields s stackPointers) := by
  induction stackPointers generalizing s with
  | nil => exact wellFormed
  | cons stackPointer stackPointers ih => exact ih (wellFormed.yield stackPointer)

theorem Shows.activeCount (shows : Shows s p i) (bounded : n ≤ MAX_THREADS)
    (counted : ∀ index, (s.threads index).active = true → index < n) :
    activeCount s = (Ring.turns p i).length := by
  have perm : (Ring.turns p i).length = (List.finRange n).countP p := by
    rw [Ring.turns, ← List.countP_eq_length_filter]
    exact (Ring.round_perm i).countP_eq p
  have ring : (List.finRange n).countP p = (List.range n).countP fun index => (s.threads index).active := by
    rw [← List.map_coe_finRange_eq_range, List.countP_map]
    exact List.countP_congr fun k _ => by rw [Function.comp_apply, shows.active]
  obtain ⟨more, whole⟩ := Nat.exists_eq_add_of_le bounded
  have beyond : ((List.range more).map (n + ·)).countP (fun index => (s.threads index).active) = 0 := by
    rw [List.countP_eq_zero]
    intro index member runs
    obtain ⟨k, -, rfl⟩ := List.mem_map.mp member
    have := counted _ runs
    omega
  rw [Scheduler.activeCount, whole, List.range_add, List.countP_append, beyond, ← ring, perm, Nat.add_zero]

end Turns

/-- As many yields as there are active threads run every one of them once and end where they began. -/
theorem schedulerYield_round {s : State} (wellFormed : WellFormed s)
    (active : (s.threads s.currentThread).active = true) (stackPointers : List Nat)
    (each : stackPointers.length = activeCount s) :
    (yields s stackPointers).currentThread = s.currentThread ∧
    (∀ thread, (s.threads thread).active = true →
        ∃! k, k < activeCount s ∧ (yields s (stackPointers.take (k + 1))).currentThread = thread) ∧
      ∀ k stackPointer next pointer,
        (schedulerYield (yields s (stackPointers.take k)) stackPointer).2 = some (next, pointer) →
          (s.threads next).active = true := by
  have some_threads : NeZero s.threadCount := ⟨by have := wellFormed.current; omega⟩
  let p : Fin s.threadCount → Bool := fun k => (s.threads k).active
  let i : Fin s.threadCount := ⟨s.currentThread, wellFormed.current⟩
  have shows : Shows s p i := ⟨rfl, fun _ => rfl, rfl⟩
  have here : p i = true := active
  have count := shows.activeCount wellFormed.bounded wellFormed.counted
  have after : ∀ k ≤ activeCount s,
      Shows (yields s (stackPointers.take k)) p ((Ring.next p)^[k] i) := by
    intro k below
    have run := shows.yields here (stackPointers.take k)
    rwa [List.length_take, min_eq_left (by omega)] at run
  refine ⟨?_, fun thread runs => ?_, fun k stackPointer next pointer switched => ?_⟩
  · have last := after (activeCount s) (Nat.le_refl _)
    rw [← each, List.take_length] at last
    rw [last.current, each, count, Ring.iterate_length here]
  · let j : Fin s.threadCount := ⟨thread, wellFormed.counted thread runs⟩
    obtain ⟨k, ⟨below, turn⟩, only⟩ := Ring.turn_of_each (j := j) here runs
    rw [count]
    refine ⟨k, ⟨below, ?_⟩, fun m ⟨inside, reached⟩ => only m ⟨inside, ?_⟩⟩
    · rw [(after (k + 1) (by omega)).current, turn]
    · rw [(after (m + 1) (by omega)).current] at reached
      exact Fin.ext reached
  · have same := shows.yields here (stackPointers.take k)
    have runs := schedulerYield_active switched
    have inside : next < s.threadCount := same.count ▸ (wellFormed.yields _).counted next runs
    have shown := same.active ⟨next, inside⟩
    rw [runs] at shown
    exact shown.symm

/-- Three active threads, with free slots between them. -/
def scattered : State where
  threads index := ⟨0, 0, index == 0 || index == 2 || index == 5⟩
  currentThread := 2
  threadCount := 6
  preemptionEnabled := false

example : (List.range 3).map (fun k => (yields scattered (List.replicate (k + 1) 0)).currentThread) = [5, 0, 2] := by
  decide

theorem schedulerYield_round_scattered : (yields scattered [0, 0, 0]).currentThread = 2 ∧
      (∀ thread, (scattered.threads thread).active = true →
        ∃! k, k < activeCount scattered ∧
        (yields scattered (List.take (k + 1) [0, 0, 0])).currentThread = thread) ∧
      ∀ k stackPointer next pointer,
        (schedulerYield (yields scattered (List.take k [0, 0, 0])) stackPointer).2 =
        some (next, pointer) →
          (scattered.threads next).active = true := by
  have wellFormed : WellFormed scattered := by
    refine ⟨by decide, by decide, fun index active => ?_⟩
    simp only [scattered, Bool.or_eq_true, beq_iff_eq] at active
    change index < 6
    omega
  exact schedulerYield_round wellFormed (by decide) [0, 0, 0] (by decide)

end AsasOs.Process.Scheduler
