import AsasOs.Memory.Teardown
import Mathlib.Data.Fintype.Card

/-!
# Processes

`process.c`: a table of sixteen slots. A process takes a slot that has never been used since
`process_initialize`. One that is killed leaves its slot in a state of its own, which no
function takes it out of; the count of active processes leaves it out.

## Model

- Nothing but `process_create` and `process_kill` changes the state of a slot. Other code
  changes memory, and takes and frees frames.

## Main results

- `Reached.pids_distinct`: live processes have different identifiers.
- `processCreate_iff`: when a process can be created although sixteen are not active.
-/
namespace AsasOs.Processes

open AsasOs.Memory

def ASAS_MAX_PROCESSES : Nat := 16

/-- `ASAS_PROCESS_STATE` -/
inductive ProcessState
  | unused | ready | running | blocked | exited
  deriving DecidableEq, Repr

/-- `ASAS_PROCESS`; an address space is its root table, or zero. -/
structure Process where
  pid : Nat
  state : ProcessState
  addressSpace : Nat
  userEntry : Nat
  userStack : Nat

abbrev Index := Fin ASAS_MAX_PROCESSES

structure State where
  processes : Index → Process
  nextPid : Nat
  machine : Machine

def processInitialize (machine : Machine) : State where
  processes _ := ⟨0, .unused, 0, 0, 0⟩
  nextPid := 1
  machine := machine

/-- `process_create`: the slot of the new process. -/
def processCreate (s : State) (kernelPml4 : Nat) : State × Option Index :=
  match (List.finRange ASAS_MAX_PROCESSES).find? fun index => (s.processes index).state = .unused with
  | none => (s, none)
  | some index =>
    match pagingCreateAddressSpace s.machine kernelPml4 with
    | (machine, pml4) =>
      if pml4 = 0 then ({ s with machine }, none)
      else
        ({ processes := Function.update s.processes index
            { s.processes index with pid := s.nextPid, state := .ready, addressSpace := pml4 }
           nextPid := (s.nextPid + 1) % 2 ^ 32
           machine := machine }, some index)

/-- A slot that counts as a process. -/
def Process.Live (process : Process) : Prop := process.state ≠ .unused ∧ process.state ≠ .exited

instance (process : Process) : Decidable process.Live := inferInstanceAs (Decidable (_ ∧ _))

def processActiveCount (s : State) : Nat :=
  (List.finRange ASAS_MAX_PROCESSES).countP fun index => (s.processes index).Live

def processKill (s : State) (pid : Nat) : State × Bool :=
  match (List.finRange ASAS_MAX_PROCESSES).find? fun index =>
      (s.processes index).pid = pid ∧ (s.processes index).state ≠ .unused with
  | none => (s, false)
  | some index =>
    ({ s with
        processes := Function.update s.processes index
          { s.processes index with state := .exited, addressSpace := 0, userEntry := 0, userStack := 0 }
        machine := pagingDestroyAddressSpace s.machine (s.processes index).addressSpace }, true)

/-! ### Histories -/

/-- The states of the process table. -/
inductive Reached : State → Prop
  | start (machine : Machine) : Reached (processInitialize machine)
  | create {s : State} (before : Reached s) (kernelPml4 : Nat) : Reached (processCreate s kernelPml4).1
  | kill {s : State} (before : Reached s) (pid : Nat) : Reached (processKill s pid).1
  | elsewhere {s : State} (before : Reached s) (machine : Machine) : Reached { s with machine }

/-- The slots that have been taken. -/
def used (s : State) : Finset Index := Finset.univ.filter fun index => (s.processes index).state ≠ .unused

/-- Every process has taken an identifier of its own, and a slot. -/
structure WellFormed (s : State) : Prop where
  counted : s.nextPid = (used s).card + 1
  pids : ∀ index, (s.processes index).state ≠ .unused → (s.processes index).pid < s.nextPid
  distinct : ∀ i j, (s.processes i).state ≠ .unused → (s.processes j).state ≠ .unused →
    (s.processes i).pid = (s.processes j).pid → i = j

section Steps

variable {s : State} {index : Index}

theorem mem_used : index ∈ used s ↔ (s.processes index).state ≠ .unused := by
  rw [used, Finset.mem_filter, and_iff_right (Finset.mem_univ index)]

theorem used_bounded : (used s).card ≤ ASAS_MAX_PROCESSES := by
  have bound := Finset.card_le_univ (used s)
  rwa [Fintype.card_fin] at bound

theorem WellFormed.taken (wellFormed : WellFormed s) (free : (s.processes index).state = .unused)
    {process : Process} (ready : process.state ≠ .unused) (pid : process.pid = s.nextPid)
    (machine : Machine) :
    WellFormed ⟨Function.update s.processes index process, s.nextPid + 1, machine⟩ := by
  have here : Function.update s.processes index process index = process := Function.update_self ..
  have others : ∀ other, other ≠ index → Function.update s.processes index process other = s.processes other :=
    fun other apart => Function.update_of_ne apart ..
  refine ⟨?_, ?_, ?_⟩
  · have slots : used ⟨Function.update s.processes index process, s.nextPid + 1, machine⟩ =
        insert index (used s) := by
      ext other
      rw [Finset.mem_insert, mem_used, mem_used]
      dsimp only
      by_cases same : other = index
      · rw [same, here]
        exact iff_of_true ready (.inl rfl)
      · rw [others other same, or_iff_right same]
    rw [slots, Finset.card_insert_of_notMem (fun member => mem_used.mp member free), ← wellFormed.counted]
  · intro other running
    dsimp only at running ⊢
    by_cases same : other = index
    · rw [same, here, pid]
      exact Nat.lt_succ_self _
    · rw [others other same] at running ⊢
      exact Nat.lt_succ_of_lt (wellFormed.pids other running)
  · intro i j first second equal
    dsimp only at first second equal
    by_cases atI : i = index
    · by_cases atJ : j = index
      · rw [atI, atJ]
      · rw [atI, here, others j atJ, pid] at equal
        rw [others j atJ] at second
        exact absurd equal.symm (Nat.ne_of_lt (wellFormed.pids j second))
    · rw [others i atI] at first equal
      by_cases atJ : j = index
      · rw [atJ, here, pid] at equal
        exact absurd equal (Nat.ne_of_lt (wellFormed.pids i first))
      · rw [others j atJ] at second equal
        exact wellFormed.distinct i j first second equal

theorem WellFormed.create (wellFormed : WellFormed s) (kernelPml4 : Nat) :
    WellFormed (processCreate s kernelPml4).1 := by
  unfold processCreate
  split
  next => exact wellFormed
  next index found =>
    dsimp only
    split
    next => exact ⟨wellFormed.counted, wellFormed.pids, wellFormed.distinct⟩
    next =>
      -- sixteen identifiers do not wrap
      have number : (s.nextPid + 1) % 2 ^ 32 = s.nextPid + 1 := by
        have counted := wellFormed.counted
        have bounded := @used_bounded s
        unfold ASAS_MAX_PROCESSES at bounded
        omega
      rw [number]
      exact wellFormed.taken (by simpa using List.find?_some found) (by simp) rfl _

theorem WellFormed.kill (wellFormed : WellFormed s) (pid : Nat) : WellFormed (processKill s pid).1 := by
  unfold processKill
  split
  next => exact wellFormed
  next index found =>
    have running : (s.processes index).state ≠ .unused := by
      have holds := List.find?_some found
      simp only [decide_eq_true_eq] at holds
      exact holds.2
    have same : ∀ other, ((Function.update s.processes index
        { s.processes index with state := .exited, addressSpace := 0, userEntry := 0, userStack := 0 }) other).pid =
          (s.processes other).pid ∧
        (((Function.update s.processes index
          { s.processes index with state := .exited, addressSpace := 0, userEntry := 0, userStack := 0 }) other).state ≠
            .unused ↔ (s.processes other).state ≠ .unused) := by
      intro other
      by_cases here : other = index
      · rw [here, Function.update_self]
        exact ⟨rfl, iff_of_true (nofun : ProcessState.exited ≠ .unused) running⟩
      · rw [Function.update_of_ne here]
        exact ⟨rfl, Iff.rfl⟩
    refine ⟨?_, fun other taken => ?_, fun i j first second equal => ?_⟩
    · rw [wellFormed.counted]
      congr 2
      ext other
      rw [mem_used, mem_used]
      exact (same other).2.symm
    · exact (same other).1 ▸ wellFormed.pids other ((same other).2.mp taken)
    · rw [(same i).1, (same j).1] at equal
      exact wellFormed.distinct i j ((same i).2.mp first) ((same j).2.mp second) equal

theorem Reached.wellFormed (reached : Reached s) : WellFormed s := by
  induction reached with
  | start machine =>
    refine ⟨?_, fun index taken => absurd rfl taken, fun i j first => absurd rfl first⟩
    have none_used : used (processInitialize machine) = ∅ := by
      ext index
      rw [mem_used]
      exact iff_of_false (fun taken => taken rfl) (Finset.notMem_empty index)
    rw [none_used]
    rfl
  | create before kernelPml4 ih => exact ih.create kernelPml4
  | kill before pid ih => exact ih.kill pid
  | elsewhere before machine ih => exact ⟨ih.counted, ih.pids, ih.distinct⟩

/-- Live processes have different identifiers. -/
theorem Reached.pids_distinct (reached : Reached s) (i j : Index) (first : (s.processes i).Live)
    (second : (s.processes j).Live) (equal : (s.processes i).pid = (s.processes j).pid) : i = j :=
  reached.wellFormed.distinct i j first.1 second.1 equal

theorem processCreate_succeeds {kernelPml4 : Nat} (frame : (frameAllocate s.machine.allocator).2 ≠ 0) :
    (processCreate s kernelPml4).2.isSome ↔ ∃ index, (s.processes index).state = .unused := by
  have root : (pagingCreateAddressSpace s.machine kernelPml4).2 ≠ 0 := by
    rw [pagingCreateAddressSpace]
    dsimp only
    rw [if_neg frame]
    exact frame
  unfold processCreate
  split
  next none_free =>
    refine iff_of_false (by simp) ?_
    rintro ⟨index, free⟩
    have taken := List.find?_eq_none.mp none_free index (List.mem_finRange index)
    exact taken (decide_eq_true free)
  next index found =>
    dsimp only
    rw [if_neg root]
    exact iff_of_true rfl ⟨index, by simpa using List.find?_some found⟩

theorem processActiveCount_lt : processActiveCount s < ASAS_MAX_PROCESSES ↔
    ∃ index, (s.processes index).state = .unused ∨ (s.processes index).state = .exited := by
  have bound : processActiveCount s ≤ ASAS_MAX_PROCESSES := by
    have most := @List.countP_le_length Index (fun index => decide (s.processes index).Live)
      (List.finRange ASAS_MAX_PROCESSES)
    rwa [List.length_finRange] at most
  have all : processActiveCount s = ASAS_MAX_PROCESSES ↔
      ∀ index ∈ List.finRange ASAS_MAX_PROCESSES, decide (s.processes index).Live = true := by
    rw [← List.countP_eq_length, List.length_finRange, processActiveCount]
  rw [lt_iff_le_and_ne, and_iff_right bound, ne_eq, all]
  simp only [decide_eq_true_eq, List.mem_finRange, true_imp_iff, not_forall]
  refine exists_congr fun index => ?_
  rw [Process.Live, not_and_or, not_not, not_not]

/-- **Process slots**: with a frame to be had, a process can be created whenever fewer than sixteen are active,
and live processes have different identifiers, exactly if a slot has never been used or no process has been
killed. -/
theorem processCreate_iff (reached : Reached s) (kernelPml4 : Nat)
    (frame : (frameAllocate s.machine.allocator).2 ≠ 0) :
    ((processActiveCount s < ASAS_MAX_PROCESSES → (processCreate s kernelPml4).2.isSome) ∧
      ∀ i j, (s.processes i).Live → (s.processes j).Live →
      (s.processes i).pid = (s.processes j).pid → i = j) ↔
    (∃ index, (s.processes index).state = .unused) ∨ ∀ index, (s.processes index).state ≠ .exited := by
  rw [and_iff_left reached.pids_distinct, processCreate_succeeds frame, processActiveCount_lt]
  constructor
  · intro creates
    by_cases killed : ∃ index, (s.processes index).state = .exited
    · obtain ⟨index, exited⟩ := killed
      exact .inl (creates ⟨index, .inr exited⟩)
    · exact .inr (not_exists.mp killed)
  · rintro (free | none_killed) ⟨index, unused | exited⟩
    · exact free
    · exact free
    · exact ⟨index, unused⟩
    · exact absurd exited (none_killed index)

end Steps

/-- Processes are created, as many as there are slots. -/
def createAll (s : State) : Nat → State
  | 0 => s
  | count + 1 => (processCreate (createAll s count) 0).1

theorem createAll_reached {s : State} (reached : Reached s) (count : Nat) :
    Reached (createAll s count) := by
  induction count with
  | zero => exact reached
  | succ count ih => exact ih.create 0

/-- Sixteen processes, of which the first one has been killed. -/
def killedOne : State := (processKill (createAll (processInitialize bootMachine) 16) 1).1

/-- One of sixteen processes is killed. Then fifteen are active, there is a frame, and no process can be created. -/
theorem processCreate_lost : Reached killedOne ∧ processActiveCount killedOne = 15 ∧
    (frameAllocate killedOne.machine.allocator).2 ≠ 0 ∧ (processCreate killedOne 0).2 = none :=
  ⟨(createAll_reached (.start bootMachine) 16).kill 1, by decide +kernel, by decide +kernel, by decide +kernel⟩

/-- After the start a process can be created. -/
theorem processCreate_iff_start : (processCreate (processInitialize bootMachine) 0).2.isSome :=
  ((processCreate_iff (.start bootMachine) 0 (by decide +kernel)).mpr (.inl ⟨⟨0, by decide⟩, rfl⟩)).1 (by decide)

end AsasOs.Processes
