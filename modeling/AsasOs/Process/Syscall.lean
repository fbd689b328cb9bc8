import AsasOs.Process.FileCalls
import Mathlib.Tactic.Ring

/-!
# System calls

`syscall.c`: the range check on user pointers, and what the calls do with the pointers that
pass it. `logger_write` reads its message up to the terminating zero, `vfs_open` reads the
bytes of its path one by one, and `vfs_read` stores what it has read.

## Main result

- `syscall_confined_iff`: when the check and the accesses of a call agree.
-/
namespace AsasOs.Process.Syscall

open Footprint

def ASAS_SYSCALL_VERIFY : UInt64 := 1
def ASAS_SYSCALL_GETPID : UInt64 := 2
def ASAS_SYSCALL_WRITE : UInt64 := 3
def ASAS_SYSCALL_EXIT : UInt64 := 4
def ASAS_SYSCALL_OPEN : UInt64 := 5
def ASAS_SYSCALL_READ : UInt64 := 6

def userBase : Nat := 0x1000
def userLimit : Nat := 0x0000800000000000

/-- The bytes of the address space. -/
abbrev Memory := UInt64 → UInt8

/-- How a call ends: its result, unless the processor halts for good, the range that was checked
and the addresses that were read or written through the pointer. -/
structure Outcome where
  result : Option UInt64
  checked : Option (UInt64 × UInt64)
  touched : Set UInt64

/-- `is_user_pointer`; the sum wraps. -/
def isUserPointer (address length : UInt64) : Bool :=
  if address < 0x1000 then false
  else if address ≥ 0x0000800000000000 then false
  else if length > 0 ∧ address + length > 0x0000800000000000 then false
  else true

def run (pointer : UInt64) (count : Nat) : Set UInt64 :=
  {address | ∃ i < count, address = pointer + UInt64.ofNat i}

/-- The addresses of a string and of its terminating zero. -/
def stringBytes (memory : Memory) (pointer : UInt64) : Set UInt64 :=
  {address | ∃ i : Nat, address = pointer + UInt64.ofNat i ∧ ∀ j < i, memory (pointer + UInt64.ofNat j) ≠ 0}

/-- The path behind a pointer. -/
def pathAt (memory : Memory) (pointer : UInt64) : Path := fun i => memory (pointer + UInt64.ofNat i)

/-- The addresses of the bytes of a path at these offsets. -/
def bytesAt (pointer : UInt64) (offsets : List Nat) : Set UInt64 :=
  {address | ∃ i ∈ offsets, address = pointer + UInt64.ofNat i}

def syscallDispatch (vfs : VfsView) (memory : Memory)
    (number argument0 argument1 argument2 : UInt64) : Outcome :=
  if number = ASAS_SYSCALL_VERIFY ∧ argument0 = 0x41534153 then ⟨some 1, none, ∅⟩
  else if number = ASAS_SYSCALL_GETPID then ⟨some 1, none, ∅⟩
  else if number = ASAS_SYSCALL_WRITE then
    if isUserPointer argument0 argument1 = false then
      ⟨some (-1), some (argument0, argument1), ∅⟩
    else ⟨some argument1, some (argument0, argument1), stringBytes memory argument0⟩
  else if number = ASAS_SYSCALL_EXIT then ⟨none, none, ∅⟩
  else if number = ASAS_SYSCALL_OPEN then
    if isUserPointer argument0 1 = false then ⟨some 0, some (argument0, 1), ∅⟩
    else
      let opened := vfsOpen (pathAt memory argument0) vfs
      ⟨some (UInt64.ofNat opened.value), some (argument0, 1), bytesAt argument0 opened.trace⟩
  else if number = ASAS_SYSCALL_READ then
    if isUserPointer argument1 argument2 = false then
      ⟨some 0, some (argument1, argument2), ∅⟩
    else
      let (result, stored) := vfsRead vfs argument0.toNat argument2.toNat
      ⟨some (UInt64.ofNat result), some (argument1, argument2), run argument1 stored⟩
  else ⟨some (-1), none, ∅⟩

/-! ### What the check is for -/

/-- An address that a user program may pass. -/
def InUser (address : Nat) : Prop := userBase ≤ address ∧ address < userLimit

/-- The bytes of a range all lie in user space. -/
def RangeInUser (address length : UInt64) : Prop :=
  ∀ i < length.toNat, InUser (address.toNat + i)

/-- The check is right about its range, what is touched lies in user space, and nothing but the
range that was checked is touched. -/
structure Confined (outcome : Outcome) : Prop where
  exact : ∀ address length, outcome.checked = some (address, length) →
    (isUserPointer address length = true ↔ RangeInUser address length)
  inUser : ∀ touched ∈ outcome.touched, InUser touched.toNat
  inRange : ∀ touched ∈ outcome.touched, ∃ address length, outcome.checked = some (address, length) ∧
    address.toNat ≤ touched.toNat ∧ touched.toNat < address.toNat + length.toNat

/-! ### The range check -/

section Check

variable {address length : UInt64}

theorem isUserPointer_iff : isUserPointer address length = true ↔ InUser address.toNat ∧
    (0 < length.toNat → (address.toNat + length.toNat) % 2 ^ 64 ≤ userLimit) := by
  have low : address < 0x1000 ↔ address.toNat < userBase := UInt64.lt_iff_toNat_lt
  have high : address ≥ 0x0000800000000000 ↔ userLimit ≤ address.toNat := UInt64.le_iff_toNat_le
  have some_length : length > 0 ↔ 0 < length.toNat := UInt64.lt_iff_toNat_lt
  have beyond : address + length > 0x0000800000000000 ↔
      userLimit < (address.toNat + length.toNat) % 2 ^ 64 := by
    rw [← UInt64.toNat_add]
    exact UInt64.lt_iff_toNat_lt
  unfold isUserPointer InUser
  simp only [low, high, some_length, beyond]
  split
  · simp only [Bool.false_eq_true, false_iff]
    omega
  · split
    · simp only [Bool.false_eq_true, false_iff]
      omega
    · split
      · simp only [Bool.false_eq_true, false_iff]
        omega
      · simp only [true_iff]
        omega

theorem rangeInUser_iff : RangeInUser address length ↔ length.toNat = 0 ∨
    InUser address.toNat ∧ address.toNat + length.toNat ≤ userLimit := by
  constructor
  · intro all
    rcases Nat.eq_zero_or_pos length.toNat with zero | positive
    · exact .inl zero
    · have first := all 0 positive
      have last := all (length.toNat - 1) (by omega)
      refine .inr ⟨first, ?_⟩
      have below := last.2
      omega
  · rintro (zero | ⟨inside, fits⟩) i below
    · omega
    · exact ⟨by have base := inside.1; omega, by omega⟩

/-- The ranges on which the check is right: an empty one has a user address, and the end of the
others does not wrap to an address below the limit. -/
def CheckRight (address length : UInt64) : Prop :=
  (length = 0 → InUser address.toNat) ∧ (InUser address.toNat → 2 ^ 64 ≤ address.toNat + length.toNat →
      userLimit < address.toNat + length.toNat - 2 ^ 64)

theorem checkRight_iff : CheckRight address length ↔
    (isUserPointer address length = true ↔ RangeInUser address length) := by
  have zero : length = 0 ↔ length.toNat = 0 := UInt64.toNat_inj.symm
  have bound := length.toNat_lt
  rw [CheckRight, isUserPointer_iff, rangeInUser_iff, zero]
  by_cases inside : InUser address.toNat
  · simp only [inside, true_and, forall_const, implies_true]
    have limit := inside.2
    unfold userLimit at *
    omega
  · simp only [inside, false_and, false_imp_iff, and_true, or_false, imp_false, false_iff]

end Check

/-! ### The calls -/

section Calls

variable {memory : Memory} {pointer length : UInt64}

theorem toNat_run {pointer length : UInt64} (right : RangeInUser pointer length) {i : Nat}
    (below : i < length.toNat) : (pointer + UInt64.ofNat i).toNat = pointer.toNat + i := by
  have inside := (right i below).2
  unfold userLimit at inside
  rw [UInt64.toNat_add, UInt64.toNat_ofNat']
  omega

theorem confined_untouched {result : Option UInt64} {checked : Option (UInt64 × UInt64)}
    (exact_ : ∀ address length, checked = some (address, length) →
      (isUserPointer address length = true ↔ RangeInUser address length)) :
    Confined ⟨result, checked, ∅⟩ :=
  ⟨exact_, nofun, nofun⟩

theorem confined_checked {result : Option UInt64} {touched : Set UInt64}
    (accepted : isUserPointer pointer length = true) :
    Confined ⟨result, some (pointer, length), touched⟩ ↔ CheckRight pointer length ∧
      ∀ address ∈ touched, ∃ i < length.toNat, address = pointer + UInt64.ofNat i := by
  constructor
  · rintro ⟨exact_, inUser, inRange⟩
    refine ⟨checkRight_iff.mpr (exact_ pointer length rfl), fun address member => ?_⟩
    obtain ⟨base, size, same, low, high⟩ := inRange address member
    obtain ⟨rfl, rfl⟩ := Prod.mk.inj (Option.some.inj same)
    refine ⟨address.toNat - pointer.toNat, by omega, ?_⟩
    apply UInt64.toNat_inj.mp
    rw [UInt64.toNat_add, UInt64.toNat_ofNat']
    have bound := address.toNat_lt
    omega
  · rintro ⟨right, within⟩
    have exact_ := checkRight_iff.mp right
    have inUser := exact_.mp accepted
    refine ⟨?_, fun address member => ?_, fun address member => ?_⟩
    · rintro base size same
      obtain ⟨rfl, rfl⟩ := Prod.mk.inj (Option.some.inj same)
      exact exact_
    · obtain ⟨i, below, rfl⟩ := within address member
      rw [toNat_run inUser below]
      exact inUser i below
    · obtain ⟨i, below, rfl⟩ := within address member
      refine ⟨pointer, length, rfl, ?_, ?_⟩
      · rw [toNat_run inUser below]
        exact Nat.le_add_right _ _
      · rw [toNat_run inUser below]
        exact Nat.add_lt_add_left below _

theorem confined_refused {result : Option UInt64} :
    Confined ⟨result, some (pointer, length), ∅⟩ ↔ CheckRight pointer length := by
  constructor
  · exact fun confined => checkRight_iff.mpr (confined.exact pointer length rfl)
  · intro right
    refine confined_untouched fun base size same => ?_
    obtain ⟨rfl, rfl⟩ := Prod.mk.inj (Option.some.inj same)
    exact checkRight_iff.mp right

theorem stringBytes_within : (∀ address ∈ stringBytes memory pointer,
      ∃ i < length.toNat, address = pointer + UInt64.ofNat i) ↔
    ∃ i < length.toNat, memory (pointer + UInt64.ofNat i) = 0 := by
  constructor
  · intro within
    by_contra none_ends
    have unended : ∀ j < length.toNat, memory (pointer + UInt64.ofNat j) ≠ 0 :=
      fun j below zero => none_ends ⟨j, below, zero⟩
    obtain ⟨i, below, same⟩ := within (pointer + UInt64.ofNat length.toNat)
      ⟨length.toNat, rfl, fun j before => unended j before⟩
    have equal := congrArg UInt64.toNat ((UInt64.add_right_inj pointer).mp same)
    have bound := length.toNat_lt
    rw [UInt64.toNat_ofNat', UInt64.toNat_ofNat'] at equal
    omega
  · rintro ⟨stop, below, zero⟩ address ⟨i, rfl, running⟩
    refine ⟨i, ?_, rfl⟩
    by_contra beyond
    exact running stop (by omega) zero

/-- Only the first byte of a path lies in the range that `OPEN` checks. -/
theorem path_within_one {vfs : VfsView} :
    (∀ address ∈ bytesAt pointer (vfsOpen (pathAt memory pointer) vfs).trace,
      ∃ i < (1 : UInt64).toNat, address = pointer + UInt64.ofNat i) ↔
    FirstByteOnly vfs (memory pointer) := by
  have first : pathAt memory pointer 0 = memory pointer := congrArg memory (UInt64.add_zero _)
  have cases_ := @vfsOpen_cases (pathAt memory pointer) vfs
  rw [first] at cases_
  obtain ⟨only, within⟩ | ⟨further, second⟩ := cases_
  · refine iff_of_true ?_ only
    rintro address ⟨i, member, rfl⟩
    exact ⟨i, by rw [within i member]; exact Nat.one_pos, rfl⟩
  · refine iff_of_false (fun within => ?_) further
    obtain ⟨i, below, same⟩ := within _ ⟨1, second, rfl⟩
    have zero : i = 0 := Nat.lt_one_iff.mp below
    rw [zero] at same
    exact absurd ((UInt64.add_right_inj pointer).mp same) (by decide)

theorem checkRight_one : CheckRight pointer 1 := by
  refine ⟨fun impossible => absurd impossible (by decide), fun inside wraps => ?_⟩
  have limit := inside.2
  have one : (1 : UInt64).toNat = 1 := rfl
  unfold userLimit at limit
  omega

end Calls

/-- When a call is confined. For a `WRITE` the check is right about the buffer, and a buffer that
is accepted holds the end of the string. For an `OPEN` whose pointer is accepted the path is
empty, or it begins with no slash and is looked for at its first byte alone. For a `READ` the
check is right about the buffer. -/
def Meets (vfs : VfsView) (memory : Memory) (number argument0 argument1 argument2 : UInt64) : Prop :=
  if number = ASAS_SYSCALL_WRITE then
    CheckRight argument0 argument1 ∧ (isUserPointer argument0 argument1 = true →
      ∃ i < argument1.toNat, memory (argument0 + UInt64.ofNat i) = 0)
  else if number = ASAS_SYSCALL_OPEN then
    isUserPointer argument0 1 = true → FirstByteOnly vfs (memory argument0)
  else if number = ASAS_SYSCALL_READ then CheckRight argument1 argument2
  else True

/-- **System calls and user pointers**: a call stays inside the user range that it has checked,
and its check is right, exactly when the condition above holds. -/
theorem syscall_confined_iff (vfs : VfsView) (memory : Memory)
    (number argument0 argument1 argument2 : UInt64) :
    Confined (syscallDispatch vfs memory number argument0 argument1 argument2) ↔
      Meets vfs memory number argument0 argument1 argument2 := by
  have unchecked (result : Option UInt64) : Confined ⟨result, none, ∅⟩ := confined_untouched nofun
  unfold syscallDispatch Meets
  split
  · rename_i verify
    rw [verify.1]
    exact iff_of_true (unchecked _) trivial
  split
  · rename_i getpid
    rw [getpid]
    exact iff_of_true (unchecked _) trivial
  split
  · split
    · rename_i refused
      rw [confined_refused, refused]
      exact (and_iff_left nofun).symm
    · rename_i accepted
      have accepted : isUserPointer argument0 argument1 = true := by simpa using accepted
      rw [confined_checked accepted, stringBytes_within, accepted]
      exact and_congr_right fun _ => ⟨fun ends _ => ends, fun ends => ends rfl⟩
  split
  · rename_i exit
    rw [exit]
    exact iff_of_true (unchecked _) trivial
  split
  · split
    · rename_i refused
      rw [confined_refused, refused]
      exact iff_of_true checkRight_one nofun
    · rename_i accepted
      have accepted : isUserPointer argument0 1 = true := by simpa using accepted
      rw [confined_checked accepted, path_within_one, accepted]
      exact (and_iff_right checkRight_one).trans ⟨fun few _ => few, fun few => few rfl⟩
  split
  · split
    · exact confined_refused
    · rename_i accepted
      have accepted : isUserPointer argument1 argument2 = true := by simpa using accepted
      rw [confined_checked accepted]
      refine and_iff_left ?_
      rintro address ⟨i, below, rfl⟩
      exact ⟨i, Nat.lt_of_lt_of_le below (vfsRead_stored _ _ _), rfl⟩
  · exact iff_of_true (unchecked _) trivial

/-- A string at the last user address that does not end there is read behind the user range, and
a length that wraps is accepted. -/
theorem syscall_escapes : let vfs : VfsView := ⟨none, [], ⟨.fat16, false, fun _ _ => none⟩, fun _ => none⟩
    ¬Confined (syscallDispatch vfs (fun _ => 0x41) ASAS_SYSCALL_WRITE 0x7FFFFFFFFFFF 1 0) ∧
      ¬Confined (syscallDispatch vfs (fun _ => 0) ASAS_SYSCALL_READ 0 0x1000 0xFFFFFFFFFFFFF000) := by
  intro vfs
  constructor
  · intro confined
    have outside := confined.inUser (0x7FFFFFFFFFFF + UInt64.ofNat 1) ⟨1, rfl, fun _ _ => (by decide : (0x41 : UInt8) ≠ 0)⟩
    exact absurd outside.2 (by decide)
  · intro confined
    have inUser := (confined.exact 0x1000 0xFFFFFFFFFFFFF000 rfl).mp (by decide) 0x7FFFFFFFF000
      (by decide)
    exact absurd inUser.2 (by decide)

end AsasOs.Process.Syscall
