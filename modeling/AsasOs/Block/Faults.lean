import AsasOs.Block.Device
import AsasOs.Lib.Bytes
import AsasOs.Lib.Medium
import AsasOs.Lib.Prog

/-!
# One disk under faults and crashes

The interface that partition tables and filesystems use, `block_device_read`,
`block_device_write` and `block_device_flush` on one device and `kmalloc`, when any
call may fail. A failing write may have transferred a part of its blocks, once for
each attempt of `raw_write_with_retry`. The disk keeps the trace of its block writes,
so that the medium after every prefix of them can be spoken of.
-/
namespace AsasOs.Block

open Medium

/-- How a call ends. The attempts of a write that failed each transferred some number
of its blocks. -/
structure Outcome where
  fails : Bool
  attempts : List Nat
  deriving DecidableEq, Repr

/-- A call at the interface; data is a flat buffer. -/
inductive DeviceOp where
  | read (lba count : Nat)
  | write (lba count : Nat) (data : List UInt8)
  | flush
  | kmalloc (size : Nat)

/-- What a call returns. -/
abbrev DeviceOp.Response : DeviceOp → Type
  | .read _ _ => Option (List UInt8)
  | .write _ _ _ => Bool
  | .flush => Bool
  | .kmalloc _ => Bool

abbrev DeviceProg := Prog DeviceOp DeviceOp.Response
abbrev DeviceCode := Prog.Fallible DeviceOp DeviceOp.Response

/-- `block_device_read`, giving up when it fails. -/
def deviceRead (lba count : Nat) : DeviceCode (List UInt8) :=
  OptionT.mk (Prog.perform (DeviceOp.read lba count))

def deviceWrite (lba count : Nat) (data : List UInt8) : DeviceProg Bool :=
  Prog.perform (DeviceOp.write lba count data)

def deviceFlush : DeviceProg Bool := Prog.perform DeviceOp.flush

def deviceKmalloc (size : Nat) : DeviceProg Bool := Prog.perform (DeviceOp.kmalloc size)

/-- A medium of blocks of `size` bytes, with the block writes made to it, the outcomes
of the calls to come and a count of the calls that failed. -/
structure Disk (size : Nat) where
  start : Nat → List UInt8
  sized : ∀ lba, (start lba).length = size
  written : List (Nat × List UInt8)
  outcomes : List Outcome
  failedWrites : Nat
  failedFlushes : Nat

namespace Disk

variable {size : Nat}

/-- The blocks as they are now. -/
def medium (disk : Disk size) : Nat → List UInt8 := apply disk.start disk.written

def nextOutcome (disk : Disk size) : Outcome × Disk size :=
  match disk.outcomes with
  | [] => (⟨false, []⟩, disk)
  | outcome :: rest => (outcome, { disk with outcomes := rest })

def log (disk : Disk size) (writes : List (Nat × List UInt8)) : Disk size :=
  { disk with written := disk.written ++ writes }

/-- A block of a flat buffer. -/
def chunk (size : Nat) (data : List UInt8) (index : Nat) : List UInt8 :=
  let part := Bytes.slice data (index * size) size
  part ++ List.replicate (size - part.length) 0

/-- The blocks of a flat buffer. -/
def chunks (size count : Nat) (data : List UInt8) : List (List UInt8) :=
  (List.range count).map (chunk size data)

def read (device : Device) (lba count : Nat) (disk : Disk size) : Option (List UInt8) × Disk size :=
  if requestInBounds device lba count then
    match disk.nextOutcome with
    | (outcome, disk) =>
      if outcome.fails then (none, disk)
      else (some (blocksAt disk.medium lba count).flatten, disk)
  else (none, disk)

/-- The block writes of a call that transfers `blocks`, attempt by attempt. -/
def attempted (outcome : Outcome) (lba : Nat) (blocks : List (List UInt8)) : List (Nat × List UInt8) :=
  outcome.attempts.flatMap fun transferred => span lba (blocks.take transferred)

def write (device : Device) (lba count : Nat) (data : List UInt8) (disk : Disk size) :
    Bool × Disk size :=
  if requestInBounds device lba count && !device.hasFlag BLOCK_DEVICE_FLAG_READ_ONLY then
    match disk.nextOutcome with
    | (outcome, disk) =>
      let blocks := chunks size count data
      let disk := disk.log (attempted outcome lba blocks)
      if outcome.fails then (false, { disk with failedWrites := disk.failedWrites + 1 })
      else (true, disk.log (span lba blocks))
  else (false, { disk with failedWrites := disk.failedWrites + 1 })

def flush (disk : Disk size) : Bool × Disk size :=
  match disk.nextOutcome with
  | (outcome, disk) =>
    if outcome.fails then (false, { disk with failedFlushes := disk.failedFlushes + 1 })
    else (true, disk)

/-- `kmalloc`, which refuses an empty allocation. -/
def kmalloc (bytes : Nat) (disk : Disk size) : Bool × Disk size :=
  match disk.nextOutcome with
  | (outcome, disk) => (bytes != 0 && !outcome.fails, disk)

def handle (device : Device) : (op : DeviceOp) → Disk size → op.Response × Disk size
  | .read lba count, disk => disk.read device lba count
  | .write lba count data, disk => disk.write device lba count data
  | .flush, disk => disk.flush
  | .kmalloc bytes, disk => disk.kmalloc bytes

/-- A disk to which nothing has been written yet. -/
def boot (start : Nat → List UInt8) (sized : ∀ lba, (start lba).length = size)
    (outcomes : List Outcome) : Disk size :=
  ⟨start, sized, [], outcomes, 0, 0⟩

/-- The media that a crash between two states of the disk can leave behind: those
after the prefixes of the block writes made between them. -/
def CrashBetween (disk disk' : Disk size) (medium : Nat → List UInt8) : Prop :=
  ∃ writes made, disk'.written = disk.written ++ made ∧ writes <+: made ∧ medium = apply disk.medium writes

theorem crashBetween_take (start : Nat → List UInt8) (sized : ∀ lba, (start lba).length = size)
    (outcomes : List Outcome) (final : Disk size) (count : Nat) :
    CrashBetween (boot start sized outcomes) final (apply start (final.written.take count)) :=
  ⟨final.written.take count, final.written, rfl, List.take_prefix count _, rfl⟩

/-! ### Traces -/

/-- The second state comes after the first, and the writes between them all lie in a
region. -/
structure WroteIn (region : Nat → Prop) (disk disk' : Disk size) : Prop where
  start : disk'.start = disk.start
  trace : ∃ made, disk'.written = disk.written ++ made ∧ ∀ w ∈ made, region w.1
  writes : disk.failedWrites ≤ disk'.failedWrites
  flushes : disk.failedFlushes ≤ disk'.failedFlushes

namespace WroteIn

variable {region region' : Nat → Prop} {disk disk' disk'' : Disk size}

theorem refl (region : Nat → Prop) (disk : Disk size) : WroteIn region disk disk :=
  ⟨rfl, ⟨[], by simp⟩, Nat.le_refl _, Nat.le_refl _⟩

theorem trans (first : WroteIn region disk disk') (second : WroteIn region disk' disk'') :
    WroteIn region disk disk'' := by
  obtain ⟨made, trace, inside⟩ := first.trace
  obtain ⟨made', trace', inside'⟩ := second.trace
  refine ⟨second.start.trans first.start, ⟨made ++ made', ?_, ?_⟩,
    first.writes.trans second.writes, first.flushes.trans second.flushes⟩
  · rw [trace', trace, List.append_assoc]
  · intro w member
    rcases List.mem_append.mp member with member | member
    · exact inside w member
    · exact inside' w member

theorem mono (wrote : WroteIn region disk disk') (wider : ∀ lba, region lba → region' lba) :
    WroteIn region' disk disk' := by
  obtain ⟨made, trace, inside⟩ := wrote.trace
  exact ⟨wrote.start, ⟨made, trace, fun w member => wider _ (inside w member)⟩, wrote.writes, wrote.flushes⟩

theorem trans_any (first : WroteIn region disk disk') (second : WroteIn region' disk' disk'') :
    WroteIn (fun lba => region lba ∨ region' lba) disk disk'' :=
  (first.mono fun _ => Or.inl).trans (second.mono fun _ => Or.inr)

/-- A crash changes nothing outside what was being written. -/
theorem crash_outside (wrote : WroteIn region disk disk') {medium : Nat → List UInt8}
    (crash : CrashBetween disk disk' medium) {lba : Nat} (outside : ¬region lba) :
    medium lba = disk.medium lba := by
  obtain ⟨made, trace, inside⟩ := wrote.trace
  obtain ⟨writes, made', trace', before, rfl⟩ := crash
  rw [trace] at trace'
  have same := List.append_cancel_left trace'
  subst same
  apply apply_other
  intro w member here
  exact outside (here ▸ inside w (before.subset member))

theorem medium_outside (wrote : WroteIn region disk disk') {lba : Nat} (outside : ¬region lba) :
    disk'.medium lba = disk.medium lba := by
  obtain ⟨made, trace, inside⟩ := wrote.trace
  rw [medium, medium, trace, wrote.start, apply_append]
  apply apply_other
  intro w member here
  exact outside (here ▸ inside w member)

/-- A crash is one before a point in the trace, or one behind it. -/
theorem crash_split (first : WroteIn region disk disk') (second : WroteIn region' disk' disk'')
    {medium : Nat → List UInt8} (crash : CrashBetween disk disk'' medium) :
    CrashBetween disk disk' medium ∨ CrashBetween disk' disk'' medium := by
  obtain ⟨made, trace, _⟩ := first.trace
  obtain ⟨made', trace', _⟩ := second.trace
  obtain ⟨writes, all, whole, before, rfl⟩ := crash
  have split : all = made ++ made' := by
    rw [trace', trace, List.append_assoc] at whole
    exact (List.append_cancel_left whole).symm
  subst split
  obtain ⟨rest, cut⟩ := before
  rcases List.append_eq_append_iff.mp cut with ⟨more, here, _⟩ | ⟨later, there, tail⟩
  · exact Or.inl ⟨writes, made, trace, ⟨more, here.symm⟩, rfl⟩
  · refine Or.inr ⟨later, made', trace', ⟨rest, tail.symm⟩, ?_⟩
    rw [there, apply_append, Disk.medium, Disk.medium, trace, first.start, apply_append]

end WroteIn

/-- Nothing was written, and no write or flush failed. -/
structure Untouched (disk disk' : Disk size) : Prop where
  start : disk'.start = disk.start
  written : disk'.written = disk.written
  writes : disk'.failedWrites = disk.failedWrites
  flushes : disk'.failedFlushes = disk.failedFlushes

namespace Untouched

theorem refl (disk : Disk size) : Untouched disk disk := ⟨rfl, rfl, rfl, rfl⟩

theorem trans {disk disk' disk'' : Disk size} (first : Untouched disk disk')
    (second : Untouched disk' disk'') : Untouched disk disk'' :=
  ⟨second.start.trans first.start, second.written.trans first.written,
    second.writes.trans first.writes, second.flushes.trans first.flushes⟩

theorem medium {disk disk' : Disk size} (same : Untouched disk disk') : disk'.medium = disk.medium := by
  rw [Disk.medium, Disk.medium, same.start, same.written]

theorem wroteIn {disk disk' : Disk size} (same : Untouched disk disk') (region : Nat → Prop) :
    WroteIn region disk disk' :=
  ⟨same.start, ⟨[], by simp [same.written]⟩, same.writes.ge, same.flushes.ge⟩

end Untouched

theorem nextOutcome_untouched (disk : Disk size) : Untouched disk disk.nextOutcome.2 := by
  unfold nextOutcome
  split <;> exact ⟨rfl, rfl, rfl, rfl⟩

/-! ### What the calls do -/

@[simp] theorem chunk_length (data : List UInt8) (index : Nat) :
    (chunk size data index).length = size := by
  have part : (Bytes.slice data (index * size) size).length ≤ size := by
    simp [Bytes.slice]
  simp only [chunk, List.length_append, List.length_replicate]
  omega

@[simp] theorem chunks_length (count : Nat) (data : List UInt8) :
    (chunks size count data).length = count := by
  simp [chunks]

theorem flatten_chunks (count : Nat) (data : List UInt8) (whole : data.length = count * size) :
    (chunks size count data).flatten = data := by
  have part : ∀ n ≤ count, (chunks size n data).flatten = data.take (n * size) := by
    intro n
    induction n with
    | zero => simp [chunks]
    | succ n ih =>
      intro within
      have room : (n + 1) * size ≤ count * size := Nat.mul_le_mul_right size within
      rw [Nat.succ_mul] at room
      have full : (Bytes.slice data (n * size) size).length = size :=
        Bytes.slice_length (by omega)
      simp only [chunks] at ih ⊢
      rw [List.range_succ, List.map_append, List.flatten_append, ih (by omega)]
      simp only [List.map_cons, List.map_nil, List.flatten_cons, List.flatten_nil,
        List.append_nil, chunk, full, Nat.sub_self, List.replicate_zero]
      rw [Bytes.slice, Nat.succ_mul, List.take_add]
  rw [part count (Nat.le_refl count), ← whole, List.take_length]

theorem read_untouched (device : Device) (lba count : Nat) (disk : Disk size) :
    Untouched disk (disk.read device lba count).2 := by
  unfold read
  split
  · have same := nextOutcome_untouched disk
    dsimp only
    split <;> exact same
  · exact Untouched.refl disk

variable {disk : Disk size} {data : List UInt8} {device : Device} {lba count : Nat}

theorem read_some (success : (disk.read device lba count).1 = some data) :
    data = (blocksAt disk.medium lba count).flatten := by
  unfold read at success
  split at success
  · dsimp only at success
    split at success
    · cases success
    · rw [(nextOutcome_untouched disk).medium] at success
      exact (Option.some.inj success).symm
  · cases success

theorem kmalloc_untouched (bytes : Nat) (disk : Disk size) : Untouched disk (disk.kmalloc bytes).2 :=
  nextOutcome_untouched disk

/-- No call is going to fail. -/
def Healthy (disk : Disk size) : Prop := disk.outcomes = []

theorem Healthy.next (healthy : disk.Healthy) : disk.nextOutcome = (⟨false, []⟩, disk) := by
  unfold nextOutcome
  rw [show disk.outcomes = [] from healthy]

theorem Healthy.read (healthy : disk.Healthy) (device : Device) (lba count : Nat) :
    (disk.read device lba count).1 = (if requestInBounds device lba count then
      some (blocksAt disk.medium lba count).flatten else none) ∧
    (disk.read device lba count).2.Healthy := by
  unfold Disk.read
  split
  · rw [healthy.next]
    exact ⟨rfl, healthy⟩
  · exact ⟨rfl, healthy⟩

theorem Healthy.write (healthy : disk.Healthy) (device : Device) (lba count : Nat) (data : List UInt8) :
    (disk.write device lba count data).1 = (requestInBounds device lba count &&
      !device.hasFlag BLOCK_DEVICE_FLAG_READ_ONLY) ∧
    (disk.write device lba count data).2.Healthy := by
  unfold Disk.write
  split
  · rename_i accepted
    rw [healthy.next, accepted]
    exact ⟨rfl, healthy⟩
  · rename_i refused
    exact ⟨(Bool.eq_false_iff.mpr refused).symm, healthy⟩

theorem Healthy.flush (healthy : disk.Healthy) : disk.flush.1 = true ∧ disk.flush.2.Healthy := by
  unfold Disk.flush
  rw [healthy.next]
  exact ⟨rfl, healthy⟩

theorem Healthy.kmalloc (healthy : disk.Healthy) (bytes : Nat) :
    (disk.kmalloc bytes).1 = (bytes != 0) ∧ (disk.kmalloc bytes).2.Healthy := by
  unfold Disk.kmalloc
  rw [healthy.next]
  exact ⟨Bool.and_true _, healthy⟩

theorem blocksAt_one (medium : Nat → List UInt8) (lba : Nat) :
    (blocksAt medium lba 1).flatten = medium lba := by
  simp [blocksAt]

/-- The blocks from `lba` on. -/
def range (lba count : Nat) : Nat → Prop := fun k => lba ≤ k ∧ k < lba + count

/-- A write that fails has touched its own blocks only. -/
theorem attempted_inside {outcome : Outcome} {lba : Nat} {blocks : List (List UInt8)} :
    ∀ w ∈ attempted outcome lba blocks, range lba blocks.length w.1 := by
  intro w member
  obtain ⟨transferred, _, member⟩ := List.mem_flatMap.mp member
  have bounds := mem_span member
  rw [List.length_take] at bounds
  exact ⟨bounds.1, by omega⟩

/-- A write touches its own blocks, and counts if it fails. -/
theorem write_wroteIn (device : Device) (lba count : Nat) (data : List UInt8) (disk : Disk size) :
    WroteIn (range lba count) disk (disk.write device lba count data).2 ∧
      (disk.write device lba count data).2.failedFlushes = disk.failedFlushes ∧
      (disk.write device lba count data).2.failedWrites =
        disk.failedWrites + if (disk.write device lba count data).1 then 0 else 1 := by
  have next := nextOutcome_untouched disk
  have inside : ∀ w ∈ attempted disk.nextOutcome.1 lba (chunks size count data),
      range lba count w.1 := by
    intro w member
    simpa using attempted_inside w member
  unfold write
  split
  · dsimp only
    split
    · refine ⟨⟨next.start, ⟨_, ?_, inside⟩, ?_, ?_⟩, next.flushes, ?_⟩
      · simp [log, next.written]
      · simp [log, next.writes]
      · simp [log, next.flushes]
      · simp [log, next.writes]
    · refine ⟨⟨next.start, ⟨attempted disk.nextOutcome.1 lba (chunks size count data) ++
        span lba (chunks size count data), ?_, ?_⟩, ?_, ?_⟩, next.flushes, ?_⟩
      · simp [log, next.written]
      · intro w member
        rcases List.mem_append.mp member with member | member
        · exact inside w member
        · simpa [range] using mem_span member
      · simp [log, next.writes]
      · simp [log, next.flushes]
      · simp [log, next.writes]
  · exact ⟨⟨rfl, ⟨[], by simp⟩, by simp, by simp⟩, rfl, rfl⟩

/-- A write that succeeds is on the medium. -/
theorem write_holds (success : (disk.write device lba count data).1 = true) :
    blocksAt (disk.write device lba count data).2.medium lba count = chunks size count data := by
  unfold write at success ⊢
  split at success
  · rename_i accepted
    rw [if_pos accepted]
    dsimp only at success ⊢
    split at success
    · cases success
    · rename_i succeeds
      rw [if_neg succeeds]
      have stored := apply_span
        (apply disk.nextOutcome.2.start (disk.nextOutcome.2.written ++
          attempted disk.nextOutcome.1 lba (chunks size count data)))
        lba (chunks size count data)
      rw [chunks_length, ← apply_append] at stored
      exact stored
  · cases success

theorem chunk_self (whole : data.length = size) : chunk size data 0 = data := by
  have all : Bytes.slice data (0 * size) size = data := by
    rw [Bytes.slice, Nat.zero_mul, List.drop_zero, ← whole, List.take_length]
  rw [chunk, all, whole, Nat.sub_self, List.replicate_zero, List.append_nil]

theorem write_one (device : Device) (lba : Nat) (data : List UInt8) (disk : Disk size) :
    ∃ block, (disk.write device lba 1 data).2.medium = Function.update disk.medium lba block ∧
      ((disk.write device lba 1 data).1 = true → block = chunk size data 0) := by
  refine ⟨(disk.write device lba 1 data).2.medium lba, ?_, ?_⟩
  · funext other
    by_cases same : other = lba
    · subst same
      rw [Function.update_self]
    · rw [Function.update_of_ne same]
      refine (write_wroteIn device lba 1 data disk).1.medium_outside fun inside => ?_
      exact same (Nat.le_antisymm (Nat.lt_succ_iff.mp inside.2) inside.1)
  · intro success
    have stored := write_holds success
    simpa [blocksAt, chunks] using stored

/-- A flush changes no block. -/
theorem flush_wroteIn (region : Nat → Prop) (disk : Disk size) :
    WroteIn region disk disk.flush.2 ∧ disk.flush.2.failedWrites = disk.failedWrites ∧
      disk.flush.2.medium = disk.medium ∧
      disk.flush.2.failedFlushes = disk.failedFlushes + if disk.flush.1 then 0 else 1 := by
  have next := nextOutcome_untouched disk
  unfold flush
  dsimp only
  split
  · refine ⟨⟨next.start, ⟨[], by simp [next.written]⟩, next.writes.ge, ?_⟩, next.writes, next.medium, ?_⟩
    · simp [next.flushes]
    · simp [next.flushes]
  · exact ⟨next.wroteIn region, next.writes, next.medium, by simp [next.flushes]⟩

/-! ### What is written -/

/-- The second state comes after the first, and what was written between them was permitted
there. -/
def WroteAmong (permitted : Nat → List UInt8 → Prop) (disk disk' : Disk size) : Prop :=
  disk'.start = disk.start ∧ ∃ made, disk'.written = disk.written ++ made ∧ ∀ w ∈ made, permitted w.1 w.2

section Among

variable {permitted : Nat → List UInt8 → Prop} {disk disk' disk'' : Disk size}

theorem Untouched.among (same : Untouched disk disk') : WroteAmong permitted disk disk' :=
  ⟨same.start, [], by rw [same.written, List.append_nil], nofun⟩

theorem WroteAmong.trans (first : WroteAmong permitted disk disk')
    (second : WroteAmong permitted disk' disk'') : WroteAmong permitted disk disk'' := by
  obtain ⟨start, made, trace, all⟩ := first
  obtain ⟨start', made', trace', all'⟩ := second
  refine ⟨start'.trans start, made ++ made', ?_, List.forall_mem_append.mpr ⟨all, all'⟩⟩
  rw [trace', trace, List.append_assoc]

theorem WroteAmong.medium (wrote : WroteAmong permitted disk disk') (lba : Nat) :
    disk'.medium lba = disk.medium lba ∨ permitted lba (disk'.medium lba) := by
  obtain ⟨start, made, trace, all⟩ := wrote
  rw [Disk.medium, Disk.medium, trace, start, apply_append]
  exact apply_among all _ lba

def WritesAmong (size : Nat) (permitted : Nat → List UInt8 → Prop) : DeviceOp → Prop
  | .write lba count data => ∀ k < count, permitted (lba + k) (chunk size data k)
  | _ => True

/-- One call writes what it is permitted to write. -/
theorem handle_wroteAmong (device : Device) {op : DeviceOp} (disk : Disk size)
    (writes : WritesAmong size permitted op) :
    WroteAmong permitted disk (handle device op disk).2 := by
  have next := nextOutcome_untouched disk
  cases op with
  | read lba count => exact (read_untouched device lba count disk).among
  | kmalloc bytes => exact (kmalloc_untouched bytes disk).among
  | flush =>
    change WroteAmong permitted disk disk.flush.2
    unfold flush
    dsimp only
    split
    · exact ⟨next.start, [], by simp [next.written], nofun⟩
    · exact next.among
  | write lba count data =>
    have whole : ∀ w ∈ span lba (chunks size count data), permitted w.1 w.2 := by
      intro w member
      obtain ⟨k, place, there⟩ := getElem?_of_mem_span member
      have below : k < count := by
        have inside := (List.getElem?_eq_some_iff.mp there).1
        rwa [chunks_length] at inside
      rw [chunks, List.getElem?_map, List.getElem?_range below] at there
      rw [place, ← Option.some.inj there]
      exact writes k below
    have attempt : ∀ w ∈ attempted disk.nextOutcome.1 lba (chunks size count data),
        permitted w.1 w.2 := by
      intro w member
      obtain ⟨transferred, -, inside⟩ := List.mem_flatMap.mp member
      obtain ⟨k, place, there⟩ := getElem?_of_mem_span inside
      rw [List.getElem?_take] at there
      split_ifs at there with early
      obtain ⟨below, -⟩ := List.getElem?_eq_some_iff.mp there
      rw [chunks_length] at below
      rw [chunks, List.getElem?_map, List.getElem?_range below] at there
      rw [place, ← Option.some.inj there]
      exact writes k below
    change WroteAmong permitted disk (disk.write device lba count data).2
    unfold write
    split
    · dsimp only
      split
      · exact ⟨next.start, _, by simp [log, next.written], attempt⟩
      · refine ⟨next.start, attempted disk.nextOutcome.1 lba (chunks size count data) ++
          span lba (chunks size count data), ?_, List.forall_mem_append.mpr ⟨attempt, whole⟩⟩
        simp [log, next.written]
    · exact ⟨rfl, [], by simp, nofun⟩

/-- So do all the calls of a program, whatever fails. -/
theorem run_wroteAmong {α : Type} (device : Device) {p : DeviceProg α}
    (uses : Prog.Uses (WritesAmong size permitted) p) (disk : Disk size) :
    WroteAmong permitted disk (Prog.run (handle device) p disk).2 :=
  Prog.run_preserves_of_uses (fun _ later writes wrote =>
    wrote.trans (handle_wroteAmong device later writes)) uses disk (Untouched.refl disk).among

end Among

/-! ### Block sizes -/

def WholeBlocks (disk : Disk size) : Prop := ∀ w ∈ disk.written, w.2.length = size

theorem medium_sized (whole : disk.WholeBlocks) (lba : Nat) : (disk.medium lba).length = size := by
  have all : ∀ (writes : List (Nat × List UInt8)) (m : Nat → List UInt8),
      (∀ lba, (m lba).length = size) → (∀ w ∈ writes, w.2.length = size) →
      (apply m writes lba).length = size := by
    intro writes
    induction writes with
    | nil => exact fun m sized _ => sized lba
    | cons w rest ih =>
      intro m sized fits
      refine ih _ (fun other => ?_) fun w' member => fits w' (List.mem_cons_of_mem _ member)
      by_cases same : other = w.1
      · rw [same, Function.update_self]
        exact fits w List.mem_cons_self
      · rw [Function.update_of_ne same]
        exact sized other
  exact all disk.written disk.start disk.sized whole

theorem span_wholeBlocks {blocks : List (List UInt8)}
    (among : ∀ block ∈ blocks, block ∈ chunks size count data) :
    ∀ w ∈ span lba blocks, w.2.length = size := by
  intro w member
  obtain ⟨index, -, same⟩ := List.mem_map.mp (among w.2 (mem_of_mem_span member))
  rw [← same]
  exact chunk_length data index

/-- Blocks stay whole. -/
theorem handle_wholeBlocks (device : Device) (op : DeviceOp) (disk : Disk size)
    (whole : disk.WholeBlocks) : (handle device op disk).2.WholeBlocks := by
  have next := nextOutcome_untouched disk
  have kept : disk.nextOutcome.2.WholeBlocks := by
    unfold WholeBlocks
    rw [next.written]
    exact whole
  cases op with
  | read lba count =>
    have same := read_untouched device lba count disk
    change (disk.read device lba count).2.WholeBlocks
    unfold WholeBlocks
    rw [same.written]
    exact whole
  | kmalloc bytes => exact kept
  | flush =>
    change disk.flush.2.WholeBlocks
    unfold flush
    dsimp only
    split <;> exact kept
  | write lba count data =>
    change (disk.write device lba count data).2.WholeBlocks
    have attempt : ∀ w ∈ attempted disk.nextOutcome.1 lba (chunks size count data),
        w.2.length = size := by
      intro w member
      obtain ⟨transferred, -, inside⟩ := List.mem_flatMap.mp member
      exact span_wholeBlocks (fun block => List.mem_of_mem_take) w inside
    unfold write
    split
    · dsimp only
      split
      · exact List.forall_mem_append.mpr ⟨kept, attempt⟩
      · refine List.forall_mem_append.mpr ⟨List.forall_mem_append.mpr ⟨kept, attempt⟩, ?_⟩
        exact span_wholeBlocks fun block member => member
    · exact whole

/-! ### Disks on which nothing fails -/

/-- No call to come fails, and whole blocks have been written. -/
structure Calm (disk : Disk size) : Prop where
  outcomes : ∀ outcome ∈ disk.outcomes, outcome.fails = false
  whole : disk.WholeBlocks

theorem Calm.next (calm : disk.Calm) : disk.nextOutcome.1.fails = false ∧
      ∀ outcome ∈ disk.nextOutcome.2.outcomes, outcome.fails = false := by
  have outcomes := calm.outcomes
  unfold nextOutcome
  split
  · exact ⟨rfl, outcomes⟩
  · rename_i outcome rest queue
    rw [queue] at outcomes
    exact ⟨outcomes outcome List.mem_cons_self,
      fun other member => outcomes other (List.mem_cons_of_mem _ member)⟩

/-- A disk on which nothing fails stays so. -/
theorem Calm.handle (calm : disk.Calm) (device : Device) (op : DeviceOp) :
    (handle device op disk).2.Calm := by
  obtain ⟨-, later⟩ := calm.next
  refine ⟨?_, handle_wholeBlocks device op disk calm.whole⟩
  cases op with
  | read lba count =>
    change ∀ outcome ∈ (disk.read device lba count).2.outcomes, outcome.fails = false
    unfold read
    split
    · dsimp only
      split <;> exact later
    · exact calm.outcomes
  | write lba count data =>
    change ∀ outcome ∈ (disk.write device lba count data).2.outcomes, outcome.fails = false
    unfold write
    split
    · dsimp only
      split <;> exact later
    · exact calm.outcomes
  | flush =>
    change ∀ outcome ∈ disk.flush.2.outcomes, outcome.fails = false
    unfold flush
    dsimp only
    split <;> exact later
  | kmalloc bytes => exact later

theorem Calm.kmalloc (calm : disk.Calm) (bytes : Nat) : (disk.kmalloc bytes).1 = (bytes != 0) := by
  obtain ⟨succeeds, -⟩ := calm.next
  unfold Disk.kmalloc
  dsimp only
  rw [succeeds, Bool.not_false, Bool.and_true]

theorem Calm.flush (calm : disk.Calm) : disk.flush.1 = true := by
  obtain ⟨succeeds, -⟩ := calm.next
  unfold Disk.flush
  dsimp only
  rw [succeeds]
  rfl

theorem Calm.write (calm : disk.Calm) (device : Device) (lba count : Nat) (data : List UInt8) :
    (disk.write device lba count data).1 =
      (requestInBounds device lba count && !device.hasFlag BLOCK_DEVICE_FLAG_READ_ONLY) := by
  obtain ⟨succeeds, -⟩ := calm.next
  unfold Disk.write
  split
  · rename_i accepted
    dsimp only
    rw [succeeds, if_neg Bool.false_ne_true, accepted]
  · rename_i refused
    exact ((Bool.not_eq_true _).mp refused).symm

theorem requestInBounds_inside (some_blocks : 0 < count)
    (inside : lba + count ≤ device.blockCount) (bounded : device.blockCount < 2 ^ 64) :
    requestInBounds device lba count = true := by
  unfold requestInBounds maxU64
  rw [if_neg (by omega), if_neg (by omega), if_neg (by omega), if_neg (by omega)]
  exact decide_eq_true (by omega)

/-! ### Rules for programs -/

section Rules

variable {device : Device} {disk : Disk size}

@[simp] theorem run_deviceWrite (lba count : Nat) (data : List UInt8) :
    Prog.run (handle device) (deviceWrite lba count data) disk = disk.write device lba count data := rfl

@[simp] theorem run_deviceFlush : Prog.run (handle device) deviceFlush disk = disk.flush := rfl

@[simp] theorem run_deviceKmalloc (bytes : Nat) :
    Prog.run (handle device) (deviceKmalloc bytes) disk = disk.kmalloc bytes := rfl

/-- A read: it fails, or the blocks are returned. -/
theorem wp_deviceRead {lba count : Nat} {post : Option (List UInt8) → Disk size → Prop}
    (failed : ∀ disk', Untouched disk disk' → post none disk')
    (success : ∀ disk', Untouched disk disk' → post (some (blocksAt disk.medium lba count).flatten) disk') :
    Prog.wp (handle device) (deviceRead lba count) post disk := by
  have same := read_untouched device lba count disk
  change post (disk.read device lba count).1 (disk.read device lba count).2
  cases result : (disk.read device lba count).1 with
  | none => exact failed _ same
  | some data =>
    rw [read_some result]
    exact success _ same

theorem wp_deviceKmalloc {α : Type} {bytes : Nat} {f : Bool → DeviceCode α}
    {post : Option α → Disk size → Prop}
    (rest : ∀ ok disk', Untouched disk disk' → Prog.wp (handle device) (f ok) post disk') :
    Prog.wp (handle device) (liftM (deviceKmalloc bytes) >>= f) post disk := by
  rw [Prog.wp_lift]
  exact rest _ _ (kmalloc_untouched bytes disk)

/-- On a calm disk it returns the blocks. -/
theorem wp_deviceRead_calm {lba count : Nat} {post : Option (List UInt8) → Disk size → Prop}
    (calm : disk.Calm) (bounds : requestInBounds device lba count = true)
    (rest : ∀ disk', disk'.Calm → Untouched disk disk' →
      post (some (blocksAt disk.medium lba count).flatten) disk') :
    Prog.wp (handle device) (deviceRead lba count) post disk := by
  have same := read_untouched device lba count disk
  have after : (disk.read device lba count).2.Calm := calm.handle device (.read lba count)
  have success : (disk.read device lba count).1 = some (blocksAt disk.medium lba count).flatten := by
    unfold read
    rw [if_pos bounds]
    dsimp only
    rw [calm.next.1, if_neg Bool.false_ne_true, (nextOutcome_untouched disk).medium]
  change post (disk.read device lba count).1 (disk.read device lba count).2
  rw [success]
  exact rest _ after same

theorem wp_deviceKmalloc_calm {α : Type} {bytes : Nat} {f : Bool → DeviceCode α}
    {post : Option α → Disk size → Prop} (calm : disk.Calm) (nonzero : bytes ≠ 0)
    (rest : ∀ disk', disk'.Calm → Untouched disk disk' → Prog.wp (handle device) (f true) post disk') :
    Prog.wp (handle device) (liftM (deviceKmalloc bytes) >>= f) post disk := by
  have after : (disk.kmalloc bytes).2.Calm := calm.handle device (.kmalloc bytes)
  have success : (disk.kmalloc bytes).1 = true := by
    rw [calm.kmalloc, bne_iff_ne]
    exact nonzero
  rw [Prog.wp_lift, run_deviceKmalloc, success]
  exact rest _ after (kmalloc_untouched bytes disk)

end Rules

end Disk

end AsasOs.Block
