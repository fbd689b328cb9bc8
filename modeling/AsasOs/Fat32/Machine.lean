import AsasOs.Fat32.Walks

/-!
# FAT32: a volume and its device

The state that the calls of the driver work on: the sectors of the device, the counters of
the context and the clock. `serve` answers the calls of a device that does not fail; a
request outside the device, or a write to one that is read-only, is still refused. A
`Machine` has faults too. Reads of links have a schedule of their own, and so have writes,
so that a fault can be said to be one of them. A sector that cannot be written is left as
it is.
-/
namespace AsasOs.Fat32

open Block Prog

structure Volume where
  medium : Nat → List UInt8
  info : Info
  /-- what the clock answers -/
  clock : List UInt8

def inBounds (device : Device) (lba : Nat) : Bool := requestInBounds device lba 1

def writable (device : Device) : Bool := !device.hasFlag BLOCK_DEVICE_FLAG_READ_ONLY

namespace Volume

variable (device : Device) (v : Volume)

def reads (lba : Nat) : Option (List UInt8) :=
  if inBounds device lba then some (v.medium lba) else none

def write (lba : Nat) (sector : List UInt8) : Volume :=
  { v with medium := Function.update v.medium lba sector }

end Volume

/-- What the calls do when none fails. -/
def serve (device : Device) : (op : Fat32Op) → Volume → op.Response × Volume
  | .read lba, v => (v.reads device lba, v)
  | .readLink lba, v => (v.reads device lba, v)
  | .write lba sector, v =>
    if inBounds device lba && writable device then (true, v.write lba sector) else (false, v)
  | .readRun lba count, v =>
    (if requestInBounds device lba count then
      some ((List.range count).map fun i => v.medium (lba + i)) else none, v)
  | .writeRun lba sectors, v =>
    if requestInBounds device lba sectors.length && writable device then
      (true, { v with
        medium := fun other =>
          if lba ≤ other ∧ other < lba + sectors.length then sectors.getD (other - lba) []
          else v.medium other })
    else (false, v)
  | .flush, v => (true, v)
  | .kmalloc _, v => (true, v)
  | .cmos _, v => (v.clock.headD 0, { v with clock := v.clock.tail })
  | .info, v => (v.info, v)
  | .setInfo info, v => ((), { v with info := info })

/-! ### Calls of the driver -/

/-- The calls that a file system makes to the driver on a mounted volume. -/
inductive Call where
  | writeFile (path : Text) (buffer : List UInt8)
  | deleteFile (path : Text)
  | createDirectory (path : Text)
  | deleteDirectory (path : Text)
  | rename (source destination : Text)
  | readFile (path : Text) (capacity : Nat)
  | listDirectory (path : Text) (capacity : Nat)
  | fileSize (path : Text)
  | exists_ (path : Text)
  | isDirectory (path : Text)
  | sync

/-- What a call does; a function that reads succeeds. -/
def Call.code (context : Context) : Call → Fat32Code Unit
  | .writeFile path buffer => fat32ContextWriteFile context path buffer
  | .deleteFile path => fat32ContextDeleteFile context path
  | .createDirectory path => fat32ContextCreateDirectory context path
  | .deleteDirectory path => fat32ContextDeleteDirectory context path
  | .rename source destination => fat32ContextRename context source destination
  | .readFile path capacity => do
    let _ ← liftM (fat32ContextReadFile context path capacity)
  | .listDirectory path capacity => do
    let _ ← liftM (fat32ContextListDirectory context path capacity)
  | .fileSize path => do
    let _ ← Prog.observe (fat32ContextFileSize context path)
  | .exists_ path => do
    let _ ← liftM (fat32ContextExists context path)
  | .isDirectory path => do
    let _ ← liftM (fat32ContextIsDirectory context path)
  | .sync => fat32ContextSync context

/-- The result of code when no call fails, nothing on failure, and the volume behind it. -/
def runCode {α : Type} (device : Device) (code : Fat32Code α) (v : Volume) : Option α × Volume :=
  run (serve device) code.run v

def Call.after (context : Context) (call : Call) (v : Volume) : Volume :=
  (runCode context.device (call.code context) v).2

def afterCalls (context : Context) (calls : List Call) (v : Volume) : Volume :=
  calls.foldl (fun v call => call.after context v) v

section RunCode

variable {α β : Type} {device : Device} {v v' w : Volume}

@[simp] theorem runCode_pure (value : α) : runCode device (pure value) v = (some value, v) := rfl

@[simp] theorem runCode_failure : runCode device (failure : Fat32Code α) v = (none, v) := rfl

theorem runCode_bind (x : Fat32Code β) (f : β → Fat32Code α) : runCode device (x >>= f) v =
      match runCode device x v with
      | (none, v') => (none, v')
      | (some value, v') => runCode device (f value) v' := by
  simp only [runCode, OptionT.run_bind, Option.elimM, Prog.run_bind]
  rcases run (serve device) x.run v with ⟨_ | value, v'⟩ <;> rfl

theorem runCode_bind_some {x : Fat32Code β} {f : β → Fat32Code α} {value : β}
    (first : runCode device x v = (some value, v')) :
    runCode device (x >>= f) v = runCode device (f value) v' := by
  rw [runCode_bind, first]

theorem runCode_bind_none {x : Fat32Code β} {f : β → Fat32Code α}
    (first : runCode device x v = (none, v')) : runCode device (x >>= f) v = (none, v') := by
  rw [runCode_bind, first]

theorem runCode_bind_eq_some {x : Fat32Code β} {f : β → Fat32Code α} {value : α} :
    runCode device (x >>= f) v = (some value, w) ↔ ∃ part v', runCode device x v = (some part, v') ∧
        runCode device (f part) v' = (some value, w) := by
  rw [runCode_bind]
  rcases runCode device x v with ⟨_ | part, v'⟩ <;> simp

theorem runCode_guard (p : Prop) [Decidable p] (f : Unit → Fat32Code α) :
    runCode device (guard p >>= f) v = if p then runCode device (f ()) v else (none, v) := by
  by_cases holds : p
  · simp only [guard, if_pos holds]
    rfl
  · simp only [guard, if_neg holds]
    rfl

theorem runCode_guard_last (p : Prop) [Decidable p] :
    runCode device (guard p) v = if p then (some (), v) else (none, v) := by
  by_cases holds : p
  · simp only [guard, if_pos holds, runCode_pure]
  · simp only [guard, if_neg holds, runCode_failure]

theorem runCode_lift (p : Fat32Prog β) (f : β → Fat32Code α) : runCode device (liftM p >>= f) v =
      runCode device (f (run (serve device) p v).1) (run (serve device) p v).2 := by
  have lifted : runCode device (liftM p : Fat32Code β) v =
      (some (run (serve device) p v).1, (run (serve device) p v).2) := by
    change run (serve device) (p >>= fun value => Pure.pure (some value)) v = _
    rw [Prog.run_bind, run_pure]
  exact runCode_bind_some lifted

theorem runCode_observe (x : Fat32Code β) (f : Option β → Fat32Code α) :
    runCode device (observe x >>= f) v =
      runCode device (f (runCode device x v).1) (runCode device x v).2 :=
  runCode_lift x.run f

theorem runCode_read (lba : Nat) : runCode device (f32ReadSector lba) v = (v.reads device lba, v) := rfl

theorem runCode_attempt (call : Fat32Prog Bool) : runCode device (attempt call) v =
      if (run (serve device) call v).1 then (some (), (run (serve device) call v).2)
      else (none, (run (serve device) call v).2) := by
  rw [attempt, runCode_lift, runCode_guard_last]

theorem runCode_write (lba : Nat) (sector : List UInt8) : runCode device (f32WriteSector lba sector) v =
      if inBounds device lba && writable device then (some (), v.write lba sector) else (none, v) := by
  rw [f32WriteSector, runCode_attempt, run_perform]
  by_cases served : (inBounds device lba && writable device) = true
  · simp only [serve, if_pos served, if_true]
  · simp only [serve, if_neg served, Bool.false_eq_true, if_false]

end RunCode

/-! ### Reading code -/

/-- The calls that only read sectors. -/
def Fat32Op.Reading : Fat32Op → Prop
  | .read _ => True
  | .readLink _ => True
  | _ => False

theorem run_reading {α : Type} (device : Device) {p : Fat32Prog α} (reading : Uses Fat32Op.Reading p)
    (v : Volume) : run (serve device) p v = (eval (answer (v.reads device)) p, v) := by
  induction p with
  | pure value => rfl
  | call op next ih =>
    cases op with
    | read lba => exact ih _ (reading.2 _)
    | readLink lba => exact ih _ (reading.2 _)
    | _ => exact reading.1.elim

section Reading

variable {context : Context}

theorem reading_read (lba : Nat) : Uses Fat32Op.Reading (f32ReadSector lba).run :=
  uses_perform trivial

theorem reading_nextCluster (cluster : Nat) :
    Uses Fat32Op.Reading (fat32NextCluster context cluster) := by
  refine uses_bind (uses_perform trivial) fun sec => ?_
  cases sec <;> exact uses_pure _

theorem reading_chainAdvance (cluster : Nat) :
    Uses Fat32Op.Reading (fat32ChainAdvance context cluster).run := by
  refine uses_fallible_bind uses_guard fun _ => ?_
  refine uses_fallible_bind (uses_lift (reading_nextCluster cluster)) fun value => ?_
  split_ifs
  · exact uses_some
  · exact uses_fallible_bind uses_guard fun _ => uses_some

section Walk

variable {σ ρ : Type} {visit : Visit σ ρ} {count : Nat}

theorem reading_walkSectors (cluster : Nat) (sectors : List Nat) (state : σ) :
    Uses Fat32Op.Reading (walkSectors context visit count cluster sectors state) := by
  induction sectors generalizing state with
  | nil => exact uses_pure _
  | cons s rest ih =>
    refine uses_bind (reading_read _) fun read => ?_
    cases read with
    | none => exact uses_pure _
    | some sector =>
      simp only
      split
      · exact ih _
      · exact uses_pure _

theorem reading_walkClusters (hops last current : Nat) (state : σ) :
    Uses Fat32Op.Reading (walkClusters context visit count hops last current state) := by
  induction hops generalizing last current state with
  | zero => exact uses_pure _
  | succ hops ih =>
    rw [walkClusters]
    split_ifs
    · refine uses_bind (reading_walkSectors _ _ _) fun walk => ?_
      cases walk with
      | ended state last' current' =>
        refine uses_bind (reading_chainAdvance current) fun next => ?_
        cases next with
        | none => exact uses_pure _
        | some next => exact ih _ _ _
      | found result cluster => exact uses_pure _
      | broken state => exact uses_pure _
    · exact uses_pure _

end Walk

end Reading

end AsasOs.Fat32
