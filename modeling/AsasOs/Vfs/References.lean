import AsasOs.Vfs.HandleIdentity

/-!
# Mount references

The reference count of a mount is the number of handles that are open on it, in every
state of every run. So a mount with an open handle is never given up, and an open
handle never refers to a mount that is gone or has been replaced.
-/
namespace AsasOs.Vfs

open Block CString

variable {W C : Type} {drivers : Drivers W C}

/-- The run after some operations. -/
def runOps (drivers : Drivers W C) (run : Run W C) (ops : List (VfsOp W)) : Run W C :=
  ops.foldl (vfsStep drivers) run

theorem runOps_preserves {P : Run W C → Prop} (step : ∀ run op, P run → P (vfsStep drivers run op))
    (ops : List (VfsOp W)) : ∀ run, P run → P (runOps drivers run ops) := by
  induction ops with
  | nil => exact fun _ holds => holds
  | cons op rest ih => exact fun run holds => ih _ (step run op holds)

/-- An open handle refers to the mount it was opened on, which a volume still owns. -/
def HandlesLive (s : VfsState W C) : Prop :=
  ∀ k m, (s.handles k).used = true → (s.handles k).mount = some m → (∃ i, s.mounts i = some m) ∧
      s.fs.generationOf m = some (s.handles k).mountGeneration

namespace HandlesLive

theorem evolves {s s' : VfsState W C} (live : HandlesLive s) (table : TableInv s)
    (counted : ∀ m, s.fs.refs m = refCount s.handles m) (step : Evolves s s') :
    HandlesLive s' := by
  intro k m used mount
  rw [step.handles] at used mount ⊢
  obtain ⟨⟨i, owned⟩, generation⟩ := live k m used mount
  have referenced : s.fs.refs m ≠ 0 := by
    rw [counted]
    exact refCount_pos used mount
  obtain ⟨owned', _, generation'⟩ := step.referenced table i m owned referenced
  exact ⟨⟨i, owned'⟩, generation'.trans generation⟩

theorem same {s s' : VfsState W C} (live : HandlesLive s) (same : SameTables s s')
    (handles : ∀ k, (s'.handles k).used = true → s'.handles k = s.handles k) :
    HandlesLive s' := by
  intro k m used mount
  have here := handles k used
  rw [here] at used mount ⊢
  rw [same.mounts, same.generationOf]
  exact live k m used mount

theorem routed {s : VfsState W C} (table : TableInv s) {path : CString} {m : MountId}
    (found : (mountForPath s path).1 = some m) :
    (∃ i, s.mounts i = some m) ∧ ∃ mount, s.fs.mounts m = some mount := by
  rcases here : mountForPath s path with ⟨target, relative⟩
  rw [here] at found
  cases found
  obtain ⟨i, owned, _⟩ := mountForPath_relative table here
  exact ⟨⟨i, owned⟩, Option.isSome_iff_exists.mp (table.owned i m owned).2.2⟩

theorem openHandle {s s' : VfsState W C} (live : HandlesLive s) (table : TableInv s)
    {path : CString} {k : HandleId} (takes : Takes s s' (mountForPath s path).1) :
    HandlesLive (s'.setHandle k (openedHandle s' path (mountForPath s path).1)) := by
  intro j m used mount
  change (Function.update s'.handles k _ j).used = true at used
  change (Function.update s'.handles k _ j).mount = some m at mount
  change (∃ i, s'.mounts i = some m) ∧
    s'.fs.generationOf m = some (Function.update s'.handles k _ j).mountGeneration
  by_cases this : j = k
  · subst this
    rw [Function.update_self] at mount ⊢
    have found : (mountForPath s path).1 = some m := mount
    obtain ⟨owner, entry, active⟩ := routed table found
    rw [takes.same.mounts, takes.same.generationOf]
    refine ⟨owner, ?_⟩
    have generation := takes.same.generationOf m
    simp only [Filesystems.generationOf, active, Option.map_some] at generation ⊢
    simp only [openedHandle, found, Option.bind_some, generation, Option.getD_some]
  · rw [Function.update_of_ne this, takes.handles] at used mount ⊢
    rw [takes.same.mounts, takes.same.generationOf]
    exact live j m used mount

theorem openFile {s : VfsState W C} (live : HandlesLive s) (table : TableInv s)
    (path : CString) : HandlesLive (vfsOpen drivers s path).2 := by
  unfold vfsOpen
  by_cases welcome : path = welcomePath
  · rw [if_pos welcome]
    exact live
  · rw [if_neg welcome]
    rcases taken : openMount drivers s path with ⟨_ | mount, s'⟩
    · have takes := openMount_takes taken
      exact live.same takes.same fun k _ => congrFun takes.handles k
    · obtain ⟨takes, mountIs⟩ := openMount_takes taken
      subst mountIs
      have kept := live.same takes.same fun k _ => congrFun takes.handles k
      dsimp only
      cases freeHandle s' with
      | some k => exact live.openHandle table takes
      | none =>
        -- no handle is free, and the reference that was taken is given back
        cases (mountForPath s path).1 with
        | some slot => exact kept.same (release_same s' slot).1 fun _ _ => rfl
        | none => exact kept

theorem closeHandle {s : VfsState W C} (live : HandlesLive s) (k : HandleId) :
    HandlesLive (closeHandle s k) := by
  have others : ∀ j, (Function.update s.handles k (closedHandle (s.handles k)) j).used = true →
      Function.update s.handles k (closedHandle (s.handles k)) j = s.handles j := by
    intro j used
    by_cases this : j = k
    · subst this
      rw [Function.update_self] at used
      cases used
    · rw [Function.update_of_ne this]
  have forgets := setHandle_same s k (closedHandle (s.handles k))
  unfold Vfs.closeHandle
  split
  · rename_i m _
    have released := (release_same (s.setHandle k (closedHandle (s.handles k))) m).1
    exact live.same (forgets.trans released) others
  · exact live.same forgets others

theorem close {s : VfsState W C} (live : HandlesLive s) (handle : Nat) :
    HandlesLive (vfsClose s handle).2 := by
  unfold vfsClose
  split
  · exact live
  · split
    · exact live.closeHandle _
    · exact live

end HandlesLive

/-- The references of a run, and what they protect. -/
structure ReferencesInv (run : Run W C) : Prop where
  tables : RunInv run
  live : HandlesLive run.vfs

theorem ReferencesInv.step (run : Run W C) (op : VfsOp W) (inv : ReferencesInv run) :
    ReferencesInv (vfsStep drivers run op) := by
  refine ⟨inv.tables.step op, ?_⟩
  have evolves {s' : VfsState W C} (step : Evolves run.vfs s') : HandlesLive s' :=
    inv.live.evolves inv.tables.table inv.tables.counted step
  cases op with
  | openFile path =>
    have opened : HandlesLive (vfsOpen drivers run.vfs path).2 :=
      inv.live.openFile inv.tables.table path
    simp only [vfsStep]
    split
    · exact opened
    · exact opened
  | read handle size => exact evolves (vfsRead_evolves _ handle size)
  | close handle => exact inv.live.close handle
  | mountDevice name mountPoint flags => exact evolves (vfsMountDevice_evolves _ _ _ _)
  | rescan devices partitions world => exact evolves (vfsRescanDevices_evolves _ _ _ _)
  | unmount mountPoint => exact evolves (vfsUnmount_evolves _ _)
  | remount mountPoint flags => exact evolves (vfsRemount_evolves _ _ _)
  | removeDevice name => exact evolves (vfsHandleDeviceRemoved_evolves _ _)
  | external world => exact evolves (setWorld_evolves _ _)

theorem initialRun_unused (devices : List Device) (partitions : List PartitionInfo) (world : W)
    (k : HandleId) :
    ((initialRun drivers devices partitions world).vfs.handles k).used = false := by
  have kept := (@vfsMountAllVolumes_evolves W C drivers
    (VfsState.reset devices partitions world)).handles
  unfold initialRun vfsInitialize
  dsimp only
  split
  · exact congrArg DiskHandle.used (congrFun kept k)
  · exact congrArg DiskHandle.used (congrFun kept k)

theorem ReferencesInv.initial (devices : List Device) (partitions : List PartitionInfo)
    (world : W) : ReferencesInv (initialRun drivers devices partitions world) := by
  refine ⟨RunInv.initial devices partitions world, ?_⟩
  intro k m used
  rw [initialRun_unused] at used
  cases used

structure ReferencesCounted (drivers : Drivers W C) (s : VfsState W C) : Prop where
  counted : ∀ m mount, s.fs.mounts m = some mount → mount.referenceCount = refCount s.handles m
  kept : ∀ m, (s.fs.unmount drivers m).1 = true →
    ∀ k, (s.handles k).used = true → (s.handles k).mount ≠ some m
  live : ∀ k m, (s.handles k).used = true → (s.handles k).mount = some m →
    s.fs.generationOf m = some (s.handles k).mountGeneration

/-- In every state of every run, an active mount counts the handles that are open on it,
no unmount succeeds while there is one, and the mount of an open handle is active and is
the one that the handle was opened on. -/
theorem references_counted (drivers : Drivers W C) (devices : List Device)
    (partitions : List PartitionInfo) (world : W) (ops : List (VfsOp W)) :
    ReferencesCounted drivers (runOps drivers (initialRun drivers devices partitions world) ops).vfs := by
  obtain ⟨inv, live⟩ := runOps_preserves ReferencesInv.step ops _
    (@ReferencesInv.initial W C drivers devices partitions world)
  have counted := inv.counted
  refine ⟨?_, ?_, fun k m used mount => (live k m used mount).2⟩
  · intro m mount active
    have count := counted m
    simp only [Filesystems.refs, active] at count
    exact count
  · intro m unmounted k used mount
    -- a mount that is given up has no reference, but the handle is one
    have freed := Filesystems.unmount_cases (Prod.ext unmounted rfl)
    have unreferenced := freed.1
    rw [counted] at unreferenced
    exact refCount_pos used mount unreferenced

end AsasOs.Vfs
