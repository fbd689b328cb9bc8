import AsasOs.Vfs.Tables

/-!
# What a handle reads

A run of the VFS, next to which is recorded with which path each handle was opened
and where that path was routed to at that moment. As long as the path fits the
handle, a read through the handle is a read of that path on that mount.
-/
namespace AsasOs.Vfs

open Block CString

variable {W C : Type}

/-! ### Runs -/

/-- Where a path was routed to: a mount and the path on it, or the legacy volume. -/
inductive Route where
  | mount (slot : MountId) (generation : Nat) (relative : CString)
  | primary (fs : FsType) (target lun : UInt8)
  deriving DecidableEq

/-- The path that a handle was opened with, in full, and its route at that moment. -/
structure Opened where
  path : CString
  route : Route
  deriving DecidableEq

structure Run (W C : Type) where
  vfs : VfsState W C
  opened : HandleId → Option Opened

def routeOf (s : VfsState W C) (path : CString) : Route :=
  match mountForPath s path with
  | (some slot, relative) => .mount slot ((s.fs.generationOf slot).getD 0) relative
  | (none, _) => .primary s.activeFs (primaryAddress s).1 (primaryAddress s).2

inductive VfsOp (W : Type) where
  | openFile (path : CString)
  | read (handle size : Nat)
  | close (handle : Nat)
  | mountDevice (name mountPoint : CString) (flags : UInt32)
  | rescan (devices : List Device) (partitions : List PartitionInfo) (world : W)
  | unmount (mountPoint : CString)
  | remount (mountPoint : CString) (flags : UInt32)
  | removeDevice (name : CString)
  /-- writes to the volumes, and whatever else changes what they hold -/
  | external (world : W)

/-- The number of a disk handle, without asking whether it is in use. -/
def handleIndex (handle : Nat) : Option HandleId :=
  if bound : handle - 2 < VFS_DISK_HANDLE_COUNT ∧ 2 ≤ handle then some ⟨handle - 2, bound.1⟩
  else none

variable (drivers : Drivers W C)

def vfsStep (run : Run W C) : VfsOp W → Run W C
  | .openFile path =>
    match vfsOpen drivers run.vfs path with
    | (handle, vfs) =>
      match handleIndex handle with
      | none => ⟨vfs, run.opened⟩
      | some k =>
        ⟨vfs, Function.update run.opened k (some ⟨path, routeOf run.vfs path⟩)⟩
  | .read handle size => { run with vfs := (vfsRead drivers run.vfs handle size).2 }
  | .close handle =>
    { vfs := (vfsClose run.vfs handle).2
      opened := match diskHandle run.vfs handle with
        | none => run.opened
        | some k => Function.update run.opened k none }
  | .mountDevice name mountPoint flags =>
    { run with vfs := (vfsMountDevice drivers run.vfs name mountPoint flags).2 }
  | .rescan devices partitions world =>
    { run with vfs := vfsRescanDevices drivers run.vfs devices partitions world }
  | .unmount mountPoint => { run with vfs := (vfsUnmount drivers run.vfs mountPoint).2 }
  | .remount mountPoint flags =>
    { run with vfs := (vfsRemount drivers run.vfs mountPoint flags).2 }
  | .removeDevice name => { run with vfs := vfsHandleDeviceRemoved drivers run.vfs name }
  | .external world => { run with vfs := run.vfs.setWorld world }

/-- What a direct read of a path returns on the mount of its route; nothing when that
mount is gone. -/
def directRead (s : VfsState W C) (opened : Opened) (size : Nat) : List UInt8 :=
  match opened.route with
  | .mount slot generation relative =>
    if s.fs.generationOf slot = some generation then (s.fs.read drivers slot relative size).1
    else []
  | .primary fs target lun =>
    (drivers.primaryRead (drivers.selectPrimary s.fs.world fs target lun) fs opened.path size).1

/-- A read through a disk handle that returns bytes returns those of a direct read of
the path it was opened with. -/
def ReadsDirectly (run : Run W C) : VfsOp W → Prop
  | .read handle size =>
    ∀ k opened, diskHandle run.vfs handle = some k → run.opened k = some opened →
      (vfsRead drivers run.vfs handle size).1 ≠ [] →
        (vfsRead drivers run.vfs handle size).1 = directRead drivers run.vfs opened size
  | _ => True

/-- A step that is not a read through a handle that has lost its file. There are two ways
to lose it: a path that does not fit the handle, and, for a handle of the legacy volume,
a path that has become routed to a mount or a volume that has got another address. -/
def KeepsIdentity (run : Run W C) : VfsOp W → Prop
  | .read handle _ =>
    ∀ k opened, diskHandle run.vfs handle = some k → run.opened k = some opened →
      opened.path.length < VFS_PATH_CAPACITY ∧
      ∀ fs target lun, opened.route = .primary fs target lun →
        (mountForPath run.vfs opened.path).1 = none ∧ primaryAddress run.vfs = (target, lun)
  | _ => True

/-- Every step keeps clear in the state in which it is made. -/
def AllKeepIdentity (run : Run W C) : List (VfsOp W) → Prop
  | [] => True
  | op :: rest => KeepsIdentity run op ∧ AllKeepIdentity (vfsStep drivers run op) rest

def AllReadDirectly (run : Run W C) : List (VfsOp W) → Prop
  | [] => True
  | op :: rest => ReadsDirectly drivers run op ∧ AllReadDirectly (vfsStep drivers run op) rest

/-- The state after `vfs_initialize`, with no handle open. -/
def initialRun (devices : List Device) (partitions : List PartitionInfo) (world : W) : Run W C :=
  ⟨vfsInitialize drivers devices partitions world, fun _ => none⟩

variable {drivers}

/-! ### Routes -/

/-- The path on volume `i` that a path becomes when it is routed there. -/
def relativeOn (i : VolumeId) (mountPoint path : CString) : CString :=
  if 0 < mountPoint.length ∧ pathHasPrefix path mountPoint = true then
    relativePath path mountPoint.length
  else if diskAlias path = some i.val then relativePath path 6
  else if pathHasPrefix path systemPath then relativePath path 7
  else path

/-- Volume `i` is in use, and a path lies at or under its mount point. -/
def Matches (s : VfsState W C) (path : CString) (i : VolumeId) : Prop :=
  i.val < s.volumeCount ∧ (s.volumes i).valid = true ∧ 0 < (s.volumes i).mountPoint.length ∧
    pathHasPrefix path (s.volumes i).mountPoint = true

variable {s : VfsState W C} {path : CString}

theorem bestVolume_some {i : VolumeId} : ∀ (volumes : List VolumeId) (best : Option VolumeId)
    (length : Nat),
      bestVolume s path volumes best length = some i → best = some i ∨ Matches s path i := by
  intro volumes
  induction volumes with
  | nil =>
    intro best length found
    exact Or.inl found
  | cons j rest ih =>
    intro best length found
    rw [bestVolume] at found
    split at found
    · rename_i better
      rcases ih _ _ found with here | later
      · cases here
        exact Or.inr ⟨better.1, better.2.1, by omega, better.2.2.2⟩
      · exact Or.inr later
    · exact ih _ _ found

theorem bestVolume_kept {i : VolumeId} : ∀ (volumes : List VolumeId) (length : Nat),
      bestVolume s path volumes (some i) length ≠ none := by
  intro volumes
  induction volumes generalizing i with
  | nil =>
    intro length impossible
    cases impossible
  | cons j rest ih =>
    intro length
    rw [bestVolume]
    split
    · exact ih _
    · exact ih _

theorem bestVolume_none : ∀ (volumes : List VolumeId), bestVolume s path volumes none 0 = none →
      ∀ i ∈ volumes, ¬Matches s path i := by
  intro volumes
  induction volumes with
  | nil => simp
  | cons j rest ih =>
    intro missing i member
    rw [bestVolume] at missing
    split at missing
    · exact absurd missing (bestVolume_kept _ _)
    · rename_i worse
      rcases List.mem_cons.mp member with rfl | later
      · exact worse
      · exact ih missing i later

theorem mountForPath_relative (inv : TableInv s) {path relative : CString}
    {m : MountId} (routed : mountForPath s path = (some m, relative)) :
    ∃ i, s.mounts i = some m ∧ relative = relativeOn i (s.volumes i).mountPoint path := by
  unfold mountForPath at routed
  split at routed
  · rename_i i relative' volume
    obtain ⟨owned, rfl⟩ := Prod.mk.inj routed
    refine ⟨i, owned, ?_⟩
    obtain ⟨bound, valid, _⟩ := inv.owned i m owned
    unfold volumeForPath at volume
    split at volume
    · rename_i j rel selected
      cases volume
      unfold selectVolumeForPath at selected
      split at selected
      · rename_i best found
        cases selected
        rcases bestVolume_some _ _ _ found with impossible | matching
        · cases impossible
        · rw [relativeOn, if_pos matching.2.2]
      · rename_i missing
        have unmatched := bestVolume_none _ missing i (List.mem_finRange i)
        split at selected
        · cases selected
        · rename_i n named
          split at selected
          · split at selected
            · cases selected
              rw [relativeOn, if_neg fun matching => unmatched ⟨bound, valid, matching⟩, if_pos named]
            · cases selected
          · cases selected
    · rename_i unselected
      have first : i = firstVolume := by
        split at volume
        · exact (Option.some.inj (Prod.ext_iff.mp volume).1).symm
        · have here := (Prod.ext_iff.mp volume).1
          dsimp only at here
          split at here
          · exact (Option.some.inj here).symm
          · cases here
      subst first
      unfold selectVolumeForPath at unselected
      split at unselected
      · cases unselected
      · rename_i missing
        have unmatched := bestVolume_none _ missing firstVolume (List.mem_finRange _)
        have unnamed : diskAlias path ≠ some firstVolume.val := by
          intro named
          rw [named] at unselected
          dsimp only at unselected
          rw [dif_pos firstVolume.isLt, if_pos ⟨bound, valid⟩] at unselected
          cases unselected
        rw [relativeOn, if_neg fun matching => unmatched ⟨bound, valid, matching⟩, if_neg unnamed]
        have positive : 0 < s.volumeCount := bound
        split at volume
        · rename_i system
          rw [if_pos system.1]
          exact (Prod.ext_iff.mp volume).2.symm
        · rename_i system
          rw [if_neg fun prefixed => system ⟨prefixed, positive⟩]
          exact (Prod.ext_iff.mp volume).2.symm
  · cases routed

/-! ### References -/

def refCount (handles : HandleId → DiskHandle) (m : MountId) : Nat :=
  ∑ k, if (handles k).used = true ∧ (handles k).mount = some m then 1 else 0

theorem refCount_update (handles : HandleId → DiskHandle) (k : HandleId) (handle : DiskHandle)
    (m : MountId) :
    refCount (Function.update handles k handle) m +
        (if (handles k).used = true ∧ (handles k).mount = some m then 1 else 0) =
      refCount handles m + (if handle.used = true ∧ handle.mount = some m then 1 else 0) := by
  unfold refCount
  rw [← Finset.add_sum_erase _ _ (Finset.mem_univ k), Function.update_self,
    ← Finset.add_sum_erase _ (fun k => if (handles k).used = true ∧ _ then 1 else 0)
      (Finset.mem_univ k)]
  have others :
      (∑ j ∈ Finset.univ.erase k, if (Function.update handles k handle j).used = true ∧
        (Function.update handles k handle j).mount = some m then 1 else 0) =
      ∑ j ∈ Finset.univ.erase k, if (handles j).used = true ∧ (handles j).mount = some m
        then 1 else 0 := by
    refine Finset.sum_congr rfl fun j member => ?_
    rw [Function.update_of_ne (Finset.ne_of_mem_erase member)]
  rw [others]
  omega

theorem refCount_pos {handles : HandleId → DiskHandle} {k : HandleId} {m : MountId}
    (used : (handles k).used = true) (mount : (handles k).mount = some m) :
    refCount handles m ≠ 0 := by
  have first := Finset.add_sum_erase Finset.univ
    (fun j => if (handles j).used = true ∧ (handles j).mount = some m then 1 else 0)
    (Finset.mem_univ k)
  rw [if_pos ⟨used, mount⟩] at first
  unfold refCount
  omega

/-- States with the same mounts at the same mount points. -/
structure SameTables (s s' : VfsState W C) : Prop where
  volumes : s'.volumes = s.volumes
  mounts : s'.mounts = s.mounts
  volumeCount : s'.volumeCount = s.volumeCount
  activeFs : s'.activeFs = s.activeFs
  generationOf : ∀ m, s'.fs.generationOf m = s.fs.generationOf m

namespace SameTables

theorem trans {s t u : VfsState W C} (first : SameTables s t) (second : SameTables t u) :
    SameTables s u where
  volumes := second.volumes.trans first.volumes
  mounts := second.mounts.trans first.mounts
  volumeCount := second.volumeCount.trans first.volumeCount
  activeFs := second.activeFs.trans first.activeFs
  generationOf := fun m => (second.generationOf m).trans (first.generationOf m)

theorem isSome {s s' : VfsState W C} (same : SameTables s s') (m : MountId) :
    (s'.fs.mounts m).isSome = (s.fs.mounts m).isSome := by
  have generation := congrArg Option.isSome (same.generationOf m)
  simpa only [Filesystems.generationOf, Option.isSome_map] using generation

theorem table {s s' : VfsState W C} (same : SameTables s s') (inv : TableInv s) : TableInv s' := by
  refine ⟨?_, ?_, ?_⟩
  · intro i m here
    rw [same.mounts] at here
    rw [same.volumes, same.volumeCount, same.isSome]
    exact inv.owned i m here
  · rw [same.mounts]
    exact inv.unique
  · rw [same.volumes, same.mounts]
    exact inv.mounted

end SameTables

theorem setHandle_same (s : VfsState W C) (k : HandleId) (handle : DiskHandle) :
    SameTables s (s.setHandle k handle) := ⟨rfl, rfl, rfl, rfl, fun _ => rfl⟩

theorem setMount_same {m : MountId} {mount : Mount C} (here : s.fs.mounts m = some mount) (count : Nat) :
    SameTables s
      { s with fs := s.fs.setMount m (some { mount with referenceCount := count }) } := by
  refine ⟨rfl, rfl, rfl, rfl, ?_⟩
  intro m'
  by_cases same : m' = m
  · subst same
    simp only [Filesystems.generationOf, Filesystems.setMount, Function.update_self, here, Option.map_some]
  · simp only [Filesystems.generationOf, Filesystems.setMount, Function.update_of_ne same]

theorem refs_setMount (fs : Filesystems W C) (m m' : MountId) (mount : Mount C) :
    (fs.setMount m (some mount)).refs m' = if m' = m then mount.referenceCount else fs.refs m' := by
  by_cases same : m' = m
  · subst same
    simp only [Filesystems.refs, Filesystems.setMount, Function.update_self, if_pos]
  · simp only [Filesystems.refs, Filesystems.setMount, Function.update_of_ne same, if_neg same]

theorem release_same (s : VfsState W C) (m : MountId) : SameTables s { s with fs := s.fs.release m } ∧
      ∀ m', (s.fs.release m).refs m' = s.fs.refs m' - (if m' = m then 1 else 0) := by
  have refl : SameTables s s := ⟨rfl, rfl, rfl, rfl, fun _ => rfl⟩
  unfold Filesystems.release
  split
  · rename_i gone
    refine ⟨refl, fun m' => ?_⟩
    split
    · rename_i same
      subst same
      simp only [Filesystems.refs, gone, Nat.zero_sub]
    · rfl
  · rename_i mount here
    split
    · refine ⟨setMount_same here _, fun m' => ?_⟩
      rw [refs_setMount]
      split
      · rename_i same
        subst same
        simp only [Filesystems.refs, here]
      · rfl
    · rename_i unreferenced
      refine ⟨refl, fun m' => ?_⟩
      split
      · rename_i same
        subst same
        simp only [Filesystems.refs, here]
        omega
      · rfl

theorem acquire_same {m : MountId} {fs' : Filesystems W C} (acquired : s.fs.acquire m = (true, fs')) :
    SameTables s { s with fs := fs' } ∧
      ∀ m', fs'.refs m' = s.fs.refs m' + (if m' = m then 1 else 0) := by
  unfold Filesystems.acquire at acquired
  split at acquired
  · cases acquired
  · rename_i mount here
    cases acquired
    refine ⟨setMount_same here _, fun m' => ?_⟩
    rw [refs_setMount]
    split
    · rename_i same
      subst same
      simp only [Filesystems.refs, here]
    · rfl

/-! ### The invariant of a run -/

def RouteHolds (s : VfsState W C) (handle : DiskHandle) (path : CString) : Route → Prop
  | .mount slot generation relative =>
    handle.mount = some slot ∧ handle.mountGeneration = generation ∧
      ∃ i, s.mounts i = some slot ∧ relative = relativeOn i (s.volumes i).mountPoint path
  | .primary fs _ _ => handle.mount = none ∧ s.activeFs = fs

structure Holds (s : VfsState W C) (handle : DiskHandle) (opened : Opened) : Prop where
  used : handle.used = true
  path : handle.path = copyString opened.path VFS_PATH_CAPACITY
  route : RouteHolds s handle opened.path opened.route

/-- Mounts count the handles that refer to them, and handles are what they were opened
as. -/
structure RunInv (run : Run W C) : Prop where
  table : TableInv run.vfs
  counted : ∀ m, run.vfs.fs.refs m = refCount run.vfs.handles m
  holds : ∀ k opened, run.opened k = some opened → Holds run.vfs (run.vfs.handles k) opened

theorem Holds.evolves {s s' : VfsState W C} {k : HandleId} {opened : Opened}
    (table : TableInv s) (counted : ∀ m, s.fs.refs m = refCount s.handles m)
    (holds : Holds s (s.handles k) opened) (step : Evolves s s') :
    Holds s' (s'.handles k) opened := by
  rw [step.handles]
  refine ⟨holds.used, holds.path, ?_⟩
  have route := holds.route
  cases target : opened.route with
  | mount slot generation relative =>
    rw [target] at route
    obtain ⟨mount, recorded, i, owned, here⟩ := route
    -- the handle itself is a reference, and so the mount stays where it is
    have positive : s.fs.refs slot ≠ 0 := by
      rw [counted]
      exact refCount_pos holds.used mount
    obtain ⟨owned', point, _⟩ := step.referenced table i slot owned positive
    exact ⟨mount, recorded, i, owned', by rw [point]; exact here⟩
  | primary fs t l =>
    rw [target] at route
    exact ⟨route.1, step.activeFs.trans route.2⟩

variable {run : Run W C}

theorem RunInv.evolves (inv : RunInv run) {s' : VfsState W C}
    (step : Evolves run.vfs s') : RunInv ⟨s', run.opened⟩ where
  table := step.table inv.table
  counted := by
    intro m
    rw [step.refs, step.handles]
    exact inv.counted m
  holds := by
    intro k opened here
    exact (inv.holds k opened here).evolves inv.table inv.counted step

theorem Holds.same {s s' : VfsState W C} {handle : DiskHandle} {opened : Opened}
    (holds : Holds s handle opened) (same : SameTables s s') : Holds s' handle opened := by
  refine ⟨holds.used, holds.path, ?_⟩
  have route := holds.route
  cases target : opened.route with
  | mount slot generation relative =>
    rw [target] at route
    obtain ⟨mount, recorded, i, owned, here⟩ := route
    refine ⟨mount, recorded, i, ?_, ?_⟩
    · rw [same.mounts]
      exact owned
    · rw [same.volumes]
      exact here
  | primary fs t l =>
    rw [target] at route
    exact ⟨route.1, same.activeFs.trans route.2⟩

/-! ### Opening -/

theorem setWorld_same (s : VfsState W C) (world : W) : SameTables s (s.setWorld world) :=
  ⟨rfl, rfl, rfl, rfl, fun _ => rfl⟩

/-- A step that takes a reference to a mount, or none. -/
structure Takes (s s' : VfsState W C) (mount : Option MountId) : Prop where
  same : SameTables s s'
  handles : s'.handles = s.handles
  refs : ∀ m, s'.fs.refs m = s.fs.refs m + (if mount = some m then 1 else 0)

theorem Takes.setWorld (s : VfsState W C) (world : W) : Takes s (s.setWorld world) none :=
  ⟨setWorld_same s world, rfl, fun _ => rfl⟩

theorem Takes.selectPrimary (s : VfsState W C) : Takes s (selectPrimary drivers s) none := by
  unfold Vfs.selectPrimary
  split
  · exact ⟨⟨rfl, rfl, rfl, rfl, fun _ => rfl⟩, rfl, fun _ => rfl⟩
  · exact .setWorld s _

theorem Takes.trans {s t u : VfsState W C} {mount : Option MountId} (first : Takes s t none)
    (second : Takes t u mount) : Takes s u mount where
  same := first.same.trans second.same
  handles := second.handles.trans first.handles
  refs := by
    intro m
    rw [second.refs, first.refs]
    rfl

theorem stat_world {fs fs' : Filesystems W C} {slot : MountId} {result : Option FileStat}
    (found : fs.stat drivers slot path = (result, fs')) :
    ∃ world, fs' = { fs with world := world } := by
  unfold Filesystems.stat at found
  split at found
  · cases found
    exact ⟨fs.world, rfl⟩
  · cases found
    exact ⟨_, rfl⟩

theorem openMount_takes {s s' : VfsState W C} {result : Option (Option MountId)}
    (opened : openMount drivers s path = (result, s')) :
    match result with
    | none => Takes s s' none
    | some mount => Takes s s' mount ∧ mount = (mountForPath s path).1 := by
  unfold openMount at opened
  split at opened
  · rename_i m relative routed
    split at opened
    · rename_i fs missing
      obtain ⟨world, rfl⟩ := stat_world missing
      cases opened
      exact .setWorld s world
    · rename_i stat fs present
      obtain ⟨world, rfl⟩ := stat_world present
      dsimp only at opened
      split at opened
      · cases opened
        exact .setWorld s world
      · split at opened
        · rename_i fs refused
          cases opened
          have unchanged : fs = { s.fs with world := world } := by
            unfold Filesystems.acquire at refused
            split at refused
            · exact (Prod.mk.inj refused).2.symm
            · cases refused
          subst unchanged
          exact .setWorld s world
        · rename_i fs acquired
          cases opened
          obtain ⟨same, refs⟩ := acquire_same (s := s.setWorld world) acquired
          refine ⟨(Takes.setWorld s world).trans ⟨same, rfl, fun m' => ?_⟩, by rw [routed]⟩
          rw [refs m']
          simp only [Option.some.injEq, eq_comm]
  · rename_i relative unrouted
    dsimp only at opened
    split at opened
    · cases opened
      exact (Takes.selectPrimary s).trans (.setWorld _ _)
    · cases opened
      exact ⟨(Takes.selectPrimary s).trans (.setWorld _ _), by rw [unrouted]⟩

theorem handleIndex_disk (k : HandleId) : handleIndex (k.val + 2) = some k := by
  unfold handleIndex
  rw [dif_pos ⟨k.isLt, Nat.le_add_left 2 k.val⟩]
  rfl

theorem freeHandle_unused {k : HandleId} (free : freeHandle s = some k) :
    (s.handles k).used = false := by
  simpa using List.find?_some free

theorem routeHolds_opened {s s' : VfsState W C} (inv : TableInv s) (same : SameTables s s')
    (path : CString) :
    RouteHolds s' (openedHandle s' path (mountForPath s path).1) path (routeOf s path) := by
  unfold routeOf
  split
  · rename_i slot relative routed
    obtain ⟨i, owned, here⟩ := mountForPath_relative inv routed
    refine ⟨by rw [routed]; rfl, ?_, i, ?_, ?_⟩
    · have generation := same.generationOf slot
      simp only [Filesystems.generationOf] at generation
      simp only [openedHandle, routed, Option.bind_some, Filesystems.generationOf, generation]
    · rw [same.mounts]
      exact owned
    · rw [same.volumes]
      exact here
  · rename_i relative unrouted
    exact ⟨by rw [unrouted]; rfl, same.activeFs⟩

theorem RunInv.openHandle (inv : RunInv run) {s' : VfsState W C} {path : CString}
    {k : HandleId} (takes : Takes run.vfs s' (mountForPath run.vfs path).1)
    (free : freeHandle s' = some k) :
    RunInv ⟨s'.setHandle k (openedHandle s' path (mountForPath run.vfs path).1),
        Function.update run.opened k (some ⟨path, routeOf run.vfs path⟩)⟩ := by
  have same := takes.same.trans
    (setHandle_same s' k (openedHandle s' path (mountForPath run.vfs path).1))
  refine ⟨same.table inv.table, ?_, ?_⟩
  · intro m
    have counts := refCount_update s'.handles k
      (openedHandle s' path (mountForPath run.vfs path).1) m
    rw [freeHandle_unused free] at counts
    simp only [openedHandle, Bool.false_eq_true, false_and, if_false, true_and,
      Nat.add_zero] at counts
    rw [VfsState.setHandle, openedHandle, counts, takes.refs m, inv.counted m, takes.handles]
  · intro j opened here
    dsimp only at here ⊢
    rw [VfsState.setHandle]
    dsimp only
    by_cases this : j = k
    · subst this
      rw [Function.update_self] at here ⊢
      cases here
      exact ⟨rfl, rfl, routeHolds_opened inv.table same path⟩
    · rw [Function.update_of_ne this] at here ⊢
      have holds := inv.holds j opened here
      rw [← takes.handles] at holds
      exact holds.same same

theorem RunInv.same (inv : RunInv run) {s' : VfsState W C}
    (same : SameTables run.vfs s') (handles : s'.handles = run.vfs.handles)
    (refs : ∀ m, s'.fs.refs m = run.vfs.fs.refs m) : RunInv ⟨s', run.opened⟩ where
  table := same.table inv.table
  counted := by
    intro m
    rw [refs, handles]
    exact inv.counted m
  holds := by
    intro k opened here
    rw [handles]
    exact (inv.holds k opened here).same same

theorem RunInv.openFile (inv : RunInv run) (path : CString) :
    RunInv (vfsStep drivers run (.openFile path)) := by
  simp only [vfsStep, vfsOpen]
  by_cases welcome : path = welcomePath
  · rw [if_pos welcome]
    exact inv
  · rw [if_neg welcome]
    rcases taken : openMount drivers run.vfs path with ⟨_ | mount, s'⟩
    · have takes := openMount_takes taken
      exact inv.same takes.same takes.handles fun m => takes.refs m
    · obtain ⟨takes, mountIs⟩ := openMount_takes taken
      subst mountIs
      dsimp only
      cases free : freeHandle s' with
      | some k =>
        dsimp only
        rw [handleIndex_disk]
        exact inv.openHandle takes free
      | none =>
        -- the reference that was taken is given back
        cases routed : (mountForPath run.vfs path).1 with
        | some slot =>
          obtain ⟨same, refs⟩ := release_same s' slot
          refine inv.same (takes.same.trans same) takes.handles fun m => ?_
          dsimp only
          rw [refs m, takes.refs m, routed]
          simp only [Option.some.injEq, eq_comm (a := m)]
          omega
        | none =>
          refine inv.same takes.same takes.handles fun m => ?_
          dsimp only
          rw [takes.refs m, routed]
          rfl

/-! ### Closing and reading -/

theorem diskHandle_used {handle : Nat} {k : HandleId}
    (found : diskHandle s handle = some k) : (s.handles k).used = true := by
  unfold diskHandle at found
  split at found
  · split at found
    · cases found
      assumption
    · cases found
  · cases found

theorem RunInv.closeHandle (inv : RunInv run) {k : HandleId} (used : (run.vfs.handles k).used = true) :
    RunInv ⟨closeHandle run.vfs k, Function.update run.opened k none⟩ := by
  have counts (m : MountId) := refCount_update run.vfs.handles k
    (closedHandle (run.vfs.handles k)) m
  simp only [closedHandle, used, Bool.false_eq_true, false_and, if_false, true_and,
    Nat.add_zero] at counts
  have others {s' : VfsState W C} (same : SameTables run.vfs s') (j : HandleId) (opened : Opened)
      (here : Function.update run.opened k none j = some opened) :
      Holds s' (Function.update run.vfs.handles k (closedHandle (run.vfs.handles k)) j)
        opened := by
    by_cases this : j = k
    · subst this
      rw [Function.update_self] at here
      cases here
    · rw [Function.update_of_ne this] at here ⊢
      exact (inv.holds j opened here).same same
  have forgets := setHandle_same run.vfs k (closedHandle (run.vfs.handles k))
  unfold Vfs.closeHandle
  split
  · rename_i m mount
    obtain ⟨same, refs⟩ :=
      release_same (run.vfs.setHandle k (closedHandle (run.vfs.handles k))) m
    refine ⟨(forgets.trans same).table inv.table, ?_, others (forgets.trans same)⟩
    intro m'
    have count := counts m'
    rw [mount] at count
    simp only [Option.some.injEq, eq_comm (a := m)] at count
    have released : (run.vfs.fs.release m).refs m' = _ := refs m'
    have before : (run.vfs.setHandle k (closedHandle (run.vfs.handles k))).fs.refs m' = _ :=
      inv.counted m'
    dsimp only
    rw [released, before, ← count]
    exact Nat.add_sub_cancel _ _
  · rename_i unrouted
    refine ⟨forgets.table inv.table, ?_, others forgets⟩
    intro m'
    have count := counts m'
    rw [unrouted] at count
    exact (inv.counted m').trans count.symm

theorem RunInv.close (inv : RunInv run) (handle : Nat) :
    RunInv (vfsStep drivers run (.close handle)) := by
  simp only [vfsStep, vfsClose]
  cases found : diskHandle run.vfs handle with
  | none =>
    split
    · exact inv
    · exact inv
  | some k =>
    have used := diskHandle_used found
    split
    · rename_i welcome
      subst welcome
      cases found
    · exact inv.closeHandle used

theorem fsRead_world (drivers : Drivers W C) (fs : Filesystems W C) (slot : MountId)
    (path : CString) (size : Nat) :
    ∃ world, (fs.read drivers slot path size).2 = { fs with world := world } := by
  unfold Filesystems.read
  split
  · exact ⟨fs.world, rfl⟩
  · exact ⟨_, rfl⟩

theorem vfsReadDisk_evolves (s : VfsState W C) (handle : DiskHandle) (size : Nat) :
    Evolves s (vfsReadDisk drivers s handle size).2 := by
  simp only [vfsReadDisk]
  split
  · exact .refl s
  · split
    · rename_i m _
      obtain ⟨world, read⟩ := fsRead_world drivers s.fs m _ size
      dsimp only
      rw [read]
      exact setWorld_evolves s world
    · exact (selectPrimary_evolves s).trans (setWorld_evolves _ _)

theorem vfsRead_evolves (s : VfsState W C) (handle size : Nat) :
    Evolves s (vfsRead drivers s handle size).2 := by
  unfold vfsRead
  split
  · exact vfsReadDisk_evolves s _ size
  · split
    · exact .refl s
    · exact .refl s

theorem selectPrimary_unrouted (drivers : Drivers W C) {s : VfsState W C} (inv : TableInv s)
    {path : CString}
    (unrouted : (mountForPath s path).1 = none) :
    selectPrimary drivers s = s.setWorld (drivers.selectPrimary s.fs.world s.activeFs
      (primaryAddress s).1 (primaryAddress s).2) := by
  unfold selectPrimary
  rw [if_neg]
  rintro ⟨positive, present⟩
  -- some volume is found for the path, and it is valid or it is the first one
  have mounted : ∀ i relative, volumeForPath s path = (some i, relative) →
      (s.mounts i).isSome = true := by
    intro i relative found
    unfold volumeForPath at found
    split at found
    · rename_i j _ selected
      cases found
      unfold selectVolumeForPath at selected
      split at selected
      · rename_i best here
        cases selected
        rcases bestVolume_some _ _ _ here with impossible | matching
        · cases impossible
        · exact inv.mounted i matching.2.1
      · split at selected
        · cases selected
        · split at selected
          · split at selected
            · rename_i valid
              cases selected
              exact inv.mounted _ valid.2
            · cases selected
          · cases selected
    · split at found
      · cases found
        exact present
      · cases found
        exact present
  unfold mountForPath at unrouted
  split at unrouted
  · rename_i i relative found
    have here := mounted i relative found
    have gone : s.mounts i = none := unrouted
    rw [gone] at here
    cases here
  · rename_i relative missing
    unfold volumeForPath at missing
    split at missing
    · cases missing
    · split at missing
      · cases missing
      · cases missing

theorem readDisk_directly (inv : TableInv s) {handle : DiskHandle}
    {opened : Opened} (holds : Holds s handle opened) (size : Nat)
    (fits : opened.path.length < VFS_PATH_CAPACITY)
    (keeps : ∀ fs target lun, opened.route = .primary fs target lun →
      (mountForPath s opened.path).1 = none ∧ primaryAddress s = (target, lun))
    (success : (vfsReadDisk drivers s handle size).1 ≠ []) :
    (vfsReadDisk drivers s handle size).1 = directRead drivers s opened size := by
  have path : copyString handle.path VFS_PATH_CAPACITY = opened.path := by
    rw [holds.path, copyString_of_fits fits, copyString_of_fits fits]
  have route := holds.route
  unfold vfsReadDisk at success ⊢
  unfold directRead
  rw [path] at success ⊢
  dsimp only at success ⊢
  cases target : opened.route with
  | mount slot generation relative =>
    rw [target] at route
    obtain ⟨mount, recorded, i, owned, here⟩ := route
    rcases routed : mountForPath s opened.path with ⟨found, relative'⟩
    rw [routed] at success
    dsimp only at success ⊢
    by_cases lost : mountLost s handle found = true
    · rw [if_pos lost] at success
      exact absurd rfl success
    · rw [if_neg lost]
      simp only [mountLost, mount, Bool.or_eq_true, not_or, bne_iff_ne, ne_eq, not_not] at lost
      obtain ⟨alive, rfl⟩ := lost
      cases active : s.fs.mounts slot with
      | none =>
        rw [active] at alive
        exact absurd rfl alive
      | some m =>
        rw [active] at alive
        have current : m.generation = generation := by simpa [recorded] using alive
        have here' : s.fs.generationOf slot = some generation := by
          simp only [Filesystems.generationOf, active, Option.map_some, current]
        obtain ⟨j, owned', relative''⟩ := mountForPath_relative inv routed
        have same := inv.unique i j slot owned owned'
        subst same
        dsimp only
        rw [if_pos here', here, relative'']
  | primary fs t l =>
    rw [target] at route
    obtain ⟨mount, rfl⟩ := route
    obtain ⟨unrouted, address⟩ := keeps _ t l target
    have selected := selectPrimary_unrouted drivers inv unrouted
    rcases routed : mountForPath s opened.path with ⟨found, relative'⟩
    rw [routed] at unrouted
    dsimp only at unrouted ⊢
    subst unrouted
    have kept : ¬mountLost s handle none = true := by simp [mountLost, mount]
    rw [if_neg kept, selected, address]
    rfl

/-! ### Runs -/

theorem RunInv.step (inv : RunInv run) (op : VfsOp W) : RunInv (vfsStep drivers run op) := by
  cases op with
  | openFile path => exact inv.openFile path
  | read handle size => exact inv.evolves (vfsRead_evolves _ handle size)
  | close handle => exact inv.close handle
  | mountDevice name mountPoint flags => exact inv.evolves (vfsMountDevice_evolves _ _ _ _)
  | rescan devices partitions world => exact inv.evolves (vfsRescanDevices_evolves _ _ _ _)
  | unmount mountPoint => exact inv.evolves (vfsUnmount_evolves _ _)
  | remount mountPoint flags => exact inv.evolves (vfsRemount_evolves _ _ _)
  | removeDevice name => exact inv.evolves (vfsHandleDeviceRemoved_evolves _ _)
  | external world => exact inv.evolves (setWorld_evolves _ _)

theorem RunInv.readsDirectly (inv : RunInv run) {op : VfsOp W}
    (keeps : KeepsIdentity run op) : ReadsDirectly drivers run op := by
  cases op with
  | read handle size =>
    intro k opened found here success
    simp only [vfsRead, found] at success ⊢
    obtain ⟨fits, route⟩ := keeps k opened found here
    exact readDisk_directly inv.table (inv.holds k opened here) size fits route success
  | _ => trivial

theorem RunInv.initial (devices : List Device) (partitions : List PartitionInfo) (world : W) :
    RunInv (initialRun drivers devices partitions world) := by
  have reset : RunInv (W := W) (C := C)
      ⟨VfsState.reset devices partitions world, fun _ => none⟩ := by
    refine ⟨⟨?_, ?_, ?_⟩, ?_, ?_⟩
    · intro i m here
      cases here
    · intro i j m here
      cases here
    · intro i here
      cases here
    · intro m
      exact (Finset.sum_eq_zero fun k _ => rfl).symm
    · intro k opened here
      cases here
  have mounted : RunInv
      ⟨vfsMountAllVolumes drivers (VfsState.reset devices partitions world), fun _ => none⟩ :=
    reset.evolves (vfsMountAllVolumes_evolves _)
  unfold initialRun vfsInitialize
  dsimp only
  split
  · exact ⟨⟨mounted.table.owned, mounted.table.unique, mounted.table.mounted⟩, mounted.counted,
      fun k opened here => by cases here⟩
  · exact ⟨⟨mounted.table.owned, mounted.table.unique, mounted.table.mounted⟩, mounted.counted,
      fun k opened here => by cases here⟩

/-- In every run from `vfs_initialize`, every read through a handle is a direct read of
the path that the handle was opened with, as long as no handle is read that has a path
too long for it, or that is of a legacy volume which changed since. -/
theorem handles_read_their_file (drivers : Drivers W C) (devices : List Device)
    (partitions : List PartitionInfo) (world : W) (ops : List (VfsOp W))
    (keeps : AllKeepIdentity drivers (initialRun drivers devices partitions world) ops) :
    AllReadDirectly drivers (initialRun drivers devices partitions world) ops := by
  have runs : ∀ (ops : List (VfsOp W)) (run : Run W C), RunInv run →
      AllKeepIdentity drivers run ops → AllReadDirectly drivers run ops := by
    intro ops
    induction ops with
    | nil =>
      intro _ _ _
      trivial
    | cons op rest ih =>
      intro run inv keeps
      exact ⟨inv.readsDirectly keeps.1, ih _ (inv.step op) keeps.2⟩
  exact runs ops _ (RunInv.initial devices partitions world) keeps

/-! ### A volume with two files -/

def letters (n : Nat) : CString := List.replicate n 'a'

/-- A driver whose volume holds two files, with names of 55 and of 70 letters. -/
def twoFiles : Drivers Unit Unit where
  flags := fun _ => 0
  probe := fun world _ => (some .fat32, world)
  mount := fun world _ _ => (some ((), 0), world)
  stat := fun world _ _ path =>
    (some ⟨path == '/' :: letters 55 || path == '/' :: letters 70, false⟩, world)
  read := fun world _ _ path size =>
    (if path = '/' :: letters 55 then [1].take size
      else if path = '/' :: letters 70 then [2].take size else [], world)
  release := fun world _ _ => (true, world)
  flushBarrier := fun world _ => (true, world)
  selectPrimary := fun world _ _ _ => world
  primaryExists := fun world _ _ => (false, world)
  primaryRead := fun world _ _ _ => ([], world)

def systemDisk : Device :=
  { id := 1, name := ['d', 'i', 's', 'k', '0'], logicalBlockSize := 512, physicalBlockSize := 512
    blockCount := 4096, flags := 0, target := 0, lun := 0, startLba := 0, parent := none
    ops := .driver }

theorem handles_read_their_file_example :
    AllReadDirectly twoFiles (initialRun twoFiles [systemDisk] [] ())
      [.openFile (systemPath ++ '/' :: letters 55), .read 2 16, .close 2] := by
  refine handles_read_their_file twoFiles [systemDisk] [] () _ ⟨trivial, ?_, trivial, trivial⟩
  intro k opened found here
  have first : diskHandle (vfsStep twoFiles (initialRun twoFiles [systemDisk] [] ())
      (.openFile (systemPath ++ '/' :: letters 55))).vfs 2 = some ⟨0, by decide⟩ := by
    decide +kernel
  have route : (vfsStep twoFiles (initialRun twoFiles [systemDisk] [] ())
      (.openFile (systemPath ++ '/' :: letters 55))).opened ⟨0, by decide⟩ =
      some ⟨systemPath ++ '/' :: letters 55, .mount ⟨0, by decide⟩ 1 ('/' :: letters 55)⟩ := by
    decide +kernel
  rw [first] at found
  cases found
  rw [route] at here
  cases here
  refine ⟨by decide, ?_⟩
  intro fs target lun primary
  cases primary

/-- A path of 78 characters is opened, and the file of its first 63 is read. -/
theorem handle_reads_another_file : ¬AllReadDirectly twoFiles (initialRun twoFiles [systemDisk] [] ())
      [.openFile (systemPath ++ '/' :: letters 70), .read 2 16] := by
  rintro ⟨_, reads, _⟩
  have here := reads ⟨0, by decide⟩
    ⟨systemPath ++ '/' :: letters 70, .mount ⟨0, by decide⟩ 1 ('/' :: letters 70)⟩
    (by decide +kernel) (by decide +kernel)
  revert here
  decide +kernel

end AsasOs.Vfs
