import Mathlib.Data.Fintype.Pigeonhole
import AsasOs.Lib.Trace
import AsasOs.Vfs.References

/-!
# What is mounted where

The tables of `filesystem.c` and `vfs.c` without the drivers, the flags and the handles:
which devices are mounted, and which volumes own these mounts at which mount points.
They change by a few events, and every operation of the VFS is a run of such events;
what an operation checks before it acts is the condition on its events.
-/
namespace AsasOs.Vfs

open Block CString Trace

/-- The parents of the devices, the device and the generation of each mount, and the
mount point and the mount of each volume. -/
structure Tables where
  parents : List (Option Nat)
  mounted : MountId → Option (Nat × Nat)
  volumes : VolumeId → Option (CString × MountId)

inductive TableEvent where
  | find (parents : List (Option Nat))
  | mount (m : MountId) (id generation : Nat)
  | unmount (m : MountId)
  | enter (i : VolumeId) (point : CString) (m : MountId)
  | leave (i : VolumeId) (m : MountId)

namespace Tables

def apply (t : Tables) : TableEvent → Tables
  | .find parents => { t with parents := t.parents ++ parents }
  | .mount m id generation =>
    { t with mounted := Function.update t.mounted m (some (id, generation)) }
  | .unmount m => { t with mounted := Function.update t.mounted m none }
  | .enter i point m => { t with volumes := Function.update t.volumes i (some (point, m)) }
  | .leave i m =>
    { t with
      mounted := Function.update t.mounted m none
      volumes := Function.update t.volumes i none }

/-- A device is mounted, or a device on it. -/
def Mounted (t : Tables) (id : Nat) : Prop :=
  ∃ m d generation, t.mounted m = some (d, generation) ∧ (d = id ∨ t.parents[d]? = some (some id))

def Unowned (t : Tables) (m : MountId) : Prop := ∀ i point, t.volumes i ≠ some (point, m)

/-- A mount that no volume owns can be entered into the first entry that is not in use. -/
structure Enters (t : Tables) (i : VolumeId) (m : MountId) : Prop where
  free : t.volumes i = none
  first : ∀ j, j < i → t.volumes j ≠ none
  active : t.mounted m ≠ none
  unowned : t.Unowned m

end Tables

/-! ### The conditions on the events of an operation -/

def mediaPoints (kind : CString) : List CString :=
  (List.range 10).map fun number => appendDecimal (mediaPath ++ kind) number

def cdromKind : CString := ['/', 'c', 'd', 'r', 'o', 'm']
def usbKind : CString := ['/', 'u', 's', 'b']
def diskKind : CString := ['/', 'd', 'i', 's', 'k']

/-- The mount points that `choose_auto_mount_point` can choose. -/
def autoPoints : List CString :=
  dataPath :: (mediaPoints cdromKind ++ mediaPoints usbKind ++ mediaPoints diskKind)

/-- A mount point that an automatic mount gets. -/
def AutoPoint (t : Tables) (i : VolumeId) (point : CString) : Prop :=
  if i.val = 0 then point = systemPath
  else point ∈ autoPoints ∧ ∀ j m, t.volumes j ≠ some (point, m)

/-- An event of `vfs_mount_all_volumes`. -/
def AutoAllowed (t : Tables) : TableEvent → Prop
  | .mount m id _ =>
    t.mounted m = none ∧ ¬t.Mounted id ∧ (t.parents[id]? = some none → some id ∉ t.parents)
  | .enter i point m => t.Enters i m ∧ AutoPoint t i point
  | .unmount m => t.Unowned m
  | _ => False

/-- A mount point that `vfs_mount_device` does not refuse. -/
structure Accepts (t : Tables) (point : CString) : Prop where
  absolute : point.head? = some '/'
  proper : point ≠ ['/'] ∧ point ≠ mediaPath
  apart : ∀ i other m, t.volumes i = some (other, m) →
    pathHasPrefix point other = false ∧ pathHasPrefix other point = false

/-- An event of `vfs_mount_device`, on one of the devices `ids`. -/
def ExplicitAllowed (ids : Nat → Prop) (point : CString) (t : Tables) : TableEvent → Prop
  | .mount m id _ => t.mounted m = none ∧ ¬t.Mounted id ∧ ids id
  | .enter i stored m =>
    t.Enters i m ∧ stored = copyString point 32 ∧ Accepts t point ∧ ∃ id, ids id
  | .unmount m => t.Unowned m
  | _ => False

/-- A volume is taken out with its mount. -/
def LeaveAllowed (i : VolumeId → CString → Prop) (t : Tables) : TableEvent → Prop
  | .leave j m => ∃ point, t.volumes j = some (point, m) ∧ i j point
  | _ => False

/-! ### The tables of a state -/

section Abstraction

variable {W C : Type} {drivers : Drivers W C}

def VfsState.tables (s : VfsState W C) : Tables where
  parents := s.devices.map (·.parent)
  mounted := fun m => (s.fs.mounts m).map fun mount => (mount.device, mount.generation)
  volumes := fun i => (s.mounts i).map fun m => ((s.volumes i).mountPoint, m)

variable {s : VfsState W C} {m : MountId}

theorem tables_volumes {i : VolumeId} {point : CString} : s.tables.volumes i = some (point, m) ↔
      s.mounts i = some m ∧ (s.volumes i).mountPoint = point := by
  simp only [VfsState.tables, Option.map_eq_some_iff, Prod.mk.injEq]
  constructor
  · rintro ⟨m', owned, rfl, rfl⟩
    exact ⟨owned, rfl⟩
  · rintro ⟨owned, rfl⟩
    exact ⟨m, owned, rfl, rfl⟩

theorem tables_volumes_none {i : VolumeId} : s.tables.volumes i = none ↔ s.mounts i = none := by
  simp only [VfsState.tables, Option.map_eq_none_iff]

theorem inUse_iff (inv : TableInv s) (i : VolumeId) :
    (i.val < s.volumeCount ∧ (s.volumes i).valid = true) ↔ s.tables.volumes i ≠ none := by
  rw [ne_eq, tables_volumes_none]
  constructor
  · rintro ⟨_, valid⟩ missing
    have mounted := inv.mounted i valid
    rw [missing] at mounted
    cases mounted
  · intro present
    obtain ⟨m, owned⟩ := Option.ne_none_iff_exists'.mp present
    obtain ⟨bound, valid, _⟩ := inv.owned i m owned
    exact ⟨bound, valid⟩

/-- A disk is mounted in the code where it is in the tables. -/
theorem deviceIsMounted_iff {id : Nat} : s.fs.deviceIsMounted s.devices id = true ↔
    s.tables.Mounted id := by
  simp only [Filesystems.deviceIsMounted, List.any_eq_true, List.mem_finRange, true_and,
    Tables.Mounted, VfsState.tables]
  constructor
  · rintro ⟨m, here⟩
    split at here
    · cases here
    · rename_i mount active
      refine ⟨m, mount.device, mount.generation, by rw [active]; rfl, ?_⟩
      simpa [Option.any_eq_true] using here
  · rintro ⟨m, d, generation, active, here⟩
    obtain ⟨mount, active', same⟩ := Option.map_eq_some_iff.mp active
    cases same
    refine ⟨m, ?_⟩
    rw [active']
    simpa [Option.any_eq_true] using here

/-- The entry that is taken is the first without a mount. -/
theorem freeVolume_enters (inv : TableInv s) {i : VolumeId} (free : freeVolume s = some i) :
    s.tables.volumes i = none ∧ ∀ j, j < i → s.tables.volumes j ≠ none := by
  refine ⟨tables_volumes_none.mpr (freeVolume_none inv free), ?_⟩
  obtain ⟨_, n, bound, here, before⟩ := List.find?_eq_some_iff_getElem.mp free
  rw [List.getElem_finRange] at here
  intro j below
  have value : n = i.val := by
    rw [← here]
    rfl
  rw [← inUse_iff inv]
  have earlier := before j.val (by rw [value]; exact below)
  simpa using earlier

theorem tables_congr {s s' : VfsState W C} (devices : s'.devices = s.devices)
    (fs : s'.fs.mounts = s.fs.mounts) (volumes : s'.volumes = s.volumes)
    (mounts : s'.mounts = s.mounts) : s'.tables = s.tables := by
  simp only [VfsState.tables, devices, fs, volumes, mounts]

/-! ### Single operations -/

variable {device : Device}

theorem probe_world {s s' : VfsState W C} {driver : Option DriverId}
    (probed : s.probe drivers device = (driver, s')) : ∃ world, s' = s.setWorld world := by
  unfold VfsState.probe at probed
  exact ⟨_, (Prod.mk.inj probed).2.symm⟩

theorem probe_tables {s s' : VfsState W C} {driver : Option DriverId}
    (probed : s.probe drivers device = (driver, s')) :
    s'.tables = s.tables ∧ s'.devices = s.devices := by
  cases probed
  exact ⟨rfl, rfl⟩

theorem Filesystems.mount_recorded {fs fs' : Filesystems W C} {id : Nat} {driver : DriverId}
    {flags : UInt32}
    (mounted : fs.mount drivers id device driver flags = (some m, fs')) :
    ∃ mount : Mount C, mount.device = id ∧ fs'.mounts = Function.update fs.mounts m (some mount) := by
  unfold Filesystems.mount at mounted
  split at mounted
  · cases mounted
  · split at mounted
    · cases mounted
    · dsimp only at mounted
      split at mounted
      · cases mounted
      · cases mounted
        exact ⟨_, rfl, rfl⟩

/-- A mount is recorded, or nothing happens. -/
theorem mountFilesystem_tables {s s' : VfsState W C} {id : Nat} {driver : DriverId}
    {flags : UInt32} {result : Option MountId}
    (mounted : s.mountFilesystem drivers id device driver flags = (result, s')) :
    match result with
    | none => s'.tables = s.tables ∧ s'.devices = s.devices
    | some m => s.tables.mounted m = none ∧ s'.devices = s.devices ∧
        ∃ generation, s'.tables = s.tables.apply (.mount m id generation) := by
  obtain ⟨fs', rfl, filled⟩ := mountFilesystem_cases mounted
  have cases := Filesystems.mount_cases filled
  cases result with
  | none => exact ⟨tables_congr rfl cases rfl rfl, rfl⟩
  | some m =>
    obtain ⟨mount, here, table⟩ := Filesystems.mount_recorded filled
    refine ⟨by simp only [VfsState.tables, cases.1, Option.map_none], rfl, mount.generation, ?_⟩
    simp only [VfsState.tables, Tables.apply, table, Tables.mk.injEq, true_and, and_true]
    funext m'
    by_cases same : m' = m
    · subst same
      rw [Function.update_self, Function.update_self, Option.map_some, here]
    · rw [Function.update_of_ne same, Function.update_of_ne same]

/-- An unmount takes the mount out, or nothing happens. -/
theorem unmountFilesystem_tables {s s' : VfsState W C} {ok : Bool}
    (unmounted : s.unmountFilesystem drivers m = (ok, s')) :
    s'.tables = if ok then s.tables.apply (.unmount m) else s.tables := by
  obtain ⟨fs', rfl, freed⟩ := unmountFilesystem_cases unmounted
  have table := Filesystems.unmount_cases freed
  cases ok with
  | false => exact tables_congr rfl table rfl rfl
  | true =>
    simp only [if_true] at table ⊢
    simp only [VfsState.tables, Tables.apply, table.2, Tables.mk.injEq, true_and, and_true]
    funext m'
    by_cases same : m' = m
    · subst same
      rw [Function.update_self, Function.update_self, Option.map_none]
    · rw [Function.update_of_ne same, Function.update_of_ne same]

theorem addVolume_tables (s : VfsState W C) (i : VolumeId) (m : MountId) (volume : VolumeInfo) :
    (s.addVolume i m volume).tables = s.tables.apply (.enter i volume.mountPoint m) := by
  simp only [VfsState.tables, VfsState.addVolume, Tables.apply, Tables.mk.injEq, true_and]
  funext j
  by_cases same : j = i
  · subst same
    simp only [Function.update_self, Option.map_some]
  · simp only [Function.update_of_ne same]

/-- An unmounted entry has left its mount point. -/
theorem unmountVolume_tables {s s' : VfsState W C} {i : VolumeId} {ok : Bool}
    (unmounted : unmountVolume drivers s i = (ok, s')) :
    if ok then ∃ point m, s.tables.volumes i = some (point, m) ∧ s'.tables = s.tables.apply (.leave i m)
    else s'.tables = s.tables := by
  unfold unmountVolume at unmounted
  split at unmounted
  · cases unmounted
    rfl
  · rename_i m owned
    split at unmounted
    · rename_i t refused
      cases unmounted
      exact unmountFilesystem_tables refused
    · rename_i t done
      cases unmounted
      have freed := unmountFilesystem_tables done
      simp only [if_true] at freed ⊢
      refine ⟨_, m, tables_volumes.mpr ⟨owned, rfl⟩, ?_⟩
      have dropped : (t.dropVolume i).tables =
          { t.tables with volumes := Function.update t.tables.volumes i none } := by
        simp only [VfsState.tables, VfsState.dropVolume, Tables.mk.injEq, true_and]
        funext j
        by_cases same : j = i
        · subst same
          simp only [Function.update_self, Option.map_none]
        · simp only [Function.update_of_ne same]
      rw [dropped, freed]
      rfl

theorem setMount_tables {mount mount' : Mount C}
    (here : s.fs.mounts m = some mount) (device : mount'.device = mount.device)
    (generation : mount'.generation = mount.generation) :
    { s with fs := s.fs.setMount m (some mount') }.tables = s.tables := by
  simp only [VfsState.tables, Filesystems.setMount, Tables.mk.injEq, true_and, and_true]
  funext m'
  by_cases same : m' = m
  · subst same
    rw [Function.update_self, here, Option.map_some, Option.map_some, device, generation]
  · rw [Function.update_of_ne same]

theorem release_tables (s : VfsState W C) (m : MountId) :
    { s with fs := s.fs.release m }.tables = s.tables := by
  unfold Filesystems.release
  split
  · rfl
  · rename_i mount here
    split
    · exact setMount_tables here rfl rfl
    · rfl

theorem acquire_tables {ok : Bool} {fs' : Filesystems W C}
    (acquired : s.fs.acquire m = (ok, fs')) : { s with fs := fs' }.tables = s.tables := by
  unfold Filesystems.acquire at acquired
  split at acquired
  · cases acquired
    rfl
  · rename_i mount here
    cases acquired
    exact setMount_tables here rfl rfl

theorem selectPrimary_tables (s : VfsState W C) : (selectPrimary drivers s).tables = s.tables := by
  simp only [selectPrimary]
  split
  · rfl
  · rfl

/-- Looking a path up leaves the tables alone. -/
theorem openMount_tables {s s' : VfsState W C} {path : CString}
    {result : Option (Option MountId)} (opened : openMount drivers s path = (result, s')) :
    s'.tables = s.tables := by
  unfold openMount at opened
  split at opened
  · split at opened
    · rename_i fs missing
      obtain ⟨world, rfl⟩ := stat_world missing
      cases opened
      rfl
    · rename_i stat fs present
      obtain ⟨world, rfl⟩ := stat_world present
      dsimp only at opened
      split at opened
      · cases opened
        rfl
      · split at opened
        · rename_i fs refused
          cases opened
          exact acquire_tables (s := s.setWorld world) refused
        · rename_i fs acquired
          cases opened
          exact acquire_tables (s := s.setWorld world) acquired
  · dsimp only at opened
    split at opened
    · cases opened
      exact selectPrimary_tables s
    · cases opened
      exact selectPrimary_tables s

theorem vfsOpen_tables (s : VfsState W C) (path : CString) :
    (vfsOpen drivers s path).2.tables = s.tables := by
  unfold vfsOpen
  split
  · rfl
  · split
    · rename_i t missing
      exact openMount_tables missing
    · rename_i mount t opened
      have same := openMount_tables opened
      split
      · exact same
      · split
        · exact (release_tables t _).trans same
        · exact same

theorem vfsClose_tables (s : VfsState W C) (handle : Nat) : (vfsClose s handle).2.tables = s.tables := by
  unfold vfsClose closeHandle
  split
  · rfl
  · split
    · split
      · exact release_tables (s.setHandle _ _) _
      · rfl
    · rfl

theorem vfsRead_tables (s : VfsState W C) (handle size : Nat) :
    (vfsRead drivers s handle size).2.tables = s.tables := by
  unfold vfsRead vfsReadDisk
  split
  · dsimp only
    split
    · rfl
    · split
      · rename_i m _
        obtain ⟨world, read⟩ := fsRead_world drivers s.fs m _ size
        dsimp only
        rw [read]
        rfl
      · exact selectPrimary_tables s
  · split
    · rfl
    · rfl

/-! ### Automatic mount points -/

theorem mountPointInUse_iff (inv : TableInv s) {point : CString} :
    mountPointInUse s point = true ↔ ∃ i m, s.tables.volumes i = some (point, m) := by
  simp only [mountPointInUse, List.any_eq_true, List.mem_finRange, true_and, Bool.and_eq_true,
    decide_eq_true_eq, beq_iff_eq, inUse_iff inv]
  constructor
  · rintro ⟨i, used, here⟩
    obtain ⟨⟨other, m⟩, entry⟩ := Option.ne_none_iff_exists'.mp used
    obtain ⟨_, same⟩ := tables_volumes.mp entry
    refine ⟨i, m, ?_⟩
    rw [entry, ← same, here]
  · rintro ⟨i, m, entry⟩
    refine ⟨i, ?_, (tables_volumes.mp entry).2⟩
    rw [entry]
    exact Option.some_ne_none _

theorem some_unused (points : Fin (VFS_MAX_VOLUMES + 1) → CString)
    (different : Function.Injective points) : ∃ k, mountPointInUse s (points k) = false := by
  by_contra allUsed
  simp only [not_exists, Bool.not_eq_false] at allUsed
  have volumes : ∀ k, ∃ i, (s.volumes i).mountPoint = points k := by
    intro k
    obtain ⟨i, _, here⟩ := List.any_eq_true.mp (allUsed k)
    simp only [Bool.and_eq_true, beq_iff_eq] at here
    exact ⟨i, here.2⟩
  choose volume here using volumes
  obtain ⟨k, l, other, same⟩ :=
    Fintype.exists_ne_map_eq_of_card_lt volume (by simp only [Fintype.card_fin, Nat.lt_succ_self])
  apply other
  apply different
  rw [← here k, ← here l, same]

/-- The numbers are tried in order up to one that is not in use. -/
theorem numberedMountPoint_found (s : VfsState W C) (path : CString) (attempts : Nat) :
    ∀ number, ∃ k ≤ attempts, numberedMountPoint s path attempts number =
    appendDecimal path (number + k) ∧
      ((∃ k ≤ attempts, mountPointInUse s (appendDecimal path (number + k)) = false) →
        mountPointInUse s (appendDecimal path (number + k)) = false) := by
  induction attempts with
  | zero =>
    intro number
    refine ⟨0, Nat.le_refl 0, rfl, ?_⟩
    rintro ⟨k, none, unused⟩
    rw [Nat.le_zero.mp none] at unused
    exact unused
  | succ attempts ih =>
    intro number
    rw [numberedMountPoint]
    by_cases used : mountPointInUse s (appendDecimal path number) = true
    · rw [if_pos used]
      obtain ⟨k, within, found, unused⟩ := ih (number + 1)
      refine ⟨k + 1, Nat.succ_le_succ within, ?_, ?_⟩
      · rw [found, Nat.add_right_comm, Nat.add_assoc]
      · rintro ⟨l, within', here⟩
        have later : ∃ k ≤ attempts,
            mountPointInUse s (appendDecimal path (number + 1 + k)) = false := by
          cases l with
          | zero =>
            rw [Nat.add_zero, used] at here
            cases here
          | succ l =>
            refine ⟨l, Nat.le_of_succ_le_succ within', ?_⟩
            rwa [Nat.add_right_comm, Nat.add_assoc]
        have this := unused later
        rwa [Nat.add_right_comm, Nat.add_assoc] at this
    · rw [if_neg used]
      exact ⟨0, Nat.zero_le _, rfl, fun _ => Bool.not_eq_true _ ▸ used⟩

theorem mediaPoints_different : ∀ kind ∈ [cdromKind, usbKind, diskKind], ∀ k < 10, ∀ l < 10,
      appendDecimal (mediaPath ++ kind) k = appendDecimal (mediaPath ++ kind) l → k = l := by
  decide

/-- With nine numbers to try, the search ends at a mount point that is not in use. -/
theorem numbered_unused {kind : CString}
    (known : kind ∈ [cdromKind, usbKind, diskKind]) {number : Nat} (small : number ≤ 1) :
    numberedMountPoint s (mediaPath ++ kind) VFS_MAX_VOLUMES number ∈ mediaPoints kind ∧
      mountPointInUse s (numberedMountPoint s (mediaPath ++ kind) VFS_MAX_VOLUMES number) = false := by
  obtain ⟨k, within, found, unused⟩ :=
    numberedMountPoint_found s (mediaPath ++ kind) VFS_MAX_VOLUMES number
  obtain ⟨l, free⟩ := some_unused (s := s)
    (fun l => appendDecimal (mediaPath ++ kind) (number + l.val)) fun a b same => by
      have bounda := a.isLt
      have boundb := b.isLt
      simp only [VFS_MAX_VOLUMES] at bounda boundb
      have equal := mediaPoints_different kind known _ (by omega) _ (by omega) same
      exact Fin.ext (by omega)
  have here := unused ⟨l.val, Nat.le_of_lt_succ l.isLt, free⟩
  rw [found]
  refine ⟨List.mem_map.mpr ⟨number + k, List.mem_range.mpr ?_, rfl⟩, here⟩
  simp only [VFS_MAX_VOLUMES] at within
  omega

/-- The mount point that is chosen is not in use. -/
theorem chooseAutoMountPoint_unused (s : VfsState W C) (device : Device) :
    chooseAutoMountPoint s device ∈ autoPoints ∧
      mountPointInUse s (chooseAutoMountPoint s device) = false := by
  unfold chooseAutoMountPoint autoPoints
  split
  · obtain ⟨member, unused⟩ := numbered_unused (s := s)
      (show cdromKind ∈ [cdromKind, usbKind, diskKind] by simp) (Nat.zero_le 1)
    exact ⟨by simp only [List.mem_cons, List.mem_append]; exact .inr (.inl (.inl member)), unused⟩
  · split
    · obtain ⟨member, unused⟩ := numbered_unused (s := s)
        (show usbKind ∈ [cdromKind, usbKind, diskKind] by simp) (Nat.zero_le 1)
      exact ⟨by simp only [List.mem_cons, List.mem_append]; exact .inr (.inl (.inr member)), unused⟩
    · split
      · rename_i free
        rw [Bool.not_eq_true'] at free
        exact ⟨List.mem_cons_self, free⟩
      · obtain ⟨member, unused⟩ := numbered_unused (s := s)
          (show diskKind ∈ [cdromKind, usbKind, diskKind] by simp) (Nat.le_refl 1)
        exact ⟨by simp only [List.mem_cons, List.mem_append]; exact .inr (.inr member), unused⟩

/-- Making an entry valid takes no mount point out of use. -/
theorem mountPointInUse_validate {i : VolumeId} {point : CString}
    (used : mountPointInUse s point = true) : mountPointInUse (s.validate i) point = true := by
  obtain ⟨j, member, here⟩ := List.any_eq_true.mp used
  refine List.any_eq_true.mpr ⟨j, member, ?_⟩
  simp only [Bool.and_eq_true, decide_eq_true_eq, beq_iff_eq] at here ⊢
  obtain ⟨⟨counted, valid⟩, same⟩ := here
  by_cases entry : j = i
  · subst entry
    simp only [VfsState.validate, Function.update_self]
    exact ⟨⟨counted, trivial⟩, same⟩
  · simp only [VfsState.validate, Function.update_of_ne entry]
    exact ⟨⟨counted, valid⟩, same⟩

theorem autoPoints_fit : ∀ point ∈ systemPath :: autoPoints, point.length < 32 := by
  decide

theorem autoPoint_stored (inv : TableInv s) (i : VolumeId) (device : Device) : AutoPoint s.tables i
      (copyString (if i.val = 0 then systemPath else chooseAutoMountPoint (s.validate i) device) 32) := by
  obtain ⟨member, unused⟩ := chooseAutoMountPoint_unused (s.validate i) device
  unfold AutoPoint
  split
  · exact copyString_of_fits (autoPoints_fit _ List.mem_cons_self)
  · rw [copyString_of_fits (autoPoints_fit _ (List.mem_cons_of_mem _ member))]
    refine ⟨member, fun j m entry => ?_⟩
    have used := mountPointInUse_validate (i := i) ((mountPointInUse_iff inv).mpr ⟨j, m, entry⟩)
    rw [unused] at used
    cases used

/-! ### The operations -/

theorem mounted_enters {s u : VfsState W C} (inv : TableInv s) {id : Nat} {device : Device}
    {driver : DriverId} {flags : UInt32} {m : MountId}
    (mounted : s.mountFilesystem drivers id device driver flags = (some m, u)) :
    u.tables.Unowned m ∧ ∀ i, freeVolume u = some i → u.tables.Enters i m := by
  obtain ⟨active, unowned⟩ := mounted_unowned mounted
  have inv' := (mountFilesystem_evolves mounted).table inv
  have notOwned : u.tables.Unowned m :=
    fun j point entry => unowned inv j (tables_volumes.mp entry).1
  refine ⟨notOwned, fun i free => ?_⟩
  obtain ⟨empty, first⟩ := freeVolume_enters inv' free
  refine ⟨empty, first, ?_, notOwned⟩
  obtain ⟨mount, here⟩ := Option.isSome_iff_exists.mp active
  simp only [VfsState.tables, here, Option.map_some, ne_eq, reduceCtorEq, not_false_eq_true]

theorem takeBack_reaches {u : VfsState W C} {allowed : Tables → TableEvent → Prop}
    (unowned : u.tables.Unowned m)
    (weaker : ∀ t : Tables, t.Unowned m → allowed t (.unmount m)) :
    Reaches Tables.apply allowed u.tables (u.unmountFilesystem drivers m).2.tables := by
  rcases done : u.unmountFilesystem drivers m with ⟨ok, v⟩
  have taken := unmountFilesystem_tables done
  dsimp only
  rw [taken]
  split
  · exact .one (weaker _ unowned)
  · exact .refl _

/-- The loop of a scan takes the tables along allowed events only. -/
theorem mountVolumes_reaches (ids : List Nat) : ∀ s : VfsState W C, TableInv s →
    Reaches Tables.apply AutoAllowed s.tables (mountVolumes drivers ids s).tables := by
  induction ids with
  | nil => exact fun s _ => .refl _
  | cons id rest ih =>
    intro s inv
    rw [mountVolumes]
    split
    · exact ih s inv
    · rename_i device here
      split
      · exact ih s inv
      · rename_i unmounted
        split
        · exact ih s inv
        · rename_i childless
          split
          · rename_i t probed
            rw [← (probe_tables probed).1]
            exact ih t ((probe_evolves probed).table inv)
          · rename_i driver t probed
            obtain ⟨same, devices⟩ := probe_tables probed
            have inv' := (probe_evolves probed).table inv
            have allowed {m : MountId} (generation : Nat) (free : t.tables.mounted m = none) :
                AutoAllowed t.tables (.mount m id generation) := by
              refine ⟨free, ?_, ?_⟩
              · rw [same, ← deviceIsMounted_iff]
                exact unmounted
              · intro root child
                apply childless
                simp only [VfsState.tables, devices, List.getElem?_map, here, Option.map_some,
                  Option.some.injEq] at root
                refine ⟨root, ?_⟩
                simp only [VfsState.tables, devices, List.mem_map] at child
                obtain ⟨other, member, parent⟩ := child
                exact List.any_eq_true.mpr ⟨other, member, by simp [parent]⟩
            split
            · rename_i u mounted
              rw [← same, ← (mountFilesystem_tables mounted).1]
              exact ih u ((mountFilesystem_evolves mounted).table inv')
            · rename_i m u mounted
              obtain ⟨free, _, generation, next⟩ := mountFilesystem_tables mounted
              obtain ⟨unowned, enters⟩ := mounted_enters inv' mounted
              have inv'' := (mountFilesystem_evolves mounted).table inv'
              rw [← same]
              refine .step (allowed generation free) ?_
              rw [← next]
              split
              · -- the volume table is full
                exact takeBack_reaches unowned fun _ here => here
              · rename_i i empty
                have point := autoPoint_stored inv'' i device
                dsimp only
                refine .trans ?_ (ih _ ((enterMount_evolves mounted rfl empty).table inv'))
                rw [addVolume_tables]
                exact .one ⟨enters i empty, point⟩

/-- So does a scan. -/
theorem vfsMountAllVolumes_reaches (s : VfsState W C) (inv : TableInv s) :
    Reaches Tables.apply AutoAllowed s.tables (vfsMountAllVolumes drivers s).tables := by
  have mounts := @mountVolumes_reaches W C drivers (List.range s.devices.length) s inv
  unfold vfsMountAllVolumes selectPrimary
  split
  · exact mounts
  · exact mounts

theorem reset_table (devices : List Device) (partitions : List PartitionInfo) (world : W) :
    TableInv (VfsState.reset (C := C) devices partitions world) := by
  refine ⟨?_, ?_, ?_⟩
  · intro i m here
    cases here
  · intro i j m here
    cases here
  · intro i here
    cases here

/-- So does the start of the system. -/
theorem initialRun_reaches (devices : List Device) (partitions : List PartitionInfo) (world : W) :
    Reaches Tables.apply AutoAllowed ⟨devices.map (·.parent), fun _ => none, fun _ => none⟩
      (initialRun drivers devices partitions world).vfs.tables := by
  have mounts := @vfsMountAllVolumes_reaches W C drivers _
    (reset_table (C := C) devices partitions world)
  unfold initialRun vfsInitialize
  dsimp only
  split
  · exact mounts
  · exact mounts

theorem mountPointRefused_accepts (inv : TableInv s) {point : CString}
    {flags : UInt32} (accepted : ¬mountPointRefused s point flags = true) :
    Accepts s.tables point := by
  simp only [mountPointRefused, Bool.or_eq_true, not_or, bne_iff_ne, ne_eq, not_not, beq_iff_eq,
    List.any_eq_true, List.mem_finRange, true_and, Bool.and_eq_true, decide_eq_true_eq,
    not_exists] at accepted
  obtain ⟨⟨⟨⟨absolute, notRoot⟩, notMedia⟩, _⟩, apart⟩ := accepted
  refine ⟨absolute, ⟨notRoot, notMedia⟩, ?_⟩
  intro i other m entry
  have used : i.val < s.volumeCount ∧ (s.volumes i).valid = true := by
    rw [inUse_iff inv, entry]
    exact Option.some_ne_none _
  obtain ⟨_, rfl⟩ := tables_volumes.mp entry
  have here := apart i
  simp only [used, true_and, not_or, Bool.not_eq_true, and_self] at here
  exact here

/-- What an explicit mount does to the tables. -/
theorem vfsMountDevice_reaches (s : VfsState W C) (inv : TableInv s) (name point : CString)
    (flags : UInt32) :
    Reaches Tables.apply (ExplicitAllowed (fun id => deviceByName s name = some id) point)
      s.tables (vfsMountDevice drivers s name point flags).2.tables := by
  unfold vfsMountDevice
  split
  · exact .refl _
  · rename_i accepted
    have accepts := mountPointRefused_accepts inv accepted
    split
    · exact .refl _
    · rename_i id found
      split
      · exact .refl _
      · rename_i device _
        split
        · exact .refl _
        · rename_i unmounted
          rw [deviceIsMounted_iff] at unmounted
          split
          · rename_i t probed
            exact .of_eq (probe_tables probed).1.symm
          · rename_i driver t probed
            obtain ⟨same, _⟩ := probe_tables probed
            have inv' := (probe_evolves probed).table inv
            rw [← same] at unmounted accepts ⊢
            split
            · rename_i u mounted
              exact .of_eq (mountFilesystem_tables mounted).1.symm
            · rename_i m u mounted
              obtain ⟨free, _, generation, next⟩ := mountFilesystem_tables mounted
              obtain ⟨unowned, enters⟩ := mounted_enters inv' mounted
              refine .step (e := .mount m id generation) ⟨free, unmounted, found⟩ ?_
              rw [← next]
              split
              · exact takeBack_reaches unowned fun _ here => here
              · rename_i i empty
                have kept : Accepts u.tables point := by
                  rw [next]
                  exact ⟨accepts.absolute, accepts.proper, accepts.apart⟩
                dsimp only
                rw [addVolume_tables]
                exact .one ⟨enters i empty, rfl, kept, id, found⟩

/-- What an unmount does: only entries at its mount point leave. -/
theorem vfsUnmount_reaches (s : VfsState W C) (point : CString) :
    Reaches Tables.apply (LeaveAllowed fun _ other => other = point ∧ point ≠ systemPath)
      s.tables (vfsUnmount drivers s point).2.tables := by
  unfold vfsUnmount
  split
  · exact .refl _
  · rename_i other
    split
    · exact .refl _
    · rename_i i found
      rcases done : unmountVolume drivers s i with ⟨ok, t⟩
      have taken := unmountVolume_tables done
      cases ok with
      | false =>
        exact .of_eq (Eq.symm taken)
      | true =>
        obtain ⟨here, m, entry, gone⟩ := taken
        dsimp only
        rw [gone]
        have named := List.find?_some found
        simp only [Bool.and_eq_true, beq_iff_eq] at named
        refine .one ⟨here, entry, ?_, fun system => other (Or.inr system)⟩
        rw [← (tables_volumes.mp entry).2]
        exact named.2

/-- An event of `vfs_remount`. -/
def RemountAllowed (ids : Nat → Prop) (point : CString) (t : Tables) (e : TableEvent) : Prop :=
  LeaveAllowed (fun _ other => other = point ∧ point ≠ systemPath) t e ∨ ExplicitAllowed ids point t e

/-- The devices and partitions are as they were. -/
def SameDevices (s s' : VfsState W C) : Prop :=
  s'.devices = s.devices ∧ s'.partitions = s.partitions

theorem SameDevices.byName {s s' : VfsState W C} (same : SameDevices s s') (name : CString) :
    deviceByName s' name = deviceByName s name := by
  simp only [deviceByName, deviceFind, same.1, same.2]

theorem vfsUnmount_devices (s : VfsState W C) (point : CString) :
    SameDevices s (vfsUnmount drivers s point).2 := by
  unfold vfsUnmount unmountVolume
  split
  · exact ⟨rfl, rfl⟩
  · split
    · exact ⟨rfl, rfl⟩
    · split
      · exact ⟨rfl, rfl⟩
      · split
        · rename_i t done
          obtain ⟨fs, rfl, _⟩ := unmountFilesystem_cases done
          exact ⟨rfl, rfl⟩
        · rename_i t done
          obtain ⟨fs, rfl, _⟩ := unmountFilesystem_cases done
          exact ⟨rfl, rfl⟩

theorem vfsMountDevice_devices (s : VfsState W C) (name point : CString) (flags : UInt32) :
    SameDevices s (vfsMountDevice drivers s name point flags).2 := by
  unfold vfsMountDevice
  split
  · exact ⟨rfl, rfl⟩
  · split
    · exact ⟨rfl, rfl⟩
    · split
      · exact ⟨rfl, rfl⟩
      · split
        · exact ⟨rfl, rfl⟩
        · split
          · rename_i t probed
            obtain ⟨world, rfl⟩ := probe_world probed
            exact ⟨rfl, rfl⟩
          · rename_i driver t probed
            obtain ⟨world, rfl⟩ := probe_world probed
            split
            · rename_i u mounted
              obtain ⟨fs, rfl, _⟩ := mountFilesystem_cases mounted
              exact ⟨rfl, rfl⟩
            · rename_i m u mounted
              obtain ⟨fs, rfl, _⟩ := mountFilesystem_cases mounted
              split
              · exact ⟨rfl, rfl⟩
              · exact ⟨rfl, rfl⟩

/-- What a remount does: an unmount, then a mount of the same disk. -/
theorem vfsRemount_reaches (s : VfsState W C) (inv : TableInv s) (point : CString) (flags : UInt32) :
    Reaches Tables.apply (RemountAllowed (fun id => ∃ i, volumeAt s point = some i ∧
        deviceByName s (s.volumes i).deviceName = some id) point)
      s.tables (vfsRemount drivers s point flags).2.tables := by
  unfold vfsRemount
  split
  · exact .refl _
  · split
    · exact .refl _
    · rename_i i found
      have stored : (s.volumes i).mountPoint = point := by
        have named := List.find?_some found
        simp only [Bool.and_eq_true, beq_iff_eq] at named
        exact named.2
      dsimp only
      rw [stored]
      have leaves := (@vfsUnmount_reaches W C drivers s point).mono fun t e here =>
        show RemountAllowed (fun id => ∃ i, volumeAt s point = some i ∧
          deviceByName s (s.volumes i).deviceName = some id) point t e from Or.inl here
      -- a mount in a later state, of the device that the name stands for here
      have mounts : ∀ (t : VfsState W C), TableInv t → SameDevices s t → ∀ flags, Reaches Tables.apply
            (RemountAllowed (fun id => ∃ i, volumeAt s point = some i ∧
              deviceByName s (s.volumes i).deviceName = some id) point)
            t.tables (vfsMountDevice drivers t (s.volumes i).deviceName point flags).2.tables := by
        intro t inv' same flags
        refine (vfsMountDevice_reaches t inv' _ point flags).mono fun u e here => Or.inr ?_
        cases e with
        | mount m id generation =>
          have named : deviceByName t (s.volumes i).deviceName = some id := here.2.2
          exact ⟨here.1, here.2.1, i, found, by rw [← same.byName]; exact named⟩
        | enter j stored m =>
          obtain ⟨enters, copied, accepts, id, named⟩ := here
          exact ⟨enters, copied, accepts, id, i, found, by rw [← same.byName]; exact named⟩
        | _ => exact here
      have inv' := (@vfsUnmount_evolves W C drivers s point).table inv
      have same := @vfsUnmount_devices W C drivers s point
      split
      · rename_i t refused
        rw [refused] at leaves
        exact leaves
      · rename_i t taken
        rw [taken] at leaves inv' same
        have again := mounts t inv' same flags
        have inv'' := (@vfsMountDevice_evolves W C drivers t
          (s.volumes i).deviceName point flags).table inv'
        have same' := @vfsMountDevice_devices W C drivers t
          (s.volumes i).deviceName point flags
        split
        · rename_i u mounted
          rw [mounted] at again
          exact leaves.trans again
        · rename_i u refused
          rw [refused] at again inv'' same'
          refine (leaves.trans again).trans (mounts u inv'' ?_ _)
          exact ⟨same'.1.trans same.1, same'.2.trans same.2⟩

theorem removeVolume_reaches {i : VolumeId} {slot : MountId} {mount : Mount C}
    (here : s.fs.mounts slot = some mount) :
    Reaches Tables.apply (LeaveAllowed fun _ _ => True) s.tables
      (removeVolume drivers s i slot mount).tables := by
  have locked : ∀ t : VfsState W C, t.devices = s.devices → t.mounts = s.mounts →
      t.fs.mounts = (s.fs.setMount slot (some { mount with
        flags := mount.flags ||| FILESYSTEM_FLAG_READ_ONLY ||| FILESYSTEM_FLAG_NO_EXEC })).mounts →
      t.volumes = Function.update s.volumes i
        { s.volumes i with readOnly := true, noExec := true } → t.tables = s.tables := by
    intro t devices mounts fs volumes
    have kept : { s with fs := s.fs.setMount slot (some { mount with
        flags := mount.flags ||| FILESYSTEM_FLAG_READ_ONLY |||
          FILESYSTEM_FLAG_NO_EXEC }) }.tables = s.tables := setMount_tables here rfl rfl
    rw [← kept]
    simp only [VfsState.tables, devices, mounts, fs, volumes, Tables.mk.injEq, true_and]
    funext j
    by_cases same : j = i
    · subst same
      simp only [Function.update_self]
    · simp only [Function.update_of_ne same]
  have dropped : ∀ t : VfsState W C, t.tables = s.tables →
      Reaches Tables.apply (LeaveAllowed fun _ _ => True) s.tables
        (unmountVolume drivers t i).2.tables := by
    intro t same
    rcases done : unmountVolume drivers t i with ⟨ok, u⟩
    have taken := unmountVolume_tables done
    cases ok with
    | false =>
      have kept : u.tables = t.tables := taken
      exact .of_eq (kept.trans same).symm
    | true =>
      obtain ⟨point, m, entry, gone⟩ := taken
      dsimp only
      rw [gone, same]
      rw [same] at entry
      exact .one ⟨point, entry, trivial⟩
  unfold removeVolume
  dsimp only
  split
  · split
    · refine dropped _ (locked _ ?_ ?_ ?_ ?_) <;> rfl
    · refine dropped _ (locked _ ?_ ?_ ?_ ?_) <;> rfl
  · split
    · refine .of_eq (locked _ ?_ ?_ ?_ ?_).symm <;> rfl
    · refine .of_eq (locked _ ?_ ?_ ?_ ?_).symm <;> rfl

/-- What the removal of a disk does: entries leave. -/
theorem removeDevice_reaches (id : Nat) (volumes : List VolumeId) : ∀ s : VfsState W C,
    Reaches Tables.apply (LeaveAllowed fun _ _ => True) s.tables
      (removeDevice drivers id volumes s).tables := by
  induction volumes with
  | nil => exact fun s => .refl _
  | cons i rest ih =>
    intro s
    rw [removeDevice]
    split
    · split
      · exact ih s
      · split
        · exact ih s
        · rename_i slot _ mount here
          split
          · exact (removeVolume_reaches here).trans (ih _)
          · exact ih s
    · exact ih s

theorem vfsHandleDeviceRemoved_reaches (s : VfsState W C) (name : CString) :
    Reaches Tables.apply (LeaveAllowed fun _ _ => True) s.tables
      (vfsHandleDeviceRemoved drivers s name).tables := by
  unfold vfsHandleDeviceRemoved
  split
  · exact .refl _
  · rename_i id _
    have removed := @removeDevice_reaches W C drivers id (List.finRange VFS_MAX_VOLUMES) s
    have same : (removeDevice drivers id (List.finRange VFS_MAX_VOLUMES) s).tables =
        { removeDevice drivers id (List.finRange VFS_MAX_VOLUMES) s with
          devices := (removeDevice drivers id (List.finRange VFS_MAX_VOLUMES) s).devices.modify id
            fun device => { device with flags :=
              device.flags ||| BLOCK_DEVICE_FLAG_READ_ONLY |||
                BLOCK_DEVICE_FLAG_NO_CACHE } }.tables := by
      simp only [VfsState.tables, Tables.mk.injEq, and_true]
      apply List.ext_getElem?
      intro k
      simp only [List.getElem?_map, List.getElem?_modify]
      cases (removeDevice drivers id (List.finRange VFS_MAX_VOLUMES) s).devices[k]? with
      | none => rfl
      | some device =>
        simp only [Option.map_eq_map, Option.map_some]
        split <;> rfl
    rw [← same]
    exact removed

end Abstraction

end AsasOs.Vfs
