import AsasOs.Vfs.MountTables

/-!
# Overlapping mounts

`filesystem_device_is_mounted` refuses a disk when the disk or one of its partitions is
mounted. It does not look at the disk under a partition, so a partition that is found on
a mounted disk can be mounted as well. As long as that does not happen, no two mounts are
on the same device, or on a partition and its disk.
-/
namespace AsasOs.Vfs

open Block CString Trace

/-! ### Tables -/

/-- Partitions lie on whole disks: `partition_scan_device` refuses a device that has a
parent. -/
def PartitionsOfDisks (parents : List (Option Nat)) : Prop :=
  ∀ id p : Nat, parents[id]? = some (some p) → parents[p]? = some none

namespace Tables

/-- The disk under a partition is mounted. -/
def ParentMounted (t : Tables) (id : Nat) : Prop :=
  ∃ p m generation, t.parents[id]? = some (some p) ∧ t.mounted m = some (p, generation)

/-- No device is mounted twice, and none together with the disk under it. -/
structure Apart (t : Tables) : Prop where
  disks : PartitionsOfDisks t.parents
  once : ∀ m m' id g g', t.mounted m = some (id, g) → t.mounted m' = some (id, g') → m = m'
  parents : ∀ m id g, t.mounted m = some (id, g) → ¬t.ParentMounted id

variable {t : Tables} {m : MountId} {id generation : Nat}

theorem ParentMounted.mount {other : Nat}
    (after : (t.apply (.mount m id generation)).ParentMounted other) :
    t.ParentMounted other ∨ t.parents[other]? = some (some id) := by
  obtain ⟨p, m', g, parent, mounted⟩ := after
  simp only [apply] at parent mounted
  by_cases same : m' = m
  · subst same
    rw [Function.update_self] at mounted
    cases mounted
    exact Or.inr parent
  · rw [Function.update_of_ne same] at mounted
    exact Or.inl ⟨p, m', g, parent, mounted⟩

theorem Apart.mount (apart : t.Apart) (unmounted : ¬t.Mounted id)
    (parent : ¬t.ParentMounted id) : (t.apply (.mount m id generation)).Apart where
  disks := apart.disks
  once := by
    intro a b d g g' herea hereb
    simp only [apply] at herea hereb
    by_cases samea : a = m <;> by_cases sameb : b = m
    · rw [samea, sameb]
    · subst samea
      rw [Function.update_self] at herea
      rw [Function.update_of_ne sameb] at hereb
      cases herea
      exact absurd ⟨b, _, _, hereb, Or.inl rfl⟩ unmounted
    · subst sameb
      rw [Function.update_self] at hereb
      rw [Function.update_of_ne samea] at herea
      cases hereb
      exact absurd ⟨a, _, _, herea, Or.inl rfl⟩ unmounted
    · rw [Function.update_of_ne samea] at herea
      rw [Function.update_of_ne sameb] at hereb
      exact apart.once a b d g g' herea hereb
  parents := by
    intro a d g here overlaps
    simp only [apply] at here
    by_cases same : a = m
    · subst same
      rw [Function.update_self] at here
      cases here
      rcases overlaps.mount with before | itself
      · exact parent before
      · have root := apart.disks _ _ itself
        rw [itself] at root
        cases root
    · rw [Function.update_of_ne same] at here
      rcases overlaps.mount with before | child
      · exact apart.parents a d g here before
      · exact unmounted ⟨a, d, g, here, Or.inr child⟩

/-- The mounts of tables that have lost some are among the old ones. -/
structure Fewer (t t' : Tables) : Prop where
  parents : t'.parents = t.parents
  mounted : ∀ m entry, t'.mounted m = some entry → t.mounted m = some entry

theorem Fewer.parentMounted {t' : Tables} (fewer : Fewer t t') {id : Nat}
    (here : t'.ParentMounted id) : t.ParentMounted id := by
  obtain ⟨p, m, g, parent, mounted⟩ := here
  exact ⟨p, m, g, by rw [← fewer.parents]; exact parent, fewer.mounted m _ mounted⟩

theorem Apart.fewer {t' : Tables} (apart : t.Apart) (fewer : Fewer t t') : t'.Apart where
  disks := by
    rw [fewer.parents]
    exact apart.disks
  once := fun a b d g g' herea hereb =>
    apart.once a b d g g' (fewer.mounted _ _ herea) (fewer.mounted _ _ hereb)
  parents := fun a d g here overlaps =>
    apart.parents a d g (fewer.mounted _ _ here) (fewer.parentMounted overlaps)

theorem unmount_fewer (t : Tables) (m : MountId) : Fewer t (t.apply (.unmount m)) := by
  refine ⟨rfl, fun m' entry here => ?_⟩
  simp only [apply] at here
  by_cases same : m' = m
  · subst same
    rw [Function.update_self] at here
    cases here
  · rwa [Function.update_of_ne same] at here

theorem leave_fewer (t : Tables) (i : VolumeId) (m : MountId) : Fewer t (t.apply (.leave i m)) :=
  ⟨rfl, (unmount_fewer t m).mounted⟩

theorem enter_fewer (t : Tables) (i : VolumeId) (point : CString) (m : MountId) :
    Fewer t (t.apply (.enter i point m)) :=
  ⟨rfl, fun _ _ here => here⟩

end Tables

/-! ### The operations on the tables -/

theorem auto_apart {t t' : Tables} (reaches : Reaches Tables.apply AutoAllowed t t')
    (apart : t.Apart) (parents : ∀ id, ¬t.ParentMounted id) : t'.Apart := by
  have event : ∀ (t : Tables) e, (t.Apart ∧ ∀ id, ¬t.ParentMounted id) → AutoAllowed t e →
      (t.apply e).Apart ∧ ∀ id, ¬(t.apply e).ParentMounted id := by
    rintro t e ⟨apart, parents⟩ allowed
    cases e with
    | mount m id generation =>
      refine ⟨apart.mount allowed.2.1 (parents id), fun other overlaps => ?_⟩
      rcases overlaps.mount with before | child
      · exact parents other before
      · -- a disk with partitions is not mounted automatically
        exact allowed.2.2 (apart.disks _ _ child) (List.mem_of_getElem? child)
    | unmount m =>
      have fewer := t.unmount_fewer m
      exact ⟨apart.fewer fewer, fun id here => parents id (fewer.parentMounted here)⟩
    | enter i point m =>
      have fewer := t.enter_fewer i point m
      exact ⟨apart.fewer fewer, fun id here => parents id (fewer.parentMounted here)⟩
    | find _ => exact allowed.elim
    | leave _ _ => exact allowed.elim
  exact (reaches.preserves event ⟨apart, parents⟩).1

theorem remount_apart {ids : Nat → Prop} {point : CString} {t t' : Tables}
    (reaches : Reaches Tables.apply (RemountAllowed ids point) t t')
    (one : ∀ id id', ids id → ids id' → id = id') (apart : t.Apart)
    (parents : ∀ id, ids id → ¬t.ParentMounted id) : t'.Apart := by
  have event : ∀ (t : Tables) e, (t.Apart ∧ ∀ id, ids id → ¬t.ParentMounted id) →
      RemountAllowed ids point t e →
      (t.apply e).Apart ∧ ∀ id, ids id → ¬(t.apply e).ParentMounted id := by
    rintro t e ⟨apart, parents⟩ allowed
    have less {t' : Tables} (fewer : Tables.Fewer t t') :
        t'.Apart ∧ ∀ id, ids id → ¬t'.ParentMounted id :=
      ⟨apart.fewer fewer, fun id known here => parents id known (fewer.parentMounted here)⟩
    cases e with
    | mount m id generation =>
      obtain impossible | ⟨_, unmounted, known⟩ := allowed
      · exact impossible.elim
      refine ⟨apart.mount unmounted (parents id known), fun other known' overlaps => ?_⟩
      rcases overlaps.mount with before | child
      · exact parents other known' before
      · -- the device is not the disk under itself
        have same := one other id known' known
        subst same
        have root := apart.disks _ _ child
        rw [child] at root
        cases root
    | unmount m => exact less (t.unmount_fewer m)
    | enter i stored m => exact less (t.enter_fewer i stored m)
    | leave i m => exact less (t.leave_fewer i m)
    | find _ => exact (allowed.elim id id).elim
  exact (reaches.preserves event ⟨apart, parents⟩).1

theorem leave_apart {which : VolumeId → CString → Prop} {t t' : Tables}
    (reaches : Reaches Tables.apply (LeaveAllowed which) t t') (apart : t.Apart) : t'.Apart := by
  have event : ∀ (t : Tables) e, t.Apart → LeaveAllowed which t e → (t.apply e).Apart := by
    intro t e apart allowed
    cases e with
    | leave i m => exact apart.fewer (t.leave_fewer i m)
    | _ => exact allowed.elim
  exact reaches.preserves event apart

/-! ### Runs -/

section Runs

variable {W C : Type} {drivers : Drivers W C}

/-- No two active mounts are on the same device, or on a partition and its disk. -/
def NoOverlap (s : VfsState W C) : Prop :=
  ∀ m m' mount mount', s.fs.mounts m = some mount → s.fs.mounts m' = some mount' → m ≠ m' →
    mount.device ≠ mount'.device ∧
      ∀ device, s.devices[mount.device]? = some device → device.parent ≠ some mount'.device

theorem Tables.Apart.noOverlap {s : VfsState W C} (apart : s.tables.Apart) : NoOverlap s := by
  intro m m' mount mount' here here' other
  have entry : s.tables.mounted m = some (mount.device, mount.generation) := by
    simp only [VfsState.tables, here, Option.map_some]
  have entry' : s.tables.mounted m' = some (mount'.device, mount'.generation) := by
    simp only [VfsState.tables, here', Option.map_some]
  refine ⟨fun same => ?_, fun device found parent => ?_⟩
  · rw [same] at entry
    exact other (apart.once m m' _ _ _ entry entry')
  · refine apart.parents m _ _ entry ⟨mount'.device, m', _, ?_, entry'⟩
    simp only [VfsState.tables, List.getElem?_map, found, Option.map_some, parent]

def withDevices (s : VfsState W C) (devices : List Device) : VfsState W C :=
  { s with devices := s.devices ++ devices }

/-- A step that mounts no partition of a mounted disk: the named device is none, and a
rescan has none before it. -/
def KeepsApart (run : Run W C) : VfsOp W → Prop
  | .mountDevice name _ _ =>
    ∀ id, deviceByName run.vfs name = some id → ¬run.vfs.tables.ParentMounted id
  | .remount point _ =>
    ∀ i, volumeAt run.vfs point = some i →
      ∀ id, deviceByName run.vfs (run.vfs.volumes i).deviceName = some id →
      ¬run.vfs.tables.ParentMounted id
  | .rescan devices _ _ =>
    PartitionsOfDisks ((run.vfs.devices ++ devices).map (·.parent)) ∧
      ∀ id, ¬(withDevices run.vfs devices).tables.ParentMounted id
  | _ => True

def AllKeepApart (drivers : Drivers W C) (run : Run W C) : List (VfsOp W) → Prop
  | [] => True
  | op :: rest => KeepsApart run op ∧ AllKeepApart drivers (vfsStep drivers run op) rest

theorem KeepsApart.step {run : Run W C} {op : VfsOp W} (keeps : KeepsApart run op)
    (inv : TableInv run.vfs) (apart : run.vfs.tables.Apart) :
    (vfsStep drivers run op).vfs.tables.Apart := by
  cases op with
  | openFile path =>
    have same := @vfsOpen_tables W C drivers run.vfs path
    rw [← same] at apart
    simp only [vfsStep]
    split <;> exact apart
  | read handle size =>
    exact (@vfsRead_tables W C drivers run.vfs handle size).symm ▸ apart
  | close handle => exact (vfsClose_tables run.vfs handle).symm ▸ apart
  | external world => exact apart
  | unmount point => exact leave_apart (vfsUnmount_reaches run.vfs point) apart
  | removeDevice name => exact leave_apart (vfsHandleDeviceRemoved_reaches run.vfs name) apart
  | mountDevice name point flags =>
    refine remount_apart ((vfsMountDevice_reaches run.vfs inv name point flags).mono
      fun _ _ here => Or.inr here) ?_ apart keeps
    intro id id' found found'
    rw [found] at found'
    exact Option.some.inj found'
  | remount point flags =>
    refine remount_apart (vfsRemount_reaches run.vfs inv point flags) ?_ apart ?_
    · rintro id id' ⟨i, at_point, found⟩ ⟨i', at_point', found'⟩
      rw [at_point] at at_point'
      cases at_point'
      rw [found] at found'
      exact Option.some.inj found'
    · rintro id ⟨i, at_point, found⟩
      exact keeps i at_point id found
  | rescan devices partitions world =>
    obtain ⟨disks, parents⟩ := keeps
    have found : (withDevices run.vfs devices).tables.Apart :=
      ⟨disks, apart.once, fun m id g here => parents id⟩
    exact auto_apart (vfsMountAllVolumes_reaches _ ⟨inv.owned, inv.unique, inv.mounted⟩)
      found parents

theorem initial_apart (devices : List Device) (partitions : List PartitionInfo) (world : W)
    (disks : PartitionsOfDisks (devices.map (·.parent))) :
    (initialRun drivers devices partitions world).vfs.tables.Apart := by
  refine auto_apart (initialRun_reaches devices partitions world) ⟨disks, ?_, ?_⟩ ?_
  · intro m m' id g g' impossible
    cases impossible
  · intro m id g impossible
    cases impossible
  · rintro id ⟨p, m, g, _, impossible⟩
    cases impossible

/-- In every run in which no partition is mounted while the disk under it is, no two
active mounts are ever on the same device, or on a partition and its disk. -/
theorem mounts_apart (drivers : Drivers W C) (devices : List Device)
    (partitions : List PartitionInfo) (world : W) (ops : List (VfsOp W))
    (disks : PartitionsOfDisks (devices.map (·.parent)))
    (keeps : AllKeepApart drivers (initialRun drivers devices partitions world) ops) :
    NoOverlap (runOps drivers (initialRun drivers devices partitions world) ops).vfs := by
  have runs : ∀ (ops : List (VfsOp W)) (run : Run W C), RunInv run → run.vfs.tables.Apart →
      AllKeepApart drivers run ops → (runOps drivers run ops).vfs.tables.Apart := by
    intro ops
    induction ops with
    | nil => exact fun _ _ apart _ => apart
    | cons op rest ih =>
      intro run inv apart keeps
      exact ih _ (inv.step op) (keeps.1.step inv.table apart) keeps.2
  exact (runs ops _ (RunInv.initial devices partitions world)
    (initial_apart devices partitions world disks) keeps).noOverlap

end Runs

/-! ### A disk that gets a partition -/

/-- A partition of the first disk. -/
def laterPartition : Device :=
  { systemDisk with
    id := 1, name := ['d', 'i', 's', 'k', '0', 'p', '1'], blockCount := 1024, startLba := 64
    parent := some 0, ops := .partition }

theorem laterPartition_onDisk : PartitionsOfDisks ([systemDisk, laterPartition].map (·.parent)) := by
  intro id p here
  match id, here with
  | 0, here => cases here
  | 1, here =>
    cases here
    rfl
  | _ + 2, here => cases here

theorem mounts_apart_example :
    NoOverlap (runOps twoFiles (initialRun twoFiles [systemDisk, laterPartition] [] ())
      [.rescan [] [] ()]).vfs := by
  refine mounts_apart twoFiles _ [] () _ laterPartition_onDisk
    ⟨⟨laterPartition_onDisk, ?_⟩, trivial⟩
  rintro id ⟨p, m, g, parent, mounted⟩
  have unmounted : ∀ m, ((withDevices (initialRun twoFiles [systemDisk, laterPartition] []
      ()).vfs []).tables.mounted m).map (·.1) ≠ some 0 := by
    decide +kernel
  have root : p = 0 := by
    match id, parent with
    | 0, parent => cases parent
    | 1, parent =>
      cases parent
      rfl
    | _ + 2, parent => cases parent
  apply unmounted m
  rw [mounted, root]
  rfl

/-- The disk is mounted as a whole; a rescan finds a partition on it, and mounts it too. -/
theorem partition_mounted_on_mounted_disk :
    ¬NoOverlap (runOps twoFiles (initialRun twoFiles [systemDisk] [] ())
      [.rescan [laterPartition] [] ()]).vfs := by
  intro apart
  have first : ((runOps twoFiles (initialRun twoFiles [systemDisk] [] ())
      [.rescan [laterPartition] [] ()]).vfs.fs.mounts ⟨0, by decide⟩).map (·.device) = some 0 := by
    decide +kernel
  have second : ((runOps twoFiles (initialRun twoFiles [systemDisk] [] ())
      [.rescan [laterPartition] [] ()]).vfs.fs.mounts ⟨1, by decide⟩).map (·.device) = some 1 := by
    decide +kernel
  obtain ⟨disk, here, device⟩ := Option.map_eq_some_iff.mp first
  obtain ⟨partition, here', device'⟩ := Option.map_eq_some_iff.mp second
  have parent : (runOps twoFiles (initialRun twoFiles [systemDisk] [] ())
      [.rescan [laterPartition] [] ()]).vfs.devices[1]? = some laterPartition := by
    decide +kernel
  refine (apart _ _ _ _ here' here (by decide)).2 laterPartition ?_ ?_
  · rw [device']
    exact parent
  · rw [device]
    rfl

end AsasOs.Vfs
