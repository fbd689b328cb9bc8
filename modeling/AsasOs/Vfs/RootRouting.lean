import AsasOs.Vfs.Overlap

/-!
# The system volume

A path that lies under no mount point falls back to the first entry of the volume table.
That entry holds the system volume after the boot, but it is free once the system's
device has been removed, and the next mount takes it. As long as no mount is made without
the system volume, the fallback leads to it or to nothing.
-/
namespace AsasOs.Vfs

open Block CString Trace

namespace Tables

/-- Every volume owns an active mount, which no other volume owns. -/
structure Owned (t : Tables) : Prop where
  active : ∀ i point m, t.volumes i = some (point, m) → t.mounted m ≠ none
  once : ∀ i j point other m, t.volumes i = some (point, m) → t.volumes j = some (other, m) → i = j

/-- The mount of the first volume, with its generation. -/
def system (t : Tables) : Option (MountId × Nat) :=
  (t.volumes firstVolume).bind fun volume =>
    (t.mounted volume.2).map fun mount => (volume.2, mount.2)

/-- The first entry is the system volume of the boot, or it is free. -/
structure SystemKept (boot : Option (MountId × Nat)) (t : Tables) : Prop where
  owned : t.Owned
  kept : ∀ point m, t.volumes firstVolume = some (point, m) → point = systemPath ∧ t.system = boot

variable {t : Tables} {boot : Option (MountId × Nat)} {m : MountId}

theorem SystemKept.other (kept : t.SystemKept boot) {entry : Option (Nat × Nat)}
    (unowned : t.Unowned m) :
    SystemKept boot { t with mounted := Function.update t.mounted m entry } := by
  have apart : ∀ i point m', t.volumes i = some (point, m') → m' ≠ m := by
    rintro i point m' here rfl
    exact unowned i point here
  refine ⟨⟨?_, kept.owned.once⟩, ?_⟩
  · intro i point m' here
    dsimp only
    rw [Function.update_of_ne (apart i point m' here)]
    exact kept.owned.active i point m' here
  · intro point m' here
    have here' : t.volumes firstVolume = some (point, m') := here
    refine ⟨(kept.kept point m' here').1, ?_⟩
    rw [← (kept.kept point m' here').2]
    simp only [system, here', Option.bind_some, Function.update_of_ne (apart _ _ _ here')]

theorem Owned.free_unowned (owned : t.Owned) (free : t.mounted m = none) : t.Unowned m :=
  fun i point here => owned.active i point m here free

theorem SystemKept.enter (kept : t.SystemKept boot) {i : VolumeId} {stored : CString}
    (enters : t.Enters i m)
    (first : i = firstVolume → stored = systemPath ∧ (t.mounted m).map (fun mount => (m, mount.2)) = boot) :
    (t.apply (.enter i stored m)).SystemKept boot := by
  refine ⟨⟨?_, ?_⟩, ?_⟩
  · intro j point m' here
    simp only [apply] at here ⊢
    by_cases same : j = i
    · subst same
      rw [Function.update_self] at here
      cases here
      exact enters.active
    · rw [Function.update_of_ne same] at here
      exact kept.owned.active j point m' here
  · intro j k point other m' herej herek
    simp only [apply] at herej herek
    by_cases samej : j = i <;> by_cases samek : k = i
    · rw [samej, samek]
    · subst samej
      rw [Function.update_self] at herej
      rw [Function.update_of_ne samek] at herek
      cases herej
      exact absurd herek (enters.unowned k other)
    · subst samek
      rw [Function.update_self] at herek
      rw [Function.update_of_ne samej] at herej
      cases herek
      exact absurd herej (enters.unowned j point)
    · rw [Function.update_of_ne samej] at herej
      rw [Function.update_of_ne samek] at herek
      exact kept.owned.once j k point other m' herej herek
  · intro point m' here
    by_cases same : i = firstVolume
    · subst same
      simp only [apply, system, Function.update_self, Option.some.injEq, Prod.mk.injEq,
        Option.bind_some] at here ⊢
      obtain ⟨rfl, rfl⟩ := here
      exact first rfl
    · have later : firstVolume ≠ i := fun other => same other.symm
      simp only [apply, system, Function.update_of_ne later] at here ⊢
      exact kept.kept point m' here

theorem SystemKept.leave (kept : t.SystemKept boot) {i : VolumeId} {point : CString}
    (here : t.volumes i = some (point, m)) : (t.apply (.leave i m)).SystemKept boot := by
  have others : ∀ j other m', Function.update t.volumes i none j = some (other, m') →
      j ≠ i ∧ t.volumes j = some (other, m') ∧ m' ≠ m := by
    intro j other m' there
    by_cases same : j = i
    · subst same
      rw [Function.update_self] at there
      cases there
    · rw [Function.update_of_ne same] at there
      refine ⟨same, there, ?_⟩
      rintro rfl
      exact same (kept.owned.once j i other point m' there here)
  refine ⟨⟨?_, ?_⟩, ?_⟩
  · intro j other m' there
    obtain ⟨_, entry, different⟩ := others j other m' there
    simp only [apply, Function.update_of_ne different]
    exact kept.owned.active j other m' entry
  · intro j k a b m' herej herek
    exact kept.owned.once j k a b m' (others j a m' herej).2.1 (others k b m' herek).2.1
  · intro other m' there
    obtain ⟨_, entry, different⟩ := others _ other m' there
    obtain ⟨path, same⟩ := kept.kept other m' entry
    refine ⟨path, ?_⟩
    have there' : Function.update t.volumes i none firstVolume = some (other, m') := there
    rw [← same]
    simp only [system, apply, there', entry, Option.bind_some, Function.update_of_ne different]

end Tables

/-! ### The operations on the tables -/

section Operations

variable {t t' : Tables} {boot : Option (MountId × Nat)}

/-- An event that leaves the system volume where it is. -/
def SparesSystem (t : Tables) : TableEvent → Prop
  | .mount m _ _ => t.mounted m = none
  | .enter i _ m => t.Enters i m
  | .unmount m => t.Unowned m
  | .leave i m => ∃ other, t.volumes i = some (other, m) ∧ other ≠ systemPath
  | .find _ => False

theorem spared_system (reaches : Reaches Tables.apply SparesSystem t t')
    (kept : t.SystemKept boot) (present : t.volumes firstVolume ≠ none) : t'.SystemKept boot := by
  have event : ∀ (t : Tables) e, (t.SystemKept boot ∧ t.volumes firstVolume ≠ none) →
      SparesSystem t e → (t.apply e).SystemKept boot ∧ (t.apply e).volumes firstVolume ≠ none := by
    rintro t e ⟨kept, present⟩ allowed
    cases e with
    | mount m id generation => exact ⟨kept.other (kept.owned.free_unowned allowed), present⟩
    | unmount m => exact ⟨kept.other allowed, present⟩
    | enter i stored m =>
      have later : i ≠ firstVolume := by
        rintro rfl
        exact present allowed.free
      refine ⟨kept.enter allowed fun first => absurd first later, ?_⟩
      simp only [Tables.apply, Function.update_of_ne later.symm]
      exact present
    | leave i m =>
      obtain ⟨other, here, notSystem⟩ := allowed
      have later : firstVolume ≠ i := by
        rintro rfl
        exact notSystem (kept.kept other m here).1
      refine ⟨kept.leave here, ?_⟩
      simp only [Tables.apply, Function.update_of_ne later]
      exact present
    | find _ => exact allowed.elim
  exact (reaches.preserves event ⟨kept, present⟩).1

theorem auto_system (reaches : Reaches Tables.apply AutoAllowed t t')
    (kept : t.SystemKept boot) (present : t.volumes firstVolume ≠ none) :
    t'.SystemKept boot := by
  refine spared_system (reaches.mono fun t e allowed => ?_) kept present
  cases e with
  | mount m id generation => exact allowed.1
  | unmount m => exact allowed
  | enter i point m => exact allowed.1
  | find _ => exact allowed.elim
  | leave _ _ => exact allowed.elim

theorem remount_system {ids : Nat → Prop} {point : CString}
    (reaches : Reaches Tables.apply (RemountAllowed ids point) t t')
    (kept : t.SystemKept boot) (present : t.volumes firstVolume ≠ none) :
    t'.SystemKept boot := by
  refine spared_system (reaches.mono fun t e allowed => ?_) kept present
  cases e with
  | mount _ _ _ => exact (allowed.resolve_left id).1
  | unmount m => exact allowed.resolve_left id
  | enter i stored m => exact (allowed.resolve_left id).1
  | leave i m =>
    obtain ⟨other, here, rfl, notSystem⟩ := allowed.resolve_right id
    exact ⟨other, here, notSystem⟩
  | find _ => exact allowed.elim id id

theorem leave_system {which : VolumeId → CString → Prop}
    (reaches : Reaches Tables.apply (LeaveAllowed which) t t') (kept : t.SystemKept boot) :
    t'.SystemKept boot := by
  have event : ∀ (t : Tables) e, t.SystemKept boot → LeaveAllowed which t e →
      (t.apply e).SystemKept boot := by
    intro t e kept allowed
    cases e with
    | leave i m =>
      obtain ⟨point, here, _⟩ := allowed
      exact kept.leave here
    | _ => exact allowed.elim
  exact reaches.preserves event kept

theorem auto_point (reaches : Reaches Tables.apply AutoAllowed t t')
    (free : t.volumes firstVolume = none) :
    ∀ point m, t'.volumes firstVolume = some (point, m) → point = systemPath := by
  have event : ∀ (t : Tables) e, (∀ point m, t.volumes firstVolume = some (point, m) → point = systemPath) →
      AutoAllowed t e →
      ∀ point m, (t.apply e).volumes firstVolume = some (point, m) → point = systemPath := by
    intro t e paths allowed
    cases e with
    | mount m id generation => exact paths
    | unmount m => exact paths
    | enter i stored m =>
      intro point m' here
      simp only [Tables.apply] at here
      by_cases same : i = firstVolume
      · subst same
        rw [Function.update_self] at here
        cases here
        exact allowed.2
      · rw [Function.update_of_ne fun other => same other.symm] at here
        exact paths point m' here
    | find _ => exact allowed.elim
    | leave _ _ => exact allowed.elim
  refine reaches.preserves event fun point m here => ?_
  rw [free] at here
  cases here

end Operations

/-! ### Runs -/

section Runs

variable {W C : Type} {drivers : Drivers W C}

theorem TableInv.tables {s : VfsState W C} (inv : TableInv s) : s.tables.Owned where
  active := by
    intro i point m entry
    obtain ⟨owned, _⟩ := tables_volumes.mp entry
    obtain ⟨mount, here⟩ := Option.isSome_iff_exists.mp (inv.owned i m owned).2.2
    simp only [VfsState.tables, here, Option.map_some, ne_eq, reduceCtorEq, not_false_eq_true]
  once := by
    intro i j point other m here there
    exact inv.unique i j m (tables_volumes.mp here).1 (tables_volumes.mp there).1

/-- A path under no mount point that is no alias is routed to the mount `boot`, or to
none. -/
def RootRouted (boot : Option (MountId × Nat)) (s : VfsState W C) : Prop :=
  ∀ path, (∀ i, ¬Matches s path i) → diskAlias path = none → ∀ m, (mountForPath s path).1 = some m →
      ∃ generation, boot = some (m, generation) ∧ s.fs.generationOf m = some generation

theorem mountForPath_fallback {s : VfsState W C} {path : CString}
    (unmatched : ∀ i, ¬Matches s path i) (unnamed : diskAlias path = none) {m : MountId}
    (routed : (mountForPath s path).1 = some m) : s.mounts firstVolume = some m := by
  have unselected : selectVolumeForPath s path = none := by
    unfold selectVolumeForPath
    split
    · rename_i best found
      rcases bestVolume_some _ _ _ found with impossible | matching
      · cases impossible
      · exact absurd matching (unmatched best)
    · rw [unnamed]
  unfold mountForPath volumeForPath at routed
  rw [unselected] at routed
  dsimp only at routed
  split at routed
  · rename_i i relative here
    have first : i = firstVolume := by
      split at here
      · exact (Option.some.inj (Prod.ext_iff.mp here).1).symm
      · have volume := (Prod.ext_iff.mp here).1
        dsimp only at volume
        split at volume
        · exact (Option.some.inj volume).symm
        · cases volume
    rw [← first]
    exact routed
  · cases routed

theorem Tables.SystemKept.rootRouted {s : VfsState W C} {boot : Option (MountId × Nat)}
    (kept : s.tables.SystemKept boot) : RootRouted boot s := by
  intro path unmatched unnamed m routed
  have here := mountForPath_fallback unmatched unnamed routed
  have entry := tables_volumes.mpr ⟨here, rfl⟩
  obtain ⟨mount, active⟩ := Option.ne_none_iff_exists'.mp (kept.owned.active _ _ _ entry)
  refine ⟨mount.2, ?_, ?_⟩
  · rw [← (kept.kept _ _ entry).2]
    simp only [Tables.system, entry, Option.bind_some, active, Option.map_some]
  · simp only [VfsState.tables, Option.map_eq_some_iff] at active
    obtain ⟨found, there, rfl⟩ := active
    simp only [Filesystems.generationOf, there, Option.map_some]

/-- A step that mounts nothing unless the first entry is in use. -/
def KeepsSystem (run : Run W C) : VfsOp W → Prop
  | .mountDevice _ _ _ => (run.vfs.mounts firstVolume).isSome = true
  | .remount _ _ => (run.vfs.mounts firstVolume).isSome = true
  | .rescan _ _ _ => (run.vfs.mounts firstVolume).isSome = true
  | _ => True

def AllKeepSystem (drivers : Drivers W C) (run : Run W C) : List (VfsOp W) → Prop
  | [] => True
  | op :: rest => KeepsSystem run op ∧ AllKeepSystem drivers (vfsStep drivers run op) rest

theorem KeepsSystem.step {run : Run W C} {op : VfsOp W} (keeps : KeepsSystem run op)
    {boot : Option (MountId × Nat)} (inv : TableInv run.vfs)
    (kept : run.vfs.tables.SystemKept boot) :
    (vfsStep drivers run op).vfs.tables.SystemKept boot := by
  have present (here : (run.vfs.mounts firstVolume).isSome = true) :
      run.vfs.tables.volumes firstVolume ≠ none := by
    rw [ne_eq, tables_volumes_none]
    exact Option.isSome_iff_ne_none.mp here
  cases op with
  | openFile path =>
    have same := @vfsOpen_tables W C drivers run.vfs path
    rw [← same] at kept
    simp only [vfsStep]
    split <;> exact kept
  | read handle size =>
    exact (@vfsRead_tables W C drivers run.vfs handle size).symm ▸ kept
  | close handle => exact (vfsClose_tables run.vfs handle).symm ▸ kept
  | external world => exact kept
  | unmount point => exact leave_system (vfsUnmount_reaches run.vfs point) kept
  | removeDevice name => exact leave_system (vfsHandleDeviceRemoved_reaches run.vfs name) kept
  | mountDevice name point flags =>
    exact remount_system ((vfsMountDevice_reaches run.vfs inv name point flags).mono
      fun _ _ here => Or.inr here) kept (present keeps)
  | remount point flags =>
    exact remount_system (vfsRemount_reaches run.vfs inv point flags) kept (present keeps)
  | rescan devices partitions world =>
    exact auto_system (vfsMountAllVolumes_reaches _ ⟨inv.owned, inv.unique, inv.mounted⟩)
      ⟨⟨kept.owned.active, kept.owned.once⟩, kept.kept⟩ (present keeps)

def bootSystem (drivers : Drivers W C) (devices : List Device) (partitions : List PartitionInfo)
    (world : W) : Option (MountId × Nat) :=
  (initialRun drivers devices partitions world).vfs.tables.system

/-- In every run in which nothing is mounted while the first entry of the volume table is
free, a path under no mount point that is no alias is routed to the system volume of the
boot, or to none. -/
theorem root_routed (drivers : Drivers W C) (devices : List Device)
    (partitions : List PartitionInfo) (world : W) (ops : List (VfsOp W))
    (keeps : AllKeepSystem drivers (initialRun drivers devices partitions world) ops) :
    RootRouted (bootSystem drivers devices partitions world)
      (runOps drivers (initialRun drivers devices partitions world) ops).vfs := by
  have runs : ∀ (ops : List (VfsOp W)) (run : Run W C), RunInv run →
      run.vfs.tables.SystemKept (bootSystem drivers devices partitions world) →
      AllKeepSystem drivers run ops →
      (runOps drivers run ops).vfs.tables.SystemKept
        (bootSystem drivers devices partitions world) := by
    intro ops
    induction ops with
    | nil => exact fun _ _ kept _ => kept
    | cons op rest ih =>
      intro run inv kept keeps
      exact ih _ (inv.step op) (keeps.1.step inv.table kept) keeps.2
  have inv := @RunInv.initial W C drivers devices partitions world
  have points := auto_point (@initialRun_reaches W C drivers devices partitions world) rfl
  refine (runs ops _ inv ⟨inv.table.tables, fun point m here => ?_⟩ keeps).rootRouted
  exact ⟨points point m here, rfl⟩

end Runs

/-! ### A system disk that is removed -/

def dataDisk : Device := { systemDisk with id := 1, name := ['d', 'i', 's', 'k', '1'] }

def mntPath : CString := ['/', 'm', 'n', 't']

theorem root_routed_example : RootRouted (bootSystem twoFiles [systemDisk, dataDisk] [] ())
      (runOps twoFiles (initialRun twoFiles [systemDisk, dataDisk] [] ())
        [.unmount dataPath, .mountDevice dataDisk.name mntPath 0, .removeDevice systemDisk.name]).vfs := by
  have present : ((vfsStep twoFiles (initialRun twoFiles [systemDisk, dataDisk] [] ())
      (.unmount dataPath)).vfs.mounts firstVolume).isSome = true := by
    decide +kernel
  exact root_routed twoFiles _ [] () _ ⟨trivial, present, trivial, trivial⟩

/-- The system's disk is removed, the other disk is unmounted and mounted elsewhere, and
every path that is under no mount point now leads to it. -/
theorem root_routed_to_data_disk : ¬RootRouted (bootSystem twoFiles [systemDisk, dataDisk] [] ())
      (runOps twoFiles (initialRun twoFiles [systemDisk, dataDisk] [] ())
        [.removeDevice systemDisk.name, .unmount dataPath, .mountDevice dataDisk.name mntPath 0]).vfs := by
  intro routed
  have unmatched : ∀ i, ¬Matches (runOps twoFiles (initialRun twoFiles [systemDisk, dataDisk] [] ())
      [.removeDevice systemDisk.name, .unmount dataPath,
        .mountDevice dataDisk.name mntPath 0]).vfs ['/', 'x'] i := by
    unfold Matches
    decide +kernel
  obtain ⟨generation, boot, here⟩ := routed ['/', 'x'] unmatched (by decide) ⟨0, by decide⟩
    (by decide +kernel)
  have first : bootSystem twoFiles [systemDisk, dataDisk] [] () = some (⟨0, by decide⟩, 1) := by
    decide +kernel
  have later : (runOps twoFiles (initialRun twoFiles [systemDisk, dataDisk] [] ())
      [.removeDevice systemDisk.name, .unmount dataPath,
        .mountDevice dataDisk.name mntPath 0]).vfs.fs.generationOf ⟨0, by decide⟩ = some 3 := by
    decide +kernel
  rw [first] at boot
  cases boot
  rw [later] at here
  cases here

end AsasOs.Vfs
