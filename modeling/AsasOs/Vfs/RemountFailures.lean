import AsasOs.Vfs.MountCounts
import AsasOs.Vfs.MountPoints

/-!
# Remounts that fail

`vfs_remount` unmounts a volume and mounts its device again in the mode that is asked for. If
that fails, it tries to mount the device as it was: at the same mount point and as read-only as
before, but without the no-exec flag. That may fail as well.

## Main result

- `vfsRemount_iff`: when the volume is mounted as before after a remount that has failed.
-/
namespace AsasOs.Vfs

open Block CString Trace

variable {W C : Type} {drivers : Drivers W C}

/-! ### Invariants of the tables -/

/-- Mount points fit their fields, and no device is mounted twice. -/
structure Tables.Sound (t : Tables) : Prop where
  fits : ∀ i point m, t.volumes i = some (point, m) → point.length < 32
  once : ∀ m m' id g g', t.mounted m = some (id, g) → t.mounted m' = some (id, g') → m = m'

/-- The events that mount a device that is not mounted, or enter a mount point that fits. -/
def SoundEvent (t : Tables) : TableEvent → Prop
  | .mount _ id _ => ¬t.Mounted id
  | .enter _ point _ => point.length < 32
  | _ => True

theorem Tables.Sound.event {t : Tables} {e : TableEvent} (sound : t.Sound) (allowed : SoundEvent t e) :
    (t.apply e).Sound := by
  have fewer : ∀ (m m' : MountId) entry, Function.update t.mounted m none m' = some entry →
      t.mounted m' = some entry := by
    intro m m' entry here
    by_cases same : m' = m
    · rw [same, Function.update_self] at here
      cases here
    · rwa [Function.update_of_ne same] at here
  cases e with
  | find parents => exact ⟨sound.fits, sound.once⟩
  | mount m id generation =>
    refine ⟨sound.fits, fun a b d g g' first second => ?_⟩
    have free : ∀ c gen, t.mounted c = some (id, gen) → False :=
      fun c gen here => allowed ⟨c, id, gen, here, .inl rfl⟩
    simp only [Tables.apply] at first second
    by_cases atA : a = m
    · by_cases atB : b = m
      · rw [atA, atB]
      · rw [Function.update_of_ne atB] at second
        rw [atA, Function.update_self] at first
        cases first
        exact (free b g' second).elim
    · rw [Function.update_of_ne atA] at first
      by_cases atB : b = m
      · rw [atB, Function.update_self] at second
        cases second
        exact (free a g first).elim
      · rw [Function.update_of_ne atB] at second
        exact sound.once a b d g g' first second
  | unmount m =>
    exact ⟨sound.fits, fun a b d g g' first second => sound.once a b d g g' (fewer _ _ _ first) (fewer _ _ _ second)⟩
  | enter i point m =>
    refine ⟨fun j other m' here => ?_, sound.once⟩
    simp only [Tables.apply] at here
    by_cases same : j = i
    · rw [same, Function.update_self] at here
      cases here
      exact allowed
    · rw [Function.update_of_ne same] at here
      exact sound.fits j other m' here
  | leave i m =>
    refine ⟨fun j other m' here => ?_, fun a b d g g' first second =>
      sound.once a b d g g' (fewer _ _ _ first) (fewer _ _ _ second)⟩
    simp only [Tables.apply] at here
    by_cases same : j = i
    · rw [same, Function.update_self] at here
      cases here
    · rw [Function.update_of_ne same] at here
      exact sound.fits j other m' here

theorem autoAllowed_sound (t : Tables) (e : TableEvent) (allowed : AutoAllowed t e) :
    SoundEvent t e := by
  cases e with
  | mount m id generation => exact allowed.2.1
  | enter i point m =>
    obtain ⟨-, auto⟩ := allowed
    refine autoPoints_fit point ?_
    unfold AutoPoint at auto
    split at auto
    · exact auto ▸ List.mem_cons_self
    · exact List.mem_cons_of_mem _ auto.1
  | _ => trivial

theorem remountAllowed_sound {ids : Nat → Prop} {point : CString} (t : Tables) (e : TableEvent)
    (allowed : RemountAllowed ids point t e) : SoundEvent t e := by
  cases e with
  | mount m id generation =>
    rcases allowed with impossible | here
    · exact impossible.elim
    · exact here.2.1
  | enter i stored m =>
    rcases allowed with impossible | here
    · exact impossible.elim
    · rw [SoundEvent, here.2.1, copyString, List.length_take]
      omega
  | _ => trivial

theorem reaches_sound {allowed : Tables → TableEvent → Prop} {t t' : Tables}
    (reaches : Reaches Tables.apply allowed t t') (events : ∀ t e, allowed t e → SoundEvent t e)
    (sound : t.Sound) :
    t'.Sound :=
  reaches.preserves (fun t e sound here => sound.event (events t e here)) sound

theorem tables_sound (devices : List Device) (partitions : List PartitionInfo) (world : W)
    (ops : List (VfsOp W)) :
    (runOps drivers (initialRun drivers devices partitions world) ops).vfs.tables.Sound := by
  have step : ∀ (run : Run W C) op, RunInv run ∧ run.vfs.tables.Sound →
      RunInv (vfsStep drivers run op) ∧ (vfsStep drivers run op).vfs.tables.Sound := by
    rintro run op ⟨inv, sound⟩
    refine ⟨inv.step op, ?_⟩
    cases op with
    | openFile path =>
      have same := @vfsOpen_tables W C drivers run.vfs path
      rw [← same] at sound
      simp only [vfsStep]
      split <;> exact sound
    | read handle size => exact (@vfsRead_tables W C drivers run.vfs handle size).symm ▸ sound
    | close handle => exact (vfsClose_tables run.vfs handle).symm ▸ sound
    | external world => exact sound
    | unmount point =>
      refine reaches_sound (vfsUnmount_reaches run.vfs point) (fun t e here => ?_) sound
      cases e with
      | leave i m => trivial
      | _ => exact here.elim
    | removeDevice name =>
      refine reaches_sound (vfsHandleDeviceRemoved_reaches run.vfs name) (fun t e here => ?_) sound
      cases e with
      | leave i m => trivial
      | _ => exact here.elim
    | mountDevice name point flags =>
      exact reaches_sound (vfsMountDevice_reaches run.vfs inv.table name point flags)
        (fun t e here => remountAllowed_sound t e (.inr here)) sound
    | remount point flags =>
      exact reaches_sound (vfsRemount_reaches run.vfs inv.table point flags) remountAllowed_sound sound
    | rescan devices partitions world =>
      exact reaches_sound (vfsMountAllVolumes_reaches _ ⟨inv.table.owned, inv.table.unique, inv.table.mounted⟩)
        autoAllowed_sound ⟨sound.fits, sound.once⟩
  refine (runOps_preserves step ops _ ⟨RunInv.initial devices partitions world, ?_⟩).2
  refine reaches_sound (initialRun_reaches devices partitions world) autoAllowed_sound ⟨by rintro _ _ _ ⟨⟩, by rintro _ _ _ _ _ ⟨⟩⟩

/-! ### What a mount comes to -/

/-- A volume is mounted at a mount point, with this device and these flags. -/
def MountedAs (s : VfsState W C) (point : CString) (id : Nat) (readOnly noExec : Bool) : Prop :=
  ∃ i m mount, i.val < s.volumeCount ∧ (s.volumes i).valid = true ∧ (s.volumes i).mountPoint = point ∧
    (s.volumes i).readOnly = readOnly ∧ (s.volumes i).noExec = noExec ∧
    s.mounts i = some m ∧ s.fs.mounts m = some mount ∧ mount.device = id

/-- The device that `vfs_mount_device` passes to the drivers, when it gets so far. -/
def mountTarget (s : VfsState W C) (name point : CString) : Option (Nat × Device) :=
  if mountPointRefused s point 0 then none
  else
    match deviceByName s name with
    | none => none
    | some id =>
      match s.devices[id]? with
      | none => none
      | some device => if s.fs.deviceIsMounted s.devices id then none else some (id, device)

/-- The driver that accepts a device and mounts it, and the flags that it adds. -/
def driverAnswer (drivers : Drivers W C) (world : W) (device : Device) :
    Option (DriverId × UInt32) × W :=
  match drivers.probe world device with
  | (none, world) => (none, world)
  | (some driver, world) =>
    match drivers.mount world device driver with
    | (none, world) => (none, world)
    | (some (_, more), world) => (some (driver, drivers.flags driver ||| more), world)

/-- `vfs_remount` and `vfs_mount_device` refuse other flags. -/
def FlagsRefused (flags : UInt32) : Prop :=
  flags &&& ~~~(FILESYSTEM_FLAG_READ_ONLY ||| FILESYSTEM_FLAG_NO_EXEC) ≠ 0

instance (flags : UInt32) : Decidable (FlagsRefused flags) :=
  inferInstanceAs (Decidable (_ ≠ _))

/-- There is room for one more mount. -/
structure Room (s : VfsState W C) : Prop where
  count : s.fs.mountCount < FILESYSTEM_MAX_MOUNTS
  slot : ∃ m, s.fs.freeSlot = some m
  volume : ∃ i, freeVolume s = some i

/-- Two states with the same devices, mounts and volumes. -/
structure SameMounts (s s' : VfsState W C) : Prop where
  devices : s'.devices = s.devices
  partitions : s'.partitions = s.partitions
  volumes : s'.volumes = s.volumes
  mounts : s'.mounts = s.mounts
  volumeCount : s'.volumeCount = s.volumeCount
  table : s'.fs.mounts = s.fs.mounts
  mountCount : s'.fs.mountCount = s.fs.mountCount

namespace SameMounts

variable {s s' : VfsState W C} (same : SameMounts s s')
include same

theorem target (name point : CString) : mountTarget s' name point = mountTarget s name point := by
  have refused : mountPointRefused s' point 0 = mountPointRefused s point 0 := by
    simp only [mountPointRefused, same.volumes, same.volumeCount]
  have named : deviceByName s' name = deviceByName s name := by
    simp only [deviceByName, deviceFind, same.devices, same.partitions]
  have mounted : ∀ id, s'.fs.deviceIsMounted s'.devices id = s.fs.deviceIsMounted s.devices id := by
    intro id
    simp only [Filesystems.deviceIsMounted, same.table, same.devices]
  simp only [mountTarget, refused, named, same.devices]
  simp only [← same.devices, mounted]

theorem room (room : Room s) : Room s' := by
  refine ⟨same.mountCount ▸ room.count, ?_, ?_⟩
  · have free : s'.fs.freeSlot = s.fs.freeSlot := by simp only [Filesystems.freeSlot, same.table]
    exact free ▸ room.slot
  · have free : freeVolume s' = freeVolume s := by simp only [freeVolume, same.volumes, same.volumeCount]
    exact free ▸ room.volume

theorem mountedAs {point : CString} {id : Nat} {readOnly noExec : Bool}
    (mounted : MountedAs s' point id readOnly noExec) : MountedAs s point id readOnly noExec := by
  obtain ⟨i, m, mount, bound, valid, here, locked, sealed, slot, active, device⟩ := mounted
  rw [same.volumes] at valid here locked sealed
  rw [same.mounts] at slot
  rw [same.table] at active
  exact ⟨i, m, mount, same.volumeCount ▸ bound, valid, here, locked, sealed, slot, active, device⟩

end SameMounts

theorem mountPointRefused_flags (s : VfsState W C) (point : CString) {flags : UInt32}
    (allowed : ¬FlagsRefused flags) :
    mountPointRefused s point flags = mountPointRefused s point 0 := by
  have clear : flags &&& ~~~(FILESYSTEM_FLAG_READ_ONLY ||| FILESYSTEM_FLAG_NO_EXEC) = 0 := not_not.mp allowed
  simp only [mountPointRefused, clear, UInt32.zero_and]

variable {s : VfsState W C} {flags : UInt32}

theorem vfsMountDevice_untargeted {name point : CString}
    (allowed : ¬FlagsRefused flags) (missing : mountTarget s name point = none) :
    vfsMountDevice drivers s name point flags = (false, s) := by
  unfold vfsMountDevice
  rw [mountPointRefused_flags s point allowed]
  unfold mountTarget at missing
  split
  · rfl
  · rename_i accepted
    rw [if_neg accepted] at missing
    split
    · rfl
    · rename_i id named
      rw [named] at missing
      dsimp only at missing
      split
      · rfl
      · rename_i device listed
        rw [listed] at missing
        dsimp only at missing
        split
        · rfl
        · rename_i unmounted
          rw [if_neg unmounted] at missing
          cases missing

theorem vfsMountDevice_targeted {name point : CString} {id : Nat} {device : Device}
    (allowed : ¬FlagsRefused flags) (target : mountTarget s name point = some (id, device)) :
    vfsMountDevice drivers s name point flags = match s.probe drivers device with
      | (none, s) => (false, s)
      | (some driver, s) =>
        match s.mountFilesystem drivers id device driver flags with
        | (none, s) => (false, s)
        | (some mount, s) =>
          match freeVolume s with
          | none => (false, (s.unmountFilesystem drivers mount).2)
          | some i =>
            (true, s.addVolume i mount (volumeInfo s device driver mount point
              (readOnlyMount s.fs mount FILESYSTEM_FLAG_READ_ONLY))) := by
  unfold mountTarget at target
  split at target
  · cases target
  · rename_i accepted
    split at target
    · cases target
    · rename_i found named
      split at target
      · cases target
      · rename_i there listed
        split at target
        · cases target
        · rename_i unmounted
          cases target
          unfold vfsMountDevice
          rw [mountPointRefused_flags s point allowed, if_neg accepted, named]
          dsimp only
          rw [listed]
          dsimp only
          exact if_neg unmounted

theorem vfsMountDevice_refused (drivers : Drivers W C) {s : VfsState W C} {name point : CString}
    {flags : UInt32} {id : Nat} {device : Device}
    (allowed : ¬FlagsRefused flags) (room : Room s)
    (target : mountTarget s name point = some (id, device))
    (refused : (driverAnswer drivers s.fs.world device).1 = none) :
    (vfsMountDevice drivers s name point flags).1 = false ∧
      (vfsMountDevice drivers s name point flags).2.fs.world =
      (driverAnswer drivers s.fs.world device).2 ∧
      SameMounts s (vfsMountDevice drivers s name point flags).2 := by
  rw [vfsMountDevice_targeted allowed target]
  obtain ⟨m, slot⟩ := room.slot
  unfold driverAnswer at refused ⊢
  unfold VfsState.probe
  rcases probed : drivers.probe s.fs.world device with ⟨_ | driver, world⟩
  · exact ⟨rfl, rfl, rfl, rfl, rfl, rfl, rfl, rfl, rfl⟩
  · have counted : ¬(s.setWorld world).fs.mountCount ≥ FILESYSTEM_MAX_MOUNTS := Nat.not_le.mpr room.count
    have free : (s.setWorld world).fs.freeSlot = some m := slot
    rw [probed] at refused
    dsimp only at refused ⊢
    unfold VfsState.mountFilesystem Filesystems.mount
    rw [if_neg counted, free]
    dsimp only [VfsState.setWorld]
    rcases answer : drivers.mount world device driver with ⟨_ | ⟨context, more⟩, world'⟩
    · exact ⟨rfl, rfl, rfl, rfl, rfl, rfl, rfl, rfl, rfl⟩
    · rw [answer] at refused
      cases refused

structure Entered (s s' : VfsState W C) (i : VolumeId) (m : MountId) (mount : Mount C) (volume : VolumeInfo) : Prop where
  free : freeVolume s = some i
  slot : s.fs.freeSlot = some m
  volumes : s'.volumes = Function.update s.volumes i volume
  mounts : s'.mounts = Function.update s.mounts i (some m)
  table : s'.fs.mounts = Function.update s.fs.mounts m (some mount)
  valid : volume.valid = true
  bound : i.val < s'.volumeCount

theorem flags_bit (flags added bit : UInt32) :
    ((flags ||| added) &&& bit != 0) = ((flags &&& bit != 0) || (added &&& bit != 0)) := by
  have split : (flags ||| added) &&& bit = (flags &&& bit) ||| (added &&& bit) := by
    refine UInt32.eq_of_toBitVec_eq ?_
    simp only [UInt32.toBitVec_and, UInt32.toBitVec_or]
    ext k
    simp [Bool.and_or_distrib_right]
  rw [split, bne, bne, bne, Bool.eq_iff_iff]
  simp only [Bool.not_eq_true', beq_eq_false_iff_ne, Bool.or_eq_true, ne_eq, UInt32.or_eq_zero_iff, not_and_or]

theorem vfsMountDevice_mounted (drivers : Drivers W C) {s : VfsState W C} {name point : CString}
    {flags : UInt32} {id : Nat} {device : Device}
    (allowed : ¬FlagsRefused flags) (room : Room s)
    (target : mountTarget s name point = some (id, device))
    {driver : DriverId} {added : UInt32}
    (mounted : (driverAnswer drivers s.fs.world device).1 = some (driver, added)) :
    (vfsMountDevice drivers s name point flags).1 = true ∧
      ∃ i m mount volume, Entered s (vfsMountDevice drivers s name point flags).2 i m mount volume ∧
        mount.device = id ∧ volume.mountPoint = copyString point 32 ∧
        volume.readOnly = ((flags ||| added) &&& FILESYSTEM_FLAG_READ_ONLY != 0) ∧
        volume.noExec = ((flags ||| added) &&& FILESYSTEM_FLAG_NO_EXEC != 0) := by
  rw [vfsMountDevice_targeted allowed target]
  obtain ⟨m, slot⟩ := room.slot
  obtain ⟨i, volume⟩ := room.volume
  unfold driverAnswer at mounted
  unfold VfsState.probe
  rcases probed : drivers.probe s.fs.world device with ⟨_ | driver', world⟩
  · rw [probed] at mounted
    cases mounted
  · have counted : ¬(s.setWorld world).fs.mountCount ≥ FILESYSTEM_MAX_MOUNTS := Nat.not_le.mpr room.count
    have free : (s.setWorld world).fs.freeSlot = some m := slot
    rw [probed] at mounted
    dsimp only at mounted ⊢
    unfold VfsState.mountFilesystem Filesystems.mount
    rw [if_neg counted, free]
    dsimp only [VfsState.setWorld]
    rcases answer : drivers.mount world device driver' with ⟨_ | ⟨context, more⟩, world'⟩
    · rw [answer] at mounted
      cases mounted
    · rw [answer] at mounted
      cases mounted
      dsimp only
      -- The free entry does not depend on the table of mounts.
      unfold freeVolume at volume
      unfold freeVolume
      dsimp only
      rw [volume]
      refine ⟨rfl, i, m, _, _, ⟨volume, slot, rfl, rfl, rfl, rfl, ?_⟩, rfl, rfl, ?_, ?_⟩
      · have within := freeVolume_le (s := s) volume
        dsimp only [VfsState.addVolume]
        split <;> omega
      · simp only [volumeInfo, readOnlyMount, Filesystems.setMount, Function.update_self, Option.any_some,
          UInt32.or_assoc]
      · simp only [volumeInfo, readOnlyMount, Filesystems.setMount, Function.update_self, Option.any_some,
          UInt32.or_assoc]

theorem Entered.mountedAs_iff {s s' : VfsState W C} {i : VolumeId} {m : MountId} {mount : Mount C}
    {volume : VolumeInfo}
    (entered : Entered s s' i m mount volume) (inv : TableInv s) {point : CString} {id : Nat}
    {readOnly noExec : Bool}
    (unmounted : ∀ m' mount', s.fs.mounts m' = some mount' → mount'.device ≠ id) :
    MountedAs s' point id readOnly noExec ↔
      mount.device = id ∧ volume.mountPoint = point ∧ volume.readOnly = readOnly ∧
      volume.noExec = noExec := by
  constructor
  · rintro ⟨j, m', mount', bound, valid, here, locked, sealed, slot, active, device⟩
    rw [entered.volumes] at here locked sealed
    rw [entered.mounts] at slot
    rw [entered.table] at active
    by_cases same : m' = m
    · rw [same, Function.update_self] at active
      cases active
      by_cases atI : j = i
      · rw [atI, Function.update_self] at here locked sealed
        exact ⟨device, here, locked, sealed⟩
      · -- No other volume has the slot, for it was free.
        rw [Function.update_of_ne atI] at slot
        have taken := (inv.owned j m' slot).2.2
        rw [same, freeSlot_none entered.slot] at taken
        cases taken
    · rw [Function.update_of_ne same] at active
      exact absurd device (unmounted m' mount' active)
  · rintro ⟨device, here, locked, sealed⟩
    refine ⟨i, m, mount, entered.bound, ?_, ?_, ?_, ?_, ?_, ?_, device⟩
    · rw [entered.volumes, Function.update_self, entered.valid]
    · rw [entered.volumes, Function.update_self, here]
    · rw [entered.volumes, Function.update_self, locked]
    · rw [entered.volumes, Function.update_self, sealed]
    · rw [entered.mounts, Function.update_self]
    · rw [entered.table, Function.update_self]

/-! ### The volume without its mount -/

/-- A state without the volume `i` and its mount. -/
def without (s : VfsState W C) (i : VolumeId) (m : MountId) : VfsState W C :=
  { s with fs := { s.fs.setMount m none with mountCount := s.fs.mountCount - 1 } }.dropVolume i

theorem without_room (i : VolumeId) (m : MountId) (count : s.fs.mountCount ≤ FILESYSTEM_MAX_MOUNTS)
    (world : W) :
    Room ((without s i m).setWorld world) := by
  have positive : 0 < FILESYSTEM_MAX_MOUNTS := by decide
  refine ⟨?_, ?_, ?_⟩
  · show s.fs.mountCount - 1 < FILESYSTEM_MAX_MOUNTS
    omega
  · refine Option.isSome_iff_exists.mp (List.find?_isSome.mpr ⟨m, List.mem_finRange m, ?_⟩)
    show (Function.update s.fs.mounts m none m).isNone = true
    rw [Function.update_self]
    rfl
  · refine Option.isSome_iff_exists.mp (List.find?_isSome.mpr ⟨i, List.mem_finRange i, ?_⟩)
    show (_ || !(Function.update s.volumes i _ i).valid) = true
    rw [Function.update_self]
    exact Bool.or_true _

/-- The volume `i` is found at a mount point, and has a mount. -/
structure VolumeOf (s : VfsState W C) (point : CString) (i : VolumeId) (m : MountId) (mount : Mount C) : Prop where
  found : volumeAt s point = some i
  slot : s.mounts i = some m
  active : s.fs.mounts m = some mount

namespace VolumeOf

variable {s : VfsState W C} {point : CString} {i : VolumeId} {m : MountId} {mount : Mount C}
  (volume : VolumeOf s point i m mount)
include volume

theorem stored (inv : TableInv s) : (s.volumes i).mountPoint = point := by
  obtain ⟨_, entry⟩ := volumeAt_entry inv volume.found
  exact (tables_volumes.mp entry).2

theorem mountedAs (inv : TableInv s) :
    MountedAs s point mount.device (s.volumes i).readOnly (s.volumes i).noExec :=
  ⟨i, m, mount, (inv.owned i m volume.slot).1, (inv.owned i m volume.slot).2.1, volume.stored inv, rfl, rfl,
    volume.slot, volume.active, rfl⟩

theorem unmount (drivers : Drivers W C) (proper : point ≠ ['/'] ∧ point ≠ systemPath) :
    vfsUnmount drivers s point = if mount.referenceCount ≠ 0 then (false, s) else
        match drivers.release s.fs.world mount.driver mount.context with
        | (false, world) => (false, s.setWorld world)
        | (true, world) => (true, (without s i m).setWorld world) := by
  unfold vfsUnmount
  rw [if_neg (not_or.mpr proper), volume.found]
  unfold unmountVolume VfsState.unmountFilesystem Filesystems.unmount
  dsimp only
  rw [volume.slot]
  dsimp only
  rw [volume.active]
  dsimp only
  by_cases unused : mount.referenceCount ≠ 0
  · rw [if_pos unused, if_pos unused]
  · rw [if_neg unused, if_neg unused]
    rcases drivers.release s.fs.world mount.driver mount.context with ⟨_ | _, world⟩
    · rfl
    · rfl

theorem unmounted (sound : s.tables.Sound) (world : W) :
    ∀ m' mount', ((without s i m).setWorld world).fs.mounts m' = some mount' →
    mount'.device ≠ mount.device := by
  intro m' mount' active same
  have here : Function.update s.fs.mounts m none m' = some mount' := active
  by_cases slot : m' = m
  · rw [slot, Function.update_self] at here
    cases here
  · rw [Function.update_of_ne slot] at here
    refine slot (sound.once m' m mount.device mount'.generation mount.generation ?_ ?_)
    · simp only [VfsState.tables, here, Option.map_some, same]
    · simp only [VfsState.tables, volume.active, Option.map_some]

end VolumeOf

/-! ### Remounts -/

/-- The flags with which `vfs_remount` restores a mount. -/
def restoreFlags (readOnly : Bool) : UInt32 := if readOnly then FILESYSTEM_FLAG_READ_ONLY else 0

/-- A mount whose driver adds these flags is restored as it was. -/
def SameFlags (readOnly noExec : Bool) (added : UInt32) : Prop :=
  (added &&& FILESYSTEM_FLAG_READ_ONLY ≠ 0 → readOnly = true) ∧
    (added &&& FILESYSTEM_FLAG_NO_EXEC != 0) = noExec

theorem sameFlags_iff (readOnly noExec : Bool) (added : UInt32) : SameFlags readOnly noExec added ↔
      ((restoreFlags readOnly ||| added) &&& FILESYSTEM_FLAG_READ_ONLY != 0) = readOnly ∧
        ((restoreFlags readOnly ||| added) &&& FILESYSTEM_FLAG_NO_EXEC != 0) = noExec := by
  have readBit : (restoreFlags readOnly &&& FILESYSTEM_FLAG_READ_ONLY != 0) = readOnly := by
    cases readOnly <;> decide
  have execBit : (restoreFlags readOnly &&& FILESYSTEM_FLAG_NO_EXEC != 0) = false := by
    cases readOnly <;> decide
  rw [flags_bit, flags_bit, readBit, execBit, Bool.false_or, SameFlags]
  refine and_congr_left fun _ => ?_
  cases readOnly with
  | true => simp
  | false => simp

/-- The mount is there after a remount that has failed: the request was refused at once, the volume
could not be unmounted, or the restoring mount reaches the same device, with the same flags. -/
def KeepsMount (drivers : Drivers W C) (s : VfsState W C) (point : CString) (flags : UInt32)
    (i : VolumeId)
    (m : MountId) (mount : Mount C) : Prop :=
  (point = ['/'] ∨ point = systemPath ∨ FlagsRefused flags) ∨
  mount.referenceCount ≠ 0 ∨
  (drivers.release s.fs.world mount.driver mount.context).1 = false ∨
  ∃ id device, mountTarget (without s i m) (s.volumes i).deviceName point = some (id, device) ∧
    ((driverAnswer drivers (drivers.release s.fs.world mount.driver mount.context).2 device).1.isSome = true ∨
      id = mount.device ∧ ∃ driver added, (driverAnswer drivers
          (driverAnswer drivers (drivers.release s.fs.world mount.driver mount.context).2 device).2 device).1 =
            some (driver, added) ∧
        SameFlags (s.volumes i).readOnly (s.volumes i).noExec added)

theorem restored_iff (drivers : Drivers W C) {s u : VfsState W C} {name point : CString}
    (readOnly noExec : Bool) {flags : UInt32}
    {id old : Nat} {device : Device} (inv : TableInv s) (room : Room s) (fits : point.length < 32)
    (allowed : ¬FlagsRefused flags)
    (unmounted : ∀ m' mount', s.fs.mounts m' = some mount' → mount'.device ≠ old)
    (target : mountTarget s name point = some (id, device))
    (refused : (driverAnswer drivers s.fs.world device).1 = none)
    (first : u = (vfsMountDevice drivers s name point flags).2) :
    MountedAs (vfsMountDevice drivers u name point (restoreFlags readOnly)).2 point old readOnly noExec ↔
      id = old ∧ ∃ driver added,
        (driverAnswer drivers (driverAnswer drivers s.fs.world device).2 device).1 =
        some (driver, added) ∧
          SameFlags readOnly noExec added := by
  obtain ⟨-, world, same⟩ := vfsMountDevice_refused drivers allowed room target refused
  have inv' := (@vfsMountDevice_evolves W C drivers s name point flags).table inv
  rw [← first] at world same inv'
  have target' := (same.target name point).trans target
  have unmounted' : ∀ m' mount', u.fs.mounts m' = some mount' → mount'.device ≠ old := same.table ▸ unmounted
  have restoring : ¬FlagsRefused (restoreFlags readOnly) := by
    cases readOnly <;> decide
  rw [← world]
  rcases answer : (driverAnswer drivers u.fs.world device).1 with _ | ⟨driver, added⟩
  · obtain ⟨-, -, kept⟩ := vfsMountDevice_refused drivers restoring (same.room room) target' answer
    refine iff_of_false (fun mounted => ?_) (fun restored => ?_)
    · obtain ⟨i, m, mount, -, -, -, -, -, -, active, device⟩ := kept.mountedAs mounted
      exact unmounted' m mount active device
    · obtain ⟨-, _, _, impossible, -⟩ := restored
      cases impossible
  · obtain ⟨-, i, m, mount, volume, entered, on, here, locked, sealed⟩ :=
      vfsMountDevice_mounted drivers restoring (same.room room) target' answer
    rw [entered.mountedAs_iff inv' unmounted', on, here, locked, sealed, copyString_of_fits fits]
    have flags := sameFlags_iff readOnly noExec added
    constructor
    · rintro ⟨device, -, bits⟩
      exact ⟨device, driver, added, rfl, flags.mpr bits⟩
    · rintro ⟨device, _, _, again, bits⟩
      cases again
      exact ⟨device, rfl, flags.mp bits⟩

theorem mountAgain_iff {name point : CString} {readOnly noExec : Bool} {old : Nat}
    (inv : TableInv s) (room : Room s) (fits : point.length < 32) (allowed : ¬FlagsRefused flags)
    (unmounted : ∀ m' mount', s.fs.mounts m' = some mount' → mount'.device ≠ old) :
    (let result : Bool × VfsState W C :=
        match vfsMountDevice drivers s name point flags with
        | (true, s) => (true, s)
        | (false, s) => (false, (vfsMountDevice drivers s name point (restoreFlags readOnly)).2)
      result.1 = false → MountedAs result.2 point old readOnly noExec) ↔
    ∃ id device, mountTarget s name point = some (id, device) ∧
      ((driverAnswer drivers s.fs.world device).1.isSome = true ∨ id = old ∧ ∃ driver added,
          (driverAnswer drivers (driverAnswer drivers s.fs.world device).2 device).1 = some (driver, added) ∧
            SameFlags readOnly noExec added) := by
  rcases target : mountTarget s name point with _ | ⟨id, device⟩
  · have restoring : ¬FlagsRefused (restoreFlags readOnly) := by
      cases readOnly <;> decide
    rw [vfsMountDevice_untargeted allowed target]
    dsimp only
    rw [vfsMountDevice_untargeted restoring target]
    refine iff_of_false (fun mounted => ?_) (fun found => ?_)
    · obtain ⟨i, m, mount, -, -, -, -, -, -, active, device⟩ := mounted rfl
      exact unmounted m mount active device
    · obtain ⟨_, _, impossible, -⟩ := found
      cases impossible
  · rcases answer : (driverAnswer drivers s.fs.world device).1 with _ | ⟨driver, added⟩
    · have refused := (vfsMountDevice_refused drivers allowed room target answer).1
      rcases first : vfsMountDevice drivers s name point flags with ⟨ok, u⟩
      rw [first] at refused
      cases refused
      have restored := restored_iff drivers readOnly noExec inv room fits allowed unmounted target answer
        (congrArg Prod.snd first).symm
      dsimp only
      rw [imp_iff_right rfl, restored]
      constructor
      · exact fun kept => ⟨id, device, rfl, .inr kept⟩
      · rintro ⟨_, _, same, mounted | kept⟩
        · cases same
          rw [answer] at mounted
          cases mounted
        · cases same
          exact kept
    · have mounted := (vfsMountDevice_mounted drivers allowed room target answer).1
      rcases first : vfsMountDevice drivers s name point flags with ⟨ok, u⟩
      rw [first] at mounted
      cases mounted
      refine iff_of_true (fun failed => Bool.noConfusion failed) ⟨id, device, rfl, .inl ?_⟩
      rw [answer]
      rfl

theorem vfsRemount_keeps {point : CString} {i : VolumeId} {m : MountId} {mount : Mount C}
    (inv : TableInv s) (sound : s.tables.Sound) (count : s.fs.mountCount ≤ FILESYSTEM_MAX_MOUNTS)
    (volume : VolumeOf s point i m mount) :
    ((vfsRemount drivers s point flags).1 = false →
      MountedAs (vfsRemount drivers s point flags).2 point mount.device (s.volumes i).readOnly (s.volumes i).noExec) ↔
      KeepsMount drivers s point flags i m mount := by
  have mounted := volume.mountedAs inv
  have stored := volume.stored inv
  have fits : point.length < 32 := by
    obtain ⟨_, entry⟩ := volumeAt_entry inv volume.found
    exact sound.fits i point _ entry
  unfold vfsRemount KeepsMount FlagsRefused
  by_cases atOnce : point = ['/'] ∨ point = systemPath ∨
      flags &&& ~~~(FILESYSTEM_FLAG_READ_ONLY ||| FILESYSTEM_FLAG_NO_EXEC) ≠ 0
  · rw [if_pos atOnce]
    exact iff_of_true (fun _ => mounted) (Or.inl atOnce)
  · have proper : point ≠ ['/'] ∧ point ≠ systemPath := ⟨fun h => atOnce (.inl h), fun h => atOnce (.inr (.inl h))⟩
    have allowed : ¬FlagsRefused flags := fun h => atOnce (.inr (.inr h))
    rw [if_neg atOnce, volume.found, or_iff_right atOnce]
    dsimp only
    rw [stored, volume.unmount drivers proper]
    by_cases used : mount.referenceCount ≠ 0
    · rw [if_pos used]
      exact iff_of_true (fun _ => mounted) (Or.inl used)
    · rw [if_neg used, or_iff_right used]
      have evolved := (@vfsUnmount_evolves W C drivers s point).table inv
      rw [volume.unmount drivers proper, if_neg used] at evolved
      rcases released : drivers.release s.fs.world mount.driver mount.context with ⟨_ | _, world⟩
      · exact iff_of_true (fun _ => mounted) (Or.inl rfl)
      · rw [released] at evolved
        have room : Room ((without s i m).setWorld world) := without_room i m count world
        have unmounted := volume.unmounted sound world
        have target : mountTarget ((without s i m).setWorld world) (s.volumes i).deviceName point =
            mountTarget (without s i m) (s.volumes i).deviceName point :=
          SameMounts.target ⟨rfl, rfl, rfl, rfl, rfl, rfl, rfl⟩ _ _
        rw [or_iff_right Bool.noConfusion, ← target]
        exact mountAgain_iff evolved room fits (fun h => atOnce (.inr (.inr h))) unmounted

/-- In every run, after a remount that has failed the volume is mounted as before if and only if
`KeepsMount` holds. -/
theorem vfsRemount_iff (drivers : Drivers W C) (devices : List Device)
    (partitions : List PartitionInfo) (world : W)
    (ops : List (VfsOp W)) (point : CString) (flags : UInt32) {s : VfsState W C}
    (reached : s = (runOps drivers (initialRun drivers devices partitions world) ops).vfs)
    {i : VolumeId} {m : MountId}
    {mount : Mount C} (volume : VolumeOf s point i m mount) :
    ((vfsRemount drivers s point flags).1 = false →
      MountedAs (vfsRemount drivers s point flags).2 point mount.device (s.volumes i).readOnly (s.volumes i).noExec) ↔
      KeepsMount drivers s point flags i m mount := by
  have inv : RunInv (runOps drivers (initialRun drivers devices partitions world) ops) :=
    runOps_preserves (P := RunInv) (fun _ op inv => inv.step op) ops _ (RunInv.initial devices partitions world)
  have steady : Steady drivers fun fs => fs.mountCount ≤ FILESYSTEM_MAX_MOUNTS := mountCount_steady
  have count := steady.runs devices partitions world (Nat.zero_le _) ops
  rw [← reached] at count
  exact vfsRemount_keeps (reached ▸ inv.table) (reached ▸ tables_sound devices partitions world ops) count volume

/-! ### A mount that fails once -/

/-- A driver that answers as many mounts as it is told in its own way, and then mounts. -/
def oftenFails : Drivers (List Bool) Unit where
  flags := fun _ => 0
  probe := fun world _ => (some .ext2, world)
  mount := fun world _ _ =>
    match world with
    | [] => (some ((), 0), [])
    | answer :: rest => (if answer then some ((), 0) else none, rest)
  stat := fun world _ _ _ => (none, world)
  read := fun world _ _ _ _ => ([], world)
  release := fun world _ _ => (true, world)
  flushBarrier := fun world _ => (true, world)
  selectPrimary := fun world _ _ _ => world
  primaryExists := fun world _ _ => (false, world)
  primaryRead := fun world _ _ _ => ([], world)

/-- Two disks, of which the second is mounted at `/data`, after some operations. -/
def dataAfter (ops : List (VfsOp (List Bool))) : VfsState (List Bool) Unit :=
  (runOps oftenFails (initialRun oftenFails [systemDisk, dataDisk] [] []) ops).vfs

def dataVolume : VolumeId := ⟨1, by decide⟩

/-- A remount that fails, after which the volume is mounted as before. -/
theorem vfsRemount_iff_restored :
    (vfsRemount oftenFails (dataAfter [.external [false]]) dataPath FILESYSTEM_FLAG_READ_ONLY).1 =
    false ∧
      MountedAs (vfsRemount oftenFails (dataAfter [.external [false]]) dataPath FILESYSTEM_FLAG_READ_ONLY).2
        dataPath 1 false false := by
  have failed : (vfsRemount oftenFails (dataAfter [.external [false]]) dataPath FILESYSTEM_FLAG_READ_ONLY).1 = false := by
    decide +kernel
  have volume : VolumeOf (dataAfter [.external [false]]) dataPath dataVolume ⟨1, by decide⟩
      ⟨2, 0, 1, .ext2, 0, ()⟩ := ⟨by decide +kernel, by decide +kernel, rfl⟩
  have kept := vfsRemount_iff oftenFails [systemDisk, dataDisk] [] [] [.external [false]] dataPath
    FILESYSTEM_FLAG_READ_ONLY rfl volume
  refine ⟨failed, kept.mpr (.inr (.inr (.inr ⟨1, dataDisk, rfl, .inr ⟨rfl, .ext2, 0, rfl, ?_⟩⟩))) failed⟩
  exact ⟨by decide, by decide +kernel⟩

/-- The remount fails, the mount that restores the volume does not, and the volume has lost its
no-exec flag. -/
theorem remount_lost : let s := dataAfter [.remount dataPath FILESYSTEM_FLAG_NO_EXEC, .external [false]]
    ¬((vfsRemount oftenFails s dataPath FILESYSTEM_FLAG_READ_ONLY).1 = false →
      MountedAs (vfsRemount oftenFails s dataPath FILESYSTEM_FLAG_READ_ONLY).2 dataPath 1
        (s.volumes dataVolume).readOnly (s.volumes dataVolume).noExec) := by
  intro s kept
  have after : ∀ i, ((vfsRemount oftenFails s dataPath FILESYSTEM_FLAG_READ_ONLY).2.volumes i).noExec = false := by
    decide +kernel
  have before : (s.volumes dataVolume).noExec = true := by
    decide +kernel
  obtain ⟨i, _, _, -, -, -, -, noExec, -⟩ := kept (by decide +kernel)
  rw [after, before] at noExec
  cases noExec

end AsasOs.Vfs
