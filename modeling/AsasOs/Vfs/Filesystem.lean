import AsasOs.Block.Device

/-!
# The table of mounted filesystems

`filesystem.c`. The drivers are a table of operations there and here: `Drivers` is
what the table holds, over a state `W` of the devices, the drivers and the legacy
single-volume code, and a type `C` of driver contexts. An inactive slot of the mount
table is `none`.
-/
namespace AsasOs.Vfs

open Block CString

def FILESYSTEM_MAX_MOUNTS : Nat := 16

def FILESYSTEM_FLAG_READ_ONLY : UInt32 := 0x01
def FILESYSTEM_FLAG_NO_EXEC : UInt32 := 0x02

inductive DriverId where
  | fat32
  | ntfs
  | exfat
  | ext2
  | udf
  | iso9660
  deriving DecidableEq, Repr

/-- `FS_TYPE`, of the legacy code that serves one volume. -/
inductive FsType where
  | fat16
  | fat32
  | ntfs
  deriving DecidableEq, Repr

/-- `ASAS_FILE_STAT`, as far as it is read. -/
structure FileStat where
  present : Bool
  isDirectory : Bool
  deriving DecidableEq, Repr

/-- `ASAS_FILESYSTEM_DRIVER` for the registered drivers, and the entry points of the
legacy code. -/
structure Drivers (W C : Type) where
  flags : DriverId → UInt32
  /-- the first driver whose probe accepts the device -/
  probe : W → Device → Option DriverId × W
  /-- the context, and the flags the driver adds -/
  mount : W → Device → DriverId → Option (C × UInt32) × W
  stat : W → DriverId → C → CString → Option FileStat × W
  read : W → DriverId → C → CString → Nat → List UInt8 × W
  /-- synchronise and destroy the context, or refuse -/
  release : W → DriverId → C → Bool × W
  flushBarrier : W → Device → Bool × W
  /-- `fat16_mount_device`, `fat32_mount_device`, `ntfs_mount_device` -/
  selectPrimary : W → FsType → UInt8 → UInt8 → W
  primaryExists : W → FsType → CString → Bool × W
  primaryRead : W → FsType → CString → Nat → List UInt8 × W

/-- `ASAS_FILESYSTEM_MOUNT`, active; its device is an index into the registry. -/
structure Mount (C : Type) where
  generation : Nat
  referenceCount : Nat
  device : Nat
  driver : DriverId
  flags : UInt32
  context : C

abbrev MountId := Fin FILESYSTEM_MAX_MOUNTS

/-- The static state of `filesystem.c`. -/
structure Filesystems (W C : Type) where
  world : W
  mounts : MountId → Option (Mount C)
  mountCount : Nat
  nextGeneration : Nat

namespace Filesystems

variable {W C : Type} (drivers : Drivers W C)

/-- `filesystem_initialize`, on a table without active mounts. -/
def filesystemInitialize (world : W) : Filesystems W C := ⟨world, fun _ => none, 0, 1⟩

def freeSlot (fs : Filesystems W C) : Option MountId :=
  (List.finRange FILESYSTEM_MAX_MOUNTS).find? fun slot => (fs.mounts slot).isNone

def setMount (fs : Filesystems W C) (slot : MountId) (mount : Option (Mount C)) : Filesystems W C :=
  { fs with mounts := Function.update fs.mounts slot mount }

/-- `next_generation++`, skipping zero. -/
def bumpGeneration (generation : Nat) : Nat :=
  let next := (generation + 1) % 2 ^ 32
  if next = 0 then 1 else next

/-- `filesystem_mount`. -/
def mount (fs : Filesystems W C) (id : Nat) (device : Device) (driver : DriverId)
    (flags : UInt32) : Option MountId × Filesystems W C :=
  if fs.mountCount ≥ FILESYSTEM_MAX_MOUNTS then (none, fs)
  else
    match fs.freeSlot with
    | none => (none, fs)
    | some slot =>
      let generation := fs.nextGeneration
      let fs := { fs with nextGeneration := bumpGeneration fs.nextGeneration }
      match drivers.mount fs.world device driver with
      | (none, world) => (none, { fs with world := world })
      | (some (context, more), world) =>
        let mount : Mount C :=
          { generation := generation
            referenceCount := 0
            device := id
            driver := driver
            flags := flags ||| drivers.flags driver ||| more
            context := context }
        (some slot, { fs.setMount slot (some mount) with
          world := world, mountCount := fs.mountCount + 1 })

/-- `filesystem_device_is_mounted`. -/
def deviceIsMounted (fs : Filesystems W C) (devices : List Device) (id : Nat) : Bool :=
  (List.finRange FILESYSTEM_MAX_MOUNTS).any fun slot =>
    match fs.mounts slot with
    | none => false
    | some mount => mount.device == id || (devices[mount.device]?).any (·.parent == some id)

/-- `filesystem_unmount`. -/
def unmount (fs : Filesystems W C) (slot : MountId) : Bool × Filesystems W C :=
  match fs.mounts slot with
  | none => (false, fs)
  | some mount =>
    if mount.referenceCount ≠ 0 then (false, fs)
    else
      match drivers.release fs.world mount.driver mount.context with
      | (false, world) => (false, { fs with world := world })
      | (true, world) =>
        (true, { fs.setMount slot none with world := world, mountCount := fs.mountCount - 1 })

/-- `filesystem_mount_acquire`. -/
def acquire (fs : Filesystems W C) (slot : MountId) : Bool × Filesystems W C :=
  match fs.mounts slot with
  | none => (false, fs)
  | some mount =>
    (true, fs.setMount slot (some { mount with referenceCount := mount.referenceCount + 1 }))

/-- `filesystem_mount_release`. -/
def release (fs : Filesystems W C) (slot : MountId) : Filesystems W C :=
  match fs.mounts slot with
  | none => fs
  | some mount =>
    if mount.referenceCount ≠ 0 then
      fs.setMount slot (some { mount with referenceCount := mount.referenceCount - 1 })
    else fs

/-- `filesystem_stat`. -/
def stat (fs : Filesystems W C) (slot : MountId) (path : CString) : Option FileStat × Filesystems W C :=
  match fs.mounts slot with
  | none => (none, fs)
  | some mount =>
    match drivers.stat fs.world mount.driver mount.context path with
    | (result, world) => (result, { fs with world := world })

/-- `filesystem_read`. -/
def read (fs : Filesystems W C) (slot : MountId) (path : CString) (size : Nat) :
    List UInt8 × Filesystems W C :=
  match fs.mounts slot with
  | none => ([], fs)
  | some mount =>
    match drivers.read fs.world mount.driver mount.context path size with
    | (bytes, world) => (bytes, { fs with world := world })

end Filesystems

end AsasOs.Vfs
