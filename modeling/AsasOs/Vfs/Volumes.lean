import AsasOs.Vfs.Filesystem

/-!
# Volumes, paths and handles

`vfs.c` after `vfs_initialize`: the table of volumes and their mount points, the
routing of a path to a mount, the table of open handles, and the operations that
mount and unmount volumes. The locks serialise the operations, and the fallback to
the files of the boot loader is off.
-/
namespace AsasOs.Vfs

open Block CString

def VFS_MAX_VOLUMES : Nat := 8
def VFS_DISK_HANDLE_COUNT : Nat := 8
def VFS_PATH_CAPACITY : Nat := 64

abbrev VolumeId := Fin VFS_MAX_VOLUMES
abbrev HandleId := Fin VFS_DISK_HANDLE_COUNT

/-- `VFS_VOLUME_INFO`, as far as it is read here. -/
structure VolumeInfo where
  valid : Bool
  isCdrom : Bool
  isRemovable : Bool
  readOnly : Bool
  noExec : Bool
  target : UInt8
  lun : UInt8
  driver : DriverId
  mountPoint : CString
  deviceName : CString

/-- `VFS_DISK_HANDLE`. -/
structure DiskHandle where
  path : CString
  mount : Option MountId
  mountGeneration : Nat
  used : Bool

/-- `ASAS_PARTITION_INFO`, as far as it is read here. -/
structure PartitionInfo where
  device : Nat
  uuid : CString
  label : CString

/-- The static state of `vfs.c`, with the registries it uses. -/
structure VfsState (W C : Type) where
  devices : List Device
  partitions : List PartitionInfo
  fs : Filesystems W C
  volumes : VolumeId → VolumeInfo
  mounts : VolumeId → Option MountId
  volumeCount : Nat
  handles : HandleId → DiskHandle
  activeFs : FsType

/-! ### Paths -/

/-- `path_has_prefix`: the prefix, up to a component boundary. -/
def pathHasPrefix (path before : CString) : Bool :=
  before.isPrefixOf path && (path.length == before.length || path[before.length]? == some '/')

/-- What is left of a path after `length` characters. -/
def relativePath (path : CString) (length : Nat) : CString :=
  if path.length = length then ['/'] else path.drop length

def systemPath : CString := ['/', 's', 'y', 's', 't', 'e', 'm']
def dataPath : CString := ['/', 'd', 'a', 't', 'a']
def mediaPath : CString := ['/', 'm', 'e', 'd', 'i', 'a']
def welcomePath : CString :=
  ['/', 'w', 'e', 'l', 'c', 'o', 'm', 'e', '.', 't', 'x', 't']

/-- The volume number in a path that starts with `/disk0` to `/disk7`. -/
def diskAlias (path : CString) : Option Nat :=
  match path with
  | '/' :: 'd' :: 'i' :: 's' :: 'k' :: digit :: rest =>
    if '0' ≤ digit ∧ digit ≤ '7' ∧ (rest = [] ∨ rest.head? = some '/') then
      some (digit.toNat - '0'.toNat)
    else none
  | _ => none

section Routing

variable {W C : Type}

/-- The loop of `vfs_select_volume_for_path` over the volumes that are left. -/
def bestVolume (s : VfsState W C) (path : CString) : List VolumeId → Option VolumeId → Nat →
    Option VolumeId
  | [], best, _ => best
  | i :: rest, best, bestLength =>
    let volume := s.volumes i
    if i.val < s.volumeCount ∧ volume.valid ∧ bestLength < volume.mountPoint.length ∧
        pathHasPrefix path volume.mountPoint then
      bestVolume s path rest (some i) volume.mountPoint.length
    else bestVolume s path rest best bestLength

/-- `vfs_select_volume_for_path`. -/
def selectVolumeForPath (s : VfsState W C) (path : CString) : Option (VolumeId × CString) :=
  match bestVolume s path (List.finRange VFS_MAX_VOLUMES) none 0 with
  | some best => some (best, relativePath path (s.volumes best).mountPoint.length)
  | none =>
    match diskAlias path with
    | none => none
    | some i =>
      if bound : i < VFS_MAX_VOLUMES then
        if i < s.volumeCount ∧ (s.volumes ⟨i, bound⟩).valid then
          some (⟨i, bound⟩, relativePath path 6)
        else none
      else none

def firstVolume : VolumeId := ⟨0, by decide⟩

/-- `vfs_mount_for_path`: the volume, if there is one, and the path on it. -/
def volumeForPath (s : VfsState W C) (path : CString) : Option VolumeId × CString :=
  match selectVolumeForPath s path with
  | some (i, relative) => (some i, relative)
  | none =>
    if pathHasPrefix path systemPath ∧ 0 < s.volumeCount then
      (some firstVolume, relativePath path 7)
    else (if 0 < s.volumeCount then some firstVolume else none, path)

def mountForPath (s : VfsState W C) (path : CString) : Option MountId × CString :=
  match volumeForPath s path with
  | (some i, relative) => (s.mounts i, relative)
  | (none, relative) => (none, relative)

/-- The target and lun of `vfs_select_primary`. -/
def primaryAddress (s : VfsState W C) : UInt8 × UInt8 :=
  if 0 < s.volumeCount then ((s.volumes firstVolume).target, (s.volumes firstVolume).lun)
  else (0, 0)

variable (drivers : Drivers W C)

def VfsState.setWorld (s : VfsState W C) (world : W) : VfsState W C :=
  { s with fs := { s.fs with world := world } }

/-- `vfs_select_primary`. -/
def selectPrimary (s : VfsState W C) : VfsState W C :=
  if 0 < s.volumeCount ∧ (s.mounts firstVolume).isSome then s
  else s.setWorld (drivers.selectPrimary s.fs.world s.activeFs (primaryAddress s).1
    (primaryAddress s).2)

end Routing

/-! ### Handles -/

section Handles

variable {W C : Type} (drivers : Drivers W C)

def freeHandle (s : VfsState W C) : Option HandleId :=
  (List.finRange VFS_DISK_HANDLE_COUNT).find? fun k => !(s.handles k).used

def VfsState.setHandle (s : VfsState W C) (k : HandleId) (handle : DiskHandle) : VfsState W C :=
  { s with handles := Function.update s.handles k handle }

/-- The mount that `vfs_open` acquires for a path, none for the legacy volume; or
nothing when there is no such file. -/
def openMount (s : VfsState W C) (path : CString) : Option (Option MountId) × VfsState W C :=
  match mountForPath s path with
  | (some mount, relative) =>
    match s.fs.stat drivers mount relative with
    | (none, fs) => (none, { s with fs := fs })
    | (some stat, fs) =>
      let s := { s with fs := fs }
      if !stat.present || stat.isDirectory then (none, s)
      else
        match s.fs.acquire mount with
        | (false, fs) => (none, { s with fs := fs })
        | (true, fs) => (some (some mount), { s with fs := fs })
  | (none, _) =>
    let s := selectPrimary drivers s
    match drivers.primaryExists s.fs.world s.activeFs path with
    | (false, world) => (none, s.setWorld world)
    | (true, world) => (some none, s.setWorld world)

/-- What `vfs_open` stores in a free handle. -/
def openedHandle (s : VfsState W C) (path : CString) (mount : Option MountId) : DiskHandle where
  path := copyString path VFS_PATH_CAPACITY
  mount := mount
  mountGeneration := ((mount.bind s.fs.mounts).map (·.generation)).getD 0
  used := true

/-- `vfs_open`: 0, 1 for the welcome text, or the number of a disk handle plus 2. -/
def vfsOpen (s : VfsState W C) (path : CString) : Nat × VfsState W C :=
  if path = welcomePath then (1, s)
  else
    match openMount drivers s path with
    | (none, s) => (0, s)
    | (some mount, s) =>
      match freeHandle s with
      | some k => (k.val + 2, s.setHandle k (openedHandle s path mount))
      | none =>
        match mount with
        | some slot => (0, { s with fs := s.fs.release slot })
        | none => (0, s)

/-- The mount that a handle was opened on is gone, or its path leads elsewhere now. -/
def mountLost (s : VfsState W C) (handle : DiskHandle) (mount : Option MountId) : Bool :=
  match handle.mount with
  | none => false
  | some opened =>
    (s.fs.mounts opened).all (fun m => m.generation != handle.mountGeneration) || mount != some opened

/-- `vfs_read` of a disk handle. -/
def vfsReadDisk (s : VfsState W C) (handle : DiskHandle) (size : Nat) : List UInt8 × VfsState W C :=
  let path := copyString handle.path VFS_PATH_CAPACITY
  match mountForPath s path with
  | (mount, relative) =>
    if mountLost s handle mount then ([], s)
    else
      match mount with
      | some mount =>
        match s.fs.read drivers mount relative size with
        | (bytes, fs) => (bytes, { s with fs := fs })
      | none =>
        let s := selectPrimary drivers s
        match drivers.primaryRead s.fs.world s.activeFs path size with
        | (bytes, world) => (bytes, s.setWorld world)

/-- The disk handle behind a number that `vfs_open` returns. -/
def diskHandle (s : VfsState W C) (handle : Nat) : Option HandleId :=
  if bound : 2 ≤ handle ∧ handle - 2 < VFS_DISK_HANDLE_COUNT then
    if (s.handles ⟨handle - 2, bound.2⟩).used then some ⟨handle - 2, bound.2⟩ else none
  else none

/-- "Asas OS virtual filesystem". -/
def welcomeText : List UInt8 :=
  [65, 115, 97, 115, 32, 79, 83, 32, 118, 105, 114, 116, 117, 97, 108, 32, 102, 105, 108, 101,
    115, 121, 115, 116, 101, 109]

def vfsRead (s : VfsState W C) (handle size : Nat) : List UInt8 × VfsState W C :=
  match diskHandle s handle with
  | some k => vfsReadDisk drivers s (s.handles k) size
  | none => if handle = 1 then (welcomeText.take size, s) else ([], s)

def closedHandle (handle : DiskHandle) : DiskHandle :=
  { handle with used := false, mount := none }

/-- `vfs_close` of a disk handle that is in use. -/
def closeHandle (s : VfsState W C) (k : HandleId) : VfsState W C :=
  match (s.handles k).mount with
  | some mount =>
    { s.setHandle k (closedHandle (s.handles k)) with fs := s.fs.release mount }
  | none => s.setHandle k (closedHandle (s.handles k))

def vfsClose (s : VfsState W C) (handle : Nat) : Bool × VfsState W C :=
  if handle = 1 then (true, s)
  else
    match diskHandle s handle with
    | some k => (true, closeHandle s k)
    | none => (false, s)

end Handles

/-! ### Mounting and unmounting -/

section Mounting

variable {W C : Type} (drivers : Drivers W C)

def mountPointInUse (s : VfsState W C) (path : CString) : Bool :=
  (List.finRange VFS_MAX_VOLUMES).any fun i =>
    decide (i.val < s.volumeCount) && (s.volumes i).valid && (s.volumes i).mountPoint == path

/-- `append_decimal`, into a buffer of 32 characters. -/
def appendDecimal (path : CString) (number : Nat) : CString :=
  copyString (path ++ Nat.toDigits 10 number) 32

/-- The search for a number that makes a mount point free. With at most eight volumes,
nine attempts are enough. -/
def numberedMountPoint (s : VfsState W C) (path : CString) : Nat → Nat → CString
  | 0, number => appendDecimal path number
  | attempts + 1, number =>
    if mountPointInUse s (appendDecimal path number) then
      numberedMountPoint s path attempts (number + 1)
    else appendDecimal path number

def chooseAutoMountPoint (s : VfsState W C) (device : Device) : CString :=
  if device.hasFlag BLOCK_DEVICE_FLAG_OPTICAL then
    numberedMountPoint s (mediaPath ++ ['/', 'c', 'd', 'r', 'o', 'm']) VFS_MAX_VOLUMES 0
  else if device.hasFlag BLOCK_DEVICE_FLAG_REMOVABLE then
    numberedMountPoint s (mediaPath ++ ['/', 'u', 's', 'b']) VFS_MAX_VOLUMES 0
  else if !mountPointInUse s dataPath then dataPath
  else numberedMountPoint s (mediaPath ++ ['/', 'd', 'i', 's', 'k']) VFS_MAX_VOLUMES 1

/-- The first entry of the volume table that is not in use. -/
def freeVolume (s : VfsState W C) : Option VolumeId :=
  (List.finRange VFS_MAX_VOLUMES).find? fun i =>
    decide (i.val ≥ s.volumeCount) || !(s.volumes i).valid

/-- The entry `i` with `volume->valid = 1` and nothing else stored yet. An entry that is
used again still has its old mount point then. -/
def VfsState.validate (s : VfsState W C) (i : VolumeId) : VfsState W C :=
  { s with volumes := Function.update s.volumes i { s.volumes i with valid := true } }

def readOnlyMount (fs : Filesystems W C) (mount : MountId) (flag : UInt32) : Bool :=
  (fs.mounts mount).any fun m => m.flags &&& flag != 0

def VfsState.addVolume (s : VfsState W C) (i : VolumeId) (mount : MountId) (volume : VolumeInfo) :
    VfsState W C :=
  { s with
    volumes := Function.update s.volumes i volume
    mounts := Function.update s.mounts i (some mount)
    volumeCount := if i.val = s.volumeCount then s.volumeCount + 1 else s.volumeCount }

def volumeInfo (s : VfsState W C) (device : Device) (driver : DriverId) (mount : MountId)
    (mountPoint : CString) (readOnly : Bool) : VolumeInfo where
  valid := true
  isCdrom := device.hasFlag BLOCK_DEVICE_FLAG_OPTICAL
  isRemovable := device.hasFlag BLOCK_DEVICE_FLAG_REMOVABLE
  readOnly := readOnly
  noExec := readOnlyMount s.fs mount FILESYSTEM_FLAG_NO_EXEC
  target := device.target
  lun := device.lun
  driver := driver
  mountPoint := copyString mountPoint 32
  deviceName := copyString device.name 16

/-- `filesystem_probe`. -/
def VfsState.probe (s : VfsState W C) (device : Device) : Option DriverId × VfsState W C :=
  match drivers.probe s.fs.world device with
  | (driver, world) => (driver, s.setWorld world)

/-- `filesystem_mount`. -/
def VfsState.mountFilesystem (s : VfsState W C) (id : Nat) (device : Device) (driver : DriverId)
    (flags : UInt32) : Option MountId × VfsState W C :=
  match s.fs.mount drivers id device driver flags with
  | (mount, fs) => (mount, { s with fs := fs })

/-- `filesystem_unmount`. -/
def VfsState.unmountFilesystem (s : VfsState W C) (mount : MountId) : Bool × VfsState W C :=
  match s.fs.unmount drivers mount with
  | (ok, fs) => (ok, { s with fs := fs })

/-- The loop of `vfs_mount_all_volumes` over the devices that are left. -/
def mountVolumes : List Nat → VfsState W C → VfsState W C
  | [], s => s
  | id :: rest, s =>
    match s.devices[id]? with
    | none => mountVolumes rest s
    | some device =>
      if s.fs.deviceIsMounted s.devices id then mountVolumes rest s
      else if device.parent = none ∧ s.devices.any (·.parent == some id) then mountVolumes rest s
      else
        match s.probe drivers device with
        | (none, s) => mountVolumes rest s
        | (some driver, s) =>
          match s.mountFilesystem drivers id device driver 0 with
          | (none, s) => mountVolumes rest s
          | (some mount, s) =>
            match freeVolume s with
            | none => (s.unmountFilesystem drivers mount).2
            | some i =>
              let readOnly := readOnlyMount s.fs mount FILESYSTEM_FLAG_READ_ONLY ||
                device.hasFlag BLOCK_DEVICE_FLAG_READ_ONLY
              let mountPoint :=
                if i.val = 0 then systemPath else chooseAutoMountPoint (s.validate i) device
              mountVolumes rest
                (s.addVolume i mount (volumeInfo s device driver mount mountPoint readOnly))

def vfsMountAllVolumes (s : VfsState W C) : VfsState W C :=
  selectPrimary drivers (mountVolumes drivers (List.range s.devices.length) s)

/-- `vfs_rescan_devices`: the devices and partitions that are found, then the mounts. -/
def vfsRescanDevices (s : VfsState W C) (devices : List Device) (partitions : List PartitionInfo)
    (world : W) : VfsState W C :=
  vfsMountAllVolumes drivers
    { s.setWorld world with
      devices := s.devices ++ devices, partitions := s.partitions ++ partitions }

/-- `block_device_find`. -/
def deviceFind (s : VfsState W C) (name : CString) : Option Nat :=
  s.devices.findIdx? fun device => device.name = name

/-- The device that `vfs_mount_device` finds for a name, a UUID or a label. -/
def deviceByName (s : VfsState W C) (name : CString) : Option Nat :=
  match deviceFind s name with
  | some id => some id
  | none =>
    (List.range s.devices.length).find? fun id =>
      (s.partitions.find? (·.device == id)).any fun partition =>
        partition.uuid == name || partition.label == name

def mountPointRefused (s : VfsState W C) (mountPoint : CString) (flags : UInt32) : Bool :=
  mountPoint.head? != some '/' || mountPoint == ['/'] || mountPoint == mediaPath ||
  flags &&& ~~~(FILESYSTEM_FLAG_READ_ONLY ||| FILESYSTEM_FLAG_NO_EXEC) != 0 ||
  (List.finRange VFS_MAX_VOLUMES).any fun i =>
    decide (i.val < s.volumeCount) && (s.volumes i).valid &&
      (pathHasPrefix mountPoint (s.volumes i).mountPoint || pathHasPrefix (s.volumes i).mountPoint mountPoint)

def vfsMountDevice (s : VfsState W C) (name mountPoint : CString) (flags : UInt32) :
    Bool × VfsState W C :=
  if mountPointRefused s mountPoint flags then (false, s)
  else
    match deviceByName s name with
    | none => (false, s)
    | some id =>
      match s.devices[id]? with
      | none => (false, s)
      | some device =>
        if s.fs.deviceIsMounted s.devices id then (false, s)
        else
          match s.probe drivers device with
          | (none, s) => (false, s)
          | (some driver, s) =>
            match s.mountFilesystem drivers id device driver flags with
            | (none, s) => (false, s)
            | (some mount, s) =>
              match freeVolume s with
              | none => (false, (s.unmountFilesystem drivers mount).2)
              | some i =>
                let readOnly := readOnlyMount s.fs mount FILESYSTEM_FLAG_READ_ONLY
                (true, s.addVolume i mount (volumeInfo s device driver mount mountPoint readOnly))

def volumeAt (s : VfsState W C) (mountPoint : CString) : Option VolumeId :=
  (List.finRange VFS_MAX_VOLUMES).find? fun i =>
    decide (i.val < s.volumeCount) && (s.volumes i).valid && (s.volumes i).mountPoint == mountPoint

/-- Take a volume whose mount is gone out of the volume table. -/
def VfsState.dropVolume (s : VfsState W C) (i : VolumeId) : VfsState W C :=
  { s with
    volumes := Function.update s.volumes i { s.volumes i with valid := false }
    mounts := Function.update s.mounts i none }

def unmountVolume (s : VfsState W C) (i : VolumeId) : Bool × VfsState W C :=
  match s.mounts i with
  | none => (false, s)
  | some mount =>
    match s.unmountFilesystem drivers mount with
    | (false, s) => (false, s)
    | (true, s) => (true, s.dropVolume i)

def vfsUnmount (s : VfsState W C) (mountPoint : CString) : Bool × VfsState W C :=
  if mountPoint = ['/'] ∨ mountPoint = systemPath then (false, s)
  else
    match volumeAt s mountPoint with
    | none => (false, s)
    | some i => unmountVolume drivers s i

def vfsRemount (s : VfsState W C) (mountPoint : CString) (flags : UInt32) : Bool × VfsState W C :=
  if mountPoint = ['/'] ∨ mountPoint = systemPath ∨
      flags &&& ~~~(FILESYSTEM_FLAG_READ_ONLY ||| FILESYSTEM_FLAG_NO_EXEC) ≠ 0 then (false, s)
  else
    match volumeAt s mountPoint with
    | none => (false, s)
    | some i =>
      let snapshot := s.volumes i
      match vfsUnmount drivers s mountPoint with
      | (false, s) => (false, s)
      | (true, s) =>
        match vfsMountDevice drivers s snapshot.deviceName snapshot.mountPoint flags with
        | (true, s) => (true, s)
        | (false, s) =>
          (false, (vfsMountDevice drivers s snapshot.deviceName snapshot.mountPoint
            (if snapshot.readOnly then FILESYSTEM_FLAG_READ_ONLY else 0)).2)

/-- The volume `i` in `vfs_handle_device_removed`, when it is on the removed device. -/
def removeVolume (s : VfsState W C) (i : VolumeId) (slot : MountId) (mount : Mount C) : VfsState W C :=
  let mount := { mount with
    flags := mount.flags ||| FILESYSTEM_FLAG_READ_ONLY ||| FILESYSTEM_FLAG_NO_EXEC }
  let s := { s with
    fs := s.fs.setMount slot (some mount)
    volumes := Function.update s.volumes i
      { s.volumes i with readOnly := true, noExec := true } }
  let s := match s.devices[mount.device]? with
    | none => s
    | some device => s.setWorld (drivers.flushBarrier s.fs.world device).2
  if mount.referenceCount = 0 then (unmountVolume drivers s i).2 else s

/-- The loop of `vfs_handle_device_removed`. -/
def removeDevice (id : Nat) : List VolumeId → VfsState W C → VfsState W C
  | [], s => s
  | i :: rest, s =>
    if i.val < s.volumeCount ∧ (s.volumes i).valid then
      match s.mounts i with
      | none => removeDevice id rest s
      | some slot =>
        match s.fs.mounts slot with
        | none => removeDevice id rest s
        | some mount =>
          if mount.device = id ∨ (s.devices[mount.device]?).any (·.parent == some id) then
            removeDevice id rest (removeVolume drivers s i slot mount)
          else removeDevice id rest s
    else removeDevice id rest s

def vfsHandleDeviceRemoved (s : VfsState W C) (name : CString) : VfsState W C :=
  match deviceFind s name with
  | none => s
  | some id =>
    let s := removeDevice drivers id (List.finRange VFS_MAX_VOLUMES) s
    { s with devices := s.devices.modify id fun device =>
        { device with flags :=
            device.flags ||| BLOCK_DEVICE_FLAG_READ_ONLY ||| BLOCK_DEVICE_FLAG_NO_CACHE } }

/-- The state in which `vfs_initialize` looks for volumes. -/
def VfsState.reset (devices : List Device) (partitions : List PartitionInfo) (world : W) :
    VfsState W C where
  devices := devices
  partitions := partitions
  fs := Filesystems.filesystemInitialize world
  volumes := fun _ =>
    { valid := false, isCdrom := false, isRemovable := false, readOnly := false, noExec := false
      target := 0, lun := 0, driver := .fat32, mountPoint := [], deviceName := [] }
  mounts := fun _ => none
  volumeCount := 0
  handles := fun _ => { path := [], mount := none, mountGeneration := 0, used := false }
  activeFs := .fat16

/-- `vfs_initialize`, with the devices and partitions that are found. -/
def vfsInitialize (devices : List Device) (partitions : List PartitionInfo) (world : W) : VfsState W C :=
  let s := vfsMountAllVolumes drivers (VfsState.reset devices partitions world)
  if 0 < s.volumeCount ∧ (s.mounts firstVolume).isSome then
    { s with activeFs := if (s.volumes firstVolume).driver = .ntfs then .ntfs else .fat32 }
  else
    { s.setWorld (drivers.selectPrimary s.fs.world .fat16 0 0) with activeFs := .fat16 }

end Mounting

end AsasOs.Vfs
