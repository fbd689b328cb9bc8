import AsasOs.Block.Coherence
import AsasOs.VirtualDisk.Store

/-!
# Virtual disks in the block layer

`virtual_disk.c` with `block_device.c` over it: disks are attached and detached, and read through
the cache. The registry keeps a device for every attach there has been, and each of these devices
still has its slot as its context.
-/
namespace AsasOs.VirtualDisk

open Block Bytes CString Prog

/-- The registry, the cache and the slots, with the slot that a device has as its `driver_context`. -/
structure Disks extends Attachments where
  contexts : Nat → Option (Fin VDISK_MAX_COUNT)
  files : Files

/-! ### Detaching -/

def slotNamed (vdisks : Vdisks) (name : CString) : Option (Fin VDISK_MAX_COUNT) :=
  (List.finRange VDISK_MAX_COUNT).find? fun i => (vdisks i).active && (vdisks i).name == name

/-- `virtual_disk_detach`, where `mounted` is `filesystem_device_is_mounted`. -/
def virtualDiskDetach (s : Attachments) (mounted : Nat → Bool) (name : CString) : Attachments × Bool :=
  if name = [] then (s, false)
  else
    match slotNamed s.vdisks name with
    | none => (s, false)
    | some index =>
      let vdisks := Function.update s.vdisks index { s.vdisks index with active := false }
      match (s.vdisks index).device with
      | none => ({ s with vdisks := vdisks }, true)
      | some id =>
        if mounted id then (s, false)
        else
          ({ layer := { s.layer with devices := s.layer.devices.modify id fun device =>
               { device with flags := device.flags ||| BLOCK_DEVICE_FLAG_READ_ONLY } }
             vdisks := vdisks }, true)

namespace Disks

/-! ### Reading

`block_device_read` of a virtual disk. -/

/-- `raw_read_with_retry` for one block. -/
def rawRead (device : Device) (slot : Fin VDISK_MAX_COUNT) (lba : Nat) (s : Disks) :
    Disks × Option (List UInt8) :=
  match run Files.handle (withRetry (rawReadBlocks (s.vdisks slot) lba 1) (retryBudget device + 1)).run s.files with
  | (data, files) => ({ s with files := files }, data)

/-- A block, from the cache or from the image. -/
def fetchBlock (device : Device) (slot : Fin VDISK_MAX_COUNT) (lba : Nat) (s : Disks) :
    Disks × Option (List UInt8) :=
  match cacheFind s.layer device lba with
  | some entry => (s, some (s.layer.cacheEntries entry).data)
  | none =>
    match rawRead device slot lba s with
    | (s, none) => (s, none)
    | (s, some data) => ({ s with layer := cacheStore s.layer device lba data }, some data)

/-- The read-ahead, into an entry of the cache that is labelled and valid already. -/
def readAhead (device : Device) (slot : Fin VDISK_MAX_COUNT) (lba : Nat) (s : Disks) : Disks :=
  if cacheFind s.layer device lba = none then
    match cacheAllocate s.layer device lba with
    | (layer, none) => { s with layer := layer }
    | (layer, some ahead) =>
      match rawRead device slot lba { s with layer := layer } with
      | (s, some data) => { s with layer := s.layer.setData ahead data }
      | (s, none) => { s with layer := s.layer.invalidate ahead }
  else s

/-- The loop over the blocks of a request that remain. The offset in the buffer has 32 bits. -/
def readLoop (device : Device) (slot : Fin VDISK_MAX_COUNT) (lba count : Nat) :
    Nat → Disks → Buffer → Disks × Option Buffer
  | 0, s, bytes => (s, some bytes)
  | remaining + 1, s, bytes =>
    let index := count - (remaining + 1)
    let currentLba := lba + index
    match fetchBlock device slot currentLba s with
    | (s, none) => (s, none)
    | (s, some data) =>
      let bytes := bytes.put (index * device.logicalBlockSize % 2 ^ 32) data
      if index + 1 = count ∧ currentLba ≠ maxU64 ∧ requestInBounds device (currentLba + 1) 1 then
        readLoop device slot lba count remaining (readAhead device slot (currentLba + 1) s) bytes
      else readLoop device slot lba count remaining s bytes

/-- `block_device_read` of a device of the registry that is a virtual disk. -/
def read (s : Disks) (id lba count : Nat) (buffer : Buffer) : Disks × Option Buffer :=
  match s.layer.devices[id]?, s.contexts id with
  | some device, some slot =>
    if requestInBounds device lba count then readLoop device slot lba count count s buffer else (s, none)
  | _, _ => (s, none)

/-! ### Runs -/

/-- One of the ways to attach an image. -/
def attach (s : Disks) (kind : AttachKind) (path : CString) (flags : UInt32) :
    Disks × Option (Nat × Fin VDISK_MAX_COUNT) :=
  match run Files.handle (virtualDiskAttach kind s.toAttachments path flags) s.files with
  | ((attachments, none), files) => ({ s with toAttachments := attachments, files := files }, none)
  | ((attachments, some (id, index)), files) =>
    ({ toAttachments := attachments, contexts := Function.update s.contexts id (some index), files := files },
      some (id, index))

/-- The files that are not attached change, with outcomes of the calls to come. -/
def changeFiles (s : Disks) (changed : CString → Option File) (outcomes : List FileOutcome) : Disks :=
  { s with files :=
      { contents := fun path =>
          if (List.finRange VDISK_MAX_COUNT).any fun i => (s.vdisks i).active && (s.vdisks i).path == path then
            s.files.contents path
          else changed path
        outcomes := outcomes } }

/-- The operations: disks are attached, detached and read, drivers register other devices, and
files change. -/
inductive Op where
  | attach (kind : AttachKind) (path : CString) (flags : UInt32)
  | detach (mounted : Nat → Bool) (name : CString)
  | read (id lba count : Nat) (buffer : Buffer)
  | register (description : Device)
  | changeFiles (changed : CString → Option File) (outcomes : List FileOutcome)

def step (s : Disks) : Op → Disks
  | .attach kind path flags => (s.attach kind path flags).1
  | .detach mounted name => { s with toAttachments := (virtualDiskDetach s.toAttachments mounted name).1 }
  | .read id lba count buffer => (s.read id lba count buffer).1
  | .register description => { s with layer := (blockDeviceRegister s.layer description).1 }
  | .changeFiles changed outcomes => s.changeFiles changed outcomes

def after (s : Disks) (ops : List Op) : Disks := ops.foldl step s

/-- `block_device_initialize` and `virtual_disk_initialize`. -/
def initial (media : Nat → Nat → Buffer) (files : Files) : Disks where
  layer := blockDeviceInitialize media
  vdisks := fun _ => ⟨false, false, [], [], [], 0, 0, none⟩
  contexts := fun _ => none
  files := files

end Disks

end AsasOs.VirtualDisk
