import AsasOs.Lib.CString
import AsasOs.Lib.Slots
import Mathlib.Algebra.Group.Nat.Defs

/-!
# Block devices and the block cache

`block_device.c`: the device registry, the sixteen-entry block cache with
read-ahead, and the read, write and flush paths that partitions share with the
disks under them. Pointers to devices are indices into the registry, which is
also what the `id` field of a registered device holds. The hardware driver of a
disk is an array of blocks together with a list of outcomes for its next calls;
telemetry counters are left out, since no function reads them back.
-/
namespace AsasOs.Block

open Slots CString

def BLOCK_DEVICE_MAX_COUNT : Nat := 32
def BLOCK_CACHE_ENTRY_COUNT : Nat := 16
def BLOCK_CACHE_MAX_BLOCK_SIZE : Nat := 4096
def BLOCK_RETRY_DEFAULT : Nat := 2

def BLOCK_DEVICE_FLAG_READ_ONLY : UInt32 := 0x01
def BLOCK_DEVICE_FLAG_REMOVABLE : UInt32 := 0x02
def BLOCK_DEVICE_FLAG_OPTICAL : UInt32 := 0x04
def BLOCK_DEVICE_FLAG_PARTITION : UInt32 := 0x08
def BLOCK_DEVICE_FLAG_HOT_PLUG : UInt32 := 0x10
def BLOCK_DEVICE_FLAG_NO_CACHE : UInt32 := 0x20

/-- Memory behind a `void *buffer`, addressed by byte offset. -/
abbrev Buffer := Nat → UInt8

/-- The `size` bytes at `offset`. -/
def Buffer.block (buffer : Buffer) (offset size : Nat) : List UInt8 :=
  (List.range size).map fun j => buffer (offset + j)

/-- Copy `data` to `offset`. -/
def Buffer.put (buffer : Buffer) (offset : Nat) (data : List UInt8) : Buffer :=
  fun k => if offset ≤ k ∧ k < offset + data.length then data.getD (k - offset) 0 else buffer k

/-- `ASAS_BLOCK_DEVICE_OPS`: a hardware driver or `partition_ops`. -/
inductive Ops where
  | driver
  | partition
  deriving DecidableEq, Repr

/-- `ASAS_BLOCK_DEVICE`. -/
structure Device where
  id : Nat
  name : CString
  logicalBlockSize : Nat
  physicalBlockSize : Nat
  blockCount : Nat
  flags : UInt32
  target : UInt8
  lun : UInt8
  startLba : Nat
  parent : Option Nat
  ops : Ops
  deriving DecidableEq, Repr

def Device.hasFlag (device : Device) (flag : UInt32) : Bool :=
  device.flags &&& flag != 0

/-- The label of a `BLOCK_CACHE_ENTRY`. -/
structure CacheKey where
  deviceId : Nat
  lba : Nat
  blockSize : Nat
  deriving DecidableEq, Repr

abbrev CacheEntry := Slot CacheKey (List UInt8)

/-- How the next call of a hardware driver ends: it succeeds, or it fails after
having transferred some blocks. -/
inductive DriverOutcome where
  | succeeds
  | failsAfter (transferred : Nat)
  deriving DecidableEq, Repr

/-- The static state of `block_device.c` and the media behind the drivers: `media
i lba` is block `lba` of the disk registered under index `i`. -/
structure BlockLayer where
  devices : List Device
  cacheEntries : Fin BLOCK_CACHE_ENTRY_COUNT → CacheEntry
  nextCacheSlot : Nat
  media : Nat → Nat → Buffer
  outcomes : List DriverOutcome

/-! ### Registration -/

/-- `copy_name` into a `char name[16]`. -/
def copyName (source : CString) : CString := copyString source 16

def isPowerOfTwo (value : Nat) : Bool := value &&& (value - 1) == 0

/-- `block_device_initialize`; the media keep what they hold. -/
def blockDeviceInitialize (media : Nat → Nat → Buffer) : BlockLayer where
  devices := []
  cacheEntries := fun _ => { valid := false, key := ⟨0, 0, 0⟩, data := [] }
  nextCacheSlot := 0
  media := media
  outcomes := []

def descriptionValid (description : Device) : Bool :=
  !(description.logicalBlockSize < 512) && !(description.logicalBlockSize > 4096) &&
  isPowerOfTwo description.logicalBlockSize &&
  (description.physicalBlockSize == 0 || (!(description.physicalBlockSize < description.logicalBlockSize) &&
      isPowerOfTwo description.physicalBlockSize))

/-- `block_device_register`: the new device and its index, or nothing. -/
def blockDeviceRegister (s : BlockLayer) (description : Device) : BlockLayer × Option Nat :=
  if descriptionValid description && s.devices.length < BLOCK_DEVICE_MAX_COUNT then
    let flags := if description.hasFlag BLOCK_DEVICE_FLAG_OPTICAL
      then description.flags ||| BLOCK_DEVICE_FLAG_READ_ONLY else description.flags
    let device := { description with
      flags := flags, id := s.devices.length, name := copyName description.name }
    ({ s with devices := s.devices ++ [device] }, some s.devices.length)
  else (s, none)

def blockDeviceRegisterPartition (s : BlockLayer) (parent : Nat) (startLba blockCount : Nat)
    (name : CString) (flags : UInt32) : BlockLayer × Option Nat :=
  match s.devices[parent]? with
  | none => (s, none)
  | some p =>
    if blockCount = 0 ∨ (p.blockCount ≠ 0 ∧
        (startLba ≥ p.blockCount ∨ blockCount > p.blockCount - startLba)) then (s, none)
    else blockDeviceRegister s
      { id := 0
        name := copyName name
        logicalBlockSize := p.logicalBlockSize
        physicalBlockSize := p.physicalBlockSize
        blockCount := blockCount
        flags := p.flags ||| flags ||| BLOCK_DEVICE_FLAG_PARTITION
        target := p.target
        lun := p.lun
        startLba := startLba
        parent := some parent
        ops := .partition }

/-- `block_device_find`: the index of the first device with the name. -/
def blockDeviceFind (devices : List Device) (name : CString) : Option Nat :=
  devices.findIdx? fun device => device.name = name

/-! ### Bounds and retries -/

def maxU64 : Nat := 2 ^ 64 - 1

def requestInBounds (device : Device) (lba count : Nat) : Bool :=
  if count = 0 then false
  else if count - 1 > maxU64 - lba then false
  else if device.blockCount = 0 then true
  else if lba ≥ device.blockCount then false
  else decide (count ≤ device.blockCount - lba)

def retryBudget (device : Device) : Nat :=
  if device.hasFlag BLOCK_DEVICE_FLAG_HOT_PLUG then 1
  else if device.hasFlag BLOCK_DEVICE_FLAG_REMOVABLE then 3
  else BLOCK_RETRY_DEFAULT

/-- The attempts of `raw_read_with_retry` that remain. -/
def readWithRetry (read : BlockLayer → BlockLayer × Option (List UInt8)) :
    Nat → BlockLayer → BlockLayer × Option (List UInt8)
  | 0, s => (s, none)
  | attempts + 1, s =>
    match read s with
    | (s', some data) => (s', some data)
    | (s', none) => readWithRetry read attempts s'

/-- The attempts of `raw_write_with_retry` that remain. -/
def writeWithRetry (write : BlockLayer → BlockLayer × Bool) : Nat → BlockLayer → BlockLayer × Bool
  | 0, s => (s, false)
  | attempts + 1, s =>
    match write s with
    | (s', true) => (s', true)
    | (s', false) => writeWithRetry write attempts s'

/-! ### The cache -/

def Device.cacheKey (device : Device) (lba : Nat) : CacheKey :=
  ⟨device.id, lba, device.logicalBlockSize⟩

def cacheFind (s : BlockLayer) (device : Device) (lba : Nat) : Option (Fin BLOCK_CACHE_ENTRY_COUNT) :=
  if device.hasFlag BLOCK_DEVICE_FLAG_NO_CACHE then none
  else find s.cacheEntries (device.cacheKey lba)

def BlockLayer.roundRobinSlot (s : BlockLayer) : Fin BLOCK_CACHE_ENTRY_COUNT :=
  ⟨s.nextCacheSlot % BLOCK_CACHE_ENTRY_COUNT, Nat.mod_lt _ (by decide)⟩

/-- `cache_allocate`: the slot is labelled and valid, with its old data. -/
def cacheAllocate (s : BlockLayer) (device : Device) (lba : Nat) :
    BlockLayer × Option (Fin BLOCK_CACHE_ENTRY_COUNT) :=
  if device.hasFlag BLOCK_DEVICE_FLAG_NO_CACHE ||
      decide (device.logicalBlockSize > BLOCK_CACHE_MAX_BLOCK_SIZE) then (s, none)
  else
    let slot := s.roundRobinSlot
    ({ s with
        nextCacheSlot := (s.nextCacheSlot + 1) % 2 ^ 32
        cacheEntries := Function.update s.cacheEntries slot
          { s.cacheEntries slot with valid := true, key := device.cacheKey lba } }, some slot)

/-- `entry->data[..] = data[..]`. -/
def BlockLayer.setData (s : BlockLayer) (slot : Fin BLOCK_CACHE_ENTRY_COUNT)
    (data : List UInt8) : BlockLayer :=
  { s with cacheEntries :=
      Function.update s.cacheEntries slot { s.cacheEntries slot with data := data } }

/-- `entry->valid = 0`. -/
def BlockLayer.invalidate (s : BlockLayer) (slot : Fin BLOCK_CACHE_ENTRY_COUNT) : BlockLayer :=
  { s with cacheEntries :=
      Function.update s.cacheEntries slot { s.cacheEntries slot with valid := false } }

def cacheStore (s : BlockLayer) (device : Device) (lba : Nat) (data : List UInt8) : BlockLayer :=
  match cacheFind s device lba with
  | some slot => s.setData slot data
  | none =>
    match cacheAllocate s device lba with
    | (s', some slot) => s'.setData slot data
    | (s', none) => s'

def cacheInvalidateDevice (s : BlockLayer) (device : Device) : BlockLayer :=
  { s with cacheEntries := evict s.cacheEntries fun key => key.deviceId == device.id }

/-! ### Hardware drivers -/

def BlockLayer.nextOutcome (s : BlockLayer) : BlockLayer × DriverOutcome :=
  match s.outcomes with
  | [] => (s, .succeeds)
  | outcome :: rest => ({ s with outcomes := rest }, outcome)

/-- `device->ops->read_blocks` of a disk, for one block. -/
def driverRead (device : Device) (lba : Nat) (s : BlockLayer) : BlockLayer × Option (List UInt8) :=
  match s.nextOutcome with
  | (s', .succeeds) => (s', some ((s'.media device.id lba).block 0 device.logicalBlockSize))
  | (s', .failsAfter _) => (s', none)

/-- Transfer `count` consecutive blocks of `buffer` to a medium. -/
def transfer (medium : Nat → Buffer) (lba count size : Nat) (buffer : Buffer) : Nat → Buffer :=
  fun k => if lba ≤ k ∧ k < lba + count then fun j => buffer ((k - lba) * size + j) else medium k

/-- The medium of a disk with `count` blocks of `size` bytes replaced. -/
def BlockLayer.store (s : BlockLayer) (disk size lba count : Nat) (buffer : Buffer) : BlockLayer :=
  { s with media := Function.update s.media disk (transfer (s.media disk) lba count size buffer) }

/-- `device->ops->write_blocks` of a disk. -/
def driverWrite (device : Device) (lba count : Nat) (buffer : Buffer) (s : BlockLayer) :
    BlockLayer × Bool :=
  match s.nextOutcome with
  | (s', .succeeds) => (s'.store device.id device.logicalBlockSize lba count buffer, true)
  | (s', .failsAfter transferred) =>
    (s'.store device.id device.logicalBlockSize lba (min transferred count) buffer, false)

/-! ### Read and write

Both recurse into the parent device; `depth` bounds the length of the parent
chain. A parent is registered before its partitions, so a device of index `i`
needs at most `i + 1`. -/

section ReadLoop

/-! `raw` stands for `raw_read_with_retry` of one block of the device. -/
variable (raw : Nat → BlockLayer → BlockLayer × Option (List UInt8)) (device : Device)

/-- A block of `block_device_read`, from the cache or from the device. -/
def fetchBlock (lba : Nat) (s : BlockLayer) : BlockLayer × Option (List UInt8) :=
  match cacheFind s device lba with
  | some slot => (s, some (s.cacheEntries slot).data)
  | none =>
    match raw lba s with
    | (s', none) => (s', none)
    | (s', some data) => (cacheStore s' device lba data, some data)

/-- The read-ahead of `block_device_read`, for the block after the request. -/
def readAhead (lba : Nat) (s : BlockLayer) : BlockLayer :=
  if cacheFind s device lba = none then
    match cacheAllocate s device lba with
    | (s', none) => s'
    | (s', some ahead) =>
      match raw lba s' with
      | (t, some data) => t.setData ahead data
      | (t, none) => t.invalidate ahead
  else s

/-- The loop of `block_device_read` over the blocks of one request. The offset
`index * logical_block_size` is computed in 32 bits. -/
def readLoop (lba count : Nat) : Nat → BlockLayer → Buffer → BlockLayer × Option Buffer
  | 0, s, bytes => (s, some bytes)
  | remaining + 1, s, bytes =>
    let index := count - (remaining + 1)
    let currentLba := lba + index
    match fetchBlock raw device currentLba s with
    | (s', none) => (s', none)
    | (s', some data) =>
      let bytes := bytes.put (index * device.logicalBlockSize % 2 ^ 32) data
      if index + 1 = count ∧ currentLba ≠ maxU64 ∧ requestInBounds device (currentLba + 1) 1 then
        readLoop lba count remaining (readAhead raw device (currentLba + 1) s') bytes
      else readLoop lba count remaining s' bytes

end ReadLoop

/-- `partition_read`, over the read of the parent device. -/
def partitionRead (read : Device → Nat → Nat → BlockLayer → Buffer → BlockLayer × Option Buffer)
    (device : Device) (lba : Nat) (s : BlockLayer) : BlockLayer × Option (List UInt8) :=
  match device.parent.bind (s.devices[·]?) with
  | none => (s, none)
  | some parent =>
    if lba > maxU64 - device.startLba then (s, none)
    else
      match read parent (device.startLba + lba) 1 s (fun _ => 0) with
      | (s', none) => (s', none)
      | (s', some bytes) => (s', some (bytes.block 0 device.logicalBlockSize))

/-- `raw_read_with_retry`, for one block. -/
def rawReadWithRetry (read : Device → Nat → Nat → BlockLayer → Buffer → BlockLayer × Option Buffer)
    (device : Device) (lba : Nat) (s : BlockLayer) : BlockLayer × Option (List UInt8) :=
  match device.ops with
  | .driver => readWithRetry (driverRead device lba) (retryBudget device + 1) s
  | .partition => readWithRetry (partitionRead read device lba) (retryBudget device + 1) s

/-- `block_device_read`. The read-ahead of a partition hands `ahead->data` to the
parent device; its bytes are in place once that call returns. -/
def blockDeviceRead : Nat → Device → Nat → Nat → BlockLayer → Buffer → BlockLayer × Option Buffer
  | 0, _, _, _, s, _ => (s, none)
  | depth + 1, device, lba, count, s, buffer =>
    if requestInBounds device lba count then
      readLoop (rawReadWithRetry (blockDeviceRead depth) device) device lba count count s buffer
    else (s, none)

/-- The loop of `block_device_write` that refreshes the cache. -/
def storeLoop (device : Device) (lba : Nat) (bytes : Buffer) (count : Nat) (s : BlockLayer) :
    BlockLayer :=
  (List.range count).foldl (fun s index => cacheStore s device (lba + index)
    (bytes.block (index * device.logicalBlockSize % 2 ^ 32) device.logicalBlockSize)) s

/-- `partition_write`, over the write of the parent device. -/
def partitionWrite (write : Device → Nat → Nat → Buffer → BlockLayer → BlockLayer × Bool)
    (device : Device) (lba count : Nat) (buffer : Buffer) (s : BlockLayer) : BlockLayer × Bool :=
  match device.parent.bind (s.devices[·]?) with
  | none => (s, false)
  | some parent =>
    if lba > maxU64 - device.startLba then (s, false)
    else write parent (device.startLba + lba) count buffer s

def rawWriteWithRetry (write : Device → Nat → Nat → Buffer → BlockLayer → BlockLayer × Bool)
    (device : Device) (lba count : Nat) (buffer : Buffer) (s : BlockLayer) : BlockLayer × Bool :=
  match device.ops with
  | .driver => writeWithRetry (driverWrite device lba count buffer) (retryBudget device + 1) s
  | .partition =>
    writeWithRetry (partitionWrite write device lba count buffer) (retryBudget device + 1) s

def blockDeviceWrite : Nat → Device → Nat → Nat → Buffer → BlockLayer → BlockLayer × Bool
  | 0, _, _, _, _, s => (s, false)
  | depth + 1, device, lba, count, buffer, s =>
    if requestInBounds device lba count && !device.hasFlag BLOCK_DEVICE_FLAG_READ_ONLY then
      match rawWriteWithRetry (blockDeviceWrite depth) device lba count buffer s with
      | (s', false) => (s', false)
      | (s', true) => (storeLoop device lba buffer count s', true)
    else (s, false)

/-- `block_device_flush_barrier`, up to the flush of the driver, which moves no
block of a medium that is an array. -/
def blockDeviceFlushBarrier (s : BlockLayer) (device : Device) : BlockLayer :=
  let s := cacheInvalidateDevice s device
  match device.parent.bind (s.devices[·]?) with
  | none => s
  | some parent => cacheInvalidateDevice s parent

end AsasOs.Block
