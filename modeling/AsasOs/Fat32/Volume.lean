import AsasOs.Block.Device
import AsasOs.Fat32.Names
import AsasOs.Lib.Prog

/-!
# FAT32: clusters and the allocation table

The lower half of `fat32.c`. The code on a mounted volume is a program over the calls it
makes: sectors of its block device, the counters of the context that it changes, the clock
and the heap. What the boot sector says is a parameter of the code.

## Model

- 32-bit numbers are numbers; where the source's arithmetic can wrap, it is reduced.
- A sector is the list of its bytes. Buffers of 4096 bytes hold a sector and are no longer.
- The context is that of a mounted block device: `device` is not null and `initialized` is
  set. The text of the last error, which nothing reads back, and `kfree` are left out.
- Code that returns 0 fails. A failure undoes nothing.
-/
namespace AsasOs.Fat32

open Block Bytes

def FAT32_EOC : Nat := 0x0FFFFFF8
def FAT32_EOC_MARK : Nat := 0x0FFFFFFF
def FAT32_BAD_CLUSTER : Nat := 0x0FFFFFF7
def FAT32_RESERVED_START : Nat := 0x0FFFFFF0
def FAT32_FSINFO_UNKNOWN : Nat := 0xFFFFFFFF
def FAT32_FSINFO_LEAD_SIG : Nat := 0x41615252
def FAT32_FSINFO_STR_SIG : Nat := 0x61417272
def FAT32_FSINFO_TRAIL_SIG : Nat := 0xAA550000

/-! ### The interface -/

/-- The fields of a `FAT32_CONTEXT` that change after the mount. -/
structure Info where
  freeClusterCount : Nat
  nextFreeCluster : Nat
  fsinfoValid : Bool
  fsinfoDirty : Bool
  deriving DecidableEq, Repr

namespace Info

/-- The counters when a cluster has been taken. -/
def take (info : Info) (maxCluster cluster : Nat) : Info :=
  { info with
    freeClusterCount :=
      if info.freeClusterCount ≠ FAT32_FSINFO_UNKNOWN ∧ info.freeClusterCount > 0
      then info.freeClusterCount - 1 else info.freeClusterCount
    nextFreeCluster := if cluster + 1 ≥ maxCluster then 2 else cluster + 1
    fsinfoDirty := info.fsinfoValid }

/-- The counters when no free cluster has been found. -/
def exhaust (info : Info) : Info :=
  if info.freeClusterCount ≠ FAT32_FSINFO_UNKNOWN then
    { info with freeClusterCount := 0, fsinfoDirty := info.fsinfoValid }
  else info

def release (info : Info) (maxCluster first released : Nat) : Info :=
  let capacity := maxCluster - 2
  { info with
    freeClusterCount :=
      if info.freeClusterCount ≠ FAT32_FSINFO_UNKNOWN then
        if released > (capacity + 2 ^ 32 - info.freeClusterCount) % 2 ^ 32 then capacity
        else info.freeClusterCount + released
      else info.freeClusterCount
    nextFreeCluster := if first < info.nextFreeCluster then first else info.nextFreeCluster
    fsinfoDirty := info.fsinfoValid }

end Info

/-- The calls that the code on a volume makes. -/
inductive Fat32Op where
  /-- `f32_read_sector` -/
  | read (lba : Nat)
  /-- `f32_read_sector` in `fat32_next_cluster` -/
  | readLink (lba : Nat)
  /-- `f32_write_sector` -/
  | write (lba : Nat) (sector : List UInt8)
  /-- `block_device_read` of several sectors -/
  | readRun (lba count : Nat)
  /-- `block_device_write` of several sectors -/
  | writeRun (lba : Nat) (sectors : List (List UInt8))
  | flush
  | kmalloc (size : Nat)
  /-- `cmos_read` -/
  | cmos (register : UInt8)
  /-- the counters of the context -/
  | info
  /-- an assignment to the counters -/
  | setInfo (info : Info)

abbrev Fat32Op.Response : Fat32Op → Type
  | .read _ => Option (List UInt8)
  | .readLink _ => Option (List UInt8)
  | .write _ _ => Bool
  | .readRun _ _ => Option (List (List UInt8))
  | .writeRun _ _ => Bool
  | .flush => Bool
  | .kmalloc _ => Bool
  | .cmos _ => UInt8
  | .info => Info
  | .setInfo _ => Unit

abbrev Fat32Prog := Prog Fat32Op Fat32Op.Response
abbrev Fat32Code := Prog.Fallible Fat32Op Fat32Op.Response

/-- A call that reports success or failure; the code gives up when it fails. -/
def attempt (call : Fat32Prog Bool) : Fat32Code Unit := do
  let ok ← call
  guard ok

def f32ReadSector (lba : Nat) : Fat32Code (List UInt8) :=
  OptionT.mk (Prog.perform (Fat32Op.read lba))

def f32WriteSector (lba : Nat) (sector : List UInt8) : Fat32Code Unit :=
  attempt (Prog.perform (Fat32Op.write lba sector))

def getInfo : Fat32Prog Info := Prog.perform Fat32Op.info

def setInfo (info : Info) : Fat32Prog Unit := Prog.perform (Fat32Op.setInfo info)

def changeInfo (change : Info → Info) : Fat32Prog Unit := do
  let info ← getInfo
  setInfo (change info)

def succeeds {α : Type} (code : Fat32Code α) : Fat32Prog Bool := do
  let outcome ← code.run
  return outcome.isSome

/-! ### The mounted volume -/

/-- The fields of a `FAT32_BPB` that the code uses. -/
structure Bpb where
  bytesPerSector : Nat
  sectorsPerCluster : Nat
  reservedSectors : Nat
  fatCount : Nat
  totalSectors16 : Nat
  totalSectors32 : Nat
  sectorsPerFat : Nat
  rootCluster : Nat
  fsInfoSector : Nat
  backupBootSector : Nat
  deriving DecidableEq, Repr

/-- `FAT32_CONTEXT`, without the counters. -/
structure Context where
  device : Device
  bpb : Bpb
  deriving DecidableEq, Repr

namespace Context

variable (context : Context)

/-- `fat32_sector_size`. -/
def sectorSize : Nat :=
  if context.bpb.bytesPerSector ≠ 0 then context.bpb.bytesPerSector
  else context.device.logicalBlockSize

def fatStart : Nat := context.bpb.reservedSectors

def dataStart : Nat :=
  (context.fatStart + context.bpb.fatCount * context.bpb.sectorsPerFat) % 2 ^ 32

/-- `total_sectors` in `fat32_max_cluster`. -/
def totalSectors : Nat :=
  let total := if context.bpb.totalSectors32 ≠ 0 then context.bpb.totalSectors32
    else context.bpb.totalSectors16
  if context.device.blockCount ≠ 0 ∧ context.device.blockCount ≤ 0xFFFFFFFF ∧
      (total = 0 ∨ total > context.device.blockCount) then context.device.blockCount
  else total

/-- `fat32_max_cluster`. -/
def maxCluster : Nat :=
  if context.totalSectors ≤ context.dataStart ∨ context.bpb.sectorsPerCluster = 0 then 2
  else (2 + (context.totalSectors - context.dataStart) / context.bpb.sectorsPerCluster) % 2 ^ 32

/-- `fat32_data_cluster_valid`. -/
def dataClusterValid (cluster : Nat) : Bool :=
  decide (cluster ≥ 2) && decide (cluster < context.maxCluster)

def clusterToLba (cluster : Nat) : Nat :=
  (context.dataStart + (cluster + 2 ^ 32 - 2) * context.bpb.sectorsPerCluster) % 2 ^ 32

def clusterSector (cluster index : Nat) : Nat := (context.clusterToLba cluster + index) % 2 ^ 32

end Context

section Clusters

variable (context : Context)

/-! ### The allocation table -/

/-- The sector of the allocation table with the entry of a cluster, from its first one. -/
def fatSectorOf (cluster : Nat) : Nat := cluster * 4 % 2 ^ 32 / context.sectorSize

def fatOffsetOf (cluster : Nat) : Nat := cluster * 4 % 2 ^ 32 % context.sectorSize

/-- `fat32_next_cluster`: a sector that cannot be read is the end of the chain. -/
def fat32NextCluster (cluster : Nat) : Fat32Prog Nat := do
  match ← Prog.perform (Fat32Op.readLink ((context.fatStart + fatSectorOf context cluster) % 2 ^ 32)) with
  | none => return FAT32_EOC
  | some sec => return getLE sec (fatOffsetOf context cluster) 4 % 2 ^ 28

/-- The sector with an entry replaced; the upper four bits of the entry are kept. -/
def storeEntry (sec : List UInt8) (offset value : Nat) : List UInt8 :=
  put sec offset [UInt8.ofNat value, UInt8.ofNat (value >>> 8), UInt8.ofNat (value >>> 16),
    (byteAt sec (offset + 3) &&& (0xF0 : UInt8)) ||| (UInt8.ofNat (value >>> 24) &&& (0x0F : UInt8))]

/-- The loop of `fat32_set_cluster` over the copies of the table. -/
def setCopies (cluster value : Nat) : List Nat → Fat32Code Unit
  | [] => return ()
  | fatIndex :: rest => do
    let fatSector := (context.fatStart + fatIndex * context.bpb.sectorsPerFat +
      fatSectorOf context cluster) % 2 ^ 32
    let sec ← f32ReadSector fatSector
    f32WriteSector fatSector (storeEntry sec (fatOffsetOf context cluster) value)
    setCopies cluster value rest

def fat32SetCluster (cluster value : Nat) : Fat32Code Unit :=
  setCopies context cluster value (List.range context.bpb.fatCount)

/-! ### Chains -/

def fat32ChainAdvance (cluster : Nat) : Fat32Code Nat := do
  guard (context.dataClusterValid cluster)
  let value ← fat32NextCluster context cluster
  if value ≥ FAT32_EOC then return FAT32_EOC
  else do
    guard (¬(value = 0 ∨ value = FAT32_BAD_CLUSTER ∨ value ≥ FAT32_RESERVED_START ∨
      ¬context.dataClusterValid value))
    return value

/-- The loop of `fat32_chain_valid`. -/
def chainValidLoop : Nat → Nat → Fat32Code Unit
  | 0, _ => failure
  | hops + 1, current => do
    let next ← fat32ChainAdvance context current
    if next ≥ FAT32_EOC then return () else chainValidLoop hops next

def fat32ChainValid (firstCluster : Nat) : Fat32Code Unit := do
  guard (context.dataClusterValid firstCluster)
  chainValidLoop context (context.maxCluster - 2) firstCluster

/-! ### Allocation -/

def clearSectors (cluster : Nat) : List Nat → Fat32Code Unit
  | [] => return ()
  | sector :: rest => do
    f32WriteSector (context.clusterSector cluster sector) (List.replicate context.sectorSize 0)
    clearSectors cluster rest

/-- The part of `fat32_allocate_cluster` that takes a free cluster. -/
def takeCluster (cluster : Nat) : Fat32Code Nat := do
  fat32SetCluster context cluster FAT32_EOC_MARK
  match ← Prog.observe (clearSectors context cluster (List.range context.bpb.sectorsPerCluster)) with
  | none => do
    let _ ← Prog.observe (fat32SetCluster context cluster 0)
    failure
  | some () => do
    changeInfo fun info => info.take context.maxCluster cluster
    return cluster

/-- The search of `fat32_allocate_cluster`. -/
def allocateLoop : Nat → Nat → Fat32Code Nat
  | 0, _ => do
    changeInfo Info.exhaust
    failure
  | attempts + 1, cluster => do
    let value ← fat32NextCluster context cluster
    if value = 0 then takeCluster context cluster
    else allocateLoop attempts (if cluster + 1 ≥ context.maxCluster then 2 else cluster + 1)

def fat32AllocateCluster : Fat32Code Nat := do
  let info ← getInfo
  guard (¬context.maxCluster ≤ 2)
  let cluster := info.nextFreeCluster
  allocateLoop context (context.maxCluster - 2)
    (if cluster < 2 ∨ cluster ≥ context.maxCluster then 2 else cluster)

/-- The loop of `fat32_free_chain`, which counts what it releases. Every round clears an
entry, and a cleared entry ends the loop, so there are at most as many as clusters. -/
def freeLoop : Nat → Nat → Nat → Fat32Code Nat
  | 0, _, _ => failure
  | rounds + 1, cluster, released => do
    let next ← fat32ChainAdvance context cluster
    fat32SetCluster context cluster 0
    if next ≥ FAT32_EOC then return released + 1
    else freeLoop rounds next (released + 1)

def fat32FreeChain (cluster : Nat) : Fat32Code Unit := do
  fat32ChainValid context cluster
  let released ← freeLoop context (context.maxCluster - 1) cluster 0
  changeInfo fun info => info.release context.maxCluster cluster released

/-- What the code does with a chain it cannot use: release it, whatever comes of that. -/
def discardChain (first : Nat) : Fat32Prog Unit := do
  if first ≠ 0 then
    let _ ← (fat32FreeChain context first).run

/-- The loop of `fat32_allocate_chain`. -/
def allocateChainLoop : Nat → Nat → Nat → Fat32Code Nat
  | 0, first, _ => return first
  | remaining + 1, first, previous => do
    match ← Prog.observe (fat32AllocateCluster context) with
    | none => do
      discardChain context first
      failure
    | some cluster => do
      let first := if first = 0 then cluster else first
      if previous ≠ 0 then
        match ← Prog.observe (fat32SetCluster context previous cluster) with
        | none => do
          discardChain context first
          failure
        | some () => allocateChainLoop remaining first cluster
      else allocateChainLoop remaining first cluster

def fat32AllocateChain (clusterCount : Nat) : Fat32Code Nat := do
  let info ← getInfo
  guard (¬(clusterCount = 0 ∨ (info.freeClusterCount ≠ FAT32_FSINFO_UNKNOWN ∧
    clusterCount > info.freeClusterCount)))
  allocateChainLoop context clusterCount 0 0

/-- The sectors of one cluster that `write_cluster_chain` writes, and what is left. -/
def writeClusterSectors (cluster : Nat) : List Nat → List UInt8 → Fat32Code (List UInt8)
  | [], source => return source
  | clusterSector :: rest, source =>
    if source.isEmpty then return source
    else do
      let copied := source.take context.sectorSize
      f32WriteSector (context.clusterSector cluster clusterSector)
        (copied ++ List.replicate (context.sectorSize - copied.length) 0)
      writeClusterSectors cluster rest (source.drop context.sectorSize)

/-- The loop of `write_cluster_chain` on what is left of the buffer. -/
def writeChainLoop : Nat → Nat → List UInt8 → Fat32Code Unit
  | 0, _, source => guard source.isEmpty
  | hops + 1, cluster, source =>
    if context.dataClusterValid cluster ∧ ¬source.isEmpty then do
      let source ← writeClusterSectors context cluster
        (List.range context.bpb.sectorsPerCluster) source
      let next ← fat32ChainAdvance context cluster
      writeChainLoop hops next source
    else guard source.isEmpty

def writeClusterChain (firstCluster : Nat) (buffer : List UInt8) : Fat32Code Unit :=
  writeChainLoop context (context.maxCluster - 2) firstCluster buffer

end Clusters

end AsasOs.Fat32
