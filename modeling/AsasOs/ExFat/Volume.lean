import AsasOs.Block.Faults

/-!
# exFAT: sectors, the journal and the allocation of clusters

The lower half of `exfat.c`. Code that reads and writes a volume is a program over the
calls it makes; `write_sector` saves the sector in the journal of the context first.
The journal and the flags of the context are state of the handler of these calls, and
the geometry and the up-case table of a mounted context are a parameter of the code.

## Model

- 32-bit cluster numbers and 64-bit sizes are numbers; where the source's arithmetic
  can wrap, it is reduced explicitly.
- A path is the list of its bytes before the terminating zero.
- `kfree` has no effect that the code depends on, and is left out.
-/
namespace AsasOs.ExFat

open Block Bytes

def EXFAT_ENTRY_FILE : UInt8 := 0x85
def EXFAT_ENTRY_STREAM : UInt8 := 0xC0
def EXFAT_ENTRY_NAME : UInt8 := 0xC1
def EXFAT_ATTR_DIRECTORY : Nat := 0x10
def EXFAT_STREAM_NO_FAT_CHAIN : UInt8 := 0x02
def EXFAT_EOC : Nat := 0xFFFFFFF8
def EXFAT_BAD_CLUSTER : Nat := 0xFFFFFFF7
def EXFAT_MAX_TRANSACTION_SECTORS : Nat := 256

/-! ### The interface -/

/-- The calls that the code on a volume makes. -/
inductive ExfatOp where
  /-- `block_device_read` of one sector -/
  | read (lba : Nat)
  /-- the second half of `write_sector`: `journal_sector`, then `block_device_write` -/
  | write (lba : Nat) (sector : List UInt8)
  /-- `block_device_write` of one sector, past the journal -/
  | writeDirect (lba : Nat) (sector : List UInt8)
  | flush
  | kmalloc (size : Nat)

abbrev ExfatOp.Response : ExfatOp → Type
  | .read _ => Option (List UInt8)
  | .write _ _ => Bool
  | .writeDirect _ _ => Bool
  | .flush => Bool
  | .kmalloc _ => Bool

abbrev ExfatProg := Prog ExfatOp ExfatOp.Response
abbrev ExfatCode := Prog.Fallible ExfatOp ExfatOp.Response

/-- A call that reports success or failure; the code gives up when it fails. -/
def attempt (call : ExfatProg Bool) : ExfatCode Unit := do
  let ok ← call
  guard ok

def blockDeviceRead (lba : Nat) : ExfatCode (List UInt8) :=
  OptionT.mk (Prog.perform (ExfatOp.read lba))

def blockDeviceWrite (lba : Nat) (sector : List UInt8) : ExfatCode Unit :=
  attempt (Prog.perform (ExfatOp.writeDirect lba sector))

/-- Whether `kmalloc` returns a buffer. -/
def allocated (size : Nat) : ExfatProg Bool := Prog.perform (ExfatOp.kmalloc size)

def kmalloc (size : Nat) : ExfatCode Unit := attempt (allocated size)

/-! ### The mounted volume -/

/-- What a boot sector says about its volume. -/
structure Geometry where
  volumeLength : Nat
  fatOffset : Nat
  fatLength : Nat
  clusterHeapOffset : Nat
  clusterCount : Nat
  rootCluster : Nat
  sectorSize : Nat
  sectorsPerCluster : Nat
  deriving DecidableEq, Repr

namespace Geometry

def clusterSize (g : Geometry) : Nat := g.sectorSize * g.sectorsPerCluster

def validCluster (g : Geometry) (cluster : Nat) : Bool :=
  decide (2 ≤ cluster) && decide (cluster - 2 < g.clusterCount)

def clusterLba (g : Geometry) (cluster : Nat) : Nat :=
  g.clusterHeapOffset + (cluster - 2) * g.sectorsPerCluster

/-- The checks that `exfat_context_create` makes on the geometry. -/
def accepted (g : Geometry) (device : Device) : Bool :=
  g.sectorSize == device.logicalBlockSize &&
  !(g.sectorsPerCluster > 0xFFFFFFFF / g.sectorSize) &&
  !(g.volumeLength < 24) && !(g.fatOffset < 24) && g.fatLength != 0 && g.clusterCount != 0 &&
  g.validCluster g.rootCluster &&
  !((g.fatOffset + g.fatLength) % 2 ^ 32 > g.volumeLength) &&
  !(g.clusterHeapOffset > g.volumeLength) &&
  !(g.clusterCount * g.sectorsPerCluster > g.volumeLength - g.clusterHeapOffset) &&
  !(device.blockCount != 0 && g.volumeLength > device.blockCount)

end Geometry

/-- `EXFAT_CONTEXT`, without the journal: what a mount has found. -/
structure Context extends Geometry where
  device : Device
  accepted : toGeometry.accepted device = true
  upcase : Option (Nat → Nat)
  bitmapFirstCluster : Nat
  bitmapLength : Nat

/-- `EXFAT_NODE`. -/
structure Node where
  firstCluster : Nat := 0
  validDataLength : Nat := 0
  dataLength : Nat := 0
  attributes : Nat := 0
  noFatChain : Bool := false
  name : List Nat := []
  parentFirstCluster : Nat := 0
  entryOffset : Nat := 0
  entryCount : Nat := 0
  parentNoFatChain : Bool := false
  parentDataLength : Nat := 0
  deriving DecidableEq, Repr

def Node.isDirectory (node : Node) : Bool := node.attributes &&& EXFAT_ATTR_DIRECTORY != 0

section Sectors

variable (context : Context)

def readSector (lba : Nat) : ExfatCode (List UInt8) := do
  guard (lba < context.volumeLength)
  blockDeviceRead lba

def writeSector (lba : Nat) (sector : List UInt8) : ExfatCode Unit := do
  guard (lba < context.volumeLength)
  attempt (Prog.perform (ExfatOp.write lba sector))

/-! ### The allocation table -/

def readFat (cluster : Nat) : ExfatCode Nat := do
  let byteOffset := cluster * 4
  let sectorIndex := byteOffset / context.sectorSize
  guard (context.validCluster cluster ∧ ¬sectorIndex ≥ context.fatLength)
  let sector ← readSector context (context.fatOffset + sectorIndex)
  let next := getLE sector (byteOffset % context.sectorSize) 4
  guard (¬(next = EXFAT_BAD_CLUSTER ∨ (next < EXFAT_EOC ∧ ¬context.validCluster next)))
  return next

def writeFat (cluster value : Nat) : ExfatCode Unit := do
  let byteOffset := cluster * 4
  let sectorIndex := byteOffset / context.sectorSize
  guard (context.validCluster cluster ∧ ¬sectorIndex ≥ context.fatLength)
  let sector ← readSector context (context.fatOffset + sectorIndex)
  writeSector context (context.fatOffset + sectorIndex)
    (putLE sector (byteOffset % context.sectorSize) 4 value)

/-! ### Streams -/

/-- The loop of `stream_cluster` that follows the chain. -/
def followChain : Nat → Nat → ExfatCode Nat
  | 0, current => return current
  | steps + 1, current => do
    let next ← readFat context current
    guard (next < EXFAT_EOC)
    followChain steps next

def streamCluster (firstCluster : Nat) (noFatChain : Bool) (index : Nat) : ExfatCode Nat := do
  guard (context.validCluster firstCluster ∧ index < context.clusterCount)
  if noFatChain then
    guard (¬firstCluster - 2 > context.clusterCount - 1 - index)
    return (firstCluster + index) % 2 ^ 32
  else followChain context index firstCluster

/-- `stream_byte_location`: the sector, and the offset inside it. -/
def streamByteLocation (firstCluster : Nat) (noFatChain : Bool) (offset : Nat) : ExfatCode (Nat × Nat) := do
  let clusterIndex := offset / context.clusterSize % 2 ^ 32
  let insideCluster := offset % context.clusterSize
  let cluster ← streamCluster context firstCluster noFatChain clusterIndex
  return (context.clusterLba cluster + insideCluster / context.sectorSize, insideCluster % context.sectorSize)

/-- The loop of `read_stream`: what has been read when it ends or a sector cannot be
read. Every round adds to `total`, so there are at most `capacity` of them. -/
def readStreamLoop (firstCluster : Nat) (noFatChain : Bool) (offset capacity : Nat) :
    Nat → List UInt8 → ExfatProg (List UInt8)
  | 0, total => return total
  | rounds + 1, total =>
    if total.length < capacity then do
      let location := do
        let (lba, inside) ← streamByteLocation context firstCluster noFatChain
          (offset + total.length)
        let sector ← readSector context lba
        return slice sector inside (min (context.sectorSize - inside) (capacity - total.length))
      match ← location.run with
      | none => return total
      | some part => readStreamLoop firstCluster noFatChain offset capacity rounds (total ++ part)
    else return total

/-- `read_stream`: the bytes that were read. -/
def readStream (firstCluster : Nat) (noFatChain : Bool) (dataLength offset capacity : Nat) :
    ExfatProg (List UInt8) :=
  if offset ≥ dataLength ∨ capacity = 0 then return []
  else
    let capacity := min capacity (dataLength - offset)
    readStreamLoop context firstCluster noFatChain offset capacity capacity []

/-- The loop of `write_stream_metadata`, on what is left of the bytes to write. -/
def writeStreamLoop (firstCluster : Nat) (noFatChain : Bool) : Nat → Nat → List UInt8 → ExfatCode Unit
  | 0, _, _ => return ()
  | rounds + 1, offset, source =>
    if source.isEmpty then return ()
    else do
      let (lba, inside) ← streamByteLocation context firstCluster noFatChain offset
      let sector ← readSector context lba
      let copy := min (context.sectorSize - inside) source.length
      writeSector context lba (put sector inside (source.take copy))
      writeStreamLoop firstCluster noFatChain rounds (offset + copy) (source.drop copy)

def writeStreamMetadata (firstCluster : Nat) (noFatChain : Bool) (offset : Nat)
    (source : List UInt8) : ExfatCode Unit :=
  writeStreamLoop context firstCluster noFatChain source.length offset source

/-- The sectors of one cluster of `write_new_clusters`, and what is left of the source. -/
def writeNewCluster (cluster : Nat) : List Nat → List UInt8 → ExfatCode (List UInt8)
  | [], source => return source
  | sectorIndex :: rest, source => do
    let copied := source.take context.sectorSize
    blockDeviceWrite (context.clusterLba cluster + sectorIndex)
      (copied ++ List.replicate (context.sectorSize - copied.length) 0)
    writeNewCluster cluster rest (source.drop context.sectorSize)

/-! ### The bitmap -/

def bitmapByte (cluster : Nat) : ExfatCode UInt8 := do
  guard (context.validCluster cluster)
  let bytes ← readStream context context.bitmapFirstCluster false context.bitmapLength
    ((cluster - 2) / 8) 1
  ofList bytes
where
  ofList : List UInt8 → ExfatCode UInt8
    | [value] => return value
    | _ => failure

def bitmapBit (cluster : Nat) : ExfatCode Bool := do
  let value ← bitmapByte context cluster
  return value.toNat.testBit ((cluster - 2) % 8)

def setBitmapBit (cluster : Nat) (allocated : Bool) : ExfatCode Unit := do
  let value ← bitmapByte context cluster
  let mask : UInt8 := 1 <<< UInt8.ofNat ((cluster - 2) % 8)
  writeStreamMetadata context context.bitmapFirstCluster false ((cluster - 2) / 8)
    [if allocated then value ||| mask else value &&& ~~~mask]

/-- The search of `allocate_clusters` from a cluster on: the next `count` clusters that
are free, or those that there are. -/
def findFreeClusters : Nat → Nat → Nat → ExfatCode (List Nat)
  | 0, _, _ => return []
  | remaining + 1, cluster, count =>
    if count = 0 then return []
    else do
      let allocated ← bitmapBit context cluster
      if allocated then findFreeClusters remaining ((cluster + 1) % 2 ^ 32) count
      else do
        let rest ← findFreeClusters remaining ((cluster + 1) % 2 ^ 32) (count - 1)
        return cluster :: rest

/-- The loop of `allocate_clusters` that takes the clusters and chains them. -/
def takeClusters : List Nat → ExfatCode Unit
  | [] => return ()
  | cluster :: rest => do
    setBitmapBit context cluster true
    writeFat context cluster (rest.headD 0xFFFFFFFF)
    takeClusters rest

def allocateClusters (count : Nat) : ExfatCode (List Nat) := do
  let clusters ← findFreeClusters context context.clusterCount 2 count
  guard (clusters.length = count)
  takeClusters context clusters
  return clusters

/-- The clusters of a chain: the loop of `collect_clusters` and of `directory_length`,
which count the links that they can follow. -/
def chainLength : Nat → Nat → ExfatProg Nat
  | 0, _ => return 0
  | remaining + 1, cluster =>
    if context.validCluster cluster then do
      match ← (readFat context cluster).run with
      | none => return 1
      | some next =>
        if next ≥ EXFAT_EOC then return 1
        else do
          let rest ← chainLength remaining next
          return rest + 1
    else return 0

/-- The clusters that hold `size` bytes, in 64-bit and then 32-bit arithmetic. -/
def clustersFor (size : Nat) : Nat :=
  (size + context.clusterSize - 1) % 2 ^ 64 / context.clusterSize % 2 ^ 32

/-- The loop of `collect_clusters` over the indices that are left. -/
def collectLoop (node : Node) : List Nat → ExfatCode (List Nat)
  | [] => return []
  | index :: rest => do
    let cluster ← streamCluster context node.firstCluster node.noFatChain index
    let later ← collectLoop node rest
    return cluster :: later

/-- The number of clusters that `collect_clusters` looks for. -/
def storedClusters (node : Node) : ExfatProg Nat :=
  if node.dataLength = 0 then chainLength context context.clusterCount node.firstCluster
  else return clustersFor context node.dataLength

def collectClusters (node : Node) : ExfatCode (List Nat) := do
  let count ← storedClusters context node
  kmalloc (count * 4)
  collectLoop context node (List.range count)

end Sectors

end AsasOs.ExFat
