import AsasOs.Lib.CString
import AsasOs.Lib.Filling

/-!
# ext2 volumes

`ext2.c`, which only reads. Sizes and counts come from the disk and lead into buffers of fixed sizes,
so every access is checked against the size of its buffer, and every loop may run out of steps.

## Model

- A device gives the bytes of each sector that can be read.
- Buffers hold any bytes before they are read to. That matters for `collect_extent_tree` only, which
  may look at its buffer behind the block that it has read. What it finds there is any function of the
  way to the node.
- The loops are given one number of steps each.
-/
namespace AsasOs.Ext2

open Bytes Checked CString Filling

def EXT2_SUPER_OFFSET : Nat := 1024
def EXT2_SUPER_SIZE : Nat := 1024
def EXT2_MAGIC : Nat := 0xEF53
def EXT2_ROOT_INODE : Nat := 2
def EXT2_NAME_LEN : Nat := 255
def EXT2_MAX_BLOCK_SIZE : Nat := 4096
def EXT2_MAX_EXTENTS : Nat := 64

def EXT2_S_IFMT : Nat := 0xF000
def EXT2_S_IFREG : Nat := 0x8000
def EXT2_S_IFDIR : Nat := 0x4000

def EXT2_STATE_CLEAN : Nat := 0x0001

def EXT2_FEATURE_COMPAT_HAS_JOURNAL : UInt32 := 0x0004
def EXT2_FEATURE_INCOMPAT_64BIT : UInt32 := 0x0080
def EXT2_FEATURE_RO_COMPAT_METADATA_CSUM : UInt32 := 0x0400

/-- `supported_compat`: preallocation, journal, extended attributes, resize inode, directory index. -/
def supportedCompat : UInt32 := 0x003D

/-- `supported_incompat`: file types, extents, 64 bits, flexible groups. -/
def supportedIncompat : UInt32 := 0x02C2

/-- `supported_ro`: all but the checksums of the metadata. -/
def supportedRo : UInt32 := 0x007F

def EXT4_EXTENTS_FL : Nat := 0x00080000
def EXT4_EXTENT_MAGIC : Nat := 0xF30A

abbrev Memory := Nat → UInt8

/-- The device, with the sectors that can be read. -/
structure Ext2Device where
  logicalBlockSize : Nat
  sector : Nat → Option Memory

/-- `EXT2_CONTEXT` -/
structure Context where
  device : Ext2Device
  blockSize : Nat
  inodeSize : Nat
  inodesPerGroup : Nat
  blocksPerGroup : Nat
  groupCount : Nat
  descriptorSize : Nat
  featureCompat : UInt32
  featureIncompat : UInt32
  featureRoCompat : UInt32
  state : Nat
  readOnlyReason : Bool

/-- `EXT2_INODE`, with the bytes of its 15 block words. -/
structure Inode where
  mode : Nat
  flags : Nat
  size : Nat
  blocks : Memory

def INODE_BLOCKS_SIZE : Nat := 60

/-- `EXT2_EXTENT`: the first block, and the length in bytes. -/
structure Extent where
  block : Nat
  length : Nat

def peek (size : Nat) (buffer : Memory) (position width : Nat) : Run Nat := do
  access size position width
  pure (wordAt buffer position width)

/-! ### Reading the device -/

/-- What the loop of `read_bytes` copies after `done` bytes. -/
def readPiece (device : Ext2Device) (byteOffset size done : Nat) : Run (List UInt8) := do
  let absolute := (byteOffset + done) % 2 ^ 64
  let skip := absolute % device.logicalBlockSize
  let chunk := min (device.logicalBlockSize - skip) (size - done)
  let sector ← supplied (device.sector (absolute / device.logicalBlockSize))
  access 4096 skip chunk
  pure (window sector skip chunk)

/-- `read_bytes`, into a buffer of `room` bytes. -/
def readBytes (steps : Nat) (device : Ext2Device) (room byteOffset size : Nat) (buffer : Memory) : Run Memory := do
  demand (¬device.logicalBlockSize < 512 ∧ ¬device.logicalBlockSize > 4096)
  iterate (fillBody room size (readPiece device byteOffset size)) steps (0, buffer)

/-- `read_block`, into a buffer of `EXT2_MAX_BLOCK_SIZE` bytes. -/
def readBlock (steps : Nat) (c : Context) (block : Nat) (buffer : Memory) : Run Memory :=
  readBytes steps c.device EXT2_MAX_BLOCK_SIZE (block * c.blockSize % 2 ^ 64) c.blockSize buffer

/-! ### The superblock -/

/-- The context that the superblock describes, and whether it is accepted. -/
def parseSuper (device : Ext2Device) (super : Memory) : Option Context :=
  let blocksCount := wordAt super 4 4
  let logBlockSize := wordAt super 24 4
  let blockSize := 1024 <<< logBlockSize
  let blocksPerGroup := wordAt super 32 4
  let inodesPerGroup := wordAt super 40 4
  let state := wordAt super 58 2
  let featureCompat := UInt32.ofNat (wordAt super 92 4)
  let featureIncompat := UInt32.ofNat (wordAt super 96 4)
  let featureRoCompat := UInt32.ofNat (wordAt super 100 4)
  let inodeSize := if wordAt super 76 4 ≥ 1 then wordAt super 88 2 else 128
  let wide := featureIncompat &&& EXT2_FEATURE_INCOMPAT_64BIT != 0
  let descriptorSize := if wide then wordAt super 254 2 else 32
  if wordAt super 56 2 ≠ EXT2_MAGIC ∨ logBlockSize > 2 ∨ (wide ∧ descriptorSize < 64) ∨
      inodeSize < 128 ∨ inodeSize > blockSize ∨ blocksPerGroup = 0 ∨ inodesPerGroup = 0 ∨ blocksCount = 0 ∨
      featureCompat &&& ~~~supportedCompat ≠ 0 ∨ featureIncompat &&& ~~~supportedIncompat ≠ 0 ∨
      featureRoCompat &&& ~~~supportedRo ≠ 0 then none
  else
    some
      { device, blockSize, inodeSize, inodesPerGroup, blocksPerGroup
        groupCount := (blocksCount + blocksPerGroup - 1) % 2 ^ 32 / blocksPerGroup
        descriptorSize, featureCompat, featureIncompat, featureRoCompat, state
        readOnlyReason := state &&& EXT2_STATE_CLEAN == 0 ||
          featureCompat &&& EXT2_FEATURE_COMPAT_HAS_JOURNAL != 0 ||
          featureRoCompat &&& EXT2_FEATURE_RO_COMPAT_METADATA_CSUM != 0 }

/-- `load_super`. All that it looks at lies in the first 256 of the 1024 bytes. -/
def loadSuper (steps : Nat) (device : Ext2Device) : Run Context := do
  let super ← readBytes steps device EXT2_SUPER_SIZE EXT2_SUPER_OFFSET EXT2_SUPER_SIZE fun _ => 0
  access EXT2_SUPER_SIZE 0 256
  supplied (parseSuper device super)

/-! ### Inodes -/

def descriptorTableBlock (c : Context) : Nat := if c.blockSize = 1024 then 2 else 1

/-- `inode_table_block`, with a descriptor of 64 bytes. -/
def inodeTableBlock (steps : Nat) (c : Context) (group : Nat) : Run Nat := do
  demand (group < c.groupCount)
  let offset := (descriptorTableBlock c * c.blockSize + group * c.descriptorSize) % 2 ^ 64
  let descriptor ← readBytes steps c.device 64 offset c.descriptorSize fun _ => 0
  let low ← peek 64 descriptor 8 4
  let high ← if c.descriptorSize ≥ 64 then peek 64 descriptor 40 4 else pure 0
  demand (high * 2 ^ 32 + low ≠ 0)
  pure (high * 2 ^ 32 + low)

/-- The inode in its raw bytes, which `read_inode` looks at up to the size in bytes 108 to 111. -/
def parseInode (raw : Memory) : Inode where
  mode := wordAt raw 0 2
  flags := wordAt raw 32 4
  size := wordAt raw 108 4 * 2 ^ 32 + wordAt raw 4 4
  blocks := rest raw 40

def readInode (steps : Nat) (c : Context) (inodeNumber : Nat) : Run Inode := do
  demand (inodeNumber ≠ 0 ∧ ¬c.inodeSize > 512)
  let table ← inodeTableBlock steps c ((inodeNumber - 1) / c.inodesPerGroup)
  let offset := (table * c.blockSize + (inodeNumber - 1) % c.inodesPerGroup * c.inodeSize) % 2 ^ 64
  let raw ← readBytes steps c.device 512 offset c.inodeSize fun _ => 0
  access 512 0 112
  demand ((parseInode raw).mode ≠ 0)
  pure (parseInode raw)

def Inode.type (inode : Inode) : Nat := inode.mode &&& EXT2_S_IFMT

/-! ### Extents -/

/-- A leaf entry of a node of `size` bytes. The length has 15 bits here. -/
def leafEntry (c : Context) (size : Nat) (node : Memory) (extents : List Extent) (index : Nat) :
    Run (List Extent) := do
  let offset := 12 + index * 12
  demand (¬extents.length ≥ EXT2_MAX_EXTENTS)
  let length ← peek size node (offset + 4) 2
  let high ← peek size node (offset + 6) 2
  let low ← peek size node (offset + 8) 4
  access EXT2_MAX_EXTENTS extents.length 1
  pure (extents ++ [⟨high * 2 ^ 32 + low, length % 2 ^ 15 * c.blockSize⟩])

def indexEntry (size : Nat) (node : Memory) (child : Nat → Nat → List Extent → Run (List Extent))
    (extents : List Extent) (index : Nat) : Run (List Extent) := do
  let offset := 12 + index * 12
  let high ← peek size node (offset + 10) 2
  let low ← peek size node (offset + 4) 4
  child index (high * 2 ^ 32 + low) extents

/-- What `collect_extent_tree` and `collect_inode_extents` do with a node of `size` bytes. -/
def collectNode (c : Context) (size : Nat) (node : Memory)
    (child : Nat → Nat → List Extent → Run (List Extent))
    (extents : List Extent) : Run (List Extent) := do
  let magic ← peek size node 0 2
  demand (magic = EXT4_EXTENT_MAGIC)
  let entries ← peek size node 2 2
  let most ← peek size node 4 2
  demand (¬entries > most)
  let depth ← peek size node 6 2
  if depth = 0 then (List.range entries).foldlM (leafEntry c size node) extents
  else (List.range entries).foldlM (indexEntry size node child) extents

/-- What is behind the block in the buffer of a node, by the entries that lead to the node. -/
abbrev Leftover := List Nat → Memory

def Leftover.under (leftover : Leftover) (index : Nat) : Leftover := fun way => leftover (index :: way)

/-- `collect_extent_tree`, with the levels down to depth 5 that remain. -/
def collectExtentTree (steps : Nat) (c : Context) : Nat → Leftover → Nat → List Extent →
    Run (List Extent)
  | 0, _, _, _ => .error .refused
  | levels + 1, leftover, block, extents => do
    let buffer ← readBlock steps c block (leftover [])
    collectNode c EXT2_MAX_BLOCK_SIZE buffer
      (fun index => collectExtentTree steps c levels (leftover.under index)) extents

def collectInodeExtents (steps : Nat) (c : Context) (leftover : Leftover) (inode : Inode) : Run (List Extent) := do
  demand (inode.flags &&& EXT4_EXTENTS_FL ≠ 0)
  collectNode c INODE_BLOCKS_SIZE inode.blocks
    (fun index => collectExtentTree steps c 5 (leftover.under index)) []

/-! ### Contents -/

/-- The offset in what is left of the row of extents, and what has been read. -/
structure Cursor where
  offset : Nat
  done : Nat
  out : Memory

/-- The loop of `read_inode_bytes` in one extent. -/
def extentBody (steps : Nat) (c : Context) (room capacity : Nat) (extent : Extent) (s : Cursor) :
    Run (Cursor ⊕ Cursor) :=
  if s.offset < extent.length ∧ s.done < capacity then do
    let inBlock := s.offset % c.blockSize
    let chunk := min (min (c.blockSize - inBlock) (capacity - s.done)) (extent.length - s.offset)
    let block ← readBlock steps c (extent.block + s.offset / c.blockSize) fun _ => 0
    access EXT2_MAX_BLOCK_SIZE inBlock chunk
    access room s.done chunk
    pure (.inl ⟨s.offset + chunk, s.done + chunk, patch s.out s.done (window block inBlock chunk)⟩)
  else pure (.inr s)

/-- An extent, as long as there is something to read. -/
def readExtent (steps : Nat) (c : Context) (room capacity : Nat) (s : Cursor) (extent : Extent) :
    Run Cursor :=
  if s.done < capacity then
    if s.offset ≥ extent.length then pure { s with offset := s.offset - extent.length }
    else do
      let s ← iterate (extentBody steps c room capacity extent) steps s
      pure { s with offset := 0 }
  else pure s

/-- The block of the disk that a block of a file without extents is in, 0 for a hole. -/
def physicalBlock (steps : Nat) (c : Context) (inode : Inode) (logical : Nat) : Run Nat :=
  if logical < 12 then peek INODE_BLOCKS_SIZE inode.blocks (logical * 4) 4
  else do
    let indirectIndex := (logical - 12) % 2 ^ 32
    demand (¬indirectIndex ≥ c.blockSize / 4)
    let table ← peek INODE_BLOCKS_SIZE inode.blocks 48 4
    demand (table ≠ 0)
    let indirect ← readBlock steps c table fun _ => 0
    peek EXT2_MAX_BLOCK_SIZE indirect (indirectIndex * 4) 4

/-- What `read_inode_bytes` copies of a file without extents, after `done` bytes. -/
def blockPiece (steps : Nat) (c : Context) (inode : Inode) (offset capacity done : Nat) : Run (List UInt8) := do
  let inBlock := (offset + done) % c.blockSize
  let chunk := min (c.blockSize - inBlock) (capacity - done)
  let physical ← physicalBlock steps c inode ((offset + done) / c.blockSize)
  if physical = 0 then pure (List.replicate chunk 0)
  else do
    let block ← readBlock steps c physical fun _ => 0
    access EXT2_MAX_BLOCK_SIZE inBlock chunk
    pure (window block inBlock chunk)

/-- `read_inode_bytes`, into a buffer of `room` bytes. -/
def readInodeBytes (steps : Nat) (c : Context) (leftover : Leftover) (inode : Inode)
    (room offset capacity : Nat)
    (buffer : Memory) : Run Memory := do
  demand (¬offset > inode.size)
  let capacity := min capacity (inode.size - offset)
  if inode.flags &&& EXT4_EXTENTS_FL ≠ 0 then do
    let extents ← collectInodeExtents steps c leftover inode
    let s ← extents.foldlM (readExtent steps c room capacity) ⟨offset, 0, buffer⟩
    demand (s.done = capacity)
    pure s.out
  else iterate (fillBody room capacity (blockPiece steps c inode offset capacity)) steps (0, buffer)

end AsasOs.Ext2
