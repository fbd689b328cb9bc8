import AsasOs.Block.Faults

/-!
# GPT tables

`partition.c`: the headers and entries of a GUID partition table, the checks of the
reader, and the commit of a changed table to its two copies. A header is the sector
that holds it, as in the source, where a pointer to the sector is cast to a pointer
to the packed structure.
-/
namespace AsasOs.Partition

open Block Bytes

def PARTITION_MAX_BLOCK_SIZE : Nat := 4096

/-- `GPT_HEADER`, as far as it is read. -/
structure GptHeader where
  signature : List UInt8
  headerSize : Nat
  headerCrc32 : Nat
  currentLba : Nat
  backupLba : Nat
  firstUsableLba : Nat
  lastUsableLba : Nat
  diskGuid : List UInt8
  entriesLba : Nat
  entryCount : Nat
  entrySize : Nat
  entriesCrc32 : Nat
  deriving DecidableEq, Repr

/-- The packed structure at the start of a sector. -/
def gptHeader (sector : List UInt8) : GptHeader where
  signature := slice sector 0 8
  headerSize := getLE sector 12 4
  headerCrc32 := getLE sector 16 4
  currentLba := getLE sector 24 8
  backupLba := getLE sector 32 8
  firstUsableLba := getLE sector 40 8
  lastUsableLba := getLE sector 48 8
  diskGuid := slice sector 56 16
  entriesLba := getLE sector 72 8
  entryCount := getLE sector 80 4
  entrySize := getLE sector 84 4
  entriesCrc32 := getLE sector 88 4

/-- `GPT_ENTRY`, as far as it is read. -/
structure GptEntry where
  typeGuid : List UInt8
  firstLba : Nat
  lastLba : Nat
  deriving DecidableEq, Repr

def gptEntry (entries : List UInt8) (offset : Nat) : GptEntry where
  typeGuid := slice entries offset 16
  firstLba := getLE entries (offset + 32) 8
  lastLba := getLE entries (offset + 40) 8

abbrev Guid := {bytes : List UInt8 // bytes.length = 16}

/-- A name of 36 UTF-16 units. -/
abbrev EntryName := {bytes : List UInt8 // bytes.length = 72}

def guidIsZero (guid : List UInt8) : Bool := guid.all (· == 0)

/-- `crc32_update` for one byte. -/
def crc32Byte (crc : UInt32) (byte : UInt8) : UInt32 :=
  (fun crc : UInt32 => (crc >>> 1) ^^^ (0xEDB88320 &&& (0 - (crc &&& 1))))^[8]
    (crc ^^^ byte.toUInt32)

def crc32Update (crc : UInt32) (data : List UInt8) : UInt32 := data.foldl crc32Byte crc

/-- `crc32_update(0xFFFFFFFF, data, size) ^ 0xFFFFFFFF`. -/
def crc32 (data : List UInt8) : Nat := (crc32Update 0xFFFFFFFF data ^^^ 0xFFFFFFFF).toNat

def GptHeader.entriesBytes (header : GptHeader) : Nat := header.entryCount * header.entrySize

/-- The blocks of an entry array. -/
def GptHeader.entriesSectors (header : GptHeader) (blockSize : Nat) : Nat :=
  (header.entriesBytes + blockSize - 1) / blockSize

/-! ### The reader -/

/-- "EFI PART". -/
def gptSignature : List UInt8 := [0x45, 0x46, 0x49, 0x20, 0x50, 0x41, 0x52, 0x54]

/-- The CRC of a header, computed with its own CRC field zero. -/
def headerCrc (sector : List UInt8) : Nat :=
  crc32 ((putLE sector 16 4 0).take (gptHeader sector).headerSize)

/-- The checks of `read_gpt_header` on the fields of a header. -/
def gptPlacementValid (device : Device) (headerLba : Nat) (header : GptHeader) : Bool :=
  let blockSize := device.logicalBlockSize
  let sectors := header.entriesSectors blockSize
  header.signature == gptSignature &&
  !(header.headerSize < 92) && !(header.headerSize > blockSize) &&
  !(header.entrySize < 128) && !(header.entrySize > blockSize) &&
  header.entrySize % 128 == 0 && blockSize % header.entrySize == 0 &&
  header.entryCount != 0 && header.currentLba == headerLba &&
  header.backupLba != headerLba && !(header.firstUsableLba > header.lastUsableLba) &&
  !(device.blockCount != 0 &&
    (headerLba ≥ device.blockCount || header.backupLba ≥ device.blockCount ||
      header.lastUsableLba ≥ device.blockCount)) &&
  header.entriesBytes / header.entrySize == header.entryCount &&
  sectors != 0 && header.entriesLba != 0 &&
  !(device.blockCount != 0 &&
    (header.entriesLba ≥ device.blockCount || sectors > device.blockCount - header.entriesLba)) &&
  !(header.entriesLba ≤ header.lastUsableLba &&
    (header.entriesLba + sectors - 1) % 2 ^ 64 ≥ header.firstUsableLba) &&
  !((headerLba ≥ header.firstUsableLba && headerLba ≤ header.lastUsableLba) ||
    (header.backupLba ≥ header.firstUsableLba && header.backupLba ≤ header.lastUsableLba))

/-- The checks of `read_gpt_header` on a sector that has been read. -/
def gptHeaderValid (device : Device) (headerLba : Nat) (sector : List UInt8) : Bool :=
  gptPlacementValid device headerLba (gptHeader sector) && headerCrc sector == (gptHeader sector).headerCrc32

def readGptHeader (device : Device) (headerLba : Nat) : DeviceCode (List UInt8) := do
  guard (¬(device.logicalBlockSize < 512 ∨ device.logicalBlockSize > PARTITION_MAX_BLOCK_SIZE))
  let sector ← deviceRead headerLba 1
  guard (gptHeaderValid device headerLba sector)
  return sector

/-! ### The commit -/

def gptLayoutsMatch (primary backup : GptHeader) : Bool :=
  primary.currentLba == 1 && primary.backupLba == backup.currentLba &&
  backup.backupLba == primary.currentLba &&
  primary.firstUsableLba == backup.firstUsableLba &&
  primary.lastUsableLba == backup.lastUsableLba && primary.entryCount == backup.entryCount &&
  primary.entrySize == backup.entrySize && primary.diskGuid == backup.diskGuid

def gptEntriesValid (header : GptHeader) (entries : List UInt8) : Bool :=
  (List.range header.entryCount).all fun index =>
    let entry := gptEntry entries (index * header.entrySize)
    guidIsZero entry.typeGuid ||
    (!(entry.firstLba < header.firstUsableLba) && !(entry.lastLba > header.lastUsableLba) &&
      !(entry.lastLba < entry.firstLba) &&
      (List.range index).all fun other =>
        let existing := gptEntry entries (other * header.entrySize)
        !(!guidIsZero existing.typeGuid && entry.firstLba ≤ existing.lastLba &&
          existing.firstLba ≤ entry.lastLba))

def gptUpdateHeaderCrc (sector : List UInt8) (entriesCrc : Nat) : List UInt8 :=
  let sector := putLE sector 88 4 entriesCrc
  let sector := putLE sector 16 4 0
  putLE sector 16 4 (crc32 (sector.take (gptHeader sector).headerSize))

/-- The three operations of `partition_gpt_commit`. -/
inductive GptOperation where
  | create (typeGuid uniqueGuid : Option Guid) (name : Option EntryName)
      (startLba blockCount : UInt64)
  | delete
  | resize (startLba blockCount : UInt64)

/-- Neither empty nor past the last block number. -/
def extentInvalid (startLba blockCount : UInt64) : Bool :=
  blockCount == 0 || blockCount - 1 > ~~~0 - startLba

def putExtent (entries : List UInt8) (entry : Nat) (startLba blockCount : UInt64) : List UInt8 :=
  putLE (putLE entries (entry + 32) 8 startLba.toNat) (entry + 40) 8
    (startLba + blockCount - 1).toNat

/-- The change that `partition_gpt_commit` makes to entry `slot`. -/
def gptEdit (header : GptHeader) (slot : Nat) (operation : GptOperation) (entries : List UInt8) :
    Option (List UInt8) :=
  let entry := slot * header.entrySize
  let free := guidIsZero (gptEntry entries entry).typeGuid
  let cleared := put entries entry (List.replicate header.entrySize 0)
  match operation with
  | .create typeGuid uniqueGuid name startLba blockCount =>
    match typeGuid, uniqueGuid with
    | some typeGuid, some uniqueGuid =>
      if !free || guidIsZero typeGuid.1 || guidIsZero uniqueGuid.1 ||
          extentInvalid startLba blockCount then none
      else
        let named := put (put cleared entry typeGuid.1) (entry + 16) uniqueGuid.1
        let named := match name with
          | none => named
          | some name => put named (entry + 56) name.1
        some (putExtent named entry startLba blockCount)
    | _, _ => none
  | .delete => if free then none else some cleared
  | .resize startLba blockCount =>
    if free || extentInvalid startLba blockCount then none
    else some (putExtent entries entry startLba blockCount)

/-- The change, if the table is valid after it. -/
def gptEdited (header : GptHeader) (slot : Nat) (operation : GptOperation)
    (entries : List UInt8) : Option (List UInt8) :=
  (gptEdit header slot operation entries).filter (gptEntriesValid header)

/-- What the first part of `partition_gpt_commit` has read and checked. -/
structure GptCopies where
  primarySector : List UInt8
  backupSector : List UInt8
  sectors : Nat
  entries : List UInt8

/-- `partition_gpt_commit`, up to the change of the entry: both copies are valid and
hold the same table. -/
def gptLoad (device : Device) (mounted : Bool) (slot : Nat) : DeviceCode GptCopies := do
  guard (device.parent = none ∧ ¬device.logicalBlockSize < 512 ∧
    ¬device.logicalBlockSize > PARTITION_MAX_BLOCK_SIZE ∧
    device.hasFlag BLOCK_DEVICE_FLAG_READ_ONLY = false ∧ mounted = false)
  let primarySector ← readGptHeader device 1
  let primary := gptHeader primarySector
  let backupSector ← readGptHeader device primary.backupLba
  let backup := gptHeader backupSector
  guard (gptLayoutsMatch primary backup ∧ slot < primary.entryCount)
  let entriesBytes := primary.entriesBytes
  let sectors := primary.entriesSectors device.logicalBlockSize % 2 ^ 32
  guard (entriesBytes ≠ 0 ∧ ¬entriesBytes > 128 * 1024)
  let entriesAllocated ← deviceKmalloc (sectors * device.logicalBlockSize)
  let originalAllocated ← deviceKmalloc (sectors * device.logicalBlockSize)
  guard (entriesAllocated ∧ originalAllocated)
  let entries ← deviceRead primary.entriesLba sectors
  let originalEntries ← deviceRead backup.entriesLba sectors
  guard (entries.take entriesBytes = originalEntries.take entriesBytes)
  let crc := crc32 (entries.take entriesBytes)
  guard (crc = primary.entriesCrc32 ∧ crc = backup.entriesCrc32)
  return ⟨primarySector, backupSector, sectors, entries⟩

/-- Write one copy and flush it, up to the first failure. -/
def gptWriteCopy (header : GptHeader) (sectors : Nat) (entries sector : List UInt8) : DeviceProg Bool := do
  if !(← deviceWrite header.entriesLba sectors entries) then return false
  if !(← deviceWrite header.currentLba 1 sector) then return false
  deviceFlush

/-- Write one copy back, whatever fails. -/
def gptRestoreCopy (header : GptHeader) (sectors : Nat) (entries sector : List UInt8) : DeviceProg Unit := do
  let _ ← deviceWrite header.entriesLba sectors entries
  let _ ← deviceWrite header.currentLba 1 sector

/-- The second part of `partition_gpt_commit`: store the changed table, the backup
copy first. -/
def gptStore (copies : GptCopies) (entries : List UInt8) : DeviceProg Bool := do
  let crc := crc32 (entries.take (gptHeader copies.primarySector).entriesBytes)
  let backupSector := gptUpdateHeaderCrc copies.backupSector crc
  let primarySector := gptUpdateHeaderCrc copies.primarySector crc
  let backup := gptHeader backupSector
  let primary := gptHeader primarySector
  if !(← gptWriteCopy backup copies.sectors entries backupSector) then
    gptRestoreCopy backup copies.sectors copies.entries copies.backupSector
    let _ ← deviceFlush
    return false
  if !(← gptWriteCopy primary copies.sectors entries primarySector) then
    gptRestoreCopy primary copies.sectors copies.entries copies.primarySector
    gptRestoreCopy backup copies.sectors copies.entries copies.backupSector
    let _ ← deviceFlush
    return false
  return true

def partitionGptCommit (device : Device) (mounted : Bool) (slot : Nat)
    (operation : GptOperation) : DeviceCode Unit := do
  let copies ← gptLoad device mounted slot
  let entries ← Prog.ofOption
    (gptEdited (gptHeader copies.primarySector) slot operation copies.entries)
  let stored ← gptStore copies entries
  guard stored

def partitionGptCreate (device : Device) (mounted : Bool) (slot : Nat)
    (typeGuid uniqueGuid : Option Guid) (name : Option EntryName) (startLba blockCount : UInt64) :
    DeviceCode Unit :=
  partitionGptCommit device mounted slot (.create typeGuid uniqueGuid name startLba blockCount)

def partitionGptDelete (device : Device) (mounted : Bool) (slot : Nat) : DeviceCode Unit :=
  partitionGptCommit device mounted slot .delete

def partitionGptResize (device : Device) (mounted : Bool) (slot : Nat)
    (startLba blockCount : UInt64) : DeviceCode Unit :=
  partitionGptCommit device mounted slot (.resize startLba blockCount)

end AsasOs.Partition
