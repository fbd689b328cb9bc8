import AsasOs.Partition.Gpt

/-!
# The partition scan

`partition.c`: the reader of MBR tables with their chain of extended boot records, the
reader of GPT tables with its fallback to the backup header, and the registry of the
partitions that were found. A reader only reads; what it finds is then recorded, and each
record is checked against the disk and against the partitions recorded before it, so that
whatever a disk holds, the partitions recorded for it lie inside it and apart.
-/
namespace AsasOs.Partition

open Block Bytes CString

def PARTITION_MAX_PER_DISK : Nat := 16

inductive Scheme where
  | none
  | mbr
  | gpt
  deriving DecidableEq, Repr

/-- `ASAS_PARTITION_TYPE`. -/
inductive KnownType where
  | unknown
  | efiSystem
  | microsoftReserved
  | microsoftBasicData
  | windowsRecovery
  | linuxFilesystem
  | linuxSwap
  deriving DecidableEq, Repr

/-- `ASAS_PARTITION_INFO`, with the registry indices of the two devices. -/
structure PartitionInfo where
  device : Nat
  parent : Nat
  scheme : Scheme
  number : Nat
  type : Nat
  typeGuid : List UInt8
  uniqueGuid : List UInt8
  knownType : KnownType
  typeName : List Char
  label : List UInt8
  uuid : List Char
  startLba : Nat
  blockCount : Nat
  deriving DecidableEq, Repr

/-- The registries of `block_device.c` and `partition.c`. -/
structure Registries where
  devices : List Device
  partitions : List PartitionInfo

/-! ### Names -/

def classifyGptType (guid : List UInt8) : KnownType × List Char :=
  if guid = [0x28, 0x73, 0x2A, 0xC1, 0x1F, 0xF8, 0xD2, 0x11,
      0xBA, 0x4B, 0x00, 0xA0, 0xC9, 0x3E, 0xC9, 0x3B] then (.efiSystem, "EFI System".toList)
  else if guid = [0x16, 0xE3, 0xC9, 0xE3, 0x5C, 0x0B, 0xB8, 0x4D,
      0x81, 0x7D, 0xF9, 0x2D, 0xF0, 0x02, 0x15, 0xAE] then
    (.microsoftReserved, "Microsoft Reserved".toList)
  else if guid = [0xA2, 0xA0, 0xD0, 0xEB, 0xE5, 0xB9, 0x33, 0x44,
      0x87, 0xC0, 0x68, 0xB6, 0xB7, 0x26, 0x99, 0xC7] then
    (.microsoftBasicData, "Microsoft Basic Data".toList)
  else if guid = [0xA4, 0xBB, 0x94, 0xDE, 0xD1, 0x06, 0x40, 0x4D,
      0xA1, 0x6A, 0xBF, 0xD5, 0x01, 0x79, 0xD6, 0xAC] then
    (.windowsRecovery, "Windows Recovery".toList)
  else if guid = [0xAF, 0x3D, 0xC6, 0x0F, 0x83, 0x84, 0x72, 0x47,
      0x8E, 0x79, 0x3D, 0x69, 0xD8, 0x47, 0x7D, 0xE4] then
    (.linuxFilesystem, "Linux Filesystem".toList)
  else if guid = [0x6D, 0xFD, 0x57, 0x06, 0xAB, 0xA4, 0xC4, 0x43,
      0x84, 0xE5, 0x09, 0x33, 0xC8, 0x4B, 0x4F, 0x4F] then (.linuxSwap, "Linux Swap".toList)
  else (.unknown, "Unknown GPT".toList)

/-- The name that `record_partition` gives to the type of an MBR partition. -/
def mbrTypeName (type : Nat) : List Char :=
  if type = 0x07 then "NTFS/exFAT".toList
  else if type = 0x0B ∨ type = 0x0C then "FAT32".toList
  else if type = 0x82 then "Linux Swap".toList
  else if type = 0x83 then "Linux Filesystem".toList
  else "Unknown MBR".toList

def hexDigit (value : Nat) : Char :=
  if value < 10 then Char.ofNat (0x30 + value) else Char.ofNat (0x61 + value - 10)

def guidToString (guid : List UInt8) : List Char :=
  [3, 2, 1, 0, 5, 4, 7, 6, 8, 9, 10, 11, 12, 13, 14, 15].zipIdx.flatMap fun (place, index) =>
    let value := (byteAt guid place).toNat
    (if index = 4 ∨ index = 6 ∨ index = 8 ∨ index = 10 then ['-'] else []) ++
      [hexDigit (value / 16), hexDigit (value % 16)]

/-- The bytes that `utf16_to_utf8` writes for a code point behind `out` others, if they fit. -/
def utf8Bytes (codepoint out : Nat) : List UInt8 :=
  if codepoint < 0x80 ∧ out + 1 < 64 then [UInt8.ofNat codepoint]
  else if codepoint < 0x800 ∧ out + 2 < 64 then
    [UInt8.ofNat (0xC0 ||| (codepoint >>> 6)), UInt8.ofNat (0x80 ||| (codepoint &&& 0x3F))]
  else if codepoint < 0x10000 ∧ out + 3 < 64 then
    [UInt8.ofNat (0xE0 ||| (codepoint >>> 12)), UInt8.ofNat (0x80 ||| ((codepoint >>> 6) &&& 0x3F)),
      UInt8.ofNat (0x80 ||| (codepoint &&& 0x3F))]
  else if codepoint ≤ 0x10FFFF ∧ out + 4 < 64 then
    [UInt8.ofNat (0xF0 ||| (codepoint >>> 18)), UInt8.ofNat (0x80 ||| ((codepoint >>> 12) &&& 0x3F)),
      UInt8.ofNat (0x80 ||| ((codepoint >>> 6) &&& 0x3F)), UInt8.ofNat (0x80 ||| (codepoint &&& 0x3F))]
  else []

/-- `utf16_to_utf8` from a list of units, with what has been written. -/
def utf16ToUtf8 : List Nat → List UInt8 → List UInt8
  | [], output => output
  | [unit], output =>
    if unit = 0 ∨ ¬output.length + 1 < 64 then output else output ++ utf8Bytes unit output.length
  | unit :: low :: rest, output =>
    if unit = 0 ∨ ¬output.length + 1 < 64 then output
    else if 0xD800 ≤ unit ∧ unit ≤ 0xDBFF ∧ 0xDC00 ≤ low ∧ low ≤ 0xDFFF then
      utf16ToUtf8 rest (output ++
        utf8Bytes (0x10000 + ((unit - 0xD800) <<< 10) + (low - 0xDC00)) output.length)
    else utf16ToUtf8 (low :: rest) (output ++ utf8Bytes unit output.length)

def gptLabel (name : List UInt8) : List UInt8 :=
  utf16ToUtf8 ((List.range 36).map fun unit => getLE name (2 * unit) 2) []

def makePartitionName (device : Device) (number : Nat) : CString :=
  let output := device.name.take 15
  let output := if output.length + 2 < 16 then output ++ ['p'] else output
  let output := if 10 ≤ number ∧ output.length + 1 < 16 then
    output ++ [Char.ofNat (0x30 + number / 10 % 10)] else output
  if output.length + 1 < 16 then output ++ [Char.ofNat (0x30 + number % 10)] else output

/-! ### Recording -/

/-- The last of `blockCount` blocks, in 64 bits. -/
def lastBlock (startLba blockCount : Nat) : Nat := (startLba + blockCount + (2 ^ 64 - 1)) % 2 ^ 64

/-- The test by which `partition.c` calls two extents overlapping. -/
def overlap (startLba blockCount otherStart otherCount : Nat) : Bool :=
  startLba ≤ lastBlock otherStart otherCount && otherStart ≤ lastBlock startLba blockCount

/-- Not empty, not at the start of the disk, and inside it if its size is known. -/
def extentRefused (deviceBlocks startLba blockCount : Nat) : Bool :=
  blockCount == 0 || startLba == 0 ||
    (deviceBlocks != 0 && (startLba ≥ deviceBlocks || blockCount > deviceBlocks - startLba))

/-- `block_device_register_partition` on the registry, if there is room. -/
def registerPartition (devices : List Device) (parent startLba blockCount : Nat) (name : CString) :
    Option (List Device) :=
  match blockDeviceRegisterPartition
    { blockDeviceInitialize (fun _ _ _ => 0) with devices := devices }
    parent startLba blockCount name 0 with
  | (s, some _) => some s.devices
  | (_, none) => none

/-- What is to be recorded: a candidate of one of the readers. -/
structure Candidate where
  scheme : Scheme
  number : Nat
  type : Nat
  typeGuid : List UInt8
  uniqueGuid : List UInt8
  name : List UInt8
  startLba : Nat
  blockCount : Nat
  deriving DecidableEq, Repr

/-- The entry that `record_partition` makes for a candidate. -/
def partitionInfo (device parent : Nat) (candidate : Candidate) : PartitionInfo where
  device := device
  parent := parent
  scheme := candidate.scheme
  number := candidate.number
  type := candidate.type
  typeGuid := candidate.typeGuid
  uniqueGuid := candidate.uniqueGuid
  knownType := match candidate.scheme with
    | .gpt => (classifyGptType candidate.typeGuid).1
    | _ => .unknown
  typeName := match candidate.scheme with
    | .gpt => (classifyGptType candidate.typeGuid).2
    | _ => mbrTypeName candidate.type
  label := match candidate.scheme with
    | .gpt => gptLabel candidate.name
    | _ => []
  uuid := match candidate.scheme with
    | .gpt => guidToString candidate.uniqueGuid
    | _ => []
  startLba := candidate.startLba
  blockCount := candidate.blockCount

/-- `record_partition`, for a disk of the registry. -/
def recordPartition (parent : Nat) (disk : Device) (candidate : Candidate) (s : Registries) :
    Option Registries :=
  if s.partitions.length ≥ BLOCK_DEVICE_MAX_COUNT ∨
      extentRefused disk.blockCount candidate.startLba candidate.blockCount then none
  else if s.partitions.any fun existing => existing.parent == parent &&
      overlap candidate.startLba candidate.blockCount existing.startLba existing.blockCount then
    none
  else
    match registerPartition s.devices parent candidate.startLba candidate.blockCount
      (makePartitionName disk candidate.number) with
    | none => none
    | some devices =>
      some ⟨devices, s.partitions ++ [partitionInfo s.devices.length parent candidate]⟩

/-- Record the candidates up to the first that is refused: their number if there is none. -/
def recordAll (parent : Nat) (disk : Device) : List Candidate → Registries → Bool × Registries
  | [], s => (true, s)
  | candidate :: rest, s =>
    match recordPartition parent disk candidate s with
    | none => (false, s)
    | some s => recordAll parent disk rest s

/-! ### The GPT reader -/

/-- The sector of the entry array with index `sectorIndex`, read unless it is the one that
was read last. -/
def gptEntrySector (header : GptHeader) (sectorIndex currentSector : Nat)
    (entrySector : List UInt8) : DeviceCode (List UInt8) :=
  if sectorIndex ≠ currentSector then deviceRead ((header.entriesLba + sectorIndex) % 2 ^ 64) 1
  else return entrySector

/-- The loop of `scan_gpt_at` over the entries: the CRC of what was read and the
candidates. -/
def gptCandidates (disk : Device) (header : GptHeader) :
    Nat → Nat → Nat → List UInt8 → UInt32 → List Candidate → DeviceCode (UInt32 × List Candidate)
  | 0, _, _, _, crc, candidates => return (crc, candidates)
  | left + 1, index, currentSector, entrySector, crc, candidates => do
    let byteOffset := index * header.entrySize
    let sectorIndex := byteOffset / disk.logicalBlockSize % 2 ^ 32
    let offset := byteOffset % disk.logicalBlockSize
    let entrySector ← gptEntrySector header sectorIndex currentSector entrySector
    guard (¬offset + header.entrySize > disk.logicalBlockSize)
    let crc := crc32Update crc (slice entrySector offset header.entrySize)
    let entry := gptEntry entrySector offset
    if guidIsZero entry.typeGuid then
      gptCandidates disk header left (index + 1) sectorIndex entrySector crc candidates
    else do
      guard (¬(candidates.length ≥ PARTITION_MAX_PER_DISK ∨
        entry.firstLba < header.firstUsableLba ∨ entry.lastLba > header.lastUsableLba ∨
        entry.lastLba < entry.firstLba))
      guard (¬candidates.any fun candidate =>
        entry.firstLba ≤ lastBlock candidate.startLba candidate.blockCount &&
          candidate.startLba ≤ entry.lastLba)
      gptCandidates disk header left (index + 1) sectorIndex entrySector crc (candidates ++
        [{ scheme := .gpt, number := index + 1, type := 0, typeGuid := entry.typeGuid
           uniqueGuid := slice entrySector (offset + 16) 16
           name := slice entrySector (offset + 56) 72
           startLba := entry.firstLba
           blockCount := (entry.lastLba - entry.firstLba + 1) % 2 ^ 64 }])

/-- `scan_gpt_at`, up to the recording. -/
def gptTableAt (disk : Device) (headerLba : Nat) : DeviceCode (List Candidate) := do
  let sector ← readGptHeader disk headerLba
  let header := gptHeader sector
  let (crc, candidates) ←
    gptCandidates disk header header.entryCount 0 0xFFFFFFFF [] 0xFFFFFFFF []
  guard ((crc ^^^ 0xFFFFFFFF).toNat = header.entriesCrc32)
  return candidates

/-- Record what a reader has found, if it has found a table. -/
def recordTable (parent : Nat) (disk : Device) (found : Option (List Candidate)) (s : Registries) :
    Nat × Registries :=
  match found with
  | none => (0, s)
  | some candidates =>
    match recordAll parent disk candidates s with
    | (true, s) => (candidates.length, s)
    | (false, s) => (0, s)

def scanGpt (parent : Nat) (disk : Device) (s : Registries) : DeviceProg (Nat × Registries) := do
  let primary ← (gptTableAt disk 1).run
  let result := recordTable parent disk primary s
  if result.1 ≠ 0 ∨ disk.blockCount < 2 then return result
  else do
    let backup ← (gptTableAt disk (disk.blockCount - 1)).run
    return recordTable parent disk backup result.2

/-! ### The MBR reader -/

/-- `MBR_PARTITION_ENTRY`, as far as it is read. -/
structure MbrEntry where
  type : Nat
  firstLba : Nat
  sectorCount : Nat
  deriving DecidableEq, Repr

def mbrEntry (sector : List UInt8) (index : Nat) : MbrEntry where
  type := getLE sector (446 + 16 * index + 4) 1
  firstLba := getLE sector (446 + 16 * index + 8) 4
  sectorCount := getLE sector (446 + 16 * index + 12) 4

def mbrTypeIsExtended (type : Nat) : Bool := type == 0x05 || type == 0x0F || type == 0x85

def bootSignature (sector : List UInt8) : Bool :=
  byteAt sector 510 == 0x55 && byteAt sector 511 == 0xAA

def mbrCandidateAdd (candidates : List Candidate) (number type startLba blockCount
    deviceBlocks : Nat) : Option (List Candidate) :=
  if candidates.length ≥ PARTITION_MAX_PER_DISK ∨ extentRefused deviceBlocks startLba blockCount then
    none
  else if candidates.any fun candidate =>
      overlap startLba blockCount candidate.startLba candidate.blockCount then none
  else some (candidates ++
    [{ scheme := .mbr, number := number, type := type, typeGuid := List.replicate 16 0
       uniqueGuid := List.replicate 16 0, name := [], startLba := startLba
       blockCount := blockCount }])

/-- The loop of `scan_mbr` over the four primary entries: the candidates, and where the
extended partition lies. -/
def mbrPrimaries (disk : Device) (sector : List UInt8) :
    List Nat → List Candidate → Nat × Nat → Option (List Candidate × Nat × Nat)
  | [], candidates, extended => some (candidates, extended)
  | index :: rest, candidates, extended =>
    let entry := mbrEntry sector index
    if entry.type = 0 ∨ entry.sectorCount = 0 ∨ entry.type = 0xEE then
      mbrPrimaries disk sector rest candidates extended
    else if mbrTypeIsExtended entry.type then
      if extended.1 ≠ 0 ∨ extentRefused disk.blockCount entry.firstLba entry.sectorCount then none
      else mbrPrimaries disk sector rest candidates (entry.firstLba, entry.sectorCount)
    else
      match mbrCandidateAdd candidates (index + 1) entry.type entry.firstLba entry.sectorCount
        disk.blockCount with
      | none => none
      | some candidates => mbrPrimaries disk sector rest candidates extended

/-- The loop of `scan_mbr` over the chain of extended boot records. The first argument is
the number of records that may still be visited. -/
def mbrLogicals (disk : Device) (base last : Nat) :
    Nat → Nat → Nat → List Nat → List Candidate → DeviceCode (List Candidate)
  | 0, ebrLba, _, _, candidates => if ebrLba = 0 then return candidates else failure
  | left + 1, ebrLba, number, visited, candidates =>
    if ebrLba = 0 then return candidates
    else do
      guard (¬(ebrLba < base ∨ ebrLba > last))
      let sector ← deviceRead ebrLba 1
      guard (bootSignature sector)
      guard (ebrLba ∉ visited)
      let logical := mbrEntry sector 0
      let link := mbrEntry sector 1
      guard (¬(logical.type = 0 ∨ logical.sectorCount = 0 ∨ mbrTypeIsExtended logical.type))
      let start := (ebrLba + logical.firstLba) % 2 ^ 64
      guard (¬(start < base ∨ start > last ∨ logical.sectorCount > (last - start + 1) % 2 ^ 64))
      let candidates ← Prog.ofOption
        (mbrCandidateAdd candidates number logical.type start logical.sectorCount disk.blockCount)
      if link.type ≠ 0 ∨ link.sectorCount ≠ 0 then do
        guard (mbrTypeIsExtended link.type ∧ link.firstLba ≠ 0)
        let next := (base + link.firstLba) % 2 ^ 64
        guard (¬(next < base ∨ next > last))
        mbrLogicals disk base last left next (number + 1) (visited ++ [ebrLba]) candidates
      else mbrLogicals disk base last left 0 (number + 1) (visited ++ [ebrLba]) candidates

/-- `scan_mbr`, up to the recording. -/
def mbrTable (disk : Device) (sector : List UInt8) : DeviceCode (List Candidate) := do
  let (candidates, base, count) ← Prog.ofOption (mbrPrimaries disk sector [0, 1, 2, 3] [] (0, 0))
  if base = 0 then return candidates
  else do
    let last := lastBlock base count
    guard (¬candidates.any fun candidate =>
      base ≤ lastBlock candidate.startLba candidate.blockCount && candidate.startLba ≤ last)
    mbrLogicals disk base last PARTITION_MAX_PER_DISK base 5 [] candidates

/-- `partition_scan_device` for the device with index `parent`. -/
def partitionScanDevice (parent : Nat) (s : Registries) : DeviceProg (Nat × Registries) :=
  match s.devices[parent]? with
  | none => return (0, s)
  | some disk =>
    if disk.parent ≠ none ∨ disk.logicalBlockSize < 512 ∨
        disk.logicalBlockSize > PARTITION_MAX_BLOCK_SIZE then return (0, s)
    else do
      match ← (deviceRead 0 1).run with
      | none => return (0, s)
      | some sector =>
        if !bootSignature sector then return (0, s)
        else if [0, 1, 2, 3].any fun index => (mbrEntry sector index).type == 0xEE then
          scanGpt parent disk s
        else do
          let found ← (mbrTable disk sector).run
          return recordTable parent disk found s

end AsasOs.Partition
