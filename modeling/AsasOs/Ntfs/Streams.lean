import AsasOs.Lib.Attempts
import AsasOs.Ntfs.Device
import AsasOs.Ntfs.RunLists

/-!
# NTFS: MFT records and attribute streams

An MFT record is read into the one buffer of the context. A stream is put together from
the extents of an attribute: there is one in the record, or the attribute list of the
record names the records in which they are, in the order of their clusters. The value of
a resident attribute is not copied: the stream points into the buffer.

## Model

- A pointer into the buffer is a position in it.
- Memory can always be allocated.
-/
namespace AsasOs.Ntfs

open Bytes Packed Attempts

/-! ### The state -/

/-- `NTFS_CONTEXT` of a mounted volume, as far as it does not change. -/
structure NtfsVolume extends MftContext where
  mftRuns : List NtfsRun
  mftMirrorLcn : Nat
  mftDataSize : Nat
  totalSectors : Nat

/-- What changes: the disk, and `mft_buf`. -/
structure NtfsMachine where
  disk : NtfsDisk
  mftBuf : Memory

abbrev NtfsCode (α : Type) := Attempt NtfsMachine α

abbrev runNtfs {α : Type} (code : NtfsCode α) (m : NtfsMachine) :
    Option α × NtfsMachine := attempt code m

def readSector (context : NtfsContext) (lba : Nat) : NtfsCode Memory := do
  let m ← state
  need (ntfsReadSector context m.disk lba)

/-- `mft_buf` -/
def mftBuffer : NtfsCode Memory := do
  let m ← state
  pure m.mftBuf

def setMftBuffer (mftBuf : Memory) : NtfsCode Unit := change fun m => { m with mftBuf := mftBuf }

/-- `if (!condition) return 0;` -/
def check (condition : Prop) [Decidable condition] : NtfsCode Unit := if condition then pure () else failure

/-! ### Reading an MFT record -/

def validateLoadedFileRecord (volume : NtfsVolume) : NtfsCode Unit := do
  let buffer ← mftBuffer
  let applied ← need (applyFixup buffer volume.mftRecordSize volume.bytesPerSector)
  setMftBuffer applied
  check (window applied 0 4 = [0x46, 0x49, 0x4C, 0x45])

/-- The loop of `read_mft_mirror_record`. -/
def readMirrorSectors (volume : NtfsVolume) : Nat → Nat → Nat → NtfsCode Unit
  | 0, _, _ => pure ()
  | steps + 1, physicalByte, read =>
    if read < volume.mftRecordSize then do
      let lba := physicalByte / volume.bytesPerSector
      let offset := physicalByte % volume.bytesPerSector
      let chunk := min (volume.mftRecordSize - read) (volume.bytesPerSector - offset)
      let sector ← readSector volume.toNtfsContext lba
      let buffer ← mftBuffer
      setMftBuffer (patch buffer read (window sector offset chunk))
      readMirrorSectors volume steps ((physicalByte + chunk) % 2 ^ 64) (read + chunk)
    else pure ()

def readMftMirrorRecord (volume : NtfsVolume) (recordN : Nat) : NtfsCode Unit := do
  check ¬(recordN ≥ 4 ∨ volume.mftMirrorLcn = 0)
  let physicalByte := (volume.mftMirrorLcn * volume.bytesPerCluster + recordN * volume.mftRecordSize) % 2 ^ 64
  readMirrorSectors volume volume.mftRecordSize physicalByte 0
  validateLoadedFileRecord volume

/-- The loop of `read_mft_record` over the sectors of a run. -/
def readMftSectors (volume : NtfsVolume) (run : NtfsRun) (runBytes : Nat) : Nat → Nat → Nat →
    NtfsCode Nat
  | 0, _, readSoFar => pure readSoFar
  | steps + 1, byteOffset, readSoFar =>
    if byteOffset < runBytes ∧ readSoFar < volume.mftRecordSize then do
      let physicalByte := (run.lcn * volume.bytesPerCluster + byteOffset) % 2 ^ 64
      let lba := physicalByte / volume.bytesPerSector
      let offset := physicalByte % volume.bytesPerSector
      let chunk := min (min (volume.mftRecordSize - readSoFar) (volume.bytesPerSector - offset))
        (runBytes - byteOffset)
      let sector ← readSector volume.toNtfsContext lba
      let buffer ← mftBuffer
      setMftBuffer (patch buffer readSoFar (window sector offset chunk))
      readMftSectors volume run runBytes steps (byteOffset + chunk) (readSoFar + chunk)
    else pure readSoFar

/-- The loop of `read_mft_record` over the runs. -/
def readMftRuns (volume : NtfsVolume) : List NtfsRun → Nat → Nat → NtfsCode Nat
  | [], _, readSoFar => pure readSoFar
  | run :: runs, byteOffset, readSoFar =>
    if readSoFar < volume.mftRecordSize then
      let runBytes := run.len * volume.bytesPerCluster % 2 ^ 64
      if byteOffset ≥ runBytes then readMftRuns volume runs (byteOffset - runBytes) readSoFar
      else if run.sparse then failure
      else do
        let readSoFar ← readMftSectors volume run runBytes volume.mftRecordSize byteOffset readSoFar
        readMftRuns volume runs 0 readSoFar
    else pure readSoFar

/-- What `read_mft_record` does before it turns to the mirror. -/
def readPrimaryRecord (volume : NtfsVolume) (recordN : Nat) : NtfsCode Unit := do
  let readSoFar ← readMftRuns volume volume.mftRuns (recordN * volume.mftRecordSize % 2 ^ 64) 0
  check ¬readSoFar < volume.mftRecordSize
  validateLoadedFileRecord volume

def readMftRecord (volume : NtfsVolume) (recordN : Nat) : NtfsCode Unit :=
  readPrimaryRecord volume recordN <|> readMftMirrorRecord volume recordN

/-! ### Extents -/

/-- `NTFS_ATTR_VIEW` of an attribute that was found. -/
structure AttrView where
  value : Nat
  valueLength : Nat
  runlist : Nat
  runlistLength : Nat
  lowestVcn : Nat
  highestVcn : Nat
  allocatedSize : Nat
  dataSize : Nat
  initializedSize : Nat
  flags : Nat
  id : Nat
  compressionUnit : Nat
  nonResident : Bool
  deriving DecidableEq, Repr

def attributeFlags (mft : Memory) (position : Nat) : Nat := wordAt mft (position + 12) 2

def attributeId (mft : Memory) (position : Nat) : Nat := wordAt mft (position + 14) 2

def runlistOffset (mft : Memory) (position : Nat) : Nat := wordAt mft (position + 32) 2

def residentView (mft : Memory) (position : Nat) : AttrView where
  value := position + valueOffset mft position
  valueLength := valueLength mft position
  runlist := 0
  runlistLength := 0
  lowestVcn := 0
  highestVcn := 0
  allocatedSize := 0
  dataSize := valueLength mft position
  initializedSize := 0
  flags := attributeFlags mft position
  id := attributeId mft position
  compressionUnit := 0
  nonResident := false

def nonresidentView (mft : Memory) (position : Nat) : AttrView where
  value := 0
  valueLength := 0
  runlist := position + runlistOffset mft position
  runlistLength := attributeLength mft position - runlistOffset mft position
  lowestVcn := wordAt mft (position + 16) 8
  highestVcn := wordAt mft (position + 24) 8
  allocatedSize := wordAt mft (position + 40) 8
  dataSize := wordAt mft (position + 48) 8
  initializedSize := wordAt mft (position + 56) 8
  flags := attributeFlags mft position
  id := attributeId mft position
  compressionUnit := wordAt mft (position + 34) 2
  nonResident := true

/-- What `find_loaded_attribute` looks for. -/
structure Wanted where
  type : Nat
  /-- the identifier and the first VCN, where they matter -/
  identity : Option (Nat × Nat)
  unnamedOnly : Bool

/-- The body of the loop of `find_loaded_attribute`. -/
def loadedBody (wanted : Wanted) (mft : Memory) (position : Nat) (_ : Option AttrView) :
    Option (Step (Option AttrView)) :=
  if attributeType mft position == ATTR_END then some (.stop none)
  else if attributeType mft position == wanted.type && (!wanted.unnamedOnly || mft (position + 9) == 0) then
    if nonResident mft position && attributeLength mft position < 16 + 48 then none
    else
      let attributeVcn := if nonResident mft position then wordAt mft (position + 16) 8 else 0
      if wanted.identity.all fun identity => attributeId mft position == identity.1 && attributeVcn == identity.2 then
        if nonResident mft position then
          if runlistOffset mft position ≥ attributeLength mft position then none
          else some (.stop (some (nonresidentView mft position)))
        else if residentValid mft position then some (.stop (some (residentView mft position)))
        else none
      else some (.next none)
  else some (.next none)

def findLoadedAttribute (volume : NtfsVolume) (wanted : Wanted) (mft : Memory) : Option AttrView :=
  if usedSize mft > recordAllocSize mft || recordAllocSize mft > volume.mftRecordSize || attrOffset mft < 48 ||
      attrOffset mft > usedSize mft then none
  else (visit attributeFormat mft (usedSize mft) (loadedBody wanted mft) (attrOffset mft) none).join

/-- `NTFS_STREAM` -/
structure AttributeStream extends NtfsStream where
  initializedSize : Nat
  nextVcn : Nat
  residentValue : Nat
  residentLength : Nat
  flags : Nat
  compressionUnit : Nat
  resident : Bool
  found : Bool
  deriving DecidableEq

def emptyStream : AttributeStream := ⟨⟨[], 0, 0⟩, 0, 0, 0, 0, 0, 0, false, false⟩

/-- `append_stream_extent`: the view is one of the record in `mft`. -/
def appendStreamExtent (stream : AttributeStream) (view : AttrView) (mft : Memory) :
    Option AttributeStream :=
  if !view.nonResident then
    if stream.found || view.lowestVcn != 0 then none
    else
      some { stream with
        resident := true, residentValue := view.value, residentLength := view.valueLength,
        dataSize := view.valueLength, flags := view.flags, found := true }
  else if stream.resident || view.highestVcn < view.lowestVcn || view.lowestVcn != stream.nextVcn ||
      stream.runs.length ≥ NTFS_MAX_STREAM_RUNS then none
  else
    let decoded := decodeRunlist (window mft view.runlist view.runlistLength)
      (NTFS_MAX_STREAM_RUNS - stream.runs.length)
    if decoded.isEmpty then none
    else if (decoded.map NtfsRun.len).sum % 2 ^ 64 ≠ (view.highestVcn - view.lowestVcn + 1) % 2 ^ 64 then none
    else
      let grown := { stream with
        runs := stream.runs ++ decoded, nextVcn := (view.highestVcn + 1) % 2 ^ 64, found := true }
      if !stream.found then
        some { grown with
          flags := view.flags, compressionUnit := view.compressionUnit, allocatedSize := view.allocatedSize,
          dataSize := view.dataSize, initializedSize := view.initializedSize }
      else if stream.flags ≠ view.flags ∨ stream.compressionUnit ≠ view.compressionUnit then none
      else some grown

/-- `find_loaded_attribute` and `append_stream_extent`. -/
def appendLoaded (volume : NtfsVolume) (wanted : Wanted) (stream : AttributeStream) : NtfsCode AttributeStream := do
  let mft ← mftBuffer
  let view ← need (findLoadedAttribute volume wanted mft)
  need (appendStreamExtent stream view mft)

/-! ### Attribute lists -/

def NTFS_MAX_ATTRIBUTE_LIST_SIZE : Nat := 1024 * 1024

/-- `NTFS_ATTRIBUTE_LIST_ENTRY` -/
structure ListEntry where
  type : Nat
  length : Nat
  nameLength : UInt8
  lowestVcn : Nat
  fileReference : Nat
  attributeId : Nat

def listEntryAt (list : List UInt8) (offset : Nat) : ListEntry where
  type := getLE list offset 4
  length := getLE list (offset + 4) 2
  nameLength := byteAt list (offset + 6)
  lowestVcn := getLE list (offset + 8) 8
  fileReference := getLE list (offset + 16) 8
  attributeId := getLE list (offset + 24) 2

def ListEntry.owner (entry : ListEntry) : Nat := entry.fileReference % 2 ^ 48

def ListEntry.identity (entry : ListEntry) : Nat × Nat := (entry.attributeId, entry.lowestVcn)

/-- How much of a nonresident attribute list its clusters hold. -/
def listAvailable (volume : NtfsVolume) (stream : AttributeStream) (dataSize : Nat) : Nat :=
  let available := stream.nextVcn * volume.bytesPerCluster % 2 ^ 64
  if available > dataSize then dataSize else available

/-- `read_from_runs` of a whole attribute list. -/
def readList (volume : NtfsVolume) (stream : AttributeStream) (available : Nat) : NtfsCode (List UInt8) := do
  let m ← state
  let list := readFromRuns volume.toNtfsContext m.disk stream.runs available 0 available
  check (list.length = available)
  pure list

/-- The loop of `load_attribute_list` that looks for further extents of the list in the list. -/
def expandList (volume : NtfsVolume) (dataSize : Nat) :
    Nat → Nat → AttributeStream → List UInt8 → NtfsCode (List UInt8)
  | 0, _, _, list => pure list
  | steps + 1, offset, stream, list =>
    if offset + 26 ≤ list.length then
      let entry := listEntryAt list offset
      if entry.length < 26 ∨ entry.length > list.length - offset then pure list
      else if entry.type = ATTR_ATTRIBUTE_LIST ∧ entry.nameLength = 0 ∧ entry.lowestVcn = stream.nextVcn then do
        readMftRecord volume entry.owner
        let stream ← appendLoaded volume ⟨ATTR_ATTRIBUTE_LIST, some entry.identity, true⟩ stream
        let expanded := listAvailable volume stream dataSize
        check ¬expanded ≤ list.length
        let list ← readList volume stream expanded
        expandList volume dataSize steps (offset + entry.length) stream list
      else expandList volume dataSize steps (offset + entry.length) stream list
    else pure list

/-- `load_attribute_list`: the attribute list of the loaded record, if it has one. A failure is -1. -/
def loadAttributeList (volume : NtfsVolume) : NtfsCode (Option (List UInt8)) := do
  let mft ← mftBuffer
  match findLoadedAttribute volume ⟨ATTR_ATTRIBUTE_LIST, none, true⟩ mft with
  | none => pure none
  | some view =>
    check ¬(view.dataSize = 0 ∨ view.dataSize > NTFS_MAX_ATTRIBUTE_LIST_SIZE)
    if !view.nonResident then pure (some (window mft view.value view.valueLength))
    else do
      let stream ← need (appendStreamExtent emptyStream view mft)
      let list ← readList volume stream (listAvailable volume stream view.dataSize)
      let list ← expandList volume view.dataSize (NTFS_MAX_ATTRIBUTE_LIST_SIZE + 1) 0 stream list
      check ¬list.length < view.dataSize
      pure (some list)

/-! ### Collecting a stream -/

structure StreamName where
  baseRecord : Nat
  type : Nat
  unnamedOnly : Bool

/-- The loop of `collect_attribute_stream` over the attribute list. -/
def collectEntries (volume : NtfsVolume) (name : StreamName) (list : List UInt8) :
    Nat → Nat → AttributeStream → NtfsCode AttributeStream
  | 0, _, stream => pure stream
  | steps + 1, offset, stream =>
    if offset + 26 ≤ list.length then
      let entry := listEntryAt list offset
      if entry.length < 26 ∨ entry.length > list.length - offset then failure
      else if entry.type = name.type ∧ (name.unnamedOnly = false ∨ entry.nameLength = 0) then do
        readMftRecord volume entry.owner
        let stream ← appendLoaded volume ⟨name.type, some entry.identity, name.unnamedOnly⟩ stream
        collectEntries volume name list steps (offset + entry.length) stream
      else collectEntries volume name list steps (offset + entry.length) stream
    else pure stream

def collectAttributeStream (volume : NtfsVolume) (name : StreamName) : NtfsCode AttributeStream := do
  readMftRecord volume name.baseRecord
  let list ← loadAttributeList volume
  match list with
  | none => appendLoaded volume ⟨name.type, none, name.unnamedOnly⟩ emptyStream
  | some list => do
    let stream ← collectEntries volume name list (list.length + 1) 0 emptyStream
    if stream.found then pure stream
    else do
      readMftRecord volume name.baseRecord
      appendLoaded volume ⟨name.type, none, name.unnamedOnly⟩ stream

end AsasOs.Ntfs
