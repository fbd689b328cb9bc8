import AsasOs.Lib.Checked
import AsasOs.Ntfs.Streams

/-!
# NTFS: mounting a volume

The boot sector gives the sizes, the MFT record 0 (or its copy in the mirror) the runs of
the MFT, and the volume record says whether the volume may be written. Here every access
to a buffer is checked against the size of the buffer, and every loop may run out of
steps.

## Model

- `ntfs_read_sector` leaves any bytes in a buffer of `NTFS_MAX_SECTOR_SIZE` bytes, so that a
  device with smaller sectors is covered.
- `ntfs_load_upcase_table` is not looked into: it is any function of `mft_buf`, which it may change.
- The loops are given one number of steps each.
-/
namespace AsasOs.Ntfs.Mount

open Bytes Checked

def MFT_BUF_SIZE : Nat := 4096
def NTFS_MAX_SECTOR_SIZE : Nat := 4096
def MAX_RUNS : Nat := 128
def ATTR_VOLUME_INFORMATION : Nat := 0x70

/-- `context->device`, or the disk without one. -/
structure NtfsDevice where
  logicalBlockSize : Option Nat
  readOnly : Bool
  sector : Nat → Option Memory
  writable : Nat → Bool
  flushes : Bool

def peek (size : Nat) (buffer : Memory) (position width : Nat) : Run Nat := do
  access size position width
  pure (wordAt buffer position width)

def poke (size : Nat) (buffer : Memory) (position : Nat) (data : List UInt8) : Run Memory := do
  access size position data.length
  pure (patch buffer position data)

/-- `ntfs_copy` out of a buffer of a size. -/
def copied (size : Nat) (source : Memory) (position count : Nat) : Run (List UInt8) := do
  access size position count
  pure (window source position count)

/-! ### The boot sector -/

structure NtfsBoot extends Geometry where
  totalSectors : Nat
  mftLcn : Nat
  mftMirrorLcn : Nat
  clustersPerFileRecord : Int

def NtfsBoot.recordSize (boot : NtfsBoot) :
    Nat := boot.toGeometry.mftRecordSize boot.clustersPerFileRecord

/-- `(INT8)` -/
def signedByte (byte : Nat) : Int := if byte < 128 then byte else (byte : Int) - 256

def sizesAccepted (device : NtfsDevice) (boot : NtfsBoot) : Bool :=
  (boot.bytesPerSector == 512 || boot.bytesPerSector == 1024 || boot.bytesPerSector == 2048 ||
      boot.bytesPerSector == 4096) &&
    device.logicalBlockSize.all (· == boot.bytesPerSector) && boot.sectorsPerCluster != 0 &&
    !(boot.recordSize == 0 || boot.recordSize > MFT_BUF_SIZE) &&
    !(boot.indexRecordSize == 0 || boot.indexRecordSize > MFT_BUF_SIZE)

def readBoot (device : NtfsDevice) : Run NtfsBoot := do
  let bootSec ← supplied (device.sector 0)
  let bytesPerSector ← peek NTFS_MAX_SECTOR_SIZE bootSec 11 2
  let sectorsPerCluster ← peek NTFS_MAX_SECTOR_SIZE bootSec 13 1
  let totalSectors ← peek NTFS_MAX_SECTOR_SIZE bootSec 40 8
  let mftLcn ← peek NTFS_MAX_SECTOR_SIZE bootSec 48 8
  let mftMirrorLcn ← peek NTFS_MAX_SECTOR_SIZE bootSec 56 8
  let clustersPerFileRecord ← peek NTFS_MAX_SECTOR_SIZE bootSec 64 1
  let clustersPerIndexRecord ← peek NTFS_MAX_SECTOR_SIZE bootSec 68 1
  let boot : NtfsBoot := {
    bytesPerSector, sectorsPerCluster, totalSectors, mftLcn, mftMirrorLcn,
    clustersPerIndexRecord := signedByte clustersPerIndexRecord,
    clustersPerFileRecord := signedByte clustersPerFileRecord }
  demand (sizesAccepted device boot)
  pure boot

/-! ### Update sequences -/

def checkedFixup (record : Memory) (recordSize sectorSize : Nat) : Run (Nat × Nat) := do
  demand ¬(recordSize < 8 ∨ sectorSize < 512 ∨ sectorSize > NTFS_MAX_SECTOR_SIZE ∨ recordSize % sectorSize ≠ 0)
  let sectorCount := recordSize / sectorSize
  let fixupOffset ← peek MFT_BUF_SIZE record 4 2
  let fixupCount ← peek MFT_BUF_SIZE record 6 2
  demand ¬(fixupOffset < 8 ∨ fixupOffset % 2 ≠ 0 ∨ fixupCount ≠ sectorCount + 1 ∨
    fixupOffset + fixupCount * 2 > recordSize)
  pure (sectorCount, fixupOffset)

def applyFixup (record : Memory) (recordSize sectorSize : Nat) : Run Memory := do
  let (sectorCount, fixupOffset) ← checkedFixup record recordSize sectorSize
  let check ← peek MFT_BUF_SIZE record fixupOffset 2
  (List.range sectorCount).forM fun i => do
    let word ← peek MFT_BUF_SIZE record (tailAt sectorSize (i + 1)) 2
    demand (word = check)
  (List.range sectorCount).foldlM (fun record i => do
    let saved ← peek MFT_BUF_SIZE record (fixupOffset + 2 * (i + 1)) 2
    poke MFT_BUF_SIZE record (tailAt sectorSize (i + 1)) (digits 2 saved)) record

def protectFixup (record : Memory) (recordSize sectorSize : Nat) : Run Memory := do
  let (sectorCount, fixupOffset) ← checkedFixup record recordSize sectorSize
  let number ← peek MFT_BUF_SIZE record fixupOffset 2
  let sequence := nextSequence number
  let record ← poke MFT_BUF_SIZE record fixupOffset (digits 2 sequence)
  (List.range sectorCount).foldlM (fun record i => do
    let saved ← peek MFT_BUF_SIZE record (tailAt sectorSize (i + 1)) 2
    let record ← poke MFT_BUF_SIZE record (fixupOffset + 2 * (i + 1)) (digits 2 saved)
    poke MFT_BUF_SIZE record (tailAt sectorSize (i + 1)) (digits 2 sequence)) record

/-! ### MFT record 0 -/

/-- The loop of `ntfs_initialize_context` that reads the MFT record 0, or its copy. -/
def readZero (device : NtfsDevice) (boot : NtfsBoot) (mftLba : Nat) (mft : Memory) : Run Memory :=
  let secCount := (boot.recordSize + boot.bytesPerSector - 1) / boot.bytesPerSector
  (List.range secCount).foldlM (fun mft i => do
    let sec ← supplied (device.sector ((mftLba + i) % 2 ^ 64))
    let chunk ← copied NTFS_MAX_SECTOR_SIZE sec 0 (min (boot.recordSize - i * boot.bytesPerSector) boot.bytesPerSector)
    poke MFT_BUF_SIZE mft (i * boot.bytesPerSector) chunk) mft

def isFile (mft : Memory) : Bool := window mft 0 4 == [0x46, 0x49, 0x4C, 0x45]

/-- The two tests of a record that was read, and the buffer behind them. -/
def validated (mft : Memory) (recordSize sectorSize : Nat) : Run (Bool × Memory) :=
  match applyFixup mft recordSize sectorSize with
  | .error .refused => pure (false, mft)
  | .error stop => .error stop
  | .ok mft => do
    let _ ← copied MFT_BUF_SIZE mft 0 4
    pure (isFile mft, mft)

/-- The MFT record 0, with its fixups applied. -/
def loadZero (device : NtfsDevice) (boot : NtfsBoot) (mft : Memory) : Run Memory := do
  let mft ← readZero device boot (boot.mftLcn * boot.sectorsPerCluster % 2 ^ 64) mft
  let (valid, mft) ← validated mft boot.recordSize boot.bytesPerSector
  if valid then pure mft
  else do
    let mft ← readZero device boot (boot.mftMirrorLcn * boot.sectorsPerCluster % 2 ^ 64) mft
    let (valid, mft) ← validated mft boot.recordSize boot.bytesPerSector
    demand (valid = true)
    pure mft

/-- The data attribute that was found: where its run list lies, and how long the data are. -/
structure FoundData where
  runlist : Nat
  runlistLen : Nat
  dataSize : Nat

/-- The body of the walk of `ntfs_initialize_context` over the attributes of the MFT record 0. -/
def zeroBody (mft : Memory) (off : Nat) : Run (Nat ⊕ Option FoundData) := do
  let used ← peek MFT_BUF_SIZE mft 24 4
  if off + 16 ≤ used then do
    let type ← peek MFT_BUF_SIZE mft off 4
    if type = ATTR_END then pure (.inr none)
    else do
      let length ← peek MFT_BUF_SIZE mft (off + 4) 4
      if length = 0 then pure (.inr none)
      else if type = ATTR_DATA then do
        let nonResident ← peek MFT_BUF_SIZE mft (off + 8) 1
        if nonResident ≠ 0 then do
          let runlistOffset ← peek MFT_BUF_SIZE mft (off + 32) 2
          let dataSize ← peek MFT_BUF_SIZE mft (off + 48) 8
          pure (.inr (some ⟨off + runlistOffset, sub32 length runlistOffset, dataSize⟩))
        else pure (.inl ((off + length) % 2 ^ 32))
      else pure (.inl ((off + length) % 2 ^ 32))
  else pure (.inr none)

/-! ### Run lists -/

/-- The variables of `decode_runlist`. -/
structure RunCursor where
  cursor : Nat
  currentLcn : Nat
  runs : List NtfsRun

/-- The body of the loop of `decode_runlist`; no run is its failure. -/
def runBody (mft : Memory) (stop : Nat) (s : RunCursor) : Run (RunCursor ⊕ List NtfsRun) :=
  if s.cursor < stop then do
    let header ← peek MFT_BUF_SIZE mft s.cursor 1
    if header = 0 then pure (.inr s.runs)
    else if s.runs.length < MAX_RUNS then
      let lenSize := header &&& 15
      let offSize := header >>> 4
      if lenSize = 0 ∨ lenSize > 8 ∨ offSize > 8 ∨ stop - (s.cursor + 1) < lenSize + offSize then pure (.inr [])
      else do
        let runLen ← peek MFT_BUF_SIZE mft (s.cursor + 1) lenSize
        let runOff ← peek MFT_BUF_SIZE mft (s.cursor + 1 + lenSize) offSize
        let runOff := signExtend offSize runOff
        let currentLcn := if offSize ≠ 0 then (s.currentLcn + runOff) % 2 ^ 64 else s.currentLcn
        if runLen = 0 then pure (.inr [])
        else
          pure (.inl ⟨s.cursor + 1 + lenSize + offSize, currentLcn, s.runs ++ [⟨currentLcn, runLen, offSize == 0⟩]⟩)
    else pure (.inr [])
  else pure (.inr [])

def decodeRunlist (steps : Nat) (mft : Memory) (runlist length : Nat) : Run (List NtfsRun) :=
  iterate (runBody mft (runlist + length)) steps ⟨runlist, 0, []⟩

/-! ### Other MFT records -/

inductive NtfsReadOnlyReason where
  | none
  | device
  | upcase
  | volumeInfo
  | dirtyLogReplayRequired
  | unsupportedVolumeFlags
  deriving DecidableEq, Repr

/-- `NTFS_CONTEXT`, as far as the mount sets it. -/
structure Context where
  boot : NtfsBoot
  mftRuns : List NtfsRun
  mftDataSize : Nat
  readOnlyReason : NtfsReadOnlyReason
  volumeFlags : Nat
  writeAllowed : Bool
  mftBuf : Memory

/-- How far a record has been read or written: the offset, in the run or on the disk, and in the record. -/
structure Progress (α : Type) where
  byteOffset : Nat
  soFar : Nat
  result : α

/-- A piece of a record: its sector, its place there, and how many bytes. -/
def pieceAt (boot : NtfsBoot) (physicalByte left : Nat) : Nat × Nat × Nat :=
  let offset := physicalByte % boot.bytesPerSector
  (physicalByte / boot.bytesPerSector, offset, min left (boot.bytesPerSector - offset))

/-- The body of the loop of `read_mft_mirror_record`. -/
def mirrorBody (device : NtfsDevice) (boot : NtfsBoot) (s : Progress Memory) :
    Run (Progress Memory ⊕ Bool × Memory) :=
  if s.soFar < boot.recordSize then
    let (lba, offset, chunk) := pieceAt boot s.byteOffset (boot.recordSize - s.soFar)
    match device.sector lba with
    | none => pure (.inr (false, s.result))
    | some sector => do
      let bytes ← copied NTFS_MAX_SECTOR_SIZE sector offset chunk
      let mft ← poke MFT_BUF_SIZE s.result s.soFar bytes
      pure (.inl ⟨(s.byteOffset + chunk) % 2 ^ 64, s.soFar + chunk, mft⟩)
  else pure (.inr (true, s.result))

def readMftMirrorRecord (steps : Nat) (device : NtfsDevice) (boot : NtfsBoot) (recordN : Nat)
    (mft : Memory) :
    Run (Bool × Memory) :=
  if recordN ≥ 4 ∨ boot.mftMirrorLcn = 0 then pure (false, mft)
  else do
    let physicalByte := (boot.mftMirrorLcn * boot.bytesPerCluster + recordN * boot.recordSize) % 2 ^ 64
    let (read, mft) ← iterate (mirrorBody device boot) steps ⟨physicalByte, 0, mft⟩
    if read then validated mft boot.recordSize boot.bytesPerSector else pure (false, mft)

/-- The body of the loop of `read_mft_record` over the sectors of a run. -/
def sectorBody (device : NtfsDevice) (boot : NtfsBoot) (run : NtfsRun) (runBytes : Nat)
    (s : Progress Memory) :
    Run (Progress Memory ⊕ Bool × Progress Memory) :=
  if s.byteOffset < runBytes ∧ s.soFar < boot.recordSize then
    let physicalByte := (run.lcn * boot.bytesPerCluster + s.byteOffset) % 2 ^ 64
    let (lba, offset, chunk) := pieceAt boot physicalByte (min (boot.recordSize - s.soFar) (runBytes - s.byteOffset))
    match device.sector lba with
    | none => pure (.inr (false, s))
    | some sec => do
      let bytes ← copied NTFS_MAX_SECTOR_SIZE sec offset chunk
      let mft ← poke MFT_BUF_SIZE s.result s.soFar bytes
      pure (.inl ⟨s.byteOffset + chunk, s.soFar + chunk, mft⟩)
  else pure (.inr (true, s))

/-- The loop of `read_mft_record` over the runs, and whether it came to its end. -/
def readRuns (steps : Nat) (device : NtfsDevice) (boot : NtfsBoot) :
    List NtfsRun → Progress Memory → Run (Bool × Progress Memory)
  | [], s => pure (true, s)
  | run :: runs, s =>
    if s.soFar < boot.recordSize then
      let runBytes := run.len * boot.bytesPerCluster % 2 ^ 64
      if s.byteOffset ≥ runBytes then readRuns steps device boot runs { s with byteOffset := s.byteOffset - runBytes }
      else if run.sparse then pure (false, s)
      else do
        let (read, s) ← iterate (sectorBody device boot run runBytes) steps s
        if read then readRuns steps device boot runs { s with byteOffset := 0 } else pure (false, s)
    else pure (true, s)

/-- `read_mft_record`: whether it succeeds, and `mft_buf` behind it. -/
def readMftRecord (steps : Nat) (device : NtfsDevice) (boot : NtfsBoot) (mftRuns : List NtfsRun)
    (recordN : Nat)
    (mft : Memory) : Run (Bool × Memory) := do
  let (read, s) ← readRuns steps device boot mftRuns ⟨recordN * boot.recordSize % 2 ^ 64, 0, mft⟩
  if read ∧ ¬s.soFar < boot.recordSize then do
    let (valid, mft) ← validated s.result boot.recordSize boot.bytesPerSector
    if valid then pure (true, mft) else readMftMirrorRecord steps device boot recordN mft
  else readMftMirrorRecord steps device boot recordN s.result

/-! ### The volume record -/

/-- The body of the loop of `iterate_attrs` with `find_attr_cb`: a resident value that was found, and its length. -/
def attrBody (mft : Memory) (targetType off : Nat) : Run (Nat ⊕ Option (Nat × Nat)) := do
  let used ← peek MFT_BUF_SIZE mft 24 4
  if off + 16 ≤ used then do
    let type ← peek MFT_BUF_SIZE mft off 4
    let length ← peek MFT_BUF_SIZE mft (off + 4) 4
    if type = ATTR_END ∨ length = 0 then pure (.inr none)
    else if length < 16 ∨ length > used - off then pure (.inr none)
    else do
      let nonResident ← peek MFT_BUF_SIZE mft (off + 8) 1
      if nonResident = 0 then
        if length < 16 + 8 then pure (.inr none)
        else do
          let valueOffset ← peek MFT_BUF_SIZE mft (off + 20) 2
          let valueLength ← peek MFT_BUF_SIZE mft (off + 16) 4
          if valueOffset > length ∨ valueLength > length - valueOffset then pure (.inr none)
          else if type = targetType then pure (.inr (some (off + valueOffset, valueLength)))
          else pure (.inl ((off + length) % 2 ^ 32))
      else if length < 16 + 48 then pure (.inr none)
      else do
        let runlistOffset ← peek MFT_BUF_SIZE mft (off + 32) 2
        let _ ← peek MFT_BUF_SIZE mft (off + 48) 8
        if runlistOffset ≥ length then pure (.inr none)
        else if type = targetType then pure (.inr none)
        else pure (.inl ((off + length) % 2 ^ 32))
  else pure (.inr none)

def iterateAttrs (steps : Nat) (mft : Memory) (targetType : Nat) : Run (Option (Nat × Nat)) := do
  let off ← peek MFT_BUF_SIZE mft 20 2
  let used ← peek MFT_BUF_SIZE mft 24 4
  let alloc ← peek MFT_BUF_SIZE mft 28 4
  if used > alloc ∨ alloc > MFT_BUF_SIZE ∨ off < 48 ∨ off > used then pure none
  else iterate (attrBody mft targetType) steps off

/-- What the flags of a volume say about writing to it. -/
def flagsReason (flags : Nat) : NtfsReadOnlyReason :=
  if flags &&& 1 ≠ 0 then .dirtyLogReplayRequired
  else if flags ≠ 0 then .unsupportedVolumeFlags
  else .none

/-- The part of `ntfs_initialize_context` about the volume record. -/
def readVolume (steps : Nat) (device : NtfsDevice) (context : Context) : Run Context := do
  let (read, mft) ← readMftRecord steps device context.boot context.mftRuns 3 context.mftBuf
  let context := { context with mftBuf := mft }
  if read then do
    match ← iterateAttrs steps mft ATTR_VOLUME_INFORMATION with
    | some (value, valueLen) =>
      if valueLen ≥ 12 then do
        let flags ← peek MFT_BUF_SIZE mft (value + 10) 2
        pure { context with volumeFlags := flags, writeAllowed := flags == 0, readOnlyReason := flagsReason flags }
      else pure context
    | none => pure context
  else pure context

/-! ### The mount -/

/-- What `ntfs_initialize_context` says about writing before it looks at the volume record. -/
def firstReason (device : NtfsDevice) (loaded : Bool) : NtfsReadOnlyReason :=
  if loaded then if device.logicalBlockSize.isNone || !device.readOnly then .volumeInfo else .device else .upcase

/-- `ntfs_initialize_context` from the run list of the MFT on. -/
def mountRuns (steps : Nat) (device : NtfsDevice) (ntfsLoadUpcaseTable : Memory → Bool × Memory)
    (boot : NtfsBoot)
    (mft : Memory) (found : FoundData) : Run Context := do
  let mftRuns ← decodeRunlist steps mft found.runlist found.runlistLen
  demand (mftRuns ≠ [])
  let (loaded, mft) := ntfsLoadUpcaseTable mft
  let context : Context := {
    boot, mftRuns, mftDataSize := found.dataSize, readOnlyReason := firstReason device loaded, volumeFlags := 0,
    writeAllowed := false, mftBuf := mft }
  if context.readOnlyReason = .volumeInfo then readVolume steps device context else pure context

/-- `ntfs_initialize_context`. The up-case table is loaded, or not, and `mft_buf` changes. -/
def ntfsInitializeContext (steps : Nat) (device : NtfsDevice)
    (ntfsLoadUpcaseTable : Memory → Bool × Memory)
    (mft : Memory) : Run Context := do
  let boot ← readBoot device
  let mft ← loadZero device boot mft
  let off ← peek MFT_BUF_SIZE mft 20 2
  let found ← iterate (zeroBody mft) steps off
  let found ← supplied found
  mountRuns steps device ntfsLoadUpcaseTable boot mft found

/-! ### The flags of the volume -/

/-- The body of the walk of `ntfs_set_volume_dirty` for the volume information; nothing is its failure. -/
def dirtyBody (mft : Memory) (offset : Nat) : Run (Nat ⊕ Option Nat) := do
  let used ← peek MFT_BUF_SIZE mft 24 4
  if offset + 16 ≤ used then do
    let type ← peek MFT_BUF_SIZE mft offset 4
    if type = ATTR_END then pure (.inr none)
    else do
      let length ← peek MFT_BUF_SIZE mft (offset + 4) 4
      if length < 16 ∨ length > used - offset then pure (.inr none)
      else do
        let nonResident ← peek MFT_BUF_SIZE mft (offset + 8) 1
        if type = ATTR_VOLUME_INFORMATION ∧ nonResident = 0 then
          if length < 16 + 8 then pure (.inr none)
          else do
            let valueOffset ← peek MFT_BUF_SIZE mft (offset + 20) 2
            let valueLength ← peek MFT_BUF_SIZE mft (offset + 16) 4
            if valueOffset > length ∨ valueLength < 12 ∨ valueLength > length - valueOffset then pure (.inr none)
            else pure (.inr (some (offset + valueOffset)))
        else pure (.inl ((offset + length) % 2 ^ 32))
  else pure (.inr none)

/-- The volume information in the record 3, which is read for it. -/
def volumeInformation (steps : Nat) (device : NtfsDevice) (context : Context) : Run (Memory × Nat) := do
  let (read, mft) ← readMftRecord steps device context.boot context.mftRuns 3 context.mftBuf
  demand (read = true)
  let offset ← peek MFT_BUF_SIZE mft 20 2
  let value ← iterate (dirtyBody mft) steps offset
  let value ← supplied value
  pure (mft, value)

def sectorBefore (boot : NtfsBoot) (device : NtfsDevice) (lba offset chunk : Nat) : Run Memory :=
  if offset ≠ 0 ∨ chunk ≠ boot.bytesPerSector then supplied (device.sector lba) else pure fun _ => 0

/-- The body of the loop of `write_mft_record` over the sectors of a run. -/
def writeBody (boot : NtfsBoot) (record : Memory) (run : NtfsRun) (runBytes : Nat)
    (s : Progress NtfsDevice) :
    Run (Progress NtfsDevice ⊕ Progress NtfsDevice) :=
  if s.byteOffset < runBytes ∧ s.soFar < boot.recordSize then do
    let physicalByte := (run.lcn * boot.bytesPerCluster + s.byteOffset) % 2 ^ 64
    let (lba, offset, chunk) := pieceAt boot physicalByte (min (boot.recordSize - s.soFar) (runBytes - s.byteOffset))
    let sector ← sectorBefore boot s.result lba offset chunk
    let bytes ← copied MFT_BUF_SIZE record s.soFar chunk
    let sector ← poke NTFS_MAX_SECTOR_SIZE sector offset bytes
    demand (s.result.writable lba = true)
    pure (.inl ⟨s.byteOffset + chunk, s.soFar + chunk,
      { s.result with sector := Function.update s.result.sector lba (some sector) }⟩)
  else pure (.inr s)

/-- The loop of `write_mft_record` over the runs. -/
def writeRuns (steps : Nat) (boot : NtfsBoot) (record : Memory) :
    List NtfsRun → Progress NtfsDevice → Run (Progress NtfsDevice)
  | [], s => pure s
  | run :: runs, s =>
    if s.soFar < boot.recordSize then
      let runBytes := run.len * boot.bytesPerCluster % 2 ^ 64
      if s.byteOffset ≥ runBytes then writeRuns steps boot record runs { s with byteOffset := s.byteOffset - runBytes }
      else do
        let s ← iterate (writeBody boot record run runBytes) steps s
        writeRuns steps boot record runs { s with byteOffset := 0 }
    else pure s

def writeMftRecord (steps : Nat) (device : NtfsDevice) (context : Context) (recordN : Nat)
    (appliedRecord : Memory) :
    Run NtfsDevice := do
  demand ¬(device.logicalBlockSize.isSome ∧ device.readOnly = true)
  let bytes ← copied MFT_BUF_SIZE appliedRecord 0 context.boot.recordSize
  let writeBuf ← poke MFT_BUF_SIZE (fun _ => 0) 0 bytes
  let protectedRecord ← protectFixup writeBuf context.boot.recordSize context.boot.bytesPerSector
  let s ← writeRuns steps context.boot protectedRecord context.mftRuns
    ⟨recordN * context.boot.recordSize % 2 ^ 64, 0, device⟩
  demand (s.soFar = context.boot.recordSize)
  demand (s.result.flushes = true)
  pure s.result

def ntfsSetVolumeDirty (steps : Nat) (device : NtfsDevice) (context : Context) (dirty : Bool) : Run NtfsDevice := do
  let (mft, value) ← volumeInformation steps device context
  let flags ← peek MFT_BUF_SIZE mft (value + 10) 2
  let flags := if dirty then flags ||| 1 else flags &&& 0xFFFE
  let mft ← poke MFT_BUF_SIZE mft (value + 10) (digits 2 flags)
  writeMftRecord steps device context 3 mft

def ntfsVerifyVolumeDirty (steps : Nat) (device : NtfsDevice) (context : Context) (dirty : Bool) : Run Unit := do
  let (mft, value) ← volumeInformation steps device context
  let flags ← peek MFT_BUF_SIZE mft (value + 10) 2
  demand (flags &&& 1 ≠ 0 ↔ dirty = true)

end AsasOs.Ntfs.Mount
