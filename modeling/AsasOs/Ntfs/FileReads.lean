import AsasOs.Ntfs.Compression
import AsasOs.Ntfs.Streams

/-!
# NTFS: reading a file

The data of a file is the value of a resident attribute, or it lies in runs, as it is or
compressed. An attribute in runs has an initialized size besides its data size: behind
that, nothing has been written yet, and the bytes are to be read as zeros.

## Model

- Where a path leads is not part of the reading: it starts from the record that the path resolves to.

## Main results

- `readFile_iff`: what is read of an attribute in runs, and when its tail is zero.
- `readFile_stale`: a file whose tail shows what its clusters contained before.
-/
namespace AsasOs.Ntfs

open Bytes Extents Attempts Checked

/-! ### The code -/

def NTFS_MAX_COMPRESSION_UNIT_SIZE : Nat := 1024 * 1024

/-- `stream_cluster_sparse`, from a run on that starts at the VCN `start`. -/
def clusterSparse (vcn : Nat) : Nat → List NtfsRun → Option Bool
  | _, [] => none
  | start, run :: runs =>
    if vcn ≥ start && vcn - start < run.len then some run.sparse
    else clusterSparse vcn ((start + run.len) % 2 ^ 64) runs

def streamClusterSparse (stream : AttributeStream) (vcn : Nat) :
    Option Bool := clusterSparse vcn 0 stream.runs

/-- The loop of `read_compressed_stream` over the clusters of a unit: how many of them are allocated. No
cluster may be allocated behind a hole. -/
def unitAllocated (stream : AttributeStream) : List Nat → Bool → Nat → Option Nat
  | [], _, allocated => some allocated
  | vcn :: vcns, sawSparse, allocated => do
    let sparse ← streamClusterSparse stream vcn
    if sparse then unitAllocated stream vcns true allocated
    else if sawSparse then none
    else unitAllocated stream vcns false (allocated + 1)

/-- What a compression unit contains, in a buffer of its whole size. -/
def readUnit (context : NtfsContext) (disk : NtfsDisk) (stream : AttributeStream)
    (unitBytes unitVcn clusters : Nat) : Option (List UInt8) := do
  let allocated ← unitAllocated stream ((List.range clusters).map (unitVcn + ·)) false 0
  let size := allocated * context.bytesPerCluster
  let bytes := readFromRuns context disk stream.runs (stream.nextVcn * context.bytesPerCluster % 2 ^ 64)
    (unitVcn * context.bytesPerCluster % 2 ^ 64) size
  let zeros := List.replicate unitBytes 0
  if allocated = clusters then
    if bytes.length = size then some (put zeros 0 bytes) else none
  else if allocated ≠ 0 then
    if bytes.length = size then
      match lznt1Decompress bytes zeros with
      | .ok (_, unit) => some unit
      | .error _ => none
    else none
  else some zeros

/-- The loop of `read_compressed_stream` over the units. -/
def readUnits (context : NtfsContext) (disk : NtfsDisk) (stream : AttributeStream)
    (outputSize unitClusters : Nat) : Nat → List UInt8 → Nat → List UInt8
  | 0, out, _ => out
  | steps + 1, out, unitVcn =>
    if out.length < outputSize ∧ unitVcn < stream.nextVcn then
      let unitBytes := unitClusters * context.bytesPerCluster
      match readUnit context disk stream unitBytes unitVcn (min (stream.nextVcn - unitVcn) unitClusters) with
      | none => out
      | some unit =>
        readUnits context disk stream outputSize unitClusters steps
          (out ++ unit.take (min (outputSize - out.length) unitBytes)) (unitVcn + unitClusters)
    else out

def readCompressedStream (context : NtfsContext) (disk : NtfsDisk) (stream : AttributeStream)
    (capacity : Nat) :
    List UInt8 :=
  let outputSize := if stream.dataSize < capacity then stream.dataSize else capacity
  if stream.compressionUnit ≥ 31 then []
  else
    let unitBytes := 2 ^ stream.compressionUnit * context.bytesPerCluster
    if unitBytes = 0 ∨ unitBytes > NTFS_MAX_COMPRESSION_UNIT_SIZE then []
    else readUnits context disk stream outputSize (2 ^ stream.compressionUnit) outputSize [] 0

/-- `ntfs_context_read_file`, from the record on that its path resolves to. -/
def ntfsContextReadFile (volume : NtfsVolume) (record capacity : Nat) : NtfsCode (List UInt8) := do
  check ¬(capacity = 0 ∨ record = 0)
  let stream ← collectAttributeStream volume ⟨record, ATTR_DATA, true⟩
  check (stream.flags &&& 0x4000 = 0)
  let m ← state
  if stream.resident then
    pure (window m.mftBuf stream.residentValue
      (if stream.residentLength < capacity then stream.residentLength else capacity))
  else if stream.flags &&& 1 ≠ 0 then pure (readCompressedStream volume.toNtfsContext m.disk stream capacity)
  else pure (readFromRuns volume.toNtfsContext m.disk stream.runs stream.dataSize 0 capacity)

/-! ### What is read -/

/-- What a file reads as: below the initialized size what is stored in its runs, behind it zeros. -/
structure ReadsAs (context : NtfsContext) (disk : NtfsDisk) (stream : AttributeStream) (bytes : List UInt8) :
    Prop where
  below : ∀ i (h : i < bytes.length), i < stream.initializedSize →
    storedByte context disk stream.runs i = some bytes[i]
  behind : ∀ i (h : i < bytes.length), stream.initializedSize ≤ i → i < stream.dataSize → bytes[i] = 0

/-- The clusters of a file are zero from its initialized size on, as far as they are read. -/
def ZeroTail (context : NtfsContext) (disk : NtfsDisk) (stream : AttributeStream) (capacity : Nat) :
    Prop :=
  ∀ i, stream.initializedSize ≤ i → i < min capacity stream.dataSize →
    (∀ j ≤ i, (storedByte context disk stream.runs j).isSome) → storedByte context disk stream.runs i = some 0

/-- A file in runs is read as what its runs store. So it reads as it should if its clusters are zero where
nothing has been written to them, and else it does not. -/
theorem readFile_iff {volume : NtfsVolume} {m m' : NtfsMachine} {record capacity : Nat}
    {stream : AttributeStream}
    (some : record ≠ 0) (room : capacity ≠ 0)
    (collected : runNtfs (collectAttributeStream volume ⟨record, ATTR_DATA, true⟩) m = (.some stream, m'))
    (runs : stream.resident = false) (plain : stream.flags &&& 0x4001 = 0)
    (bounded : Bounded volume.toNtfsContext stream.runs) :
    ∃ bytes, runNtfs (ntfsContextReadFile volume record capacity) m = (.some bytes, m') ∧
      (ReadsAs volume.toNtfsContext m'.disk stream bytes ↔
        ZeroTail volume.toNtfsContext m'.disk stream capacity) := by
  have parts : stream.flags &&& 0x4000 = 0 ∧ stream.flags &&& 1 = 0 := by
    constructor
    · rw [show 0x4000 = 0x4001 &&& 0x4000 from rfl, ← Nat.and_assoc, plain, Nat.zero_and]
    · rw [show 1 = 0x4001 &&& 1 from rfl, ← Nat.and_assoc, plain, Nat.zero_and]
  have fetch := @readFromRuns_fetched volume.toNtfsContext m'.disk stream.runs stream.dataSize 0 capacity bounded
  simp only [Nat.zero_add, Nat.sub_zero] at fetch
  refine ⟨readFromRuns volume.toNtfsContext m'.disk stream.runs stream.dataSize 0 capacity, ?_, ?_⟩
  · unfold runNtfs ntfsContextReadFile
    rw [check, if_pos (by omega), attempt_bind_of (attempt_pure ()), attempt_bind_of collected, check,
      if_pos parts.1, attempt_bind_of (attempt_pure ()), attempt_bind_of attempt_state, runs,
      if_neg Bool.false_ne_true, if_neg (by rw [parts.2]; decide), attempt_pure]
  · generalize readFromRuns volume.toNtfsContext m'.disk stream.runs stream.dataSize 0 capacity = bytes at fetch
    constructor
    · intro reads i behind inside stored
      have read := fetch.lt_length_iff.mpr ⟨inside, stored⟩
      rw [fetch.right i read, reads.behind i read behind (by omega)]
    · intro zero
      refine ⟨fun i read _ => fetch.right i read, fun i read behind _ => ?_⟩
      obtain ⟨inside, stored⟩ := fetch.lt_length_iff.mp read
      exact Option.some.inj ((fetch.right i read).symm.trans (zero i behind inside stored))

/-- A volume with one file of 100 bytes in one cluster, of which 10 have been written. -/
def tailVolume : NtfsVolume where
  toMftContext := smallVolume
  mftRuns := [⟨1, 10, false⟩]
  mftMirrorLcn := 0
  mftDataSize := 40960
  totalSectors := 1000

def tailImage : Option Memory := do
  let record ← ntfsInitializeFileRecord smallVolume 24 1 false
  let record ← ntfsAppendNonresidentExtent record 1024 ATTR_DATA [] [0x11, 1, 20, 0] 0 1 4096 100 10 0 0 0
  protectFixup record 1024 512

/-- Its disk: the record of the file, and else everywhere the same byte. -/
def tailMachine : NtfsMachine where
  disk := {
    content := fun address =>
      if 28672 ≤ address ∧ address < 28672 + 1024 then (tailImage.getD fun _ => 0) (address - 28672) else 0xAA
    readable := fun _ => true }
  mftBuf := fun _ => 0

def tailStream : AttributeStream := ⟨⟨[⟨20, 1, false⟩], 100, 4096⟩, 10, 1, 0, 0, 0, 0, false, true⟩

theorem tailMachine_collected :
    (runNtfs (collectAttributeStream tailVolume ⟨24, ATTR_DATA, true⟩) tailMachine).1 =
    some tailStream := by
  decide +kernel

theorem readFile_iff_tail :
    ∃ m' bytes, runNtfs (ntfsContextReadFile tailVolume 24 20) tailMachine = (some bytes, m') ∧
      (ReadsAs tailVolume.toNtfsContext m'.disk tailStream bytes ↔
        ZeroTail tailVolume.toNtfsContext m'.disk tailStream 20) := by
  have bounded : Bounded tailVolume.toNtfsContext tailStream.runs := by
    intro run member
    rw [List.mem_singleton.mp member]
    decide
  rcases collected : runNtfs (collectAttributeStream tailVolume ⟨24, ATTR_DATA, true⟩) tailMachine with
    ⟨result, m'⟩
  obtain rfl : result = some tailStream := by
    rw [← tailMachine_collected, collected]
  exact ⟨m', readFile_iff (by decide) (by decide) collected rfl (by decide) bounded⟩

/-- The bytes that nothing has been written to read as what the cluster contained before. -/
theorem readFile_stale :
    (runNtfs (collectAttributeStream tailVolume ⟨24, ATTR_DATA, true⟩) tailMachine).1 = some tailStream ∧
      ∃ bytes, (runNtfs (ntfsContextReadFile tailVolume 24 20) tailMachine).1 = some bytes ∧
        ∀ disk, ¬ReadsAs tailVolume.toNtfsContext disk tailStream bytes := by
  refine ⟨tailMachine_collected, List.replicate 20 0xAA, by decide +kernel, fun disk reads => ?_⟩
  exact absurd (reads.behind 15 (by decide) (by decide) (by decide)) (by decide)

end AsasOs.Ntfs
