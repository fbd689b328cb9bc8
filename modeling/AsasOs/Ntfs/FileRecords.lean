import AsasOs.Ntfs.Attributes

/-!
# NTFS: building MFT records

A new record is a header with its update sequence array, and behind it attributes that
are appended one after another. What is appended leaves the header alone, except for the
fields that say how much of the record is used.

## Model

- A name is the list of its characters; the callers pass at most 255 of them.
- A builder that returns 0 has no value here, and the size it returns else is the length of what it built.

## Main results

- `Begun.resident`, `Begun.nonresident`: what is appended lies behind the header.
- `FileRecord.begun`: a record that was built has an update sequence number that was never used.
-/
namespace AsasOs.Ntfs

open Bytes

/-! ### The code -/

/-- `ntfs_initialize_context` on the size of a file record. -/
def Geometry.mftRecordSize (g : Geometry) (clustersPerFileRecord : Int) : Nat :=
  if clustersPerFileRecord < 0 then 2 ^ ((-clustersPerFileRecord).toNat % 32)
  else clustersPerFileRecord.toNat * g.bytesPerCluster

/-- `NTFS_CONTEXT` with what it says about MFT records. -/
structure MftContext extends NtfsContext where
  clustersPerFileRecord : Int
  byte : -128 ≤ clustersPerFileRecord ∧ clustersPerFileRecord < 128
  fits : toGeometry.mftRecordSize clustersPerFileRecord ≠ 0 ∧
    toGeometry.mftRecordSize clustersPerFileRecord ≤ 4096

def MftContext.mftRecordSize (context : MftContext) : Nat :=
  context.toGeometry.mftRecordSize context.clustersPerFileRecord

def ATTR_STANDARD_INFORMATION : Nat := 0x10
def ATTR_ATTRIBUTE_LIST : Nat := 0x20
def ATTR_FILE_NAME : Nat := 0x30
def ATTR_DATA : Nat := 0x80

def nextAttrId (record : Memory) : Nat := wordAt record 40 2

/-- The characters of a name as they are stored. -/
def utf16Bytes (name : List Nat) : List UInt8 := name.flatMap (digits 2)

/-- The last two steps of an append: how much is used, and the next identifier. -/
def closeAppend (record : Memory) (used id : Nat) : Memory :=
  let record := patch record 24 (digits 4 used)
  if nextAttrId record ≤ id then patch record 40 (digits 2 (id + 1)) else record

def ntfsAppendResidentAttribute (record : Memory) (recordSize type : Nat) (name : List Nat)
    (value : List UInt8)
    (id : Nat) : Option Memory :=
  let nameBytes := name.length * 2
  let valueOffset := ntfsAlign8 (16 + 8 + nameBytes)
  let length := ntfsAlign8 (valueOffset + value.length) % 2 ^ 32
  let used := usedSize record
  if used < 8 || length > sub32 recordSize used then none
  else
    let start := used - 8
    let record := patch record start (List.replicate (length + 8) 0)
    let record := patch record start (digits 4 type)
    let record := patch record (start + 4) (digits 4 length)
    let record := patch record (start + 9) (digits 1 name.length)
    let record := patch record (start + 10) (digits 2 (if name.length = 0 then 0 else 16 + 8))
    let record := patch record (start + 14) (digits 2 id)
    let record := patch record (start + 16) (digits 4 value.length)
    let record := patch record (start + 20) (digits 2 valueOffset)
    let record := patch record (start + 24) (utf16Bytes name)
    let record := patch record (start + valueOffset) value
    let record := patch record (start + length) (digits 4 ATTR_END)
    some (closeAppend record (used + length) id)

def ntfsAppendNonresidentExtent (record : Memory) (recordSize type : Nat) (name : List Nat)
    (runlist : List UInt8)
    (lowestVcn clusterCount allocatedSize dataSize initializedSize flags compressionUnit id : Nat) :
    Option Memory :=
  let nameBytes := name.length * 2
  let runlistOffset := ntfsAlign8 (16 + 48 + nameBytes)
  let length := ntfsAlign8 (runlistOffset + runlist.length) % 2 ^ 32
  let used := usedSize record
  if clusterCount = 0 || used < 8 || length > sub32 recordSize used then none
  else
    let start := used - 8
    let record := patch record start (List.replicate (length + 8) 0)
    let record := patch record start (digits 4 type)
    let record := patch record (start + 4) (digits 4 length)
    let record := patch record (start + 8) [1]
    let record := patch record (start + 9) (digits 1 name.length)
    let record := patch record (start + 10) (digits 2 (if name.length = 0 then 0 else 16 + 48))
    let record := patch record (start + 12) (digits 2 flags)
    let record := patch record (start + 14) (digits 2 id)
    let record := patch record (start + 16) (digits 8 lowestVcn)
    let record := patch record (start + 24) (digits 8 (lowestVcn + clusterCount - 1))
    let record := patch record (start + 32) (digits 2 runlistOffset)
    let record := patch record (start + 34) (digits 2 compressionUnit)
    let record := patch record (start + 40) (digits 8 allocatedSize)
    let record := patch record (start + 48) (digits 8 dataSize)
    let record := patch record (start + 56) (digits 8 initializedSize)
    let record := patch record (start + 64) (utf16Bytes name)
    let record := patch record (start + runlistOffset) runlist
    let record := patch record (start + length) (digits 4 ATTR_END)
    some (closeAppend record (used + length) id)

def ntfsAppendNonresidentAttribute (record : Memory) (recordSize type : Nat) (name : List Nat)
    (runlist : List UInt8) (clusterCount allocatedSize dataSize id : Nat) : Option Memory :=
  ntfsAppendNonresidentExtent record recordSize type name runlist 0 clusterCount allocatedSize dataSize dataSize 0 0
    id

/-- `ntfs_attribute_list_add`: one entry of an attribute list. -/
def attributeListEntry (type lowestVcn fileReference attributeId : Nat) : List UInt8 :=
  digits 4 type ++ digits 2 32 ++ [0, 0] ++ digits 8 lowestVcn ++ digits 8 fileReference ++ digits 2 attributeId ++
    List.replicate 6 0

/-- The fields of a new record, in the order in which they are set. -/
def recordHeader (context : MftContext) (recordNumber sequence : Nat) (directory : Bool) : Memory :=
  let sectorCount := context.mftRecordSize / context.bytesPerSector
  let attributeOffset := ntfsAlign8 (48 + (sectorCount + 1) * 2)
  let record : Memory := fun _ => 0
  let record := patch record 0 [0x46, 0x49, 0x4C, 0x45]
  let record := patch record 4 (digits 2 48)
  let record := patch record 6 (digits 2 (sectorCount + 1))
  let record := patch record 16 (digits 2 (if sequence = 0 then 1 else sequence))
  let record := patch record 18 (digits 2 1)
  let record := patch record 20 (digits 2 attributeOffset)
  let record := patch record 22 (digits 2 (if directory then 3 else 1))
  let record := patch record 24 (digits 4 (attributeOffset + 8))
  let record := patch record 28 (digits 4 context.mftRecordSize)
  let record := patch record 44 (digits 4 recordNumber)
  patch record attributeOffset (digits 4 ATTR_END)

def ntfsInitializeFileRecord (context : MftContext) (recordNumber sequence : Nat) (directory : Bool) :
    Option Memory :=
  let sectorCount := context.mftRecordSize / context.bytesPerSector
  if sectorCount = 0 || sectorCount + 1 > 0xFFFF then none
  else if ntfsAlign8 (48 + (sectorCount + 1) * 2) + 8 > context.mftRecordSize then none
  else some (recordHeader context recordNumber sequence directory)

def ntfsBuildFileNameValue (parentReference : Nat) (name : List Nat) (directory : Bool)
    (dataSize : Nat) :
    Option (List UInt8) :=
  if 66 + name.length * 2 > 66 + 510 || name.length = 0 then none
  else
    some (digits 8 parentReference ++ List.replicate 32 0 ++ digits 8 dataSize ++ digits 8 dataSize ++
      digits 4 (if directory then 0x10000000 else 0x20) ++ List.replicate 4 0 ++ digits 1 name.length ++ [1] ++
      utf16Bytes name)

/-- `NTFS_STANDARD_INFORMATION`, as the builders fill it. -/
def standardInformation (directory : Bool) : List UInt8 :=
  List.replicate 32 0 ++ digits 4 (if directory then 0x10000000 else 0x20) ++ List.replicate 12 0

/-- `ntfs_build_index_root`: an index root with its end entry. -/
def ntfsBuildIndexRoot : List UInt8 :=
  digits 4 ATTR_FILE_NAME ++ digits 4 1 ++ digits 4 4096 ++ [1, 0, 0, 0] ++
    digits 4 16 ++ digits 4 32 ++ digits 4 32 ++ [0, 0, 0, 0] ++
    List.replicate 8 0 ++ digits 2 16 ++ [0, 0] ++ [2, 0, 0, 0]

def ntfsBuildBasicRecord (context : MftContext) (recordNumber sequence parentReference : Nat)
    (name : List Nat)
    (directory : Bool) (data : List UInt8) : Option Memory := do
  let record ← ntfsInitializeFileRecord context recordNumber sequence directory
  let record ← ntfsAppendResidentAttribute record context.mftRecordSize ATTR_STANDARD_INFORMATION []
    (standardInformation directory) 0
  let fileName ← ntfsBuildFileNameValue parentReference name directory data.length
  let record ← ntfsAppendResidentAttribute record context.mftRecordSize ATTR_FILE_NAME [] fileName 1
  if directory then
    ntfsAppendResidentAttribute record context.mftRecordSize ATTR_INDEX_ROOT i30Name ntfsBuildIndexRoot 2
  else ntfsAppendResidentAttribute record context.mftRecordSize ATTR_DATA [] data 2

def ntfsBuildNonresidentFileRecord (context : MftContext) (recordNumber sequence parentReference : Nat)
    (name : List Nat) (runlist : List UInt8) (clusterCount allocatedSize dataSize : Nat) : Option Memory := do
  let record ← ntfsInitializeFileRecord context recordNumber sequence false
  let record ← ntfsAppendResidentAttribute record context.mftRecordSize ATTR_STANDARD_INFORMATION []
    (standardInformation false) 0
  let fileName ← ntfsBuildFileNameValue parentReference name false dataSize
  let record ← ntfsAppendResidentAttribute record context.mftRecordSize ATTR_FILE_NAME [] fileName 1
  ntfsAppendNonresidentAttribute record context.mftRecordSize ATTR_DATA [] runlist clusterCount allocatedSize dataSize 2

/-- The base record of a file with an attribute list, as `ntfs_write_split_nonresident_file` builds it. -/
def splitBaseRecord (context : MftContext) (baseRecord baseSequence parentReference : Nat)
    (name : List Nat)
    (list : List UInt8) (dataSize : Nat) : Option Memory := do
  let fileName ← ntfsBuildFileNameValue parentReference name false dataSize
  let record ← ntfsInitializeFileRecord context baseRecord baseSequence false
  let record ← ntfsAppendResidentAttribute record context.mftRecordSize ATTR_STANDARD_INFORMATION []
    (standardInformation false) 0
  let record ← ntfsAppendResidentAttribute record context.mftRecordSize ATTR_ATTRIBUTE_LIST [] list 2
  ntfsAppendResidentAttribute record context.mftRecordSize ATTR_FILE_NAME [] fileName 1

/-- An extension record, as `ntfs_write_split_nonresident_file` builds it. -/
def extensionRecord (context : MftContext) (recordNumber sequence baseReference : Nat)
    (runlist : List UInt8)
    (lowestVcn clusterCount allocatedSize dataSize : Nat) : Option Memory := do
  let record ← ntfsInitializeFileRecord context recordNumber sequence false
  let record := patch record 32 (digits 8 baseReference)
  let record := patch record 18 (digits 2 0)
  ntfsAppendNonresidentExtent record context.mftRecordSize ATTR_DATA [] runlist lowestVcn clusterCount allocatedSize
    dataSize dataSize 0 0 0

/-! ### What is appended lies behind the header -/

theorem patch_before {content : Memory} {offset k : Nat} {data : List UInt8} (below : k < offset) :
    patch content offset data k = content k := by
  rw [patch, if_neg (by omega)]

/-- `length` more bytes are used. What lies before the old end mark is kept, except for the two fields. -/
structure Appended (record record' : Memory) (length : Nat) : Prop where
  used : usedSize record' = usedSize record + length
  other : ∀ k < usedSize record - 8, (k < 24 ∨ 28 ≤ k) → (k < 40 ∨ 42 ≤ k) → record' k = record k

theorem closeAppend_used (record : Memory) {used : Nat} (id : Nat) (small : used < 2 ^ 32) :
    usedSize (closeAppend record used id) = used := by
  have stored : usedSize (patch record 24 (digits 4 used)) = used :=
    (wordAt_patch record 24 4 used).trans (Nat.mod_eq_of_lt small)
  unfold closeAppend
  dsimp only
  split
  · rw [usedSize, wordAt_patch_other (Or.inl (by omega))]
    exact stored
  · exact stored

theorem closeAppend_other (record : Memory) (used id : Nat) {k : Nat} (before : k < 24 ∨ 28 ≤ k)
    (apart : k < 40 ∨ 42 ≤ k) : closeAppend record used id k = record k := by
  unfold closeAppend
  split
  · rw [patch, digits_length, if_neg (by omega), patch, digits_length, if_neg (by omega)]
  · rw [patch, digits_length, if_neg (by omega)]

/-- The length of an attribute with what stands before its content. -/
abbrev paddedLength (offset : Nat) (content : List UInt8) :
    Nat := ntfsAlign8 (offset + content.length) % 2 ^ 32

abbrev residentOffset (name : List Nat) : Nat := ntfsAlign8 (16 + 8 + name.length * 2)

abbrev extentOffset (name : List Nat) : Nat := ntfsAlign8 (16 + 48 + name.length * 2)

section Append

variable {context : MftContext} {record record' : Memory} {recordSize type id : Nat} {name : List Nat}
  {data : List UInt8}

theorem ntfsAppendResidentAttribute_spec
    (done : ntfsAppendResidentAttribute record recordSize type name data id = some record')
    (room : usedSize record ≤ recordSize) (small : recordSize < 2 ^ 32) :
    Appended record record' (paddedLength (residentOffset name) data) ∧
    usedSize record' ≤ recordSize := by
  unfold ntfsAppendResidentAttribute at done
  dsimp only at done
  rw [sub32_eq room small] at done
  split at done
  · cases done
  next fits =>
    rw [Bool.or_eq_true, not_or, decide_eq_true_eq, decide_eq_true_eq] at fits
    cases done
    refine ⟨⟨closeAppend_used _ _ (by omega), ?_⟩, ?_⟩
    · intro k below before apart
      rw [closeAppend_other _ _ _ before apart]
      repeat rw [patch_before (by omega)]
    · rw [closeAppend_used _ _ (by omega)]
      omega

theorem ntfsAppendNonresidentExtent_spec
    {lowestVcn clusterCount allocatedSize dataSize initializedSize flags compressionUnit : Nat}
    (done : ntfsAppendNonresidentExtent record recordSize type name data lowestVcn clusterCount allocatedSize dataSize
      initializedSize flags compressionUnit id = some record')
    (room : usedSize record ≤ recordSize) (small : recordSize < 2 ^ 32) :
    Appended record record' (paddedLength (extentOffset name) data) ∧ usedSize record' ≤ recordSize := by
  unfold ntfsAppendNonresidentExtent at done
  dsimp only at done
  rw [sub32_eq room small] at done
  split at done
  · cases done
  next fits =>
    simp only [Bool.or_eq_true, not_or, decide_eq_true_eq] at fits
    cases done
    refine ⟨⟨closeAppend_used _ _ (by omega), ?_⟩, ?_⟩
    · intro k below before apart
      rw [closeAppend_other _ _ _ before apart]
      repeat rw [patch_before (by omega)]
    · rw [closeAppend_used _ _ (by omega)]
      omega

/-- The header of a record that is being built. Its update sequence array lies before the attributes, and
its update sequence number was never used. -/
structure Begun (context : MftContext) (record : Memory) : Prop where
  offset : wordAt record 4 2 = 48
  number : wordAt record 48 2 = 0
  low : 50 + 8 ≤ usedSize record
  high : usedSize record ≤ context.mftRecordSize

theorem MftContext.recordSize_small (context : MftContext) : context.mftRecordSize < 2 ^ 32 := by
  have fits := context.fits.2
  unfold MftContext.mftRecordSize
  omega

theorem Begun.appended (begun : Begun context record) {length : Nat}
    (appended : Appended record record' length)
    (room : usedSize record' ≤ context.mftRecordSize) : Begun context record' := by
  have low := begun.low
  have used := appended.used
  refine ⟨?_, ?_, by omega, room⟩
  · rw [← begun.offset]
    exact wordAt_congr fun k first last => appended.other k (by omega) (by omega) (by omega)
  · rw [← begun.number]
    exact wordAt_congr fun k first last => appended.other k (by omega) (by omega) (by omega)

theorem Begun.resident (begun : Begun context record)
    (done : ntfsAppendResidentAttribute record context.mftRecordSize type name data id = some record') :
    Begun context record' := by
  obtain ⟨appended, room⟩ := ntfsAppendResidentAttribute_spec done begun.high context.recordSize_small
  exact begun.appended appended room

theorem Begun.nonresident
    {lowestVcn clusterCount allocatedSize dataSize initializedSize flags unit : Nat}
    (begun : Begun context record)
    (done : ntfsAppendNonresidentExtent record context.mftRecordSize type name data lowestVcn clusterCount
      allocatedSize dataSize initializedSize flags unit id = some record') : Begun context record' := by
  obtain ⟨appended, room⟩ := ntfsAppendNonresidentExtent_spec done begun.high context.recordSize_small
  exact begun.appended appended room

theorem ntfsInitializeFileRecord_begun {recordNumber sequence : Nat} {directory : Bool}
    (done : ntfsInitializeFileRecord context recordNumber sequence directory = some record) :
    Begun context record := by
  unfold ntfsInitializeFileRecord at done
  dsimp only at done
  split at done
  · cases done
  split at done
  · cases done
  next few room =>
    simp only [Bool.or_eq_true, not_or, decide_eq_true_eq] at few
    cases done
    have small := context.recordSize_small
    have low : 50 ≤ ntfsAlign8 (48 + (context.mftRecordSize / context.bytesPerSector + 1) * 2) := by
      generalize context.mftRecordSize / context.bytesPerSector = sectors
      have aligned := le_ntfsAlign8 (48 + (sectors + 1) * 2)
      omega
    have used : usedSize (recordHeader context recordNumber sequence directory) =
        ntfsAlign8 (48 + (context.mftRecordSize / context.bytesPerSector + 1) * 2) + 8 := by
      unfold usedSize recordHeader
      dsimp only
      rw [wordAt_patch_other (Or.inl (by omega)), wordAt_patch_other (Or.inl (by omega)),
        wordAt_patch_other (Or.inl (by omega)), wordAt_patch]
      exact Nat.mod_eq_of_lt (by omega)
    refine ⟨?_, ?_, by omega, by omega⟩
    · unfold recordHeader
      dsimp only
      rw [wordAt_patch_other (Or.inl (by omega))]
      repeat rw [wordAt_patch_other (Or.inl (by decide))]
      exact wordAt_patch _ 4 2 48
    · unfold recordHeader
      dsimp only
      rw [wordAt_patch_other (Or.inl (by omega))]
      repeat rw [wordAt_patch_other (Or.inr (by simp))]
      rfl

end Append

/-- A record that one of the builders has made. -/
inductive FileRecord (context : MftContext) (record : Memory) : Prop where
  | basic {recordNumber sequence parentReference : Nat} {name : List Nat} {directory : Bool} {data : List UInt8}
      (built : ntfsBuildBasicRecord context recordNumber sequence parentReference name directory data = some record)
  | nonresident {recordNumber sequence parentReference clusterCount allocatedSize dataSize : Nat} {name : List Nat}
      {runlist : List UInt8}
      (built : ntfsBuildNonresidentFileRecord context recordNumber sequence parentReference name runlist clusterCount
        allocatedSize dataSize = some record)
  | splitBase {baseRecord baseSequence parentReference dataSize : Nat} {name : List Nat} {list : List UInt8}
      (built : splitBaseRecord context baseRecord baseSequence parentReference name list dataSize = some record)
  | extension {recordNumber sequence baseReference lowestVcn clusterCount allocatedSize dataSize : Nat}
      {runlist : List UInt8}
      (built : extensionRecord context recordNumber sequence baseReference runlist lowestVcn clusterCount
        allocatedSize dataSize = some record)

variable {context : MftContext} {record : Memory}

theorem Begun.patched (begun : Begun context record) {offset : Nat} {data : List UInt8}
    (low : 6 ≤ offset)
    (high : offset + data.length ≤ 24 ∨ 28 ≤ offset ∧ offset + data.length ≤ 48) :
    Begun context (patch record offset data) := by
  have used : usedSize (patch record offset data) = usedSize record := wordAt_patch_other (by omega)
  refine ⟨?_, ?_, ?_, ?_⟩
  · rw [wordAt_patch_other (by omega)]
    exact begun.offset
  · rw [wordAt_patch_other (by omega)]
    exact begun.number
  · rw [used]
    exact begun.low
  · rw [used]
    exact begun.high

/-- A record that was built has an update sequence number that was never used. -/
theorem FileRecord.begun (built : FileRecord context record) : Begun context record := by
  cases built with
  | basic built =>
    obtain ⟨_, header, built⟩ := Option.bind_eq_some_iff.mp built
    obtain ⟨_, standard, built⟩ := Option.bind_eq_some_iff.mp built
    obtain ⟨_, _, built⟩ := Option.bind_eq_some_iff.mp built
    obtain ⟨_, named, built⟩ := Option.bind_eq_some_iff.mp built
    have begun := ((ntfsInitializeFileRecord_begun header).resident standard).resident named
    split at built
    · exact begun.resident built
    · exact begun.resident built
  | nonresident built =>
    obtain ⟨_, header, built⟩ := Option.bind_eq_some_iff.mp built
    obtain ⟨_, standard, built⟩ := Option.bind_eq_some_iff.mp built
    obtain ⟨_, _, built⟩ := Option.bind_eq_some_iff.mp built
    obtain ⟨_, named, built⟩ := Option.bind_eq_some_iff.mp built
    exact (((ntfsInitializeFileRecord_begun header).resident standard).resident named).nonresident built
  | splitBase built =>
    obtain ⟨_, _, built⟩ := Option.bind_eq_some_iff.mp built
    obtain ⟨_, header, built⟩ := Option.bind_eq_some_iff.mp built
    obtain ⟨_, standard, built⟩ := Option.bind_eq_some_iff.mp built
    obtain ⟨_, listed, built⟩ := Option.bind_eq_some_iff.mp built
    exact (((ntfsInitializeFileRecord_begun header).resident standard).resident listed).resident built
  | extension built =>
    obtain ⟨_, header, built⟩ := Option.bind_eq_some_iff.mp built
    refine ((ntfsInitializeFileRecord_begun header).patched ?_ ?_ |>.patched ?_ ?_).nonresident built
    · decide
    · rw [digits_length]
      decide
    · decide
    · rw [digits_length]
      decide

/-- A volume with records of two sectors. -/
def smallVolume : MftContext where
  bytesPerSector := 512
  sectorsPerCluster := 8
  clustersPerIndexRecord := 1
  accepted := by decide
  upcase := []
  clustersPerFileRecord := -10
  byte := by decide
  fits := by decide

/-- A volume with records of one sector. -/
def sectorVolume : MftContext where
  bytesPerSector := 512
  sectorsPerCluster := 8
  clustersPerIndexRecord := 1
  accepted := by decide
  upcase := []
  clustersPerFileRecord := -9
  byte := by decide
  fits := by decide

end AsasOs.Ntfs
