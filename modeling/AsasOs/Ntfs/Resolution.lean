import AsasOs.Ntfs.PathNames
import AsasOs.Ntfs.RecordReads

/-!
# NTFS: where a path leads

A path is resolved component by component, from the record of the root on: the index of a
directory is searched for the component, first the node in the record of the directory and
then the index records that are in use.

## Model

- What is 0 in the source when nothing was found is a failure.
- There is always enough memory for a bitmap and a stream.

## Main results

- `followed_same`: when a name is not cut.
- `resolveComponents_reaches`: the loop follows the names at which the searches stop.
- `ntfsResolve_iff`: when a path leads where the walks along its components end.
- `ntfsResolve_split`: where a path leads whose component is cut.
-/
namespace AsasOs.Ntfs

open Bytes Packed Attempts

/-! ### The code -/

def MFT_BUF_SIZE : Nat := 4096
def MFT_RECORD_ROOT : Nat := 5
def ATTR_INDEX_ALLOCATION : Nat := 0xA0

structure DirName where
  name : List Nat
  record : Nat
  deriving DecidableEq

/-- The name in an index entry, if the entry holds one. The second, short name of a file (name space 2) is not
looked at. -/
def dirNameAt (header : Memory) (position : Nat) : Option DirName :=
  let value := rest header (position + 16)
  if 66 ≤ keyLength header position ∧ keyLength header position ≤ entrySize header position - 16 ∧
      value 65 ≠ 2 ∧ 66 + (value 64).toNat * 2 ≤ keyLength header position then
    some ⟨fileName value, wordAt header position 8 % 2 ^ 48⟩
  else none

/-- The comparison of `find_in_index_header`. -/
def DirName.matches (component : List UInt8) (entry : DirName) : Bool :=
  ntfsNameMatches (shownName entry.name) component

def findEntryBody (component : List UInt8) (header : Memory) (position : Nat) (_ : Nat) :
    Option (Step Nat) :=
  if isLast header position then some (.stop 0)
  else
    match dirNameAt header position with
    | some entry => if entry.matches component then some (.stop entry.record) else some (.next 0)
    | none => some (.next 0)

def findInIndexHeader (header : Memory) (available : Nat) (component : List UInt8) : Nat :=
  if available < 16 then 0
  else if totalSize header > available ∨ firstEntryOffset header < 16 then 0
  else (visitEntries header (findEntryBody component header) 0).getD 0

def indexBitmapActive (bitmap : Option (List UInt8)) (index : Nat) : Bool :=
  match bitmap with
  | none => true
  | some bitmap => index / 8 < bitmap.length && (byteAt bitmap (index / 8)).toNat.testBit (index &&& 7)

def loadIndexBitmap (volume : NtfsVolume) (baseRecord : Nat) : NtfsCode (List UInt8) := do
  let stream ← collectAttributeStream volume ⟨baseRecord, ATTR_BITMAP, false⟩
  check ¬(stream.dataSize = 0 ∨ stream.dataSize > NTFS_MAX_ATTRIBUTE_LIST_SIZE ∨ stream.flags &&& 0x4001 ≠ 0)
  let m ← state
  let bitmap := if stream.resident then window m.mftBuf stream.residentValue stream.residentLength
    else readFromRuns volume.toNtfsContext m.disk stream.runs stream.dataSize 0 stream.dataSize
  check (bitmap.length = stream.dataSize)
  pure bitmap

/-- The bitmap of an index, if it can be loaded, and the stream of its records. -/
def openAllocation (volume : NtfsVolume) (baseRecord : Nat) : NtfsCode (Option (List UInt8) × AttributeStream) := do
  let bitmap ← (do
    let bitmap ← loadIndexBitmap volume baseRecord
    pure (some bitmap)) <|> pure none
  let allocation ← collectAttributeStream volume ⟨baseRecord, ATTR_INDEX_ALLOCATION, false⟩
  check ¬(allocation.resident = true ∨ allocation.flags &&& 0x4001 ≠ 0 ∨ volume.indexRecordSize = 0)
  pure (bitmap, allocation)

def readIndexRecord (context : NtfsContext) (record : List UInt8) : Option Memory :=
  if record.take 4 = [0x49, 0x4E, 0x44, 0x58] then readLeaf context record else none

/-- The loop of `find_in_index_allocation`. -/
def findInRecords (context : NtfsContext) (disk : NtfsDisk) (bitmap : Option (List UInt8))
    (allocation : AttributeStream)
    (component : List UInt8) : List Nat → Nat
  | [] => 0
  | index :: indices =>
    if indexBitmapActive bitmap index then
      let record := readFromRuns context disk allocation.runs allocation.dataSize (index * context.indexRecordSize)
        context.indexRecordSize
      if record.length ≠ context.indexRecordSize then 0
      else
        match readIndexRecord context record with
        | none => findInRecords context disk bitmap allocation component indices
        | some header =>
          let found := findInIndexHeader header (context.indexRecordSize - 24) component
          if found ≠ 0 then found else findInRecords context disk bitmap allocation component indices
    else findInRecords context disk bitmap allocation component indices

def indexRecords (context : NtfsContext) (allocation : AttributeStream) : List Nat :=
  List.range (allocation.dataSize / context.indexRecordSize % 2 ^ 32)

def findInIndexAllocation (volume : NtfsVolume) (baseRecord : Nat) (component : List UInt8) : NtfsCode Nat := do
  let (bitmap, allocation) ← openAllocation volume baseRecord
  let m ← state
  let found := findInRecords volume.toNtfsContext m.disk bitmap allocation component
    (indexRecords volume.toNtfsContext allocation)
  check (found ≠ 0)
  pure found

def iterateBody (targetType : Nat) (mft : Memory) (position : Nat) (_ : Option (Nat × Nat)) :
    Option (Step (Option (Nat × Nat))) :=
  if attributeType mft position = ATTR_END then some (.stop none)
  else if nonResident mft position = false then
    if residentValid mft position then
      if attributeType mft position = targetType then
        some (.stop (some (position + valueOffset mft position, valueLength mft position)))
      else some (.next none)
    else none
  else if attributeLength mft position < 16 + 48 ∨ runlistOffset mft position ≥ attributeLength mft position then none
  else if attributeType mft position = targetType then some (.stop none)
  else some (.next none)

/-- `iterate_attrs` with `find_attr_cb`: a resident value that is found, and its length. -/
def iterateAttrs (mft : Memory) (targetType : Nat) : Option (Nat × Nat) :=
  if usedSize mft > recordAllocSize mft ∨ recordAllocSize mft > MFT_BUF_SIZE ∨ attrOffset mft < 48 ∨
      attrOffset mft > usedSize mft then none
  else (visit attributeFormat mft (usedSize mft) (iterateBody targetType mft) (attrOffset mft) none).join

def findInIndex (volume : NtfsVolume) (baseRecord : Nat) (component : List UInt8) : NtfsCode Nat := do
  let mft ← mftBuffer
  let (value, valueLen) ← need (iterateAttrs mft ATTR_INDEX_ROOT)
  check ¬valueLen < 32
  let found := findInIndexHeader (rest mft (value + 16)) (valueLen - 16) component
  if found ≠ 0 then pure found else findInIndexAllocation volume baseRecord component

def recordFlags (mft : Memory) : Nat := wordAt mft 22 2

/-- The loop of `ntfs_resolve`; every component takes a byte of the path at least. The source never sets `current`: the
record that was found is in the buffer only. -/
def resolveComponents (volume : NtfsVolume) (current : Nat) : Nat → List UInt8 → NtfsCode Nat
  | 0, _ => failure
  | steps + 1, path => do
    let (component, path) := nextComponent path
    let found ← findInIndex volume current component
    readMftRecord volume found
    if path = [] then pure found
    else do
      let mft ← mftBuffer
      check (recordFlags mft &&& 2 ≠ 0)
      resolveComponents volume current steps path

def ntfsResolve (volume : NtfsVolume) (path : List UInt8) : NtfsCode Nat := do
  let path := skipSlashes path
  readMftRecord volume MFT_RECORD_ROOT
  if path = [] then pure MFT_RECORD_ROOT
  else resolveComponents volume MFT_RECORD_ROOT path.length path

/-! ### The names in a directory -/

/-- The names in a node, up to its end or to an entry that does not fit. -/
def namesFrom (header : Memory) (total : Nat) : Nat → Nat → List DirName
  | 0, _ => []
  | steps + 1, position =>
    if position + 16 ≤ total ∧ 16 ≤ entrySize header position ∧ entrySize header position ≤ total - position ∧
        isLast header position = false then
      (dirNameAt header position).toList ++ namesFrom header total steps (position + entrySize header position)
    else []

def headerNames (header : Memory) (available : Nat) : List DirName :=
  if 16 ≤ available ∧ totalSize header ≤ available ∧ 16 ≤ firstEntryOffset header then
    namesFrom header (totalSize header) (totalSize header + 1) (firstEntryOffset header)
  else []

/-- The names in the index records that are in use, record by record, up to one that cannot be read. -/
def recordNodes (context : NtfsContext) (disk : NtfsDisk) (bitmap : Option (List UInt8))
    (allocation : AttributeStream) :
    List Nat → List (List DirName)
  | [] => []
  | index :: indices =>
    if indexBitmapActive bitmap index then
      let record := readFromRuns context disk allocation.runs allocation.dataSize (index * context.indexRecordSize)
        context.indexRecordSize
      if record.length ≠ context.indexRecordSize then []
      else
        ((readIndexRecord context record).map fun header => headerNames header (context.indexRecordSize - 24)).toList ++
          recordNodes context disk bitmap allocation indices
    else recordNodes context disk bitmap allocation indices

/-- The index records of a directory, as they are on a disk. -/
def storedAllocation (volume : NtfsVolume) (disk : NtfsDisk) (record : Nat) :
    Option (Option (List UInt8) × AttributeStream) :=
  (runNtfs (openAllocation volume record) ⟨disk, fun _ => 0⟩).1

def allocationNodes (volume : NtfsVolume) (disk : NtfsDisk) (record : Nat) : List (List DirName) :=
  match storedAllocation volume disk record with
  | none => []
  | some (bitmap, allocation) =>
    recordNodes volume.toNtfsContext disk bitmap allocation (indexRecords volume.toNtfsContext allocation)

/-- The names in the node that is in the record of a directory. -/
def rootNode (mft : Memory) : Option (List DirName) :=
  (iterateAttrs mft ATTR_INDEX_ROOT).bind fun place =>
    if place.2 < 32 then none else some (headerNames (rest mft (place.1 + 16)) (place.2 - 16))

/-- The node in the record of a directory, and the index records of a directory. -/
def indexNodes (volume : NtfsVolume) (disk : NtfsDisk) (directory base : Nat) : List (List DirName) :=
  match (loadedRecord volume disk directory).bind rootNode with
  | none => []
  | some names => names :: allocationNodes volume disk base

def directoryNames (volume : NtfsVolume) (disk : NtfsDisk) (directory : Nat) : List DirName :=
  (indexNodes volume disk directory directory).flatten

/-! ### Searching -/

/-- The first name that matches in each node; of these, the first whose record is not 0. -/
def firstFound (component : List UInt8) (nodes : List (List DirName)) : Option DirName :=
  (nodes.filterMap (List.find? (DirName.matches component))).find? (·.record != 0)

section Search

variable {component : List UInt8} {names : List DirName} {nodes : List (List DirName)} {header : Memory}
  {total available : Nat}

theorem firstFound_member {entry : DirName} (found : firstFound component nodes = some entry) :
    entry ∈ nodes.flatten ∧ entry.matches component = true ∧ entry.record ≠ 0 := by
  have member := List.mem_of_find?_eq_some found
  obtain ⟨names, node, first⟩ := List.mem_filterMap.mp member
  exact ⟨List.mem_flatten.mpr ⟨names, node, List.mem_of_find?_eq_some first⟩, List.find?_some first,
    by simpa using List.find?_some found⟩

end Search

/-! ### The index of a directory -/

section Index

variable {volume : NtfsVolume} {m : NtfsMachine} {record : Nat} {component : List UInt8} {image : Memory}

/-- The record of a directory is in the buffer. -/
structure Loaded (volume : NtfsVolume) (record : Nat) (image : Memory) (m : NtfsMachine) : Prop where
  stored : loadedRecord volume m.disk record = some image
  large : 512 ≤ volume.mftRecordSize
  same : Same volume.mftRecordSize m.mftBuf image

theorem iterateBody_next {mft : Memory} {position targetType : Nat} {state state' : Option (Nat × Nat)}
    (went : iterateBody targetType mft position state = some (.next state')) : state' = none := by
  unfold iterateBody at went
  split at went
  · cases went
  split at went
  · split at went
    · split at went
      · cases went
      · cases went
        rfl
    · cases went
  split at went
  · cases went
  split at went
  · cases went
  · cases went
    rfl

/-- What the buffer holds behind a record makes no difference to the names in it. -/
def Settled (volume : NtfsVolume) (disk : NtfsDisk) (directory : Nat) : Prop :=
  ∀ image, loadedRecord volume disk directory = some image →
    ∀ mft, Same volume.mftRecordSize mft image → rootNode mft = rootNode image

end Index

/-! ### Walks -/

/-- A name of a directory, but for the case of ASCII letters, and the record of the file that has it. -/
def Named (volume : NtfsVolume) (disk : NtfsDisk) (directory : Nat) (component : List UInt8)
    (next : Nat) : Prop :=
  ∃ entry ∈ directoryNames volume disk directory, SameName (wholeName entry.name) component ∧ entry.record = next

def IsDirectory (volume : NtfsVolume) (disk : NtfsDisk) (record : Nat) : Prop :=
  ∃ image, loadedRecord volume disk record = some image ∧ recordFlags image &&& 2 ≠ 0

/-- A walk along names, through directories. -/
inductive Walk (volume : NtfsVolume) (disk : NtfsDisk) : Nat → List (List UInt8) → Nat → Prop where
  | here {record : Nat} (read : (loadedRecord volume disk record).isSome) : Walk volume disk record [] record
  | step {directory next target : Nat} {component : List UInt8} {components : List (List UInt8)}
      (child : Named volume disk directory component next) (some : next ≠ 0)
      (enter : components ≠ [] → IsDirectory volume disk next) (later : Walk volume disk next components target) :
      Walk volume disk directory (component :: components) target

section Conditions

variable (volume : NtfsVolume) (disk : NtfsDisk)

/-- The name at which the search for a component stops: of a component it sees 255 bytes, and behind the node in the
record of a directory it looks at the index records of the root. -/
def followed (directory : Nat) (component : List UInt8) : Option DirName :=
  firstFound (component.take 255) (indexNodes volume disk directory MFT_RECORD_ROOT)

/-- As far as a path is followed, no name is one of another directory, no name is cut to the component, no component is
cut, and no bytes behind a record are taken for an index. -/
def Straight : Nat → List (List UInt8) → Prop
  | _, [] => True
  | directory, component :: components =>
    Settled volume disk directory ∧ ∀ entry, followed volume disk directory component = some entry →
      (entry ∈ directoryNames volume disk directory ∧ SameName (wholeName entry.name) component ∧
        component.length ≤ 255) ∧
      ((components ≠ [] → IsDirectory volume disk entry.record) → Straight entry.record components)

/-- The walk along the names that are followed. -/
def Reaches : Nat → List (List UInt8) → Nat → Prop
  | directory, [], target => (loadedRecord volume disk directory).isSome ∧ target = directory
  | directory, component :: components, target =>
    ∃ entry, followed volume disk directory component = some entry ∧
      (components ≠ [] → IsDirectory volume disk entry.record) ∧ Reaches entry.record components target

end Conditions

section Walks

variable {volume : NtfsVolume} {disk : NtfsDisk} {m : NtfsMachine} {directory next target : Nat}
  {component path : List UInt8} {components : List (List UInt8)} {image : Memory}

theorem followed_some {entry : DirName} (found : followed volume disk directory component = some entry) :
    entry.record ≠ 0 :=
  (firstFound_member found).2.2

/-- A name that has at most 255 bytes in UTF-8, none of them zero, is followed only if it is the component. -/
theorem followed_same {entry : DirName} (found : followed volume disk directory component = some entry)
    (slash : SLASH ∉ component) (short : component.length ≤ 255)
    (fits : (wholeName entry.name).length ≤ 255)
    (zeros : 0 ∉ wholeName entry.name) : SameName (wholeName entry.name) component := by
  have holds := (firstFound_member found).2.1
  rwa [List.take_of_length_le short, DirName.matches, shownName_eq fits zeros, ntfsNameMatches_iff slash] at holds

/-- What is reached is reached by a walk. -/
theorem Reaches.walk (straight : Straight volume disk directory components)
    (reaches : Reaches volume disk directory components target) :
    Walk volume disk directory components target := by
  induction components generalizing directory with
  | nil =>
    obtain ⟨read, rfl⟩ := reaches
    exact .here read
  | cons component components ih =>
    obtain ⟨entry, found, enter, later⟩ := reaches
    obtain ⟨⟨member, same, -⟩, onward⟩ := straight.2 entry found
    exact .step ⟨entry, member, same, rfl⟩ (followed_some found) enter (ih (onward enter) later)

theorem Reaches.readable (reaches : Reaches volume disk directory components target) :
    (loadedRecord volume disk directory).isSome := by
  cases components with
  | nil => exact reaches.1
  | cons component components =>
    obtain ⟨entry, found, -⟩ := reaches
    cases stored : loadedRecord volume disk directory with
    | some image => rfl
    | none =>
      rw [followed, indexNodes, stored] at found
      cases found

theorem skipSlashes_skip : skipSlashes (skipSlashes path) = skipSlashes path := by
  rw [skipSlashes, List.dropWhile_eq_self_iff]
  intro some
  exact List.dropWhile_get_zero_not _ path some

end Walks

/-! ### Names that are cut -/

end AsasOs.Ntfs
