import AsasOs.ExFat.Volume

/-!
# exFAT: names, directories and entry sets

The middle part of `exfat.c`: the components of a path, the walk over the entry sets
of a directory, and the bytes of an entry set as they are built, published and
retired.
-/
namespace AsasOs.ExFat

open Block Bytes

/-- A path: its bytes before the terminating zero. -/
abbrev Path := List UInt8

/-- `/`. -/
def SLASH : UInt8 := 0x2F

def skipSlashes (path : Path) : Path := path.dropWhile (· == SLASH)

/-! ### Names -/

def upcaseCharacter (context : Context) (character : Nat) : Nat :=
  match context.upcase with
  | some table => table character
  | none =>
    if 0x61 ≤ character ∧ character ≤ 0x7A then character - 32 else character

/-- The units of a component, and what follows it; the loop of `utf8_component`. -/
def utf8Units : Path → Option (List Nat × Path)
  | [] => some ([], [])
  | first :: rest =>
    if first = SLASH then some ([], first :: rest)
    else if first < 0x80 then do
      let (units, after) ← utf8Units rest
      return (first.toNat :: units, after)
    else
      match rest with
      | [] => none
      | second :: rest =>
        if first &&& 0xE0 = 0xC0 ∧ second &&& 0xC0 = 0x80 then
          let code := (first &&& 0x1F).toNat * 64 + (second &&& 0x3F).toNat
          if code < 0x80 then none
          else do
            let (units, after) ← utf8Units rest
            return (code :: units, after)
        else
          match rest with
          | [] => none
          | third :: rest =>
            if first &&& 0xF0 = 0xE0 ∧ second &&& 0xC0 = 0x80 ∧ third &&& 0xC0 = 0x80 then
              let code := (first &&& 0x0F).toNat * 4096 + (second &&& 0x3F).toNat * 64 +
                (third &&& 0x3F).toNat
              if code < 0x800 ∨ (0xD800 ≤ code ∧ code ≤ 0xDFFF) then none
              else do
                let (units, after) ← utf8Units rest
                return (code :: units, after)
            else none

/-- `utf8_component`: a name of at most 255 units, and the path after it. -/
def utf8Component (path : Path) : Option (List Nat × Path) := do
  let (units, after) ← utf8Units (skipSlashes path)
  guard (units.length ≤ 255 ∧ units.length ≠ 0)
  return (units, after)

def namesEqual (context : Context) (left right : List Nat) : Bool :=
  left.map (upcaseCharacter context) == right.map (upcaseCharacter context)

def nameHash (context : Context) (name : List Nat) : Nat :=
  let step (hash : UInt16) (byte : UInt8) := ((hash <<< 15) ||| (hash >>> 1)) + byte.toUInt16
  (name.foldl (fun hash unit =>
    let value := upcaseCharacter context unit
    step (step hash (UInt8.ofNat value)) (UInt8.ofNat (value / 256))) 0).toNat

/-- `utf16_to_utf8`, into a buffer that is large enough; nothing when a surrogate has no
partner. -/
def utf16ToUtf8 : List Nat → Option (List UInt8)
  | [] => some []
  | unit :: rest =>
    if 0xD800 ≤ unit ∧ unit ≤ 0xDFFF then
      match rest with
      | low :: rest =>
        if unit ≤ 0xDBFF ∧ 0xDC00 ≤ low ∧ low ≤ 0xDFFF then do
          let code := 0x10000 + (unit - 0xD800) * 1024 + (low - 0xDC00)
          let after ← utf16ToUtf8 rest
          return [UInt8.ofNat (0xF0 + code / 262144), UInt8.ofNat (0x80 + code / 4096 % 64),
            UInt8.ofNat (0x80 + code / 64 % 64), UInt8.ofNat (0x80 + code % 64)] ++ after
        else none
      | [] => none
    else do
      let after ← utf16ToUtf8 rest
      if unit < 0x80 then return UInt8.ofNat unit :: after
      else if unit < 0x800 then
        return [UInt8.ofNat (0xC0 + unit / 64), UInt8.ofNat (0x80 + unit % 64)] ++ after
      else
        return [UInt8.ofNat (0xE0 + unit / 4096), UInt8.ofNat (0x80 + unit / 64 % 64),
          UInt8.ofNat (0x80 + unit % 64)] ++ after

/-! ### Entry sets -/

/-- `entry_set_checksum`, which skips the field that holds it. -/
def entrySetChecksum (set : List UInt8) : Nat :=
  let step (checksum : UInt16) (byte : UInt8) :=
    ((checksum <<< 15) ||| (checksum >>> 1)) + byte.toUInt16
  ((set.take 2 ++ set.drop 4).foldl step 0).toNat

def nameUnits (entry : List UInt8) : List Nat :=
  (List.range 15).map fun character => getLE entry (2 + character * 2) 2

/-- The node of a complete entry set whose last byte is the one before `processed`. -/
def nodeOfSet (context : Context) (directory : Node) (set : List UInt8) (processed : Nat) :
    Option Node :=
  let count := set.length / 32
  let entries := (List.range count).map fun index => slice set (index * 32) 32
  let names := (entries.drop 2).filter fun entry => byteAt entry 0 == EXFAT_ENTRY_NAME
  let nameLength := (byteAt set 35).toNat
  let name := (names.flatMap nameUnits).take nameLength
  let node : Node :=
    { attributes := getLE set 4 2
      noFatChain := byteAt set 33 &&& EXFAT_STREAM_NO_FAT_CHAIN != 0
      name := name
      validDataLength := getLE set 40 8
      firstCluster := getLE set 52 4
      dataLength := getLE set 56 8
      parentFirstCluster := directory.firstCluster
      parentNoFatChain := directory.noFatChain
      parentDataLength := directory.dataLength
      entryOffset := processed - count * 32
      entryCount := count }
  if byteAt set 32 = EXFAT_ENTRY_STREAM ∧ entrySetChecksum set = getLE set 2 2 ∧
      nameLength ≠ 0 ∧ ¬node.validDataLength > node.dataLength ∧
      ¬(node.dataLength ≠ 0 ∧ ¬context.validCluster node.firstCluster) ∧
      name.length = nameLength then
    some node
  else none

/-! ### The walk over a directory -/

/-- The local variables of `visit_directory`, and what the visitor has collected. -/
structure Visit (σ : Type) where
  set : List UInt8
  setExpected : Nat
  processed : Nat
  value : σ
  deriving DecidableEq

/-- An `EXFAT_VISITOR`: whether to go on, and what is collected. -/
abbrev Visitor (σ : Type) := Node → σ → Bool × σ

section Visiting

variable {σ : Type} (context : Context) (directory : Node) (visitor : Visitor σ)

def isRoot : Bool := directory.dataLength == 0

/-- One entry of `visit_directory`: whether the walk ends with success here. -/
def visitEntry (entry : List UInt8) (v : Visit σ) : Bool × Visit σ :=
  let type := byteAt entry 0
  if !isRoot directory ∧ v.processed ≥ directory.dataLength then (true, v)
  else
    let v := { v with processed := v.processed + 32 }
    if type = 0 then (true, v)
    else if v.setExpected = 0 then
      if type ≠ EXFAT_ENTRY_FILE then (false, v)
      else
        let expected := (byteAt entry 1).toNat + 1
        if expected < 3 ∨ expected > 19 then (false, v)
        else (false, { v with setExpected := expected, set := entry })
    else
      let set := v.set ++ entry
      if set.length = v.setExpected * 32 then
        let v := { v with setExpected := 0, set := [] }
        match nodeOfSet context directory set v.processed with
        | none => (false, v)
        | some node =>
          match visitor node v.value with
          | (goesOn, value) => (!goesOn, { v with value := value })
      else (false, { v with set := set })

def visitEntries : List (List UInt8) → Visit σ → Bool × Visit σ
  | [], v => (false, v)
  | entry :: rest, v =>
    match visitEntry context directory visitor entry v with
    | (true, v) => (true, v)
    | (false, v) => visitEntries rest v

def sectorEntries (sector : List UInt8) : List (List UInt8) :=
  (List.range (context.sectorSize / 32)).map fun index => slice sector (index * 32) 32

def visitSectors (cluster : Nat) : List Nat → Visit σ → ExfatCode (Bool × Visit σ)
  | [], v => return (false, v)
  | sectorIndex :: rest, v => do
    let sector ← readSector context (context.clusterLba cluster + sectorIndex)
    match visitEntries context directory visitor (sectorEntries context sector) v with
    | (true, v) => return (true, v)
    | (false, v) => visitSectors cluster rest v

/-- The end of the walk when there is no further cluster. -/
def visitEnd (v : Visit σ) : ExfatCode σ := do
  guard (!isRoot directory ∧ v.processed ≥ directory.dataLength)
  return v.value

/-- The loop of `visit_directory` over the clusters that are left. -/
def visitClusters : Nat → Nat → Visit σ → ExfatCode σ
  | 0, _, v => visitEnd directory v
  | remaining + 1, clusterIndex, v => do
    match ← Prog.observe (streamCluster context directory.firstCluster directory.noFatChain
        clusterIndex) with
    | none => visitEnd directory v
    | some cluster =>
      let (ended, v) ← visitSectors context directory visitor cluster
        (List.range context.sectorsPerCluster) v
      if ended then return v.value
      else if directory.noFatChain then
        guard !isRoot directory
        visitClusters remaining (clusterIndex + 1) v
      else
        match ← Prog.observe (readFat context cluster) with
        | none => return v.value
        | some next =>
          if next ≥ EXFAT_EOC then return v.value
          else visitClusters remaining (clusterIndex + 1) v

/-- `visit_directory`: what the visitor has collected, unless a sector cannot be read. -/
def visitDirectory (value : σ) : ExfatCode σ :=
  visitClusters context directory visitor context.clusterCount 0 ⟨[], 0, 0, value⟩

end Visiting

section Paths

variable (context : Context)

def findVisitor (name : List Nat) : Visitor (Option Node) := fun node found =>
  if namesEqual context name node.name then (false, some node) else (true, found)

def rootNode : Node :=
  { firstCluster := context.rootCluster, attributes := EXFAT_ATTR_DIRECTORY }

/-- The loop of `resolve_path`; every component takes a byte of the path at least. -/
def resolveComponents : Nat → Path → Node → ExfatCode Node
  | _, [], current => return current
  | 0, _ :: _, _ => failure
  | components + 1, path@(_ :: _), current => do
    guard current.isDirectory
    let (name, after) ← Prog.ofOption (utf8Component path)
    let found ← visitDirectory context current (findVisitor context name) none
    let node ← Prog.ofOption found
    resolveComponents components (skipSlashes after) node

def resolvePath (path : Path) : ExfatCode Node :=
  resolveComponents context path.length (skipSlashes path) (rootNode context)

/-! ### The bytes of a directory -/

def directoryLength (directory : Node) : ExfatProg Nat :=
  if directory.dataLength ≠ 0 then return directory.dataLength
  else do
    let count ← chainLength context context.clusterCount directory.firstCluster
    return count * context.clusterSize

def readDirectoryBytes (directory : Node) (offset size : Nat) : ExfatCode (List UInt8) := do
  let length ← directoryLength context directory
  let bytes ← readStream context directory.firstCluster directory.noFatChain length offset size
  guard (bytes.length = size)
  return bytes

def writeDirectoryBytes (directory : Node) (offset : Nat) (source : List UInt8) : ExfatCode Unit := do
  let length ← directoryLength context directory
  guard ((offset + source.length) % 2 ^ 64 ≤ length)
  writeStreamMetadata context directory.firstCluster directory.noFatChain offset source

/-- The directory that a node lies in, as far as `read_node_set` needs it. -/
def Node.parent (node : Node) : Node :=
  { firstCluster := node.parentFirstCluster
    noFatChain := node.parentNoFatChain
    dataLength := node.parentDataLength }

def readNodeSet (node : Node) : ExfatCode (List UInt8) := do
  guard (3 ≤ node.entryCount ∧ node.entryCount ≤ 19)
  readDirectoryBytes context node.parent node.entryOffset (node.entryCount * 32)

def writeNodeSet (node : Node) (set : List UInt8) : ExfatCode Unit :=
  writeDirectoryBytes context node.parent node.entryOffset set

def streamFlags (noFatChain : Bool) : UInt8 := if noFatChain then EXFAT_STREAM_NO_FAT_CHAIN else 0

def withChecksum (set : List UInt8) : List UInt8 := putLE set 2 2 (entrySetChecksum set)

def updateNodeStream (node : Node) (firstCluster dataLength validLength : Nat)
    (noFatChain : Bool) : ExfatCode Unit := do
  let set ← readNodeSet context node
  guard (byteAt set 32 = EXFAT_ENTRY_STREAM)
  let set := put set 33 [streamFlags noFatChain]
  let set := putLE (putLE (putLE set 40 8 validLength) 52 4 firstCluster) 56 8 dataLength
  writeNodeSet context node (withChecksum set)

/-- The name entry with the 15 units of a name from `index * 15` on. -/
def nameEntry (name : List Nat) (index : Nat) : List UInt8 :=
  EXFAT_ENTRY_NAME :: 0 :: (List.range 15).flatMap fun character =>
    digits 2 (name.getD (index * 15 + character) 0)

def buildEntrySet (name : List Nat) (attributes firstCluster dataLength validLength : Nat)
    (noFatChain : Bool) : Option (List UInt8) :=
  let nameEntries := (name.length + 14) / 15
  let count := 2 + nameEntries
  if name.length = 0 ∨ name.length > 255 ∨ count > 19 then none
  else
    let file := putLE (put (List.replicate 32 0) 0 [EXFAT_ENTRY_FILE, UInt8.ofNat (count - 1)])
      4 2 attributes
    let stream := put (List.replicate 32 0) 0
      [EXFAT_ENTRY_STREAM, streamFlags noFatChain, 0, UInt8.ofNat name.length]
    let stream := putLE stream 4 2 (nameHash context name)
    let stream := putLE (putLE (putLE stream 8 8 validLength) 20 4 firstCluster) 24 8 dataLength
    some (withChecksum (file ++ stream ++ (List.range nameEntries).flatMap (nameEntry name)))

/-! ### Free entries -/

/-- The loop of `extend_directory` that zeroes the new cluster. -/
def zeroCluster (cluster : Nat) : List Nat → ExfatCode Unit
  | [] => return ()
  | sector :: rest => do
    blockDeviceWrite (context.clusterLba cluster + sector)
      (List.replicate context.sectorSize 0)
    zeroCluster cluster rest

/-- The loop of `extend_directory` that chains the old clusters. -/
def chainClusters : List Nat → ExfatCode Unit
  | cluster :: next :: rest => do
    writeFat context cluster next
    chainClusters (next :: rest)
  | _ => return ()

/-- `extend_directory`: the directory with one more cluster. -/
def extendDirectory (directory : Node) : ExfatCode Node := do
  let oldClusters ← collectClusters context directory
  guard (oldClusters.length ≠ 0)
  let newClusters ← allocateClusters context 1
  let newCluster := newClusters.headD 0
  zeroCluster context newCluster (List.range context.sectorsPerCluster)
  chainClusters context oldClusters
  writeFat context (oldClusters.getLastD 0) newCluster
  writeFat context newCluster 0xFFFFFFFF
  let directory :=
    { directory with
      noFatChain := false
      dataLength := (oldClusters.length + 1) % 2 ^ 32 * context.clusterSize }
  if directory.entryCount ≠ 0 then
    updateNodeStream context directory directory.firstCluster directory.dataLength
      directory.dataLength false
  return directory

/-- Consecutive free entries, and where they start. -/
structure FreeRun where
  consecutive : Nat
  start : Nat

/-- The loop of `find_free_entries` over the offsets of a directory: the offset that is
found, or the run at the end. -/
def scanEntries (directory : Node) (needed : Nat) : List Nat → FreeRun → ExfatCode (Nat ⊕ FreeRun)
  | [], run => return .inr run
  | offset :: rest, run => do
    let entry ← readDirectoryBytes context directory offset 32
    if byteAt entry 0 = 0 ∨ byteAt entry 0 &&& 0x80 = 0 then
      let start := if run.consecutive = 0 then offset else run.start
      if run.consecutive + 1 = needed then return .inl start
      else scanEntries directory needed rest ⟨run.consecutive + 1, start⟩
    else scanEntries directory needed rest ⟨0, run.start⟩

/-- The outer loop of `find_free_entries`. Each round but the last extends the directory,
which `collect_clusters` allows up to `cluster_count` clusters. -/
def findFreeLoop (needed : Nat) : Nat → Node → FreeRun → ExfatCode (Nat × Node)
  | 0, _, _ => failure
  | rounds + 1, directory, run => do
    let length ← directoryLength context directory
    match ← scanEntries context directory needed
        ((List.range (length / 32)).map (· * 32)) run with
    | .inl start => return (start, directory)
    | .inr run => do
      let directory ← extendDirectory context directory
      findFreeLoop needed rounds directory run

/-- `find_free_entries`: the offset, and the directory, which may have been extended. -/
def findFreeEntries (directory : Node) (needed : Nat) : ExfatCode (Nat × Node) :=
  findFreeLoop context needed (context.clusterCount + 2) directory ⟨0, 0⟩

end Paths

end AsasOs.ExFat
