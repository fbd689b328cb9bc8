import AsasOs.Lib.Bytes
import AsasOs.Lib.Checked

/-!
# FAT16 volumes

`fat16.c`: the table of clusters, directories and paths. Its loops follow the links of clusters as long as they
lead on, so they may run out of steps. A call that returns zero is refused here.

## Model

- Some sectors of the device can be read, and some can be written.
- A link is read from the first table, and written to every one.
- Sector numbers have 32 bits.
-/
namespace AsasOs.Fat16

open Bytes Checked

abbrev Memory := Nat → UInt8

abbrev Name := List UInt8

def SLASH : UInt8 := 0x2F
def DOT : UInt8 := 0x2E
def SPACE : UInt8 := 0x20

/-- What of `FAT16_BPB` is used. -/
structure Bpb where
  sectorsPerCluster : Nat
  reservedSectors : Nat
  fatCount : Nat
  rootEntryCount : Nat
  sectorsPerFat : Nat

/-- `fat16_initialize`, with the boot sector. -/
def fat16Initialize (sector : Memory) : Option Bpb :=
  if wordAt sector 11 2 ≠ 512 ∨ wordAt sector 13 1 = 0 then none
  else
    some
      { sectorsPerCluster := wordAt sector 13 1
        reservedSectors := wordAt sector 14 2
        fatCount := wordAt sector 16 1
        rootEntryCount := wordAt sector 17 2
        sectorsPerFat := wordAt sector 22 2 }

/-- A mounted volume, and the device. -/
structure Volume where
  bpb : Bpb
  content : Nat → Memory
  readable : Nat → Bool
  writable : Nat → Bool

def Mounted (v : Volume) : Prop := ∃ sector, fat16Initialize sector = some v.bpb

def rootStartSector (bpb : Bpb) : Nat := bpb.reservedSectors + bpb.fatCount * bpb.sectorsPerFat

def rootSectorCount (bpb : Bpb) : Nat := (bpb.rootEntryCount * 32 + 511) / 512

def dataStartSector (bpb : Bpb) : Nat := rootStartSector bpb + rootSectorCount bpb

/-- `virtio_block_read_sector` -/
def readSector (v : Volume) (lba : Nat) : Option Memory := if v.readable lba then some (v.content lba) else none

def Volume.put (v : Volume) (lba : Nat) (sector : Memory) : Volume :=
  { v with content := Function.update v.content lba sector }

/-- `virtio_block_write_sector` -/
def writeSector (v : Volume) (lba : Nat) (sector : Memory) : Option Volume :=
  if v.writable lba then some (v.put lba sector) else none

/-- `data_start_sector + ((UINT32)cluster - 2) * bpb.sectors_per_cluster + cluster_sector` -/
def clusterLba (bpb : Bpb) (cluster clusterSector : Nat) : Nat :=
  (dataStartSector bpb + (cluster + 2 ^ 32 - 2) * bpb.sectorsPerCluster + clusterSector) % 2 ^ 32

/-! ### Clusters -/

def fatLba (bpb : Bpb) (table cluster : Nat) : Nat :=
  bpb.reservedSectors + table * bpb.sectorsPerFat + cluster * 2 / 512

def fat16NextCluster (v : Volume) (cluster : Nat) : Nat :=
  match readSector v (fatLba v.bpb 0 cluster) with
  | some sector => wordAt sector (cluster * 2 % 512) 2
  | none => 0xFFFF

/-- One table in `fat16_set_cluster`. -/
def setLink (cluster value : Nat) (v : Volume) (table : Nat) : Option Volume := do
  let sector ← readSector v (fatLba v.bpb table cluster)
  writeSector v (fatLba v.bpb table cluster) (patch sector (cluster * 2 % 512) (digits 2 value))

def fat16SetCluster (v : Volume) (cluster value : Nat) : Option Volume :=
  (List.range v.bpb.fatCount).foldlM (setLink cluster value) v

/-- The cluster that `fat16_allocate_cluster` takes. -/
def freeCluster (v : Volume) : Option Nat :=
  (List.range' 2 (min (v.bpb.sectorsPerFat * 256) 0xFFF0 - 2)).find? fun cluster => fat16NextCluster v cluster == 0

def fat16AllocateCluster (v : Volume) : Option (Nat × Volume) := do
  let cluster ← freeCluster v
  let v ← fat16SetCluster v cluster 0xFFFF
  some (cluster, v)

/-- The loop of `fat16_free_chain`. -/
def freeBody (s : Volume × Nat) : Run ((Volume × Nat) ⊕ Volume) :=
  if 2 ≤ s.2 ∧ s.2 < 0xFFF8 then do
    let next := fat16NextCluster s.1 s.2
    let v ← supplied (fat16SetCluster s.1 s.2 0)
    pure (.inl (v, next))
  else pure (.inr s.1)

def fat16FreeChain (steps : Nat) (v : Volume) (cluster : Nat) :
    Run Volume := iterate freeBody steps (v, cluster)

/-! ### Directories -/

/-- `FAT16_DIRECTORY_ENTRY` -/
structure Entry where
  name : Name
  attributes : UInt8
  firstCluster : Nat
  size : Nat
  deriving DecidableEq

def entryAt (sector : Memory) (index : Nat) : Entry where
  name := window sector (index * 32) 11
  attributes := sector (index * 32 + 11)
  firstCluster := wordAt sector (index * 32 + 26) 2
  size := wordAt sector (index * 32 + 28) 4

def Entry.first (entry : Entry) : UInt8 := byteAt entry.name 0

def Entry.isFree (entry : Entry) : Bool := entry.first == 0 || entry.first == 0xE5

def Entry.isDirectory (entry : Entry) : Bool := entry.attributes &&& 0x10 != 0

def sectorEntries (sector : Memory) : List Entry := (List.range 16).map (entryAt sector)

/-- What looks through sectors ends with the first sector that gives something, or that cannot be read. -/
def firstIn {ρ : Type} (v : Volume) (look : Nat → Memory → Option ρ) (unread : ρ)
    (sectors : List Nat) : Option ρ :=
  sectors.findSome? fun lba =>
    match readSector v lba with
    | some sector => look lba sector
    | none => some unread

def rootSectors (bpb : Bpb) : List Nat := (List.range (rootSectorCount bpb)).map fun i => rootStartSector bpb + i

def clusterSectors (bpb : Bpb) (cluster : Nat) : List Nat :=
  (List.range bpb.sectorsPerCluster).map (clusterLba bpb cluster)

/-- The loops `while (cluster < 0xFFF8)` over the clusters of a directory. -/
def clusterBody {ρ : Type} (v : Volume) (look : Nat → Memory → Option ρ) (unread last : ρ)
    (cluster : Nat) :
    Run (Nat ⊕ ρ) :=
  if cluster < 0xFFF8 then
    match firstIn v look unread (clusterSectors v.bpb cluster) with
    | some result => pure (.inr result)
    | none => pure (.inl (fat16NextCluster v cluster))
  else pure (.inr last)

/-- The sectors of a directory, where cluster 0 stands for the root directory. -/
def searchDirectory {ρ : Type} (steps : Nat) (v : Volume) (look : Nat → Memory → Option ρ)
    (unread last : ρ)
    (cluster : Nat) : Run ρ :=
  if cluster = 0 then pure ((firstIn v look unread (rootSectors v.bpb)).getD last)
  else iterate (clusterBody v look unread last) steps cluster

/-- What `find_in_directory` takes from a sector: nothing behind the last entry, or the entry. -/
def lookEntry (name : Name) (_ : Nat) (sector : Memory) : Option (Option Entry) :=
  (sectorEntries sector).findSome? fun entry =>
    if entry.first = 0 then some none
    else if entry.first ≠ 0xE5 ∧ entry.attributes ≠ 0x0F ∧ entry.name = name then some (some entry)
    else none

def findInDirectory (steps : Nat) (v : Volume) (cluster : Nat) (name : Name) : Run Entry := do
  let found ← searchDirectory steps v (lookEntry name) none none cluster
  supplied found

/-- A slot in a directory: the sector, what was read from it, and the index of an entry. -/
structure Slot where
  lba : Nat
  sector : Memory
  index : Nat

def Slot.entry (slot : Slot) : Entry := entryAt slot.sector slot.index

def lookSlot (wanted : Entry → Bool) (lba : Nat) (sector : Memory) : Option (Option Slot) :=
  ((List.range 16).find? fun index => wanted (entryAt sector index)).map fun index => some ⟨lba, sector, index⟩

def Entry.named (name : Name) (entry : Entry) : Bool := !entry.isFree && entry.name == name

/-- The second search of `find_directory_entry_slot`. -/
def findFreeSlot (steps : Nat) (v : Volume) (cluster : Nat) (allowFree : Bool) : Run Slot := do
  demand (allowFree = true)
  let found ← searchDirectory steps v (lookSlot Entry.isFree) none none cluster
  supplied found

/-- What the first search looks for. -/
def lookNamed (name : Name) (lba : Nat) (sector : Memory) : Option (Option (Option Slot)) :=
  (lookSlot (Entry.named name) lba sector).map some

/-- What the first search has found, if it has not come to the end. -/
def slotOr (free : Run Slot) : Option (Option Slot) → Run Slot
  | some found => supplied found
  | none => free

/-- `find_directory_entry_slot`, and `find_root_entry_slot` for cluster 0. A sector that cannot be read ends the
search. -/
def findDirectoryEntrySlot (steps : Nat) (v : Volume) (cluster : Nat) (name : Name)
    (allowFree : Bool) : Run Slot :=
  searchDirectory steps v (lookNamed name) (some none) none cluster >>= slotOr (findFreeSlot steps v cluster allowFree)

/-! ### Paths -/

def upperChar (value : UInt8) : UInt8 := if 0x61 ≤ value ∧ value ≤ 0x7A then value - 32 else value

/-- A name of 11 characters that is being written: the characters in front of the dot, and those behind it. -/
structure Parts where
  base : Name
  extension : Option Name

/-- A character in `component_to_name`. -/
def addChar (parts : Parts) (char : UInt8) : Option Parts :=
  match parts.extension with
  | none =>
    if upperChar char = DOT then some { parts with extension := some [] }
    else if parts.base.length ≥ 8 then none
    else some { parts with base := parts.base ++ [upperChar char] }
  | some extension =>
    if upperChar char = DOT ∨ extension.length ≥ 3 then none
    else some { parts with extension := some (extension ++ [upperChar char]) }

def padded (name : Name) (length : Nat) : Name := name ++ List.replicate (length - name.length) SPACE

def componentToName (component : Name) : Option Name := do
  let parts ← component.foldlM addChar ⟨[], none⟩
  if parts.base = [] then none
  else some (padded parts.base 8 ++ padded (parts.extension.getD []) 3)

/-- The loop of `resolve_path`: the rest of the path, and a directory. -/
def resolveBody (steps : Nat) (v : Volume) (s : Name × Nat) : Run ((Name × Nat) ⊕ Entry) := do
  demand (s.1 ≠ [])
  let name ← supplied (componentToName (s.1.takeWhile (· != SLASH)))
  let entry ← findInDirectory steps v s.2 name
  match s.1.dropWhile (· != SLASH) with
  | [] => pure (.inr entry)
  | _ :: rest =>
    demand (entry.isDirectory = true)
    if rest = [] then pure (.inr entry) else pure (.inl (rest, entry.firstCluster))

def resolvePath (steps : Nat) (v : Volume) (path : Name) : Run Entry := do
  demand (path.head? = some SLASH)
  iterate (resolveBody steps v) steps (path.tail, 0)

/-- `resolve_parent`: the first cluster of the parent, and a name. -/
def resolveParent (steps : Nat) (v : Volume) (path : Name) : Run (Nat × Name) := do
  demand (path.head? = some SLASH)
  let component := (path.reverse.takeWhile (· != SLASH)).reverse
  let lastSlash := path.length - component.length - 1
  demand (path.length > 1)
  let name ← supplied (componentToName component)
  if lastSlash = 0 then pure (0, name)
  else do
    demand (lastSlash < 64)
    let parent ← resolvePath steps v (path.take lastSlash)
    demand (parent.isDirectory = true)
    pure (parent.firstCluster, name)

/-! ### Reading -/

/-- The loop of `read_entry` in one cluster, as long as there is something to copy. -/
def readSectors (v : Volume) (fileSize capacity : Nat) (sectors : List Nat) (out : List UInt8) :
    Option (List UInt8) :=
  sectors.foldlM (fun out lba =>
    if out.length < fileSize ∧ out.length < capacity then
      (readSector v lba).map fun sector =>
        out ++ window sector 0 (min (min 512 (fileSize - out.length)) (capacity - out.length))
    else some out) out

/-- The loop of `read_entry`: a cluster, and what has been copied. -/
def readBody (v : Volume) (fileSize capacity : Nat) (s : Nat × List UInt8) :
    Run ((Nat × List UInt8) ⊕ List UInt8) :=
  if s.1 < 0xFFF8 ∧ s.2.length < fileSize ∧ s.2.length < capacity then do
    let out ← supplied (readSectors v fileSize capacity (clusterSectors v.bpb s.1) s.2)
    pure (.inl (fat16NextCluster v s.1, out))
  else pure (.inr s.2)

def fat16ReadFile (steps : Nat) (v : Volume) (path : Name) (capacity : Nat) : Run (List UInt8) := do
  let entry ← resolvePath steps v path
  demand (entry.isDirectory = false)
  iterate (readBody v entry.size capacity) steps (entry.firstCluster, [])

/-- `FAT16_FILE_INFO` -/
structure FileInfo where
  name : Name
  size : Nat
  isDirectory : Bool
  readOnly : Bool

def formatName (source : Name) : Name :=
  let base := (source.take 8).takeWhile (· != SPACE)
  if byteAt source 8 = SPACE then base else base ++ DOT :: (source.drop 8).takeWhile (· != SPACE)

def fileInfo (entry : Entry) : FileInfo where
  name := formatName entry.name
  size := entry.size
  isDirectory := entry.isDirectory
  readOnly := entry.attributes &&& 0x01 != 0

/-- An entry in the loops of `fat16_list_root` and `fat16_list_directory`; an error is where the function returns. -/
def listEntry (skipsDots : Bool) (capacity : Nat) (infos : List FileInfo) (entry : Entry) :
    Except (List FileInfo) (List FileInfo) :=
  if entry.first = 0 then .error infos
  else if entry.first = 0xE5 ∨ entry.attributes = 0x0F ∨ entry.attributes &&& 0x08 ≠ 0 ∨
      (skipsDots ∧ entry.first = DOT) then .ok infos
  else if infos.length ≥ capacity then .error infos
  else .ok (infos ++ [fileInfo entry])

def listSector (v : Volume) (skipsDots : Bool) (capacity : Nat) (infos : List FileInfo) (lba : Nat) :
    Except (List FileInfo) (List FileInfo) :=
  match readSector v lba with
  | some sector => (sectorEntries sector).foldlM (listEntry skipsDots capacity) infos
  | none => .error infos

def fat16ListRoot (v : Volume) (capacity : Nat) : List FileInfo :=
  match (rootSectors v.bpb).foldlM (listSector v false capacity) [] with
  | .ok infos => infos
  | .error infos => infos

/-- The loop of `fat16_list_directory`: a cluster, and the entries that are listed. -/
def listBody (v : Volume) (capacity : Nat) (s : Nat × List FileInfo) :
    Run ((Nat × List FileInfo) ⊕ List FileInfo) :=
  if s.1 < 0xFFF8 then
    match (clusterSectors v.bpb s.1).foldlM (listSector v true capacity) s.2 with
    | .ok infos => pure (.inl (fat16NextCluster v s.1, infos))
    | .error infos => pure (.inr infos)
  else pure (.inr s.2)

/-- The entries of the directory that begins at a cluster. -/
def listClusters (steps : Nat) (v : Volume) (cluster capacity : Nat) : Run (List FileInfo) :=
  iterate (listBody v capacity) steps (cluster, [])

/-- What `fat16_list_directory` makes of what the path leads to. -/
def listFound (steps : Nat) (v : Volume) (capacity : Nat) : Option Entry → Run (List FileInfo)
  | some directory =>
    if directory.isDirectory = true then listClusters steps v directory.firstCluster capacity else pure []
  | none => pure []

def fat16ListDirectory (steps : Nat) (v : Volume) (path : Name) (capacity : Nat) : Run (List FileInfo) :=
  if path = [SLASH] then pure (fat16ListRoot v capacity)
  else tried (resolvePath steps v path) >>= listFound steps v capacity

/-! ### Creating and deleting directories -/

/-- The slot of a path, in its parent: `resolve_parent` and `find_directory_entry_slot`. -/
def pathSlot (steps : Nat) (v : Volume) (path : Name) (allowFree : Bool) : Run (Nat × Name × Slot) := do
  let (parent, name) ← resolveParent steps v path
  let slot ← findDirectoryEntrySlot steps v parent name allowFree
  pure (parent, name, slot)

/-- The 32 bytes of an entry for a directory, all zero but the name, the attributes and the first cluster. -/
def directoryEntry (name : Name) (cluster : Nat) : List UInt8 :=
  name ++ 0x10 :: List.replicate 14 0 ++ digits 2 cluster ++ List.replicate 4 0

/-- `directory_sector`, with the entries for the directory and its parent. -/
def dotSector (cluster parent : Nat) : Memory :=
  byteAt (directoryEntry (DOT :: SPACE :: List.replicate 9 0) cluster ++
    directoryEntry (DOT :: DOT :: List.replicate 9 0) parent)

/-- The sector that `fat16_create_root_directory` writes the entries of the new directory to. It is counted in
clusters. -/
def dotLba (bpb : Bpb) (cluster : Nat) : Nat := (dataStartSector bpb + (cluster + 2 ^ 32 - 2)) % 2 ^ 32

def fat16CreateRootDirectory (steps : Nat) (v : Volume) (path : Name) : Run Volume := do
  let (parent, name, slot) ← pathSlot steps v path true
  demand (slot.entry.isFree = true)
  let (cluster, v) ← supplied (fat16AllocateCluster v)
  let v ← supplied (writeSector v (dotLba v.bpb cluster) (dotSector cluster parent))
  supplied (writeSector v slot.lba (patch slot.sector (slot.index * 32) (directoryEntry name cluster)))

/-- `fat16_delete_root_directory`. The sector that it looks at is counted in clusters too. -/
def fat16DeleteRootDirectory (steps : Nat) (v : Volume) (path : Name) : Run Volume := do
  let (_, _, slot) ← pathSlot steps v path false
  let cluster := slot.entry.firstCluster
  demand (slot.entry.isDirectory = true ∧ ¬cluster < 2)
  let sector ← supplied (readSector v (dotLba v.bpb cluster))
  demand (((sectorEntries sector).drop 2).all Entry.isFree = true)
  let v ← supplied (writeSector v slot.lba (patch slot.sector (slot.index * 32) [0xE5]))
  fat16FreeChain steps v cluster

end AsasOs.Fat16
