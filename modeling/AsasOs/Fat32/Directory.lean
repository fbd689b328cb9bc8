import AsasOs.Fat32.Volume

/-!
# FAT32: directories

The functions of `fat32.c` that walk over the chain of a directory. Each of them looks at
the entries one by one, sector by sector and cluster by cluster; `walkDir` is that walk,
and what a function does at an entry is its own.
-/
namespace AsasOs.Fat32

open Bytes

/-! ### Walking over a directory -/

/-- `FAT32_ENTRY_POSITION`. -/
structure Position where
  lba : Nat
  offset : Nat
  deriving DecidableEq, Repr

/-- How a walk ends: at an entry, where a sector or a link cannot be used, or behind the
last cluster; `last` is the last cluster of the chain, and `current` what follows it. -/
inductive Walk (σ ρ : Type) where
  | found (result : ρ) (cluster : Nat)
  | broken (state : σ)
  | ended (state : σ) (last current : Nat)

/-- What becomes of a walk at an entry: it goes on with a state, or it stops. -/
abbrev Visit (σ ρ : Type) := Position → Slot → σ → σ ⊕ ρ

section Walk

variable {σ ρ : Type} (context : Context) (visit : Visit σ ρ)

def slotOf (sector : List UInt8) (index : Nat) : Slot := slice sector (32 * index) 32

def visitSlots (lba : Nat) (sector : List UInt8) : List Nat → σ → σ ⊕ ρ
  | [], state => .inl state
  | e :: rest, state =>
    match visit ⟨lba, 32 * e⟩ (slotOf sector e) state with
    | .inl state => visitSlots lba sector rest state
    | .inr result => .inr result

/-- The sectors of one cluster; `count` entries of each are looked at. -/
def walkSectors (count cluster : Nat) : List Nat → σ → Fat32Prog (Walk σ ρ)
  | [], state => return .ended state cluster cluster
  | s :: rest, state => do
    match ← (f32ReadSector (context.clusterSector cluster s)).run with
    | none => return .broken state
    | some sector =>
      match visitSlots visit (context.clusterSector cluster s) sector (List.range count) state with
      | .inl state => walkSectors count cluster rest state
      | .inr result => return .found result cluster

def walkClusters (count : Nat) : Nat → Nat → Nat → σ → Fat32Prog (Walk σ ρ)
  | 0, last, current, state => return .ended state last current
  | hops + 1, last, current, state =>
    if context.dataClusterValid current then do
      match ← walkSectors context visit count current (List.range context.bpb.sectorsPerCluster)
        state with
      | .ended state _ _ =>
        match ← (fat32ChainAdvance context current).run with
        | none => return .broken state
        | some next => walkClusters count hops current next state
      | other => return other
    else return .ended state last current

def walkDir (count dirCluster : Nat) (state : σ) : Fat32Prog (Walk σ ρ) :=
  walkClusters context visit count (context.maxCluster - 2) dirCluster dirCluster state

end Walk

namespace Context

/-- `entries_per_sec`. -/
def entriesPerSector (context : Context) : Nat := context.sectorSize / 32

end Context

/-! ### Looking a name up -/

/-- The long name that a short entry has, as the accumulator holds it. -/
def longNameOf (lfn : Lfn) (slot : Slot) : Option Text :=
  if lfn.valid && lfn.checksum == fat32ShortChecksum slot.name then some (utf16NameToUtf8 lfn.name)
  else none

/-- Whether a short entry has a name. -/
def slotMatches (lfn : Lfn) (slot : Slot) (component : Text) : Bool :=
  (longNameOf lfn slot).any (utf8NameMatches · component) || entryMatches slot component

/-- An entry in `search_dir_chain`. -/
def searchVisit (component : Text) : Visit Lfn (Option Slot) := fun _ slot lfn =>
  if slot.isEnd then .inr none
  else if slot.isDeleted then .inl lfn
  else if slot.isLfn then .inl ((lfnAccept slot lfn).getD lfnReset)
  else if slot.has FAT32_ATTR_VOLUME_ID then .inl lfn
  else if slotMatches lfn slot component then .inr (some slot)
  else .inl lfnReset

def searchDirChain (context : Context) (dirCluster : Nat) (component : Text) : Fat32Code Slot := do
  match ← walkDir context (searchVisit component) context.entriesPerSector dirCluster lfnReset with
  | .found (some slot) _ => return slot
  | _ => failure

/-- `FAT32_LOCATED_ENTRY`; the last position is that of the short entry. -/
structure Located where
  entry : Slot
  positions : List Position

/-- An entry in `fat32_find_named_entry`. -/
def findVisit (name : Text) : Visit (Lfn × List Position) (Option Located) :=
  fun position slot (lfn, lfnPositions) =>
    if slot.isEnd then .inr none
    else if slot.isDeleted then .inl (lfnReset, [])
    else if slot.isLfn then
      if lfnPositions.length ≥ FAT32_MAX_LFN_ENTRIES then .inl (lfnReset, [])
      else
        match lfnAccept slot lfn with
        | none => .inl (lfnReset, [])
        | some lfn => .inl (lfn, lfnPositions ++ [position])
    else if !slot.has FAT32_ATTR_VOLUME_ID && slotMatches lfn slot name then
      .inr (some ⟨slot, lfnPositions ++ [position]⟩)
    else .inl (lfnReset, [])

/-- `fat32_find_named_entry`, which looks at sixteen entries of a sector. -/
def fat32FindNamedEntry (context : Context) (dirCluster : Nat) (name : Text) : Fat32Code Located := do
  match ← walkDir context (findVisit name) 16 dirCluster (lfnReset, []) with
  | .found (some located) _ => return located
  | _ => failure

/-! ### Listing -/

/-- `FAT32_FILE_INFO`. -/
structure FileInfo where
  name : Text
  size : Nat
  isDirectory : Bool
  readOnly : Bool
  deriving DecidableEq, Repr

/-- What is listed of an entry. -/
def fileInfo (lfn : Lfn) (slot : Slot) : FileInfo where
  name := (longNameOf lfn slot).getD (formatName slot.name)
  size := slot.fileSize
  isDirectory := slot.has FAT32_ATTR_DIRECTORY
  readOnly := slot.has FAT32_ATTR_READ_ONLY

/-- How `list_dir_chain` stops: the list is full, or the directory ends. -/
structure Listing where
  full : Bool
  entries : List FileInfo

/-- An entry in `list_dir_chain`. -/
def listVisit (capacity : Nat) : Visit (Lfn × List FileInfo) Listing :=
  fun _ slot (lfn, out) =>
    if slot.isEnd then .inr ⟨false, out⟩
    else if slot.isDeleted then .inl (lfn, out)
    else if slot.isLfn then .inl ((lfnAccept slot lfn).getD lfnReset, out)
    else if slot.has FAT32_ATTR_VOLUME_ID then .inl (lfn, out)
    else if byteAt slot 0 == 0x2E then .inl (lfn, out)
    else
      let out := out ++ [fileInfo lfn slot]
      if out.length ≥ capacity then .inr ⟨true, out⟩ else .inl (lfnReset, out)

def listDirChain (context : Context) (dirCluster capacity : Nat) : Fat32Prog (List FileInfo) :=
  if capacity = 0 then return []
  else do
    match ← walkDir context (listVisit capacity) context.entriesPerSector dirCluster
      (lfnReset, []) with
    | .found ⟨full, out⟩ cluster =>
      -- the loops over sectors and entries end, and the next link is still read
      if full then
        let _ ← (fat32ChainAdvance context cluster).run
      return out
    | .broken (_, out) => return out
    | .ended (_, out) _ _ => return out

/-- An entry in `directory_is_empty`. -/
def emptyVisit : Visit Unit Bool := fun _ slot _ =>
  if slot.isEnd then .inr true
  else if slot.isDeleted then .inl ()
  else if slot.isLfn then .inl ()
  else if byteAt slot 0 == 0x2E then .inl ()
  else .inr false

def directoryIsEmpty (context : Context) (cluster : Nat) : Fat32Prog Bool := do
  match ← walkDir context emptyVisit context.entriesPerSector cluster () with
  | .found result _ => return result
  | .broken _ => return false
  | .ended _ _ current => return decide (current ≥ FAT32_EOC)

/-! ### Short names -/

/-- An entry in `find_directory_entry_slot`. -/
def slotVisit (name : List UInt8) : Visit Unit Position := fun position slot _ =>
  if !slot.isEnd && !slot.isDeleted && !slot.isLfn && slot.name == name then .inr position
  else .inl ()

/-- `find_directory_entry_slot` with `allow_free` 0, the only way in which it is called. -/
def findDirectoryEntrySlot (context : Context) (directoryCluster : Nat) (name : List UInt8) :
    Fat32Code Position := do
  match ← walkDir context (slotVisit name) context.entriesPerSector directoryCluster () with
  | .found position _ => return position
  | _ => failure

def fat32ShortNameAvailable (context : Context) (parentCluster : Nat) (name : List UInt8) :
    Fat32Prog Bool := do
  let taken ← succeeds (findDirectoryEntrySlot context parentCluster name)
  return !taken

/-- The loop of `fat32_make_short_alias` over the numeric tails. -/
def numberLoop (context : Context) (parentCluster : Nat) (leaf : Text) : List Nat →
    Fat32Code (List UInt8)
  | [] => failure
  | number :: rest => do
    let available ← fat32ShortNameAvailable context parentCluster (numberedAlias leaf number)
    if available then return numberedAlias leaf number
    else numberLoop context parentCluster leaf rest

/-- `fat32_make_short_alias`: the alias, and whether a long name is needed. -/
def fat32MakeShortAlias (context : Context) (parentCluster : Nat) (leaf : Text) :
    Fat32Code (List UInt8 × Bool) := do
  let taken : Option (List UInt8) ←
    match exactAlias leaf with
    | none => pure none
    | some name => do
      let available ← fat32ShortNameAvailable context parentCluster name
      pure (if available then some name else none)
  match taken with
  | some name => return (name, false)
  | none => do
    let name ← numberLoop context parentCluster leaf (List.range' 1 999)
    return (name, true)

/-! ### Writing entries -/

/-- An entry in `fat32_reserve_entries`, where the positions of the run are the state. -/
def reserveVisit (needed : Nat) : Visit (List Position) (List Position) :=
  fun position slot run =>
    if slot.isEnd || slot.isDeleted then
      let run := run ++ [position]
      if run.length = needed then .inr run else .inl run
    else .inl []

/-- The sectors of a cluster that `fat32_reserve_entries` adds to a directory. -/
def extendSectors (context : Context) (cluster needed : Nat) :
    List Nat → List Position → Fat32Code (List Position)
  | [], run => return run
  | s :: rest, run => do
    let lba := context.clusterSector cluster s
    f32WriteSector lba (List.replicate context.sectorSize 0)
    let more := (List.range (min 16 (needed - run.length))).map fun e => ⟨lba, 32 * e⟩
    extendSectors context cluster needed rest (run ++ more)

/-- The loop of `fat32_reserve_entries` that extends the directory. A cluster has room for
at least an entry. -/
def extendLoop (context : Context) (needed : Nat) : Nat → Nat → List Position → Fat32Code (List Position)
  | 0, _, run => return run
  | rounds + 1, last, run =>
    if run.length < needed then do
      let newCluster ← fat32AllocateCluster context
      match ← Prog.observe (fat32SetCluster context last newCluster) with
      | none => do
        discardChain context newCluster
        failure
      | some () => do
        let run ← extendSectors context newCluster needed
          (List.range context.bpb.sectorsPerCluster) run
        extendLoop context needed rounds newCluster run
    else return run

def fat32ReserveEntries (context : Context) (dirCluster needed : Nat) : Fat32Code (List Position) := do
  match ← walkDir context (reserveVisit needed) 16 dirCluster [] with
  | .found positions _ => return positions
  | .broken _ => failure
  | .ended run last _ => extendLoop context needed needed last run

def fat32PositionWrite (position : Position) (entry : Slot) : Fat32Code Unit := do
  let sector ← f32ReadSector position.lba
  f32WriteSector position.lba (put sector position.offset entry)

def fat32MarkPositionsDeleted : List Position → Fat32Code Unit
  | [] => return ()
  | position :: rest => do
    let sector ← f32ReadSector position.lba
    f32WriteSector position.lba (put sector position.offset [0xE5])
    fat32MarkPositionsDeleted rest

def writeSlots (positions : List Position) : Nat → List Slot → Fat32Code Unit
  | _, [] => return ()
  | index, slot :: rest => do
    match ← Prog.observe (fat32PositionWrite (positions.getD index ⟨0, 0⟩) slot) with
    | none => do
      let _ ← Prog.observe (fat32MarkPositionsDeleted (positions.take index))
      failure
    | some () => writeSlots positions (index + 1) rest

def fat32WriteNamedEntry (context : Context) (parentCluster : Nat) (leaf : Text) (source : Slot) :
    Fat32Code Located := do
  let utf16 ← Prog.ofOption (utf8NameToUtf16 leaf)
  let (alias_, needsLfn) ← fat32MakeShortAlias context parentCluster leaf
  let lfnCount := if needsLfn then (utf16.length + 12) / 13 else 0
  guard (¬lfnCount > FAT32_MAX_LFN_ENTRIES)
  let positions ← fat32ReserveEntries context parentCluster (lfnCount + 1)
  let shortEntry := put source 0 alias_
  let checksum := fat32ShortChecksum alias_
  let lfnEntries := (List.range lfnCount).map fun index =>
    fat32BuildLfnEntry utf16 (lfnCount - index) lfnCount checksum
  writeSlots positions 0 (lfnEntries ++ [shortEntry])
  return ⟨shortEntry, positions⟩

end AsasOs.Fat32
