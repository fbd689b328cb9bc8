import AsasOs.Fat32.Directory

/-!
# FAT32: paths and the functions of the driver

The mount of a volume in `fat32.c`, the resolution of paths and the functions with which
the file system is read and changed.
-/
namespace AsasOs.Fat32

open Block Bytes

section Operations

variable (context : Context)

/-! ### Paths -/

def rootEntry : Slot :=
  putLE (putLE (put (List.replicate 32 0) 11 [FAT32_ATTR_DIRECTORY]) 26 2
    (context.bpb.rootCluster % 2 ^ 16)) 20 2 (context.bpb.rootCluster / 2 ^ 16)

/-- The loop of `fat32_resolve`; every round takes a component of the path. -/
def resolveLoop : Nat → Nat → Text → Fat32Code Slot
  | 0, _, _ => failure
  | rounds + 1, current, path => do
    let component := path.takeWhile (· != 0x2F)
    guard (¬component.length > 255)
    let rest := (path.drop component.length).dropWhile (· == 0x2F)
    let found ← searchDirChain context current component
    if rest.isEmpty then return found
    else do
      guard (found.has FAT32_ATTR_DIRECTORY)
      resolveLoop rounds found.firstCluster rest

/-- `fat32_resolve`: the entry of the leaf. -/
def fat32Resolve (path : Text) : Fat32Code Slot :=
  let path := path.dropWhile (· == 0x2F)
  if path.isEmpty then return rootEntry context else resolveLoop context path.length context.bpb.rootCluster path

/-- What follows the last slash of a path. -/
def leafOf (path : Text) : Text := (path.reverse.takeWhile (· != 0x2F)).reverse

/-- The path before its last slash. -/
def parentPath (path : Text) : Text := path.take (path.length - (leafOf path).length - 1)

/-- The cluster of a directory; the root may be given as 0. -/
def directoryCluster (slot : Slot) : Nat :=
  if slot.firstCluster < 2 then context.bpb.rootCluster else slot.firstCluster

/-- `fat32_resolve_parent_leaf`: the cluster of the parent, and the leaf. -/
def fat32ResolveParentLeaf (path : Text) : Fat32Code (Nat × Text) := do
  guard (byteAt path 0 = 0x2F)
  guard (¬(path.length > 255 ∨ path.length ≤ 1 ∨ leafOf path = []))
  if parentPath path = [] then return (context.bpb.rootCluster, leafOf path)
  else do
    let parent ← fat32Resolve context (parentPath path)
    guard (parent.has FAT32_ATTR_DIRECTORY)
    return (directoryCluster context parent, leafOf path)

/-! ### Reading -/

/-- `fat32_context_file_size`; 0 stands for a failure. -/
def fat32ContextFileSize (path : Text) : Fat32Code Nat := do
  let entry ← fat32Resolve context path
  guard (¬entry.has FAT32_ATTR_DIRECTORY)
  return entry.fileSize

def fat32ContextExists (path : Text) : Fat32Prog Bool := succeeds (fat32Resolve context path)

def fat32ContextIsDirectory (path : Text) : Fat32Prog Bool := do
  match ← (fat32Resolve context path).run with
  | none => return false
  | some entry => return entry.has FAT32_ATTR_DIRECTORY

/-- The sectors of one cluster that are read: what has been read, and whether all of them
could be. -/
def readClusterSectors (cluster remaining : Nat) : List Nat → List UInt8 → Fat32Prog (List UInt8 × Bool)
  | [], out => return (out, true)
  | s :: rest, out =>
    if out.length < remaining then do
      match ← (f32ReadSector (context.clusterSector cluster s)).run with
      | none => return (out, false)
      | some sec =>
        readClusterSectors cluster remaining rest
          (out ++ sec.take (min (remaining - out.length) context.sectorSize))
    else return (out, true)

/-- The loop of `fat32_context_read_file` over the clusters of the file. -/
def readFileLoop (remaining : Nat) : Nat → Nat → List UInt8 → Fat32Prog (List UInt8)
  | 0, _, out => return out
  | hops + 1, cluster, out =>
    if context.dataClusterValid cluster ∧ out.length < remaining then do
      let (out, whole) ← readClusterSectors context cluster remaining
        (List.range context.bpb.sectorsPerCluster) out
      if whole then
        match ← (fat32ChainAdvance context cluster).run with
        | none => return out
        | some next => readFileLoop remaining hops next out
      else return out
    else return out

/-- `fat32_context_read_file`: the bytes that were read. -/
def fat32ContextReadFile (path : Text) (capacity : Nat) : Fat32Prog (List UInt8) := do
  match ← (fat32Resolve context path).run with
  | none => return []
  | some entry =>
    if entry.has FAT32_ATTR_DIRECTORY then return []
    else
      let remaining := min entry.fileSize capacity
      readFileLoop context remaining (context.maxCluster - 2) entry.firstCluster []

def fat32ContextListDirectory (path : Text) (capacity : Nat) : Fat32Prog (List FileInfo) := do
  match ← (fat32Resolve context path).run with
  | none => return []
  | some entry =>
    if !entry.has FAT32_ATTR_DIRECTORY then return []
    else listDirChain context (directoryCluster context entry) capacity

/-! ### Entries -/

def cmosRead (register : UInt8) : Fat32Prog UInt8 := Prog.perform (Fat32Op.cmos register)

def bcdToBinary (value : UInt8) : UInt8 := (value &&& (0x0F : UInt8)) + (value >>> 4) * 10

def fat32SetTimestamps (entry : Slot) (created : Bool) : Fat32Prog Slot := do
  let statusB ← cmosRead 0x0B
  let second ← cmosRead 0x00
  let minute ← cmosRead 0x02
  let hour ← cmosRead 0x04
  let day ← cmosRead 0x07
  let month ← cmosRead 0x08
  let year ← cmosRead 0x09
  let binary := statusB &&& (0x04 : UInt8) != 0
  let second := if binary then second else bcdToBinary second
  let minute := if binary then minute else bcdToBinary minute
  let hour := if binary then hour else bcdToBinary (hour &&& 0x7F)
  let day := if binary then day else bcdToBinary day
  let month := if binary then month else bcdToBinary month
  let year := (if binary then year else bcdToBinary year).toNat + 2000
  let time := ((hour.toNat <<< 11) ||| (minute.toNat <<< 5) ||| (second.toNat / 2)) % 2 ^ 16
  let date := (((year - 1980) <<< 9) ||| (month.toNat <<< 5) ||| day.toNat) % 2 ^ 16
  let entry := putLE (putLE (putLE entry 22 2 time) 24 2 date) 18 2 date
  if created then
    return put (putLE (putLE entry 14 2 time) 16 2 date) 13 [(second &&& (1 : UInt8)) * 100]
  else return entry

/-- An entry without a name. -/
def newEntry (kind : UInt8) (cluster size : Nat) : Slot :=
  putLE (putLE (putLE (put (List.replicate 32 0) 11 [kind]) 26 2 (cluster % 2 ^ 16)) 20 2
    (cluster / 2 ^ 16)) 28 4 size

/-- The entry of a file that is written again: the name and the time of its creation are
those that it had. -/
def keepIdentity (target old : Slot) : Slot :=
  put (put target 0 old.name) 13 (slice old 13 5)

/-! ### Files -/

/-- The cluster count in `fat32_context_write_file`. -/
def clustersFor (size : Nat) : Nat :=
  let clusterSize := context.bpb.sectorsPerCluster * context.sectorSize
  (size + clusterSize - 1) / clusterSize % 2 ^ 32

/-- The part of `fat32_context_write_file` that stores the bytes of the file. -/
def storeContent (buffer : List UInt8) : Fat32Code Nat := do
  let newCluster ← fat32AllocateChain context (clustersFor context buffer.length)
  match ← Prog.observe (writeClusterChain context newCluster buffer) with
  | none => do
    discardChain context newCluster
    failure
  | some () => return newCluster

/-- The part of `fat32_context_write_file` that finds the old chain; 0 stands for none. -/
def oldContent : Option Located → Fat32Code Nat
  | none => return 0
  | some located => do
    guard (¬located.entry.has (FAT32_ATTR_DIRECTORY ||| FAT32_ATTR_READ_ONLY))
    if located.entry.firstCluster ≥ 2 then
      fat32ChainValid context located.entry.firstCluster
    return located.entry.firstCluster

/-- The part that makes the new chain; 0 stands for none. -/
def newContent (buffer : List UInt8) : Fat32Code Nat :=
  if clustersFor context buffer.length ≠ 0 then storeContent context buffer else return 0

/-- The part that writes the entry of the file, over the one it has or to new positions. -/
def publishFile (parentCluster : Nat) (leaf : Text) (newCluster size : Nat) : Option Located →
    Fat32Code Unit
  | some located => do
    let blank := newEntry FAT32_ATTR_ARCHIVE newCluster size
    let target ← fat32SetTimestamps (keepIdentity blank located.entry) false
    fat32PositionWrite (located.positions.getLastD ⟨0, 0⟩) target
  | none => do
    let target ← fat32SetTimestamps (newEntry FAT32_ATTR_ARCHIVE newCluster size) true
    let _ ← fat32WriteNamedEntry context parentCluster leaf target

def fat32ContextWriteFile (path : Text) (buffer : List UInt8) : Fat32Code Unit := do
  guard (¬buffer.length > 0xFFFFFFFF)
  let (parentCluster, leaf) ← fat32ResolveParentLeaf context path
  let located ← Prog.observe (fat32FindNamedEntry context parentCluster leaf)
  let oldCluster ← oldContent context located
  let newCluster ← newContent context buffer
  match ← Prog.observe (publishFile context parentCluster leaf newCluster buffer.length located) with
  | none => do
    discardChain context newCluster
    failure
  | some () => if oldCluster = 0 then return () else fat32FreeChain context oldCluster

def fat32ContextDeleteFile (path : Text) : Fat32Code Unit := do
  let (parentCluster, leaf) ← fat32ResolveParentLeaf context path
  let located ← fat32FindNamedEntry context parentCluster leaf
  guard (¬located.entry.has (FAT32_ATTR_DIRECTORY ||| FAT32_ATTR_READ_ONLY))
  let cluster := located.entry.firstCluster
  if cluster ≥ 2 then
    fat32ChainValid context cluster
  fat32MarkPositionsDeleted located.positions
  if cluster < 2 then return () else fat32FreeChain context cluster

/-! ### Directories -/

def fat32ContextDeleteDirectory (path : Text) : Fat32Code Unit := do
  let (parentCluster, leaf) ← fat32ResolveParentLeaf context path
  let located ← fat32FindNamedEntry context parentCluster leaf
  guard (located.entry.has FAT32_ATTR_DIRECTORY)
  let cluster := located.entry.firstCluster
  guard (¬cluster < 2)
  fat32ChainValid context cluster
  let empty ← directoryIsEmpty context cluster
  guard empty
  fat32MarkPositionsDeleted located.positions
  fat32FreeChain context cluster

/-- The entries `.` and `..`. -/
def dotEntry (dots : List UInt8) (cluster : Nat) : Slot :=
  put (newEntry FAT32_ATTR_DIRECTORY cluster 0) 0 dots

/-- The first sector of a new directory; the other bytes of the names are zero. -/
def directorySector (cluster parentCluster : Nat) : List UInt8 :=
  put (put (List.replicate context.sectorSize 0) 0 (dotEntry [0x2E] cluster)) 32
    (dotEntry [0x2E, 0x2E] parentCluster)

def fat32ContextCreateDirectory (path : Text) : Fat32Code Unit := do
  let (parentCluster, leaf) ← fat32ResolveParentLeaf context path
  let exists_ ← liftM (succeeds (fat32FindNamedEntry context parentCluster leaf))
  guard (¬exists_)
  let cluster ← fat32AllocateCluster context
  match ← Prog.observe (f32WriteSector (context.clusterSector cluster 0)
    (directorySector context cluster parentCluster)) with
  | none => do
    discardChain context cluster
    failure
  | some () => do
    let target ← fat32SetTimestamps (newEntry FAT32_ATTR_DIRECTORY cluster 0) true
    match ← Prog.observe (fat32WriteNamedEntry context parentCluster leaf target) with
    | none => do
      discardChain context cluster
      failure
    | some _ => return ()

/-- The part of `fat32_context_rename` that gives a directory its new parent. -/
def moveParent (cluster parentCluster : Nat) : Fat32Code Unit := do
  guard (context.dataClusterValid cluster)
  let sector ← f32ReadSector (context.clusterSector cluster 0)
  f32WriteSector (context.clusterSector cluster 0)
    (putLE (putLE sector (32 + 26) 2 (parentCluster % 2 ^ 16)) (32 + 20) 2
      (parentCluster / 2 ^ 16))

def fat32ContextRename (source destination : Text) : Fat32Code Unit := do
  let (sourceParent, sourceName) ← fat32ResolveParentLeaf context source
  let (destinationParent, destinationName) ← fat32ResolveParentLeaf context destination
  let sourceEntry ← fat32FindNamedEntry context sourceParent sourceName
  let exists_ ← liftM (succeeds (fat32FindNamedEntry context destinationParent destinationName))
  guard (¬exists_)
  let saved ← fat32SetTimestamps sourceEntry.entry false
  let _ ← fat32WriteNamedEntry context destinationParent destinationName saved
  if saved.has FAT32_ATTR_DIRECTORY ∧ sourceParent ≠ destinationParent then
    moveParent context saved.firstCluster destinationParent
  fat32MarkPositionsDeleted sourceEntry.positions

/-! ### FSInfo -/

def fat32ContextSync : Fat32Code Unit := do
  let info ← getInfo
  if info.fsinfoValid && info.fsinfoDirty then
    let sector ← f32ReadSector context.bpb.fsInfoSector
    let sector := putLE (putLE sector 488 4 info.freeClusterCount) 492 4 info.nextFreeCluster
    f32WriteSector context.bpb.fsInfoSector sector
    let backupSector := context.bpb.backupBootSector + context.bpb.fsInfoSector
    if context.bpb.backupBootSector ≠ 0 ∧ backupSector < context.bpb.reservedSectors then
      f32WriteSector backupSector sector
    changeInfo fun info => { info with fsinfoDirty := false }
  attempt (Prog.perform Fat32Op.flush)

end Operations

/-! ### The mount -/

section Mount

/-- The fields of a boot sector. -/
def readBpb (sec : List UInt8) : Bpb where
  bytesPerSector := getLE sec 11 2
  sectorsPerCluster := getLE sec 13 1
  reservedSectors := getLE sec 14 2
  fatCount := getLE sec 16 1
  totalSectors16 := getLE sec 19 2
  totalSectors32 := getLE sec 32 4
  sectorsPerFat := getLE sec 36 4
  rootCluster := getLE sec 44 4
  fsInfoSector := getLE sec 48 2
  backupBootSector := getLE sec 50 2

/-- The checks that `fat32_initialize_context` makes on the boot sector. -/
def Context.accepted (context : Context) : Bool :=
  (context.bpb.bytesPerSector == 512 || context.bpb.bytesPerSector == 1024 ||
    context.bpb.bytesPerSector == 2048 || context.bpb.bytesPerSector == 4096) &&
  context.device.logicalBlockSize == context.bpb.bytesPerSector &&
  context.bpb.sectorsPerCluster != 0 && context.bpb.sectorsPerFat != 0 &&
  !(context.bpb.rootCluster < 2) && !(context.maxCluster ≤ 2)

/-- A disk of 134 sectors. -/
def smallDisk : Device where
  id := 0
  name := []
  logicalBlockSize := 512
  physicalBlockSize := 512
  blockCount := 134
  flags := 0
  target := 0
  lun := 0
  startLba := 0
  parent := none
  ops := .driver

/-- A small volume: 100 clusters of one sector behind two copies of the table. -/
def smallVolume : Context where
  device := smallDisk
  bpb := ⟨512, 1, 32, 2, 134, 0, 1, 2, 1, 6⟩

theorem smallVolume_accepted : smallVolume.accepted = true := by decide

variable (context : Context)

/-- The chunks of one copy of the table in `fat32_verify_fat_copies`. -/
def verifyChunks (fatIndex : Nat) : List Nat → Fat32Code Unit
  | [] => return ()
  | chunkIndex :: rest => do
    let sector := chunkIndex * 8
    let chunk := min 8 (context.bpb.sectorsPerFat - sector)
    let mirrorLba := (context.fatStart + fatIndex * context.bpb.sectorsPerFat + sector) % 2 ^ 32
    let primary ← OptionT.mk (Prog.perform
      (Fat32Op.readRun ((context.fatStart + sector) % 2 ^ 32) chunk))
    let mirror ← OptionT.mk (Prog.perform (Fat32Op.readRun mirrorLba chunk))
    if primary ≠ mirror then
      guard (¬context.device.hasFlag BLOCK_DEVICE_FLAG_READ_ONLY)
      attempt (Prog.perform (Fat32Op.writeRun mirrorLba primary))
    verifyChunks fatIndex rest

/-- The copies after the first in `fat32_verify_fat_copies`. -/
def verifyCopies : List Nat → Fat32Code Unit
  | [] => return ()
  | fatIndex :: rest => do
    verifyChunks context fatIndex (List.range ((context.bpb.sectorsPerFat + 7) / 8))
    verifyCopies rest

def fat32VerifyFatCopies : Fat32Code Unit :=
  if context.bpb.fatCount < 2 then return ()
  else do
    attempt (Prog.perform (Fat32Op.kmalloc (context.sectorSize * 8 * 2)))
    verifyCopies context ((List.range (context.bpb.fatCount - 1)).map (· + 1))

/-- The signatures of an FSInfo sector. -/
def fsinfoSigned (sec : List UInt8) : Bool :=
  getLE sec 0 4 == FAT32_FSINFO_LEAD_SIG && getLE sec 484 4 == FAT32_FSINFO_STR_SIG &&
    getLE sec 508 4 == FAT32_FSINFO_TRAIL_SIG

/-- What an FSInfo sector says, as far as it can be. -/
def loadFsinfo (sec : List UInt8) : Info where
  freeClusterCount :=
    if getLE sec 488 4 > context.maxCluster - 2 then FAT32_FSINFO_UNKNOWN else getLE sec 488 4
  nextFreeCluster :=
    if getLE sec 492 4 < 2 ∨ getLE sec 492 4 ≥ context.maxCluster then 2 else getLE sec 492 4
  fsinfoValid := true
  fsinfoDirty := false

/-- The counters without an FSInfo sector. -/
def noFsinfo : Info := ⟨FAT32_FSINFO_UNKNOWN, 2, false, false⟩

/-- The sector in which `fat32_initialize_context` finds the FSInfo: that of the boot
sector, or its backup when that one is damaged. -/
def findFsinfo (boot : List UInt8) : Fat32Prog (List UInt8) := do
  let primary := context.bpb.fsInfoSector
  if primary ≠ 0 ∧ primary < context.bpb.reservedSectors then
    let read ← (f32ReadSector primary).run
    -- a read that fails leaves the buffer as it was
    let sec := read.getD boot
    let backup := primary + context.bpb.backupBootSector
    if (read.isNone || !fsinfoSigned sec) ∧ context.bpb.backupBootSector ≠ 0 ∧
        backup < context.bpb.reservedSectors then
      return (← (f32ReadSector backup).run).getD sec
    else return sec
  else return boot

/-- `fat32_initialize_context`: the context of the device. -/
def fat32InitializeContext (device : Device) : Fat32Code Context := do
  let boot ← f32ReadSector 0
  let context : Context := ⟨device, readBpb boot⟩
  guard context.accepted
  fat32VerifyFatCopies context
  let sec ← findFsinfo context boot
  if context.bpb.fsInfoSector ≠ 0 ∧ context.bpb.fsInfoSector < context.bpb.reservedSectors ∧
      fsinfoSigned sec then
    setInfo (loadFsinfo context sec)
  else setInfo noFsinfo
  return context

end Mount

end AsasOs.Fat32
