import AsasOs.Partition.GptAgreement
import AsasOs.Partition.GptFrame
import Mathlib.Tactic.IntervalCases

/-!
# Changes of a GPT through the disk management

`disk_management.c` gives every partition that it creates the same unique GUID, and the
commit of `partition.c` compares the extents of entries but not their GUIDs. So the GUIDs
of a table stay distinct as long as no partition is created while another one carries the
built-in GUID, whatever fails in between.
-/
namespace AsasOs.Partition

open Block Bytes Medium CString

/-! ### The commands -/

def labelText (label : List UInt8) : CString := label.map fun byte => Char.ofNat byte.toNat

/-- `dm_find_device`: the device with the name, or whose partition has the label or the UUID. -/
def dmFindDevice (s : Registries) (name : CString) : Option Nat :=
  match blockDeviceFind s.devices name with
  | some device => some device
  | none =>
    (List.range s.devices.length).find? fun device =>
      (s.partitions.find? (·.device == device)).any fun partition =>
        labelText partition.label == name || partition.uuid == name

/-- `disk_management_validate`, for a change of a partition table. -/
def diskManagementValidate (s : Registries) (mounted : Nat → Bool) (target : Option CString) : Bool :=
  match target with
  | none => false
  | some name =>
    if name = [] then false
    else
      match dmFindDevice s name with
      | none => false
      | some id =>
        !(s.devices[id]?.any (·.hasFlag BLOCK_DEVICE_FLAG_READ_ONLY)) && !mounted id

def linuxType : Guid :=
  ⟨[0xaf, 0x3d, 0xc6, 0x0f, 0x83, 0x84, 0x72, 0x47, 0x8e, 0x79, 0x3d, 0x69, 0xd8, 0x47, 0x7d, 0xe4], rfl⟩

/-- `unique_guid`. -/
def builtInGuid : Guid :=
  ⟨[0x10, 0x32, 0x54, 0x76, 0x98, 0xba, 0xdc, 0xfe, 0x01, 0x23, 0x45, 0x67, 0x89, 0xab, 0xcd, 0xef], rfl⟩

/-- "ASAS-DATA", in 36 units. -/
def dataName : EntryName :=
  ⟨[0x41, 0, 0x53, 0, 0x41, 0, 0x53, 0, 0x2d, 0, 0x44, 0, 0x41, 0, 0x54, 0, 0x41, 0] ++
    List.replicate 54 0, rfl⟩

def diskManagementPartitionGpt (s : Registries) (mounted : Nat → Bool)
    (operation target : Option CString) (slot : Nat) (startLba blockCount : UInt64)
    (dryRun : Bool) : DeviceCode Unit := do
  guard (diskManagementValidate s mounted target)
  let operation ← Prog.ofOption operation
  guard (¬slot ≥ PARTITION_MAX_PER_DISK)
  let id ← Prog.ofOption (target.bind (dmFindDevice s))
  let device ← Prog.ofOption s.devices[id]?
  if dryRun then return ()
  else if operation = "create".toList then
    partitionGptCreate device (mounted id) slot (some linuxType) (some builtInGuid) (some dataName)
      startLba blockCount
  else if operation = "delete".toList then partitionGptDelete device (mounted id) slot
  else if operation = "resize".toList then
    partitionGptResize device (mounted id) slot startLba blockCount
  else failure

/-! ### The GUIDs of a table -/

/-- The unique GUID of an entry in use. -/
def guidAt (bytes : List UInt8) (offset : Nat) : Option (List UInt8) :=
  if guidIsZero (slice bytes offset 16) then none else some (slice bytes (offset + 16) 16)

def liveGuid (header : GptHeader) (table : List UInt8) (index : Nat) : Option (List UInt8) :=
  guidAt table (index * header.entrySize)

/-- No two entries in use have one unique GUID. -/
def GuidsDistinct (header : GptHeader) (table : List UInt8) : Prop :=
  ∀ index < header.entryCount, ∀ other < header.entryCount, ∀ guid,
    liveGuid header table index = some guid → liveGuid header table other = some guid → index = other

/-- No two entries in use are found under one UUID. -/
def UuidsDistinct (header : GptHeader) (table : List UInt8) : Prop :=
  ∀ index < header.entryCount, ∀ other < header.entryCount, ∀ uuid,
    (liveGuid header table index).map guidToString = some uuid →
      (liveGuid header table other).map guidToString = some uuid → index = other

theorem hexDigit_injective {value other : Nat} (small : value < 16) (small' : other < 16)
    (same : hexDigit value = hexDigit other) : value = other := by
  have all : ∀ value : Fin 16, ∀ other : Fin 16,
      hexDigit value.1 = hexDigit other.1 → value = other := by decide
  exact congrArg Fin.val (all ⟨value, small⟩ ⟨other, small'⟩ same)

theorem hexDigits_injective {value other : UInt8}
    (high : hexDigit (value.toNat / 16) = hexDigit (other.toNat / 16))
    (low : hexDigit (value.toNat % 16) = hexDigit (other.toNat % 16)) : value = other := by
  have bound := value.toNat_lt
  have bound' := other.toNat_lt
  have highs := hexDigit_injective (by omega) (by omega) high
  have lows := hexDigit_injective (by omega) (by omega) low
  apply UInt8.toNat_inj.mp
  omega

theorem guidToString_injective {guid other : List UInt8} (whole : guid.length = 16)
    (whole' : other.length = 16) (same : guidToString guid = guidToString other) :
    guid = other := by
  have digits : ∀ place < 16, byteAt guid place = byteAt other place := by
    simp only [guidToString, List.zipIdx_cons, List.zipIdx_nil, List.flatMap_cons,
      List.flatMap_nil] at same
    norm_num at same
    intro place below
    interval_cases place
    all_goals
      apply hexDigits_injective
      · simp only [same]
      · simp only [same]
  apply List.ext_getElem?
  intro place
  by_cases below : place < 16
  · have here := digits place below
    rw [byteAt, byteAt, List.getD_eq_getElem?_getD, List.getD_eq_getElem?_getD,
      List.getElem?_eq_getElem (by omega), List.getElem?_eq_getElem (by omega)] at here
    rw [List.getElem?_eq_getElem (by omega), List.getElem?_eq_getElem (by omega)]
    exact congrArg some here
  · rw [List.getElem?_eq_none (by omega), List.getElem?_eq_none (by omega)]

theorem guidAt_congr {bytes other : List UInt8} {offset place : Nat}
    (type : slice bytes offset 16 = slice other place 16)
    (unique : slice bytes (offset + 16) 16 = slice other (place + 16) 16) :
    guidAt bytes offset = guidAt other place := by
  unfold guidAt
  rw [type, unique]

def GptOperation.guid : GptOperation → Option (List UInt8)
  | .create _ (some uniqueGuid) _ _ _ => some uniqueGuid.1
  | _ => none

section Edit

variable {header : GptHeader} {slot index : Nat} {operation : GptOperation}
  {table edited : List UInt8} {guid : List UInt8}

theorem liveGuid_take (large : 128 ≤ header.entrySize) (below : index < header.entryCount) :
    liveGuid header (table.take header.entriesBytes) index = liveGuid header table index := by
  have within := entry_within below
  apply guidAt_congr
  · exact slice_take (by omega)
  · exact slice_take (by omega)

theorem gptEdited_entry (inside : slot < header.entryCount) (large : 128 ≤ header.entrySize)
    (room : header.entriesBytes ≤ table.length)
    (done : gptEdited header slot operation table = some edited) :
    ∃ before after, GuidsEdited before after operation ∧
      liveGuid header table slot = guidAt before 0 ∧ liveGuid header edited slot = guidAt after 0 ∧
      ∀ index, index ≠ slot → liveGuid header edited index = liveGuid header table index := by
  have within := entry_within inside
  obtain ⟨entry, rfl, length, part, edit⟩ := gptEdited_put inside large room done
  have whole : slice (put table (slot * header.entrySize) entry) (slot * header.entrySize)
      entry.length = entry := slice_put (by omega)
  rw [length] at whole
  have entryGuid (bytes : List UInt8) : guidAt bytes (slot * header.entrySize) =
      guidAt (slice bytes (slot * header.entrySize) header.entrySize) 0 := by
    apply guidAt_congr
    · rw [slice_slice (by omega), Nat.add_zero]
    · rw [slice_slice (by omega)]
  refine ⟨_, entry, gptEdit_guids part large edit, entryGuid table, ?_, fun index other => ?_⟩
  · rw [liveGuid, entryGuid, whole]
  · have apart := entries_apart other header.entrySize
    apply guidAt_congr
    · exact slice_put_other (by omega) (by omega)
    · exact slice_put_other (by omega) (by omega)

theorem gptEdited_guids (inside : slot < header.entryCount) (large : 128 ≤ header.entrySize)
    (room : header.entriesBytes ≤ table.length)
    (done : gptEdited header slot operation table = some edited)
    (live : liveGuid header edited index = some guid) :
    liveGuid header table index = some guid ∨ index = slot ∧ operation.guid = some guid := by
  obtain ⟨before, after, guids, there, here, elsewhere⟩ := gptEdited_entry inside large room done
  by_cases same : index = slot
  · subst same
    rw [here, guidAt] at live
    rw [there, guidAt]
    cases guids with
    | create free typed type unique =>
      rw [type, typed, unique, if_neg Bool.false_ne_true] at live
      exact .inr ⟨rfl, live⟩
    | delete used free =>
      rw [free, if_pos rfl] at live
      cases live
    | resize used type unique =>
      rw [type, unique] at live
      exact .inl live
  · rw [elsewhere index same] at live
    exact .inl live

theorem gptEdited_created {typeGuid uniqueGuid : Guid} {name : Option EntryName}
    {startLba blockCount : UInt64} (inside : slot < header.entryCount)
    (large : 128 ≤ header.entrySize) (room : header.entriesBytes ≤ table.length)
    (done : gptEdited header slot
      (.create (some typeGuid) (some uniqueGuid) name startLba blockCount) table = some edited) :
    liveGuid header table slot = none ∧ liveGuid header edited slot = some uniqueGuid.1 := by
  obtain ⟨before, after, guids, there, here, -⟩ := gptEdited_entry inside large room done
  rw [there, here, guidAt, guidAt]
  cases guids with
  | create free typed type unique =>
    rw [free, if_pos rfl, type, typed, if_neg Bool.false_ne_true]
    exact ⟨rfl, congrArg some unique⟩

theorem guidsDistinct_step {other : List UInt8} (distinct : GuidsDistinct header table)
    (fresh : ∀ guid, operation.guid = some guid → ∀ index < header.entryCount,
      liveGuid header table index ≠ some guid)
    (among : ∀ index < header.entryCount, ∀ guid, liveGuid header other index = some guid →
      liveGuid header table index = some guid ∨ index = slot ∧ operation.guid = some guid) :
    GuidsDistinct header other := by
  intro first inside second inside' guid live live'
  rcases among first inside guid live with old | ⟨here, new⟩
  · rcases among second inside' guid live' with old' | ⟨-, new⟩
    · exact distinct first inside second inside' guid old old'
    · exact absurd old (fresh guid new first inside)
  · rcases among second inside' guid live' with old | ⟨here', -⟩
    · exact absurd old (fresh guid new second inside')
    · rw [here, here']

end Edit

/-! ### A store that may fail -/

/-- The header in a sector, up to its checksums. -/
def IsVersion (header : GptHeader) (sector : List UInt8) : Prop :=
  ∃ crc own, gptHeader sector = header.stamped crc own

/-- A block that the store of a copy may write: its header, or a block of the old or the new
array in its place. -/
def CopyBlock (size : Nat) (header : GptHeader) (sectors : Nat) (old new : List UInt8) (lba : Nat)
    (block : List UInt8) : Prop :=
  (lba = header.currentLba ∧ IsVersion header block) ∨ ∃ k < sectors, lba = header.entriesLba + k ∧
      (block = Disk.chunk size old k ∨ block = Disk.chunk size new k)

/-- What the writes of a store leave of a copy. -/
structure MixedCopy (size : Nat) (header : GptHeader) (sectors : Nat) (old new : List UInt8)
    (medium medium' : Nat → List UInt8) : Prop where
  sector : IsVersion header (medium' header.currentLba)
  array : ∀ k < sectors, medium' (header.entriesLba + k) = medium (header.entriesLba + k) ∨
    medium' (header.entriesLba + k) = Disk.chunk size old k ∨
    medium' (header.entriesLba + k) = Disk.chunk size new k

section Copy

variable {size : Nat} {header : GptHeader} {sectors : Nat} {old new : List UInt8}

theorem CopyBlock.region {lba : Nat} {block : List UInt8}
    (inside : CopyBlock size header sectors old new lba block) : copyRegion header sectors lba := by
  rcases inside with ⟨here, -⟩ | ⟨k, below, here, -⟩
  · exact .inl here
  · refine .inr ⟨?_, ?_⟩
    · omega
    · omega

theorem mixedCopy {permitted : Nat → List UInt8 → Prop} {disk disk' : Disk size}
    (wrote : Disk.WroteAmong permitted disk disk')
    (only : ∀ lba block, copyRegion header sectors lba → permitted lba block →
      CopyBlock size header sectors old new lba block)
    (apart : ¬Disk.range header.entriesLba sectors header.currentLba)
    (version : IsVersion header (disk.medium header.currentLba)) :
    MixedCopy size header sectors old new disk.medium disk'.medium := by
  constructor
  · rcases wrote.medium header.currentLba with same | written
    · rwa [same]
    · rcases only _ _ (.inl rfl) written with ⟨-, new⟩ | ⟨k, below, here, -⟩
      · exact new
      · refine absurd ?_ apart
        rw [Disk.range]
        omega
  · intro k below
    rcases wrote.medium (header.entriesLba + k) with same | written
    · exact .inl same
    · have inside : Disk.range header.entriesLba sectors (header.entriesLba + k) := by
        rw [Disk.range]
        omega
      rcases only _ _ (.inr inside) written with ⟨here, -⟩ | ⟨place, -, here, block⟩
      · exact absurd (here ▸ inside) apart
      · have same : place = k := by omega
        rw [same] at block
        exact .inr block

theorem liveGuid_medium {device : Device} {medium : Nat → List UInt8} {index : Nat}
    (layout : EntryLayout device header)
    (sized : ∀ lba, (medium lba).length = device.logicalBlockSize)
    (below : index < header.entryCount) :
    liveGuid header (entryTable device header medium) index =
      guidAt (medium (header.entriesLba + index * header.entrySize / device.logicalBlockSize))
        (index * header.entrySize % device.logicalBlockSize) := by
  have large := layout.large
  have place := layout.place below
  apply guidAt_congr
  · exact (@EntryPlace.slice _ _ _ _ place sized below 0 16 (by omega)).symm
  · exact (@EntryPlace.slice _ _ _ _ place sized below 16 16 (by omega)).symm

theorem liveGuid_chunk {device : Device} {entries : List UInt8} {index : Nat}
    (layout : EntryLayout device header)
    (whole : entries.length = header.entriesSectors device.logicalBlockSize * device.logicalBlockSize)
    (below : index < header.entryCount) :
    liveGuid header entries index = guidAt (Disk.chunk device.logicalBlockSize entries
          (index * header.entrySize / device.logicalBlockSize))
        (index * header.entrySize % device.logicalBlockSize) := by
  have large := layout.large
  obtain ⟨sector, -, fits⟩ := layout.place below
  have room := Nat.mul_le_mul_right device.logicalBlockSize (Nat.succ_le_of_lt sector)
  rw [Nat.succ_mul] at room
  have block : Disk.chunk device.logicalBlockSize entries
      (index * header.entrySize / device.logicalBlockSize) =
      slice entries (index * header.entrySize / device.logicalBlockSize *
        device.logicalBlockSize) device.logicalBlockSize := by
    rw [Disk.chunk, slice_length (by omega), Nat.sub_self, List.replicate_zero, List.append_nil]
  have place := Nat.div_add_mod' (index * header.entrySize) device.logicalBlockSize
  rw [block]
  apply guidAt_congr
  · rw [slice_slice (by omega), place]
  · rw [slice_slice (by omega), ← Nat.add_assoc, place]

theorem versionWrites {permitted : Nat → List UInt8 → Prop} {sector : List UInt8} {crc : Nat}
    (roomy : 92 ≤ size) (whole : sector.length = size) (here : gptHeader sector = header)
    (small : crc < 2 ^ 32)
    (inside : ∀ lba block, CopyBlock size header sectors old new lba block → permitted lba block) :
    VersionWrites (Disk.WritesAmong size permitted) sectors old new sector
      (gptUpdateHeaderCrc sector crc) := by
  have room : 92 ≤ sector.length := by omega
  have updated := gptHeader_update room small
  rw [here] at updated
  have whole' : (gptUpdateHeaderCrc sector crc).length = size := by
    rw [gptUpdateHeaderCrc_length room, whole]
  have array {data : List UInt8} (either : data = old ∨ data = new) :
      ∀ k < sectors, permitted (header.entriesLba + k) (Disk.chunk size data k) := by
    intro k below
    refine inside _ _ (.inr ⟨k, below, rfl, ?_⟩)
    rcases either with rfl | rfl
    · exact .inl rfl
    · exact .inr rfl
  have head {stored : List UInt8} (whole : stored.length = size) (version : IsVersion header stored) :
      ∀ k < 1, permitted (header.currentLba + k) (Disk.chunk size stored k) := by
    intro k below
    have first : k = 0 := by omega
    rw [first, Disk.chunk_self whole]
    exact inside _ _ (.inl ⟨rfl, version⟩)
  obtain ⟨own, version⟩ : ∃ own, gptHeader (gptUpdateHeaderCrc sector crc) =
    header.stamped crc own := ⟨_, updated⟩
  constructor
  · rw [version]
    exact ⟨array (.inr rfl), head whole' ⟨crc, own, version⟩⟩
  · rw [version]
    exact ⟨array (.inl rfl), head whole ⟨_, _, here⟩⟩

theorem MixedCopy.guids {device : Device} {medium medium' : Nat → List UInt8}
    (mixed : MixedCopy device.logicalBlockSize header sectors old new medium medium')
    (layout : EntryLayout device header)
    (whole : header.entriesSectors device.logicalBlockSize = sectors)
    (sized : ∀ lba, (medium lba).length = device.logicalBlockSize)
    (sized' : ∀ lba, (medium' lba).length = device.logicalBlockSize)
    (wholeOld : old.length = sectors * device.logicalBlockSize)
    (wholeNew : new.length = sectors * device.logicalBlockSize)
    {index : Nat} (below : index < header.entryCount) :
    liveGuid header (entryTable device header medium') index =
        liveGuid header (entryTable device header medium) index ∨
      liveGuid header (entryTable device header medium') index = liveGuid header old index ∨
      liveGuid header (entryTable device header medium') index = liveGuid header new index := by
  rw [← whole] at wholeOld wholeNew
  rw [liveGuid_medium layout sized below, liveGuid_medium layout sized' below,
    liveGuid_chunk layout wholeOld below, liveGuid_chunk layout wholeNew below]
  rcases mixed.array _ (whole ▸ (layout.place below).sector) with same | same | same
  · rw [same]
    exact .inl rfl
  · rw [same]
    exact .inr (.inl rfl)
  · rw [same]
    exact .inr (.inr rfl)

end Copy

theorem store_mixed {device : Device} {slot : Nat} {disk : Disk device.logicalBlockSize}
    {copies : GptCopies} (sized : ∀ lba, (disk.medium lba).length = device.logicalBlockSize)
    (loaded : Loaded device slot disk.medium copies)
    (disjoint : DisjointCopies device disk.medium) (entries : List UInt8) :
    let final := (Prog.run (Disk.handle device) (gptStore copies entries) disk).2.medium
    MixedCopy device.logicalBlockSize (gptHeader copies.primarySector) copies.sectors
        copies.entries entries disk.medium final ∧
      MixedCopy device.logicalBlockSize (gptHeader copies.backupSector) copies.sectors
        copies.entries entries disk.medium final := by
  have roomy := loaded.roomy
  have apart := loaded.apart disjoint
  have hereP := (gptHeaderValid_fields loaded.primaryValid).1
  have hereB := (gptHeaderValid_fields loaded.backupValid).1
  have writes : Prog.Uses (Disk.WritesAmong device.logicalBlockSize fun lba block =>
      CopyBlock device.logicalBlockSize (gptHeader copies.primarySector) copies.sectors
          copies.entries entries lba block ∨
        CopyBlock device.logicalBlockSize (gptHeader copies.backupSector) copies.sectors
          copies.entries entries lba block) (gptStore copies entries) := by
    refine gptStore_uses entries trivial (fun crc small => ?_) fun crc small => ?_
    · exact versionWrites (by omega) (by rw [loaded.primary, sized]) rfl small
        fun _ _ inside => .inl inside
    · exact versionWrites (by omega) (by rw [loaded.backup, sized]) rfl small
        fun _ _ inside => .inr inside
  have wrote := Disk.run_wroteAmong device writes disk
  constructor
  · refine mixedCopy wrote ?_ apart.primaryHeader ?_
    · rintro lba block here (inside | inside)
      · exact inside
      · exact absurd inside.region (apart.copies lba here)
    · rw [hereP, ← loaded.primary]
      exact ⟨_, _, rfl⟩
  · refine mixedCopy wrote ?_ apart.backupHeader ?_
    · rintro lba block here (inside | inside)
      · exact absurd here (apart.copies lba inside.region)
      · exact inside
    · rw [hereB, ← loaded.backup]
      exact ⟨_, _, rfl⟩

/-- The two headers are where they were, up to their checksums, and the GUIDs of both arrays
are distinct. -/
structure ManagedDisk (device : Device) (header backup : GptHeader) (medium : Nat → List UInt8) :
    Prop where
  primaryThere : IsVersion header (medium 1)
  backupThere : IsVersion backup (medium header.backupLba)
  disjoint : DisjointCopies device medium
  primary : GuidsDistinct header (entryTable device header medium)
  backup : GuidsDistinct backup (entryTable device backup medium)

/-- A create brings in a GUID that no entry has. -/
def Fresh (header : GptHeader) (table : List UInt8) (operation : GptOperation) : Prop :=
  ∀ guid, operation.guid = some guid → ∀ index < header.entryCount, liveGuid header table index ≠ some guid

theorem MixedCopy.distinct {device : Device} {slot sectors : Nat} {operation : GptOperation}
    {header : GptHeader} {old new : List UInt8} {medium medium' : Nat → List UInt8}
    (mixed : MixedCopy device.logicalBlockSize header sectors old new medium medium')
    (layout : EntryLayout device header)
    (whole : header.entriesSectors device.logicalBlockSize = sectors)
    (sized : ∀ lba, (medium lba).length = device.logicalBlockSize)
    (sized' : ∀ lba, (medium' lba).length = device.logicalBlockSize)
    (wholeOld : old.length = sectors * device.logicalBlockSize)
    (inside : slot < header.entryCount)
    (there : entryTable device header medium = old.take header.entriesBytes)
    (fresh : Fresh header old operation)
    (distinct : GuidsDistinct header (entryTable device header medium))
    (edited : gptEdited header slot operation old = some new) :
    GuidsDistinct header (entryTable device header medium') := by
  have large := layout.large
  have fits := layout.fits
  have room : header.entriesBytes ≤ old.length := by
    rw [wholeOld, ← whole]
    exact entriesBytes_le header (by omega)
  have within := entry_within inside
  have wholeNew : new.length = sectors * device.logicalBlockSize := by
    rw [gptEdit_length (by rw [Nat.succ_mul]; omega) large (Option.filter_eq_some_iff.mp edited).1, wholeOld]
  have same : ∀ index < header.entryCount,
      liveGuid header (entryTable device header medium) index = liveGuid header old index := by
    intro index below
    rw [there, liveGuid_take large below]
  refine @guidsDistinct_step header slot operation _ _ distinct ?_ ?_
  · intro guid brings index below
    rw [same index below]
    exact fresh guid brings index below
  · intro index below guid live
    rcases mixed.guids layout whole sized sized' wholeOld wholeNew below with kept | before | after
    · rw [kept] at live
      exact .inl live
    · rw [before, ← same index below] at live
      exact .inl live
    · rw [after] at live
      rw [same index below]
      exact gptEdited_guids inside large room edited live

theorem gptEdited_alike {primary backup : GptHeader} (layouts : gptLayoutsMatch primary backup = true)
    (slot : Nat) (operation : GptOperation) (entries : List UInt8) :
    gptEdited backup slot operation entries = gptEdited primary slot operation entries := by
  simp only [gptLayoutsMatch, Bool.and_eq_true, beq_iff_eq] at layouts
  obtain ⟨⟨⟨⟨⟨⟨-, -⟩, first⟩, last⟩, count⟩, size⟩, -⟩ := layouts
  have edit : gptEdit backup slot operation entries = gptEdit primary slot operation entries := by
    simp only [gptEdit, size]
  have valid : gptEntriesValid backup = gptEntriesValid primary := by
    funext table
    simp only [gptEntriesValid, first, last, count, size]
  rw [gptEdited, gptEdited, edit, valid]

theorem store_managed {device : Device} {slot : Nat} {operation : GptOperation}
    {header backup : GptHeader} {disk : Disk device.logicalBlockSize} {copies : GptCopies}
    {entries : List UInt8} (whole : disk.WholeBlocks)
    (named : ManagedDisk device header backup disk.medium)
    (loaded : Loaded device slot disk.medium copies)
    (fresh : Fresh (gptHeader copies.primarySector) copies.entries operation)
    (edited : gptEdited (gptHeader copies.primarySector) slot operation copies.entries = some entries) :
    ManagedDisk device header backup
      (Prog.run (Disk.handle device) (gptStore copies entries) disk).2.medium := by
  have sized : ∀ lba, (disk.medium lba).length = device.logicalBlockSize :=
    Disk.medium_sized whole
  have sized' : ∀ lba, ((Prog.run (Disk.handle device) (gptStore copies entries)
      disk).2.medium lba).length = device.logicalBlockSize := by
    apply Disk.medium_sized
    exact Prog.run_preserves (Disk.handle_wholeBlocks device) _ _ whole
  obtain ⟨mixedP, mixedB⟩ := store_mixed sized loaded named.disjoint entries
  obtain ⟨final, there⟩ : ∃ final, (Prog.run (Disk.handle device) (gptStore copies entries)
    disk).2.medium = final := ⟨_, rfl⟩
  rw [there] at mixedP mixedB sized' ⊢
  have wholeOld : copies.entries.length = copies.sectors * device.logicalBlockSize := by
    rw [loaded.entries, blocksAt_flatten_length sized]
  have hereP := (gptHeaderValid_fields loaded.primaryValid).1
  have hereB := (gptHeaderValid_fields loaded.backupValid).1
  obtain ⟨bytes, sectorsB⟩ := loaded.backup_sectors
  have layouts := loaded.layouts
  simp only [gptLayoutsMatch, Bool.and_eq_true, beq_iff_eq] at layouts
  obtain ⟨⟨⟨⟨⟨⟨-, -⟩, -⟩, -⟩, count⟩, size⟩, -⟩ := layouts
  -- the headers that were loaded are versions of the two headers
  obtain ⟨crc, own, version⟩ := named.primaryThere
  obtain ⟨crc', own', version'⟩ := named.backupThere
  have versionP : gptHeader copies.primarySector = header.stamped crc own := by
    rw [loaded.primary, version]
  have versionB : gptHeader copies.backupSector = backup.stamped crc' own' := by
    rw [loaded.backup, versionP]
    exact version'
  have freshB : Fresh (gptHeader copies.backupSector) copies.entries operation := by
    intro guid brings index below
    rw [liveGuid, ← size]
    rw [← count] at below
    exact fresh guid brings index below
  have tableP : entryTable device (gptHeader copies.primarySector) disk.medium =
      copies.entries.take (gptHeader copies.primarySector).entriesBytes := by
    rw [entryTable, ← loaded.sectors, ← loaded.entries]
  have tableB : entryTable device (gptHeader copies.backupSector) disk.medium =
      copies.entries.take (gptHeader copies.backupSector).entriesBytes := by
    rw [entryTable, sectorsB, bytes, loaded.same]
  have editedB := gptEdited_alike loaded.layouts slot operation copies.entries
  rw [edited] at editedB
  have insideB : slot < (gptHeader copies.backupSector).entryCount := count ▸ loaded.slotInside
  have primary := mixedP.distinct (gptHeaderValid_layout loaded.primaryValid).1
    loaded.sectors.symm sized sized' wholeOld loaded.slotInside tableP fresh
    (by rw [versionP]; exact named.primary) edited
  have backup := mixedB.distinct (gptHeaderValid_layout loaded.backupValid).1
    sectorsB sized sized' wholeOld insideB tableB freshB
    (by rw [versionB]; exact named.backup) editedB
  obtain ⟨crc₁, own₁, after⟩ := mixedP.sector
  obtain ⟨crc₂, own₂, after'⟩ := mixedB.sector
  rw [hereP, versionP] at after
  rw [hereB, versionB] at after'
  rw [versionP] at after' primary
  rw [versionB] at backup
  refine ⟨⟨crc₁, own₁, after⟩, ⟨crc₂, own₂, after'⟩, ?_, primary, backup⟩
  have disjoint := named.disjoint
  simp only [DisjointCopies] at disjoint ⊢
  rw [version] at disjoint
  rw [after]
  have before : gptHeader (disk.medium (header.stamped crc own).backupLba) = _ := version'
  rw [before] at disjoint
  have behind : gptHeader (final ((header.stamped crc own).stamped crc₁ own₁).backupLba) = _ := after'
  rw [behind]
  exact disjoint

/-- The commit accepts a change of the table of a disk. -/
structure CommitAccepts (device : Device) (medium : Nat → List UInt8) (slot : Nat)
    (operation : GptOperation) (table : List UInt8) : Prop where
  root : device.parent = none
  primary : gptCopy device medium 1 = some table
  backup : gptCopy device medium (gptHeader (medium 1)).backupLba = some table
  small : (gptHeader (medium 1)).entriesBytes ≤ 128 * 1024
  inside : slot < (gptHeader (medium 1)).entryCount
  allowed : gptEdited (gptHeader (medium 1)) slot operation table ≠ none

theorem gptLoad_yields (device : Device) (mounted : Bool) (slot : Nat) :
    Prog.Yields (fun copies => device.parent = none ∧
      (gptHeader copies.primarySector).entriesBytes ≤ 128 * 1024)
      (gptLoad device mounted slot) := by
  refine Prog.yields_guard fun allowed => Prog.yields_bind fun primarySector =>
    Prog.yields_bind fun backupSector => Prog.yields_guard fun _ => Prog.yields_guard fun fits => ?_
  refine Prog.yields_bind fun _ => Prog.yields_bind fun _ => Prog.yields_guard fun _ =>
    Prog.yields_bind fun _ => Prog.yields_bind fun _ => Prog.yields_guard fun _ =>
      Prog.yields_guard fun _ => Prog.yields_pure ⟨allowed.1, ?_⟩
  exact Nat.le_of_not_gt fits.2

theorem commit_managed {device : Device} {mounted : Bool} {slot : Nat} {operation : GptOperation}
    {header backup : GptHeader} {disk : Disk device.logicalBlockSize} (whole : disk.WholeBlocks)
    (named : ManagedDisk device header backup disk.medium)
    (fresh : ∀ table, CommitAccepts device disk.medium slot operation table →
      Fresh (gptHeader (disk.medium 1)) table operation) :
    Prog.wp (Disk.handle device) (partitionGptCommit device mounted slot operation)
      (fun _ final => ManagedDisk device header backup final.medium) disk := by
  have load : Prog.wp (Disk.handle device) (gptLoad device mounted slot)
      (fun result disk' => (∀ copies, result = some copies → device.parent = none ∧
          (gptHeader copies.primarySector).entriesBytes ≤ 128 * 1024) ∧
        Disk.Untouched disk disk' ∧ ∀ copies, result = some copies →
          Loaded device slot disk.medium copies) disk :=
    ⟨fun _ returned => (gptLoad_yields device mounted slot).run returned, gptLoad_spec mounted slot⟩
  rw [partitionGptCommit, Prog.wp_bind]
  apply Prog.wp_mono load
  rintro (_ | copies) disk' ⟨guards, same, load⟩
  · dsimp only
    rw [same.medium]
    exact named
  obtain ⟨root, small⟩ := guards copies rfl
  have loaded : Loaded device slot disk'.medium copies := by
    rw [same.medium]
    exact load copies rfl
  have named' : ManagedDisk device header backup disk'.medium := by
    rw [same.medium]
    exact named
  have whole' : disk'.WholeBlocks := by
    unfold Disk.WholeBlocks
    rw [same.written]
    exact whole
  dsimp only
  rw [Prog.wp_ofOption]
  cases edited : gptEdited (gptHeader copies.primarySector) slot operation copies.entries with
  | none => exact named'
  | some entries =>
    dsimp only
    rw [Prog.wp_lift, Prog.wp_guard_last]
    have large := (gptHeaderValid_layout loaded.primaryValid).1.large
    have roomy := loaded.roomy
    have room : (gptHeader copies.primarySector).entriesBytes ≤ copies.entries.length := by
      rw [loaded.entries, blocksAt_flatten_length (Disk.medium_sized whole'), loaded.sectors]
      exact entriesBytes_le _ (by omega)
    -- what was loaded is the committed table
    obtain ⟨primary, backup'⟩ := loaded.copies_valid
    rw [same.medium] at primary backup'
    have here : gptHeader (disk.medium 1) = gptHeader copies.primarySector := by
      rw [loaded.primary, same.medium]
    have allowed := fresh _ ⟨root, primary, by rw [here]; exact backup', by rwa [here],
      by rw [here]; exact loaded.slotInside, by
        rw [here, gptEdited_take loaded.slotInside large room, edited]
        exact Option.some_ne_none _⟩
    rw [here] at allowed
    have fresh' : Fresh (gptHeader copies.primarySector) copies.entries operation := by
      intro guid brings index below
      rw [← liveGuid_take large below]
      exact allowed guid brings index below
    have stored := store_managed whole' named' loaded fresh' edited
    split
    · exact stored
    · exact stored

/-! ### Runs -/

/-- A call of `disk_management_partition_gpt`: the devices, partitions and mounts at that time,
the arguments, and how the calls that it makes end. -/
structure ManagedCall where
  registries : Registries
  mounted : Nat → Bool
  operation : Option CString
  target : Option CString
  slot : Nat
  startLba : UInt64
  blockCount : UInt64
  dryRun : Bool
  outcomes : List Outcome

def ManagedCall.run {size : Nat} (device : Device) (call : ManagedCall) (disk : Disk size) :
    Option Unit × Disk size :=
  Prog.run (Disk.handle device)
    (diskManagementPartitionGpt call.registries call.mounted call.operation call.target call.slot
      call.startLba call.blockCount call.dryRun).run
    { disk with outcomes := call.outcomes }

/-- The target names the disk, if it names anything. -/
def ManagedCall.Targets (device : Device) (call : ManagedCall) : Prop :=
  ∀ id, call.target.bind (dmFindDevice call.registries) = some id →
    ∀ found, call.registries.devices[id]? = some found → found = device

/-- The change that a create asks for. -/
def managedCreate (startLba blockCount : UInt64) : GptOperation :=
  .create (some linuxType) (some builtInGuid) (some dataName) startLba blockCount

/-- The call creates a partition, and the commit accepts it. -/
structure ManagedCall.Creates (device : Device) (medium : Nat → List UInt8) (call : ManagedCall)
    (table : List UInt8) : Prop where
  valid : diskManagementValidate call.registries call.mounted call.target = true
  create : call.operation = some "create".toList
  below : call.slot < PARTITION_MAX_PER_DISK
  real : call.dryRun = false
  accepted : CommitAccepts device medium call.slot (managedCreate call.startLba call.blockCount) table

/-- When the call creates a partition, no entry in use carries the built-in GUID. -/
def ManagedCall.Distinguished (device : Device) (medium : Nat → List UInt8) (call : ManagedCall) :
    Prop :=
  ∀ table, call.Creates device medium table → ∀ index < (gptHeader (medium 1)).entryCount,
      liveGuid (gptHeader (medium 1)) table index ≠ some builtInGuid.1

theorem wp_partitionGpt {device : Device} {σ : Type}
    {handle : (op : DeviceOp) → σ → op.Response × σ} {call : ManagedCall}
    {post : σ → Prop} {s : σ} (targets : call.Targets device) (nothing : post s)
    (create : diskManagementValidate call.registries call.mounted call.target = true →
      call.operation = some "create".toList → call.slot < PARTITION_MAX_PER_DISK →
      call.dryRun = false → ∀ mounted, Prog.wp handle (partitionGptCommit device mounted call.slot
        (managedCreate call.startLba call.blockCount)) (fun _ => post) s)
    (other : ∀ operation : GptOperation, operation.guid = none → ∀ mounted,
      Prog.wp handle (partitionGptCommit device mounted call.slot operation) (fun _ => post) s) :
    Prog.wp handle (diskManagementPartitionGpt call.registries call.mounted call.operation
      call.target call.slot call.startLba call.blockCount call.dryRun) (fun _ => post) s := by
  rw [diskManagementPartitionGpt, Prog.wp_guard]
  split
  · rename_i valid
    rw [Prog.wp_ofOption]
    cases asked : call.operation with
    | none => exact nothing
    | some operation =>
      dsimp only
      rw [Prog.wp_guard]
      split
      · rename_i below
        rw [Prog.wp_ofOption]
        cases named : call.target.bind (dmFindDevice call.registries) with
        | none => exact nothing
        | some id =>
          dsimp only
          rw [Prog.wp_ofOption]
          cases registered : call.registries.devices[id]? with
          | none => exact nothing
          | some found =>
            have same := targets id named found registered
            subst same
            dsimp only
            cases dry : call.dryRun with
            | true => exact nothing
            | false =>
              rw [if_neg Bool.false_ne_true]
              split
              · rename_i creates
                exact create valid (by rw [asked, creates]) (Nat.lt_of_not_le below) dry _
              · split
                · exact other .delete rfl _
                · split
                  · exact other (.resize _ _) rfl _
                  · exact nothing
      · exact nothing
  · exact nothing

theorem run_creates {device : Device} {medium : Nat → List UInt8} {call : ManagedCall}
    {table : List UInt8} {id : Nat} (creates : call.Creates device medium table)
    (named : call.target.bind (dmFindDevice call.registries) = some id)
    (registered : call.registries.devices[id]? = some device) (disk : Disk device.logicalBlockSize) :
    call.run device disk = GptCall.run device
      ⟨call.slot, managedCreate call.startLba call.blockCount, false, call.outcomes⟩ disk := by
  have free : call.mounted id = false := by
    have valid := creates.valid
    unfold diskManagementValidate at valid
    cases target : call.target with
    | none => rw [target] at named; cases named
    | some name =>
      rw [target, Option.bind_some] at named
      simp only [target] at valid
      split at valid
      · cases valid
      · simp only [named, Bool.and_eq_true, Bool.not_eq_true'] at valid
        exact valid.2
  have all : Prog.wp (Disk.handle device) (diskManagementPartitionGpt call.registries call.mounted
      call.operation call.target call.slot call.startLba call.blockCount call.dryRun)
      (fun result final => (result, final) = GptCall.run device
        ⟨call.slot, managedCreate call.startLba call.blockCount, false, call.outcomes⟩ disk)
      { disk with outcomes := call.outcomes } := by
    rw [diskManagementPartitionGpt, Prog.wp_guard, if_pos creates.valid, creates.create, Prog.wp_ofOption]
    dsimp only
    rw [Prog.wp_guard, if_pos (Nat.not_le_of_lt creates.below), named, Prog.wp_ofOption]
    dsimp only
    rw [registered, Prog.wp_ofOption]
    dsimp only
    rw [creates.real, if_neg Bool.false_ne_true, if_pos rfl, free]
    rfl
  exact all

theorem create_collides {device : Device} {disk : Disk device.logicalBlockSize}
    {call : ManagedCall} {table : List UInt8} {id index : Nat} (changeable : Changeable device)
    (calm : Disk.Calm { disk with outcomes := call.outcomes })
    (gpt : GptDisk device disk.medium table)
    (creates : call.Creates device disk.medium table)
    (named : call.target.bind (dmFindDevice call.registries) = some id)
    (registered : call.registries.devices[id]? = some device)
    (below : index < (gptHeader (disk.medium 1)).entryCount)
    (live : liveGuid (gptHeader (disk.medium 1)) table index = some builtInGuid.1) :
    ∃ table', gptCopy device (call.run device disk).2.medium 1 = some table' ∧
      ¬GuidsDistinct (gptHeader ((call.run device disk).2.medium 1)) table' := by
  rw [run_creates creates named registered disk]
  obtain ⟨edited, change⟩ := Option.ne_none_iff_exists'.mp creates.accepted.allowed
  have done : (GptCall.run device ⟨call.slot, managedCreate call.startLba call.blockCount, false,
      call.outcomes⟩ disk).1 = some () :=
    partitionGptCommit_succeeds changeable calm gpt creates.accepted.inside creates.accepted.small
      change
  obtain ⟨table', change', -, committed⟩ := @call_commits device (gptHeader (disk.medium 1)) disk
    table _ calm.whole ⟨gpt, _, _, rfl⟩ done
  obtain ⟨crc, own, stamped⟩ := committed.stamped
  refine ⟨table', committed.gpt.primary, fun distinct => ?_⟩
  rw [stamped] at distinct
  obtain ⟨large, length⟩ := gptCopy_length (Disk.medium_sized calm.whole) gpt.primary
  obtain ⟨free, taken⟩ := gptEdited_created creates.accepted.inside large
    (Nat.le_of_eq length.symm) change'
  have apart : index ≠ call.slot := by
    rintro rfl
    rw [free] at live
    cases live
  obtain ⟨-, -, -, -, -, elsewhere⟩ := gptEdited_entry creates.accepted.inside large
    (Nat.le_of_eq length.symm) change'
  exact apart (distinct index below call.slot creates.accepted.inside builtInGuid.1
    ((elsewhere index apart).trans live) taken)

theorem call_managed {device : Device} {header backup : GptHeader} {call : ManagedCall}
    {disk : Disk device.logicalBlockSize} (whole : disk.WholeBlocks)
    (named : ManagedDisk device header backup disk.medium) (targets : call.Targets device)
    (distinguished : call.Distinguished device disk.medium) :
    (call.run device disk).2.WholeBlocks ∧
      ManagedDisk device header backup (call.run device disk).2.medium := by
  refine ⟨Prog.run_preserves (Disk.handle_wholeBlocks device) _ _ whole, ?_⟩
  have all : Prog.wp (Disk.handle device) (diskManagementPartitionGpt call.registries call.mounted
      call.operation call.target call.slot call.startLba call.blockCount call.dryRun)
      (fun _ (final : Disk device.logicalBlockSize) => ManagedDisk device header backup final.medium)
      { disk with outcomes := call.outcomes } := by
    refine wp_partitionGpt targets named ?_ ?_
    · intro valid create below real mounted
      refine commit_managed whole named fun table accepted guid brings => ?_
      cases brings
      exact distinguished table ⟨valid, create, below, real, accepted⟩
    · intro operation none mounted
      refine commit_managed whole named fun table accepted guid brings => ?_
      rw [none] at brings
      cases brings
  exact all

theorem committed_distinct {device : Device} {medium : Nat → List UInt8} {headerLba : Nat}
    {header : GptHeader} {table : List UInt8} (version : IsVersion header (medium headerLba))
    (copy : gptCopy device medium headerLba = some table)
    (distinct : GuidsDistinct header (entryTable device header medium)) :
    GuidsDistinct (gptHeader (medium headerLba)) table := by
  obtain ⟨crc, own, version⟩ := version
  obtain ⟨-, there, -⟩ := gptCopy_valid copy
  rw [there, version]
  exact distinct

theorem GuidsDistinct.uuids {header : GptHeader} {table : List UInt8}
    (distinct : GuidsDistinct header table) (large : 128 ≤ header.entrySize)
    (room : header.entriesBytes ≤ table.length) : UuidsDistinct header table := by
  have whole : ∀ index < header.entryCount, ∀ guid, liveGuid header table index = some guid →
      guid.length = 16 := by
    intro index below guid live
    have within := entry_within below
    unfold liveGuid guidAt at live
    split at live
    · cases live
    · cases live
      exact slice_length (by omega)
  intro index below other below' uuid found found'
  obtain ⟨guid, live, text⟩ := Option.map_eq_some_iff.mp found
  obtain ⟨guid', live', text'⟩ := Option.map_eq_some_iff.mp found'
  have same := guidToString_injective (whole _ below _ live) (whole _ below' _ live')
    (text.trans text'.symm)
  subst same
  exact distinct index below other below' guid live live'

/-- **The GUIDs of a disk that is managed.** On a disk with a GPT whose entries in use have
distinct GUIDs, they have distinct GUIDs behind every sequence of creates, deletes and resizes,
whatever fails, and are found under distinct UUIDs, when every create that the commit accepts
finds no entry with the built-in GUID. -/
theorem guids_distinct (device : Device) (start : Nat → List UInt8)
    (sized : ∀ lba, (start lba).length = device.logicalBlockSize) (table : List UInt8)
    (gpt : GptDisk device start table) (distinct : GuidsDistinct (gptHeader (start 1)) table)
    (final : Disk device.logicalBlockSize)
    (run : Trace.Reaches (fun disk (call : ManagedCall) => (call.run device disk).2)
      (fun disk call => call.Targets device ∧ call.Distinguished device disk.medium)
      (Disk.boot start sized []) final) :
    ∀ headerLba ∈ [1, (gptHeader (start 1)).backupLba], ∀ table',
      gptCopy device final.medium headerLba = some table' →
      GuidsDistinct (gptHeader (final.medium headerLba)) table' ∧
        UuidsDistinct (gptHeader (final.medium headerLba)) table' := by
  obtain ⟨-, primaryTable, -⟩ := gptCopy_valid gpt.primary
  obtain ⟨-, backupTable, -⟩ := gptCopy_valid gpt.backup
  have layouts := gpt.layouts
  simp only [gptLayoutsMatch, Bool.and_eq_true, beq_iff_eq] at layouts
  obtain ⟨⟨⟨⟨⟨⟨-, -⟩, -⟩, -⟩, count⟩, size⟩, -⟩ := layouts
  have named : ManagedDisk device (gptHeader (start 1))
      (gptHeader (start (gptHeader (start 1)).backupLba)) start := by
    refine ⟨⟨_, _, rfl⟩, ⟨_, _, rfl⟩, gpt.disjoint, ?_, ?_⟩
    · rw [← primaryTable]
      exact distinct
    · rw [← backupTable, GuidsDistinct]
      simp only [liveGuid, ← count, ← size]
      exact distinct
  have kept := @Trace.Reaches.preserves _ _ _ _ _ _ (fun disk : Disk device.logicalBlockSize =>
    disk.WholeBlocks ∧ ManagedDisk device (gptHeader (start 1))
      (gptHeader (start (gptHeader (start 1)).backupLba)) disk.medium)
    (fun disk call inv allowed => call_managed inv.1 inv.2 allowed.1 allowed.2) run
  obtain ⟨whole, after⟩ := kept ⟨fun _ member => (List.not_mem_nil member).elim, named⟩
  intro headerLba which table' copy
  have both : GuidsDistinct (gptHeader (final.medium headerLba)) table' := by
    rcases List.mem_cons.mp which with rfl | other
    · exact committed_distinct after.primaryThere copy after.primary
    · cases List.mem_singleton.mp other
      exact committed_distinct after.backupThere copy after.backup
  obtain ⟨large, length⟩ := gptCopy_length (Disk.medium_sized whole) copy
  exact ⟨both, both.uuids large (by omega)⟩

/-! ### A disk with one managed partition -/

/-- The partition that was created first, and a free entry. -/
def managedTable : List UInt8 :=
  linuxType.1 ++ builtInGuid.1 ++ digits 8 10 ++ digits 8 19 ++ List.replicate 8 0 ++ dataName.1 ++
    List.replicate 128 0

def managedSector (own other entries : Nat) : List UInt8 :=
  let sector := put (List.replicate 512 0) 0 gptSignature
  let sector := putLE (putLE (putLE sector 12 4 92) 24 8 own) 32 8 other
  let sector := putLE (putLE sector 40 8 3) 48 8 61
  putLE (putLE (putLE sector 72 8 entries) 80 4 2) 84 4 128

def managedStart (lba : Nat) : List UInt8 :=
  if lba = 0 then put (putLE (List.replicate 512 0) 450 1 0xEE) 510 [0x55, 0xAA]
  else if lba = 1 then gptUpdateHeaderCrc (managedSector 1 63 2) (crc32 managedTable)
  else if lba = 63 then gptUpdateHeaderCrc (managedSector 63 1 62) (crc32 managedTable)
  else if lba = 2 ∨ lba = 62 then managedTable ++ List.replicate 256 0
  else List.replicate 512 0

theorem managed_lengths : (managedSector 1 63 2).length = 512 ∧
    (managedSector 63 1 62).length = 512 ∧ managedTable.length = 256 := by
  decide +kernel

theorem managedStart_sized (lba : Nat) : (managedStart lba).length = 512 := by
  obtain ⟨primary, backup, table⟩ := managed_lengths
  unfold managedStart
  split_ifs
  · exact protectedStart_sized 0
  · rw [gptUpdateHeaderCrc_length (by omega), primary]
  · rw [gptUpdateHeaderCrc_length (by omega), backup]
  · rw [List.length_append, table, List.length_replicate]
  · exact List.length_replicate

theorem managedStart_primary : gptCopy exampleDevice managedStart 1 = some managedTable ∧ ∃ own,
      gptHeader (managedStart 1) = (gptHeader (managedSector 1 63 2)).stamped (crc32 managedTable) own :=
  @gptCopy_made exampleDevice managedStart 1 (managedSector 1 63 2) managedTable
    (by rw [managed_lengths.1]; decide) rfl (by decide +kernel) (by decide +kernel)

theorem managedStart_gpt : GptDisk exampleDevice managedStart managedTable := by
  obtain ⟨primary, own, header⟩ := managedStart_primary
  obtain ⟨backup, own', header'⟩ := @gptCopy_made exampleDevice managedStart 63
    (managedSector 63 1 62) managedTable (by rw [managed_lengths.2.1]; decide) rfl
    (by decide +kernel) (by decide +kernel)
  exact gptDisk_made (by decide +kernel) (by decide +kernel) primary header backup header'
    (by decide) (by decide) (by decide) (by decide) (by decide)
    (by decide)

theorem managedStart_distinct : GuidsDistinct (gptHeader (managedStart 1)) managedTable := by
  obtain ⟨-, own, header⟩ := managedStart_primary
  rw [header]
  change GuidsDistinct (gptHeader (managedSector 1 63 2)) managedTable
  have count : (gptHeader (managedSector 1 63 2)).entryCount = 2 := by decide
  have free : liveGuid (gptHeader (managedSector 1 63 2)) managedTable 1 = none := by decide
  intro index below other below' guid live live'
  have notSecond : ∀ index, liveGuid (gptHeader (managedSector 1 63 2)) managedTable index =
      some guid → index ≠ 1 := by
    rintro index live rfl
    rw [free] at live
    cases live
  have first := notSecond index live
  have first' := notSecond other live'
  omega

/-- A second partition in slot 1. -/
def secondCreate : ManagedCall where
  registries := ⟨[exampleDevice], []⟩
  mounted := fun _ => false
  operation := some "create".toList
  target := some exampleDevice.name
  slot := 1
  startLba := 30
  blockCount := 10
  dryRun := false
  outcomes := []

def firstDelete : ManagedCall :=
  { secondCreate with operation := some "delete".toList, slot := 0 }

/-- The disk behind the delete. -/
def emptiedDisk : Disk exampleDevice.logicalBlockSize :=
  (firstDelete.run exampleDevice (Disk.boot managedStart managedStart_sized [])).2

theorem emptied_guidless : (gptCopy exampleDevice emptiedDisk.medium 1).all (fun table =>
    (List.range (gptHeader (emptiedDisk.medium 1)).entryCount).all fun index =>
      liveGuid (gptHeader (emptiedDisk.medium 1)) table index != some builtInGuid.1) = true := by
  decide +kernel

/-- The first partition is deleted, and then the second one is created. -/
theorem guids_distinct_example : GuidsDistinct (gptHeader (managedStart 1)) managedTable ∧
    ∀ headerLba ∈ [1, (gptHeader (managedStart 1)).backupLba], ∀ table',
      gptCopy exampleDevice (secondCreate.run exampleDevice emptiedDisk).2.medium headerLba =
        some table' →
      GuidsDistinct (gptHeader ((secondCreate.run exampleDevice emptiedDisk).2.medium headerLba))
        table' := by
  have targets (call : ManagedCall) (registries : call.registries = secondCreate.registries)
      (target : call.target = secondCreate.target) : call.Targets exampleDevice := by
    intro id named found registered
    rw [registries, target] at named
    rw [registries] at registered
    have here : secondCreate.target.bind (dmFindDevice secondCreate.registries) = some 0 := by
      decide +kernel
    rw [here] at named
    cases named
    exact (Option.some.inj registered).symm
  have first : firstDelete.Targets exampleDevice ∧
      firstDelete.Distinguished exampleDevice managedStart := by
    refine ⟨targets _ rfl rfl, fun table creates => ?_⟩
    have other := creates.create
    exact absurd other (by decide +kernel)
  have second : secondCreate.Targets exampleDevice ∧
      secondCreate.Distinguished exampleDevice emptiedDisk.medium := by
    refine ⟨targets _ rfl rfl, fun table creates index below => ?_⟩
    have none := emptied_guidless
    rw [creates.accepted.primary, Option.all_some, List.all_eq_true] at none
    exact bne_iff_ne.mp (none index (List.mem_range.mpr below))
  exact ⟨managedStart_distinct, fun headerLba which table' copy =>
    (guids_distinct exampleDevice managedStart managedStart_sized managedTable managedStart_gpt
      managedStart_distinct _ (.step first (.step second (.refl _))) headerLba which table' copy).1⟩

/-- The table with both partitions is not one of distinct GUIDs. -/
theorem managed_guids_collide : GptDisk exampleDevice managedStart managedTable ∧
    GuidsDistinct (gptHeader (managedStart 1)) managedTable ∧
    ∃ table', gptCopy exampleDevice (secondCreate.run exampleDevice
        (@Disk.boot exampleDevice.logicalBlockSize managedStart managedStart_sized
          [])).2.medium 1 = some table' ∧
      ¬GuidsDistinct (gptHeader ((secondCreate.run exampleDevice
        (@Disk.boot exampleDevice.logicalBlockSize managedStart managedStart_sized
          [])).2.medium 1)) table' := by
  obtain ⟨primary, own, header⟩ := managedStart_primary
  have gpt := managedStart_gpt
  refine ⟨gpt, managedStart_distinct, ?_⟩
  have changeable : Changeable exampleDevice := by
    constructor
    all_goals decide +kernel
  have calm : Disk.Calm { @Disk.boot exampleDevice.logicalBlockSize managedStart managedStart_sized
      [] with outcomes := secondCreate.outcomes } := by
    constructor
    · intro outcome member
      cases member
    · intro write member
      cases member
  have accepted : CommitAccepts exampleDevice managedStart secondCreate.slot
      (managedCreate secondCreate.startLba secondCreate.blockCount) managedTable := by
    refine ⟨rfl, primary, gpt.backup, ?_, ?_, ?_⟩
    · rw [header]
      change (gptHeader (managedSector 1 63 2)).entriesBytes ≤ 128 * 1024
      decide +kernel
    · rw [header]
      change 1 < (gptHeader (managedSector 1 63 2)).entryCount
      decide +kernel
    · rw [header]
      change gptEdited (gptHeader (managedSector 1 63 2)) 1 (managedCreate 30 10) managedTable ≠ none
      decide +kernel
  refine @create_collides exampleDevice _ secondCreate managedTable 0 0 changeable calm gpt
    ⟨by decide +kernel, rfl, by decide, rfl, accepted⟩ (by decide +kernel) rfl ?_ ?_
  · change 0 < (gptHeader (managedStart 1)).entryCount
    rw [header]
    change 0 < (gptHeader (managedSector 1 63 2)).entryCount
    decide +kernel
  · change liveGuid (gptHeader (managedStart 1)) managedTable 0 = _
    rw [header]
    change liveGuid (gptHeader (managedSector 1 63 2)) managedTable 0 = _
    decide +kernel

end AsasOs.Partition
