import AsasOs.Lib.Trace
import AsasOs.Partition.Tables

/-!
# Rescans after a change of the table

`vfs_rescan_devices` scans the disks that have no partition registered, and nothing takes a
partition out of the registry. So a rescan brings the registry of a disk in line with its
table when nothing of the disk is registered yet, and afterwards only as long as the
operations on the table leave it as it was.
-/
namespace AsasOs.Partition

open Block Bytes Prog

/-! ### The rescan -/

/-- The disks that the drivers register during a rescan. -/
def registerDevices (found devices : List Device) : List Device :=
  found.foldl (fun devices description =>
    (blockDeviceRegister { blockDeviceInitialize (fun _ _ _ => 0) with devices := devices }
      { description with parent := none }).1.devices) devices

def blockDeviceHasPartitions (s : Registries) (index : Nat) : Bool :=
  s.devices.any fun candidate => candidate.parent == some index

/-- What a rescan meets: the disks that the drivers find, and what each disk answers. -/
structure Surroundings where
  bootFallback : Bool
  found : List Device
  answers : Nat → (op : DeviceOp) → op.Response

/-- The body of the loop of `vfs_rescan_devices`. -/
def rescanDevice (answers : Nat → (op : DeviceOp) → op.Response) (s : Registries) (index : Nat) :
    Registries :=
  match s.devices[index]? with
  | none => s
  | some device =>
    if device.parent = none ∧ device.hasFlag BLOCK_DEVICE_FLAG_OPTICAL = false ∧
        blockDeviceHasPartitions s index = false then
      (eval (answers index) (partitionScanDevice index s)).2
    else s

/-- The state in which the loop of `vfs_rescan_devices` comes to the device `index`. -/
def rescannedBefore (surroundings : Surroundings) (s : Registries) (index : Nat) : Registries :=
  (List.range index).foldl (rescanDevice surroundings.answers)
    { s with devices := registerDevices surroundings.found s.devices }

def vfsRescanDevices (surroundings : Surroundings) (s : Registries) : Registries :=
  if surroundings.bootFallback then s
  else rescannedBefore surroundings s BLOCK_DEVICE_MAX_COUNT

/-! ### Operations and runs -/

inductive TableOperation where
  | mbrCreate (slot : Nat) (type : UInt8) (startLba blockCount : UInt64)
  | mbrDelete (slot : Nat)
  | mbrResize (slot : Nat) (startLba blockCount : UInt64)
  | gptCreate (slot : Nat) (typeGuid uniqueGuid : Option Guid) (name : Option EntryName)
      (startLba blockCount : UInt64)
  | gptDelete (slot : Nat)
  | gptResize (slot : Nat) (startLba blockCount : UInt64)

def TableOperation.code (device : Device) (mounted : Bool) : TableOperation → DeviceCode Unit
  | .mbrCreate slot type startLba blockCount =>
    partitionMbrCreate device mounted slot type startLba blockCount
  | .mbrDelete slot => partitionMbrDelete device mounted slot
  | .mbrResize slot startLba blockCount =>
    partitionMbrResize device mounted slot startLba blockCount
  | .gptCreate slot typeGuid uniqueGuid name startLba blockCount =>
    partitionGptCreate device mounted slot typeGuid uniqueGuid name startLba blockCount
  | .gptDelete slot => partitionGptDelete device mounted slot
  | .gptResize slot startLba blockCount =>
    partitionGptResize device mounted slot startLba blockCount

def TableOperation.onGpt : TableOperation → Bool
  | .mbrCreate _ _ _ _ | .mbrDelete _ | .mbrResize _ _ _ => false
  | .gptCreate _ _ _ _ _ _ | .gptDelete _ | .gptResize _ _ _ => true

/-- A disk and the registries. -/
structure System (size : Nat) where
  disk : Disk size
  registries : Registries

/-- An operation and the rescan that follows it. -/
structure Change where
  operation : TableOperation
  mounted : Bool
  outcomes : List Outcome
  surroundings : Surroundings

section Runs

variable {size : Nat}

/-- The disk after the operation, and whether the operation has succeeded. -/
def Change.operate (device : Device) (change : Change) (disk : Disk size) : Option Unit × Disk size :=
  run (Disk.handle device) (change.operation.code device change.mounted).run
    { disk with outcomes := change.outcomes }

def Change.apply (device : Device) (s : System size) (change : Change) : System size :=
  ⟨(change.operate device s.disk).2, vfsRescanDevices change.surroundings s.registries⟩

def PartitionInfo.entry (info : PartitionInfo) : TableEntry :=
  ⟨info.number, info.startLba, info.blockCount⟩

def registered (id : Nat) (s : Registries) : List PartitionInfo :=
  s.partitions.filter fun info => info.parent == id

/-- The partitions registered for the disk are the entries of the table on a medium: their
numbers and extents, the windows of their block devices, and no other block device of the
disk. -/
structure Agrees (device : Device) (id : Nat) (medium : Nat → List UInt8) (s : Registries) :
    Prop where
  entries : (registered id s).map PartitionInfo.entry = tableOn device medium
  windows : ∀ info ∈ registered id s, ∃ window, s.devices[info.device]? = some window ∧
    window.parent = some id ∧ window.startLba = info.startLba ∧
    window.blockCount = info.blockCount
  owned : ∀ index window, s.devices[index]? = some window → window.parent = some id →
    ∃ info ∈ registered id s, info.device = index

/-! ### What does not concern the disk -/

/-- Devices and partitions are added, none of them on the disk `id`. -/
structure Beside (id : Nat) (s s' : Registries) : Prop where
  devices : ∃ more, s'.devices = s.devices ++ more ∧ ∀ device ∈ more, device.parent ≠ some id
  partitions : ∃ more, s'.partitions = s.partitions ++ more ∧ ∀ info ∈ more, info.parent ≠ id

namespace Beside

variable {id : Nat} {s t u : Registries}

theorem refl (id : Nat) (s : Registries) : Beside id s s := by
  constructor
  · exact ⟨[], (List.append_nil _).symm, fun _ member => (List.not_mem_nil member).elim⟩
  · exact ⟨[], (List.append_nil _).symm, fun _ member => (List.not_mem_nil member).elim⟩

theorem trans (first : Beside id s t) (second : Beside id t u) : Beside id s u := by
  obtain ⟨devices, grown, foreign⟩ := first.devices
  obtain ⟨devices', grown', foreign'⟩ := second.devices
  obtain ⟨partitions, added, others⟩ := first.partitions
  obtain ⟨partitions', added', others'⟩ := second.partitions
  constructor
  · refine ⟨devices ++ devices', by rw [grown', grown, List.append_assoc], ?_⟩
    intro device member
    exact (List.mem_append.mp member).elim (foreign device) (foreign' device)
  · refine ⟨partitions ++ partitions', by rw [added', added, List.append_assoc], ?_⟩
    intro info member
    exact (List.mem_append.mp member).elim (others info) (others' info)

theorem registered_eq (beside : Beside id s t) : registered id t = registered id s := by
  obtain ⟨more, added, others⟩ := beside.partitions
  have none_kept : more.filter (fun info => info.parent == id) = [] := by
    simp only [List.filter_eq_nil_iff, beq_iff_eq]
    exact others
  rw [registered, added, List.filter_append, none_kept, List.append_nil]
  rfl

theorem hasPartitions_eq (beside : Beside id s t) :
    blockDeviceHasPartitions t id = blockDeviceHasPartitions s id := by
  obtain ⟨more, grown, foreign⟩ := beside.devices
  have none_counts : (more.any fun candidate => candidate.parent == some id) = false := by
    simp only [List.any_eq_false, beq_iff_eq]
    exact foreign
  rw [blockDeviceHasPartitions, grown, List.any_append, none_counts, Bool.or_false]
  rfl

theorem getElem?_eq (beside : Beside id s t) {index : Nat} {device : Device}
    (here : s.devices[index]? = some device) : t.devices[index]? = some device := by
  obtain ⟨more, grown, -⟩ := beside.devices
  rw [grown, List.getElem?_append_left (List.getElem?_eq_some_iff.mp here).1]
  exact here

theorem of_parent (beside : Beside id s t) {index : Nat} {window : Device}
    (here : t.devices[index]? = some window) (parent : window.parent = some id) :
    s.devices[index]? = some window := by
  obtain ⟨more, grown, foreign⟩ := beside.devices
  rw [grown] at here
  rcases Nat.lt_or_ge index s.devices.length with before | behind
  · rwa [List.getElem?_append_left before] at here
  · rw [List.getElem?_append_right behind] at here
    exact (foreign window (List.mem_of_getElem? here) parent).elim

theorem agrees {device : Device} {medium : Nat → List UInt8} (beside : Beside id s t)
    (agrees : Agrees device id medium s) : Agrees device id medium t := by
  constructor
  · rw [beside.registered_eq]
    exact agrees.entries
  · intro info member
    rw [beside.registered_eq] at member
    obtain ⟨window, here, same⟩ := agrees.windows info member
    exact ⟨window, beside.getElem?_eq here, same⟩
  · intro index window here parent
    rw [beside.registered_eq]
    exact agrees.owned index window (beside.of_parent here parent) parent

end Beside

section Others

variable {id parent : Nat} {s : Registries}

theorem recordPartition_beside {disk : Device} {candidate : Candidate} {s' : Registries}
    (other : parent ≠ id) (recorded : recordPartition parent disk candidate s = some s') :
    Beside id s s' := by
  obtain ⟨-, -, -, device, onParent, -, -, rfl⟩ := recordPartition_cases recorded
  constructor
  · refine ⟨[device], rfl, fun added member => ?_⟩
    rw [List.mem_singleton.mp member, onParent]
    exact fun same => other (Option.some.inj same)
  · refine ⟨_, rfl, fun info member => ?_⟩
    rw [List.mem_singleton.mp member]
    exact other

theorem partitionScanDevice_beside (other : parent ≠ id) (s : Registries) :
    Returns (fun result => Beside id s result.2) (partitionScanDevice parent s) :=
  partitionScanDevice_keeps parent
    (fun _ _ _ _ _ before recorded => before.trans (recordPartition_beside other recorded))
    (Beside.refl id s)

theorem rescanDevice_beside {answers : Nat → (op : DeviceOp) → op.Response} (other : parent ≠ id)
    (s : Registries) : Beside id s (rescanDevice answers s parent) := by
  unfold rescanDevice
  split
  · exact Beside.refl id s
  · split
    · exact (partitionScanDevice_beside other s).eval
    · exact Beside.refl id s

theorem rescanDevices_beside {answers : Nat → (op : DeviceOp) → op.Response} :
    ∀ (indices : List Nat), id ∉ indices →
    ∀ s, Beside id s (indices.foldl (rescanDevice answers) s) := by
  intro indices
  induction indices with
  | nil => exact fun _ s => Beside.refl id s
  | cons index rest ih =>
    intro others s
    rw [List.mem_cons, not_or] at others
    rw [List.foldl_cons]
    exact (rescanDevice_beside (Ne.symm others.1) s).trans (ih others.2 _)

theorem registerDevices_beside (id : Nat) (found : List Device) :
    ∀ s : Registries, Beside id s { s with devices := registerDevices found s.devices } := by
  induction found with
  | nil => exact Beside.refl id
  | cons description rest ih =>
    intro s
    unfold registerDevices at ih ⊢
    rw [List.foldl_cons]
    refine Beside.trans ?_ (ih { s with devices := _ })
    unfold blockDeviceRegister
    split
    · refine ⟨⟨[_], rfl, fun device member => ?_⟩, (Beside.refl id s).partitions⟩
      rw [List.mem_singleton.mp member]
      exact (Option.some_ne_none id).symm
    · exact Beside.refl id s

theorem rescannedBefore_beside (surroundings : Surroundings) (id : Nat) (s : Registries) :
    Beside id s (rescannedBefore surroundings s id) :=
  (registerDevices_beside id surroundings.found s).trans
    (rescanDevices_beside _ (by simp) _)

end Others

/-! ### The scan of the disk -/

/-- Every device of a disk is the device of one of its partitions. -/
def Owned (id : Nat) (s : Registries) : Prop :=
  ∀ index window, s.devices[index]? = some window → window.parent = some id →
    ∃ info ∈ registered id s, info.device = index

/-- The partitions of a disk, and nothing else of it, have got entries. -/
structure Adds (id : Nat) (entries : List TableEntry) (s s' : Registries) : Prop where
  entries : (registered id s').map PartitionInfo.entry = (registered id s).map PartitionInfo.entry ++ entries
  owned : Owned id s → Owned id s'

section Scan

variable {device : Device} {id : Nat} {s : Registries}

theorem Adds.nil (id : Nat) (s : Registries) : Adds id [] s s :=
  ⟨(List.append_nil _).symm, fun owned => owned⟩

/-- Room for some more entries in both registries. -/
structure Room (s : Registries) (count : Nat) : Prop where
  devices : s.devices.length + count ≤ BLOCK_DEVICE_MAX_COUNT
  partitions : s.partitions.length + count ≤ BLOCK_DEVICE_MAX_COUNT

theorem blockDeviceRegister_accepts (layer : BlockLayer) (description : Device)
    (valid : descriptionValid description = true)
    (room : layer.devices.length < BLOCK_DEVICE_MAX_COUNT) :
    ∃ added, blockDeviceRegister layer description =
      ({ layer with devices := layer.devices ++ [added] }, some layer.devices.length) ∧
      added.parent = description.parent := by
  unfold blockDeviceRegister
  rw [if_pos (Bool.and_eq_true_iff.mpr ⟨valid, decide_eq_true room⟩)]
  exact ⟨_, rfl, rfl⟩

theorem registerPartition_succeeds {startLba blockCount : Nat} (name : CString)
    (here : s.devices[id]? = some device) (valid : descriptionValid device = true)
    (room : s.devices.length < BLOCK_DEVICE_MAX_COUNT)
    (placed : extentRefused device.blockCount startLba blockCount = false) :
    ∃ window, registerPartition s.devices id startLba blockCount name =
      some (s.devices ++ [window]) ∧ window.parent = some id := by
  obtain ⟨nonempty, -, inside⟩ := extentRefused_eq_false.mp placed
  have fits : ¬(blockCount = 0 ∨ (device.blockCount ≠ 0 ∧
      (startLba ≥ device.blockCount ∨ blockCount > device.blockCount - startLba))) := by
    intro refused
    rcases refused with empty | ⟨known, outside⟩
    · omega
    · have := inside known
      omega
  unfold registerPartition blockDeviceRegisterPartition
  dsimp only
  rw [here]
  dsimp only
  rw [if_neg fits]
  -- the description takes the block sizes over, and nothing else of it is checked
  obtain ⟨window, registers, parent⟩ := blockDeviceRegister_accepts
    { blockDeviceInitialize (fun _ _ _ => 0) with devices := s.devices }
    ⟨0, copyName name, device.logicalBlockSize, device.physicalBlockSize, blockCount,
      device.flags ||| 0 ||| BLOCK_DEVICE_FLAG_PARTITION, device.target, device.lun, startLba,
      some id, .partition⟩ valid room
  rw [registers]
  exact ⟨window, rfl, parent⟩

theorem recordPartition_succeeds {candidate : Candidate} (here : s.devices[id]? = some device)
    (valid : descriptionValid device = true) (room : Room s 1)
    (placed : extentRefused device.blockCount candidate.startLba candidate.blockCount = false)
    (clear : ∀ existing ∈ registered id s, overlap candidate.startLba candidate.blockCount
      existing.startLba existing.blockCount = false) :
    ∃ window, window.parent = some id ∧ recordPartition id device candidate s =
    some ⟨s.devices ++ [window],
        s.partitions ++ [partitionInfo s.devices.length id candidate]⟩ := by
  obtain ⟨window, registers, parent⟩ := registerPartition_succeeds
    (makePartitionName device candidate.number) here valid room.devices placed
  have hasRoom : ¬(s.partitions.length ≥ BLOCK_DEVICE_MAX_COUNT ∨
      extentRefused device.blockCount candidate.startLba candidate.blockCount = true) := by
    rw [placed]
    have := room.partitions
    simp only [Bool.false_eq_true, or_false]
    omega
  have apart : ¬(s.partitions.any fun existing => existing.parent == id &&
      overlap candidate.startLba candidate.blockCount existing.startLba existing.blockCount) =
      true := by
    simp only [List.any_eq_true, Bool.and_eq_true, not_exists, not_and, Bool.not_eq_true]
    intro existing member same
    exact clear existing (List.mem_filter.mpr ⟨member, same⟩)
  refine ⟨window, parent, ?_⟩
  unfold recordPartition
  rw [if_neg hasRoom, if_neg apart, registers]

theorem record_adds (id : Nat) (s : Registries) (window : Device) (candidate : Candidate) :
    registered id ⟨s.devices ++ [window], s.partitions ++ [partitionInfo s.devices.length id candidate]⟩ =
      registered id s ++ [partitionInfo s.devices.length id candidate] ∧
    (Owned id s → Owned id ⟨s.devices ++ [window],
        s.partitions ++ [partitionInfo s.devices.length id candidate]⟩) := by
  have grown : registered id ⟨s.devices ++ [window],
        s.partitions ++ [partitionInfo s.devices.length id candidate]⟩ =
      registered id s ++ [partitionInfo s.devices.length id candidate] := by
    unfold registered
    rw [List.filter_append]
    congr 1
    simp [partitionInfo]
  refine ⟨grown, fun owned index found here parent => ?_⟩
  rw [grown]
  rcases Nat.lt_or_ge index s.devices.length with before | behind
  · rw [List.getElem?_append_left before] at here
    obtain ⟨info, member, same⟩ := owned index found here parent
    exact ⟨info, List.mem_append_left _ member, same⟩
  · -- the only device behind the others is the new one
    have last := (List.getElem?_eq_some_iff.mp here).1
    rw [List.length_append, List.length_singleton] at last
    refine ⟨_, List.mem_append_right _ (List.mem_singleton_self _), ?_⟩
    change s.devices.length = index
    omega

theorem recordAll_adds (valid : descriptionValid device = true) :
    ∀ (candidates : List Candidate) (s : Registries), s.devices[id]? = some device →
      Room s candidates.length → Recordable device.blockCount candidates →
      (∀ candidate ∈ candidates, ∀ existing ∈ registered id s,
        overlap candidate.startLba candidate.blockCount existing.startLba existing.blockCount = false) →
      ∃ s', recordAll id device candidates s = (true, s') ∧
        Adds id (candidates.map Candidate.entry) s s' := by
  intro candidates
  induction candidates with
  | nil => exact fun s _ _ _ _ => ⟨s, rfl, Adds.nil id s⟩
  | cons candidate rest ih =>
    intro s here room recordable clear
    have devices := room.devices
    have partitions := room.partitions
    rw [List.length_cons] at devices partitions
    have apart := List.pairwise_cons.mp recordable.apart
    obtain ⟨window, parent, first⟩ := recordPartition_succeeds here valid
      ⟨by omega, by omega⟩ (recordable.placed candidate List.mem_cons_self)
      (clear candidate List.mem_cons_self)
    obtain ⟨grown, owned⟩ := record_adds id s window candidate
    obtain ⟨s', all, adds⟩ := ih
      ⟨s.devices ++ [window], s.partitions ++ [partitionInfo s.devices.length id candidate]⟩
      (by rw [List.getElem?_append_left (List.getElem?_eq_some_iff.mp here).1]; exact here)
      ⟨by simp only [List.length_append, List.length_singleton]; omega,
        by simp only [List.length_append, List.length_singleton]; omega⟩
      ⟨fun other member => recordable.placed other (List.mem_cons_of_mem _ member), apart.2⟩
      (by
        intro other member existing among
        rw [grown] at among
        rcases List.mem_append.mp among with old | new
        · exact clear other (List.mem_cons_of_mem _ member) existing old
        · rw [List.mem_singleton.mp new]
          exact apart.1 other member)
    refine ⟨s', by rw [recordAll, first]; exact all, ?_, fun before => adds.owned (owned before)⟩
    rw [adds.entries, grown, List.map_append, List.append_assoc]
    rfl

end Scan

/-- What the scan needs to find on a disk: a signed first block and either an MBR with
primary partitions only, or a GPT whose primary copy the scan can take over whole. A GPT
without entries sends the scan to the last block, where it must not find any either. -/
structure Scannable (device : Device) (medium : Nat → List UInt8) : Prop where
  signature : bootSignature (medium 0) = true
  mbr : protective (medium 0) = false → mbrTableValid (medium 0) device.blockCount [0, 1, 2, 3] [] = true
  gpt : protective (medium 0) = true → ∃ table, ScannableCopy device medium 1 table ∧
    (gptEntries (gptHeader (medium 1)) table = [] → device.blockCount < 2 ∨
      gptHeaderValid device (device.blockCount - 1) (medium (device.blockCount - 1)) = false ∨
      ∃ table', ScannableCopy device medium (device.blockCount - 1) table' ∧
        gptEntries (gptHeader (medium (device.blockCount - 1))) table' = [])

def scannedSector (answer : (op : DeviceOp) → op.Response) (disk : Device) : Option (List UInt8) :=
  if disk.parent ≠ none ∨ disk.logicalBlockSize < 512 ∨
      disk.logicalBlockSize > PARTITION_MAX_BLOCK_SIZE then none
  else (answer (.read 0 1)).filter bootSignature

theorem partitionScanDevice_eval {answer : (op : DeviceOp) → op.Response} {parent : Nat}
    {disk : Device} {s : Registries} (here : s.devices[parent]? = some disk) :
    eval answer (partitionScanDevice parent s) = match scannedSector answer disk with
      | none => (0, s)
      | some sector =>
        if protective sector then eval answer (scanGpt parent disk s)
        else recordTable parent disk (eval answer (mbrTable disk sector).run) s := by
  unfold partitionScanDevice scannedSector
  rw [here]
  dsimp only
  split_ifs with unfit
  · rfl
  · rw [eval_bind]
    have read : eval answer (deviceRead 0 1).run = answer (.read 0 1) := rfl
    rw [read]
    cases answer (.read 0 1) with
    | none => rfl
    | some sector =>
      rw [Option.filter_some]
      cases signed : bootSignature sector with
      | false => simp [signed]
      | true =>
        simp only [signed, Bool.not_true, Bool.false_eq_true, if_false, if_true]
        change eval answer (if protective sector = true then _ else _) = _
        split_ifs with behind
        · rfl
        · rw [eval_bind]
          rfl

section ScanDisk

variable {device : Device} {medium : Nat → List UInt8} {id : Nat} {s : Registries}

theorem scan_sizes (valid : descriptionValid device = true) : ¬(device.logicalBlockSize < 512 ∨
      device.logicalBlockSize > PARTITION_MAX_BLOCK_SIZE) := by
  simp only [descriptionValid, Bool.and_eq_true, Bool.not_eq_true', decide_eq_false_iff_not] at valid
  unfold PARTITION_MAX_BLOCK_SIZE
  omega

theorem recordTable_adds {candidates : List Candidate} (valid : descriptionValid device = true)
    (here : s.devices[id]? = some device) (free : registered id s = [])
    (room : Room s candidates.length) (recordable : Recordable device.blockCount candidates) :
    ∃ s', recordTable id device (some candidates) s = (candidates.length, s') ∧
      Adds id (candidates.map Candidate.entry) s s' := by
  obtain ⟨s', all, adds⟩ := recordAll_adds valid candidates s here room recordable (by
    intro candidate _ existing among
    rw [free] at among
    cases among)
  refine ⟨s', ?_, adds⟩
  simp only [recordTable, all]

theorem scanGpt_adds (valid : descriptionValid device = true)
    (sized : ∀ lba, (medium lba).length = device.logicalBlockSize)
    (here : s.devices[id]? = some device) (free : registered id s = [])
    {table : List UInt8} (copy : ScannableCopy device medium 1 table)
    (room : Room s (gptEntries (gptHeader (medium 1)) table).length)
    (empty : gptEntries (gptHeader (medium 1)) table = [] → device.blockCount < 2 ∨
      gptHeaderValid device (device.blockCount - 1) (medium (device.blockCount - 1)) = false ∨
      ∃ table', ScannableCopy device medium (device.blockCount - 1) table' ∧
        gptEntries (gptHeader (medium (device.blockCount - 1))) table' = []) :
    Adds id (gptEntries (gptHeader (medium 1)) table) s
      (eval (mediumAnswer device medium) (scanGpt id device s)).2 := by
  obtain ⟨candidates, found, entries, recordable⟩ :=
    gptTableAt_reads (scan_sizes valid) sized copy
  rw [← entries, List.length_map] at room
  obtain ⟨s', recorded, adds⟩ := recordTable_adds valid here free room recordable
  rw [entries] at adds
  unfold scanGpt
  rw [eval_bind, found]
  dsimp only
  rw [recorded]
  split
  · exact adds
  · rename_i again
    -- no candidate was recorded, so the backup is read
    simp only [not_or, not_not, Nat.not_lt] at again
    have none_found : candidates = [] := List.eq_nil_of_length_eq_zero again.1
    subst none_found
    rw [List.map_nil] at entries
    have unchanged : s' = s := by
      have := congrArg Prod.snd recorded
      exact this.symm
    rw [← entries, unchanged, eval_bind]
    rcases empty entries.symm with small | invalid | ⟨table', copy', empty'⟩
    · omega
    · have nothing : eval (mediumAnswer device medium)
          (gptTableAt device (device.blockCount - 1)).run = none := by
        unfold gptTableAt readGptHeader
        rw [eval_fallible_bind, eval_fallible_bind, eval_guard]
        have read : eval (mediumAnswer device medium) (deviceRead (device.blockCount - 1) 1).run =
          some (medium (device.blockCount - 1)) := mediumAnswer_block fun known => by omega
        rw [if_pos (scan_sizes valid), Option.bind_some, eval_fallible_bind, read,
          Option.bind_some, eval_fallible_bind, eval_guard, if_neg (by rw [invalid]; decide)]
        rfl
      rw [nothing]
      exact Adds.nil id s
    · obtain ⟨candidates', found', entries', -⟩ :=
        gptTableAt_reads (scan_sizes valid) sized copy'
      rw [empty', List.map_eq_nil_iff] at entries'
      rw [found', entries']
      exact Adds.nil id s

theorem scannedSector_medium (valid : descriptionValid device = true) (root : device.parent = none)
    (signature : bootSignature (medium 0) = true) :
    scannedSector (mediumAnswer device medium) device = some (medium 0) := by
  have fits : ¬(device.parent ≠ none ∨ device.logicalBlockSize < 512 ∨
      device.logicalBlockSize > PARTITION_MAX_BLOCK_SIZE) :=
    fun unfit => unfit.elim (fun child => child root) (scan_sizes valid)
  have answered : mediumAnswer device medium (.read 0 1) = some (medium 0) :=
    mediumAnswer_block fun known => Nat.pos_of_ne_zero known
  rw [scannedSector, if_neg fits, answered, Option.filter_some, signature, if_pos rfl]

theorem partitionScanDevice_adds (valid : descriptionValid device = true)
    (root : device.parent = none) (sized : ∀ lba, (medium lba).length = device.logicalBlockSize)
    (here : s.devices[id]? = some device) (free : registered id s = [])
    (scannable : Scannable device medium) (room : Room s (tableOn device medium).length) :
    Adds id (tableOn device medium) s (eval (mediumAnswer device medium) (partitionScanDevice id s)).2 := by
  have signature := scannable.signature
  rw [partitionScanDevice_eval here, scannedSector_medium valid root signature]
  unfold tableOn at room ⊢
  simp only [signature, Bool.not_true, Bool.false_eq_true, if_false] at room ⊢
  cases behind : protective (medium 0) with
  | true =>
    obtain ⟨table, copy, empty⟩ := scannable.gpt behind
    simp only [behind, if_true, copy.valid] at room ⊢
    exact scanGpt_adds valid sized here free copy room empty
  | false =>
    simp only [behind, Bool.false_eq_true, if_false] at room ⊢
    obtain ⟨found, recordable⟩ := @mbrTable_reads device (medium 0)
      (mediumAnswer device medium) (scannable.mbr behind)
    have entries := primaries_entries (medium 0)
    rw [← entries, List.length_map] at room
    obtain ⟨s', recorded, adds⟩ := recordTable_adds valid here free room recordable
    rw [found, recorded, ← entries]
    exact adds

end ScanDisk

/-! ### Runs -/

/-- The loop of the rescan does not scan the disk. -/
def PassedOver (device : Device) (id : Nat) (surroundings : Surroundings) (s : Registries) : Prop :=
  surroundings.bootFallback = true ∨ device.hasFlag BLOCK_DEVICE_FLAG_OPTICAL = true ∨
    blockDeviceHasPartitions s id = true

/-- When the rescan after a change brings the registry in line with the table: it scans the
disk, can read its table and has room for it, or it passes the disk over and the change has
left the entries of the table as they were registered. -/
structure Followed (device : Device) (id : Nat) (s : System device.logicalBlockSize)
    (change : Change) : Prop where
  succeeded : (change.operate device s.disk).1 = some ()
  shown : bootSignature ((change.operate device s.disk).2.medium 0) = true ∧ (change.operation.onGpt = true →
      protective ((change.operate device s.disk).2.medium 0) = true)
  rescanned :
    (PassedOver device id change.surroundings s.registries ∧ Agrees device id s.disk.medium s.registries ∧
      tableOn device (change.operate device s.disk).2.medium = tableOn device s.disk.medium) ∨
    (¬PassedOver device id change.surroundings s.registries ∧ change.surroundings.answers id =
        mediumAnswer device (change.operate device s.disk).2.medium ∧
      Scannable device (change.operate device s.disk).2.medium ∧
      Room (rescannedBefore change.surroundings s.registries id)
        (tableOn device (change.operate device s.disk).2.medium).length)

section Changes

variable {device : Device} {id : Nat}

variable {s : Registries}

theorem rescanDevice_safe {answers : Nat → (op : DeviceOp) → op.Response}
    (safe : Safe s) (index : Nat) : Safe (rescanDevice answers s index) := by
  unfold rescanDevice
  split
  · exact safe
  · split
    · exact (partitionScanDevice_safe index safe).eval
    · exact safe

theorem registerDevices_more (found : List Device) :
    ∀ devices : List Device, ∃ more, registerDevices found devices = devices ++ more := by
  induction found with
  | nil => exact fun devices => ⟨[], (List.append_nil _).symm⟩
  | cons description rest ih =>
    intro devices
    obtain ⟨more, all⟩ := ih (blockDeviceRegister
      { blockDeviceInitialize (fun _ _ _ => 0) with devices := devices }
      { description with parent := none }).1.devices
    unfold registerDevices at all ⊢
    rw [List.foldl_cons, all]
    unfold blockDeviceRegister
    split
    · exact ⟨_, List.append_assoc _ _ _⟩
    · exact ⟨more, rfl⟩

theorem rescannedBefore_safe (surroundings : Surroundings) {s : Registries} (safe : Safe s)
    (index : Nat) : Safe (rescannedBefore surroundings s index) := by
  obtain ⟨more, grown⟩ := registerDevices_more surroundings.found s.devices
  unfold rescannedBefore
  rw [grown]
  have each : ∀ (indices : List Nat) (s : Registries), Safe s →
      Safe (indices.foldl (rescanDevice surroundings.answers) s) := by
    intro indices
    induction indices with
    | nil => exact fun s safe => safe
    | cons index rest ih => exact fun s safe => ih _ (rescanDevice_safe safe index)
  exact each _ _ (safe.more more)

variable {surroundings : Surroundings}

theorem vfsRescanDevices_safe (safe : Safe s) : Safe (vfsRescanDevices surroundings s) := by
  unfold vfsRescanDevices
  split
  · exact safe
  · exact rescannedBefore_safe surroundings safe _

theorem vfsRescanDevices_split (below : id < BLOCK_DEVICE_MAX_COUNT)
    (scans : surroundings.bootFallback = false) :
    Beside id (rescanDevice surroundings.answers (rescannedBefore surroundings s id) id)
      (vfsRescanDevices surroundings s) := by
  obtain ⟨rest, count⟩ := Nat.exists_eq_add_of_lt below
  have order : List.range BLOCK_DEVICE_MAX_COUNT =
      List.range id ++ id :: (List.range rest).map (fun k => id + (k + 1)) := by
    rw [count, Nat.add_assoc, List.range_add, List.range_succ_eq_map, List.map_cons, List.map_map]
    rfl
  unfold vfsRescanDevices
  rw [scans, if_neg Bool.false_ne_true]
  unfold rescannedBefore
  rw [order, List.foldl_append, List.foldl_cons]
  apply rescanDevices_beside
  simp only [List.mem_map, not_exists, not_and]
  intro k _ same
  omega

theorem PassedOver.beside (passed : PassedOver device id surroundings s)
    (here : s.devices[id]? = some device) :
    Beside id s (vfsRescanDevices surroundings s) := by
  have upTo := rescannedBefore_beside surroundings id s
  by_cases scans : surroundings.bootFallback = true
  · unfold vfsRescanDevices
    rw [if_pos scans]
    exact Beside.refl id s
  · have skipped : rescanDevice surroundings.answers (rescannedBefore surroundings s id) id =
        rescannedBefore surroundings s id := by
      unfold rescanDevice
      rw [upTo.getElem?_eq here]
      dsimp only
      rw [if_neg]
      rintro ⟨-, readable, free⟩
      rw [upTo.hasPartitions_eq] at free
      rcases passed with fallback | optical | has
      · exact scans fallback
      · rw [optical] at readable
        cases readable
      · rw [has] at free
        cases free
    by_cases below : id < BLOCK_DEVICE_MAX_COUNT
    · have behind := vfsRescanDevices_split (s := s) below (Bool.not_eq_true _ ▸ scans)
      rw [skipped] at behind
      exact upTo.trans behind
    · -- the loop does not come to the disk
      unfold vfsRescanDevices
      rw [if_neg scans]
      refine (registerDevices_beside id surroundings.found s).trans (rescanDevices_beside _ ?_ _)
      rw [List.mem_range]
      exact below

theorem registered_nil (safe : Safe s)
    (free : blockDeviceHasPartitions s id = false) : registered id s = [] := by
  unfold registered
  rw [List.filter_eq_nil_iff]
  intro info member same
  obtain ⟨window, there, parent, -⟩ := (safe.recorded info member).window
  unfold blockDeviceHasPartitions at free
  rw [List.any_eq_false] at free
  refine free window (List.mem_of_getElem? there) ?_
  rw [parent, beq_iff_eq.mp same]
  exact beq_self_eq_true _

theorem owned_of_free (free : blockDeviceHasPartitions s id = false) : Owned id s := by
  intro index window here parent
  unfold blockDeviceHasPartitions at free
  rw [List.any_eq_false] at free
  refine (free window (List.mem_of_getElem? here) ?_).elim
  rw [parent]
  exact beq_self_eq_true _

theorem agrees_of_adds {medium : Nat → List UInt8} {s s' : Registries} (safe : Safe s')
    (free : registered id s = []) (owned : Owned id s)
    (adds : Adds id (tableOn device medium) s s') : Agrees device id medium s' := by
  constructor
  · rw [adds.entries, free]
    rfl
  · intro info member
    obtain ⟨among, same⟩ := List.mem_filter.mp member
    obtain ⟨window, there, parent, start, count⟩ := (safe.recorded info among).window
    exact ⟨window, there, by rw [parent, beq_iff_eq.mp same], start, count⟩
  · exact adds.owned owned

/-- What the steps of a run preserve. -/
structure Stays (device : Device) (id : Nat) (s : System device.logicalBlockSize) : Prop where
  here : s.registries.devices[id]? = some device
  safe : Safe s.registries
  whole : s.disk.WholeBlocks

theorem change_agrees (valid : descriptionValid device = true) (root : device.parent = none)
    {s : System device.logicalBlockSize} (stays : Stays device id s) {change : Change}
    (followed : Followed device id s change) :
    Stays device id (change.apply device s) ∧
      Agrees device id (change.apply device s).disk.medium (change.apply device s).registries := by
  have safe : Safe (change.apply device s).registries := vfsRescanDevices_safe stays.safe
  have whole : (change.apply device s).disk.WholeBlocks :=
    run_preserves (Disk.handle_wholeBlocks device) _ _ stays.whole
  have upTo := rescannedBefore_beside change.surroundings id s.registries
  rcases followed.rescanned with ⟨passed, before, same⟩ | ⟨scans, answers, scannable, room⟩
  · -- the registry and the table are what they were
    have beside := passed.beside stays.here
    refine ⟨⟨beside.getElem?_eq stays.here, safe, whole⟩, ?_⟩
    have kept := beside.agrees before
    constructor
    · exact kept.entries.trans same.symm
    · exact kept.windows
    · exact kept.owned
  · -- nothing of the disk is registered, and the scan finds the table
    unfold PassedOver at scans
    simp only [not_or, Bool.not_eq_true] at scans
    obtain ⟨noFallback, readable, free⟩ := scans
    have there := upTo.getElem?_eq stays.here
    have below : id < BLOCK_DEVICE_MAX_COUNT := by
      have := (List.getElem?_eq_some_iff.mp there).1
      have := room.devices
      omega
    rw [← upTo.hasPartitions_eq] at free
    have safe' := rescannedBefore_safe change.surroundings stays.safe id
    have none_registered := registered_nil safe' free
    have adds := partitionScanDevice_adds valid root (Disk.medium_sized whole) there
      none_registered scannable room
    have scanned : rescanDevice change.surroundings.answers
        (rescannedBefore change.surroundings s.registries id) id =
        (eval (mediumAnswer device (change.operate device s.disk).2.medium)
          (partitionScanDevice id (rescannedBefore change.surroundings s.registries id))).2 := by
      unfold rescanDevice
      rw [there]
      dsimp only
      rw [if_pos ⟨root, readable, free⟩, answers]
    have behind := vfsRescanDevices_split (s := s.registries) below noFallback
    rw [scanned] at behind
    have agrees := agrees_of_adds (partitionScanDevice_safe id safe').eval none_registered
      (owned_of_free free) adds
    -- the scan only adds devices
    have kept : Beside (id + 1) (rescannedBefore change.surroundings s.registries id)
        (eval (mediumAnswer device (change.operate device s.disk).2.medium)
          (partitionScanDevice id (rescannedBefore change.surroundings s.registries id))).2 :=
      (partitionScanDevice_beside (Nat.ne_of_lt (Nat.lt_succ_self id)) _).eval
    exact ⟨⟨behind.getElem?_eq (kept.getElem?_eq there), safe, whole⟩, behind.agrees agrees⟩

/-- As long as every rescan can follow the operation before it, the partitions registered
for the disk are the entries of its table after every operation and rescan of a run. -/
theorem rescan_agrees (valid : descriptionValid device = true) (root : device.parent = none)
    (start : Nat → List UInt8) (sized : ∀ lba, (start lba).length = device.logicalBlockSize)
    {registries : Registries} (scanned : Scanned registries)
    (here : registries.devices[id]? = some device) {change : Change}
    (first : Followed device id ⟨Disk.boot start sized [], registries⟩ change)
    {t : System device.logicalBlockSize}
    (run : Trace.Reaches (Change.apply device) (Followed device id)
      (change.apply device ⟨Disk.boot start sized [], registries⟩) t) :
    Agrees device id t.disk.medium t.registries := by
  have begin : Stays device id ⟨Disk.boot start sized [], registries⟩ :=
    ⟨here, scanned.safe, fun _ member => (List.not_mem_nil member).elim⟩
  have event : ∀ s change, (Stays device id s ∧ Agrees device id s.disk.medium s.registries) →
      Followed device id s change →
      Stays device id (change.apply device s) ∧
        Agrees device id (change.apply device s).disk.medium (change.apply device s).registries :=
    fun s change inv followed => change_agrees valid root inv.1 followed
  exact (run.preserves event (change_agrees valid root begin first)).2

end Changes

end Runs

/-! ### A disk with an empty MBR -/

def mbrStart (lba : Nat) : List UInt8 :=
  if lba = 0 then put (List.replicate 512 0) 510 [0x55, 0xAA] else List.replicate 512 0

theorem mbrStart_sized (lba : Nat) : (mbrStart lba).length = 512 := by
  unfold mbrStart
  split
  · decide +kernel
  · exact List.length_replicate

def mbrSystem : System exampleDevice.logicalBlockSize :=
  ⟨Disk.boot mbrStart mbrStart_sized [], ⟨[exampleDevice], []⟩⟩

/-- The operation on a disk that then answers with what it holds. -/
def quietChange (operation : TableOperation) (disk : Disk exampleDevice.logicalBlockSize) : Change where
  operation := operation
  mounted := false
  outcomes := []
  surroundings :=
    { bootFallback := false
      found := []
      answers := fun _ => mediumAnswer exampleDevice (run (Disk.handle exampleDevice)
        (operation.code exampleDevice false).run { disk with outcomes := [] }).2.medium }

def createFirst : Change := quietChange (.mbrCreate 0 0x83 8 8) mbrSystem.disk

def firstSystem : System exampleDevice.logicalBlockSize :=
  createFirst.apply exampleDevice mbrSystem

/-- The first partition is registered, and stays so when it is given the extent it has. -/
theorem rescan_agrees_example : Agrees exampleDevice 0
      ((quietChange (.mbrResize 0 8 8) firstSystem.disk).apply exampleDevice firstSystem).disk.medium
      ((quietChange (.mbrResize 0 8 8) firstSystem.disk).apply exampleDevice firstSystem).registries := by
  have first : Followed exampleDevice 0 mbrSystem createFirst := by
    constructor
    · decide +kernel
    · exact ⟨by decide +kernel, by decide +kernel⟩
    · refine Or.inr ⟨?_, rfl, ⟨by decide +kernel, ?_, ?_⟩, ⟨by decide +kernel, by decide +kernel⟩⟩
      · rintro (fallback | optical | has)
        · exact absurd fallback (by decide +kernel)
        · exact absurd optical (by decide +kernel)
        · exact absurd has (by decide +kernel)
      · intro _
        decide +kernel
      · intro behind
        exact absurd behind (by decide +kernel)
  have second : Followed exampleDevice 0 firstSystem
      (quietChange (.mbrResize 0 8 8) firstSystem.disk) := by
    constructor
    · decide +kernel
    · exact ⟨by decide +kernel, by decide +kernel⟩
    · refine Or.inl ⟨Or.inr (Or.inr (by decide +kernel)), ?_, by decide +kernel⟩
      exact rescan_agrees (by decide +kernel) rfl mbrStart mbrStart_sized (.start [exampleDevice])
        rfl first (.refl _)
  exact rescan_agrees (by decide +kernel) rfl mbrStart mbrStart_sized (.start [exampleDevice]) rfl
    first (Trace.Reaches.one second)

/-- A second partition is created and the disk is rescanned, but only the first one is
registered. -/
theorem second_partition_not_registered : (createFirst.operate exampleDevice mbrSystem.disk).1 =
    some () ∧
    ((quietChange (.mbrCreate 1 0x83 16 8) firstSystem.disk).operate exampleDevice
      firstSystem.disk).1 = some () ∧
    ¬Agrees exampleDevice 0 ((quietChange (.mbrCreate 1 0x83 16 8) firstSystem.disk).apply exampleDevice
        firstSystem).disk.medium
      ((quietChange (.mbrCreate 1 0x83 16 8) firstSystem.disk).apply exampleDevice
        firstSystem).registries := by
  refine ⟨by decide +kernel, by decide +kernel, fun agrees => ?_⟩
  exact absurd agrees.entries (by decide +kernel)

end AsasOs.Partition
