import AsasOs.Partition.Scan

/-!
# Safety of the partition scan

Whatever a disk answers, the scan of it ends after a bounded number of reads, and the
partitions in the registry are not empty, do not start with the disk, lie inside it and lie
apart. The readers only have to see to it that the extents they hand over do not wrap; the
rest is checked when a partition is recorded.
-/
namespace AsasOs.Partition

open Block Bytes Prog

/-! ### The registry -/

/-- A partition of the registry, on its disk and with its window onto the disk. -/
structure Recorded (devices : List Device) (info : PartitionInfo) : Prop where
  start : 0 < info.startLba
  nonempty : 0 < info.blockCount
  whole : info.startLba + info.blockCount ≤ 2 ^ 64
  inside : ∃ disk, devices[info.parent]? = some disk ∧
    (disk.blockCount ≠ 0 → info.startLba + info.blockCount ≤ disk.blockCount)
  window : ∃ device, devices[info.device]? = some device ∧ device.parent = some info.parent ∧
    device.startLba = info.startLba ∧ device.blockCount = info.blockCount

def BlocksApart (info other : PartitionInfo) : Prop :=
  info.parent = other.parent → info.startLba + info.blockCount ≤ other.startLba ∨
    other.startLba + other.blockCount ≤ info.startLba

structure Safe (s : Registries) : Prop where
  recorded : ∀ info ∈ s.partitions, Recorded s.devices info
  apart : s.partitions.Pairwise BlocksApart

theorem Recorded.more {devices : List Device} {info : PartitionInfo}
    (recorded : Recorded devices info) (more : List Device) : Recorded (devices ++ more) info := by
  obtain ⟨disk, here, inside⟩ := recorded.inside
  obtain ⟨device, there, window⟩ := recorded.window
  refine ⟨recorded.start, recorded.nonempty, recorded.whole, ⟨disk, ?_, inside⟩, ⟨device, ?_, window⟩⟩
  · rw [List.getElem?_append_left (List.getElem?_eq_some_iff.mp here).1]
    exact here
  · rw [List.getElem?_append_left (List.getElem?_eq_some_iff.mp there).1]
    exact there

variable {s : Registries}

theorem Safe.more (safe : Safe s) (more : List Device) : Safe { s with devices := s.devices ++ more } :=
  ⟨fun info member => (safe.recorded info member).more more, safe.apart⟩

theorem lastBlock_eq {startLba blockCount : Nat} (nonempty : 0 < blockCount)
    (whole : startLba + blockCount ≤ 2 ^ 64) :
    lastBlock startLba blockCount = startLba + blockCount - 1 := by
  unfold lastBlock
  omega

theorem overlap_eq_false {startLba blockCount otherStart otherCount : Nat}
    (nonempty : 0 < blockCount) (whole : startLba + blockCount ≤ 2 ^ 64)
    (otherNonempty : 0 < otherCount) (otherWhole : otherStart + otherCount ≤ 2 ^ 64) :
    overlap startLba blockCount otherStart otherCount = false ↔
      startLba + blockCount ≤ otherStart ∨ otherStart + otherCount ≤ startLba := by
  unfold overlap
  rw [lastBlock_eq nonempty whole, lastBlock_eq otherNonempty otherWhole]
  simp only [Bool.and_eq_false_iff, decide_eq_false_iff_not]
  omega

theorem extentRefused_eq_false {deviceBlocks startLba blockCount : Nat} :
    extentRefused deviceBlocks startLba blockCount = false ↔ 0 < blockCount ∧ 0 < startLba ∧
        (deviceBlocks ≠ 0 → startLba + blockCount ≤ deviceBlocks) := by
  unfold extentRefused
  simp only [Bool.or_eq_false_iff, Bool.and_eq_false_iff, beq_eq_false_iff_ne, bne_eq_false_iff_eq,
    decide_eq_false_iff_not]
  omega

theorem registerPartition_cases {devices devices' : List Device} {parent startLba blockCount : Nat}
    {name : CString} (registered : registerPartition devices parent startLba blockCount name =
      some devices') :
    ∃ device, devices' = devices ++ [device] ∧ device.parent = some parent ∧
      device.startLba = startLba ∧ device.blockCount = blockCount ∧
      device.name = copyName (copyName name) := by
  unfold registerPartition blockDeviceRegisterPartition blockDeviceRegister at registered
  dsimp only at registered
  cases here : devices[parent]? with
  | none =>
    rw [here] at registered
    cases registered
  | some p =>
    rw [here] at registered
    dsimp only at registered
    split_ifs at registered
    all_goals
      cases registered
      try exact ⟨_, rfl, rfl, rfl, rfl, rfl⟩

variable {disk : Device} {parent : Nat}

theorem recordPartition_cases {candidate : Candidate} {s s' : Registries}
    (recorded : recordPartition parent disk candidate s = some s') :
    s.partitions.length < BLOCK_DEVICE_MAX_COUNT ∧
    extentRefused disk.blockCount candidate.startLba candidate.blockCount = false ∧
    (∀ existing ∈ s.partitions, existing.parent = parent →
      overlap candidate.startLba candidate.blockCount existing.startLba existing.blockCount = false) ∧
    ∃ device, device.parent = some parent ∧ device.startLba = candidate.startLba ∧
      device.blockCount = candidate.blockCount ∧
      s' = ⟨s.devices ++ [device], s.partitions ++ [partitionInfo s.devices.length parent candidate]⟩ := by
  unfold recordPartition at recorded
  split at recorded
  · cases recorded
  · rename_i room
    split at recorded
    · cases recorded
    · rename_i clear
      split at recorded
      · cases recorded
      · rename_i devices registered
        cases recorded
        obtain ⟨device, rfl, parent', start, count, -⟩ := registerPartition_cases registered
        simp only [not_or, ge_iff_le, not_le, Bool.not_eq_true] at room
        refine ⟨room.1, room.2, ?_, device, parent', start, count, rfl⟩
        intro existing member same
        simp only [List.any_eq_true, Bool.and_eq_true, beq_iff_eq, not_exists, not_and,
          Bool.not_eq_true] at clear
        exact clear existing member same

theorem recordPartition_safe {candidate : Candidate} {s s' : Registries}
    (here : s.devices[parent]? = some disk)
    (whole : candidate.startLba + candidate.blockCount ≤ 2 ^ 64) (safe : Safe s)
    (recorded : recordPartition parent disk candidate s = some s') :
    Safe s' ∧ s'.devices[parent]? = some disk := by
  obtain ⟨_, placed, clear, device, parent', start, count, rfl⟩ := recordPartition_cases recorded
  obtain ⟨nonempty, positive, inside⟩ := extentRefused_eq_false.mp placed
  have kept : (s.devices ++ [device])[parent]? = some disk := by
    rw [List.getElem?_append_left (List.getElem?_eq_some_iff.mp here).1]
    exact here
  refine ⟨⟨?_, ?_⟩, kept⟩
  · intro info member
    rcases List.mem_append.mp member with old | new
    · exact (safe.recorded info old).more [device]
    · rw [List.mem_singleton.mp new]
      refine ⟨positive, nonempty, whole, ⟨disk, kept, inside⟩, ⟨device, ?_, parent', start, count⟩⟩
      exact List.getElem?_concat_length
  · -- the new partition has been compared with every other of the disk
    refine List.pairwise_append.mpr ⟨safe.apart, List.pairwise_singleton _ _, ?_⟩
    intro existing member info new same
    rw [List.mem_singleton.mp new] at same ⊢
    have old := safe.recorded existing member
    have disjoint := (overlap_eq_false nonempty whole old.nonempty old.whole).mp
      (clear existing member same)
    exact disjoint.symm

theorem recordAll_safe : ∀ (candidates : List Candidate)
    (s : Registries), s.devices[parent]? = some disk →
      (∀ candidate ∈ candidates, candidate.startLba + candidate.blockCount ≤ 2 ^ 64) → Safe s →
      Safe (recordAll parent disk candidates s).2 ∧
        (recordAll parent disk candidates s).2.devices[parent]? = some disk := by
  intro candidates
  induction candidates with
  | nil => exact fun s here _ safe => ⟨safe, here⟩
  | cons candidate rest ih =>
    intro s here whole safe
    rw [recordAll]
    split
    · exact ⟨safe, here⟩
    · rename_i s' recorded
      obtain ⟨safe', here'⟩ :=
        recordPartition_safe here (whole candidate List.mem_cons_self) safe recorded
      exact ih s' here' (fun other member => whole other (List.mem_cons_of_mem _ member)) safe'

/-- Candidates whose extents do not wrap. -/
def Whole (candidates : List Candidate) : Prop :=
  ∀ candidate ∈ candidates, candidate.startLba + candidate.blockCount ≤ 2 ^ 64

theorem Whole.add {candidates : List Candidate} (whole : Whole candidates) {candidate : Candidate}
    (this : candidate.startLba + candidate.blockCount ≤ 2 ^ 64) :
    Whole (candidates ++ [candidate]) := by
  intro other member
  rcases List.mem_append.mp member with old | new
  · exact whole other old
  · rw [List.mem_singleton.mp new]
    exact this

theorem recordTable_safe {found : Option (List Candidate)} (here : s.devices[parent]? = some disk)
    (whole : ∀ candidates, found = some candidates → Whole candidates) (safe : Safe s) :
    Safe (recordTable parent disk found s).2 ∧
      (recordTable parent disk found s).2.devices[parent]? = some disk := by
  unfold recordTable
  cases found with
  | none => exact ⟨safe, here⟩
  | some candidates =>
    have all := recordAll_safe candidates s here (whole candidates rfl) safe
    dsimp only
    split
    · rename_i s' done
      rw [done] at all
      exact all
    · rename_i s' stopped
      rw [stopped] at all
      exact all

/-! ### What the readers hand over -/

theorem getLE_bound (bytes : List UInt8) (offset width : Nat) :
    getLE bytes offset width < 256 ^ width := by
  have digits := value_lt (slice bytes offset width)
  have short : (slice bytes offset width).length ≤ width := List.length_take_le _ _
  exact lt_of_lt_of_le digits (Nat.pow_le_pow_right (by decide) short)

theorem gptCandidates_whole (disk : Device) (header : GptHeader) :
    ∀ (left index currentSector : Nat) (entrySector : List UInt8) (crc : UInt32)
      (candidates : List Candidate), Whole candidates →
      Yields (fun result => Whole result.2)
        (gptCandidates disk header left index currentSector entrySector crc candidates) := by
  intro left
  induction left with
  | zero => exact fun _ _ _ _ _ whole => yields_pure whole
  | succ left ih =>
    intro index currentSector entrySector crc candidates whole
    rw [gptCandidates]
    refine yields_bind fun entrySector => ?_
    refine yields_guard fun _ => ?_
    dsimp only
    split
    · exact ih _ _ _ _ _ whole
    · refine yields_guard fun inOrder => yields_guard fun _ => ih _ _ _ _ _ (whole.add ?_)
      have last := getLE_bound entrySector
        (index * header.entrySize % disk.logicalBlockSize + 40) 8
      dsimp only [gptEntry] at inOrder ⊢
      omega

theorem gptTableAt_whole (disk : Device) (headerLba : Nat) :
    Yields Whole (gptTableAt disk headerLba) := by
  rw [gptTableAt]
  refine yields_bind fun sector => ?_
  refine yields_bind_of (gptCandidates_whole disk _ _ _ _ _ _ _ ?_) fun result whole => ?_
  · intro candidate member
    cases member
  · exact yields_guard fun _ => yields_pure whole

theorem mbrCandidateAdd_whole {candidates candidates' : List Candidate}
    {number type startLba blockCount deviceBlocks : Nat} (whole : Whole candidates)
    (this : startLba + blockCount ≤ 2 ^ 64)
    (added : mbrCandidateAdd candidates number type startLba blockCount deviceBlocks =
      some candidates') : Whole candidates' := by
  unfold mbrCandidateAdd at added
  split_ifs at added
  cases added
  exact whole.add this

theorem mbrPrimaries_whole (disk : Device) (sector : List UInt8) :
    ∀ (indices : List Nat) (candidates : List Candidate) (extended : Nat × Nat)
      (result : List Candidate × Nat × Nat), Whole candidates →
      mbrPrimaries disk sector indices candidates extended = some result → Whole result.1 := by
  intro indices
  induction indices with
  | nil =>
    intro candidates extended result whole found
    cases found
    exact whole
  | cons index rest ih =>
    intro candidates extended result whole found
    rw [mbrPrimaries] at found
    split_ifs at found
    · exact ih _ _ _ whole found
    · exact ih _ _ _ whole found
    · split at found
      · cases found
      · rename_i candidates' added
        have first := getLE_bound sector (446 + 16 * index + 8) 4
        have count := getLE_bound sector (446 + 16 * index + 12) 4
        refine ih _ _ _ (mbrCandidateAdd_whole whole ?_ added) found
        dsimp only [mbrEntry]
        omega

theorem mbrLogicals_whole (disk : Device) {base last : Nat} (bounded : last < 2 ^ 64) :
    ∀ (left ebrLba number : Nat) (visited : List Nat) (candidates : List Candidate), Whole candidates →
      Yields Whole (mbrLogicals disk base last left ebrLba number visited candidates) := by
  intro left
  induction left with
  | zero =>
    intro ebrLba number visited candidates whole
    rw [mbrLogicals]
    split
    · exact yields_pure whole
    · exact yields_failure
  | succ left ih =>
    intro ebrLba number visited candidates whole
    rw [mbrLogicals]
    split
    · exact yields_pure whole
    · refine yields_guard fun _ => yields_bind fun sector => yields_guard fun _ =>
        yields_guard fun _ => yields_guard fun _ => yields_guard fun inside =>
        yields_ofOption fun candidates' added => ?_
      -- the logical partition ends inside the extended one
      have whole' := mbrCandidateAdd_whole whole (by omega) added
      split
      · exact yields_guard fun _ => yields_guard fun _ => ih _ _ _ _ whole'
      · exact ih _ _ _ _ whole'

theorem mbrTable_whole (disk : Device) (sector : List UInt8) : Yields Whole (mbrTable disk sector) := by
  rw [mbrTable]
  refine yields_ofOption fun result found => ?_
  have whole := mbrPrimaries_whole disk sector _ _ _ _ (fun _ member => by cases member) found
  dsimp only
  split
  · exact yields_pure whole
  · exact yields_guard fun _ => mbrLogicals_whole disk (Nat.mod_lt _ (by decide)) _ _ _ _ _ whole

/-! ### The scan -/

/-- The scan leaves the registry safe, and keeps the disk in its place. -/
def KeepsSafe (parent : Nat) (disk : Device) (result : Nat × Registries) : Prop :=
  Safe result.2 ∧ result.2.devices[parent]? = some disk

theorem scanGpt_safe (here : s.devices[parent]? = some disk) (safe : Safe s) :
    Returns (KeepsSafe parent disk) (scanGpt parent disk s) := by
  unfold scanGpt
  refine returns_bind_of (gptTableAt_whole disk 1) fun primary whole => ?_
  have kept := recordTable_safe here whole safe
  dsimp only
  split
  · exact kept
  · refine returns_bind_of (gptTableAt_whole disk (disk.blockCount - 1)) fun backup whole' => ?_
    exact recordTable_safe kept.2 whole' kept.1

theorem partitionScanDevice_safe (parent : Nat) {s : Registries} (safe : Safe s) :
    Returns (fun result => Safe result.2) (partitionScanDevice parent s) := by
  unfold partitionScanDevice
  split
  · exact safe
  · rename_i disk here
    split
    · exact safe
    · refine returns_bind fun read => ?_
      split
      · exact safe
      · rename_i sector
        split
        · exact safe
        · split
          · exact returns_mono (scanGpt_safe here safe) fun _ kept => kept.1
          · refine returns_bind_of (mbrTable_whole disk sector) fun found whole => ?_
            exact (recordTable_safe here whole safe).1

theorem recordTable_keeps {P : Registries → Prop}
    (step : ∀ candidate s s', P s → recordPartition parent disk candidate s = some s' → P s')
    (found : Option (List Candidate)) {s : Registries} (holds : P s) :
    P (recordTable parent disk found s).2 := by
  have all : ∀ (candidates : List Candidate) (s : Registries), P s →
      P (recordAll parent disk candidates s).2 := by
    intro candidates
    induction candidates with
    | nil => exact fun _ holds => holds
    | cons candidate rest ih =>
      intro s holds
      rw [recordAll]
      split
      · exact holds
      · rename_i s' recorded
        exact ih s' (step candidate s s' holds recorded)
  cases found with
  | none => exact holds
  | some candidates =>
    have done := all candidates s holds
    unfold recordTable
    dsimp only
    split
    · rename_i s' whole
      rwa [whole] at done
    · rename_i s' stopped
      rwa [stopped] at done

theorem partitionScanDevice_keeps (parent : Nat) {P : Registries → Prop} {s : Registries}
    (step : ∀ disk, s.devices[parent]? = some disk → ∀ candidate t t', P t →
      recordPartition parent disk candidate t = some t' → P t') (holds : P s) :
    Returns (fun result => P result.2) (partitionScanDevice parent s) := by
  unfold partitionScanDevice
  split
  · exact holds
  · rename_i disk here
    split
    · exact holds
    · refine returns_bind fun read => ?_
      split
      · exact holds
      · split
        · exact holds
        · split
          · -- the backup goes on from what the primary has left
            unfold scanGpt
            refine returns_bind fun primary => ?_
            have first := recordTable_keeps (step disk here) primary holds
            dsimp only
            split
            · exact first
            · exact returns_bind fun backup => recordTable_keeps (step disk here) backup first
          · exact returns_bind fun found => recordTable_keeps (step disk here) found holds

/-! ### The number of reads -/

theorem atMost_deviceRead (lba count : Nat) : AtMost 1 (deviceRead lba count).run :=
  fun _ => trivial

theorem gptCandidates_atMost (disk : Device) (header : GptHeader) :
    ∀ (left index currentSector : Nat) (entrySector : List UInt8) (crc : UInt32)
      (candidates : List Candidate),
      AtMost left (gptCandidates disk header left index currentSector entrySector crc candidates).run := by
  intro left
  induction left with
  | zero => exact fun _ _ _ _ _ => trivial
  | succ left ih =>
    intro index currentSector entrySector crc candidates
    rw [gptCandidates, Nat.add_comm]
    refine atMost_fallible_bind ?_ fun entrySector => atMost_guard ?_
    · unfold gptEntrySector
      split
      · exact atMost_deviceRead _ _
      · exact atMost_pure 1 _
    · dsimp only
      split
      · exact ih _ _ _ _ _
      · exact atMost_guard (atMost_guard (ih _ _ _ _ _))

theorem gptTableAt_atMost (disk : Device) (headerLba : Nat) :
    AtMost (2 ^ 32) (gptTableAt disk headerLba).run := by
  have header : AtMost 1 (readGptHeader disk headerLba).run := by
    unfold readGptHeader
    refine atMost_guard ?_
    exact atMost_fallible_bind (n := 0) (atMost_deviceRead _ _) fun sector =>
      atMost_guard (atMost_pure 0 _)
  rw [gptTableAt, show 2 ^ 32 = 1 + ((2 ^ 32 - 1) + 0) from rfl]
  refine atMost_fallible_bind header fun sector => atMost_fallible_bind ?_ fun result =>
    atMost_guard (atMost_pure 0 _)
  have count := getLE_bound sector 80 4
  exact (gptCandidates_atMost disk _ _ _ _ _ _ _).mono (by dsimp only [gptHeader]; omega)

theorem mbrLogicals_atMost (disk : Device) (base last : Nat) :
    ∀ (left ebrLba number : Nat) (visited : List Nat) (candidates : List Candidate),
      AtMost left (mbrLogicals disk base last left ebrLba number visited candidates).run := by
  intro left
  induction left with
  | zero =>
    intro ebrLba number visited candidates
    rw [mbrLogicals]
    split <;> trivial
  | succ left ih =>
    intro ebrLba number visited candidates
    rw [mbrLogicals]
    split
    · trivial
    · rw [Nat.add_comm]
      refine atMost_guard (atMost_fallible_bind (atMost_deviceRead _ _) fun sector =>
        atMost_guard (atMost_guard (atMost_guard (atMost_guard (atMost_ofOption fun candidates =>
          ?_)))))
      split
      · exact atMost_guard (atMost_guard (ih _ _ _ _))
      · exact ih _ _ _ _

theorem partitionScanDevice_atMost (parent : Nat) (s : Registries) :
    AtMost (2 ^ 33 + 1) (partitionScanDevice parent s) := by
  unfold partitionScanDevice
  split
  · exact atMost_pure _ _
  · rename_i disk here
    split
    · exact atMost_pure _ _
    · rw [Nat.add_comm]
      refine atMost_bind (atMost_deviceRead 0 1) fun read => ?_
      split
      · exact atMost_pure _ _
      · rename_i sector
        split
        · exact atMost_pure _ _
        · split
          · unfold scanGpt
            rw [show 2 ^ 33 = 2 ^ 32 + (2 ^ 32 + 0) from rfl]
            refine atMost_bind (gptTableAt_atMost disk 1) fun primary => ?_
            dsimp only
            split
            · exact atMost_pure _ _
            · exact atMost_bind (gptTableAt_atMost disk _) fun backup => atMost_pure 0 _
          · have table : AtMost PARTITION_MAX_PER_DISK (mbrTable disk sector).run := by
              unfold mbrTable
              refine atMost_ofOption fun result => ?_
              dsimp only
              split
              · exact atMost_pure _ _
              · exact atMost_guard (mbrLogicals_atMost disk _ _ _ _ _ _ _)
            exact (atMost_bind table fun found => atMost_pure 0 _).mono (by decide)

/-! ### Runs -/

/-- The registries that devices being registered and scans of them can lead to, whatever the
disks answer to the reads of each scan. -/
inductive Scanned : Registries → Prop
  | start (devices : List Device) : Scanned ⟨devices, []⟩
  | register {s : Registries} (scanned : Scanned s) (devices : List Device) :
      Scanned { s with devices := s.devices ++ devices }
  | scan {s : Registries} (scanned : Scanned s) (parent : Nat) {S : Type}
      (handle : (op : DeviceOp) → S → op.Response × S) (disk : S) :
      Scanned (Prog.run handle (partitionScanDevice parent s) disk).1.2

theorem Scanned.safe (scanned : Scanned s) : Safe s := by
  induction scanned with
  | start devices =>
    constructor
    · intro info member
      cases member
    · exact List.Pairwise.nil
  | register _ devices safe => exact safe.more devices
  | scan _ parent handle disk safe => exact (partitionScanDevice_safe parent safe).run disk

/-- Whatever has been registered and scanned before, and whatever the disk answers, a scan
ends after a bounded number of reads, and then every recorded partition has a nonzero start
and length and lies inside its disk, and no two of one disk overlap. -/
theorem scan_safe {s : Registries} (scanned : Scanned s) (parent : Nat) {S : Type}
    (handle : (op : DeviceOp) → S → op.Response × S) (disk : S) :
    AtMost (2 ^ 33 + 1) (partitionScanDevice parent s) ∧
      Safe (Prog.run handle (partitionScanDevice parent s) disk).1.2 :=
  ⟨partitionScanDevice_atMost parent s, (scanned.scan parent handle disk).safe⟩

/-! ### A chain that runs into itself -/

def loopingDevice : Device where
  id := 0
  name := ['d', 'i', 's', 'k', '0']
  logicalBlockSize := 512
  physicalBlockSize := 512
  blockCount := 64
  flags := 0
  target := 0
  lun := 0
  startLba := 0
  parent := none
  ops := .driver

def tableSector (first second : UInt8 × UInt8 × UInt8) : List UInt8 :=
  let entry := fun (type, start, count) =>
    [0, 0, 0, 0, type, 0, 0, 0, start, 0, 0, 0, count, 0, 0, 0]
  put (put (put (List.replicate 512 0) 446 (entry first)) 462 (entry second)) 510 [0x55, 0xAA]

/-- A primary partition and an extended one, whose second record is its own successor. -/
def loopingAnswer : (op : DeviceOp) → Unit → op.Response × Unit
  | .read lba _, _ =>
    (some (if lba = 0 then tableSector (0x83, 8, 8) (0x05, 16, 16)
      else tableSector (0x83, 1, 3) (0x05, 4, 8)), ())
  | .write _ _ _, _ => (false, ())
  | .flush, _ => (false, ())
  | .kmalloc _, _ => (false, ())

theorem scan_safe_example : AtMost (2 ^ 33 + 1) (partitionScanDevice 0 ⟨[loopingDevice], []⟩) ∧
      Safe (Prog.run loopingAnswer (partitionScanDevice 0 ⟨[loopingDevice], []⟩) ()).1.2 :=
  scan_safe (.start [loopingDevice]) 0 loopingAnswer ()

end AsasOs.Partition
