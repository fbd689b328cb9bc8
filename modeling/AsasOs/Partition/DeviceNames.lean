import AsasOs.Partition.ScanOutcome

/-!
# Names of partition devices

A partition device is called after its disk and the number of the partition, but a name has
only fifteen characters, and no more than the last two digits of the number are written. The
module spells the names out, and says of every scan when the names it gives tell its
partitions apart and lead back to their devices.
-/
namespace AsasOs.Partition

open Block Bytes CString Medium Prog

/-! ### Spelling -/

/-- The last decimal digit. -/
def digit (number : Nat) : Char := Char.ofNat (0x30 + number % 10)

/-- The digit that is written where there is room for one only. -/
def leadingDigit (number : Nat) : Nat := if number < 10 then number else number / 10 % 10

/-- The name of a partition device, by the room that the name of the disk leaves. -/
def partitionSpelling (name : CString) (number : Nat) : CString :=
  if name.length ≤ 12 then
    name ++ 'p' :: if number < 10 then [digit number] else [digit (number / 10), digit number]
  else if name.length = 13 then name ++ ['p', digit (leadingDigit number)]
  else if name.length = 14 then name ++ [digit (leadingDigit number)]
  else name.take 15

def LookAlike (length number other : Nat) : Prop :=
  if length ≤ 12 then number % 100 = other % 100 ∧ (number < 10 ↔ other < 10)
  else if length ≤ 14 then leadingDigit number = leadingDigit other
  else True

instance (length number other : Nat) : Decidable (LookAlike length number other) :=
  inferInstanceAs (Decidable (if length ≤ 12 then _ else if length ≤ 14 then _ else _))

theorem digit_inj {number other : Nat} : digit number = digit other ↔ number % 10 = other % 10 := by
  have table : ∀ first second : Fin 10,
      Char.ofNat (0x30 + first.val) = Char.ofNat (0x30 + second.val) → first.val = second.val := by
    decide
  constructor
  · exact table ⟨number % 10, Nat.mod_lt _ (by decide)⟩ ⟨other % 10, Nat.mod_lt _ (by decide)⟩
  · intro same
    rw [digit, digit, same]

theorem leadingDigit_lt (number : Nat) : leadingDigit number < 10 := by
  unfold leadingDigit
  split <;> omega

theorem makePartitionName_eq (disk : Device) (number : Nat) :
    makePartitionName disk number = partitionSpelling disk.name number := by
  have ones (number : Nat) : Char.ofNat (48 + number % 10) = digit number := rfl
  unfold makePartitionName partitionSpelling
  rcases Nat.lt_or_ge disk.name.length 15 with short | long
  · have taken : disk.name.take 15 = disk.name := List.take_of_length_le (by omega)
    rcases Nat.lt_or_ge number 10 with small | large
    · have one : leadingDigit number = number := if_pos small
      have none_more : ¬10 ≤ number := Nat.not_le.mpr small
      rcases Nat.lt_or_ge disk.name.length 13 with room | room
      · have fits : disk.name.length + 2 < 16 := by omega
        have few : disk.name.length ≤ 12 := by omega
        simp [taken, ones, small, none_more, fits, few]
      · rcases Nat.lt_or_ge disk.name.length 14 with tight | full
        · have thirteen : disk.name.length = 13 := by omega
          simp [taken, ones, one, none_more, thirteen]
        · have fourteen : disk.name.length = 14 := by omega
          simp [taken, ones, one, none_more, fourteen]
    · have tens : digit (leadingDigit number) = digit (number / 10) := by
        rw [digit_inj, leadingDigit, if_neg (Nat.not_lt.mpr large), Nat.mod_mod]
      have large' : ¬number < 10 := Nat.not_lt.mpr large
      rcases Nat.lt_or_ge disk.name.length 13 with room | room
      · have fits : disk.name.length + 2 < 16 := by omega
        have last : disk.name.length + 1 + 1 + 1 < 16 := by omega
        have few : disk.name.length ≤ 12 := by omega
        simp [taken, ones, large, large', fits, last, few]
      · rcases Nat.lt_or_ge disk.name.length 14 with tight | full
        · have thirteen : disk.name.length = 13 := by omega
          simp [taken, ones, tens, large, thirteen]
        · have fourteen : disk.name.length = 14 := by omega
          simp [taken, ones, tens, large, fourteen]
  · have filled : (disk.name.take 15).length = 15 := List.length_take_of_le long
    have notFew : ¬disk.name.length ≤ 12 := by omega
    have notThirteen : disk.name.length ≠ 13 := by omega
    have notFourteen : disk.name.length ≠ 14 := by omega
    simp [filled, notFew, notThirteen, notFourteen]

theorem partitionSpelling_eq_iff {name : CString} {number other : Nat} :
    partitionSpelling name number = partitionSpelling name other ↔
    LookAlike name.length number other := by
  unfold partitionSpelling LookAlike
  have leading : leadingDigit number % 10 = leadingDigit other % 10 ↔
      leadingDigit number = leadingDigit other := by
    rw [Nat.mod_eq_of_lt (leadingDigit_lt number), Nat.mod_eq_of_lt (leadingDigit_lt other)]
  by_cases room : name.length ≤ 12
  · rw [if_pos room, if_pos room, if_pos room, List.append_cancel_left_eq, List.cons.injEq]
    by_cases small : number < 10 <;> by_cases small' : other < 10
    · simp only [if_pos small, if_pos small', List.cons.injEq, digit_inj, true_and, and_true]
      exact ⟨fun same => ⟨by omega, iff_of_true small small'⟩, fun same => by omega⟩
    · simp [small, small']
    · simp [small, small']
    · simp only [if_neg small, if_neg small', List.cons.injEq, digit_inj, true_and, and_true]
      exact ⟨fun same => ⟨by omega, iff_of_false small small'⟩, fun same => by omega⟩
  · rw [if_neg room, if_neg room, if_neg room]
    by_cases thirteen : name.length = 13
    · rw [if_pos thirteen, if_pos thirteen, if_pos (by omega), List.append_cancel_left_eq]
      simp only [List.cons.injEq, digit_inj, leading, true_and, and_true]
    · rw [if_neg thirteen, if_neg thirteen]
      by_cases fourteen : name.length = 14
      · rw [if_pos fourteen, if_pos fourteen, if_pos (by omega), List.append_cancel_left_eq]
        simp only [List.cons.injEq, digit_inj, leading, and_true]
      · -- nothing of the number is written
        rw [if_neg fourteen, if_neg fourteen, if_neg (by omega)]
        exact iff_of_true rfl trivial

theorem partitionSpelling_length (name : CString) (number : Nat) :
    (partitionSpelling name number).length < 16 := by
  unfold partitionSpelling
  split_ifs <;> simp <;> omega

/-! ### What a scan names -/

theorem registerPartition_names {devices devices' : List Device} {parent startLba blockCount : Nat}
    {name : CString} (fits : name.length < 16)
    (registered : registerPartition devices parent startLba blockCount name = some devices') :
    devices'.map Device.name = devices.map Device.name ++ [name] := by
  obtain ⟨device, rfl, -, -, -, copied⟩ := registerPartition_cases registered
  rw [copyName, copyName, copyString_of_fits fits, copyString_of_fits fits] at copied
  rw [List.map_append, List.map_singleton, copied]

/-- The partitions that have been recorded for a disk, with the places and the names of their
devices. -/
structure Named (disk : Device) (before s : Registries) (recorded : List PartitionInfo) : Prop where
  partitions : s.partitions = before.partitions ++ recorded
  names : s.devices.map Device.name = before.devices.map Device.name ++
    recorded.map fun info => partitionSpelling disk.name info.number
  devices : recorded.map PartitionInfo.device = List.range' before.devices.length recorded.length

theorem recordPartition_named {parent : Nat} {disk : Device} {candidate : Candidate}
    {before s s' : Registries} {recorded : List PartitionInfo}
    (named : Named disk before s recorded)
    (next : recordPartition parent disk candidate s = some s') :
    ∃ info, Named disk before s' (recorded ++ [info]) := by
  obtain ⟨-, -, -, -, -, -, -, same⟩ := recordPartition_cases next
  unfold recordPartition at next
  split_ifs at next
  split at next
  · exact nomatch next
  next devices registered =>
    have fits : (makePartitionName disk candidate.number).length < 16 := by
      rw [makePartitionName_eq]
      exact partitionSpelling_length _ _
    have names := registerPartition_names fits registered
    have places := congrArg List.length named.names
    rw [List.length_append, List.length_map, List.length_map, List.length_map] at places
    rw [← Option.some.inj next]
    refine ⟨partitionInfo s.devices.length parent candidate, ?_, ?_, ?_⟩
    · dsimp only
      rw [named.partitions, List.append_assoc]
    · dsimp only
      rw [names, named.names, makePartitionName_eq, List.map_append, List.append_assoc]
      rfl
    · rw [List.map_append, named.devices, List.length_append, List.length_singleton,
        List.range'_concat, places]
      simp [partitionInfo]

theorem partitionScanDevice_named {parent : Nat} {disk : Device} {s : Registries}
    (here : s.devices[parent]? = some disk) :
    Returns (fun result => ∃ recorded, Named disk s result.2 recorded) (partitionScanDevice parent s) := by
  have start : ∃ recorded, Named disk s s recorded :=
    ⟨[], (List.append_nil _).symm, (List.append_nil _).symm, rfl⟩
  refine @partitionScanDevice_keeps parent (fun t => ∃ recorded, Named disk s t recorded) s ?_ start
  rintro disk' here' candidate t t' ⟨recorded, named⟩ next
  rw [← Option.some.inj (here.symm.trans here')] at next
  obtain ⟨info, more⟩ := recordPartition_named named next
  exact ⟨_, more⟩

/-! ### Finding a device by its name -/

/-- The partitions that a scan has recorded. -/
def newPartitions (before after : Registries) : List PartitionInfo :=
  after.partitions.drop before.partitions.length

def deviceName (s : Registries) (device : Nat) : Option CString :=
  s.devices[device]?.map Device.name

/-- The names of the new partitions differ, and each of them leads to the device of its
partition. -/
structure NamesResolve (before after : Registries) : Prop where
  distinct : (newPartitions before after).Pairwise fun earlier later =>
    deviceName after earlier.device ≠ deviceName after later.device
  found : ∀ info ∈ newPartitions before after, ∀ name, deviceName after info.device = some name →
    blockDeviceFind after.devices name = some info.device

/-- No two of the new partitions have numbers that look alike behind the name of the disk, and
no device from before is called like one of them. -/
structure NamesApart (disk : Device) (before after : Registries) : Prop where
  numbers : (newPartitions before after).Pairwise fun earlier later =>
    ¬LookAlike disk.name.length earlier.number later.number
  free : ∀ info ∈ newPartitions before after, ∀ device ∈ before.devices,
    device.name ≠ partitionSpelling disk.name info.number

theorem blockDeviceFind_eq_some {devices : List Device} {name : CString} {id : Nat} :
    blockDeviceFind devices name = some id ↔ (devices.map Device.name)[id]? = some name ∧
      ∀ earlier < id, (devices.map Device.name)[earlier]? ≠ some name := by
  unfold blockDeviceFind
  rw [List.findIdx?_eq_some_iff_getElem]
  simp only [List.getElem?_map]
  constructor
  · rintro ⟨below, here, first⟩
    refine ⟨?_, fun earlier before => ?_⟩
    · rw [List.getElem?_eq_getElem below, Option.map_some, of_decide_eq_true here]
    · rw [List.getElem?_eq_getElem (before.trans below), Option.map_some]
      exact fun same => first earlier before (decide_eq_true (Option.some.inj same))
  · rintro ⟨here, first⟩
    obtain ⟨device, there, named⟩ := Option.map_eq_some_iff.mp here
    obtain ⟨below, same⟩ := List.getElem?_eq_some_iff.mp there
    refine ⟨below, ?_, fun earlier before same => ?_⟩
    · rw [same, named]
      exact decide_eq_true rfl
    · refine first earlier before ?_
      rw [List.getElem?_eq_getElem (before.trans below), Option.map_some, of_decide_eq_true same]

section Names

variable {disk : Device} {before after : Registries} {recorded : List PartitionInfo}

theorem Named.newPartitions_eq (named : Named disk before after recorded) :
    newPartitions before after = recorded := by
  rw [newPartitions, named.partitions, List.drop_left]

theorem Named.device_eq (named : Named disk before after recorded) {k : Nat} {info : PartitionInfo}
    (here : recorded[k]? = some info) : info.device = before.devices.length + k := by
  have place : (recorded.map PartitionInfo.device)[k]? = some info.device := by
    rw [List.getElem?_map, here, Option.map_some]
  rw [named.devices, List.getElem?_range' (List.getElem?_eq_some_iff.mp here).1, Nat.one_mul] at place
  exact (Option.some.inj place).symm

theorem Named.name_eq (named : Named disk before after recorded) {info : PartitionInfo}
    (member : info ∈ recorded) :
    deviceName after info.device = some (partitionSpelling disk.name info.number) := by
  obtain ⟨k, here⟩ := List.getElem?_of_mem member
  rw [deviceName, ← List.getElem?_map, named.names, named.device_eq here,
    List.getElem?_append_right (by rw [List.length_map]; omega), List.length_map,
    Nat.add_sub_cancel_left, List.getElem?_map, here]
  rfl

theorem Named.find_iff (named : Named disk before after recorded) {k : Nat} {info : PartitionInfo}
    (here : recorded[k]? = some info) :
    blockDeviceFind after.devices (partitionSpelling disk.name info.number) = some info.device ↔
      (∀ device ∈ before.devices, device.name ≠ partitionSpelling disk.name info.number) ∧
        ∀ j other, j < k → recorded[j]? = some other →
          ¬LookAlike disk.name.length other.number info.number := by
  have own := named.name_eq (List.mem_of_getElem? here)
  rw [deviceName, ← List.getElem?_map] at own
  rw [blockDeviceFind_eq_some, and_iff_right own, named.names, named.device_eq here]
  have old (i : Nat) (below : i < before.devices.length) :
      (before.devices.map Device.name ++
        recorded.map fun info => partitionSpelling disk.name info.number)[i]? =
        some before.devices[i].name := by
    rw [List.getElem?_append_left (by rwa [List.length_map]), List.getElem?_map,
      List.getElem?_eq_getElem below, Option.map_some]
  have new (j : Nat) : (before.devices.map Device.name ++
      recorded.map fun info => partitionSpelling disk.name info.number)[before.devices.length + j]? =
      recorded[j]?.map fun info => partitionSpelling disk.name info.number := by
    rw [List.getElem?_append_right (by rw [List.length_map]; omega), List.length_map,
      Nat.add_sub_cancel_left, List.getElem?_map]
  constructor
  · intro first
    refine ⟨fun device member same => ?_, fun j other earlier there alike => ?_⟩
    · obtain ⟨i, below, rfl⟩ := List.getElem_of_mem member
      exact first i (by omega) (by rw [old i below, same])
    · refine first (before.devices.length + j) (by omega) ?_
      rw [new j, there, Option.map_some, partitionSpelling_eq_iff.mpr alike]
  · rintro ⟨free, apart⟩ i earlier same
    rcases Nat.lt_or_ge i before.devices.length with below | behind
    · rw [old i below] at same
      exact free _ (List.getElem_mem below) (Option.some.inj same)
    · obtain ⟨j, rfl⟩ := Nat.exists_eq_add_of_le behind
      rw [new j, Option.map_eq_some_iff] at same
      obtain ⟨other, there, spelled⟩ := same
      exact apart j other (by omega) there (partitionSpelling_eq_iff.mp spelled)

theorem Named.resolve_iff (named : Named disk before after recorded) :
    NamesResolve before after ↔ NamesApart disk before after := by
  have fresh := named.newPartitions_eq
  constructor
  · rintro ⟨distinct, found⟩
    rw [fresh] at distinct found
    constructor
    · rw [fresh]
      refine distinct.imp_of_mem fun {earlier later} here there differ alike => differ ?_
      rw [named.name_eq here, named.name_eq there, partitionSpelling_eq_iff.mpr alike]
    · rw [fresh]
      intro info member
      obtain ⟨k, here⟩ := List.getElem?_of_mem member
      exact ((named.find_iff here).mp (found info member _ (named.name_eq member))).1
  · rintro ⟨numbers, free⟩
    rw [fresh] at numbers free
    constructor
    · rw [fresh]
      refine numbers.imp_of_mem fun {earlier later} here there apart same => apart ?_
      rw [named.name_eq here, named.name_eq there] at same
      exact partitionSpelling_eq_iff.mp (Option.some.inj same)
    · rw [fresh]
      intro info member name called
      rw [named.name_eq member] at called
      rw [← Option.some.inj called]
      obtain ⟨k, here⟩ := List.getElem?_of_mem member
      refine (named.find_iff here).mpr ⟨free info member, fun j other earlier there => ?_⟩
      obtain ⟨below, at_j⟩ := List.getElem?_eq_some_iff.mp there
      obtain ⟨below', at_k⟩ := List.getElem?_eq_some_iff.mp here
      have apart := List.pairwise_iff_getElem.mp numbers j k below below' earlier
      rwa [at_j, at_k] at apart

end Names

/-- **Names of partition devices**: whatever a disk answers to a scan, the names that the scan
gives differ and lead back to their devices exactly when no two of its numbers look alike
behind the name of the disk and no device from before has one of the names. -/
theorem partition_names {parent : Nat} {disk : Device} {before : Registries}
    (here : before.devices[parent]? = some disk) {S : Type}
    (handle : (op : DeviceOp) → S → op.Response × S) (state : S) :
    NamesResolve before (Prog.run handle (partitionScanDevice parent before) state).1.2 ↔
      NamesApart disk before (Prog.run handle (partitionScanDevice parent before) state).1.2 := by
  obtain ⟨recorded, named⟩ := (partitionScanDevice_named here).run state
  exact named.resolve_iff

/-- The two partitions of a small table are found by their names. -/
theorem partition_names_example : NamesResolve ⟨[loopingDevice], []⟩
      (Prog.run (fun op state => (mediumAnswer loopingDevice twoPartitions op, state))
        (partitionScanDevice 0 ⟨[loopingDevice], []⟩) ()).1.2 := by
  have here : (⟨[loopingDevice], []⟩ : Registries).devices[0]? = some loopingDevice := rfl
  refine (partition_names here _ ()).mpr ⟨by decide +kernel, ?_⟩
  decide +kernel

/-! ### Namesakes -/

/-- The header of a table of 112 entries, all of them free. -/
def namesakeSector : List UInt8 :=
  let sector := put (List.replicate 512 0) 0 gptSignature
  let sector := putLE (putLE (putLE sector 12 4 92) 24 8 1) 32 8 63
  let sector := putLE (putLE sector 40 8 30) 48 8 60
  let sector := putLE (putLE (putLE sector 72 8 2) 80 4 112) 84 4 128
  gptUpdateHeaderCrc sector 0

/-- The entries of partitions 11 and 111. -/
def namesakeBlock (lba : Nat) : List UInt8 :=
  let block (first last : Nat) := List.replicate 256 0 ++ List.replicate 32 1 ++
    digits 8 first ++ digits 8 last ++ List.replicate 208 0
  if lba = 4 then block 40 49 else if lba = 29 then block 50 59 else List.replicate 512 0

def namesakeCrc : Nat := crc32 (entryTable exampleDevice (gptHeader namesakeSector) namesakeBlock)

def namesakes (lba : Nat) : List UInt8 :=
  if lba = 0 then protectedStart 0
  else if lba = 1 then gptUpdateHeaderCrc namesakeSector namesakeCrc
  else namesakeBlock lba

def namesakeHeader : GptHeader where
  signature := gptSignature
  headerSize := 92
  headerCrc32 := headerCrc (namesakes 1)
  currentLba := 1
  backupLba := 63
  firstUsableLba := 30
  lastUsableLba := 60
  diskGuid := List.replicate 16 0
  entriesLba := 2
  entryCount := 112
  entrySize := 128
  entriesCrc32 := namesakeCrc

theorem namesakeSector_header : gptHeader namesakeSector = { namesakeHeader with
    headerCrc32 := headerCrc namesakeSector
    entriesCrc32 := 0 } := by
  decide +kernel

theorem namesakes_sector : namesakes 1 = gptUpdateHeaderCrc namesakeSector namesakeCrc := by
  rw [namesakes, if_neg (by decide), if_pos rfl]

theorem namesakeCrc_lt : namesakeCrc < 2 ^ 32 := crc32_lt _

theorem namesakeSector_room : 92 ≤ namesakeSector.length := by decide +kernel

theorem namesakes_header : gptHeader (namesakes 1) = namesakeHeader := by
  rw [namesakes_sector, gptHeader_update namesakeSector_room namesakeCrc_lt, namesakeSector_header,
    namesakeHeader, namesakes_sector]

theorem namesakes_valid : gptHeaderValid exampleDevice 1 (namesakes 1) = true := by
  rw [namesakes_sector]
  exact gptHeaderValid_update namesakeSector_room namesakeCrc_lt (by decide +kernel)

theorem namesakes_sized (lba : Nat) : (namesakes lba).length = exampleDevice.logicalBlockSize := by
  unfold namesakes
  split_ifs
  · exact protectedStart_sized 0
  · rw [gptUpdateHeaderCrc_length namesakeSector_room]
    decide +kernel
  · unfold namesakeBlock
    dsimp only
    split_ifs <;> decide +kernel

theorem namesakes_crc : crc32 (entryTable exampleDevice namesakeHeader namesakes) = namesakeCrc := by
  have behind (k : Nat) : namesakes (2 + k) = namesakeBlock (2 + k) := by
    rw [namesakes, if_neg (by omega), if_neg (by omega)]
  have blocks (count : Nat) : blocksAt namesakes 2 count = blocksAt namesakeBlock 2 count :=
    List.map_congr_left fun k _ => behind k
  have same : entryTable exampleDevice namesakeHeader namesakes =
      entryTable exampleDevice (gptHeader namesakeSector) namesakeBlock := by
    have place : namesakeHeader.entriesLba = 2 := rfl
    rw [namesakeSector_header]
    simp only [entryTable, GptHeader.entriesSectors, GptHeader.entriesBytes, place, blocks]
  rw [same, namesakeCrc]

theorem namesakes_loop :
    (eval (mediumAnswer exampleDevice namesakes) (gptCandidates exampleDevice namesakeHeader 112 0
      0xFFFFFFFF [] 0xFFFFFFFF []).run).map (fun result => result.2.map Candidate.entry) =
      some [⟨11, 40, 10⟩, ⟨111, 50, 10⟩] := by
  decide

theorem namesakes_table : ∃ primary,
    eval (mediumAnswer exampleDevice namesakes) (gptTableAt exampleDevice 1).run = some primary ∧
      primary.map Candidate.entry = [⟨11, 40, 10⟩, ⟨111, 50, 10⟩] := by
  have layout := (gptHeaderValid_layout namesakes_valid).1
  rw [namesakes_header] at layout
  obtain ⟨⟨crc, primary⟩, found, entries⟩ := Option.map_eq_some_iff.mp namesakes_loop
  have sum : crc = crc32Update 0xFFFFFFFF (entryTable exampleDevice namesakeHeader namesakes) := by
    have loop := gptCandidates_eval layout namesakes_sized (by decide) (by decide) 112 0 0xFFFFFFFF []
      rfl (.inl rfl)
    have started : crc32Update 0xFFFFFFFF [] = 0xFFFFFFFF := rfl
    have empty : gptCandidatesOf namesakeHeader
      (entryTable exampleDevice namesakeHeader namesakes) 0 = [] := rfl
    rw [Nat.zero_mul, List.take_zero, started, empty, found] at loop
    split_ifs at loop
    rw [Option.some.injEq, Prod.mk.injEq] at loop
    exact loop.1
  have stored : (crc ^^^ 0xFFFFFFFF).toNat = namesakeHeader.entriesCrc32 :=
    (congrArg (fun crc => (crc ^^^ 0xFFFFFFFF).toNat) sum).trans namesakes_crc
  have count : namesakeHeader.entryCount = 112 := rfl
  refine ⟨primary, ?_, entries⟩
  unfold gptTableAt
  rw [eval_fallible_bind, readGptHeader_reads (scan_sizes (by decide)) namesakes_valid, Option.bind_some]
  dsimp only
  rw [namesakes_header, count, eval_fallible_bind, found, Option.bind_some]
  dsimp only
  rw [eval_fallible_bind, eval_guard, if_pos stored]
  rfl

/-- Partitions 11 and 111 of one disk are both called `disk0p11`. -/
theorem partition_names_collide :
    ¬∀ (parent : Nat) (disk : Device) (before : Registries), before.devices[parent]? = some disk →
      ∀ (handle : (op : DeviceOp) → Unit → op.Response × Unit),
        NamesResolve before (Prog.run handle (partitionScanDevice parent before) ()).1.2 := by
  intro all
  have here : (⟨[exampleDevice], []⟩ : Registries).devices[0]? = some exampleDevice := rfl
  have numbers := ((partition_names here _ ()).mp (all 0 exampleDevice ⟨[exampleDevice], []⟩ here
    fun op state => (mediumAnswer exampleDevice namesakes op, state))).numbers
  rw [run_eq_eval] at numbers
  obtain ⟨primary, found, entries⟩ := namesakes_table
  have read : scannedSector (mediumAnswer exampleDevice namesakes) exampleDevice =
      some (namesakes 0) := by decide +kernel
  -- both are recorded, from the primary table
  have taken : AllAccepted ⟨[exampleDevice], []⟩ 0 exampleDevice primary := by
    intro index candidate at_index
    have entry : candidate.entry ∈ [(⟨11, 40, 10⟩ : TableEntry), ⟨111, 50, 10⟩] := by
      rw [← entries]
      exact List.mem_map_of_mem (List.mem_of_getElem? at_index)
    have below : index < 2 := by
      have inside := (List.getElem?_eq_some_iff.mp at_index).1
      rw [← List.length_map Candidate.entry, entries] at inside
      exact inside
    have placed : extentRefused 64 candidate.entry.startLba candidate.entry.blockCount = false := by
      rcases List.mem_pair.mp entry with same | same <;> rw [same] <;> decide
    refine ⟨by decide, ?_, ?_, placed, nofun⟩
    · rw [List.length_nil, BLOCK_DEVICE_MAX_COUNT]
      omega
    · rw [List.length_singleton, BLOCK_DEVICE_MAX_COUNT]
      omega
  have some_found : primary ≠ [] := by
    rintro rfl
    exact nomatch entries
  have recorded := (primary_precedence _ here read (by decide +kernel) found).mpr
    ⟨taken, .inl some_found⟩
  have fresh : newPartitions ⟨[exampleDevice], []⟩ (eval (mediumAnswer exampleDevice namesakes)
      (partitionScanDevice 0 ⟨[exampleDevice], []⟩)).2 = infos ⟨[exampleDevice], []⟩ 0 primary := by
    rw [newPartitions, recorded]
    rfl
  rw [fresh] at numbers
  -- the numbers are 11 and 111
  obtain ⟨first, rest, rfl, eleven, more⟩ := List.map_eq_cons_iff.mp entries
  obtain ⟨second, none_left, rfl, hundred, empty⟩ := List.map_eq_cons_iff.mp more
  rw [infos, List.mapIdx_cons, List.mapIdx_cons] at numbers
  have apart := (List.pairwise_cons.mp numbers).1 _ List.mem_cons_self
  have eleven : first.number = 11 := congrArg TableEntry.number eleven
  have hundred : second.number = 111 := congrArg TableEntry.number hundred
  change ¬LookAlike 5 first.number second.number at apart
  rw [eleven, hundred] at apart
  exact apart (by decide)

end AsasOs.Partition
