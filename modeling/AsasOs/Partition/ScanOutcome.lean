import AsasOs.Partition.Candidates
import AsasOs.Partition.GptAgreement

/-!
# What a scan leaves behind

A table is read as a whole before its first partition is recorded, but the recording
itself stops at the first partition that is refused, and the ones before it stay. The
module says exactly which candidates a registry accepts, and from it when a scan records
a table as a whole or not at all, and when it records the primary GPT and nothing else.
-/
namespace AsasOs.Partition

open Block Bytes Prog

/-! ### Recording one table -/

/-- The registries take the candidate for the disk once `before` others of its table have
been recorded. -/
structure Accepts (s : Registries) (parent : Nat) (disk : Device) (before : Nat)
    (candidate : Candidate) : Prop where
  sizes : descriptionValid disk = true
  partitions : s.partitions.length + before < BLOCK_DEVICE_MAX_COUNT
  devices : s.devices.length + before < BLOCK_DEVICE_MAX_COUNT
  placed : extentRefused disk.blockCount candidate.startLba candidate.blockCount = false
  clear : ∀ existing ∈ s.partitions, existing.parent = parent →
    overlap candidate.startLba candidate.blockCount existing.startLba existing.blockCount = false

def NoneOverlap (table : List Candidate) : Prop :=
  table.Pairwise fun earlier later =>
    overlap later.startLba later.blockCount earlier.startLba earlier.blockCount = false

section Recording

variable {parent : Nat} {disk : Device} {s : Registries} {candidate : Candidate}

theorem recordPartition_of_accepts (here : s.devices[parent]? = some disk)
    (accepts : Accepts s parent disk 0 candidate) :
    ∃ window, recordPartition parent disk candidate s = some ⟨s.devices ++ [window],
      s.partitions ++ [partitionInfo s.devices.length parent candidate]⟩ := by
  have room : Room s 1 := ⟨accepts.devices, accepts.partitions⟩
  obtain ⟨window, -, recorded⟩ := recordPartition_succeeds here accepts.sizes room accepts.placed
    fun existing member => by
      obtain ⟨inside, same⟩ := List.mem_filter.mp member
      exact accepts.clear existing inside (eq_of_beq same)
  exact ⟨window, recorded⟩

theorem blockDeviceRegister_refuses (layer : BlockLayer) (description : Device)
    (unfit : ¬(descriptionValid description &&
      decide (layer.devices.length < BLOCK_DEVICE_MAX_COUNT)) = true) :
    blockDeviceRegister layer description = (layer, none) :=
  if_neg unfit

theorem registerPartition_needs {devices devices' : List Device} {startLba blockCount : Nat}
    {name : CString} (here : devices[parent]? = some disk)
    (registered : registerPartition devices parent startLba blockCount name = some devices') :
    descriptionValid disk = true ∧ devices.length < BLOCK_DEVICE_MAX_COUNT := by
  unfold registerPartition blockDeviceRegisterPartition at registered
  dsimp only at registered
  rw [here] at registered
  dsimp only at registered
  by_cases outside : blockCount = 0 ∨ (disk.blockCount ≠ 0 ∧
      (startLba ≥ disk.blockCount ∨ blockCount > disk.blockCount - startLba))
  · rw [if_pos outside] at registered
    exact nomatch registered
  · rw [if_neg outside] at registered
    -- the description has the block sizes of the disk
    by_cases fits : (descriptionValid disk && decide (devices.length < BLOCK_DEVICE_MAX_COUNT)) = true
    · obtain ⟨sizes, room⟩ := Bool.and_eq_true_iff.mp fits
      exact ⟨sizes, of_decide_eq_true room⟩
    · rw [blockDeviceRegister_refuses] at registered
      · exact nomatch registered
      · exact fits

variable {s' : Registries}

theorem accepts_of_recordPartition (here : s.devices[parent]? = some disk)
    (recorded : recordPartition parent disk candidate s = some s') :
    Accepts s parent disk 0 candidate := by
  obtain ⟨room, placed, clear, -⟩ := recordPartition_cases recorded
  unfold recordPartition at recorded
  split_ifs at recorded
  split at recorded
  · exact nomatch recorded
  next devices registered =>
    obtain ⟨sizes, more⟩ := registerPartition_needs here registered
    exact ⟨sizes, room, more, placed, clear⟩

theorem accepts_succ {window : Device} {before : Nat} {first : Candidate}
    (apart : overlap candidate.startLba candidate.blockCount first.startLba first.blockCount = false) :
    Accepts ⟨s.devices ++ [window], s.partitions ++ [partitionInfo s.devices.length parent first]⟩
        parent disk before candidate ↔ Accepts s parent disk (before + 1) candidate := by
  have sum (n : Nat) : n + 1 + before = n + (before + 1) := by omega
  constructor
  · rintro ⟨sizes, partitions, devices, placed, clear⟩
    rw [List.length_append, List.length_singleton, sum] at partitions devices
    exact ⟨sizes, partitions, devices, placed,
      fun existing member => clear existing (List.mem_append_left _ member)⟩
  · rintro ⟨sizes, partitions, devices, placed, clear⟩
    refine ⟨sizes, ?_, ?_, placed, fun existing member same => ?_⟩
    · rwa [List.length_append, List.length_singleton, sum]
    · rwa [List.length_append, List.length_singleton, sum]
    · rcases List.mem_append.mp member with old | new
      · exact clear existing old same
      · rw [List.mem_singleton.mp new]
        exact apart

def infos (s : Registries) (parent : Nat) (table : List Candidate) : List PartitionInfo :=
  table.mapIdx fun index candidate => partitionInfo (s.devices.length + index) parent candidate

/-- What recording a table does: its first `count` candidates are accepted and recorded, and
the next one, if there is one, is refused. -/
structure RecordedFirst (s : Registries) (parent : Nat) (disk : Device) (table : List Candidate)
    (count : Nat) (s' : Registries) : Prop where
  within : count ≤ table.length
  accepted : ∀ index candidate, index < count → table[index]? = some candidate →
    Accepts s parent disk index candidate
  refused : ∀ candidate, table[count]? = some candidate → ¬Accepts s parent disk count candidate
  devices : ∃ windows : List Device, windows.length = count ∧ s'.devices = s.devices ++ windows
  partitions : s'.partitions = s.partitions ++ infos s parent (table.take count)

theorem recordAll_first : ∀ (table : List Candidate) (s : Registries),
    s.devices[parent]? = some disk → NoneOverlap table →
    ∃ count s', recordAll parent disk table s = (decide (count = table.length), s') ∧
      RecordedFirst s parent disk table count s' := by
  intro table
  induction table with
  | nil =>
    intro s here _
    exact ⟨0, s, rfl, Nat.le_refl _, nofun, nofun, ⟨[], rfl, by simp⟩, by simp [infos]⟩
  | cons first rest ih =>
    intro s here apart
    obtain ⟨away, apart⟩ := List.pairwise_cons.mp apart
    by_cases accepts : Accepts s parent disk 0 first
    · obtain ⟨window, recorded⟩ := recordPartition_of_accepts here accepts
      have still : (s.devices ++ [window])[parent]? = some disk := by
        rw [List.getElem?_append_left (List.getElem?_eq_some_iff.mp here).1, here]
      obtain ⟨count, s', all, done⟩ := ih ⟨s.devices ++ [window],
        s.partitions ++ [partitionInfo s.devices.length parent first]⟩ still apart
      have alike : ∀ index candidate, rest[index]? = some candidate → (Accepts ⟨s.devices ++ [window],
            s.partitions ++ [partitionInfo s.devices.length parent first]⟩ parent disk index
              candidate ↔ Accepts s parent disk (index + 1) candidate) :=
        fun index candidate found => accepts_succ (away candidate (List.mem_of_getElem? found))
      refine ⟨count + 1, s', ?_, ?_⟩
      · rw [recordAll, recorded]
        dsimp only
        rw [all, List.length_cons, decide_eq_decide.mpr (Nat.succ_inj)]
      · obtain ⟨windows, length, devices⟩ := done.devices
        refine ⟨Nat.succ_le_succ done.within, ?_, ?_, ⟨window :: windows, ?_, ?_⟩, ?_⟩
        · intro index candidate below found
          cases index with
          | zero =>
            rw [List.getElem?_cons_zero] at found
            rw [← Option.some.inj found]
            exact accepts
          | succ index =>
            rw [List.getElem?_cons_succ] at found
            exact (alike index candidate found).mp
              (done.accepted index candidate (Nat.lt_of_succ_lt_succ below) found)
        · intro candidate found
          rw [List.getElem?_cons_succ] at found
          exact fun accepts => done.refused candidate found ((alike count candidate found).mpr accepts)
        · rw [List.length_cons, length]
        · rw [devices, List.append_assoc, List.singleton_append]
        · have shifted : (fun index candidate => partitionInfo
              ((s.devices ++ [window]).length + index) parent candidate) =
              fun index candidate => partitionInfo (s.devices.length + (index + 1)) parent
                candidate := by
            funext index candidate
            rw [List.length_append, List.length_singleton, Nat.add_assoc, Nat.add_comm 1 index]
          rw [done.partitions, infos, infos, List.take_succ_cons, List.mapIdx_cons, shifted,
            List.append_assoc, List.singleton_append]
          rfl
    · refine ⟨0, s, ?_, Nat.zero_le _, by rintro _ _ ⟨⟩, ?_, ⟨[], rfl, by simp⟩, by simp [infos]⟩
      · rw [recordAll]
        cases recorded : recordPartition parent disk first s with
        | none => rfl
        | some s' => exact absurd (accepts_of_recordPartition here recorded) accepts
      · intro candidate found
        rw [List.getElem?_cons_zero] at found
        rw [← Option.some.inj found]
        exact accepts

def AllAccepted (s : Registries) (parent : Nat) (disk : Device) (table : List Candidate) : Prop :=
  ∀ index candidate, table[index]? = some candidate → Accepts s parent disk index candidate

theorem RecordedFirst.all_iff {table : List Candidate} {count : Nat}
    (done : RecordedFirst s parent disk table count s') :
    count = table.length ↔ AllAccepted s parent disk table := by
  constructor
  · rintro rfl index candidate found
    exact done.accepted index candidate (List.getElem?_eq_some_iff.mp found).1 found
  · intro all
    refine Nat.le_antisymm done.within (Nat.le_of_not_lt fun short => ?_)
    have found := List.getElem?_eq_getElem short
    exact done.refused _ found (all _ _ found)

theorem RecordedFirst.none_iff {table : List Candidate} {count : Nat}
    (done : RecordedFirst s parent disk table count s') :
    count = 0 ↔ ∀ candidate, table[0]? = some candidate → ¬Accepts s parent disk 0 candidate := by
  constructor
  · rintro rfl
    exact done.refused
  · intro refused
    refine Nat.eq_zero_of_not_pos fun positive => ?_
    have found := List.getElem?_eq_getElem (Nat.lt_of_lt_of_le positive done.within)
    exact refused _ found (done.accepted 0 _ positive found)

theorem RecordedFirst.unchanged {table : List Candidate}
    (done : RecordedFirst s parent disk table 0 s') : s' = s := by
  obtain ⟨windows, length, devices⟩ := done.devices
  have partitions := done.partitions
  rw [List.length_eq_zero_iff.mp length, List.append_nil] at devices
  rw [List.take_zero, infos, List.mapIdx_nil, List.append_nil] at partitions
  cases s
  cases s'
  rw [Registries.mk.injEq]
  exact ⟨devices, partitions⟩

end Recording

/-! ### All or nothing -/

/-- A scan that returns 0 has left the registries alone; one that returns more has added as
many partitions and devices. -/
def AllOrNothing (s : Registries) (result : Nat × Registries) : Prop :=
  (result.1 = 0 → result.2 = s) ∧
    (0 < result.1 → ∃ windows partitions, result.2 = ⟨s.devices ++ windows, s.partitions ++ partitions⟩ ∧
      windows.length = result.1 ∧ partitions.length = result.1)

/-- The table is accepted as a whole, or refused at its first partition. -/
def WholeOrNone (s : Registries) (parent : Nat) (disk : Device) (table : List Candidate) : Prop :=
  AllAccepted s parent disk table ∨
    ∀ candidate, table[0]? = some candidate → ¬Accepts s parent disk 0 candidate

/-- The tables that a scan of the disk takes up, from what the disk answers: the MBR table, or
the primary GPT and, if the registries take nothing of it, the backup. -/
inductive Tried (answer : (op : DeviceOp) → op.Response) (s : Registries) (parent : Nat)
    (disk : Device) : List Candidate → Prop
  | mbr {sector : List UInt8} {table : List Candidate}
      (read : scannedSector answer disk = some sector) (plain : protective sector = false)
      (found : eval answer (mbrTable disk sector).run = some table) : Tried answer s parent disk table
  | primary {sector : List UInt8} {table : List Candidate}
      (read : scannedSector answer disk = some sector) (behind : protective sector = true)
      (found : eval answer (gptTableAt disk 1).run = some table) : Tried answer s parent disk table
  | backup {sector : List UInt8} {table : List Candidate}
      (read : scannedSector answer disk = some sector) (behind : protective sector = true)
      (two : ¬disk.blockCount < 2)
      (nothing : ∀ primary, eval answer (gptTableAt disk 1).run = some primary →
        ∀ candidate, primary[0]? = some candidate → ¬Accepts s parent disk 0 candidate)
      (found : eval answer (gptTableAt disk (disk.blockCount - 1)).run = some table) :
      Tried answer s parent disk table

section Outcome

variable {answer : (op : DeviceOp) → op.Response} {parent : Nat} {disk : Device} {s : Registries}

theorem recordTable_first (here : s.devices[parent]? = some disk) {table : List Candidate}
    (read : ∃ bound, WellRead bound table) :
    ∃ count s', recordTable parent disk (some table) s =
      (if count = table.length then table.length else 0, s') ∧
      RecordedFirst s parent disk table count s' := by
  obtain ⟨bound, read⟩ := read
  obtain ⟨count, s', all, done⟩ := recordAll_first table s here read.apart
  refine ⟨count, s', ?_, done⟩
  rw [recordTable_some, all]
  dsimp only
  by_cases whole : count = table.length
  · rw [if_pos (decide_eq_true whole), if_pos whole]
  · rw [if_neg (by rw [decide_eq_false whole]; exact Bool.false_ne_true), if_neg whole]

theorem infos_length (s : Registries) (parent : Nat) (table : List Candidate) :
    (infos s parent table).length = table.length := by
  rw [infos, List.length_mapIdx]

variable {table : List Candidate} {s' : Registries}

theorem allOrNothing_table {count : Nat} (done : RecordedFirst s parent disk table count s') :
    AllOrNothing s (if count = table.length then table.length else 0, s') ↔
      WholeOrNone s parent disk table := by
  obtain ⟨windows, length, devices⟩ := done.devices
  have partitions := done.partitions
  by_cases whole : count = table.length
  · rw [if_pos whole]
    refine ⟨fun _ => .inl (done.all_iff.mp whole), fun _ => ⟨fun empty => ?_, fun _ => ?_⟩⟩
    · rw [whole.trans empty] at done
      exact done.unchanged
    · refine ⟨windows, infos s parent (table.take count), ?_, length.trans whole, ?_⟩
      · dsimp only
        rw [← devices, ← partitions]
      · rw [infos_length, List.length_take, whole, Nat.min_self]
  · rw [if_neg whole]
    constructor
    · rintro ⟨unchanged, -⟩
      have same := unchanged rfl
      dsimp only at same
      rw [same, List.self_eq_append_right] at devices
      rw [devices] at length
      exact .inr (done.none_iff.mp length.symm)
    · rintro (all | none)
      · exact absurd (done.all_iff.mpr all) whole
      · rw [done.none_iff.mpr none] at done
        exact ⟨fun _ => done.unchanged, fun positive => absurd positive (Nat.lt_irrefl 0)⟩

theorem partial_spoils {count : Nat} (done : RecordedFirst s parent disk table count s')
    (some_recorded : count ≠ 0)
    (here : s.devices[parent]? = some disk) {found : Option (List Candidate)}
    (read : ∀ backup, found = some backup → ∃ bound, WellRead bound backup) :
    ¬AllOrNothing s (recordTable parent disk found s') := by
  obtain ⟨windows, length, devices⟩ := done.devices
  rintro ⟨unchanged, added⟩
  -- the devices of the first table are there in any case
  have grown : ∃ more, (recordTable parent disk found s').2.devices = s.devices ++ (windows ++ more) ∧
      (recordTable parent disk found s').1 ≤ more.length := by
    cases found with
    | none => exact ⟨[], by rw [recordTable, devices, List.append_nil], Nat.le_refl _⟩
    | some backup =>
      have still : s'.devices[parent]? = some disk := by
        rw [devices, List.getElem?_append_left (List.getElem?_eq_some_iff.mp here).1, here]
      obtain ⟨count', s'', recorded, done'⟩ := recordTable_first still (read backup rfl)
      obtain ⟨windows', length', devices'⟩ := done'.devices
      refine ⟨windows', ?_, ?_⟩
      · rw [recorded, devices', devices, List.append_assoc]
      · rw [recorded, length']
        dsimp only
        split_ifs with whole
        · exact whole.ge
        · exact Nat.zero_le _
  obtain ⟨more, devices'', bound⟩ := grown
  rcases Nat.eq_zero_or_pos (recordTable parent disk found s').1 with zero | positive
  · rw [unchanged zero, List.self_eq_append_right, List.append_eq_nil_iff] at devices''
    rw [devices''.1] at length
    exact some_recorded length.symm
  · obtain ⟨windows', partitions', same, few, -⟩ := added positive
    rw [same] at devices''
    have lengths := congrArg List.length (List.append_cancel_left devices'')
    rw [List.length_append] at lengths
    omega

theorem tried_gpt {sector : List UInt8} (read : scannedSector answer disk = some sector)
    (behind : protective sector = true) {table : List Candidate} :
    Tried answer s parent disk table ↔ eval answer (gptTableAt disk 1).run = some table ∨
      ((∀ primary, eval answer (gptTableAt disk 1).run = some primary →
          ∀ candidate, primary[0]? = some candidate → ¬Accepts s parent disk 0 candidate) ∧
        ¬disk.blockCount < 2 ∧
        eval answer (gptTableAt disk (disk.blockCount - 1)).run = some table) := by
  constructor
  · rintro (⟨read', plain, -⟩ | ⟨-, -, found⟩ | ⟨-, -, two, nothing, found⟩)
    · rw [Option.some.inj (read.symm.trans read'), plain] at behind
      exact absurd behind Bool.false_ne_true
    · exact .inl found
    · exact .inr ⟨nothing, two, found⟩
  · rintro (found | ⟨nothing, two, found⟩)
    · exact .primary read behind found
    · exact .backup read behind two nothing found

theorem fallback_allOrNothing (answer : (op : DeviceOp) → op.Response)
    (here : s.devices[parent]? = some disk) :
    AllOrNothing s (if disk.blockCount < 2 then (0, s) else recordTable parent disk
        (eval answer (gptTableAt disk (disk.blockCount - 1)).run) s) ↔
      (¬disk.blockCount < 2 → ∀ table, eval answer (gptTableAt disk (disk.blockCount - 1)).run = some table →
          WholeOrNone s parent disk table) := by
  have untouched : AllOrNothing s (0, s) :=
    ⟨fun _ => rfl, fun positive => absurd positive (Nat.lt_irrefl 0)⟩
  by_cases small : disk.blockCount < 2
  · rw [if_pos small]
    exact ⟨fun _ two => absurd small two, fun _ => untouched⟩
  · rw [if_neg small]
    cases found : eval answer (gptTableAt disk (disk.blockCount - 1)).run with
    | none => exact ⟨fun _ _ _ none => (nomatch none), fun _ => untouched⟩
    | some backup =>
      obtain ⟨count, s', recorded, done⟩ :=
        recordTable_first here ((gptTableAt_wellRead disk _).eval found)
      rw [recorded, allOrNothing_table done]
      constructor
      · intro whole _ table same
        rw [← Option.some.inj same]
        exact whole
      · exact fun whole => whole small backup rfl

theorem scanGpt_allOrNothing (here : s.devices[parent]? = some disk) : AllOrNothing s
        (let result := recordTable parent disk (eval answer (gptTableAt disk 1).run) s
        if result.1 ≠ 0 ∨ disk.blockCount < 2 then result
        else recordTable parent disk
          (eval answer (gptTableAt disk (disk.blockCount - 1)).run) result.2) ↔
      ∀ table, (eval answer (gptTableAt disk 1).run = some table ∨
        ((∀ primary, eval answer (gptTableAt disk 1).run = some primary →
            ∀ candidate, primary[0]? = some candidate → ¬Accepts s parent disk 0 candidate) ∧
          ¬disk.blockCount < 2 ∧
          eval answer (gptTableAt disk (disk.blockCount - 1)).run = some table)) →
        WholeOrNone s parent disk table := by
  cases found : eval answer (gptTableAt disk 1).run with
  | none =>
    have nothing : recordTable parent disk none s = (0, s) := rfl
    simp only [nothing, ne_eq, not_true_eq_false, false_or]
    rw [fallback_allOrNothing answer here]
    constructor
    · rintro all table (none | ⟨-, two, backup⟩)
      · cases none
      · exact all two table backup
    · exact fun all two table backup => all table (.inr ⟨fun _ none => (nomatch none), two, backup⟩)
  | some primary =>
    obtain ⟨count, s', recorded, done⟩ :=
      recordTable_first here ((gptTableAt_wellRead disk _).eval found)
    have whole := allOrNothing_table done
    rw [recorded]
    by_cases zero : count = 0
    · -- nothing of the primary is recorded, and the backup has its turn
      have refused := done.none_iff.mp zero
      have returned : (if count = primary.length then primary.length else 0) = 0 := by
        split_ifs with all
        · exact all.symm.trans zero
        · rfl
      rw [returned]
      rw [zero] at done
      rw [done.unchanged]
      simp only [ne_eq, not_true_eq_false, false_or]
      rw [fallback_allOrNothing answer here]
      constructor
      · rintro all table (same | ⟨-, two, backup⟩)
        · rw [← Option.some.inj same]
          exact .inr refused
        · exact all two table backup
      · intro all two table backup
        refine all table (.inr ⟨fun other same => ?_, two, backup⟩)
        rw [← Option.some.inj same]
        exact refused
    · have taken : ¬∀ other, some primary = some other → ∀ candidate, other[0]? = some candidate →
          ¬Accepts s parent disk 0 candidate :=
        fun none => zero (done.none_iff.mpr (none primary rfl))
      have only : (∀ table, (some primary = some table ∨
          ((∀ other, some primary = some other → ∀ candidate, other[0]? = some candidate →
            ¬Accepts s parent disk 0 candidate) ∧ ¬disk.blockCount < 2 ∧
          eval answer (gptTableAt disk (disk.blockCount - 1)).run = some table)) →
            WholeOrNone s parent disk table) ↔ WholeOrNone s parent disk primary := by
        constructor
        · exact fun all => all primary (.inl rfl)
        · rintro accepted table (same | ⟨none, -⟩)
          · rw [← Option.some.inj same]
            exact accepted
          · exact absurd none taken
      rw [only, ← whole]
      by_cases all : count = primary.length
      · have positive : primary.length ≠ 0 := all ▸ zero
        rw [if_pos all]
        dsimp only
        rw [if_pos (.inl positive)]
      · -- a primary recorded in part
        rw [if_neg all] at whole ⊢
        have spoiled : ¬AllOrNothing s (0, s') := by
          rw [whole]
          rintro (every | none)
          · exact all (done.all_iff.mpr every)
          · exact zero (done.none_iff.mpr none)
        refine iff_of_false ?_ spoiled
        simp only [ne_eq, not_true_eq_false, false_or]
        split_ifs
        · exact spoiled
        · exact partial_spoils done zero here fun backup read =>
            (gptTableAt_wellRead disk _).eval read

/-- **All or nothing**: a scan leaves the registries alone or adds what it returns exactly when
every table that it takes up is accepted as a whole or refused at its first partition. -/
theorem scan_allOrNothing (answer : (op : DeviceOp) → op.Response) (parent : Nat) (s : Registries) :
    AllOrNothing s (eval answer (partitionScanDevice parent s)) ↔
      ∀ disk table, s.devices[parent]? = some disk → Tried answer s parent disk table →
        WholeOrNone s parent disk table := by
  have untouched : AllOrNothing s (0, s) :=
    ⟨fun _ => rfl, fun positive => absurd positive (Nat.lt_irrefl 0)⟩
  cases here : s.devices[parent]? with
  | none =>
    have nothing : eval answer (partitionScanDevice parent s) = (0, s) := by
      unfold partitionScanDevice
      rw [here]
      rfl
    rw [nothing]
    exact ⟨fun _ _ _ absent => (nomatch absent), fun _ => untouched⟩
  | some disk =>
    suffices one : AllOrNothing s (eval answer (partitionScanDevice parent s)) ↔
        ∀ table, Tried answer s parent disk table → WholeOrNone s parent disk table by
      rw [one]
      exact ⟨fun all other table same => Option.some.inj same ▸ all table,
        fun all table => all disk table rfl⟩
    rw [partitionScanDevice_eval here]
    cases read : scannedSector answer disk with
    | none =>
      refine ⟨fun _ table tried => ?_, fun _ => untouched⟩
      rcases tried with ⟨read', -⟩ | ⟨read', -⟩ | ⟨read', -⟩ <;>
        exact nomatch read.symm.trans read'
    | some sector =>
      dsimp only
      by_cases behind : protective sector = true
      · rw [if_pos behind, scanGpt_eval]
        simp only [tried_gpt read behind]
        exact scanGpt_allOrNothing here
      · rw [if_neg behind]
        have tried : ∀ table, Tried answer s parent disk table ↔
            eval answer (mbrTable disk sector).run = some table := by
          intro table
          constructor
          · rintro (⟨read', -, found⟩ | ⟨read', behind', -⟩ | ⟨read', behind', -⟩)
            · rw [Option.some.inj (read.symm.trans read')]
              exact found
            all_goals
              rw [← Option.some.inj (read.symm.trans read')] at behind'
              exact absurd behind' behind
          · exact fun found => .mbr read (Bool.eq_false_of_not_eq_true behind) found
        simp only [tried]
        cases found : eval answer (mbrTable disk sector).run with
        | none => exact ⟨fun _ _ none => (nomatch none), fun _ => untouched⟩
        | some table =>
          obtain ⟨count, s', recorded, done⟩ :=
            recordTable_first here ((mbrTable_wellRead disk sector).eval found)
          rw [recorded, allOrNothing_table done]
          exact ⟨fun whole other same => Option.some.inj same ▸ whole, fun all => all table rfl⟩

/-- A registry of devices with one free place, and a disk with two partitions. -/
def crowded : Registries := ⟨List.replicate 31 loopingDevice, []⟩

def twoPartitions (_ : Nat) : List UInt8 := tableSector (0x83, 8, 8) (0x83, 16, 8)

/-- The scan returns 0 and leaves the first of two partitions recorded. -/
theorem scan_records_in_part : ¬∀ (answer : (op : DeviceOp) → op.Response) (parent : Nat)
    (s : Registries),
      AllOrNothing s (eval answer (partitionScanDevice parent s)) := by
  intro all
  have same := (all (mediumAnswer loopingDevice twoPartitions) 0 crowded).1 (by decide +kernel)
  have devices := congrArg (fun s => s.devices.length) same
  exact absurd devices (by decide +kernel)

/-! ### Precedence of the primary -/

theorem recordTable_partitions (here : s.devices[parent]? = some disk) {found : Option (List Candidate)}
    (read : ∀ table, found = some table → ∃ bound, WellRead bound table) :
    (recordTable parent disk found s).2.partitions = s.partitions ↔
      ∀ table, found = some table → ∀ candidate, table[0]? = some candidate →
        ¬Accepts s parent disk 0 candidate := by
  cases found with
  | none => exact ⟨fun _ table none => (nomatch none), fun _ => rfl⟩
  | some table =>
    obtain ⟨count, s', recorded, done⟩ := recordTable_first here (read table rfl)
    have single : (∀ other, some table = some other → ∀ candidate, other[0]? = some candidate →
        ¬Accepts s parent disk 0 candidate) ↔ count = 0 := by
      rw [done.none_iff]
      exact ⟨fun all => all table rfl, fun none other same => Option.some.inj same ▸ none⟩
    rw [recorded, single]
    dsimp only
    rw [done.partitions, List.append_right_eq_self, ← List.length_eq_zero_iff, infos_length,
      List.length_take, Nat.min_eq_left done.within]

theorem RecordedFirst.accepts {count : Nat} {candidate : Candidate}
    (done : RecordedFirst s parent disk table count s')
    (accepts : Accepts s' parent disk 0 candidate) : Accepts s parent disk count candidate := by
  obtain ⟨windows, length, devices⟩ := done.devices
  obtain ⟨sizes, room, more, placed, clear⟩ := accepts
  rw [done.partitions, List.length_append, infos_length, List.length_take,
    Nat.min_eq_left done.within] at room
  rw [devices, List.length_append, length] at more
  refine ⟨sizes, room, more, placed, fun existing member => clear existing ?_⟩
  rw [done.partitions]
  exact List.mem_append_left _ member

theorem partial_stays {count : Nat} (done : RecordedFirst s parent disk table count s')
    (short : count < table.length)
    (here : s.devices[parent]? = some disk) {found : Option (List Candidate)}
    (read : ∀ backup, found = some backup → ∃ bound, WellRead bound backup) :
    (recordTable parent disk found s').2.partitions ≠ s.partitions ++ infos s parent table := by
  intro whole
  have taken : (infos s parent (table.take count)).length = count := by
    rw [infos_length, List.length_take, Nat.min_eq_left done.within]
  -- the entry that the refused candidate would get
  obtain ⟨next, found_next⟩ : ∃ next, table[count]? = some next :=
    ⟨_, List.getElem?_eq_getElem short⟩
  have due : (infos s parent table)[count]? =
      some (partitionInfo (s.devices.length + count) parent next) := by
    rw [infos, List.getElem?_mapIdx, found_next]
    rfl
  cases found with
  | none =>
    rw [recordTable, done.partitions] at whole
    have lengths := congrArg List.length (List.append_cancel_left whole)
    rw [taken, infos_length] at lengths
    omega
  | some backup =>
    have still : s'.devices[parent]? = some disk := by
      obtain ⟨windows, -, devices⟩ := done.devices
      rw [devices, List.getElem?_append_left (List.getElem?_eq_some_iff.mp here).1, here]
    obtain ⟨count', s'', recorded, done'⟩ := recordTable_first still (read backup rfl)
    rw [recorded] at whole
    dsimp only at whole
    rw [done'.partitions, done.partitions, List.append_assoc] at whole
    rw [← List.append_cancel_left whole, List.getElem?_append_right taken.le, taken, Nat.sub_self,
      infos, List.getElem?_mapIdx, Option.map_eq_some_iff] at due
    obtain ⟨other, found_other, same⟩ := due
    -- the first of the other table would have the extent that was refused
    rw [List.getElem?_take] at found_other
    split_ifs at found_other with positive
    have accepted := done.accepts (done'.accepted 0 other positive found_other)
    have startLba : other.startLba = next.startLba := congrArg PartitionInfo.startLba same
    have blockCount : other.blockCount = next.blockCount := congrArg PartitionInfo.blockCount same
    refine done.refused next found_next ⟨accepted.sizes, accepted.partitions, accepted.devices, ?_, ?_⟩
    · rw [← startLba, ← blockCount]
      exact accepted.placed
    · rw [← startLba, ← blockCount]
      exact accepted.clear

/-- **Precedence of the primary**: where the primary GPT is valid, the scan records exactly its
partitions when the registries take them all and, if it has none, nothing is recorded from the
last block. -/
theorem primary_precedence (answer : (op : DeviceOp) → op.Response) {parent : Nat} {s : Registries}
    {disk : Device} (here : s.devices[parent]? = some disk) {sector : List UInt8}
    (read : scannedSector answer disk = some sector) (behind : protective sector = true)
    {primary : List Candidate} (found : eval answer (gptTableAt disk 1).run = some primary) :
    (eval answer (partitionScanDevice parent s)).2.partitions = s.partitions ++ infos s parent primary ↔
      AllAccepted s parent disk primary ∧ (primary ≠ [] ∨ disk.blockCount < 2 ∨
        ∀ table, eval answer (gptTableAt disk (disk.blockCount - 1)).run = some table →
          ∀ candidate, table[0]? = some candidate → ¬Accepts s parent disk 0 candidate) := by
  obtain ⟨count, s', recorded, done⟩ :=
    recordTable_first here ((gptTableAt_wellRead disk _).eval found)
  have wellRead : ∀ backup, eval answer (gptTableAt disk (disk.blockCount - 1)).run = some backup →
      ∃ bound, WellRead bound backup := fun backup read => (gptTableAt_wellRead disk _).eval read
  rw [partitionScanDevice_eval here, read]
  dsimp only
  rw [if_pos behind, scanGpt_eval, found, recorded]
  by_cases all : count = primary.length
  · rw [if_pos all]
    have accepted := done.all_iff.mp all
    have partitions := done.partitions
    rw [all, List.take_length] at partitions
    by_cases empty : primary = []
    · have unchanged : s' = s := by
        rw [all, empty] at done
        exact done.unchanged
      subst empty
      rw [unchanged]
      simp only [List.length_nil, ne_eq, not_true_eq_false, false_or]
      have none_due : infos s parent [] = [] := rfl
      rw [none_due, List.append_nil]
      by_cases small : disk.blockCount < 2
      · rw [if_pos small]
        exact ⟨fun _ => ⟨accepted, .inl small⟩, fun _ => rfl⟩
      · rw [if_neg small, recordTable_partitions here wellRead]
        exact ⟨fun none => ⟨accepted, .inr none⟩, fun whole => whole.2.resolve_left small⟩
    · have positive : primary.length ≠ 0 := fun zero => empty (List.length_eq_zero_iff.mp zero)
      dsimp only
      rw [if_pos (.inl positive)]
      exact ⟨fun _ => ⟨accepted, .inl empty⟩, fun _ => partitions⟩
  · rw [if_neg all]
    have short : count < primary.length := Nat.lt_of_le_of_ne done.within all
    refine iff_of_false ?_ fun whole => all (done.all_iff.mpr whole.1)
    have alone : (recordTable parent disk none s').2.partitions ≠ s.partitions ++ infos s parent primary :=
      partial_stays done short here fun backup none => nomatch none
    simp only [ne_eq, not_true_eq_false, false_or]
    split_ifs
    · exact alone
    · exact partial_stays done short here wellRead

end Outcome

/-- A stale backup of the empty table of the small disk: it still names a partition. -/
def staleTable : List UInt8 :=
  List.replicate 16 1 ++ List.replicate 16 2 ++ digits 8 10 ++ digits 8 19 ++ List.replicate 80 0

def staleStart (lba : Nat) : List UInt8 :=
  if lba = 62 then staleTable ++ List.replicate 384 0
  else if lba = 63 then
    gptUpdateHeaderCrc (exampleHeader 63 1 62) (crc32 staleTable)
  else protectedStart lba

/-- The small disk with that partition in its primary copy. -/
def oneStart (lba : Nat) : List UInt8 :=
  if lba = 1 then gptUpdateHeaderCrc (exampleHeader 1 63 2) (crc32 staleTable)
  else if lba = 2 then staleTable ++ List.replicate 384 0
  else protectedStart lba

def oneCandidate : Candidate where
  scheme := .gpt
  number := 1
  type := 0
  typeGuid := List.replicate 16 1
  uniqueGuid := List.replicate 16 2
  name := List.replicate 72 0
  startLba := 10
  blockCount := 10

/-- The partition of the primary is recorded, whatever the other copy lists. -/
theorem primary_precedence_example : (eval (mediumAnswer exampleDevice oneStart)
        (partitionScanDevice 0 ⟨[exampleDevice], []⟩)).2.partitions =
      infos ⟨[exampleDevice], []⟩ 0 [oneCandidate] := by
  have here : (⟨[exampleDevice], []⟩ : Registries).devices[0]? = some exampleDevice := rfl
  have read : scannedSector (mediumAnswer exampleDevice oneStart) exampleDevice =
      some (oneStart 0) := by decide +kernel
  have found : eval (mediumAnswer exampleDevice oneStart) (gptTableAt exampleDevice 1).run =
      some [oneCandidate] := by decide +kernel
  refine (primary_precedence _ here read (by decide +kernel) found).mpr
    ⟨fun index candidate at_index => ?_, .inl (List.cons_ne_nil _ _)⟩
  match index with
  | 0 =>
    rw [← Option.some.inj at_index]
    exact ⟨by decide, by decide, by decide, by decide, nofun⟩
  | index + 1 => exact nomatch at_index

/-- The primary is valid and empty, and the scan records the partition of the backup. -/
theorem stale_backup_recorded :
    ¬∀ (answer : (op : DeviceOp) → op.Response) (parent : Nat) (s : Registries) (disk : Device)
      (sector : List UInt8) (primary : List Candidate), s.devices[parent]? = some disk →
      scannedSector answer disk = some sector → protective sector = true →
      eval answer (gptTableAt disk 1).run = some primary →
      (eval answer (partitionScanDevice parent s)).2.partitions =
      s.partitions ++ infos s parent primary := by
  intro all
  have recorded := all (mediumAnswer exampleDevice staleStart) 0 ⟨[exampleDevice], []⟩ exampleDevice
    (staleStart 0) [] rfl (by decide +kernel) (by decide +kernel) (by decide +kernel)
  exact absurd (congrArg List.length recorded) (by decide +kernel)

end AsasOs.Partition
