import AsasOs.Fat16.Walks
import AsasOs.Lib.Outcomes

/-!
# Slots, tables and sectors

What is known of a slot that a search gives, what a write of a link changes, and where the sectors of a mounted volume
are. The numbers of sectors are too small to be cut to 32 bits.
-/
namespace AsasOs.Fat16

open Bytes Checked

/-! ### Slots -/

/-- A slot is in a sector of the volume, as it is there. -/
structure Slot.Of (slot : Slot) (v : Volume) : Prop where
  sector : slot.sector = v.content slot.lba
  index : slot.index < 16

section Slots

variable {v : Volume} {slot : Slot}

theorem lookSlot_eq {wanted : Entry → Bool} {lba : Nat} {found : Option Slot}
    (looked : lookSlot wanted lba (v.content lba) = some found) :
    ∃ slot, found = some slot ∧ slot.Of v ∧ wanted slot.entry = true := by
  obtain ⟨index, here, rfl⟩ := Option.map_eq_some_iff.mp looked
  have member := List.mem_range.mp (List.mem_of_find?_eq_some here)
  refine ⟨_, rfl, ⟨rfl, member⟩, ?_⟩
  have wantedHere := List.find?_some here
  exact wantedHere

theorem findFreeSlot_eq {steps cluster : Nat} {allowFree : Bool}
    (found : findFreeSlot steps v cluster allowFree = .ok slot) : slot.Of v := by
  unfold findFreeSlot at found
  obtain ⟨-, -, found⟩ := bind_eq_ok_iff.mp found
  obtain ⟨result, searched, found⟩ := bind_eq_ok_iff.mp found
  obtain rfl := supplied_eq_ok_iff.mp found
  rcases searchDirectory_eq searched with none | none | ⟨lba, looked⟩
  · cases none
  · cases none
  · obtain ⟨slot, same, inside, -⟩ := lookSlot_eq looked
    cases same
    exact inside

theorem findDirectoryEntrySlot_eq {steps cluster : Nat} {name : Name} {allowFree : Bool}
    (found : findDirectoryEntrySlot steps v cluster name allowFree = .ok slot) : slot.Of v := by
  unfold findDirectoryEntrySlot at found
  obtain ⟨result, searched, found⟩ := bind_eq_ok_iff.mp found
  rcases searchDirectory_eq searched with last | unread | ⟨lba, looked⟩
  · rw [last] at found
    exact findFreeSlot_eq found
  · rw [unread] at found
    cases found
  · obtain ⟨here, named, rfl⟩ := Option.map_eq_some_iff.mp looked
    obtain ⟨slot, rfl, inside, -⟩ := lookSlot_eq named
    cases found
    exact inside

theorem addChar_sized {parts parts' : Parts} {char : UInt8} (added : addChar parts char = some parts')
    (base : parts.base.length ≤ 8) (extension : (parts.extension.getD []).length ≤ 3) :
    parts'.base.length ≤ 8 ∧ (parts'.extension.getD []).length ≤ 3 := by
  unfold addChar at added
  split at added
  next =>
    split at added
    next =>
      cases added
      exact ⟨base, Nat.zero_le _⟩
    next =>
      split at added
      next => cases added
      next =>
        cases added
        exact ⟨by simpa using by omega, extension⟩
  next some same =>
    split at added
    next => cases added
    next room =>
      cases added
      exact ⟨base, by simpa using by omega⟩

theorem padded_length {name : Name} {length : Nat} (fits : name.length ≤ length) :
    (padded name length).length = length := by
  rw [padded, List.length_append, List.length_replicate]
  omega

theorem componentToName_length {component name : Name} (made : componentToName component = some name) :
    name.length = 11 := by
  obtain ⟨parts, added, made⟩ := Option.bind_eq_some_iff.mp made
  have sized (rest : Name) {parts : Parts} {parts' : Parts} (added : rest.foldlM addChar parts = some parts')
      (base : parts.base.length ≤ 8) (extension : (parts.extension.getD []).length ≤ 3) :
      parts'.base.length ≤ 8 ∧ (parts'.extension.getD []).length ≤ 3 := by
    induction rest generalizing parts with
    | nil =>
      cases added
      exact ⟨base, extension⟩
    | cons char rest ih =>
      rw [List.foldlM_cons] at added
      obtain ⟨middle, first, added⟩ := Option.bind_eq_some_iff.mp added
      obtain ⟨base, extension⟩ := addChar_sized first base extension
      exact ih added base extension
  obtain ⟨base, extension⟩ := sized component added (Nat.zero_le _) (Nat.zero_le _)
  split at made
  next => cases made
  next =>
    cases made
    rw [List.length_append, padded_length base, padded_length extension]

theorem resolveParent_length {steps parent : Nat} {path name : Name}
    (resolved : resolveParent steps v path = .ok (parent, name)) : name.length = 11 := by
  unfold resolveParent at resolved
  obtain ⟨-, -, resolved⟩ := bind_eq_ok_iff.mp resolved
  obtain ⟨-, -, resolved⟩ := bind_eq_ok_iff.mp resolved
  obtain ⟨component, made, resolved⟩ := bind_eq_ok_iff.mp resolved
  have length := componentToName_length (supplied_eq_ok_iff.mp made)
  split at resolved
  next =>
    cases resolved
    exact length
  next =>
    obtain ⟨-, -, resolved⟩ := bind_eq_ok_iff.mp resolved
    obtain ⟨parent, -, resolved⟩ := bind_eq_ok_iff.mp resolved
    obtain ⟨-, -, resolved⟩ := bind_eq_ok_iff.mp resolved
    cases resolved
    exact length

theorem pathSlot_eq {steps parent : Nat} {path name : Name} {allowFree : Bool}
    (found : pathSlot steps v path allowFree = .ok (parent, name, slot)) : name.length = 11 ∧
    slot.Of v := by
  unfold pathSlot at found
  obtain ⟨⟨parent, name⟩, resolved, found⟩ := bind_eq_ok_iff.mp found
  obtain ⟨slot, searched, found⟩ := bind_eq_ok_iff.mp found
  cases found
  exact ⟨resolveParent_length resolved, findDirectoryEntrySlot_eq searched⟩

end Slots

/-! ### Tables -/

/-- A byte of the link of a cluster, in one of the tables. -/
def LinkByte (bpb : Bpb) (cluster lba offset : Nat) : Prop :=
  ∃ table < bpb.fatCount, lba = fatLba bpb table cluster ∧ cluster * 2 % 512 ≤ offset ∧ offset < cluster * 2 % 512 + 2

section Tables

variable {v v' : Volume} {cluster value : Nat}

@[simp] theorem put_content_self (v : Volume) (lba : Nat) (sector : Memory) :
    (v.put lba sector).content lba = sector :=
  Function.update_self ..

theorem put_content_other {lba other : Nat} (apart : other ≠ lba) (sector : Memory) :
    (v.put lba sector).content other = v.content other := Function.update_of_ne apart ..

theorem next_put {lba : Nat} {sector : Memory} {cluster : Nat} (apart : lba ≠ fatLba v.bpb 0 cluster) :
    fat16NextCluster (v.put lba sector) cluster = fat16NextCluster v cluster := by
  have same : readSector (v.put lba sector) (fatLba v.bpb 0 cluster) = readSector v (fatLba v.bpb 0 cluster) :=
    congrArg (fun data => if v.readable _ then some data else none) (put_content_other apart.symm sector)
  rw [fat16NextCluster, fat16NextCluster, ← same]
  rfl

theorem setCluster_content (set : fat16SetCluster v cluster value = some v') {lba offset : Nat}
    (apart : ¬LinkByte v.bpb cluster lba offset) : v'.content lba offset = v.content lba offset := by
  have tables (rest : List Nat) {v : Volume} (set : rest.foldlM (setLink cluster value) v = some v')
      (apart : ∀ table ∈ rest, ¬(lba = fatLba v.bpb table cluster ∧ cluster * 2 % 512 ≤ offset ∧
        offset < cluster * 2 % 512 + 2)) : v'.content lba offset = v.content lba offset := by
    induction rest generalizing v with
    | nil =>
      cases set
      rfl
    | cons table rest ih =>
      rw [List.foldlM_cons] at set
      obtain ⟨middle, first, set⟩ := Option.bind_eq_some_iff.mp set
      obtain ⟨-, rfl⟩ := setLink_eq first
      rw [ih set fun table member => apart table (List.mem_cons_of_mem _ member)]
      by_cases here : lba = fatLba v.bpb table cluster
      · have other := apart table (List.mem_cons_self ..)
        subst here
        rw [put_content_self, patch, digits_length, if_neg fun inside => other ⟨rfl, inside⟩]
      · rw [put_content_other here]
  exact tables _ set fun table member same => apart ⟨table, List.mem_range.mp member, same⟩

theorem freeCluster_eq (free : freeCluster v = some cluster) :
    2 ≤ cluster ∧ cluster < 0xFFF0 ∧ cluster < v.bpb.sectorsPerFat * 256 ∧
    fat16NextCluster v cluster = 0 := by
  have member := List.mem_range'_1.mp (List.mem_of_find?_eq_some free)
  have unused := List.find?_some free
  refine ⟨member.1, by omega, by omega, by simpa using unused⟩

end Tables

/-! ### Sectors -/

section Sectors

variable {v : Volume} {cluster : Nat}

theorem mounted_sized (mounted : Mounted v) :
    0 < v.bpb.sectorsPerCluster ∧ v.bpb.sectorsPerCluster < 256 ∧ dataStartSector v.bpb < 2 ^ 25 := by
  obtain ⟨boot, accepted⟩ := mounted
  unfold fat16Initialize at accepted
  split at accepted
  next => cases accepted
  next valid =>
    rw [← Option.some.inj accepted]
    have clusters := wordAt_lt boot 13 1
    have reserved := wordAt_lt boot 14 2
    have tables := wordAt_lt boot 16 1
    have entries := wordAt_lt boot 17 2
    have sectors := wordAt_lt boot 22 2
    have product : wordAt boot 16 1 * wordAt boot 22 2 ≤ 255 * 65535 := Nat.mul_le_mul (by omega) (by omega)
    unfold dataStartSector rootStartSector rootSectorCount
    dsimp only
    omega

theorem clusterLba_eq (mounted : Mounted v) (low : 2 ≤ cluster) (high : cluster < 2 ^ 16) {k : Nat}
    (below : k < v.bpb.sectorsPerCluster) :
    clusterLba v.bpb cluster k = dataStartSector v.bpb + (cluster - 2) * v.bpb.sectorsPerCluster + k := by
  obtain ⟨-, small, start⟩ := mounted_sized mounted
  have product : (cluster - 2) * v.bpb.sectorsPerCluster ≤ 2 ^ 16 * 256 := Nat.mul_le_mul (by omega) (by omega)
  have wraps : (cluster + 2 ^ 32 - 2) * v.bpb.sectorsPerCluster =
      (cluster - 2) * v.bpb.sectorsPerCluster + 2 ^ 32 * v.bpb.sectorsPerCluster := by
    rw [← Nat.add_mul]
    congr 1
    omega
  rw [clusterLba, wraps]
  omega

theorem mem_clusterSectors (mounted : Mounted v) (low : 2 ≤ cluster) (high : cluster < 2 ^ 16)
    {lba : Nat} :
    lba ∈ clusterSectors v.bpb cluster ↔
      dataStartSector v.bpb + (cluster - 2) * v.bpb.sectorsPerCluster ≤ lba ∧
      lba < dataStartSector v.bpb + (cluster - 2) * v.bpb.sectorsPerCluster + v.bpb.sectorsPerCluster := by
  rw [clusterSectors, List.mem_map]
  constructor
  · rintro ⟨k, member, rfl⟩
    have below := List.mem_range.mp member
    rw [clusterLba_eq mounted low high below]
    omega
  · rintro ⟨from', below⟩
    refine ⟨lba - (dataStartSector v.bpb + (cluster - 2) * v.bpb.sectorsPerCluster), List.mem_range.mpr (by omega), ?_⟩
    rw [clusterLba_eq mounted low high (by omega)]
    omega

theorem dotLba_eq (mounted : Mounted v) (low : 2 ≤ cluster) (high : cluster < 2 ^ 16) :
    dotLba v.bpb cluster = dataStartSector v.bpb + (cluster - 2) := by
  obtain ⟨-, -, start⟩ := mounted_sized mounted
  rw [dotLba]
  omega

theorem dotLba_mem_iff (mounted : Mounted v) (low : 2 ≤ cluster) (high : cluster < 2 ^ 16) :
    dotLba v.bpb cluster ∈ clusterSectors v.bpb cluster ↔ v.bpb.sectorsPerCluster = 1 ∨ cluster = 2 := by
  obtain ⟨some, -, -⟩ := mounted_sized mounted
  rw [mem_clusterSectors mounted low high, dotLba_eq mounted low high]
  constructor
  · rintro ⟨first, -⟩
    by_contra neither
    obtain ⟨more, behind⟩ := not_or.mp neither
    have twice : (cluster - 2) * 2 ≤ (cluster - 2) * v.bpb.sectorsPerCluster := Nat.mul_le_mul_left _ (by omega)
    omega
  · rintro (single | rfl)
    · rw [single]
      omega
    · omega

theorem dotLba_eq_first (mounted : Mounted v) (low : 2 ≤ cluster) (high : cluster < 2 ^ 16)
    (same : v.bpb.sectorsPerCluster = 1 ∨ cluster = 2) :
    clusterLba v.bpb cluster 0 = dotLba v.bpb cluster := by
  obtain ⟨some, -, -⟩ := mounted_sized mounted
  rw [clusterLba_eq mounted low high some, dotLba_eq mounted low high]
  rcases same with single | rfl
  · rw [single]
    omega
  · omega

theorem fatLba_lt {table : Nat} (below : table < v.bpb.fatCount)
    (within : cluster < v.bpb.sectorsPerFat * 256) :
    fatLba v.bpb table cluster < dataStartSector v.bpb := by
  have upTo : table * v.bpb.sectorsPerFat + v.bpb.sectorsPerFat ≤ v.bpb.fatCount * v.bpb.sectorsPerFat := by
    rw [← Nat.succ_mul]
    exact Nat.mul_le_mul_right _ below
  unfold fatLba dataStartSector rootStartSector
  omega

end Sectors

end AsasOs.Fat16
