import AsasOs.Fat16.Slots

/-!
# Creating a directory

A new directory has a cluster, and an entry in its parent. The entries for itself and its parent go to a sector that
is counted in clusters, and the other sectors of the cluster are left as they are. So it is as it should be just if a
cluster is one sector or is the first one, or if what is written there stands there already and the cluster shows
nothing.

## Main results

- `listClusters_eq`: what the listing of a directory of one cluster shows.
- `created_eq`: what a creation writes.
- `creation_kept_iff`: when a creation changes nothing else and leaves a directory that shows nothing.
- `creation_lost`: two sectors for each cluster.
-/
namespace AsasOs.Fat16

open Bytes Checked

/-! ### Entries -/

theorem entry_first (sector : Memory) (index : Nat) :
    (entryAt sector index).first = sector (index * 32) :=
  byteAt_window (by decide)

theorem entryAt_congr {sector sector' : Memory} {index index' : Nat}
    (same : ∀ i < 32, sector (index * 32 + i) = sector' (index' * 32 + i)) :
    entryAt sector index = entryAt sector' index' := by
  have windows (start size : Nat) (inside : start + size ≤ 32) :
      window sector (index * 32 + start) size = window sector' (index' * 32 + start) size := by
    apply List.map_congr_left
    intro i member
    have below := List.mem_range.mp member
    rw [Nat.add_assoc, Nat.add_assoc]
    exact same (start + i) (by omega)
  unfold entryAt wordAt
  rw [windows 26 2 (by decide), windows 28 4 (by decide), same 11 (by decide)]
  congr 1
  exact windows 0 11 (by decide)

theorem sectorEntries_congr {sector sector' : Memory}
    (same : ∀ offset < 512, sector offset = sector' offset) :
    sectorEntries sector = sectorEntries sector' := by
  apply List.map_congr_left
  intro index member
  have below := List.mem_range.mp member
  exact entryAt_congr fun i inside => same _ (by omega)

theorem entryAt_patch (sector : Memory) (index : Nat) {data : List UInt8} (length : data.length = 32) :
    entryAt (patch sector (index * 32) data) index = entryAt (byteAt data) 0 := by
  refine entryAt_congr fun i inside => ?_
  rw [patch, if_pos (by omega), Nat.add_sub_cancel_left, Nat.zero_mul, Nat.zero_add]

theorem directoryEntry_length {name : Name} (length : name.length = 11) (cluster : Nat) :
    (directoryEntry name cluster).length = 32 := by
  simp [directoryEntry, length]

theorem entryAt_directoryEntry {name : Name} (length : name.length = 11) {cluster : Nat}
    (word : cluster < 2 ^ 16) :
    entryAt (byteAt (directoryEntry name cluster)) 0 = ⟨name, 0x10, cluster, 0⟩ := by
  match name, length with
  | [_, _, _, _, _, _, _, _, _, _, _], _ =>
    have number : value (digits 2 cluster) = cluster := (value_digits 2 cluster).trans (Nat.mod_eq_of_lt word)
    exact congrArg (Entry.mk _ 0x10 · 0) number

/-! ### Listing one cluster -/

def listedEntries (v : Volume) (cluster : Nat) : List Entry :=
  ((((clusterSectors v.bpb cluster).takeWhile v.readable).flatMap fun lba =>
    sectorEntries (v.content lba)).takeWhile fun entry => entry.first != 0).filter Entry.isShown

/-- The entries that are listed when a loop is left, or at its end. -/
def listed : Except (List FileInfo) (List FileInfo) → List FileInfo
  | .ok infos => infos
  | .error infos => infos

section Listing

variable {v : Volume} {capacity cluster : Nat}

theorem listed_entries (entries : List Entry) (infos : List FileInfo) :
    listed (entries.foldlM (listEntry true capacity) infos) =
      infos ++ (((entries.takeWhile fun entry => entry.first != 0).filter Entry.isShown).map fileInfo).take
        (capacity - infos.length) := by
  induction entries generalizing infos with
  | nil => simp [listed, pure, Except.pure]
  | cons entry entries ih =>
    rw [List.foldlM_cons]
    by_cases used : entry.first ≠ 0
    · rw [listEntry_shown used, List.takeWhile_cons_of_pos (by simpa using used)]
      by_cases shows : entry.isShown = true
      · rw [if_pos shows, List.filter_cons_of_pos shows]
        split
        next full =>
          rw [Nat.sub_eq_zero_of_le full, List.take_zero, List.append_nil]
          rfl
        next room =>
          change listed (entries.foldlM _ _) = _
          have more : capacity - infos.length = capacity - (infos ++ [fileInfo entry]).length + 1 := by
            rw [List.length_append, List.length_singleton]
            omega
          rw [ih, more, List.map_cons, List.take_succ_cons, List.append_assoc, List.singleton_append]
      · rw [if_neg shows, List.filter_cons_of_neg shows]
        exact ih infos
    · rw [listEntry, if_pos (not_not.mp used), List.takeWhile_cons_of_neg (by simpa using used)]
      simp [listed, bind, Except.bind]

theorem listed_sectors (sectors : List Nat) (infos : List FileInfo) :
    listed (sectors.foldlM (listSector v true capacity) infos) =
      listed (((sectors.takeWhile v.readable).flatMap fun lba => sectorEntries (v.content lba)).foldlM
        (listEntry true capacity) infos) := by
  induction sectors generalizing infos with
  | nil => rfl
  | cons lba sectors ih =>
    rw [List.foldlM_cons, listSector, readSector]
    by_cases read : v.readable lba = true
    · rw [if_pos read, List.takeWhile_cons_of_pos read, List.flatMap_cons, List.foldlM_append]
      dsimp only
      cases (sectorEntries (v.content lba)).foldlM (listEntry true capacity) infos with
      | error infos => rfl
      | ok infos => exact ih infos
    · rw [if_neg read, List.takeWhile_cons_of_neg read]
      rfl

/-- The listing of a directory that ends with its first cluster. -/
theorem listClusters_eq (inside : cluster < 0xFFF8) (last : 0xFFF8 ≤ fat16NextCluster v cluster)
    {steps : Nat}
    (enough : 2 ≤ steps) :
    listClusters steps v cluster capacity = .ok (((listedEntries v cluster).map fileInfo).take capacity) := by
  obtain ⟨steps, rfl⟩ : ∃ more, steps = more + 2 := ⟨steps - 2, by omega⟩
  have shows := (@listed_sectors v capacity (clusterSectors v.bpb cluster) []).trans (listed_entries _ [])
  rw [List.nil_append, List.length_nil, Nat.sub_zero] at shows
  unfold listedEntries
  rw [← shows, listClusters, iterate, listBody, if_pos inside]
  cases (clusterSectors v.bpb cluster).foldlM (listSector v true capacity) [] with
  | error infos => rfl
  | ok infos =>
    change iterate (listBody v capacity) (steps + 1) (fat16NextCluster v cluster, infos) = _
    rw [iterate, listBody, if_neg (Nat.not_lt.mpr last)]
    rfl

end Listing

/-! ### Creating -/

/-- Nothing is changed but the link of the cluster, its sectors and the 32 bytes of the slot. -/
def ChangesOnly (v v' : Volume) (slot : Slot) (cluster : Nat) : Prop :=
  ∀ lba, ∀ offset < 512, v'.content lba offset = v.content lba offset ∨ LinkByte v.bpb cluster lba offset ∨
    lba ∈ clusterSectors v.bpb cluster ∨
    lba = slot.lba ∧ slot.index * 32 ≤ offset ∧ offset < slot.index * 32 + 32

/-- The slot has an entry for a directory at the cluster, and the listing of the directory shows nothing. -/
def CreatedEmpty (v' : Volume) (slot : Slot) (name : Name) (cluster : Nat) : Prop :=
  let entry := entryAt (v'.content slot.lba) slot.index
  entry = ⟨name, 0x10, cluster, 0⟩ ∧
    ∀ capacity, ∃ enough, ∀ steps, enough ≤ steps → listFound steps v' capacity (some entry) = .ok []

/-- The slot is in a sector of a directory: not in one of the free cluster, nor in the one with its link. -/
structure Apart (v : Volume) (slot : Slot) (cluster : Nat) : Prop where
  tables : 0 < v.bpb.fatCount
  link : slot.lba ≠ fatLba v.bpb 0 cluster
  sectors : slot.lba ∉ clusterSectors v.bpb cluster

def DotsInside (v : Volume) (cluster : Nat) : Prop := v.bpb.sectorsPerCluster = 1 ∨ cluster = 2

/-- Outside the cluster, the entries that are written stand there already, or the slot is written over them. -/
def DotsStand (v : Volume) (slot : Slot) (cluster parent : Nat) : Prop :=
  slot.lba = dotLba v.bpb cluster ∨
    ∀ offset < 512, v.content (dotLba v.bpb cluster) offset = dotSector cluster parent offset

section Creating

variable {v v' : Volume} {steps parent cluster : Nat} {path name : Name} {slot : Slot}

theorem takeWhile_dotSector (cluster parent : Nat) (rest : List Entry) :
    ((sectorEntries (dotSector cluster parent) ++ rest).takeWhile fun entry => entry.first != 0).filter Entry.isShown =
      [] := by
  obtain ⟨later, parts⟩ : ∃ later, sectorEntries (dotSector cluster parent) =
      entryAt (dotSector cluster parent) 0 :: entryAt (dotSector cluster parent) 1 ::
        entryAt (dotSector cluster parent) 2 :: later := ⟨_, rfl⟩
  have own : (entryAt (dotSector cluster parent) 0).first = DOT := entry_first _ _
  have above : (entryAt (dotSector cluster parent) 1).first = DOT := entry_first _ _
  have last : (entryAt (dotSector cluster parent) 2).first = 0 := entry_first _ _
  rw [parts, List.cons_append, List.cons_append, List.cons_append, List.takeWhile_cons_of_pos (by rw [own]; decide),
    List.takeWhile_cons_of_pos (by rw [above]; decide), List.takeWhile_cons_of_neg (by rw [last]; decide),
    List.filter_cons_of_neg (by simp [Entry.isShown, own]), List.filter_cons_of_neg (by simp [Entry.isShown, above])]
  rfl

theorem dotLba_not_link (mounted : Mounted v) (free : freeCluster v = some cluster) (offset : Nat) :
    ¬LinkByte v.bpb cluster (dotLba v.bpb cluster) offset := by
  obtain ⟨low, high, within, -⟩ := freeCluster_eq free
  rintro ⟨table, below, same, -⟩
  have before := fatLba_lt below within
  rw [← same, dotLba_eq mounted low (by omega)] at before
  omega

variable (mounted : Mounted v) (created : fat16CreateRootDirectory steps v path = .ok v')
  (found : pathSlot steps v path true = .ok (parent, name, slot)) (free : freeCluster v = some cluster)

section

include created found free

/-- What a creation writes. -/
theorem created_eq : ∃ linked, fat16SetCluster v cluster 0xFFFF = some linked ∧
      v' = (linked.put (dotLba v.bpb cluster) (dotSector cluster parent)).put slot.lba
        (patch (v.content slot.lba) (slot.index * 32) (directoryEntry name cluster)) := by
  unfold fat16CreateRootDirectory at created
  rw [found, ok_bind] at created
  obtain ⟨-, -, created⟩ := bind_eq_ok_iff.mp created
  obtain ⟨⟨taken, linked⟩, allocated, created⟩ := bind_eq_ok_iff.mp created
  obtain ⟨same, first, given⟩ := Option.bind_eq_some_iff.mp (supplied_eq_ok_iff.mp allocated)
  obtain rfl : same = cluster := Option.some.inj (first.symm.trans free)
  obtain ⟨volume, set, given⟩ := Option.bind_eq_some_iff.mp given
  cases given
  refine ⟨linked, set, ?_⟩
  obtain ⟨⟨bpb, -⟩, -, -⟩ := next_setCluster (by decide) set
  obtain ⟨dots, written, created⟩ := bind_eq_ok_iff.mp created
  have last := supplied_eq_ok_iff.mp created
  have written := supplied_eq_ok_iff.mp written
  unfold writeSector at last written
  split at written
  next =>
    split at last
    next =>
      rw [← Option.some.inj last, ← Option.some.inj written, (pathSlot_eq found).2.sector, bpb]
    next => cases last
  next => cases written

theorem created_content :
    (v'.bpb = v.bpb ∧ v'.readable = v.readable) ∧
    v'.content slot.lba = patch (v.content slot.lba) (slot.index * 32) (directoryEntry name cluster) ∧
    (slot.lba ≠ dotLba v.bpb cluster → v'.content (dotLba v.bpb cluster) = dotSector cluster parent) ∧
    ∀ lba offset, lba ≠ slot.lba → lba ≠ dotLba v.bpb cluster → ¬LinkByte v.bpb cluster lba offset →
      v'.content lba offset = v.content lba offset := by
  obtain ⟨linked, set, rfl⟩ := created_eq created found free
  obtain ⟨⟨bpb, readable⟩, -, -⟩ := next_setCluster (by decide) set
  refine ⟨⟨bpb, readable⟩, put_content_self .., fun apart => ?_, fun lba offset slotApart dotsApart link => ?_⟩
  · rw [put_content_other apart.symm, put_content_self]
  · rw [put_content_other slotApart, put_content_other dotsApart, setCluster_content set link]

end

include mounted created found free

theorem changesOnly_iff :
    ChangesOnly v v' slot cluster ↔ DotsInside v cluster ∨ DotsStand v slot cluster parent := by
  obtain ⟨low, high, -, -⟩ := freeCluster_eq free
  obtain ⟨-, slotContent, dots, others⟩ := created_content created found free
  have inside := dotLba_mem_iff mounted low (by omega)
  constructor
  · intro only
    by_cases within : DotsInside v cluster
    · exact Or.inl within
    · refine Or.inr (or_iff_not_imp_left.mpr fun apart offset below => ?_)
      rcases only (dotLba v.bpb cluster) offset below with same | link | member | ⟨same, -⟩
      · rw [← same, dots apart]
      · exact absurd link (dotLba_not_link mounted free offset)
      · exact absurd (inside.mp member) within
      · exact absurd same.symm apart
  · intro kept lba offset below
    by_cases slotHere : lba = slot.lba
    · by_cases written : slot.index * 32 ≤ offset ∧ offset < slot.index * 32 + 32
      · exact Or.inr (Or.inr (Or.inr ⟨slotHere, written⟩))
      · refine Or.inl ?_
        rw [slotHere, slotContent, patch, directoryEntry_length (pathSlot_eq found).1, if_neg written]
    · by_cases dotsHere : lba = dotLba v.bpb cluster
      · rcases kept with within | same | stand
        · exact Or.inr (Or.inr (Or.inl (by rw [dotsHere]; exact inside.mpr within)))
        · exact absurd (dotsHere.trans same.symm) slotHere
        · refine Or.inl ?_
          rw [dotsHere, dots fun same => slotHere (dotsHere.trans same.symm), stand offset below]
      · by_cases link : LinkByte v.bpb cluster lba offset
        · exact Or.inr (Or.inl link)
        · exact Or.inl (others lba offset slotHere dotsHere link)

theorem listedEntries_inside (apart : Apart v slot cluster) (inside : DotsInside v cluster) :
    listedEntries v' cluster = [] := by
  obtain ⟨low, high, -, -⟩ := freeCluster_eq free
  obtain ⟨some, -, -⟩ := mounted_sized mounted
  obtain ⟨⟨bpb, -⟩, -, dots, -⟩ := created_content created found free
  have first := dotLba_eq_first mounted low (by omega) inside
  have here := dots fun same => apart.sectors (same ▸ (dotLba_mem_iff mounted low (by omega)).mpr inside)
  obtain ⟨count, more⟩ : ∃ count, v.bpb.sectorsPerCluster = count + 1 := ⟨_, (Nat.succ_pred_eq_of_pos some).symm⟩
  have sectors : ∃ later, clusterSectors v'.bpb cluster = dotLba v.bpb cluster :: later := by
    rw [bpb, clusterSectors, more, List.range_succ_eq_map, List.map_cons, first]
    exact ⟨_, rfl⟩
  obtain ⟨later, sectors⟩ := sectors
  unfold listedEntries
  rw [sectors]
  by_cases read : v'.readable (dotLba v.bpb cluster) = true
  · rw [List.takeWhile_cons_of_pos read, List.flatMap_cons, here]
    exact takeWhile_dotSector cluster parent _
  · rw [List.takeWhile_cons_of_neg read]
    rfl

theorem listedEntries_outside (apart : Apart v slot cluster) (outside : ¬DotsInside v cluster) :
    listedEntries v' cluster = listedEntries v cluster := by
  obtain ⟨low, high, within, -⟩ := freeCluster_eq free
  obtain ⟨⟨bpb, readable⟩, -, -, others⟩ := created_content created found free
  have same (lba : Nat) (member : lba ∈ clusterSectors v.bpb cluster) :
      sectorEntries (v'.content lba) = sectorEntries (v.content lba) := by
    refine sectorEntries_congr fun offset _ => others lba offset ?_ ?_ ?_
    · exact fun here => apart.sectors (here ▸ member)
    · exact fun here => outside ((dotLba_mem_iff mounted low (by omega)).mp (here ▸ member))
    · rintro ⟨table, below, here, -⟩
      have before := fatLba_lt below within
      have behind := ((mem_clusterSectors mounted low (by omega)).mp member).1
      omega
  unfold listedEntries
  rw [bpb, readable]
  congr 2
  exact List.flatMap_congr fun lba member => same lba (List.takeWhile_subset _ member)

theorem created_last (apart : Apart v slot cluster) : fat16NextCluster v' cluster = 0xFFFF := by
  obtain ⟨low, high, within, -⟩ := freeCluster_eq free
  obtain ⟨linked, set, rfl⟩ := created_eq created found free
  obtain ⟨⟨bpb, -⟩, -, last⟩ := next_setCluster (by decide) set
  rw [← last apart.tables]
  have before := fatLba_lt apart.tables within
  have dots : dotLba v.bpb cluster ≠ fatLba linked.bpb 0 cluster := by
    rw [bpb, dotLba_eq mounted low (by omega)]
    omega
  have link : slot.lba ≠ fatLba linked.bpb 0 cluster := by
    rw [bpb]
    exact apart.link
  refine (next_put ?_).trans (next_put dots)
  exact link

theorem createdEmpty_iff (apart : Apart v slot cluster) :
    CreatedEmpty v' slot name cluster ↔ listedEntries v' cluster = [] := by
  obtain ⟨low, high, -, -⟩ := freeCluster_eq free
  obtain ⟨length, -⟩ := pathSlot_eq found
  obtain ⟨-, slotContent, -, -⟩ := created_content created found free
  have entry : entryAt (v'.content slot.lba) slot.index = ⟨name, 0x10, cluster, 0⟩ := by
    rw [slotContent, entryAt_patch _ _ (directoryEntry_length length cluster), entryAt_directoryEntry length (by omega)]
  have last : 0xFFF8 ≤ fat16NextCluster v' cluster := by
    rw [created_last mounted created found free apart]
    decide
  have shows (capacity steps : Nat) (enough : 2 ≤ steps) :
      listFound steps v' capacity (some ⟨name, 0x10, cluster, 0⟩) =
        .ok (((listedEntries v' cluster).map fileInfo).take capacity) := by
    have bit : ((0x10 : UInt8) &&& 0x10 != 0) = true := by decide
    have directory : (⟨name, 0x10, cluster, 0⟩ : Entry).isDirectory = true := bit
    rw [listFound, if_pos directory]
    exact listClusters_eq (by omega) last enough
  unfold CreatedEmpty
  rw [entry]
  constructor
  · rintro ⟨-, empty⟩
    obtain ⟨enough, ends⟩ := empty 1
    have none := ends (max enough 2) (Nat.le_max_left _ _)
    rw [shows 1 _ (Nat.le_max_right _ _)] at none
    cases entries : listedEntries v' cluster with
    | nil => rfl
    | cons entry entries =>
      rw [entries] at none
      cases none
  · intro none
    refine ⟨rfl, fun capacity => ⟨2, fun steps enough => ?_⟩⟩
    rw [shows capacity steps enough, none, List.map_nil, List.take_nil]

/-- A creation changes nothing else just if the dots are inside or stand already. It leaves an empty directory too
if they are inside, or if the cluster has shown nothing before. -/
theorem creation_kept_iff :
    (ChangesOnly v v' slot cluster ↔ DotsInside v cluster ∨ DotsStand v slot cluster parent) ∧
    (Apart v slot cluster → (ChangesOnly v v' slot cluster ∧ CreatedEmpty v' slot name cluster ↔
      DotsInside v cluster ∨ DotsStand v slot cluster parent ∧ listedEntries v cluster = [])) := by
  have only := changesOnly_iff mounted created found free
  refine ⟨only, fun apart => ?_⟩
  rw [only, createdEmpty_iff mounted created found free apart]
  by_cases inside : DotsInside v cluster
  · exact iff_of_true ⟨Or.inl inside, listedEntries_inside mounted created found free apart inside⟩ (Or.inl inside)
  · rw [or_iff_right inside, or_iff_right inside, listedEntries_outside mounted created found free apart inside]

end Creating

/-! ### Two sectors for each cluster -/

def twoBoot : Memory
  | 12 => 2 | 13 => 2 | 14 => 1 | 16 => 1 | 17 => 16 | 22 => 1
  | _ => 0

/-- A file has the two sectors of cluster 2. The root directory is in sector 2. -/
def twoVolume : Volume where
  bpb := ⟨2, 1, 1, 16, 1⟩
  content := fun
    | 1 => fun i => if i = 4 ∨ i = 5 then 0xFF else 0
    | 2 => fun i => if i = 0 then 0x46 else if 1 ≤ i ∧ i < 11 then SPACE else if i = 11 then 0x20 else
      if i = 26 then 2 else if i = 29 then 4 else 0
    | _ => fun _ => 0x55
  readable := fun lba => decide (lba < 64)
  writable := fun lba => decide (lba < 64)

theorem ok_of_isOk {α : Type} {run : Run α} (ends : run.isOk = true) : ∃ value, run = .ok value := by
  cases run with
  | error stop => cases ends
  | ok value => exact ⟨value, rfl⟩

theorem twoVolume_place (slot : Slot) {parent : Nat} {name : Name}
    (found : pathSlot 1 twoVolume [SLASH, 0x44] true = .ok (parent, name, slot)) : slot.lba = 2 := by
  have place : (pathSlot 1 twoVolume [SLASH, 0x44] true).toOption.map (fun s => s.2.2.lba) = some 2 := by
    decide +kernel
  rw [found] at place
  exact Option.some.inj place

theorem twoVolume_apart {slot : Slot} (place : slot.lba = 2) : Apart twoVolume slot 3 where
  tables := by decide
  link := by rw [place]; decide
  sectors := by rw [place]; decide

theorem creation_kept_iff_two : ∃ v' parent name slot,
    fat16CreateRootDirectory 1 twoVolume [SLASH, 0x44] = .ok v' ∧
    (ChangesOnly twoVolume v' slot 3 ↔ DotsInside twoVolume 3 ∨ DotsStand twoVolume slot 3 parent) ∧
    Apart twoVolume slot 3 ∧ (ChangesOnly twoVolume v' slot 3 ∧ CreatedEmpty v' slot name 3 ↔
      DotsInside twoVolume 3 ∨ DotsStand twoVolume slot 3 parent ∧ listedEntries twoVolume 3 = []) := by
  obtain ⟨v', created⟩ := @ok_of_isOk _ (fat16CreateRootDirectory 1 twoVolume [SLASH, 0x44]) (by decide +kernel)
  obtain ⟨⟨parent, name, slot⟩, found⟩ := @ok_of_isOk _ (pathSlot 1 twoVolume [SLASH, 0x44] true) (by decide +kernel)
  have apart := twoVolume_apart (twoVolume_place slot found)
  have free : freeCluster twoVolume = some 3 := by decide +kernel
  obtain ⟨only, kept⟩ := creation_kept_iff ⟨twoBoot, rfl⟩ created found free
  exact ⟨v', parent, name, slot, created, only, apart, kept apart⟩

/-- The second sector of the file is lost. -/
theorem creation_lost : ¬∀ (v v' : Volume) (steps parent cluster : Nat) (path name : Name)
    (slot : Slot), Mounted v →
    fat16CreateRootDirectory steps v path = .ok v' →
    pathSlot steps v path true = .ok (parent, name, slot) →
    freeCluster v = some cluster → ChangesOnly v v' slot cluster ∧
    CreatedEmpty v' slot name cluster := by
  intro all
  obtain ⟨v', created⟩ := @ok_of_isOk _ (fat16CreateRootDirectory 1 twoVolume [SLASH, 0x44]) (by decide +kernel)
  obtain ⟨⟨parent, name, slot⟩, found⟩ := @ok_of_isOk _ (pathSlot 1 twoVolume [SLASH, 0x44] true) (by decide +kernel)
  have mounted : Mounted twoVolume := ⟨twoBoot, rfl⟩
  have free : freeCluster twoVolume = some 3 := by decide +kernel
  have only := (all _ _ _ _ _ _ _ _ mounted created found free).1
  have lba := twoVolume_place slot found
  rcases (changesOnly_iff mounted created found free).mp only with inside | same | stand
  · exact absurd inside (not_or.mpr ⟨by decide, by decide⟩)
  · rw [lba] at same
    exact absurd same (by decide)
  · have first : (0x55 : UInt8) = DOT := stand 0 (by decide)
    exact absurd first (by decide)

end AsasOs.Fat16
