import AsasOs.Fat16.Creation

/-!
# Removing a directory

A directory is removed if one sector, counted in clusters, has nothing in its entries from the third on. The other
sectors of its chain are not looked at. The chain is freed then, whatever is left in it.

## Main results

- `Freeing.visit`: the invariant of `fat16_free_chain`, and a round of it.
- `freed`, `freeChain_ok`: every cluster of a chain is freed, if its links can be written.
- `removal_kept_iff`: when only empty directories are removed.
- `removal_single`: a directory of one sector is looked at as a whole.
- `removal_lost`: a file in the second sector of a cluster.
-/
namespace AsasOs.Fat16

open Bytes Checked

/-! ### Chains -/

/-- A cluster whose link is followed and freed. -/
def IsCluster (cluster : Nat) : Prop := 2 ≤ cluster ∧ cluster < 0xFFF8

instance (cluster : Nat) : Decidable (IsCluster cluster) := inferInstanceAs (Decidable (_ ∧ _))

/-- The clusters along the links from the first one on. -/
inductive InChain (v : Volume) (first : Nat) : Nat → Prop
  | first (inside : IsCluster first) : InChain v first first
  | next {cluster : Nat} (before : InChain v first cluster) (inside : IsCluster (fat16NextCluster v cluster)) :
      InChain v first (fat16NextCluster v cluster)

/-- The link of a cluster can be written in every table. -/
def Accessible (v : Volume) (cluster : Nat) : Prop :=
  ∀ table < v.bpb.fatCount, v.readable (fatLba v.bpb table cluster) = true ∧
    v.writable (fatLba v.bpb table cluster) = true

/-- What is fixed while links are written. -/
structure SameDevice (v v' : Volume) : Prop where
  bpb : v'.bpb = v.bpb
  readable : v'.readable = v.readable
  writable : v'.writable = v.writable

section Chains

variable {v v' w : Volume} {first cluster here : Nat}

theorem setCluster_same {value : Nat} (set : fat16SetCluster v cluster value = some v') :
    SameDevice v v' := by
  have tables (rest : List Nat) {v : Volume} (set : rest.foldlM (setLink cluster value) v = some v') :
      SameDevice v v' := by
    induction rest generalizing v with
    | nil =>
      cases set
      exact ⟨rfl, rfl, rfl⟩
    | cons table rest ih =>
      rw [List.foldlM_cons] at set
      obtain ⟨middle, first, set⟩ := Option.bind_eq_some_iff.mp set
      obtain ⟨-, rfl⟩ := setLink_eq first
      obtain ⟨bpb, readable, writable⟩ := ih set
      exact ⟨bpb, readable, writable⟩
  exact tables _ set

theorem setLink_isSome_iff {value table : Nat} : (setLink cluster value v table).isSome ↔
    v.readable (fatLba v.bpb table cluster) = true ∧ v.writable (fatLba v.bpb table cluster) = true := by
  unfold setLink readSector writeSector
  cases v.readable (fatLba v.bpb table cluster) with
  | false => simp
  | true =>
    cases v.writable (fatLba v.bpb table cluster) with
    | false => simp
    | true => simp

theorem setCluster_isSome_iff {value : Nat} : (fat16SetCluster v cluster value).isSome ↔
    Accessible v cluster := by
  have tables (rest : List Nat) (v : Volume) : (rest.foldlM (setLink cluster value) v).isSome ↔
      ∀ table ∈ rest, v.readable (fatLba v.bpb table cluster) = true ∧
        v.writable (fatLba v.bpb table cluster) = true := by
    induction rest generalizing v with
    | nil => simp
    | cons table rest ih =>
      rw [List.foldlM_cons, List.forall_mem_cons, ← @setLink_isSome_iff v cluster value table]
      cases set : setLink cluster value v table with
      | none => exact iff_of_false nofun fun all => Bool.false_ne_true all.1
      | some middle =>
        obtain ⟨-, rfl⟩ := setLink_eq set
        exact (ih _).trans (and_iff_right rfl).symm
  refine (tables _ v).trans (forall_congr' fun table => ?_)
  rw [List.mem_range]

theorem next_setCluster_other {value : Nat} (set : fat16SetCluster v cluster value = some v')
    (within : here < v.bpb.sectorsPerFat * 256) (other : here ≠ cluster) :
    fat16NextCluster v' here = fat16NextCluster v here := by
  obtain ⟨bpb, readable, -⟩ := setCluster_same set
  have link (offset : Nat) (low : here * 2 % 512 ≤ offset) (high : offset < here * 2 % 512 + 2) :
      v'.content (fatLba v.bpb 0 here) offset = v.content (fatLba v.bpb 0 here) offset := by
    refine setCluster_content set ?_
    rintro ⟨table, -, same, from', upTo⟩
    unfold fatLba at same
    cases table with
    | zero => omega
    | succ table =>
      -- The sectors of the other tables are behind those of the first one.
      have behind : v.bpb.sectorsPerFat ≤ (table + 1) * v.bpb.sectorsPerFat := Nat.le_mul_of_pos_left _ (by omega)
      omega
  unfold fat16NextCluster readSector
  rw [bpb, readable]
  split
  next sector same =>
    split at same
    next read =>
      rw [if_pos read]
      cases same
      exact wordAt_congr link
    next => cases same
  next none =>
    split at none
    next => cases none
    next unread => rw [if_neg unread]

end Chains

/-! ### Freeing a chain -/

/-- The links of a chain are in the table. -/
def Within (v : Volume) (first : Nat) : Prop :=
  0 < v.bpb.fatCount ∧ ∀ cluster, InChain v first cluster → cluster < v.bpb.sectorsPerFat * 256

/-- What holds while the chain from `first` on is freed: the clusters in `visited` are free, and the others are linked
as in the beginning. -/
structure Freeing (v : Volume) (first : Nat) (w : Volume) (here : Nat) (visited : Nat → Prop) : Prop where
  same : SameDevice v w
  free : ∀ cluster, InChain v first cluster → visited cluster → fat16NextCluster w cluster = 0 ∧ Accessible v cluster
  linked : ∀ cluster, InChain v first cluster → ¬visited cluster → fat16NextCluster w cluster = fat16NextCluster v cluster
  closed : ∀ cluster, InChain v first cluster → visited cluster → IsCluster (fat16NextCluster v cluster) →
    visited (fat16NextCluster v cluster) ∨ fat16NextCluster v cluster = here
  next : IsCluster here → InChain v first here
  begun : visited first ∨ first = here

section Freeing

variable {v v' w w' : Volume} {first cluster here steps : Nat} {visited : Nat → Prop}

theorem Freeing.accessible (freeing : Freeing v first w here visited) :
    Accessible w cluster ↔ Accessible v cluster := by
  unfold Accessible
  rw [freeing.same.bpb, freeing.same.readable, freeing.same.writable]

/-- A round: the cluster is visited, and the loop goes on with its link. -/
theorem Freeing.visit (within : Within v first) (freeing : Freeing v first w here visited)
    (inside : IsCluster here)
    (set : fat16SetCluster w here 0 = some w') :
    Freeing v first w' (fat16NextCluster w here) (fun cluster => visited cluster ∨ cluster = here) := by
  obtain ⟨bpb, readable, writable⟩ := setCluster_same set
  have member := freeing.next inside
  have others (cluster : Nat) (inChain : InChain v first cluster) (other : cluster ≠ here) :
      fat16NextCluster w' cluster = fat16NextCluster w cluster := by
    refine next_setCluster_other set ?_ other
    rw [freeing.same.bpb]
    exact within.2 cluster inChain
  have cleared : fat16NextCluster w' here = 0 := by
    obtain ⟨-, -, clears⟩ := next_setCluster (by decide) set
    refine clears ?_
    rw [freeing.same.bpb]
    exact within.1
  constructor
  case same =>
    exact ⟨bpb.trans freeing.same.bpb, readable.trans freeing.same.readable, writable.trans freeing.same.writable⟩
  case free =>
    intro cluster inChain seen
    by_cases same : cluster = here
    · subst same
      refine ⟨cleared, freeing.accessible.mp ((@setCluster_isSome_iff w cluster 0).mp ?_)⟩
      rw [set]
      rfl
    · rw [others cluster inChain same]
      exact freeing.free cluster inChain (seen.resolve_right same)
  case linked =>
    intro cluster inChain unseen
    obtain ⟨before, other⟩ := not_or.mp unseen
    rw [others cluster inChain other]
    exact freeing.linked cluster inChain before
  case closed =>
    intro cluster inChain seen isCluster
    by_cases before : visited cluster
    · rcases freeing.closed cluster inChain before isCluster with visited | same
      · exact Or.inl (Or.inl visited)
      · exact Or.inl (Or.inr same)
    · -- The cluster is the one of this round.
      obtain rfl : cluster = here := seen.resolve_left before
      exact Or.inr (freeing.linked cluster inChain before).symm
  case next =>
    intro isCluster
    by_cases before : visited here
    · rw [(freeing.free here member before).1] at isCluster
      exact absurd isCluster (by decide)
    · rw [freeing.linked here member before] at isCluster ⊢
      exact member.next isCluster
  case begun =>
    exact Or.inl (freeing.begun.imp_right id)

theorem Freeing.all (freeing : Freeing v first w here visited) (outside : ¬IsCluster here)
    (member : InChain v first cluster) : visited cluster := by
  induction member with
  | first inside =>
    rcases freeing.begun with visited | rfl
    · exact visited
    · exact absurd inside outside
  | next before inside ih =>
    rcases freeing.closed _ before ih inside with visited | same
    · exact visited
    · exact absurd (same ▸ inside) outside

theorem Freeing.begin (first : Nat) (v : Volume) : Freeing v first v first fun _ => False where
  same := ⟨rfl, rfl, rfl⟩
  free := fun _ _ none => none.elim
  linked := fun _ _ _ => rfl
  closed := fun _ _ none => none.elim
  next := .first
  begun := Or.inr rfl

theorem freeBody_inside (inside : IsCluster here) :
    freeBody (w, here) = supplied (fat16SetCluster w here 0) >>= fun w' => pure (.inl (w', fat16NextCluster w here)) :=
  if_pos inside

theorem freeBody_outside (outside : ¬IsCluster here) :
    freeBody (w, here) = .ok (.inr w) := if_neg outside

theorem Freeing.ended (within : Within v first) (freeing : Freeing v first w here visited)
    (ended : iterate freeBody steps (w, here) = .ok v') (member : InChain v first cluster) :
    fat16NextCluster v' cluster = 0 ∧ Accessible v cluster := by
  induction steps generalizing w here visited with
  | zero => cases ended
  | succ steps ih =>
    rw [iterate] at ended
    by_cases inside : IsCluster here
    · rw [freeBody_inside inside] at ended
      cases set : fat16SetCluster w here 0 with
      | none =>
        rw [set] at ended
        cases ended
      | some w' =>
        rw [set] at ended
        exact ih (freeing.visit within inside set) ended
    · rw [freeBody_outside inside] at ended
      cases ended
      exact freeing.free cluster member (freeing.all inside member)

theorem Freeing.goesOn (within : Within v first)
    (access : ∀ cluster, InChain v first cluster → Accessible v cluster)
    (freeing : Freeing v first w here visited)
    (settled : iterate freeBody steps (w, here) ≠ .error .endless) :
    ∃ v', iterate freeBody steps (w, here) = .ok v' := by
  induction steps generalizing w here visited with
  | zero => exact absurd rfl settled
  | succ steps ih =>
    rw [iterate] at settled ⊢
    by_cases inside : IsCluster here
    · rw [freeBody_inside inside] at settled ⊢
      have some : (fat16SetCluster w here 0).isSome :=
        setCluster_isSome_iff.mpr (freeing.accessible.mpr (access here (freeing.next inside)))
      obtain ⟨w', set⟩ := Option.isSome_iff_exists.mp some
      rw [set] at settled ⊢
      exact ih (freeing.visit within inside set) settled
    · rw [freeBody_outside inside]
      exact ⟨w, rfl⟩

theorem freed (within : Within v first) (ended : fat16FreeChain steps v first = .ok v')
    (member : InChain v first cluster) : fat16NextCluster v' cluster = 0 ∧ Accessible v cluster :=
  (Freeing.begin first v).ended within ended member

theorem freeChain_ok (within : Within v first)
    (access : ∀ cluster, InChain v first cluster → Accessible v cluster) :
    ∃ enough, ∀ steps, enough ≤ steps → ∃ v', fat16FreeChain steps v first = .ok v' := by
  obtain ⟨enough, settled⟩ := freeChain_terminates within.1 first
  exact ⟨enough, fun steps more => (Freeing.begin first v).goesOn within access (settled steps more)⟩

end Freeing

/-! ### Removing -/

/-- An entry for something: not free, and not one of the dots. -/
def Entry.isLive (entry : Entry) : Bool := !entry.isFree && entry.first != DOT

/-- No sector of a cluster of the chain has an entry for something. -/
def HoldsNothing (v : Volume) (first : Nat) : Prop :=
  ∀ cluster, InChain v first cluster → ∀ lba ∈ clusterSectors v.bpb cluster,
    ∀ entry ∈ sectorEntries (v.content lba), entry.isLive = false

def ChainFree (v v' : Volume) (first : Nat) : Prop :=
  ∀ cluster, InChain v first cluster → fat16NextCluster v' cluster = 0

/-- An entry for something lies where the removal does not look: it is in a sector of the chain, and not one of
the entries from the third on of the sector that is looked at. -/
def Overlooks (v : Volume) (first : Nat) : Prop :=
  ∃ cluster, InChain v first cluster ∧ ∃ lba ∈ clusterSectors v.bpb cluster, ∃ i < 16,
    (entryAt (v.content lba) i).isLive = true ∧ ¬(lba = dotLba v.bpb first ∧ 2 ≤ i)

/-- The sector that is looked at has a used entry behind the first two. -/
def SeenUsed (v : Volume) (first : Nat) : Prop :=
  ((sectorEntries (v.content (dotLba v.bpb first))).drop 2).all Entry.isFree = false

/-- The slot is one of a directory, and the device does what a removal needs. -/
structure Removable (v : Volume) (slot : Slot) : Prop where
  directory : slot.entry.isDirectory = true ∧ ¬slot.entry.firstCluster < 2
  looked : v.readable (dotLba v.bpb slot.entry.firstCluster) = true
  written : v.writable slot.lba = true
  links : ∀ cluster, InChain v slot.entry.firstCluster cluster → Accessible v cluster

/-- The links of the chain are in the table, and the slot is not there. -/
structure Intact (v : Volume) (slot : Slot) : Prop where
  within : Within v slot.entry.firstCluster
  apart : ∀ cluster, InChain v slot.entry.firstCluster cluster → slot.lba ≠ fatLba v.bpb 0 cluster

section Removing

variable {v v' : Volume} {steps parent first : Nat} {path name : Name} {slot : Slot}

theorem mem_sectorEntries {sector : Memory} {entry : Entry} :
    entry ∈ sectorEntries sector ↔ ∃ i < 16, entryAt sector i = entry := by
  simp [sectorEntries]

/-- If no used entry is seen, entries for something are there only where the removal does not look. -/
theorem holdsNothing_iff (unseen : ¬SeenUsed v first) : HoldsNothing v first ↔ ¬Overlooks v first := by
  rw [SeenUsed, Bool.not_eq_false, List.all_eq_true] at unseen
  constructor
  · rintro holds ⟨cluster, member, lba, sector, i, few, live, -⟩
    rw [holds cluster member lba sector _ (mem_sectorEntries.mpr ⟨i, few, rfl⟩)] at live
    cases live
  · intro nowhere cluster member lba sector entry inside
    obtain ⟨i, few, rfl⟩ := mem_sectorEntries.mp inside
    by_contra live
    rw [Bool.not_eq_false] at live
    refine nowhere ⟨cluster, member, lba, sector, i, few, live, ?_⟩
    rintro ⟨here, behind⟩
    rw [← here] at unseen
    -- it would be one of those that were seen
    have seen : entryAt (v.content lba) i ∈ (sectorEntries (v.content lba)).drop 2 := by
      have behindDots : (List.range 16).drop 2 = List.range' 2 14 := rfl
      rw [sectorEntries, ← List.map_drop, behindDots]
      exact List.mem_map_of_mem (List.mem_range'_1.mpr ⟨behind, few⟩)
    rw [Entry.isLive, unseen _ seen] at live
    cases live

/-- In a directory of one sector that begins with the dots nothing is overlooked. -/
theorem removal_single (single : v.bpb.sectorsPerCluster = 1)
    (ends : ¬IsCluster (fat16NextCluster v first))
    (dots : ∀ i < 2, (entryAt (v.content (dotLba v.bpb first)) i).isLive = false) :
    ¬Overlooks v first := by
  rintro ⟨cluster, member, lba, sector, i, -, live, outside⟩
  have only : cluster = first := by
    clear sector
    induction member with
    | first => rfl
    | next before inside ih =>
      rw [ih] at inside
      exact absurd inside ends
  subst only
  have here : lba = dotLba v.bpb cluster := by
    rw [clusterSectors, single] at sector
    obtain ⟨s, few, rfl⟩ := List.mem_map.mp sector
    obtain rfl : s = 0 := Nat.lt_one_iff.mp (List.mem_range.mp few)
    simp [clusterLba, dotLba, single]
  have early : i < 2 := by
    by_contra behind
    exact outside ⟨here, Nat.le_of_not_lt behind⟩
  rw [here, dots i early] at live
  cases live

theorem inChain_put {lba : Nat} {sector : Memory}
    (apart : ∀ cluster, InChain v first cluster → lba ≠ fatLba v.bpb 0 cluster) (cluster : Nat) :
    InChain (v.put lba sector) first cluster ↔ InChain v first cluster := by
  constructor
  · intro member
    induction member with
    | first inside => exact .first inside
    | next before inside ih =>
      rw [next_put (apart _ ih)] at inside ⊢
      exact ih.next inside
  · intro member
    induction member with
    | first inside => exact .first inside
    | @next cluster before inside ih =>
      have same := @next_put v lba sector cluster (apart _ before)
      rw [← same] at inside ⊢
      exact ih.next inside

theorem pathSlot_steady (v : Volume) (path : Name) (allowFree : Bool) :
    Steady fun steps => pathSlot steps v path allowFree := by
  refine steady_bind ?_ fun _ => steady_bind ?_ fun _ => steady_const _
  · refine steady_bind (steady_const _) fun _ => steady_bind (steady_const _) fun _ =>
      steady_bind (steady_const _) fun _ => ?_
    split
    next => exact steady_const _
    next =>
      exact steady_bind (steady_const _) fun _ => steady_bind (resolvePath_steady _) fun _ =>
        steady_bind (steady_const _) fun _ => steady_const _
  · exact steady_bind searchDirectory_steady (slotOr_steady allowFree)

theorem pathSlot_agree {steps' : Nat} {r r' : Nat × Name × Slot} {allowFree : Bool}
    (found : pathSlot steps v path allowFree = .ok r)
    (found' : pathSlot steps' v path allowFree = .ok r') :
    r' = r := by
  have settled : pathSlot steps' v path allowFree ≠ .error .endless := by
    rw [found']
    exact nofun
  have same : pathSlot steps' v path allowFree = .ok r := (pathSlot_steady v path allowFree).agree found settled
  rw [found'] at same
  exact Except.ok.inj same

theorem removed_iff (found : pathSlot steps v path false = .ok (parent, name, slot)) :
    fat16DeleteRootDirectory steps v path = .ok v' ↔
      (slot.entry.isDirectory = true ∧ ¬slot.entry.firstCluster < 2) ∧
      v.readable (dotLba v.bpb slot.entry.firstCluster) = true ∧ ¬SeenUsed v slot.entry.firstCluster ∧
      v.writable slot.lba = true ∧
      fat16FreeChain steps (v.put slot.lba (patch slot.sector (slot.index * 32) [0xE5])) slot.entry.firstCluster =
        .ok v' := by
  unfold fat16DeleteRootDirectory SeenUsed readSector writeSector
  rw [found, ok_bind]
  dsimp only
  rw [demand_bind_eq_ok_iff, supplied_bind_eq_ok_iff]
  refine and_congr_right fun _ => ?_
  by_cases read : v.readable (dotLba v.bpb slot.entry.firstCluster) = true
  · rw [and_iff_right read, if_pos read, Bool.not_eq_false]
    simp only [Option.some.injEq, exists_eq_left', demand_bind_eq_ok_iff, supplied_bind_eq_ok_iff]
    refine and_congr_right fun _ => ?_
    by_cases write : v.writable slot.lba = true
    · rw [if_pos write, and_iff_right write]
      simp only [Option.some.injEq, exists_eq_left']
    · rw [if_neg write]
      exact iff_of_false (by rintro ⟨_, none, -⟩; cases none) fun all => write all.1
  · rw [if_neg read]
    exact iff_of_false (by rintro ⟨_, none, -⟩; cases none) fun all => read all.1

/-- Only an empty directory is removed just if no entry for something is overlooked, a used entry is seen, or the
removal cannot be carried out. -/
theorem removal_kept_iff (found : pathSlot steps v path false = .ok (parent, name, slot))
    (intact : Intact v slot) :
    (∀ steps v', fat16DeleteRootDirectory steps v path = .ok v' →
      HoldsNothing v slot.entry.firstCluster ∧ ChainFree v v' slot.entry.firstCluster) ↔
    ¬Overlooks v slot.entry.firstCluster ∨ SeenUsed v slot.entry.firstCluster ∨ ¬Removable v slot := by
  have chain := @inChain_put v slot.entry.firstCluster slot.lba (patch slot.sector (slot.index * 32) [0xE5]) intact.apart
  have within : Within (v.put slot.lba (patch slot.sector (slot.index * 32) [0xE5])) slot.entry.firstCluster :=
    ⟨intact.within.1, fun cluster member => intact.within.2 cluster ((chain cluster).mp member)⟩
  constructor
  · intro kept
    by_contra none
    obtain ⟨overlooks, none⟩ := not_or.mp none
    obtain ⟨unseen, removable⟩ := not_or.mp none
    obtain ⟨directory, looked, written, links⟩ := not_not.mp removable
    -- Then the removal is carried out with enough steps.
    obtain ⟨enough, ends⟩ := freeChain_ok within fun cluster member => links cluster ((chain cluster).mp member)
    have settled : pathSlot steps v path false ≠ .error .endless := by
      rw [found]
      exact nofun
    have foundHere := (pathSlot_steady v path false _ _ (Nat.le_max_left steps enough) settled).trans found
    obtain ⟨v', freed⟩ := ends (max steps enough) (Nat.le_max_right _ _)
    have holds := (kept _ v' ((removed_iff foundHere).mpr ⟨directory, looked, unseen, written, freed⟩)).1
    exact overlooks ((holdsNothing_iff unseen).mp holds)
  · intro condition steps' v' removed
    obtain ⟨foundHere, found', -⟩ := bind_eq_ok_iff.mp removed
    have same := pathSlot_agree found found'
    rw [same] at found'
    obtain ⟨directory, looked, unseen, written, ended⟩ := (removed_iff found').mp removed
    have free (cluster : Nat) (member : InChain v slot.entry.firstCluster cluster) :=
      freed within ended ((chain cluster).mpr member)
    refine ⟨?_, fun cluster member => (free cluster member).1⟩
    rcases condition with nowhere | seen | refused
    · exact (holdsNothing_iff unseen).mpr nowhere
    · exact absurd seen unseen
    · exact absurd ⟨directory, looked, written, fun cluster member => (free cluster member).2⟩ refused

end Removing

/-! ### A file in the second sector -/

/-- The directory `D` has the two sectors of cluster 2. Its first sector has the dots and deleted entries, and the
second one has a file. -/
def fullVolume : Volume where
  bpb := ⟨2, 1, 1, 16, 1⟩
  content := fun
    | 1 => fun i => if i = 4 ∨ i = 5 then 0xFF else 0
    | 2 => fun i => if i = 0 then 0x44 else if 1 ≤ i ∧ i < 11 then SPACE else if i = 11 then 0x10 else
      if i = 26 then 2 else 0
    | 3 => fun i => if i = 0 ∨ i = 32 then DOT else 0xE5
    | _ => fun i => if i = 0 then 0x46 else 0
  readable := fun lba => decide (lba < 64)
  writable := fun lba => decide (lba < 64)

theorem fullVolume_slot : ∃ parent name slot, pathSlot 2 fullVolume [SLASH, 0x44] false =
    .ok (parent, name, slot) ∧
    slot.entry.firstCluster = 2 ∧ slot.lba = 2 := by
  have ends : (pathSlot 2 fullVolume [SLASH, 0x44] false).toOption.map
      (fun s => (s.2.2.entry.firstCluster, s.2.2.lba)) = some (2, 2) := by decide
  cases found : pathSlot 2 fullVolume [SLASH, 0x44] false with
  | error stop =>
    rw [found] at ends
    cases ends
  | ok result =>
    rw [found] at ends
    obtain ⟨parent, name, slot⟩ := result
    obtain ⟨cluster, lba⟩ := Prod.mk.inj (Option.some.inj ends)
    exact ⟨parent, name, slot, rfl, cluster, lba⟩

theorem fullVolume_chain {cluster : Nat} (member : InChain fullVolume 2 cluster) : cluster = 2 := by
  induction member with
  | first => rfl
  | next before inside ih =>
    rw [ih] at inside
    exact absurd inside (by decide)

theorem removal_kept_iff_full : ∃ slot, Intact fullVolume slot ∧
    ((∀ steps v', fat16DeleteRootDirectory steps fullVolume [SLASH, 0x44] = .ok v' →
      HoldsNothing fullVolume slot.entry.firstCluster ∧
      ChainFree fullVolume v' slot.entry.firstCluster) ↔
    ¬Overlooks fullVolume slot.entry.firstCluster ∨ SeenUsed fullVolume slot.entry.firstCluster ∨
      ¬Removable fullVolume slot) := by
  obtain ⟨parent, name, slot, found, first, lba⟩ := fullVolume_slot
  have intact : Intact fullVolume slot := by
    refine ⟨⟨by decide, fun cluster member => ?_⟩, fun cluster member => ?_⟩
    · rw [first] at member
      rw [fullVolume_chain member]
      decide
    · rw [first] at member
      rw [fullVolume_chain member, lba]
      decide
  exact ⟨slot, intact, removal_kept_iff found intact⟩

/-- The file is lost. -/
theorem removal_lost : ¬∀ (v : Volume) (steps parent : Nat) (path name : Name) (slot : Slot), Mounted v →
    pathSlot steps v path false = .ok (parent, name, slot) → ∀ steps v',
    fat16DeleteRootDirectory steps v path = .ok v' →
      HoldsNothing v slot.entry.firstCluster ∧ ChainFree v v' slot.entry.firstCluster := by
  intro all
  obtain ⟨parent, name, slot, found, first, -⟩ := fullVolume_slot
  have removes : (fat16DeleteRootDirectory 2 fullVolume [SLASH, 0x44]).isOk = true := by decide +kernel
  cases removed : fat16DeleteRootDirectory 2 fullVolume [SLASH, 0x44] with
  | error stop =>
    rw [removed] at removes
    cases removes
  | ok v' =>
    have holds := (all fullVolume 2 parent _ name slot ⟨twoBoot, rfl⟩ found 2 v' removed).1
    rw [first] at holds
    have file := holds 2 (.first (by decide)) 4 (by decide) (entryAt (fullVolume.content 4) 0)
      (List.mem_map_of_mem (by decide))
    exact absurd file (by decide)

end AsasOs.Fat16
