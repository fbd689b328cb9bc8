import AsasOs.Fat16.Volume
import AsasOs.Lib.Termination
import Mathlib.Data.Finset.Card

/-!
# Walks along clusters

The loops of `fat16.c` follow links until one is an end mark, or until a sector ends them. None of them counts. So a
walk along a cycle ends only if something in the cycle ends it.

## Main results

- `search_terminates_iff`, `listClusters_terminates_iff`: when the loops over a directory end.
- `freeChain_terminates`: a chain is freed whatever it leads to, as its links are cleared.
- `walks_end_iff`: when the calls of a mounted volume end.
- `walk_lost`: a directory whose last cluster links to itself.
-/
namespace AsasOs.Fat16

open Bytes Checked

/-- A sector of a cluster that ends a search: it cannot be read, or something is found in it. -/
def Stops {ρ : Type} (v : Volume) (look : Nat → Memory → Option ρ) (cluster : Nat) : Prop :=
  ∃ lba ∈ clusterSectors v.bpb cluster, v.readable lba = false ∨ (look lba (v.content lba)).isSome

/-- Along the links from a cluster on there is an end mark, or a cluster that stops the walk. -/
def WalkEnds (v : Volume) (stops : Nat → Prop) (cluster : Nat) : Prop :=
  ∃ n, 0xFFF8 ≤ (fat16NextCluster v)^[n] cluster ∨ stops ((fat16NextCluster v)^[n] cluster)

section Searches

variable {ρ : Type} {v : Volume} {look : Nat → Memory → Option ρ} {unread last : ρ} {cluster : Nat}

theorem firstIn_isSome (sectors : List Nat) : (firstIn v look unread sectors).isSome ↔
    ∃ lba ∈ sectors, v.readable lba = false ∨ (look lba (v.content lba)).isSome := by
  unfold firstIn
  rw [List.findSome?_isSome_iff]
  refine exists_congr fun lba => and_congr_right fun _ => ?_
  unfold readSector
  cases v.readable lba with
  | false => simp
  | true => simp

theorem search_terminates_iff : Terminates (fun steps => searchDirectory steps v look unread last cluster) ↔
    cluster = 0 ∨ WalkEnds v (Stops v look) cluster := by
  unfold searchDirectory
  by_cases root : cluster = 0
  · simp only [root, if_true, true_or, iff_true]
    exact terminates_const nofun
  · simp only [root, if_false, false_or]
    have walk := @walk_terminates_iff Nat ρ (clusterBody v look unread last)
      (fun cluster => cluster < 0xFFF8 ∧ ¬Stops v look cluster) (fat16NextCluster v) ?_ ?_ cluster
    · rw [walk]
      refine exists_congr fun n => ?_
      rw [not_and_or, not_not, Nat.not_lt]
    · rintro here ⟨inside, goesOn⟩
      have none : firstIn v look unread (clusterSectors v.bpb here) = none := by
        rw [← Option.not_isSome_iff_eq_none, firstIn_isSome]
        exact goesOn
      rw [clusterBody, if_pos inside, none]
      rfl
    · intro here ends
      unfold clusterBody
      split
      next inside =>
        have stops : (firstIn v look unread (clusterSectors v.bpb here)).isSome :=
          (firstIn_isSome _).mpr (by_contra fun goesOn => ends ⟨inside, goesOn⟩)
        obtain ⟨result, found⟩ := Option.isSome_iff_exists.mp stops
        rw [found]
        exact ⟨.ok result, nofun, rfl⟩
      next => exact ⟨.ok last, nofun, rfl⟩

theorem searchDirectory_steady : Steady fun steps => searchDirectory steps v look unread last cluster := by
  unfold searchDirectory
  split
  next => exact steady_const _
  next => exact steady_loop _ cluster

theorem supplied_settled {α : Type} (value : Option α) : supplied value ≠ .error .endless := by
  cases value with
  | none => exact nofun
  | some value => exact nofun

theorem findInDirectory_steady (name : Name) : Steady fun steps => findInDirectory steps v cluster name :=
  steady_bind searchDirectory_steady fun _ => steady_const _

theorem findInDirectory_terminates_iff (name : Name) :
    Terminates (fun steps => findInDirectory steps v cluster name) ↔
      cluster = 0 ∨ WalkEnds v (Stops v (lookEntry name)) cluster := by
  unfold findInDirectory
  rw [terminates_bind_const searchDirectory_steady, search_terminates_iff]
  exact and_iff_left fun found _ _ => supplied_settled found

theorem firstIn_eq_some {sectors : List Nat} {result : ρ}
    (found : firstIn v look unread sectors = some result) :
    result = unread ∨ ∃ lba, look lba (v.content lba) = some result := by
  obtain ⟨lba, -, given⟩ := List.exists_of_findSome?_eq_some found
  unfold readSector at given
  cases read : v.readable lba with
  | false =>
    rw [read] at given
    exact Or.inl (Option.some.inj given).symm
  | true =>
    rw [read] at given
    exact Or.inr ⟨lba, given⟩

theorem iterate_clusterBody {rounds : Nat} {result : ρ}
    (ended : iterate (clusterBody v look unread last) rounds cluster = .ok result) :
    (result = last ∧ ∃ n, 0xFFF8 ≤ (fat16NextCluster v)^[n] cluster) ∨ result = unread ∨
      ∃ lba, look lba (v.content lba) = some result := by
  induction rounds generalizing cluster with
  | zero => cases ended
  | succ rounds ih =>
    rw [iterate] at ended
    unfold clusterBody at ended
    by_cases inside : cluster < 0xFFF8
    · rw [if_pos inside] at ended
      cases found : firstIn v look unread (clusterSectors v.bpb cluster) with
      | some value =>
        rw [found] at ended
        cases ended
        exact Or.inr (firstIn_eq_some found)
      | none =>
        rw [found] at ended
        rcases ih ended with ⟨same, n, passed⟩ | other
        · exact Or.inl ⟨same, n + 1, passed⟩
        · exact Or.inr other
    · rw [if_neg inside] at ended
      cases ended
      exact Or.inl ⟨rfl, 0, by simpa using inside⟩

theorem searchDirectory_eq {steps : Nat} {result : ρ}
    (ended : searchDirectory steps v look unread last cluster = .ok result) :
    result = last ∨ result = unread ∨ ∃ lba, look lba (v.content lba) = some result := by
  unfold searchDirectory at ended
  split at ended
  next =>
    cases found : firstIn v look unread (rootSectors v.bpb) with
    | none =>
      rw [found] at ended
      cases ended
      exact Or.inl rfl
    | some value =>
      rw [found] at ended
      cases ended
      exact Or.inr (firstIn_eq_some found)
  next =>
    rcases iterate_clusterBody ended with ⟨same, -⟩ | other
    · exact Or.inl same
    · exact Or.inr other

theorem findFreeSlot_steady (allowFree : Bool) : Steady fun steps => findFreeSlot steps v cluster allowFree :=
  steady_bind (steady_const _) fun _ => steady_bind searchDirectory_steady fun _ => steady_const _

theorem slotOr_steady (allowFree : Bool) (found : Option (Option Slot)) :
    Steady fun steps => slotOr (findFreeSlot steps v cluster allowFree) found := by
  cases found with
  | some found => exact steady_const _
  | none => exact findFreeSlot_steady allowFree

theorem findDirectoryEntrySlot_terminates_iff (name : Name) (allowFree : Bool) :
    Terminates (fun steps => findDirectoryEntrySlot steps v cluster name allowFree) ↔
      cluster = 0 ∨ WalkEnds v (Stops v (lookNamed name)) cluster := by
  unfold findDirectoryEntrySlot
  rw [terminates_bind_iff searchDirectory_steady (slotOr_steady allowFree), search_terminates_iff]
  refine and_iff_left fun found steps given => ?_
  cases found with
  | some found => exact terminates_const (supplied_settled found)
  | none =>
    change Terminates fun steps => demand (allowFree = true) >>= fun _ => _
    by_cases allowed : allowFree = true
    · simp only [demand_holds allowed, ok_bind]
      rw [terminates_bind_const searchDirectory_steady, search_terminates_iff]
      refine ⟨?_, fun found _ _ => supplied_settled found⟩
      by_cases root : cluster = 0
      · exact Or.inl root
      · rw [searchDirectory, if_neg root] at given
        rcases iterate_clusterBody given with ⟨-, n, passed⟩ | unread | ⟨lba, found⟩
        · exact Or.inr ⟨n, Or.inl passed⟩
        · cases unread
        · obtain ⟨_, _, same⟩ := Option.map_eq_some_iff.mp found
          cases same
    · simp only [demand_fails allowed, error_bind]
      exact terminates_const nofun

end Searches

/-! ### Paths -/

def Finds (v : Volume) (cluster : Nat) (name : Name) (entry : Entry) : Prop :=
  ∃ steps, findInDirectory steps v cluster name = .ok entry

def LookupEnds (v : Volume) (cluster : Nat) (name : Name) : Prop :=
  cluster = 0 ∨ WalkEnds v (Stops v (lookEntry name)) cluster

/-- The lookups along a path end, from a directory on. -/
inductive PathEnds (v : Volume) : Name → Nat → Prop
  | ended {path : Name} {cluster : Nat}
      (refused : path = [] ∨ componentToName (path.takeWhile (· != SLASH)) = none) : PathEnds v path cluster
  | component {path name : Name} {cluster : Nat} (some : path ≠ [])
      (component : componentToName (path.takeWhile (· != SLASH)) = .some name) (ends : LookupEnds v cluster name)
      (later : ∀ entry slash rest, Finds v cluster name entry → path.dropWhile (· != SLASH) = slash :: rest →
        entry.isDirectory = true → rest ≠ [] → PathEnds v rest entry.firstCluster) : PathEnds v path cluster

section Paths

variable {v : Volume}

/-- What `resolve_path` does with an entry that it has found. -/
def resolveNext (path : Name) (entry : Entry) : Run ((Name × Nat) ⊕ Entry) :=
  match path.dropWhile (· != SLASH) with
  | [] => pure (.inr entry)
  | _ :: rest => do
    demand (entry.isDirectory = true)
    if rest = [] then pure (.inr entry) else pure (.inl (rest, entry.firstCluster))

theorem resolveNext_settled (path : Name) (entry : Entry) :
    resolveNext path entry ≠ .error .endless := by
  unfold resolveNext
  split
  next => exact nofun
  next =>
    unfold demand
    split
    next =>
      rw [ok_bind]
      split
      next => exact nofun
      next => exact nofun
    next => exact nofun

theorem resolveNext_eq {path : Name} {entry : Entry} {t : Name × Nat}
    (next : resolveNext path entry = .ok (.inl t)) :
    ∃ slash, path.dropWhile (· != SLASH) = slash :: t.1 ∧
      entry.isDirectory = true ∧ t.1 ≠ [] ∧ t.2 = entry.firstCluster := by
  unfold resolveNext at next
  split at next
  next => cases next
  next slash rest parts =>
    by_cases directory : entry.isDirectory = true
    · rw [demand_holds directory, ok_bind] at next
      split at next
      next => cases next
      next some =>
        cases next
        exact ⟨slash, parts, directory, some, rfl⟩
    · rw [demand_fails directory] at next
      cases next

theorem resolveNext_inl {path rest : Name} {slash : UInt8} {entry : Entry}
    (parts : path.dropWhile (· != SLASH) = slash :: rest) (directory : entry.isDirectory = true)
    (some : rest ≠ []) :
    resolveNext path entry = .ok (.inl (rest, entry.firstCluster)) := by
  unfold resolveNext
  rw [parts]
  dsimp only
  rw [demand_holds directory, ok_bind, if_neg some]
  rfl

theorem resolveBody_refused {steps : Nat} {path : Name} {cluster : Nat}
    (refused : path = [] ∨ componentToName (path.takeWhile (· != SLASH)) = none) :
    resolveBody steps v (path, cluster) = .error .refused := by
  unfold resolveBody
  dsimp only
  by_cases some : path = []
  · rw [demand_fails (not_not_intro some)]
    rfl
  · rw [demand_holds some, refused.resolve_left some]
    rfl

theorem resolveBody_eq {steps : Nat} {path name : Name} {cluster : Nat} (some : path ≠ [])
    (component : componentToName (path.takeWhile (· != SLASH)) = .some name) :
    resolveBody steps v (path, cluster) = findInDirectory steps v cluster name >>= resolveNext path := by
  unfold resolveBody
  dsimp only
  rw [demand_holds some, component, ok_bind]
  rfl

theorem resolveBody_steady (s : Name × Nat) : Steady fun steps => resolveBody steps v s := by
  obtain ⟨path, cluster⟩ := s
  by_cases refused : path = [] ∨ componentToName (path.takeWhile (· != SLASH)) = none
  · simp only [resolveBody_refused refused]
    exact steady_const _
  · obtain ⟨some, component⟩ := not_or.mp refused
    obtain ⟨name, component⟩ := Option.ne_none_iff_exists'.mp component
    simp only [resolveBody_eq some component]
    exact steady_bind (findInDirectory_steady name) fun _ => steady_const _

theorem resolve_terminates_iff (path : Name) (cluster : Nat) :
    Terminates (fun steps => iterate (resolveBody steps v) steps (path, cluster)) ↔ PathEnds v path cluster := by
  induction size : path.length using Nat.strong_induction_on generalizing path cluster with
  | _ total ih =>
  rw [terminates_iterate_iff resolveBody_steady]
  by_cases refused : path = [] ∨ componentToName (path.takeWhile (· != SLASH)) = none
  · simp only [resolveBody_refused refused]
    exact iff_of_true ⟨terminates_const nofun, nofun⟩ (.ended refused)
  · obtain ⟨some, component⟩ := not_or.mp refused
    obtain ⟨name, component⟩ := Option.ne_none_iff_exists'.mp component
    have shorter {slash : UInt8} {rest : Name} (parts : path.dropWhile (· != SLASH) = slash :: rest) :
        rest.length < total := by
      have within := (List.dropWhile_suffix (· != SLASH) (l := path)).length_le
      rw [parts, List.length_cons] at within
      omega
    simp only [resolveBody_eq some component]
    rw [terminates_bind_const (findInDirectory_steady name), findInDirectory_terminates_iff]
    constructor
    · rintro ⟨⟨ends, -⟩, after⟩
      refine .component some component ends fun entry slash rest ⟨steps, found⟩ parts directory more => ?_
      refine (ih _ (shorter parts) rest entry.firstCluster rfl).mp (after _ steps ?_)
      rw [found, ok_bind]
      exact resolveNext_inl parts directory more
    · intro ends
      cases ends with
      | ended refusedHere => exact absurd refusedHere refused
      | component _ also ends later =>
        rw [component] at also
        cases also
        refine ⟨⟨ends, fun entry _ _ => resolveNext_settled path entry⟩, fun t steps next => ?_⟩
        cases found : findInDirectory steps v cluster name with
        | error stop =>
          rw [found] at next
          cases next
        | ok entry =>
          rw [found, ok_bind] at next
          obtain ⟨slash, parts, directory, more, here⟩ := resolveNext_eq next
          obtain ⟨rest, other⟩ := t
          dsimp only at parts more here
          subst here
          exact (ih _ (shorter parts) rest _ rfl).mpr (later entry slash rest ⟨steps, found⟩ parts directory more)

end Paths

/-! ### Listing -/

/-- An entry that a listing of a directory shows. -/
def Entry.isShown (entry : Entry) : Bool :=
  !(entry.first == 0xE5 || entry.attributes == 0x0F || entry.attributes &&& 0x08 != 0 || entry.first == DOT)

def shown (v : Volume) (cluster : Nat) : List FileInfo :=
  (((clusterSectors v.bpb cluster).flatMap fun lba => sectorEntries (v.content lba)).filter Entry.isShown).map fileInfo

/-- A sector of a cluster cannot be read, or has the end of the directory. -/
def ListingStops (v : Volume) (cluster : Nat) : Prop :=
  ∃ lba ∈ clusterSectors v.bpb cluster, v.readable lba = false ∨ ∃ entry ∈ sectorEntries (v.content lba), entry.first = 0

/-- The entries from a number of clusters on, in their order. -/
def shownFrom (v : Volume) (cluster n : Nat) : List FileInfo :=
  (List.range n).flatMap fun k => shown v ((fat16NextCluster v)^[k] cluster)

/-- Along the links from a cluster on there is an end mark, a cluster that stops the listing, or one with an entry for
which there is no room. -/
def ListingEnds (v : Volume) (cluster capacity : Nat) : Prop :=
  ∃ n, let here := (fat16NextCluster v)^[n] cluster
    0xFFF8 ≤ here ∨ ListingStops v here ∨ shown v here ≠ [] ∧ capacity < (shownFrom v cluster (n + 1)).length

section Listing

variable {v : Volume} {capacity : Nat}

theorem listEntry_shown {infos : List FileInfo} {entry : Entry} (used : entry.first ≠ 0) :
    listEntry true capacity infos entry =
      if entry.isShown then if infos.length ≥ capacity then .error infos else .ok (infos ++ [fileInfo entry])
      else .ok infos := by
  unfold listEntry
  rw [if_neg used]
  have same : entry.isShown = true ↔ ¬(entry.first = 0xE5 ∨ entry.attributes = 0x0F ∨
      entry.attributes &&& 0x08 ≠ 0 ∨ (true = true ∧ entry.first = DOT)) := by
    simp [Entry.isShown, and_assoc]
  by_cases shows : entry.isShown = true
  · rw [if_neg (same.mp shows), if_pos shows]
  · rw [if_pos (not_not.mp (mt same.mpr shows)), if_neg shows]

variable {infos infos' : List FileInfo}

theorem listEntries_ok_iff {entries : List Entry} :
    entries.foldlM (listEntry true capacity) infos = .ok infos' ↔ (∀ entry ∈ entries, entry.first ≠ 0) ∧
      infos' = infos ++ (entries.filter Entry.isShown).map fileInfo ∧
      ((entries.filter Entry.isShown).map fileInfo ≠ [] → infos'.length ≤ capacity) := by
  induction entries generalizing infos with
  | nil => simp [pure, Except.pure, eq_comm]
  | cons entry entries ih =>
    rw [List.foldlM_cons, List.forall_mem_cons]
    by_cases used : entry.first ≠ 0
    · rw [listEntry_shown used]
      by_cases shows : entry.isShown = true
      · rw [if_pos shows, List.filter_cons_of_pos shows]
        split
        next full =>
          refine iff_of_false nofun ?_
          rintro ⟨-, rfl, fits⟩
          have room := fits (List.cons_ne_nil _ _)
          simp only [List.map_cons, List.length_append, List.length_cons] at room
          omega
        next room =>
          change entries.foldlM _ _ = _ ↔ _
          rw [ih, List.map_cons, List.append_assoc, List.singleton_append]
          refine and_congr (and_iff_right used).symm (and_congr_right fun same => ?_)
          constructor
          · intro fits _
            by_cases none : (entries.filter Entry.isShown).map fileInfo = []
            · rw [same, none, List.length_append, List.length_singleton]
              omega
            · exact fits none
          · exact fun fits _ => fits (List.cons_ne_nil _ _)
      · rw [if_neg shows, List.filter_cons_of_neg shows]
        change entries.foldlM _ infos = _ ↔ _
        rw [ih, and_iff_right used]
    · rw [listEntry, if_pos (not_not.mp used)]
      exact iff_of_false nofun fun all => used all.1.1

theorem listSector_ok_iff {lba : Nat} :
    listSector v true capacity infos lba = .ok infos' ↔ v.readable lba = true ∧
      (sectorEntries (v.content lba)).foldlM (listEntry true capacity) infos = .ok infos' := by
  unfold listSector readSector
  cases v.readable lba with
  | false => simp
  | true => simp

theorem listSectors_ok_iff {sectors : List Nat} :
    sectors.foldlM (listSector v true capacity) infos = .ok infos' ↔
      (∀ lba ∈ sectors, v.readable lba = true ∧ ∀ entry ∈ sectorEntries (v.content lba), entry.first ≠ 0) ∧
      (sectors.flatMap fun lba => sectorEntries (v.content lba)).foldlM (listEntry true capacity) infos = .ok infos' := by
  induction sectors generalizing infos with
  | nil => simp
  | cons lba sectors ih =>
    rw [List.foldlM_cons, List.flatMap_cons, List.foldlM_append, List.forall_mem_cons]
    cases step : listSector v true capacity infos lba with
    | error stop =>
      refine iff_of_false nofun ?_
      rintro ⟨⟨⟨read, -⟩, -⟩, listed⟩
      cases here : (sectorEntries (v.content lba)).foldlM (listEntry true capacity) infos with
      | error stop =>
        rw [here] at listed
        cases listed
      | ok some =>
        rw [listSector_ok_iff.mpr ⟨read, here⟩] at step
        cases step
    | ok some =>
      obtain ⟨read, here⟩ := listSector_ok_iff.mp step
      change sectors.foldlM _ some = _ ↔ _
      rw [ih, here]
      have used := (listEntries_ok_iff.mp here).1
      exact and_congr_left fun _ => (and_iff_right ⟨read, used⟩).symm

theorem listCluster_ok_iff {cluster : Nat} :
    (clusterSectors v.bpb cluster).foldlM (listSector v true capacity) infos = .ok infos' ↔
      ¬ListingStops v cluster ∧ infos' = infos ++ shown v cluster ∧
      (shown v cluster ≠ [] → infos'.length ≤ capacity) := by
  rw [listSectors_ok_iff, listEntries_ok_iff, ← and_assoc]
  refine and_congr ?_ Iff.rfl
  unfold ListingStops
  constructor
  · rintro ⟨all, -⟩ ⟨lba, member, unreadable | ⟨entry, here, last⟩⟩
    · rw [(all lba member).1] at unreadable
      cases unreadable
    · exact (all lba member).2 entry here last
  · intro goesOn
    have all (lba : Nat) (member : lba ∈ clusterSectors v.bpb cluster) :
        v.readable lba = true ∧ ∀ entry ∈ sectorEntries (v.content lba), entry.first ≠ 0 := by
      constructor
      · by_contra unreadable
        exact goesOn ⟨lba, member, Or.inl (Bool.eq_false_iff.mpr unreadable)⟩
      · exact fun entry here last => goesOn ⟨lba, member, Or.inr ⟨entry, here, last⟩⟩
    refine ⟨all, fun entry member => ?_⟩
    obtain ⟨lba, inside, here⟩ := List.mem_flatMap.mp member
    exact (all lba inside).2 entry here

theorem list_iterate (cluster n : Nat) :
    (fun s : Nat × List FileInfo => (fat16NextCluster v s.1, s.2 ++ shown v s.1))^[n] (cluster, []) =
      ((fat16NextCluster v)^[n] cluster, shownFrom v cluster n) := by
  induction n with
  | zero => rfl
  | succ n ih =>
    rw [Function.iterate_succ_apply', ih, Function.iterate_succ_apply', shownFrom, shownFrom, List.range_succ,
      List.flatMap_append, List.flatMap_singleton]

/-- When the loop of `fat16_list_directory` ends. -/
theorem listClusters_terminates_iff (cluster : Nat) :
    Terminates (fun steps => listClusters steps v cluster capacity) ↔ ListingEnds v cluster capacity := by
  unfold listClusters ListingEnds
  rw [@walk_terminates_iff _ _ (listBody v capacity)
    (fun s => s.1 < 0xFFF8 ∧ ¬ListingStops v s.1 ∧ (shown v s.1 ≠ [] → (s.2 ++ shown v s.1).length ≤ capacity))
    (fun s => (fat16NextCluster v s.1, s.2 ++ shown v s.1))]
  · refine exists_congr fun n => ?_
    rw [list_iterate, shownFrom, shownFrom, List.range_succ, List.flatMap_append, List.flatMap_singleton]
    dsimp only
    rw [not_and_or, not_and_or, not_not, Nat.not_lt, Classical.not_imp, Nat.not_le]
  · rintro ⟨here, infos⟩ ⟨inside, goesOn⟩
    rw [listBody, if_pos inside, listCluster_ok_iff.mpr ⟨goesOn.1, rfl, goesOn.2⟩]
    rfl
  · rintro ⟨here, infos⟩ ends
    unfold listBody
    split
    next inside =>
      cases listed : (clusterSectors v.bpb here).foldlM (listSector v true capacity) infos with
      | error infos' => exact ⟨.ok infos', nofun, rfl⟩
      | ok infos' =>
        obtain ⟨goesOn, rfl, fits⟩ := listCluster_ok_iff.mp listed
        exact absurd ⟨inside, goesOn, fits⟩ ends
    next => exact ⟨.ok infos, nofun, rfl⟩

end Listing

/-! ### Reading -/

section Reading

variable {v : Volume} {fileSize capacity : Nat}

theorem readSectors_grows {sectors : List Nat} {out out' : List UInt8}
    (read : readSectors v fileSize capacity sectors out = some out') : out.length ≤ out'.length := by
  induction sectors generalizing out with
  | nil =>
    cases read
    exact Nat.le_refl _
  | cons lba sectors ih =>
    unfold readSectors at read
    rw [List.foldlM_cons] at read
    obtain ⟨some, step, read⟩ := Option.bind_eq_some_iff.mp read
    have later := ih read
    split at step
    next =>
      obtain ⟨sector, -, rfl⟩ := Option.map_eq_some_iff.mp step
      rw [List.length_append] at later
      omega
    next =>
      cases step
      exact later

theorem readSectors_longer {lba : Nat} {sectors : List Nat} {out out' : List UInt8}
    (size : out.length < fileSize) (room : out.length < capacity)
    (read : readSectors v fileSize capacity (lba :: sectors) out = some out') :
    out.length < out'.length := by
  unfold readSectors at read
  rw [List.foldlM_cons, if_pos ⟨size, room⟩] at read
  obtain ⟨some, step, read⟩ := Option.bind_eq_some_iff.mp read
  obtain ⟨sector, -, rfl⟩ := Option.map_eq_some_iff.mp step
  have later := readSectors_grows read
  rw [List.length_append, window_length] at later
  omega

theorem read_terminates (mounted : Mounted v) (s : Nat × List UInt8) :
    Terminates fun steps => iterate (readBody v fileSize capacity) steps s := by
  refine measured_terminates (fun _ => True) (fun s => fileSize - s.2.length) (fun s _ => ?_) s trivial
  unfold readBody
  by_cases more : s.1 < 0xFFF8 ∧ s.2.length < fileSize ∧ s.2.length < capacity
  · rw [if_pos more]
    obtain ⟨inside, size, room⟩ := more
    cases read : readSectors v fileSize capacity (clusterSectors v.bpb s.1) s.2 with
    | none => exact ⟨nofun, nofun⟩
    | some out =>
      refine ⟨nofun, fun t next => ?_⟩
      cases next
      have longer : s.2.length < out.length := by
        obtain ⟨boot, accepted⟩ := mounted
        have some : 0 < v.bpb.sectorsPerCluster := by
          unfold fat16Initialize at accepted
          split at accepted
          next => cases accepted
          next valid =>
            rw [← Option.some.inj accepted]
            dsimp only
            omega
        cases sectors : clusterSectors v.bpb s.1 with
        | nil =>
          have count : (clusterSectors v.bpb s.1).length = v.bpb.sectorsPerCluster := by simp [clusterSectors]
          rw [sectors, List.length_nil] at count
          omega
        | cons lba sectors' =>
          rw [sectors] at read
          exact readSectors_longer size room read
      exact ⟨trivial, by dsimp only; omega⟩
  · rw [if_neg more]
    exact ⟨nofun, nofun⟩

end Reading

/-! ### Freeing -/

section Freeing

variable {v v' : Volume}

theorem setLink_eq {cluster value table : Nat} (set : setLink cluster value v table = some v') :
    v.readable (fatLba v.bpb table cluster) = true ∧ v' = v.put (fatLba v.bpb table cluster)
        (patch (v.content (fatLba v.bpb table cluster)) (cluster * 2 % 512) (digits 2 value)) := by
  unfold setLink readSector writeSector at set
  by_cases read : v.readable (fatLba v.bpb table cluster) = true
  · rw [if_pos read] at set
    obtain ⟨sector, same, set⟩ := Option.bind_eq_some_iff.mp set
    cases same
    split at set
    next => exact ⟨read, (Option.some.inj set).symm⟩
    next => cases set
  · rw [if_neg read] at set
    cases set

theorem next_setLink {cluster value table : Nat} (word : value < 2 ^ 16)
    (set : setLink cluster value v table = some v') :
    (∀ other, fat16NextCluster v' other = fat16NextCluster v other ∨ fat16NextCluster v' other = value) ∧
      (table = 0 → fat16NextCluster v' cluster = value) := by
  obtain ⟨read, rfl⟩ := setLink_eq set
  have written {other : Nat} (same : fatLba v.bpb 0 other = fatLba v.bpb table cluster)
      (place : other * 2 % 512 = cluster * 2 % 512) :
      fat16NextCluster (v.put (fatLba v.bpb table cluster)
        (patch (v.content (fatLba v.bpb table cluster)) (cluster * 2 % 512) (digits 2 value))) other = value := by
    unfold fat16NextCluster readSector Volume.put
    dsimp only
    rw [same, read, Function.update_self, place]
    exact (wordAt_patch _ _ _ _).trans (Nat.mod_eq_of_lt word)
  refine ⟨fun other => ?_, fun first => written (by rw [first]) rfl⟩
  by_cases same : fatLba v.bpb 0 other = fatLba v.bpb table cluster
  · by_cases place : other * 2 % 512 = cluster * 2 % 512
    · exact Or.inr (written same place)
    · refine Or.inl ?_
      unfold fat16NextCluster readSector Volume.put
      dsimp only
      rw [same, read, Function.update_self, if_pos rfl]
      dsimp only
      exact wordAt_patch_other (by rw [digits_length]; omega)
  · refine Or.inl ?_
    unfold fat16NextCluster readSector Volume.put
    dsimp only
    rw [Function.update_of_ne same]

theorem next_setCluster {cluster value : Nat} (word : value < 2 ^ 16)
    (set : fat16SetCluster v cluster value = some v') :
    (v'.bpb = v.bpb ∧ v'.readable = v.readable) ∧
      (∀ other, fat16NextCluster v' other = fat16NextCluster v other ∨ fat16NextCluster v' other = value) ∧
      (0 < v.bpb.fatCount → fat16NextCluster v' cluster = value) := by
  have tables (rest : List Nat) {v : Volume} (set : rest.foldlM (setLink cluster value) v = some v') :
      (v'.bpb = v.bpb ∧ v'.readable = v.readable) ∧
        (∀ other, fat16NextCluster v' other = fat16NextCluster v other ∨ fat16NextCluster v' other = value) ∧
        (0 ∈ rest → fat16NextCluster v' cluster = value) := by
    induction rest generalizing v with
    | nil =>
      cases set
      exact ⟨⟨rfl, rfl⟩, fun _ => Or.inl rfl, nofun⟩
    | cons table rest ih =>
      rw [List.foldlM_cons] at set
      obtain ⟨middle, first, set⟩ := Option.bind_eq_some_iff.mp set
      obtain ⟨⟨bpb, readable⟩, kept, last⟩ := ih set
      obtain ⟨keptFirst, wrote⟩ := next_setLink word first
      obtain ⟨-, same⟩ := setLink_eq first
      refine ⟨⟨by rw [bpb, same]; rfl, by rw [readable, same]; rfl⟩, fun other => ?_, fun member => ?_⟩
      · rcases kept other with keeps | sets
        · rw [keeps]
          exact keptFirst other
        · exact Or.inr sets
      · rcases List.mem_cons.mp member with here | later
        · rcases kept cluster with keeps | sets
          · rw [keeps, wrote here.symm]
          · exact sets
        · exact last later
  obtain ⟨fixed, kept, wrote⟩ := tables _ set
  exact ⟨fixed, kept, fun some => wrote (List.mem_range.mpr some)⟩

def linked (v : Volume) : Finset Nat := (Finset.range (2 ^ 16)).filter fun cluster => fat16NextCluster v cluster ≠ 0

/-- A chain is freed whatever it leads to: a link that the loop comes to again is zero by then. -/
theorem freeChain_terminates (tables : 0 < v.bpb.fatCount) (cluster : Nat) :
    Terminates fun steps => fat16FreeChain steps v cluster := by
  refine measured_terminates (fun s : Volume × Nat => 0 < s.1.bpb.fatCount)
    (fun s => 2 * (linked s.1).card + if 2 ≤ s.2 ∧ s.2 < 0xFFF8 then 1 else 0) ?_ (v, cluster) tables
  rintro ⟨v, cluster⟩ tables
  dsimp only at tables
  unfold freeBody
  by_cases inside : 2 ≤ cluster ∧ cluster < 0xFFF8
  · dsimp only
    rw [if_pos inside, if_pos inside]
    cases set : fat16SetCluster v cluster 0 with
    | none => exact ⟨nofun, nofun⟩
    | some v' =>
      refine ⟨nofun, fun t next => ?_⟩
      cases next
      obtain ⟨⟨bpb, -⟩, kept, cleared⟩ := next_setCluster (by decide) set
      refine ⟨by dsimp only; rw [bpb]; exact tables, ?_⟩
      have fewer : linked v' ⊆ linked v := by
        intro other member
        obtain ⟨range, some⟩ := Finset.mem_filter.mp member
        refine Finset.mem_filter.mpr ⟨range, ?_⟩
        rcases kept other with keeps | clears
        · rwa [keeps] at some
        · exact absurd clears some
      dsimp only
      by_cases last : fat16NextCluster v cluster = 0
      · have count := Finset.card_le_card fewer
        rw [last, if_neg (by decide)]
        omega
      · -- The cluster was linked, and is no more.
        have less : linked v' ⊂ linked v := by
          refine Finset.ssubset_iff_subset_ne.mpr ⟨fewer, fun same => ?_⟩
          have member : cluster ∈ linked v := Finset.mem_filter.mpr ⟨Finset.mem_range.mpr (by omega), last⟩
          rw [← same] at member
          exact (Finset.mem_filter.mp member).2 (cleared tables)
        have count := Finset.card_lt_card less
        split
        next => omega
        next => omega
  · dsimp only
    rw [if_neg inside]
    exact ⟨nofun, nofun⟩

theorem freeChain_terminates_iff (cluster : Nat) : Terminates (fun steps => fat16FreeChain steps v cluster) ↔
    0 < v.bpb.fatCount ∨ ∃ n, ¬(2 ≤ (fat16NextCluster v)^[n] cluster ∧ (fat16NextCluster v)^[n] cluster < 0xFFF8) := by
  by_cases tables : 0 < v.bpb.fatCount
  · exact iff_of_true (freeChain_terminates tables cluster) (Or.inl tables)
  · have none (here : Nat) : fat16SetCluster v here 0 = some v := by
      rw [fat16SetCluster, Nat.eq_zero_of_not_pos tables]
      rfl
    let body (here : Nat) : Run (Nat ⊕ Volume) :=
      if 2 ≤ here ∧ here < 0xFFF8 then .ok (.inl (fat16NextCluster v here)) else .ok (.inr v)
    -- The volume stays as it is along the walk.
    have same (rounds : Nat) (here : Nat) : iterate freeBody rounds (v, here) = iterate body rounds here := by
      induction rounds generalizing here with
      | zero => rfl
      | succ rounds ih =>
        rw [iterate, iterate, freeBody]
        dsimp only [body]
        by_cases inside : 2 ≤ here ∧ here < 0xFFF8
        · rw [if_pos inside, if_pos inside, none]
          exact ih _
        · rw [if_neg inside, if_neg inside]
          rfl
    rw [or_iff_right tables]
    simp only [fat16FreeChain, same]
    refine walk_terminates_iff (fun here inside => if_pos inside) (fun here outside => ?_) cluster
    exact ⟨.ok v, by rintro ⟨⟩, if_neg outside⟩

end Freeing

/-! ### Calls -/

/-- What is called on a mounted volume. A chain is freed from any cluster on, and a slot is searched in a directory
that begins at any cluster. -/
inductive Call where
  | lookUp (path : Name)
  | list (path : Name) (capacity : Nat)
  | read (path : Name) (capacity : Nat)
  | free (cluster : Nat)
  | slot (cluster : Nat) (name : Name) (allowFree : Bool)

/-- A call, without its result. -/
def Call.run (v : Volume) : Call → Nat → Run Unit
  | .lookUp path, steps => resolvePath steps v path >>= fun _ => .ok ()
  | .list path capacity, steps => fat16ListDirectory steps v path capacity >>= fun _ => .ok ()
  | .read path capacity, steps => fat16ReadFile steps v path capacity >>= fun _ => .ok ()
  | .free cluster, steps => fat16FreeChain steps v cluster >>= fun _ => .ok ()
  | .slot cluster name allowFree, steps => findDirectoryEntrySlot steps v cluster name allowFree >>= fun _ => .ok ()

def Resolves (v : Volume) (path : Name) (entry : Entry) :
    Prop := ∃ steps, resolvePath steps v path = .ok entry

def PathWalkEnds (v : Volume) (path : Name) : Prop := path.head? = some SLASH → PathEnds v path.tail 0

def Call.Ends (v : Volume) : Call → Prop
  | .lookUp path => PathWalkEnds v path
  | .list path capacity => path = [SLASH] ∨ PathWalkEnds v path ∧
      ∀ directory, Resolves v path directory → directory.isDirectory = true →
        ListingEnds v directory.firstCluster capacity
  | .read path _ => PathWalkEnds v path
  | .free cluster => 0 < v.bpb.fatCount ∨
      ∃ n, ¬(2 ≤ (fat16NextCluster v)^[n] cluster ∧ (fat16NextCluster v)^[n] cluster < 0xFFF8)
  | .slot cluster name _ => cluster = 0 ∨ WalkEnds v (Stops v (lookNamed name)) cluster

section Calls

variable {v : Volume}

theorem resolvePath_steady (path : Name) : Steady fun steps => resolvePath steps v path :=
  steady_bind (steady_const _) fun _ => steady_iterate resolveBody_steady _

theorem resolvePath_terminates_iff (path : Name) :
    Terminates (fun steps => resolvePath steps v path) ↔ PathWalkEnds v path := by
  unfold resolvePath PathWalkEnds
  by_cases rooted : path.head? = some SLASH
  · simp only [demand_holds rooted, ok_bind]
    rw [resolve_terminates_iff, forall_prop_of_true rooted]
  · simp only [demand_fails rooted, error_bind]
    exact iff_of_true (terminates_const nofun) fun same => absurd same rooted

theorem terminates_discard {α : Type} {run : Nat → Run α} (steady : Steady run) :
    Terminates (fun steps => run steps >>= fun _ => (.ok () : Run Unit)) ↔ Terminates run := by
  rw [terminates_bind_const steady]
  exact and_iff_left fun _ _ _ => nofun

theorem steady_tried {α : Type} {run : Nat → Run α} (steady : Steady run) : Steady fun steps => tried (run steps) := by
  intro n m more settled
  have same : run n ≠ .error .endless := by
    intro used
    dsimp only at settled
    rw [used] at settled
    exact settled rfl
  dsimp only
  rw [steady n m more same]

theorem listFound_steady (capacity : Nat) (found : Option Entry) :
    Steady fun steps => listFound steps v capacity found := by
  unfold listFound
  cases found with
  | none => exact steady_const _
  | some directory =>
    dsimp only
    split
    next => exact steady_loop _ _
    next => exact steady_const _

theorem terminates_tried {α : Type} {run : Nat → Run α} :
    Terminates (fun steps => tried (run steps)) ↔ Terminates run := by
  have same (run : Run α) : tried run ≠ .error .endless ↔ run ≠ .error .endless := by
    rcases run with (_ | _ | _) | value
    · simp [tried]
    · simp [tried]
    · simp [tried]
    · simp [tried]
  simp only [Terminates, same]

theorem tried_eq_some {α : Type} {run : Run α} {value : α} : tried run = .ok (some value) ↔
    run = .ok value := by
  rcases run with (_ | _ | _) | value
  · simp [tried]
  · simp [tried]
  · simp [tried]
  · simp [tried]

theorem listDirectory_terminates_iff (path : Name) (capacity : Nat) :
    Terminates (fun steps => fat16ListDirectory steps v path capacity) ↔ (Call.list path capacity).Ends v := by
  unfold fat16ListDirectory Call.Ends
  by_cases root : path = [SLASH]
  · simp only [if_pos root]
    exact iff_of_true (terminates_const nofun) (Or.inl root)
  · simp only [if_neg root]
    rw [or_iff_right root]
    rw [terminates_bind_iff (steady_tried (resolvePath_steady path)) (listFound_steady capacity), terminates_tried,
      resolvePath_terminates_iff]
    refine and_congr_right fun _ => ⟨fun all directory ⟨steps, resolved⟩ isDirectory => ?_, fun all found steps given => ?_⟩
    · have ends := all (some directory) steps (tried_eq_some.mpr resolved)
      simp only [listFound, if_pos isDirectory] at ends
      exact (listClusters_terminates_iff _).mp ends
    · cases found with
      | none => exact terminates_const nofun
      | some directory =>
        by_cases isDirectory : directory.isDirectory = true
        · simp only [listFound, if_pos isDirectory]
          exact (listClusters_terminates_iff _).mpr (all directory ⟨steps, tried_eq_some.mp given⟩ isDirectory)
        · simp only [listFound, if_neg isDirectory]
          exact terminates_const nofun

/-- A call on a mounted volume ends just if the walks that it takes do. -/
theorem walks_end_iff (mounted : Mounted v) (call : Call) : Terminates (call.run v) ↔ call.Ends v := by
  cases call with
  | lookUp path => exact (terminates_discard (resolvePath_steady path)).trans (resolvePath_terminates_iff path)
  | list path capacity =>
    refine (terminates_discard ?_).trans (listDirectory_terminates_iff path capacity)
    unfold fat16ListDirectory
    by_cases root : path = [SLASH]
    · simp only [if_pos root]
      exact steady_const _
    · simp only [if_neg root]
      exact steady_bind (steady_tried (resolvePath_steady path)) (listFound_steady capacity)
  | read path capacity =>
    have content (entry : Entry) : Steady fun steps => (demand (entry.isDirectory = false) >>= fun _ =>
        iterate (readBody v entry.size capacity) steps (entry.firstCluster, []) : Run (List UInt8)) :=
      steady_bind (steady_const _) fun _ => steady_loop _ _
    refine (terminates_discard (steady_bind (resolvePath_steady path) content)).trans ?_
    rw [terminates_bind_iff (resolvePath_steady path) content, resolvePath_terminates_iff]
    refine and_iff_left fun entry _ _ => ?_
    by_cases file : entry.isDirectory = false
    · simp only [demand_holds file, ok_bind]
      exact read_terminates mounted _
    · simp only [demand_fails file, error_bind]
      exact terminates_const nofun
  | free cluster => exact (terminates_discard (steady_loop _ _)).trans (freeChain_terminates_iff cluster)
  | slot cluster name allowFree =>
    refine (terminates_discard ?_).trans (findDirectoryEntrySlot_terminates_iff name allowFree)
    exact steady_bind searchDirectory_steady (slotOr_steady allowFree)

end Calls

/-! ### A cycle -/

/-- A volume with one sector per cluster, and the root directory in sector 2. -/
def smallBoot : Memory
  | 12 => 2 | 13 => 1 | 14 => 1 | 16 => 1 | 17 => 16 | 22 => 1
  | _ => 0

/-- The directory `D` begins at cluster 2, which links to itself and has deleted entries only. -/
def cycleVolume : Volume where
  bpb := ⟨1, 1, 1, 16, 1⟩
  content := fun
    | 1 => fun i => if i = 4 then 2 else 0
    | 2 => fun i => if i = 0 then 0x44 else if 1 ≤ i ∧ i < 11 then SPACE else if i = 11 then 0x10 else
      if i = 26 then 2 else 0
    | _ => fun _ => 0xE5
  readable := fun lba => decide (lba < 64)
  writable := fun lba => decide (lba < 64)

theorem walks_end_iff_cycle : Terminates ((Call.read [SLASH, 0x44] 1).run cycleVolume) ↔
    (Call.read [SLASH, 0x44] 1).Ends cycleVolume :=
  walks_end_iff ⟨smallBoot, rfl⟩ (.read [SLASH, 0x44] 1)

theorem cycle_next (n : Nat) : (fat16NextCluster cycleVolume)^[n] 2 = 2 :=
  Function.iterate_fixed (by decide) n

/-- No lookup in the directory ends. -/
theorem walk_lost : ¬∀ v, Mounted v → ∀ call : Call, Terminates (call.run v) := by
  intro all
  have lookUp := all cycleVolume ⟨smallBoot, rfl⟩ (.lookUp [SLASH, 0x44, SLASH, 0x58])
  have walk := (resolvePath_terminates_iff _).mp ((terminates_discard (resolvePath_steady _)).mp lookUp) rfl
  have found : firstIn cycleVolume (lookEntry (0x44 :: List.replicate 10 SPACE)) none (rootSectors cycleVolume.bpb) =
      some (some (entryAt (cycleVolume.content 2) 0)) := by decide +kernel
  have directory : (entryAt (cycleVolume.content 2) 0).isDirectory = true ∧
      (entryAt (cycleVolume.content 2) 0).firstCluster = 2 := by decide +kernel
  cases walk with
  | ended refused => exact absurd refused (by decide)
  | @component _ name _ _ component _ later =>
    have name : componentToName [0x44] = some (0x44 :: List.replicate 10 SPACE) := by decide
    cases name.symm.trans component
    have below := later (entryAt (cycleVolume.content 2) 0) SLASH [0x58] ⟨0, ?_⟩ rfl directory.1 (List.cons_ne_nil _ _)
    · rw [directory.2] at below
      cases below with
      | ended refused => exact absurd refused (by decide)
      | @component _ name _ _ component ends _ =>
        have name : componentToName [0x58] = some (0x58 :: List.replicate 10 SPACE) := by decide
        cases name.symm.trans component
        rcases ends with zero | ⟨n, last | ⟨lba, member, stops⟩⟩
        · exact absurd zero (by decide)
        · rw [cycle_next] at last
          exact absurd last (by decide)
        · rw [cycle_next] at member
          have sector : lba = 3 := List.mem_singleton.mp member
          subst sector
          exact absurd stops (by decide +kernel)
    · rw [findInDirectory, searchDirectory, if_pos rfl, found]
      rfl

end AsasOs.Fat16
