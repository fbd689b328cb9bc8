import AsasOs.Fat32.Accounting

/-!
# FAT32: runs of slots

`fat32_reserve_entries` takes the first slots of a directory that are free and next to each other, and makes the
directory longer if there are too few. It looks at 16 slots of every sector. That is all of them where a sector has
512 bytes; where it has more, the slots behind these are passed over, so that a run may have gaps at the ends of
sectors, and slots that were never used may be before it.

## Main results

- `reserve_scan`: the invariant of the walk over the slots.
- `extendLoop_grown`: what the directory is when it has been made longer.
- `reserved_iff_together`: which directories have a run that is joined, if sectors have more than sixteen slots.
- `reserves_iff`: when the slots are what they should be.
-/
namespace AsasOs.Fat32

open Block Bytes Prog Chains

/-! ### The slots of a directory -/

/-- The slots of a cluster, `count` of every sector. -/
def clusterSlots (context : Context) (count cluster : Nat) (sectors : List Nat) : List Position :=
  sectors.flatMap fun s => (List.range count).map fun e => ⟨context.clusterSector cluster s, 32 * e⟩

/-- The slots of a directory, in its order. -/
def directorySlots (context : Context) (count : Nat) (cells : List Nat) : List Position :=
  cells.flatMap fun cluster => clusterSlots context count cluster (List.range context.bpb.sectorsPerCluster)

def slotAt (medium : Nat → List UInt8) (position : Position) :
    Slot := slice (medium position.lba) position.offset 32

/-- A slot that is deleted or was never used. -/
def isFree (medium : Nat → List UInt8) (position : Position) : Bool :=
  (slotAt medium position).isEnd || (slotAt medium position).isDeleted

/-- Slots with what they hold. -/
def withSlots (medium : Nat → List UInt8) (positions : List Position) : List (Position × Slot) :=
  positions.map fun position => (position, slotAt medium position)

theorem zeros_end (size offset : Nat) : Slot.isEnd (slice (List.replicate size 0) offset 32) = true := by
  rw [slice, List.drop_replicate, List.take_replicate]
  cases min 32 (size - offset) <;> rfl

/-- The slots that were never used come after all others. -/
def UsedFirst (medium : Nat → List UInt8) (positions : List Position) : Prop :=
  ∃ used unused, positions = used ++ unused ∧ (∀ position ∈ used, (slotAt medium position).isEnd = false) ∧
    ∀ position ∈ unused, (slotAt medium position).isEnd = true

/-- A directory: its chain, and the slots in it. -/
structure WellFormedDirectory (context : Context) (v : Volume) (dirCluster : Nat) (cells : List Nat) : Prop where
  chain : Chain (v.link context) dirCluster cells
  order : UsedFirst v.medium (directorySlots context context.entriesPerSector cells)

/-! ### The walk -/

/-- Free slots next to each other, behind a slot that is none. -/
structure Trailing (medium : Nat → List UInt8) (front run : List Position) : Prop where
  free : ∀ position ∈ run, isFree medium position = true
  stop : ∀ position, front.getLast? = some position → isFree medium position = false

/-- As many slots as are needed are free from a place on. -/
structure FreeRun (medium : Nat → List UInt8) (needed : Nat) (slots : List Position) (place : Nat) : Prop where
  room : place + needed ≤ slots.length
  free : ∀ i, place ≤ i → i < place + needed → ∀ position, slots[i]? = some position → isFree medium position = true

/-- The first place of this kind. -/
structure FirstRun (medium : Nat → List UInt8) (needed : Nat) (slots : List Position) (place : Nat) : Prop where
  here : FreeRun medium needed slots place
  first : ∀ earlier < place, ¬FreeRun medium needed slots earlier

instance (medium : Nat → List UInt8) (needed : Nat) (slots : List Position) (place : Nat) :
    Decidable (FreeRun medium needed slots place) :=
  decidable_of_iff (place + needed ≤ slots.length ∧
      ∀ i < needed, (slots[place + i]?).all (isFree medium) = true) <| by
    constructor
    · rintro ⟨room, free⟩
      refine ⟨room, fun i low high position same => ?_⟩
      have here := free (i - place) (by omega)
      rwa [Nat.add_sub_cancel' low, same, Option.all_some] at here
    · rintro ⟨room, free⟩
      refine ⟨room, fun i below => ?_⟩
      cases same : slots[place + i]? with
      | none => rfl
      | some position => exact free _ (Nat.le_add_right _ _) (by omega) position same

instance (medium : Nat → List UInt8) (needed : Nat) (slots : List Position) (place : Nat) :
    Decidable (FirstRun medium needed slots place) :=
  decidable_of_iff (FreeRun medium needed slots place ∧ ∀ earlier < place, ¬FreeRun medium needed slots earlier)
    ⟨fun both => ⟨both.1, both.2⟩, fun first => ⟨first.here, first.first⟩⟩

section Scan

variable {medium : Nat → List UInt8} {needed place : Nat} {slots front run : List Position}

theorem FirstRun.unique {other : Nat} (first : FirstRun medium needed slots place)
    (second : FirstRun medium needed slots other) : other = place :=
  le_antisymm (le_of_not_gt fun later => second.first _ later first.here)
    (le_of_not_gt fun later => first.first _ later second.here)

/-- A run that ends before the slots behind does not depend on them. -/
theorem FreeRun.of_append {more : List Position} (run : FreeRun medium needed (slots ++ more) place)
    (ends : place + needed ≤ slots.length) : FreeRun medium needed slots place :=
  ⟨ends, fun i low high position same =>
    run.free i low high position (by rw [List.getElem?_append_left (by omega)]; exact same)⟩

/-- A slot that is not free, or that does not fill the run behind it, completes no run. -/
theorem Trailing.completes_none {position : Position} (trailing : Trailing medium front run)
    (none_ : ∀ place, ¬FreeRun medium needed (front ++ run) place)
    (used : isFree medium position = false ∨ run.length + 1 < needed) (positive : 0 < needed)
    (place : Nat) :
    ¬FreeRun medium needed (front ++ run ++ [position]) place := by
  intro found
  have room := found.room
  rw [List.length_append, List.length_append, List.length_singleton] at room
  by_cases inside : place + needed ≤ (front ++ run).length
  · exact none_ place (found.of_append inside)
  rw [List.length_append] at inside
  rcases used with taken | short
  · -- the last slot of the run is the new one
    have last := found.free (front ++ run).length (by rw [List.length_append]; omega)
      (by rw [List.length_append]; omega) position (List.getElem?_concat_length ..)
    rw [last] at taken
    cases taken
  · -- the run begins before the slot that stops the free ones
    cases ends : front.getLast? with
    | none =>
      rw [List.getLast?_eq_none_iff.mp ends, List.length_nil] at room
      omega
    | some other =>
      have nonempty : 0 < front.length := List.length_pos_of_mem (List.mem_of_getLast? ends)
      rw [List.getLast?_eq_getElem?] at ends
      have last := found.free (front.length - 1) (by omega) (by omega) other
        (by rw [List.append_assoc, List.getElem?_append_left (by omega), ends])
      rw [trailing.stop other (by rw [List.getLast?_eq_getElem?, ends])] at last
      cases last

/-- The run is that of the slots seen last, until it is long enough. Then it is the first one of its length. -/
theorem reserve_scan (positive : 0 < needed) (positions : List Position)
    (trailing : Trailing medium front run)
    (short : run.length < needed) (none_ : ∀ place, ¬FreeRun medium needed (front ++ run) place) :
    match visitAll (reserveVisit needed) (withSlots medium positions) run with
    | .inr run' => ∃ front' later, front ++ run ++ positions = front' ++ run' ++ later ∧
        Trailing medium front' run' ∧ run'.length = needed ∧
        ∀ place < front'.length, ¬FreeRun medium needed (front ++ run ++ positions) place
    | .inl run' => ∃ front', front ++ run ++ positions = front' ++ run' ∧ Trailing medium front' run' ∧
        run'.length < needed ∧ ∀ place, ¬FreeRun medium needed (front ++ run ++ positions) place := by
  induction positions generalizing front run with
  | nil => exact ⟨front, List.append_nil _, trailing, short, (List.append_nil (front ++ run)).symm ▸ none_⟩
  | cons position positions ih =>
    rw [withSlots, List.map_cons, visitAll, reserveVisit]
    by_cases free : isFree medium position = true
    · have longer : Trailing medium front (run ++ [position]) := by
        refine ⟨fun other member => ?_, trailing.stop⟩
        rcases List.mem_append.mp member with old | new
        · exact trailing.free other old
        · exact List.mem_singleton.mp new ▸ free
      have whole : front ++ run ++ position :: positions = front ++ (run ++ [position]) ++ positions := by simp
      unfold isFree at free
      simp only [if_pos free]
      by_cases full : (run ++ [position]).length = needed
      · simp only [if_pos full]
        refine ⟨front, positions, whole, longer, full, fun place early found => none_ place ?_⟩
        rw [List.length_append, List.length_singleton] at full
        exact found.of_append (by rw [List.length_append]; omega)
      · simp only [if_neg full]
        rw [List.length_append, List.length_singleton] at full
        have still := @Trailing.completes_none medium needed front run position trailing none_ (.inr (by omega)) positive
        rw [List.append_assoc] at still
        have rest := ih longer (by rw [List.length_append, List.length_singleton]; omega) still
        rwa [← whole] at rest
    · have again : Trailing medium (front ++ run ++ [position]) [] := by
        refine ⟨by rintro _ ⟨⟩, fun other last => ?_⟩
        rw [List.getLast?_concat] at last
        rwa [← Option.some.inj last, Bool.eq_false_iff]
      have whole : front ++ run ++ position :: positions = front ++ run ++ [position] ++ [] ++ positions := by simp
      have still := trailing.completes_none none_ (.inl (Bool.eq_false_iff.mpr free)) positive
      rw [← List.append_nil (front ++ run ++ [position])] at still
      unfold isFree at free
      simp only [if_neg free]
      have rest := ih again positive still
      rwa [← whole] at rest

theorem UsedFirst.sublist (order : UsedFirst medium slots) (sublist : front.Sublist slots) :
    UsedFirst medium front := by
  obtain ⟨used, unused, rfl, before, behind⟩ := order
  obtain ⟨early, late, rfl, inside, outside⟩ := List.sublist_append_iff.mp sublist
  exact ⟨early, late, rfl, fun position member => before position (inside.subset member),
    fun position member => behind position (outside.subset member)⟩

theorem Trailing.used {rest : List Position} (trailing : Trailing medium front run)
    (order : UsedFirst medium (front ++ rest)) :
    ∀ position ∈ front, (slotAt medium position).isEnd = false := by
  obtain ⟨used, unused, same, before, behind⟩ := order
  rcases List.append_eq_append_iff.mp same with ⟨more, rfl, -⟩ | ⟨more, rfl, rfl⟩
  · exact fun position member => before position (List.mem_append_left _ member)
  · intro position member
    rcases List.mem_append.mp member with early | late
    · exact before position early
    · have last := List.getLast_mem (List.ne_nil_of_mem late)
      have stop := trailing.stop (more.getLast (List.ne_nil_of_mem late))
        (by rw [List.getLast?_append_of_ne_nil _ (List.ne_nil_of_mem late), List.getLast?_eq_some_getLast])
      rw [isFree, behind _ (List.mem_append_left _ last)] at stop
      cases stop

end Scan

section Walk

variable {context : Context} {v : Volume} {cluster needed : Nat} {cells : List Nat} {σ ρ : Type}
  {visit : Visit σ ρ} {count : Nat} (wf : context.WellFormed)

include wf

theorem clusterEntries_eq (valid : context.dataClusterValid cluster = true) {sectors : List Nat}
    (inside : ∀ s ∈ sectors, s < context.bpb.sectorsPerCluster) :
    clusterEntries context (v.reads context.device) count cluster sectors =
      (withSlots v.medium (clusterSlots context count cluster sectors), true) := by
  induction sectors with
  | nil => rfl
  | cons s rest ih =>
    have here : v.reads context.device (context.clusterSector cluster s) =
        some (v.medium (context.clusterSector cluster s)) := by
      rw [Volume.reads, if_pos (clusterSector_inBounds wf valid (inside s List.mem_cons_self))]
    rw [clusterEntries, here, ih fun other member => inside other (List.mem_cons_of_mem _ member)]
    simp only [withSlots, clusterSlots, List.flatMap_cons, List.map_append, List.map_map]
    rfl

theorem walkSectors_run (valid : context.dataClusterValid cluster = true) (state : σ) :
    run (serve context.device)
        (walkSectors context visit count cluster (List.range context.bpb.sectorsPerCluster) state) v =
      (match visitAll visit (withSlots v.medium (directorySlots context count [cluster])) state with
        | .inr result => .found result cluster
        | .inl state => .ended state cluster cluster, v) := by
  rw [run_reading _ (reading_walkSectors _ _ _), eval_walkSectors,
    clusterEntries_eq wf valid fun _ member => List.mem_range.mp member, directorySlots, List.flatMap_singleton]
  rfl

omit wf in
theorem walkClusters_behind {hops last next : Nat}
    (invalid : context.dataClusterValid next = false) (state : σ) :
    run (serve context.device) (walkClusters context visit count hops last next state) v =
      (.ended state last next, v) := by
  cases hops with
  | zero => rfl
  | succ hops =>
    rw [walkClusters, if_neg (by rw [invalid]; exact Bool.false_ne_true)]
    rfl

theorem EOC_invalid : context.dataClusterValid FAT32_EOC = false := by
  have numbers := wf.numbers
  rw [← Bool.not_eq_true, Context.dataClusterValid_iff]
  unfold FAT32_EOC FAT32_RESERVED_START at *
  omega

theorem walkClusters_chain (chain : Chain (v.link context) cluster cells) {hops : Nat}
    (enough : cells.length ≤ hops)
    (last : Nat) (state : σ) :
    ∃ walk, run (serve context.device) (walkClusters context visit count hops last cluster state) v = (walk, v) ∧
      match visitAll visit (withSlots v.medium (directorySlots context count cells)) state with
      | .inr result => ∃ stop, walk = .found result stop
      | .inl state => ∃ front last next, cells = front ++ [last] ∧ walk = .ended state last next := by
  induction chain generalizing hops last state with
  | @last cluster ends =>
    obtain ⟨hops, rfl⟩ := Nat.exists_eq_add_of_le' enough
    have valid := (chain_valid (.last ends) List.mem_cons_self).1
    have step := chainAdvance_run wf v cluster
    rw [ends] at step
    rw [List.length_singleton, walkClusters, if_pos valid, Prog.run_bind, walkSectors_run wf valid]
    cases visitAll visit (withSlots v.medium (directorySlots context count [cluster])) state with
    | inr result => exact ⟨_, rfl, cluster, rfl⟩
    | inl state' =>
      simp only [Prog.run_bind]
      rw [show run _ (fat32ChainAdvance context cluster).run v = _ from step]
      exact ⟨_, walkClusters_behind (EOC_invalid wf) _, [], cluster, _, rfl, rfl⟩
  | @next cluster following cells linked rest ih =>
    obtain ⟨hops, rfl⟩ := Nat.exists_eq_add_of_le' enough
    have valid := (chain_valid (.next linked rest) List.mem_cons_self).1
    have step := chainAdvance_run wf v cluster
    rw [linked] at step
    have slots : directorySlots context count (cluster :: cells) =
        directorySlots context count [cluster] ++ directorySlots context count cells := by
      rw [directorySlots, List.flatMap_cons, directorySlots, List.flatMap_singleton, directorySlots]
    rw [slots, withSlots, List.map_append, visitAll_append, ← withSlots, ← withSlots, List.length_cons,
      ← Nat.add_assoc, walkClusters, if_pos valid, Prog.run_bind, walkSectors_run wf valid]
    cases visitAll visit (withSlots v.medium (directorySlots context count [cluster])) state with
    | inr result => exact ⟨_, rfl, cluster, rfl⟩
    | inl state' =>
      simp only [Prog.run_bind]
      rw [show run _ (fat32ChainAdvance context cluster).run v = _ from step]
      obtain ⟨walk, ran, outcome⟩ := ih (Nat.le_add_left _ hops) cluster state'
      refine ⟨walk, ran, ?_⟩
      split at outcome
      · exact outcome
      · obtain ⟨front, last, next, same, ended⟩ := outcome
        exact ⟨cluster :: front, last, next, by rw [same, List.cons_append], ended⟩

end Walk

/-! ### A longer directory -/

/-- A directory has got more clusters, which are zeroed. -/
structure Grown (context : Context) (dirCluster : Nat) (v v' : Volume) (cells added : List Nat) : Prop where
  chain : Chain (v'.link context) dirCluster (cells ++ added)
  sized : TableSized context v'.medium
  old : ∀ cell ∈ cells, ∀ s < context.bpb.sectorsPerCluster,
    v'.medium (context.clusterSector cell s) = v.medium (context.clusterSector cell s)
  zeroed : ∀ cell ∈ added, ∀ s < context.bpb.sectorsPerCluster,
    v'.medium (context.clusterSector cell s) = List.replicate context.sectorSize 0

/-- The volume behind a round that makes a directory longer. -/
def Volume.grow (context : Context) (v : Volume) (last free : Nat) : Volume :=
  ((v.take context free).setEntry context last free).clearCluster context free

section Extend

variable {context : Context} {v v' w : Volume} {dirCluster last free needed : Nat} {front cells added more : List Nat}

theorem Grown.refl (chain : Chain (v.link context) dirCluster cells)
    (sized : TableSized context v.medium) :
    Grown context dirCluster v v cells [] :=
  ⟨(List.append_nil cells).symm ▸ chain, sized, fun _ _ _ _ => rfl, nofun⟩

theorem Grown.trans (first : Grown context dirCluster v w cells added)
    (second : Grown context dirCluster w v' (cells ++ added) more) :
    Grown context dirCluster v v' cells (added ++ more) where
  chain := by
    rw [← List.append_assoc]
    exact second.chain
  sized := second.sized
  old := fun cell member s below =>
    (second.old cell (List.mem_append_left _ member) s below).trans (first.old cell member s below)
  zeroed := by
    intro cell member s below
    rcases List.mem_append.mp member with early | late
    · exact (second.old cell (List.mem_append_right _ early) s below).trans (first.zeroed cell early s below)
    · exact second.zeroed cell late s below

variable (wf : context.WellFormed)

include wf

theorem clusterSector_inj {cluster other s s' : Nat} (valid : context.dataClusterValid cluster = true)
    (valid' : context.dataClusterValid other = true) (below : s < context.bpb.sectorsPerCluster)
    (below' : s' < context.bpb.sectorsPerCluster)
    (same : context.clusterSector cluster s = context.clusterSector other s') : cluster = other := by
  rw [wf.clusterSector_eq valid below, wf.clusterSector_eq valid' below'] at same
  obtain ⟨low, -⟩ := Context.dataClusterValid_iff.mp valid
  obtain ⟨low', -⟩ := Context.dataClusterValid_iff.mp valid'
  have index : cluster - 2 = other - 2 := by
    rcases Nat.lt_trichotomy (cluster - 2) (other - 2) with before | here | behind
    · have room := Nat.mul_le_mul_right context.bpb.sectorsPerCluster (Nat.succ_le_of_lt before)
      rw [Nat.succ_mul] at room
      omega
    · exact here
    · have room := Nat.mul_le_mul_right context.bpb.sectorsPerCluster (Nat.succ_le_of_lt behind)
      rw [Nat.succ_mul] at room
      omega
  omega

theorem setEntry_data (valid : context.dataClusterValid last = true) {lba value : Nat}
    (data : context.dataStart ≤ lba) : (v.setEntry context last value).medium lba = v.medium lba := by
  refine Volume.setCopies_other fun copy member => ?_
  have inside := wf.fat_inside valid (List.mem_range.mp member)
  omega

theorem grow_other (valid : context.dataClusterValid free = true)
    (valid' : context.dataClusterValid last = true)
    {cell s : Nat} (here : context.dataClusterValid cell = true)
    (below : s < context.bpb.sectorsPerCluster)
    (apart : cell ≠ free) : (v.grow context last free).medium (context.clusterSector cell s) =
      v.medium (context.clusterSector cell s) := by
  have data := wf.clusterSector_data here below
  have outside : ¬∃ s' ∈ List.range context.bpb.sectorsPerCluster,
      context.clusterSector cell s = context.clusterSector free s' := by
    rintro ⟨s', member, same⟩
    exact apart (clusterSector_inj wf here valid below (List.mem_range.mp member) same)
  rw [Volume.grow, clearCluster_medium, if_neg outside, setEntry_data wf valid' data]
  exact (clearCluster_medium _ _).trans ((if_neg outside).trans (setEntry_data wf valid data))

theorem grown_grow (chain : Chain (v.link context) dirCluster (front ++ [last]))
    (sized : TableSized context v.medium)
    (valid : context.dataClusterValid free = true) (empty : entryOf context v.medium free = 0) :
    Grown context dirCluster v (v.grow context last free) (front ++ [last]) [free] := by
  have cells {cell : Nat} (member : cell ∈ front ++ [last]) := chain_valid chain member
  obtain ⟨valid', linked⟩ := cells (List.mem_append_right front List.mem_cons_self)
  have apart {cell : Nat} (member : cell ∈ front ++ [last]) : cell ≠ free :=
    fun same => (cells member).2 (same ▸ empty)
  have taken := take_sized wf valid sized
  have table : ∀ lba, context.fatStart ≤ lba → lba < context.dataStart → (v.grow context last free).medium lba =
      ((v.take context free).setEntry context last free).medium lba :=
    fun lba _ high => clearCluster_below wf valid _ high
  have entry {other : Nat} (here : context.dataClusterValid other = true) :
      entryOf context (v.grow context last free).medium other =
        if other = last then free % 2 ^ 28 else if other = free then FAT32_EOC_MARK
        else entryOf context v.medium other := by
    rw [entryOf_congr wf here table, Volume.entryOf_setEntry wf valid' here taken, entryOf_take wf valid sized here]
  have numbers := wf.numbers
  obtain ⟨low, high⟩ := Context.dataClusterValid_iff.mp valid
  unfold FAT32_RESERVED_START at numbers
  refine ⟨?_, fun lba low' high' => ?_, fun cell member s below => ?_, fun cell member s below => ?_⟩
  · refine chain.extend ?_ ?_ fun cell member => ?_
    · rw [Volume.link, linkAt, entry valid', if_pos rfl, Nat.mod_eq_of_lt (by omega), valid', valid,
        if_neg (by decide), if_neg (by unfold FAT32_EOC; omega), if_pos rfl]
    · rw [Volume.link, linkAt, entry valid, if_neg (apart (List.mem_append_right front List.mem_cons_self)).symm,
        if_pos rfl, valid, if_neg (by decide), if_pos (by decide)]
    · have inside := List.mem_append_left [last] member
      refine linkAt_congr ?_
      rw [entry (cells inside).1, if_neg, if_neg (apart inside)]
      rintro rfl
      exact (List.nodup_append.mp chain.nodup).2.2 _ member _ List.mem_cons_self rfl
  · rw [table lba low' high']
    exact Volume.setEntry_sized wf valid' taken lba low' high'
  · exact grow_other wf valid valid' (cells member).1 below (apart member)
  · rw [List.mem_singleton.mp member, Volume.grow, clearCluster_medium,
      if_pos ⟨s, List.mem_range.mpr below, rfl⟩]

theorem extendSectors_run (valid : context.dataClusterValid free = true)
    (writes : writable context.device = true)
    {sectors : List Nat} (inside : ∀ s ∈ sectors, s < context.bpb.sectorsPerCluster)
    (run : List Position) :
    runCode context.device (extendSectors context free needed sectors run) v =
      (some (run ++ (clusterSlots context 16 free sectors).take (needed - run.length)),
        sectors.foldl (fun v s => v.write (context.clusterSector free s) (List.replicate context.sectorSize 0)) v) := by
  induction sectors generalizing v run with
  | nil =>
    rw [clusterSlots, List.flatMap_nil, List.take_nil, List.append_nil]
    rfl
  | cons s rest ih =>
    have here := clusterSector_inBounds wf valid (inside s List.mem_cons_self)
    rw [extendSectors, runCode_bind_some (runCode_write _ _ |>.trans (if_pos (by rw [here, writes]; rfl))),
      ih fun other member => inside other (List.mem_cons_of_mem _ member)]
    refine Prod.ext (congrArg some ?_) rfl
    have slots : clusterSlots context 16 free (s :: rest) =
        ((List.range 16).map fun e => ⟨context.clusterSector free s, 32 * e⟩) ++ clusterSlots context 16 free rest :=
      List.flatMap_cons ..
    rw [slots, List.take_append, ← List.map_take, List.take_range, Nat.min_comm, List.append_assoc]
    simp only [List.length_append, List.length_map, List.length_range]
    congr 3
    omega

omit wf in
theorem clusterSlots_length (count : Nat) : (clusterSlots context count free
    (List.range context.bpb.sectorsPerCluster)).length = context.bpb.sectorsPerCluster * count := by
  simp [clusterSlots]

omit wf in
theorem directorySlots_append (count : Nat) (cells more : List Nat) :
    directorySlots context count (cells ++ more) =
    directorySlots context count cells ++ directorySlots context count more := List.flatMap_append

omit wf in
theorem extendLoop_full {run : List Position} (full : run.length = needed) (rounds : Nat) :
    runCode context.device (extendLoop context needed rounds last run) v = (some run, v) := by
  cases rounds with
  | zero => rfl
  | succ rounds =>
    rw [extendLoop, if_neg (by omega)]
    rfl

/-- What is added to the directory begins with what is missing of the run. -/
theorem extendLoop_grown {run positions : List Position} {rounds : Nat}
    (chain : Chain (v.link context) dirCluster (front ++ [last])) (sized : TableSized context v.medium)
    (short : run.length ≤ needed) (enough : needed ≤ run.length + rounds)
    (done : runCode context.device (extendLoop context needed rounds last run) v = (some positions, v')) :
    ∃ added more later, Grown context dirCluster v v' (front ++ [last]) added ∧ positions = run ++ more ∧
      positions.length = needed ∧ directorySlots context 16 added = more ++ later := by
  induction rounds generalizing v front last run with
  | zero =>
    have full : run.length = needed := by omega
    rw [extendLoop_full full] at done
    cases done
    exact ⟨[], [], [], .refl chain sized, (List.append_nil _).symm, full, rfl⟩
  | succ rounds ih =>
    by_cases full : run.length = needed
    · rw [extendLoop_full full] at done
      cases done
      exact ⟨[], [], [], .refl chain sized, (List.append_nil _).symm, full, rfl⟩
    rw [extendLoop, if_pos (by omega)] at done
    rcases allocateCluster_cases (v := v) wf with ⟨free, valid, empty, writes, ran⟩ | ran | ⟨-, ran⟩
    · have valid' := (chain_valid chain (List.mem_append_right front List.mem_cons_self)).1
      have grown := grown_grow wf chain sized valid empty
      rw [runCode_bind_some ran, runCode_observe, setCluster_run wf valid' writes] at done
      simp only at done
      rw [runCode_bind_some (extendSectors_run wf valid writes (fun _ member => List.mem_range.mp member) run)] at done
      change runCode _ _ (v.grow context last free) = _ at done
      have length : (clusterSlots context 16 free (List.range context.bpb.sectorsPerCluster)).length = _ :=
        clusterSlots_length 16
      have new : directorySlots context 16 [free] =
          clusterSlots context 16 free (List.range context.bpb.sectorsPerCluster) := List.flatMap_singleton ..
      rw [← new] at done length
      have room := wf.cluster
      by_cases fills : needed - run.length ≤ (directorySlots context 16 [free]).length
      · have filled : (run ++ (directorySlots context 16 [free]).take (needed - run.length)).length = needed := by
          rw [List.length_append, List.length_take]
          omega
        rw [extendLoop_full filled] at done
        cases done
        exact ⟨[free], _, _, grown, rfl, filled, (List.take_append_drop _ _).symm⟩
      · rw [List.take_of_length_le (by omega)] at done
        obtain ⟨added, more, later, grown', same, count, slots⟩ := ih grown.chain grown.sized
          (by rw [List.length_append]; omega) (by rw [List.length_append]; omega) done
        refine ⟨[free] ++ added, directorySlots context 16 [free] ++ more, later, grown.trans grown', ?_, count, ?_⟩
        · rw [same, List.append_assoc]
        · rw [directorySlots_append, slots, List.append_assoc]
    · rw [runCode_bind_none ran] at done
      cases done
    · rw [runCode_bind_none ran] at done
      cases done

end Extend

/-! ### The sectors of a directory -/

/-- The sectors of a directory, in its order. -/
def directorySectors (context : Context) (cells : List Nat) : List Nat :=
  cells.flatMap fun cluster => (List.range context.bpb.sectorsPerCluster).map (context.clusterSector cluster)

section Sectors

variable {context : Context} {v : Volume} {dirCluster count : Nat} {cells sectors : List Nat}

theorem sectors_length : (sectors.flatMap fun lba =>
    (List.range count).map fun e => (⟨lba, 32 * e⟩ : Position)).length = sectors.length * count := by
  simp

theorem sectors_get (positive : 0 < count) (i : Nat) : (sectors.flatMap fun lba =>
      (List.range count).map fun e => (⟨lba, 32 * e⟩ : Position))[i]? =
    (sectors[i / count]?).map fun lba => ⟨lba, 32 * (i % count)⟩ := by
  induction sectors generalizing i with
  | nil => rfl
  | cons lba sectors ih =>
    rw [List.flatMap_cons]
    by_cases early : i < count
    · rw [List.getElem?_append_left (by simpa using early), Nat.div_eq_of_lt early, Nat.mod_eq_of_lt early]
      simp [early]
    · have later : i = i - count + count := by omega
      rw [List.getElem?_append_right (by simpa using early), List.length_map, List.length_range, ih]
      conv_rhs => rw [later, Nat.add_div_right _ positive, Nat.add_mod_right]
      rfl

theorem directorySlots_sectors (count : Nat) (cells : List Nat) : directorySlots context count cells =
    (directorySectors context cells).flatMap fun lba =>
      (List.range count).map fun e => (⟨lba, 32 * e⟩ : Position) := by
  simp only [directorySlots, clusterSlots, directorySectors, List.flatMap_assoc, List.flatMap_map]

theorem directorySlots_length : (directorySlots context count cells).length =
    (directorySectors context cells).length * count := by
  rw [directorySlots_sectors, sectors_length]

theorem directorySlots_get (positive : 0 < count) (i : Nat) : (directorySlots context count cells)[i]? =
    ((directorySectors context cells)[i / count]?).map fun lba => ⟨lba, 32 * (i % count)⟩ := by
  rw [directorySlots_sectors, sectors_get positive]

/-- The slot at an offset of a sector. -/
theorem directorySlots_at {e : Nat} (below : e < count) (sector : Nat) :
    (directorySlots context count cells)[sector * count + e]? =
      ((directorySectors context cells)[sector]?).map fun lba => ⟨lba, 32 * e⟩ := by
  have positive : 0 < count := Nat.zero_lt_of_lt below
  rw [directorySlots_get positive, Nat.mul_comm sector, Nat.mul_add_div positive, Nat.div_eq_of_lt below, Nat.add_zero,
    Nat.mul_add_mod, Nat.mod_eq_of_lt below]

theorem directorySectors_nodup (wf : context.WellFormed)
    (chain : Chain (v.link context) dirCluster cells) :
    (directorySectors context cells).Nodup := by
  refine List.nodup_flatMap.mpr ⟨fun cluster member => ?_, ?_⟩
  · have valid := (chain_valid chain member).1
    refine List.Nodup.map_on (fun s below s' below' same => ?_) List.nodup_range
    rw [wf.clusterSector_eq valid (List.mem_range.mp below),
      wf.clusterSector_eq valid (List.mem_range.mp below')] at same
    omega
  · refine chain.nodup.imp_of_mem fun {cluster other} member member' apart => ?_
    intro lba here there
    obtain ⟨s, below, rfl⟩ := List.mem_map.mp here
    obtain ⟨s', below', same⟩ := List.mem_map.mp there
    exact apart (clusterSector_inj wf (chain_valid chain member).1 (chain_valid chain member').1
      (List.mem_range.mp below) (List.mem_range.mp below') same.symm)

theorem directorySlots_sublist {more : Nat} (enough : count ≤ more) (cells : List Nat) :
    (directorySlots context count cells).Sublist (directorySlots context more cells) := by
  rw [directorySlots_sectors, directorySlots_sectors]
  induction directorySectors context cells with
  | nil => exact .slnil
  | cons lba sectors ih =>
    rw [List.flatMap_cons, List.flatMap_cons]
    exact ((List.range_sublist.mpr enough).map _).append ih

theorem sixteen_le (wf : context.WellFormed) : 16 ≤ context.entriesPerSector := by
  have blocks := wf.blocks
  have sector := wf.sector
  unfold Context.entriesPerSector
  omega

end Sectors

/-! ### What is reserved -/

/-- The slots are as many as were asked for, next to each other and free in a directory that is the old one or a
longer one, and no slot before them was never used. -/
structure Reserved (context : Context) (v v' : Volume) (dirCluster : Nat) (cells : List Nat) (needed : Nat)
    (positions : List Position) : Prop where
  count : positions.length = needed
  placed : ∃ added before later, Grown context dirCluster v v' cells added ∧
    directorySlots context context.entriesPerSector (cells ++ added) = before ++ positions ++ later ∧
    (∀ position ∈ before, (slotAt v'.medium position).isEnd = false) ∧
    ∀ position ∈ positions, isFree v'.medium position = true

section Reserve

variable {context : Context} {v v' : Volume} {dirCluster needed count : Nat} {cells added : List Nat}
  {position : Position} {positions : List Position}

theorem mem_directorySlots (member : position ∈ directorySlots context count cells) :
    ∃ cell ∈ cells, ∃ s < context.bpb.sectorsPerCluster, position.lba =
    context.clusterSector cell s := by
  obtain ⟨cell, here, slots⟩ := List.mem_flatMap.mp member
  obtain ⟨s, below, same⟩ := List.mem_flatMap.mp slots
  obtain ⟨e, -, rfl⟩ := List.mem_map.mp same
  exact ⟨cell, here, s, List.mem_range.mp below, rfl⟩

theorem Grown.slot_old (grown : Grown context dirCluster v v' cells added)
    (member : position ∈ directorySlots context count cells) :
    slotAt v'.medium position = slotAt v.medium position := by
  obtain ⟨cell, here, s, below, same⟩ := mem_directorySlots member
  rw [slotAt, same, grown.old cell here s below, ← same, slotAt]

theorem Grown.slot_added (grown : Grown context dirCluster v v' cells added)
    (member : position ∈ directorySlots context count added) :
    (slotAt v'.medium position).isEnd = true := by
  obtain ⟨cell, here, s, below, same⟩ := mem_directorySlots member
  rw [slotAt, same, grown.zeroed cell here s below, zeros_end]

/-- A run that succeeds takes the first free slots next to each other among those that it looks at. Where there are
too few it takes the last ones and goes on in the clusters that it adds. -/
theorem reserve_outcome (wf : context.WellFormed) (sized : TableSized context v.medium)
    (chain : Chain (v.link context) dirCluster cells) (positive : 0 < needed)
    (done : runCode context.device (fat32ReserveEntries context dirCluster needed) v = (some positions, v')) :
    ∃ front run added more later, Grown context dirCluster v v' cells added ∧ positions = run ++ more ∧
      positions.length = needed ∧ Trailing v.medium front run ∧
      directorySlots context 16 (cells ++ added) = front ++ positions ++ later ∧
      (added = [] ∧ FirstRun v.medium needed (directorySlots context 16 cells) front.length ∨
        directorySlots context 16 cells = front ++ run ∧ run.length < needed ∧
          ∀ place, ¬FreeRun v.medium needed (directorySlots context 16 cells) place) ∧
      ∀ position ∈ more, position ∈ directorySlots context 16 added := by
  obtain ⟨walk, ran, outcome⟩ := @walkClusters_chain _ _ _ _ _ _ (reserveVisit needed) 16 wf chain _
    (chain_length chain) dirCluster []
  have start : Trailing v.medium [] [] := ⟨nofun, nofun⟩
  have scanned := reserve_scan positive (directorySlots context 16 cells) start positive
    fun place found => by
      have room := found.room
      rw [List.append_nil, List.length_nil] at room
      omega
  rw [fat32ReserveEntries, runCode_lift, walkDir, ran] at done
  split at outcome
  next run seen =>
    rw [seen] at scanned
    obtain ⟨front, later, slots, trailing, length, first⟩ := scanned
    obtain ⟨stop, rfl⟩ := outcome
    cases done
    have slots : directorySlots context 16 cells = front ++ positions ++ later := slots
    have here : FreeRun v.medium needed (directorySlots context 16 cells) front.length := by
      refine ⟨by rw [slots, List.length_append, List.length_append]; omega, fun i low high position same => ?_⟩
      rw [slots, List.append_assoc, List.getElem?_append_right low, List.getElem?_append_left (by omega)] at same
      exact trailing.free position (List.mem_of_getElem? same)
    exact ⟨front, positions, [], [], later, .refl chain sized, (List.append_nil _).symm, length, trailing,
      by rw [List.append_nil]; exact slots, .inl ⟨rfl, here, first⟩, by rintro _ ⟨⟩⟩
  next run seen =>
    rw [seen] at scanned
    obtain ⟨before, slots, trailing, short, none_⟩ := scanned
    obtain ⟨front, last, next, rfl, rfl⟩ := outcome
    have slots : directorySlots context 16 (front ++ [last]) = before ++ run := slots
    obtain ⟨added, more, later, grown, rfl, length, new⟩ :=
      extendLoop_grown wf chain sized short.le (Nat.le_add_left _ _) done
    refine ⟨before, run, added, more, later, grown, rfl, length, trailing, ?_, .inr ⟨slots, short, none_⟩,
      fun position member => new.symm ▸ List.mem_append_left later member⟩
    rw [directorySlots_append, new, slots]
    simp only [List.append_assoc]

/-- The slots that are looked at before the run were used, and those in it are free. -/
theorem reserve_free (wf : context.WellFormed) (sized : TableSized context v.medium)
    (directory : WellFormedDirectory context v dirCluster cells) (positive : 0 < needed)
    (done : runCode context.device (fat32ReserveEntries context dirCluster needed) v = (some positions, v')) :
    ∃ front added later, Grown context dirCluster v v' cells added ∧ positions.length = needed ∧
      directorySlots context 16 (cells ++ added) = front ++ positions ++ later ∧
      (∀ position ∈ positions, isFree v'.medium position = true) ∧
      (∀ position ∈ front, (slotAt v'.medium position).isEnd = false) ∧
      (added = [] ∧ FirstRun v.medium needed (directorySlots context 16 cells) front.length ∨
        ∃ run, directorySlots context 16 cells = front ++ run ∧ run.length < needed ∧
          Trailing v.medium front run ∧
          ∀ place, ¬FreeRun v.medium needed (directorySlots context 16 cells) place) := by
  obtain ⟨front, run, added, more, later, grown, rfl, length, trailing, slots, taken, new⟩ :=
    reserve_outcome wf sized directory.chain positive done
  have order := directory.order.sublist (directorySlots_sublist (sixteen_le wf) cells)
  -- the slots of the old directory that are looked at begin with these and the run
  have old : ∃ rest, directorySlots context 16 cells = front ++ run ++ rest := by
    rcases taken with ⟨rfl, first⟩ | ⟨same, -, -⟩
    · rw [List.append_nil] at slots
      exact ⟨more ++ later, by rw [slots]; simp only [List.append_assoc]⟩
    · exact ⟨[], by rw [same, List.append_nil]⟩
  obtain ⟨rest, old⟩ := old
  have kept {position : Position} (member : position ∈ front ++ run) :
      slotAt v'.medium position = slotAt v.medium position :=
    grown.slot_old (old.symm ▸ List.mem_append_left rest member)
  refine ⟨front, added, later, grown, length, slots, fun position member => ?_, fun position member => ?_, ?_⟩
  · rcases List.mem_append.mp member with early | late
    · rw [isFree, kept (List.mem_append_right _ early)]
      exact trailing.free position early
    · rw [isFree, grown.slot_added (new position late), Bool.true_or]
  · rw [kept (List.mem_append_left _ member)]
    rw [old, List.append_assoc] at order
    exact trailing.used order position member
  · rcases taken with found | ⟨same, short, none_⟩
    · exact .inl found
    · exact .inr ⟨run, same, short, trailing, none_⟩

end Reserve

/-! ### Which runs are joined -/

/-- Free slots in the first sixteen of one sector, and no slot of the sectors before that was never used. -/
structure Joined (context : Context) (medium : Nat → List UInt8) (cells : List Nat) (needed place : Nat) : Prop where
  inside : place % 16 + needed ≤ 16
  used : ∀ position ∈ (directorySlots context context.entriesPerSector cells).take
    (place / 16 * context.entriesPerSector), (slotAt medium position).isEnd = false

/-- A directory whose free slots are found together, although the loops see sixteen slots of a sector only: its first
run of free slots that are seen is joined; or it has none, no slot of it was never used, the last slot that is seen is
not free, and the slots fit into the first sixteen of a new sector. -/
structure FoundTogether (context : Context) (medium : Nat → List UInt8) (cells : List Nat) (needed : Nat) : Prop where
  found : ∀ place, FirstRun medium needed (directorySlots context 16 cells) place →
    Joined context medium cells needed place
  added : (∀ place, ¬FreeRun medium needed (directorySlots context 16 cells) place) → needed ≤ 16 ∧
    (∀ position, (directorySlots context 16 cells).getLast? = some position → isFree medium position = false) ∧
    ∀ position ∈ directorySlots context context.entriesPerSector cells, (slotAt medium position).isEnd = false

section Placed

variable {context : Context} {v v' : Volume} {dirCluster needed : Nat} {cells added : List Nat}
  {front positions later : List Position} (wf : context.WellFormed)
  (grown : Grown context dirCluster v v' cells added) (positive : 0 < needed) (length : positions.length = needed)
  (slots : directorySlots context 16 (cells ++ added) = front ++ positions ++ later)

include slots in
theorem seen_front {i : Nat} (inside : i < front.length) :
    (directorySlots context 16 (cells ++ added))[i]? = front[i]? := by
  rw [slots, List.append_assoc, List.getElem?_append_left inside]

include slots in
theorem seen_positions {i : Nat} (inside : i < positions.length) :
    (directorySlots context 16 (cells ++ added))[front.length + i]? = positions[i]? := by
  rw [slots, List.append_assoc, List.getElem?_append_right (Nat.le_add_right _ _), Nat.add_sub_cancel_left,
    List.getElem?_append_left inside]

include wf grown positive length slots

/-- Slots that are next to each other in a directory with more than sixteen slots in a sector are in one sector. -/
theorem joined_of_reserved (larger : 16 < context.entriesPerSector)
    (reserved : Reserved context v v' dirCluster cells needed positions) :
    Joined context v'.medium (cells ++ added) needed front.length := by
  obtain ⟨added', before, later', grown', placed, used, -⟩ := reserved.placed
  rw [grown.chain.unique grown'.chain] at placed
  have large : 0 < context.entriesPerSector := by omega
  have same {i : Nat} (below : i < needed) :
      ∃ lba, (directorySectors context (cells ++ added))[(before.length + i) / context.entriesPerSector]? = some lba ∧
        (directorySectors context (cells ++ added))[(front.length + i) / 16]? = some lba ∧
        (before.length + i) % context.entriesPerSector = (front.length + i) % 16 := by
    have inside : i < positions.length := length.symm ▸ below
    have seen := seen_positions slots inside
    have all := congrArg (fun slots : List Position => slots[before.length + i]?) placed
    rw [List.append_assoc, List.getElem?_append_right (Nat.le_add_right _ _), Nat.add_sub_cancel_left,
      List.getElem?_append_left inside, ← seen, directorySlots_get large,
      directorySlots_get (by decide)] at all
    rw [directorySlots_get (by decide), List.getElem?_eq_getElem inside] at seen
    obtain ⟨lba, there, -⟩ := Option.map_eq_some_iff.mp seen
    rw [there] at all
    obtain ⟨lba', here, equal⟩ := Option.map_eq_some_iff.mp all
    injection equal with sector offset
    exact ⟨lba, sector ▸ here, there, by omega⟩
  obtain ⟨lba, here, there, start⟩ := same positive
  simp only [Nat.add_zero] at here there start
  have sector : before.length / context.entriesPerSector = front.length / 16 := by
    obtain ⟨short, -⟩ := List.getElem?_eq_some_iff.mp here
    exact (List.getElem?_inj short (directorySectors_nodup wf grown.chain)).mp (here.trans there.symm)
  have whole := Nat.div_add_mod before.length context.entriesPerSector
  rw [sector, start, Nat.mul_comm] at whole
  refine ⟨?_, fun position member => used position ?_⟩
  · by_contra crossing
    -- the slot behind the sixteenth one is the first of the next sector for the loops
    obtain ⟨-, -, -, offset⟩ := same (i := 16 - front.length % 16) (by omega)
    rw [show before.length + (16 - front.length % 16) = 16 + front.length / 16 * context.entriesPerSector by omega,
      Nat.add_mul_mod_self_right, Nat.mod_eq_of_lt larger] at offset
    omega
  · rw [placed, List.append_assoc, List.take_append_of_le_length (by omega)] at member
    exact List.mem_of_mem_take member

omit positive in
theorem reserved_of_joined (free : ∀ position ∈ positions, isFree v'.medium position = true)
    (used : ∀ position ∈ front, (slotAt v'.medium position).isEnd = false)
    (joined : Joined context v'.medium (cells ++ added) needed front.length) :
    Reserved context v v' dirCluster cells needed positions := by
  have sixteen := sixteen_le wf
  have large : 0 < context.entriesPerSector := by omega
  obtain ⟨inside, earlier⟩ := joined
  -- the slot of the sector at the same offset
  have same {e : Nat} (below : e < 16) :
      (directorySlots context context.entriesPerSector (cells ++ added))[front.length / 16 *
        context.entriesPerSector + e]? = (directorySlots context 16 (cells ++ added))[front.length / 16 * 16 + e]? := by
    rw [directorySlots_at (by omega), directorySlots_at below]
  have start : front.length / 16 * 16 + front.length % 16 = front.length := Nat.div_add_mod' _ _
  have run : ((directorySlots context context.entriesPerSector (cells ++ added)).drop
      (front.length / 16 * context.entriesPerSector + front.length % 16)).take needed = positions := by
    refine List.ext_getElem? fun i => ?_
    rw [List.getElem?_take, List.getElem?_drop]
    split_ifs with below
    · rw [← seen_positions slots (length.symm ▸ below), Nat.add_assoc, same (by omega), ← Nat.add_assoc, start]
    · rw [List.getElem?_eq_none (by omega)]
  refine ⟨length, added, (directorySlots context context.entriesPerSector (cells ++ added)).take
    (front.length / 16 * context.entriesPerSector + front.length % 16),
    ((directorySlots context context.entriesPerSector (cells ++ added)).drop
      (front.length / 16 * context.entriesPerSector + front.length % 16)).drop needed, grown, ?_,
    fun position member => ?_, free⟩
  · rw [← run, List.append_assoc, List.take_append_drop, List.take_append_drop]
  · rw [List.take_add, List.mem_append] at member
    rcases member with before | here
    · exact earlier position before
    · obtain ⟨e, there⟩ := List.mem_iff_getElem?.mp here
      rw [List.getElem?_take, List.getElem?_drop] at there
      split_ifs at there with below
      rw [same (by omega), seen_front slots (by omega)] at there
      exact used position (List.mem_of_getElem? there)

end Placed

section Together

variable {context : Context} {v v' : Volume} {dirCluster needed : Nat} {cells : List Nat} {positions : List Position}

/-- On a volume with more than sixteen slots in a sector, what is reserved is one run if and only if the free slots
of the directory are found together. -/
theorem reserved_iff_together (wf : context.WellFormed) (larger : 16 < context.entriesPerSector)
    (sized : TableSized context v.medium) (directory : WellFormedDirectory context v dirCluster cells)
    (positive : 0 < needed)
    (done : runCode context.device (fat32ReserveEntries context dirCluster needed) v = (some positions, v')) :
    Reserved context v v' dirCluster cells needed positions ↔
    FoundTogether context v.medium cells needed := by
  obtain ⟨front, added, later, grown, length, slots, free, used, taken⟩ := reserve_free wf sized directory positive done
  have joined : Reserved context v v' dirCluster cells needed positions ↔
      Joined context v'.medium (cells ++ added) needed front.length :=
    ⟨joined_of_reserved wf grown positive length slots larger,
      reserved_of_joined wf grown length slots free used⟩
  rw [joined]
  rcases taken with ⟨rfl, first⟩ | ⟨run, old, short, trailing, none_⟩
  · -- a run was found
    have same : Joined context v'.medium (cells ++ []) needed front.length ↔
        Joined context v.medium cells needed front.length := by
      rw [List.append_nil]
      refine ⟨fun joined => ⟨joined.inside, fun position member => ?_⟩,
        fun joined => ⟨joined.inside, fun position member => ?_⟩⟩
      · rw [← grown.slot_old (List.mem_of_mem_take member)]
        exact joined.used position member
      · rw [grown.slot_old (List.mem_of_mem_take member)]
        exact joined.used position member
    rw [same]
    exact ⟨fun joined => ⟨fun place other => first.unique other ▸ joined, fun none_ => absurd first.here (none_ _)⟩,
      fun together => together.found _ first⟩
  · -- the directory was made longer
    have cellsLength := @directorySlots_length context 16 cells
    rw [old, List.length_append] at cellsLength
    have whole : ((directorySlots context context.entriesPerSector (cells ++ added)).take
        ((directorySectors context cells).length * context.entriesPerSector)) =
          directorySlots context context.entriesPerSector cells := by
      rw [directorySlots_append, ← directorySlots_length, List.take_left]
    constructor
    · intro joined
      have inside := joined.inside
      have empty : run = [] := List.eq_nil_of_length_eq_zero (by omega)
      subst empty
      rw [List.append_nil] at old
      rw [List.length_nil] at cellsLength
      have sectors : front.length / 16 = (directorySectors context cells).length := by omega
      refine ⟨fun place found => absurd found.here (none_ place), fun _ => ⟨by omega, old ▸ trailing.stop, ?_⟩⟩
      intro position member
      rw [← grown.slot_old member]
      exact joined.used position (by rwa [sectors, whole])
    · intro together
      obtain ⟨fits, last, unused⟩ := together.added none_
      have empty : run = [] := by
        by_contra nonempty
        have ends := List.getLast_mem nonempty
        have stop := last (run.getLast nonempty)
          (by rw [old, List.getLast?_append_of_ne_nil _ nonempty, List.getLast?_eq_some_getLast])
        rw [trailing.free _ ends] at stop
        cases stop
      rw [empty, List.length_nil] at cellsLength
      have sectors : front.length / 16 = (directorySectors context cells).length := by omega
      refine ⟨by omega, fun position member => ?_⟩
      rw [sectors, whole] at member
      rw [grown.slot_old member]
      exact unused position member

/-- What is reserved is one run, with no slot before it that was never used, if and only if sectors have 512 bytes or
the free slots of the directory are found together. -/
theorem reserves_iff (wf : context.WellFormed) (sized : TableSized context v.medium)
    (directory : WellFormedDirectory context v dirCluster cells) (positive : 0 < needed)
    (done : runCode context.device (fat32ReserveEntries context dirCluster needed) v = (some positions, v')) :
    Reserved context v v' dirCluster cells needed positions ↔
      context.sectorSize = 512 ∨ FoundTogether context v.medium cells needed := by
  by_cases small : context.sectorSize = 512
  · have all : context.entriesPerSector = 16 := by rw [Context.entriesPerSector, small]
    obtain ⟨front, added, later, grown, length, slots, free, used, -⟩ := reserve_free wf sized directory positive done
    exact ⟨fun _ => .inl small, fun _ => ⟨length, added, front, later, grown, all ▸ slots, used, free⟩⟩
  · have blocks := wf.blocks
    have sector := wf.sector
    have larger : 16 < context.entriesPerSector := by
      unfold Context.entriesPerSector
      omega
    rw [reserved_iff_together wf larger sized directory positive done, or_iff_right small]

end Together

/-! ### Larger sectors -/

/-- 50 clusters of two sectors of 1024 bytes. -/
def pairedVolume : Context where
  device := { smallDisk with logicalBlockSize := 1024, physicalBlockSize := 1024 }
  bpb := { smallVolume.bpb with bytesPerSector := 1024, sectorsPerCluster := 2 }

/-- A directory in cluster 2, of whose second sector nothing was used. -/
def pairedDevice (first : List UInt8) : Volume where
  medium := fun lba => if lba = 34 then first
    else if lba < 34 then putLE (List.replicate 1024 0) 8 4 FAT32_EOC_MARK
    else List.replicate 1024 0
  info := noFsinfo
  clock := []

/-- The slots of a sector that begin with these bytes. -/
def slotsOf (bytes : List UInt8) : List UInt8 := bytes.flatMap (List.replicate 32)

theorem pairedVolume_wellFormed : pairedVolume.WellFormed := by
  refine ⟨⟨?_, ?_, ?_, ?_, ?_, ?_, ?_⟩, ?_, ?_, ?_, ?_, ?_⟩ <;> decide

theorem pairedDevice_sized (first : List UInt8) :
    TableSized pairedVolume (pairedDevice first).medium := by
  intro lba _ high
  have below : lba < 34 := high
  have sector : pairedVolume.sectorSize = 1024 := by decide
  change (if lba = 34 then _ else if lba < 34 then _ else _ : List UInt8).length = pairedVolume.sectorSize
  rw [if_neg (by omega), if_pos below, putLE_length (by rw [List.length_replicate]; decide), List.length_replicate,
    sector]

/-- A directory with a single deleted slot and two that are next to each other. -/
def gapsDevice : Volume :=
  pairedDevice (slotsOf ([0x41, 0xE5, 0x41, 0xE5, 0xE5] ++ List.replicate 27 0x41))

/-- A directory with sixteen slots. -/
def sixteenDevice : Volume := pairedDevice (slotsOf (List.replicate 16 0x41 ++ List.replicate 16 0))

theorem gapsDevice_directory : WellFormedDirectory pairedVolume gapsDevice 2 [2] where
  chain := .last (by decide +kernel)
  order := ⟨_, _, (List.take_append_drop 32 _).symm, by decide +kernel, by decide +kernel⟩

theorem sixteenDevice_directory : WellFormedDirectory pairedVolume sixteenDevice 2 [2] where
  chain := .last (by decide +kernel)
  order := ⟨_, _, (List.take_append_drop 16 _).symm, by decide +kernel, by decide +kernel⟩

theorem eq_of_fst {α β : Type} {outcome : Option α × β} {a : α} (found : outcome.1 = some a) :
    ∃ b, outcome = (some a, b) := ⟨outcome.2, by rw [← found]⟩

/-- Two deleted slots next to each other are reserved, behind one that stands alone. -/
theorem reserves_iff_gaps :
    ∃ v', runCode pairedVolume.device (fat32ReserveEntries pairedVolume 2 2) gapsDevice =
      (some [⟨34, 96⟩, ⟨34, 128⟩], v') ∧
    Reserved pairedVolume gapsDevice v' 2 [2] 2 [⟨34, 96⟩, ⟨34, 128⟩] := by
  have first : FirstRun gapsDevice.medium 2 (directorySlots pairedVolume 16 [2]) 3 := by decide +kernel
  have together : FoundTogether pairedVolume gapsDevice.medium [2] 2 :=
    ⟨fun place other => first.unique other ▸ ⟨by decide, by decide +kernel⟩, fun none_ => absurd first.here (none_ 3)⟩
  have found : (runCode pairedVolume.device (fat32ReserveEntries pairedVolume 2 2) gapsDevice).1 =
      some [⟨34, 96⟩, ⟨34, 128⟩] := by decide +kernel
  obtain ⟨v', ran⟩ := eq_of_fst found
  exact ⟨v', ran, (reserves_iff pairedVolume_wellFormed (pairedDevice_sized _) gapsDevice_directory two_pos ran).mpr
    (.inr together)⟩

/-- Behind sixteen slots that were used, the first slot of the next sector is reserved, and the slots of the first
sector that were never used stay before it. -/
theorem slots_passed_over :
    ∃ v', runCode pairedVolume.device (fat32ReserveEntries pairedVolume 2 1) sixteenDevice =
      (some [⟨35, 0⟩], v') ∧ pairedVolume.WellFormed ∧ TableSized pairedVolume sixteenDevice.medium ∧
    WellFormedDirectory pairedVolume sixteenDevice 2 [2] ∧
    ¬Reserved pairedVolume sixteenDevice v' 2 [2] 1 [⟨35, 0⟩] := by
  have first : FirstRun sixteenDevice.medium 1 (directorySlots pairedVolume 16 [2]) 16 := by decide +kernel
  have found : (runCode pairedVolume.device (fat32ReserveEntries pairedVolume 2 1) sixteenDevice).1 =
      some [⟨35, 0⟩] := by decide +kernel
  obtain ⟨v', ran⟩ := eq_of_fst found
  have sized : TableSized pairedVolume sixteenDevice.medium := pairedDevice_sized _
  refine ⟨v', ran, pairedVolume_wellFormed, sized, sixteenDevice_directory, fun reserved => ?_⟩
  have together := (reserved_iff_together pairedVolume_wellFormed (by decide) sized sixteenDevice_directory one_pos
    ran).mp reserved
  have ends := (together.found 16 first).used ⟨34, 512⟩ (by decide)
  exact absurd ends (by decide +kernel)

end AsasOs.Fat32
