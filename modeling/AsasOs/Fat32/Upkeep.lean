import AsasOs.Fat32.Machine

/-!
# FAT32: what reading and writing data leave alone

Most of the driver reads, and writes sectors of clusters; only a few functions work on the
allocation table and the counters. An invariant that has nothing to do with the data region
is kept by all the others, and what they return is known: clusters of the volume, and
positions in its clusters.
-/
namespace AsasOs.Fat32

open Block Prog

/-! ### Where the sectors of a volume lie -/

namespace Context

/-- The sizes that the fields of a boot sector can have, and that of a FAT32 table: it has
no more than 2 ^ 28 entries of four bytes. -/
structure Sized (context : Context) : Prop where
  sector : 512 ≤ context.sectorSize
  cluster : 0 < context.bpb.sectorsPerCluster
  reserved : context.bpb.reservedSectors < 2 ^ 16
  copies : context.bpb.fatCount < 2 ^ 8
  fat : context.bpb.sectorsPerFat ≤ 2 ^ 21
  total16 : context.bpb.totalSectors16 < 2 ^ 16
  total32 : context.bpb.totalSectors32 < 2 ^ 32

variable {context : Context} {cluster index : Nat}

theorem dataClusterValid_iff :
    context.dataClusterValid cluster = true ↔ 2 ≤ cluster ∧ cluster < context.maxCluster := by
  simp [dataClusterValid]

theorem totalSectors_lt (small : context.bpb.totalSectors16 < 2 ^ 16)
    (large : context.bpb.totalSectors32 < 2 ^ 32) : context.totalSectors < 2 ^ 32 := by
  unfold totalSectors
  simp only
  split_ifs <;> omega

section Data

variable (some_ : 0 < context.bpb.sectorsPerCluster) (valid : context.dataClusterValid cluster = true)

include some_ valid

theorem cluster_inside_total :
    context.dataStart + (cluster - 1) * context.bpb.sectorsPerCluster ≤ context.totalSectors := by
  obtain ⟨low, high⟩ := dataClusterValid_iff.mp valid
  unfold maxCluster at high
  split_ifs at high with empty
  · omega
  have below : cluster - 1 ≤ (context.totalSectors - context.dataStart) / context.bpb.sectorsPerCluster := by
    have wrapped := Nat.mod_le
      (2 + (context.totalSectors - context.dataStart) / context.bpb.sectorsPerCluster) (2 ^ 32)
    omega
  have room := (Nat.le_div_iff_mul_le some_).mp below
  omega

/-- A valid cluster ends inside the volume. -/
theorem cluster_end : context.dataStart + (cluster - 2) * context.bpb.sectorsPerCluster +
    context.bpb.sectorsPerCluster ≤ context.totalSectors := by
  have inside := cluster_inside_total some_ valid
  obtain ⟨low, -⟩ := dataClusterValid_iff.mp valid
  have more : (cluster - 1) * context.bpb.sectorsPerCluster =
      (cluster - 2) * context.bpb.sectorsPerCluster + context.bpb.sectorsPerCluster := by
    rw [← Nat.succ_mul]
    congr 1
    omega
  omega

/-- The sector number of a valid cluster does not wrap. -/
theorem clusterToLba_eq (total : context.totalSectors < 2 ^ 32) : context.clusterToLba cluster =
    context.dataStart + (cluster - 2) * context.bpb.sectorsPerCluster := by
  have inside := cluster_end some_ valid
  obtain ⟨low, -⟩ := dataClusterValid_iff.mp valid
  have wrap : (cluster + 2 ^ 32 - 2) * context.bpb.sectorsPerCluster =
      (cluster - 2) * context.bpb.sectorsPerCluster + 2 ^ 32 * context.bpb.sectorsPerCluster := by
    rw [← Nat.add_mul]
    congr 1
    omega
  unfold clusterToLba
  rw [wrap]
  omega

end Data

namespace Sized

theorem copies_le (sized : context.Sized) {copy : Nat} (below : copy ≤ context.bpb.fatCount) :
    copy * context.bpb.sectorsPerFat ≤ 2 ^ 8 * 2 ^ 21 := by
  have copies := sized.copies
  exact Nat.mul_le_mul (by omega) sized.fat

theorem dataStart_eq (sized : context.Sized) :
    context.dataStart = context.fatStart + context.bpb.fatCount * context.bpb.sectorsPerFat := by
  have copies := sized.copies_le le_rfl
  have reserved := sized.reserved
  unfold dataStart fatStart
  omega

theorem total_lt (sized : context.Sized) : context.totalSectors < 2 ^ 32 :=
  totalSectors_lt sized.total16 sized.total32

theorem fatSectorOf_lt (sized : context.Sized) (cluster : Nat) :
    fatSectorOf context cluster < 2 ^ 23 := by
  have sector := sized.sector
  refine Nat.div_lt_of_lt_mul (lt_of_lt_of_le (Nat.mod_lt _ (by decide)) ?_)
  exact Nat.mul_le_mul_right (2 ^ 23) sector

/-- Nor does that of a table entry. -/
theorem fat_lba (sized : context.Sized) {copy : Nat} (below : copy ≤ context.bpb.fatCount)
    (cluster : Nat) :
    (context.fatStart + copy * context.bpb.sectorsPerFat + fatSectorOf context cluster) % 2 ^ 32 =
      context.fatStart + copy * context.bpb.sectorsPerFat + fatSectorOf context cluster := by
  have copies := sized.copies_le below
  have reserved := sized.reserved
  have entry := sized.fatSectorOf_lt cluster
  unfold fatStart
  omega

theorem clusterSector_eq (sized : context.Sized) (valid : context.dataClusterValid cluster = true)
    (below : index < context.bpb.sectorsPerCluster) :
    context.clusterSector cluster index =
      context.dataStart + (cluster - 2) * context.bpb.sectorsPerCluster + index := by
  have inside := cluster_end sized.cluster valid
  have total := sized.total_lt
  rw [clusterSector, clusterToLba_eq sized.cluster valid sized.total_lt]
  omega

theorem clusterSector_data (sized : context.Sized) (valid : context.dataClusterValid cluster = true)
    (below : index < context.bpb.sectorsPerCluster) :
    context.dataStart ≤ context.clusterSector cluster index := by
  rw [sized.clusterSector_eq valid below]
  omega

theorem inBounds_of_lt (sized : context.Sized) {lba : Nat} (below : lba < context.totalSectors) :
    inBounds context.device lba = true := by
  have total := sized.total_lt
  have room : context.device.blockCount = 0 ∨ context.totalSectors ≤ context.device.blockCount := by
    unfold totalSectors at total ⊢
    simp only at total ⊢
    split_ifs at total ⊢ <;> omega
  unfold inBounds requestInBounds
  have inside : ¬1 - 1 > maxU64 - lba := by omega
  rw [if_neg (by decide), if_neg inside]
  split_ifs with none_ outside
  · rfl
  · omega
  · exact decide_eq_true (by omega)

theorem dataStart_lt (some_ : 2 < context.maxCluster) : context.dataStart < context.totalSectors := by
  unfold maxCluster at some_
  split_ifs at some_ <;> omega

theorem inBounds_reserved (sized : context.Sized) (some_ : 2 < context.maxCluster) {lba : Nat}
    (below : lba < context.fatStart) : inBounds context.device lba = true := by
  refine sized.inBounds_of_lt (lt_trans ?_ (dataStart_lt some_))
  rw [sized.dataStart_eq]
  omega

end Sized

end Context

/-! ### Invariants -/

/-- The calls that change neither the device nor the counters. -/
def Fat32Op.Quiet : Fat32Op → Prop
  | .write _ _ => False
  | .writeRun _ _ => False
  | .setInfo _ => False
  | _ => True

/-- An invariant that has nothing to do with the data region, whatever answers the calls. -/
structure Indifferent (context : Context) {σ : Type} (serve : (op : Fat32Op) → σ → op.Response × σ)
    (Inv : σ → Prop) : Prop where
  quiet : ∀ op s, op.Quiet → Inv s → Inv (serve op s).2
  write : ∀ lba sector s, context.dataStart ≤ lba → Inv s → Inv (serve (.write lba sector) s).2

section Upkeep

variable {context : Context} {σ : Type} {serve : (op : Fat32Op) → σ → op.Response × σ}
  {Inv : σ → Prop} {α : Type} {Q : α → Prop}

theorem upholds_attempt {call : Fat32Prog Bool} (keeps : Keeps serve Inv (fun _ => True) call) :
    Guards serve Inv (fun _ => True) (attempt call) :=
  guards_lift keeps fun _ _ => guards_mono guards_guard_last fun _ _ => trivial

theorem keeps_succeeds {code : Fat32Code α} (upholds : Guards serve Inv Q code) :
    Keeps serve Inv (fun _ => True) (succeeds code) :=
  keeps_bind upholds fun _ _ => keeps_pure trivial

variable (base : Indifferent context serve Inv)

include base

/-- A call that only looks keeps the invariant. -/
theorem keeps_op (op : Fat32Op) (quiet : op.Quiet) :
    Keeps serve Inv (fun _ => True) (Prog.perform op : Prog Fat32Op Fat32Op.Response _) :=
  fun s inv => ⟨base.quiet op s quiet inv, trivial⟩

theorem upholds_read (lba : Nat) : Guards serve Inv (fun _ => True) (f32ReadSector lba) :=
  keeps_mono (keeps_op base (.read lba) trivial) fun _ _ _ _ => trivial

/-- A write behind the tables keeps the invariant. -/
theorem upholds_write {lba : Nat} (behind : context.dataStart ≤ lba) (sector : List UInt8) :
    Guards serve Inv (fun _ => True) (f32WriteSector lba sector) :=
  upholds_attempt fun s inv => ⟨base.write lba sector s behind inv, trivial⟩

/-! ### Chains -/

/-- Following a link keeps it. -/
theorem keeps_nextCluster (cluster : Nat) :
    Keeps serve Inv (fun _ => True) (fat32NextCluster context cluster) := by
  refine keeps_bind (keeps_op base (.readLink _) trivial) fun sec _ => ?_
  cases sec <;> exact keeps_pure trivial

/-- An advance ends the chain or comes to a valid cluster. -/
theorem upholds_chainAdvance (cluster : Nat) :
    Guards serve Inv (fun next => next = FAT32_EOC ∨ context.dataClusterValid next = true)
      (fat32ChainAdvance context cluster) := by
  refine guards_guard fun _ => guards_lift (keeps_nextCluster base cluster) fun value _ => ?_
  split_ifs
  · exact guards_pure (.inl rfl)
  · refine guards_guard fun fine => guards_pure (.inr ?_)
    by_contra invalid
    exact fine (.inr (.inr (.inr invalid)))

theorem upholds_chainValidLoop (hops current : Nat) :
    Guards serve Inv (fun _ => True) (chainValidLoop context hops current) := by
  induction hops generalizing current with
  | zero => exact guards_failure
  | succ hops ih =>
    refine guards_bind (upholds_chainAdvance base current) fun next _ => ?_
    split_ifs
    · exact guards_pure trivial
    · exact ih next

theorem upholds_chainValid (first : Nat) : Guards serve Inv (fun _ => context.dataClusterValid first = true)
      (fat32ChainValid context first) := by
  refine guards_guard fun valid => ?_
  exact guards_mono (upholds_chainValidLoop base _ _) fun _ _ => by simpa using valid

/-! ### The sectors of clusters -/

theorem upholds_clearSectors (sized : context.Sized) {cluster : Nat}
    (valid : context.dataClusterValid cluster = true) {sectors : List Nat}
    (inside : ∀ s ∈ sectors, s < context.bpb.sectorsPerCluster) :
    Guards serve Inv (fun _ => True) (clearSectors context cluster sectors) := by
  induction sectors with
  | nil => exact guards_pure trivial
  | cons s rest ih =>
    exact guards_bind (upholds_write base
      (sized.clusterSector_data valid (inside s List.mem_cons_self)) _) fun _ _ =>
        ih fun other member => inside other (List.mem_cons_of_mem _ member)

theorem upholds_writeClusterSectors (sized : context.Sized) {cluster : Nat}
    (valid : context.dataClusterValid cluster = true) {sectors : List Nat} (source : List UInt8)
    (inside : ∀ s ∈ sectors, s < context.bpb.sectorsPerCluster) :
    Guards serve Inv (fun _ => True) (writeClusterSectors context cluster sectors source) := by
  induction sectors generalizing source with
  | nil => exact guards_pure trivial
  | cons s rest ih =>
    rw [writeClusterSectors]
    split_ifs
    · exact guards_pure trivial
    · exact guards_bind (upholds_write base
        (sized.clusterSector_data valid (inside s List.mem_cons_self)) _) fun _ _ =>
          ih _ fun other member => inside other (List.mem_cons_of_mem _ member)

/-- Writing a chain of valid clusters keeps the invariant. -/
theorem upholds_writeChainLoop (sized : context.Sized) (hops cluster : Nat) (source : List UInt8) :
    Guards serve Inv (fun _ => True) (writeChainLoop context hops cluster source) := by
  induction hops generalizing cluster source with
  | zero => exact guards_mono guards_guard_last fun _ _ => trivial
  | succ hops ih =>
    rw [writeChainLoop]
    split_ifs with more
    · refine guards_bind (upholds_writeClusterSectors base sized more.1 _ fun _ member =>
        List.mem_range.mp member) fun _ _ => ?_
      exact guards_bind (upholds_chainAdvance base cluster) fun _ _ => ih _ _
    · exact guards_mono guards_guard_last fun _ _ => trivial

/-! ### Directories -/

/-- What is known of the states and the results of a walk. -/
def Walk.All {τ ρ : Type} (S : τ → Prop) (R : ρ → Prop) : Walk τ ρ → Prop
  | .found result _ => R result
  | .broken state => S state
  | .ended state _ _ => S state

/-- What a visit knows of its states and results, for entries behind the reserved sectors. -/
def Visit.Knows {τ ρ : Type} (context : Context) (visit : Visit τ ρ) (S : τ → Prop) (R : ρ → Prop) :
    Prop :=
  ∀ position slot state, context.dataStart ≤ position.lba → S state →
    match visit position slot state with
    | .inl state => S state
    | .inr result => R result

section Walks

variable {τ ρ : Type} {visit : Visit τ ρ} {S : τ → Prop} {R : ρ → Prop} {count : Nat}

omit base in
/-- What a visitor knows, it knows behind all slots of a sector. -/
theorem visitSlots_knows (knows : visit.Knows context S R) {lba : Nat}
    (behind : context.dataStart ≤ lba) (sector : List UInt8) (indices : List Nat) {state : τ}
    (holds : S state) :
    match visitSlots visit lba sector indices state with
    | .inl state => S state
    | .inr result => R result := by
  induction indices generalizing state with
  | nil => exact holds
  | cons e rest ih =>
    have here := knows ⟨lba, 32 * e⟩ (slotOf sector e) state behind holds
    rw [visitSlots]
    cases visited : visit ⟨lba, 32 * e⟩ (slotOf sector e) state with
    | inl next =>
      rw [visited] at here
      exact ih here
    | inr result =>
      rw [visited] at here
      exact here

theorem keeps_walkSectors (sized : context.Sized) (knows : visit.Knows context S R) {cluster : Nat}
    (valid : context.dataClusterValid cluster = true) {sectors : List Nat} {state : τ}
    (inside : ∀ s ∈ sectors, s < context.bpb.sectorsPerCluster) (holds : S state) :
    Keeps serve Inv (Walk.All S R) (walkSectors context visit count cluster sectors state) := by
  induction sectors generalizing state with
  | nil => exact keeps_pure holds
  | cons s rest ih =>
    refine keeps_bind (upholds_read base _) fun read _ => ?_
    cases read with
    | none => exact keeps_pure holds
    | some sector =>
      have here := visitSlots_knows knows (sized.clusterSector_data valid
        (inside s List.mem_cons_self)) sector (List.range count) holds
      simp only
      cases visited : visitSlots visit (context.clusterSector cluster s) sector (List.range count) state with
      | inl next =>
        rw [visited] at here
        exact ih (fun other member => inside other (List.mem_cons_of_mem _ member)) here
      | inr result =>
        rw [visited] at here
        exact keeps_pure here

theorem keeps_walkClusters (sized : context.Sized) (knows : visit.Knows context S R)
    (hops last current : Nat) {state : τ} (holds : S state) :
    Keeps serve Inv (Walk.All S R) (walkClusters context visit count hops last current state) := by
  induction hops generalizing last current state with
  | zero => exact keeps_pure holds
  | succ hops ih =>
    rw [walkClusters]
    split_ifs with valid
    · refine keeps_bind (keeps_walkSectors base sized knows valid (fun _ member =>
        List.mem_range.mp member) holds) fun walk all => ?_
      cases walk with
      | found result cluster => exact keeps_pure all
      | broken state => exact keeps_pure all
      | ended state last' current' =>
        refine keeps_bind (upholds_chainAdvance base current) fun next _ => ?_
        cases next with
        | none => exact keeps_pure all
        | some next => exact ih current next all
    · exact keeps_pure holds

/-- A walk over a directory keeps the invariant, and its result is as the visitor knows. -/
theorem keeps_walkDir (sized : context.Sized) (knows : visit.Knows context S R) (dirCluster : Nat)
    {state : τ} (holds : S state) :
    Keeps serve Inv (Walk.All S R) (walkDir context visit count dirCluster state) :=
  keeps_walkClusters base sized knows _ _ _ holds

theorem keeps_anyWalk (sized : context.Sized) (visit : Visit τ ρ) (count dirCluster : Nat) (state : τ) :
    Keeps serve Inv (fun _ => True) (walkDir context visit count dirCluster state) :=
  keeps_mono (keeps_walkDir base sized (S := fun _ => True) (R := fun _ => True)
    (fun position slot state _ _ => by split <;> trivial) dirCluster trivial) fun _ _ => trivial

end Walks

theorem upholds_searchDirChain (sized : context.Sized) (dirCluster : Nat) (component : Text) :
    Guards serve Inv (fun _ => True) (searchDirChain context dirCluster component) := by
  refine guards_lift (keeps_anyWalk base sized _ _ _ _) fun walk _ => ?_
  split
  · exact guards_pure trivial
  · exact guards_failure

def Behind (context : Context) (positions : List Position) : Prop :=
  ∀ position ∈ positions, context.dataStart ≤ position.lba

omit base in
theorem Behind.snoc {positions : List Position} {position : Position}
    (behind : Behind context positions) (here : context.dataStart ≤ position.lba) :
    Behind context (positions ++ [position]) := by
  intro other member
  rcases List.mem_append.mp member with old | new
  · exact behind other old
  · exact List.mem_singleton.mp new ▸ here

/-- The slots that are found lie behind the tables. -/
theorem upholds_findNamedEntry (sized : context.Sized) (dirCluster : Nat) (name : Text) :
    Guards serve Inv (fun located => Behind context located.positions ∧ located.positions ≠ [])
      (fat32FindNamedEntry context dirCluster name) := by
  have knows : Visit.Knows context (findVisit name) (fun state => Behind context state.2)
      (fun found => ∀ located, found = some located →
        Behind context located.positions ∧ located.positions ≠ []) := by
    rintro position slot ⟨lfn, positions⟩ here behind
    have none_ : Behind context [] := by simp [Behind]
    simp only [findVisit]
    split_ifs
    · simp
    · exact none_
    · exact none_
    · split
      · rename_i visited
        split at visited <;> cases visited
        · exact none_
        · exact behind.snoc here
      · rename_i visited
        split at visited <;> cases visited
    · rintro located same
      cases same
      exact ⟨behind.snoc here, by simp⟩
    · exact none_
  refine guards_lift (keeps_walkDir base sized knows dirCluster (by simp [Behind])) fun walk all => ?_
  cases walk with
  | found result cluster =>
    cases result with
    | none => exact guards_failure
    | some located => exact guards_pure (all located rfl)
  | broken state => exact guards_failure
  | ended state last current => exact guards_failure

theorem keeps_listDirChain (sized : context.Sized) (dirCluster capacity : Nat) :
    Keeps serve Inv (fun _ => True) (listDirChain context dirCluster capacity) := by
  rw [listDirChain]
  split_ifs
  · exact keeps_pure trivial
  · refine keeps_bind (keeps_anyWalk base sized _ _ _ _) fun walk _ => ?_
    rcases walk with ⟨⟨full, out⟩, cluster⟩ | ⟨lfn, out⟩ | ⟨⟨lfn, out⟩, last, current⟩
    · cases full
      · exact keeps_pure trivial
      · exact keeps_bind (upholds_chainAdvance base cluster) fun _ _ => keeps_pure trivial
    · exact keeps_pure trivial
    · exact keeps_pure trivial

theorem keeps_directoryIsEmpty (sized : context.Sized) (cluster : Nat) :
    Keeps serve Inv (fun _ => True) (directoryIsEmpty context cluster) := by
  refine keeps_bind (keeps_anyWalk base sized _ _ _ _) fun walk _ => ?_
  cases walk <;> exact keeps_pure trivial

theorem keeps_shortNameAvailable (sized : context.Sized) (parent : Nat) (name : List UInt8) :
    Keeps serve Inv (fun _ => True) (fat32ShortNameAvailable context parent name) := by
  have search : Guards serve Inv (fun _ => True) (findDirectoryEntrySlot context parent name) := by
    refine guards_lift (keeps_anyWalk base sized _ _ _ _) fun walk _ => ?_
    split
    · exact guards_pure trivial
    · exact guards_failure
  exact keeps_bind (keeps_succeeds search) fun _ _ => keeps_pure trivial

theorem upholds_numberLoop (sized : context.Sized) (parent : Nat) (leaf : Text) (numbers : List Nat) :
    Guards serve Inv (fun _ => True) (numberLoop context parent leaf numbers) := by
  induction numbers with
  | nil => exact guards_failure
  | cons number rest ih =>
    refine guards_lift (keeps_shortNameAvailable base sized _ _) fun available _ => ?_
    split_ifs
    · exact guards_pure trivial
    · exact ih

theorem upholds_makeShortAlias (sized : context.Sized) (parent : Nat) (leaf : Text) :
    Guards serve Inv (fun _ => True) (fat32MakeShortAlias context parent leaf) := by
  have tails : Guards serve Inv (fun _ => True) (do
      let name ← numberLoop context parent leaf (List.range' 1 999)
      return (name, true)) :=
    guards_bind (upholds_numberLoop base sized _ _ _) fun _ _ => guards_pure trivial
  rw [fat32MakeShortAlias]
  cases exactAlias leaf with
  | none => exact tails
  | some name =>
    refine guards_lift (keeps_shortNameAvailable base sized _ _) fun available _ => ?_
    cases available
    · exact tails
    · exact guards_pure trivial

/-! ### Writing entries -/

omit base in
theorem reserveVisit_knows (context : Context) (needed : Nat) :
    Visit.Knows context (reserveVisit needed) (Behind context)
      (fun run => Behind context run ∧ needed ≤ run.length) := by
  intro position slot run here behind
  simp only [reserveVisit]
  split_ifs with free full
  · exact ⟨behind.snoc here, full.ge⟩
  · exact behind.snoc here
  · simp [Behind]

theorem upholds_extendSectors (sized : context.Sized) {cluster : Nat}
    (valid : context.dataClusterValid cluster = true) (needed : Nat) {sectors : List Nat}
    {run : List Position} (inside : ∀ s ∈ sectors, s < context.bpb.sectorsPerCluster)
    (behind : Behind context run) :
    Guards serve Inv (fun run' => Behind context run' ∧ run.length ≤ run'.length ∧
        (sectors ≠ [] → run.length < needed → run.length < run'.length))
      (extendSectors context cluster needed sectors run) := by
  induction sectors generalizing run with
  | nil => exact guards_pure ⟨behind, le_rfl, fun some_ => absurd rfl some_⟩
  | cons s rest ih =>
    have here := sized.clusterSector_data valid (inside s List.mem_cons_self)
    refine guards_bind (upholds_write base here _) fun _ _ => ?_
    refine guards_mono (ih (fun other member => inside other (List.mem_cons_of_mem _ member)) ?_) ?_
    · intro position member
      rcases List.mem_append.mp member with old | new
      · exact behind position old
      · obtain ⟨e, -, rfl⟩ := List.mem_map.mp new
        exact here
    · rintro run' ⟨behind', longer, -⟩
      simp only [List.length_append, List.length_map, List.length_range] at longer
      exact ⟨behind', by omega, fun _ _ => by omega⟩

theorem upholds_positionWrite {position : Position} (behind : context.dataStart ≤ position.lba)
    (entry : Slot) : Guards serve Inv (fun _ => True) (fat32PositionWrite position entry) :=
  guards_bind (upholds_read base _) fun _ _ => upholds_write base behind _

theorem upholds_markPositionsDeleted {positions : List Position} (behind : Behind context positions) :
    Guards serve Inv (fun _ => True) (fat32MarkPositionsDeleted positions) := by
  induction positions with
  | nil => exact guards_pure trivial
  | cons position rest ih =>
    refine guards_bind (upholds_read base _) fun _ _ => ?_
    exact guards_bind (upholds_write base (behind position List.mem_cons_self) _) fun _ _ =>
      ih fun other member => behind other (List.mem_cons_of_mem _ member)

theorem upholds_writeSlots {positions : List Position} (behind : Behind context positions)
    (index : Nat) (slots : List Slot) (room : index + slots.length ≤ positions.length) :
    Guards serve Inv (fun _ => True) (writeSlots positions index slots) := by
  induction slots generalizing index with
  | nil => exact guards_pure trivial
  | cons slot rest ih =>
    rw [List.length_cons] at room
    have here : positions.getD index ⟨0, 0⟩ ∈ positions := by
      rw [List.getD_eq_getElem?_getD, List.getElem?_eq_getElem (by omega), Option.getD_some]
      exact List.getElem_mem _
    refine guards_observe (upholds_positionWrite base (behind _ here) slot) fun written _ => ?_
    cases written with
    | none =>
      exact guards_observe (upholds_markPositionsDeleted base fun position member =>
        behind position (List.mem_of_mem_take member)) fun _ _ => guards_failure
    | some _ => exact ih (index + 1) (by omega)

/-! ### Paths -/

theorem upholds_resolveLoop (sized : context.Sized) (rounds current : Nat) (path : Text) :
    Guards serve Inv (fun _ => True) (resolveLoop context rounds current path) := by
  induction rounds generalizing current path with
  | zero => exact guards_failure
  | succ rounds ih =>
    refine guards_guard fun _ => ?_
    refine guards_bind (upholds_searchDirChain base sized current _) fun found _ => ?_
    split_ifs
    · exact guards_pure trivial
    · exact guards_guard fun _ => ih _ _

/-- Following a path keeps it. -/
theorem upholds_resolve (sized : context.Sized) (path : Text) :
    Guards serve Inv (fun _ => True) (fat32Resolve context path) := by
  simp only [fat32Resolve]
  split_ifs
  · exact guards_pure trivial
  · exact upholds_resolveLoop base sized _ _ _

theorem upholds_resolveParentLeaf (sized : context.Sized) (path : Text) :
    Guards serve Inv (fun _ => True) (fat32ResolveParentLeaf context path) := by
  refine guards_guard fun _ => guards_guard fun _ => ?_
  split_ifs
  · exact guards_pure trivial
  · exact guards_bind (upholds_resolve base sized _) fun _ _ => guards_guard fun _ =>
      guards_pure trivial

/-! ### Reading -/

theorem keeps_readClusterSectors (cluster remaining : Nat) (sectors : List Nat) (out : List UInt8) :
    Keeps serve Inv (fun _ => True) (readClusterSectors context cluster remaining sectors out) := by
  induction sectors generalizing out with
  | nil => exact keeps_pure trivial
  | cons s rest ih =>
    rw [readClusterSectors]
    split_ifs
    · refine keeps_bind (upholds_read base _) fun read _ => ?_
      cases read with
      | none => exact keeps_pure trivial
      | some sec => exact ih _
    · exact keeps_pure trivial

theorem keeps_readFileLoop (remaining hops cluster : Nat) (out : List UInt8) : Keeps serve Inv (fun _ => True)
      (readFileLoop context remaining hops cluster out) := by
  induction hops generalizing cluster out with
  | zero => exact keeps_pure trivial
  | succ hops ih =>
    rw [readFileLoop]
    split_ifs
    · refine keeps_bind (keeps_readClusterSectors base _ _ _ _) fun read _ => ?_
      rcases read with ⟨out, whole⟩
      cases whole
      · exact keeps_pure trivial
      · refine keeps_bind (upholds_chainAdvance base cluster) fun next _ => ?_
        cases next with
        | none => exact keeps_pure trivial
        | some next => exact ih _ _
    · exact keeps_pure trivial

/-- Reading a file keeps it. -/
theorem keeps_readFile (sized : context.Sized) (path : Text) (capacity : Nat) :
    Keeps serve Inv (fun _ => True) (fat32ContextReadFile context path capacity) := by
  refine keeps_bind (upholds_resolve base sized path) fun found _ => ?_
  cases found with
  | none => exact keeps_pure trivial
  | some entry =>
    simp only
    split_ifs
    · exact keeps_pure trivial
    · exact keeps_readFileLoop base _ _ _ _

theorem keeps_listDirectory (sized : context.Sized) (path : Text) (capacity : Nat) :
    Keeps serve Inv (fun _ => True) (fat32ContextListDirectory context path capacity) := by
  refine keeps_bind (upholds_resolve base sized path) fun found _ => ?_
  cases found with
  | none => exact keeps_pure trivial
  | some entry =>
    simp only
    split_ifs
    · exact keeps_pure trivial
    · exact keeps_listDirChain base sized _ _

theorem keeps_isDirectory (sized : context.Sized) (path : Text) :
    Keeps serve Inv (fun _ => True) (fat32ContextIsDirectory context path) := by
  refine keeps_bind (upholds_resolve base sized path) fun found _ => ?_
  cases found <;> exact keeps_pure trivial

theorem keeps_setTimestamps (entry : Slot) (created : Bool) :
    Keeps serve Inv (fun _ => True) (fat32SetTimestamps entry created) := by
  have clock (register : UInt8) :
      Keeps serve Inv (fun _ => True) (cmosRead register) :=
    keeps_op base (.cmos register) trivial
  refine keeps_bind (clock _) fun _ _ => keeps_bind (clock _) fun _ _ => ?_
  refine keeps_bind (clock _) fun _ _ => keeps_bind (clock _) fun _ _ => ?_
  refine keeps_bind (clock _) fun _ _ => keeps_bind (clock _) fun _ _ => ?_
  refine keeps_bind (clock _) fun _ _ => ?_
  cases created <;> exact keeps_pure trivial

theorem upholds_oldContent (located : Option Located) :
    Guards serve Inv (fun _ => True) (oldContent context located) := by
  cases located with
  | none => exact guards_pure trivial
  | some located =>
    refine guards_guard fun _ => ?_
    by_cases chained : located.entry.firstCluster ≥ 2
    · simp only [if_pos chained]
      exact guards_bind (upholds_chainValid base _) fun _ _ => guards_pure trivial
    · simp only [if_neg chained]
      exact guards_pure trivial

end Upkeep

end AsasOs.Fat32
