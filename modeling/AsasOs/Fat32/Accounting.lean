import AsasOs.Fat32.Persistence
import AsasOs.Fat32.Table

/-!
# FAT32: the count of free clusters

The counter of free clusters against the table. Each change of the table that the driver
makes changes the counter by the entries that it changes: a cluster that is taken was free,
a chain that is released was not, and a link is set in an entry that was not free and is not
after it. The last is where the driver does not look: the cluster at the end of a directory
is linked to a new one without being a cluster of the volume.
-/
namespace AsasOs.Fat32

open Block Bytes Prog Chains

/-! ### Counting -/

/-- The number of clusters whose entry is free. -/
def freeEntries (context : Context) (medium : Nat → List UInt8) : Nat :=
  ((Finset.Ico 2 context.maxCluster).filter fun cluster => entryOf context medium cluster = 0).card

/-- The counter says how many clusters are free. -/
structure Accounted (context : Context) (v : Volume) : Prop where
  sized : TableSized context v.medium
  count : v.info.freeClusterCount = freeEntries context v.medium

section Counting

variable {context : Context} {medium medium' : Nat → List UInt8} {v : Volume} {cluster : Nat}

theorem mem_clusters : cluster ∈ Finset.Ico 2 context.maxCluster ↔
    context.dataClusterValid cluster = true :=
  Finset.mem_Ico.trans Context.dataClusterValid_iff.symm

theorem freeEntries_le (context : Context) (medium : Nat → List UInt8) :
    freeEntries context medium ≤ context.maxCluster - 2 :=
  (Finset.card_filter_le _ _).trans (Nat.card_Ico 2 context.maxCluster).le

theorem freeEntries_congr (same : ∀ other, context.dataClusterValid other = true →
      (entryOf context medium' other = 0 ↔ entryOf context medium other = 0)) :
    freeEntries context medium' = freeEntries context medium :=
  congrArg Finset.card (Finset.filter_congr fun other member => same other (mem_clusters.mp member))

theorem freeEntries_add {cells : Finset Nat}
    (inside : ∀ cell ∈ cells, context.dataClusterValid cell = true ∧ entryOf context medium cell ≠ 0)
    (cleared : ∀ other, context.dataClusterValid other = true →
      (entryOf context medium' other = 0 ↔ other ∈ cells ∨ entryOf context medium other = 0)) :
    freeEntries context medium' = freeEntries context medium + cells.card := by
  have apart : Disjoint ((Finset.Ico 2 context.maxCluster).filter fun other =>
      entryOf context medium other = 0) cells := by
    refine Finset.disjoint_left.mpr fun other free member => ?_
    exact (inside other member).2 (Finset.mem_filter.mp free).2
  rw [freeEntries, freeEntries, ← Finset.card_union_of_disjoint apart]
  congr 1
  ext other
  simp only [Finset.mem_union, Finset.mem_filter]
  constructor
  · rintro ⟨valid, free⟩
    rcases (cleared other (mem_clusters.mp valid)).mp free with member | before
    · exact .inr member
    · exact .inl ⟨valid, before⟩
  · rintro (⟨valid, before⟩ | member)
    · exact ⟨valid, (cleared other (mem_clusters.mp valid)).mpr (.inr before)⟩
    · have valid := (inside other member).1
      exact ⟨mem_clusters.mpr valid, (cleared other valid).mpr (.inl member)⟩

/-! ### What keeps the count -/

variable (wf : context.WellFormed)

include wf

theorem Accounted.known (accounted : Accounted context v) :
    v.info.freeClusterCount ≠ FAT32_FSINFO_UNKNOWN ∧
      v.info.freeClusterCount ≤ context.maxCluster - 2 := by
  have most := freeEntries_le context v.medium
  have numbers := wf.numbers
  rw [accounted.count]
  unfold FAT32_FSINFO_UNKNOWN
  unfold FAT32_RESERVED_START at numbers
  omega

theorem Accounted.take (accounted : Accounted context v)
    (valid : context.dataClusterValid cluster = true)
    (free : entryOf context v.medium cluster = 0) : Accounted context (v.take context cluster) := by
  have marked (other : Nat) (valid' : context.dataClusterValid other = true) :=
    entryOf_take wf valid accounted.sized valid'
  have known := accounted.known wf
  have one : freeEntries context v.medium =
      freeEntries context (v.take context cluster).medium + ({cluster} : Finset Nat).card := by
    refine freeEntries_add (fun cell member => ?_) fun other valid' => ?_
    · rw [Finset.mem_singleton.mp member, marked cluster valid, if_pos rfl]
      exact ⟨valid, by decide⟩
    · rw [marked other valid', Finset.mem_singleton]
      split_ifs with here
      · simp [here, free]
      · simp [here]
  rw [Finset.card_singleton] at one
  refine ⟨take_sized wf valid accounted.sized, ?_⟩
  show (v.info.take context.maxCluster cluster).freeClusterCount = _
  have count := accounted.count
  rw [Info.take, if_pos ⟨known.1, by omega⟩]
  show v.info.freeClusterCount - 1 = _
  omega

theorem Accounted.exhaust (accounted : Accounted context v)
    (full : ∀ cell, context.dataClusterValid cell = true → entryOf context v.medium cell ≠ 0) :
    Accounted context (v.withInfo v.info.exhaust) := by
  refine ⟨accounted.sized, ?_⟩
  show v.info.exhaust.freeClusterCount = freeEntries context v.medium
  rw [Info.exhaust, if_pos (accounted.known wf).1]
  refine (Finset.card_eq_zero.mpr (Finset.filter_eq_empty_iff.mpr fun cell member => ?_)).symm
  exact full cell (mem_clusters.mp member)

theorem Accounted.link (accounted : Accounted context v) {next : Nat}
    (valid : context.dataClusterValid cluster = true) (linked : entryOf context v.medium cluster ≠ 0)
    (valid' : context.dataClusterValid next = true) :
    Accounted context (v.setEntry context cluster next) := by
  obtain ⟨low, high⟩ := Context.dataClusterValid_iff.mp valid'
  have numbers := wf.numbers
  unfold FAT32_RESERVED_START at numbers
  refine ⟨Volume.setEntry_sized wf valid accounted.sized, ?_⟩
  rw [Volume.setEntry_info, accounted.count]
  refine (freeEntries_congr fun other valid'' => ?_).symm
  rw [Volume.entryOf_setEntry wf valid valid'' accounted.sized]
  split_ifs with here
  · rw [here]
    exact iff_of_false (by omega) linked
  · exact Iff.rfl

theorem Accounted.release (accounted : Accounted context v) {cells : List Nat}
    (chain : Chain (v.link context) cluster cells) :
    Accounted context ((v.clearEntries context cells).withInfo
      (v.info.release context.maxCluster cluster cells.length)) := by
  have inside : ∀ cell ∈ cells, context.dataClusterValid cell = true ∧
      entryOf context v.medium cell ≠ 0 := fun cell member => chain_valid chain member
  have valid := fun cell member => (inside cell member).1
  have more : freeEntries context (v.clearEntries context cells).medium =
      freeEntries context v.medium + cells.length := by
    rw [← List.toFinset_card_of_nodup chain.nodup]
    refine freeEntries_add (fun cell member => inside cell (List.mem_toFinset.mp member))
      fun other valid' => ?_
    rw [entryOf_clearEntries wf valid accounted.sized valid', List.mem_toFinset]
    split_ifs with here
    · simp [here]
    · simp [here]
  have most := freeEntries_le context (v.clearEntries context cells).medium
  have known := accounted.known wf
  have numbers := wf.numbers
  have count := accounted.count
  unfold FAT32_RESERVED_START at numbers
  refine ⟨clearEntries_sized wf valid accounted.sized, ?_⟩
  show (v.info.release context.maxCluster cluster cells.length).freeClusterCount =
    freeEntries context (v.clearEntries context cells).medium
  rw [Info.release, if_pos known.1, if_neg (by omega)]
  show v.info.freeClusterCount + cells.length = _
  omega

end Counting

/-! ### What the driver does to the count -/

section Calls

variable {context : Context} {v : Volume}

theorem indifferent_tables {Inv : Volume → Prop}
    (same : ∀ v v' : Volume, (∀ lba < context.dataStart, v'.medium lba = v.medium lba) →
      v'.info = v.info → Inv v → Inv v') :
    Indifferent context (serve context.device) Inv where
  quiet := fun op v quiet inv => by
    cases op with
    | write => exact quiet.elim
    | writeRun => exact quiet.elim
    | setInfo => exact quiet.elim
    | _ => exact same v _ (fun _ _ => rfl) rfl inv
  write := fun lba sector v behind inv => by
    simp only [serve]
    split_ifs
    · refine same v _ (fun other below => ?_) rfl inv
      exact Volume.write_other (by omega) sector
    · exact inv

variable (wf : context.WellFormed)

include wf

theorem Accounted.same {v' : Volume} (accounted : Accounted context v)
    (medium : ∀ lba < context.dataStart, v'.medium lba = v.medium lba)
    (info : v'.info.freeClusterCount = v.info.freeClusterCount) : Accounted context v' := by
  refine ⟨fun lba low high => by rw [medium lba high, accounted.sized lba low high], ?_⟩
  rw [info, accounted.count]
  refine (freeEntries_congr fun other valid => ?_).symm
  rw [entryOf_congr wf valid fun lba _ high => medium lba high]

theorem accounted_base : Indifferent context (serve context.device) (Accounted context) :=
  indifferent_tables fun _ _ medium info accounted => accounted.same wf medium (by rw [info])

theorem accounted_allocate : Guards (serve context.device) (Accounted context)
      (fun taken => context.dataClusterValid taken = true) (fat32AllocateCluster context) := by
  intro v accounted
  show Accounted context (runCode context.device _ v).2 ∧
    ∀ taken, (runCode context.device _ v).1 = some taken → _
  rcases allocateCluster_cases (v := v) wf with ⟨free, valid, empty, -, ran⟩ | ran | ⟨full, ran⟩
  · rw [ran]
    refine ⟨accounted.take wf valid empty, ?_⟩
    rintro taken ⟨⟩
    exact valid
  · rw [ran]
    exact ⟨accounted, nofun⟩
  · rw [ran]
    exact ⟨accounted.exhaust wf full, nofun⟩

theorem accounted_free (cluster : Nat) :
    Guards (serve context.device) (Accounted context) (fun _ => True) (fat32FreeChain context cluster) := by
  intro v accounted
  refine ⟨?_, fun _ _ => trivial⟩
  show Accounted context (runCode context.device _ v).2
  by_cases chained : ∃ cells, Chain (v.link context) cluster cells
  · obtain ⟨cells, chain⟩ := chained
    cases writes : writable context.device with
    | true =>
      rw [freeChain_run wf writes accounted.sized chain]
      exact accounted.release wf chain
    | false =>
      rw [freeChain_readOnly wf writes]
      exact accounted
  · rw [freeChain_refused wf chained]
    exact accounted

theorem accounted_discard (first : Nat) (accounted : Accounted context v) :
    Accounted context (run (serve context.device) (discardChain context first) v).2 :=
  (keeps_discardChain (accounted_free wf) first v accounted).1

theorem accounted_allocateChainLoop (remaining first : Nat) {previous : Nat}
    (accounted : Accounted context v)
    (linked : previous = 0 ∨ context.dataClusterValid previous = true ∧
      entryOf context v.medium previous ≠ 0) :
    Accounted context (runCode context.device (allocateChainLoop context remaining first previous) v).2 := by
  induction remaining generalizing v first previous with
  | zero => exact accounted
  | succ remaining ih =>
    have gaveUp {w : Volume} (accounted : Accounted context w) (first : Nat) :
        Accounted context (runCode context.device
          (do discardChain context first; failure : Fat32Code Nat) w).2 := by
      rw [runCode_lift]
      exact accounted_discard wf first accounted
    rw [allocateChainLoop, runCode_observe]
    rcases allocateCluster_cases (v := v) wf with ⟨free, valid, empty, writes, ran⟩ | ran | ⟨full, ran⟩
    · have taken := accounted.take wf valid empty
      have marked {other : Nat} (valid' : context.dataClusterValid other = true) :=
        entryOf_take wf valid accounted.sized valid'
      rw [ran]
      simp only
      by_cases start : previous = 0
      · rw [if_neg (not_not.mpr start)]
        refine ih _ taken (.inr ⟨valid, ?_⟩)
        rw [marked valid, if_pos rfl]
        decide
      · obtain ⟨valid', before⟩ := linked.resolve_left start
        have apart : previous ≠ free := fun same => before (same ▸ empty)
        have still : entryOf context (v.take context free).medium previous ≠ 0 := by
          rwa [marked valid', if_neg apart]
        have joined := taken.link wf valid' still valid
        rw [if_pos start, runCode_observe, setCluster_run wf valid' writes]
        refine ih _ joined (.inr ⟨valid, ?_⟩)
        rw [Volume.entryOf_setEntry wf valid' valid taken.sized, if_neg apart.symm, marked valid, if_pos rfl]
        decide
    · rw [ran]
      exact gaveUp accounted first
    · rw [ran]
      exact gaveUp (accounted.exhaust wf full) first

theorem accounted_allocateChain (count : Nat) :
    Guards (serve context.device) (Accounted context) (fun _ => True) (fat32AllocateChain context count) := by
  refine guards_lift (keeps_op (accounted_base wf) .info trivial) fun _ _ => guards_guard fun _ => ?_
  exact fun v accounted =>
    ⟨accounted_allocateChainLoop wf count 0 accounted (.inl rfl), fun _ _ => trivial⟩

theorem accounted_extendLoop (needed rounds : Nat) {last : Nat} {positions : List Position}
    (accounted : Accounted context v) (valid' : context.dataClusterValid last = true)
    (linked : entryOf context v.medium last ≠ 0) (behind : Behind context positions)
    (enough : needed ≤ positions.length + rounds) :
    Accounted context (runCode context.device (extendLoop context needed rounds last positions) v).2 ∧
      ∀ more, (runCode context.device (extendLoop context needed rounds last positions) v).1 =
      some more →
        Behind context more ∧ needed ≤ more.length := by
  induction rounds generalizing v last positions with
  | zero =>
    refine ⟨accounted, ?_⟩
    rintro more ⟨⟩
    exact ⟨behind, enough⟩
  | succ rounds ih =>
    rw [extendLoop]
    by_cases short : positions.length < needed
    · rw [if_pos short]
      rcases allocateCluster_cases (v := v) wf with ⟨free, valid, empty, writes, ran⟩ | ran | ⟨full, ran⟩
      · have taken := accounted.take wf valid empty
        have marked {other : Nat} (valid' : context.dataClusterValid other = true) :=
          entryOf_take wf valid accounted.sized valid'
        have apart : last ≠ free := fun same => linked (same ▸ empty)
        have still : entryOf context (v.take context free).medium last ≠ 0 := by
          rwa [marked valid', if_neg apart]
        have joined := taken.link wf valid' still valid
        have ends : entryOf context ((v.take context free).setEntry context last free).medium free ≠ 0 := by
          rw [Volume.entryOf_setEntry wf valid' valid taken.sized, if_neg apart.symm, marked valid, if_pos rfl]
          decide
        -- the sectors of the new cluster are not those of the table
        have base : Indifferent context (serve context.device) fun v =>
            Accounted context v ∧ entryOf context v.medium free ≠ 0 :=
          indifferent_tables fun _ _ medium info inv => ⟨inv.1.same wf medium (by rw [info]), by
            rw [entryOf_congr wf valid fun lba _ high => medium lba high]
            exact inv.2⟩
        obtain ⟨⟨accounted', ends'⟩, found⟩ := upholds_extendSectors base wf.toSized valid needed
          (fun _ member => List.mem_range.mp member) behind _ ⟨joined, ends⟩
        rw [runCode_bind_some ran, runCode_observe, setCluster_run wf valid' writes]
        simp only
        rw [runCode_bind]
        generalize cleared : runCode context.device (extendSectors context free needed
          (List.range context.bpb.sectorsPerCluster) positions)
          ((v.take context free).setEntry context last free) = outcome
        rw [← runCode, cleared] at accounted' ends' found
        rcases outcome with ⟨_ | more, w⟩
        · exact ⟨accounted', by rintro _ ⟨⟩⟩
        · obtain ⟨behind', -, longer⟩ := found more rfl
          have some_ : List.range context.bpb.sectorsPerCluster ≠ [] := by
            have positive := wf.cluster
            simp only [ne_eq, List.range_eq_nil]
            omega
          have longer' := longer some_ short
          exact ih accounted' valid ends' behind' (by omega)
      · rw [runCode_bind_none ran]
        exact ⟨accounted, by rintro _ ⟨⟩⟩
      · rw [runCode_bind_none ran]
        exact ⟨accounted.exhaust wf full, by rintro _ ⟨⟩⟩
    · rw [if_neg short]
      refine ⟨accounted, ?_⟩
      rintro more ⟨⟩
      exact ⟨behind, Nat.not_lt.mp short⟩

omit wf in
theorem run_walkClusters {σ ρ : Type} (visit : Visit σ ρ) (count hops last current : Nat) (state : σ)
    (v : Volume) :
    (run (serve context.device) (walkClusters context visit count hops last current state) v).2 = v :=
  congrArg Prod.snd (run_reading _ (reading_walkClusters _ _ _ _) v)

theorem walkClusters_last {σ ρ : Type} {visit : Visit σ ρ} {count hops last current last' next : Nat}
    {state state' : σ}
    (ended : (run (serve context.device)
      (walkClusters context visit count hops last current state) v).1 = .ended state' last' next) :
    last' = last ∧ (hops = 0 ∨ ¬context.dataClusterValid current = true) ∨
      context.dataClusterValid last' = true ∧ entryOf context v.medium last' ≠ 0 := by
  induction hops generalizing last current state with
  | zero =>
    cases ended
    exact .inl ⟨rfl, .inl rfl⟩
  | succ hops ih =>
    rw [walkClusters] at ended
    split_ifs at ended with valid
    · rw [Prog.run_bind, run_reading _ (reading_walkSectors _ _ _)] at ended
      generalize eval (answer (v.reads context.device)) (walkSectors context visit count current
        (List.range context.bpb.sectorsPerCluster) state) = walk at ended
      cases walk with
      | found result cluster => cases ended
      | broken state => cases ended
      | ended state₁ last₁ next₁ =>
        simp only at ended
        have step : run (serve context.device) (fat32ChainAdvance context current).run v = _ :=
          chainAdvance_run wf v current
        rw [Prog.run_bind, step] at ended
        cases linked : v.link context current with
        | none =>
          rw [linked] at ended
          cases ended
        | some here =>
          rw [linked] at ended
          refine .inr ?_
          rcases ih ended with ⟨rfl, -⟩ | after
          · exact linkAt_valid fun none_ => Option.some_ne_none here (linked.symm.trans none_)
          · exact after
    · cases ended
      exact .inl ⟨rfl, .inr valid⟩

theorem accounted_reserve {dirCluster : Nat} (needed : Nat)
    (here : context.dataClusterValid dirCluster = true) :
    Guards (serve context.device) (Accounted context)
      (fun positions => Behind context positions ∧ needed ≤ positions.length)
      (fat32ReserveEntries context dirCluster needed) := by
  intro v accounted
  have knows : Walk.All (Behind context) (fun positions => Behind context positions ∧ needed ≤ positions.length)
      (run (serve context.device) (walkDir context (reserveVisit needed) 16 dirCluster []) v).1 :=
    (keeps_walkDir (accounted_base wf) wf.toSized (reserveVisit_knows context needed) dirCluster
      (by simp [Behind]) v accounted).2
  show Accounted context (runCode context.device _ v).2 ∧
    ∀ positions, (runCode context.device _ v).1 = some positions → _
  rw [fat32ReserveEntries, runCode_lift]
  have same : (run (serve context.device)
      (walkDir context (reserveVisit needed) 16 dirCluster []) v).2 = v := run_walkClusters _ _ _ _ _ _ v
  rw [same]
  cases walked : (run (serve context.device) (walkDir context (reserveVisit needed) 16 dirCluster []) v).1 with
  | found positions cluster =>
    rw [walked] at knows
    refine ⟨accounted, ?_⟩
    rintro positions' ⟨⟩
    exact knows
  | broken state => exact ⟨accounted, by rintro _ ⟨⟩⟩
  | ended positions last next =>
    rw [walked] at knows
    have some_ := wf.some_
    rcases walkClusters_last wf walked with ⟨-, none_ | invalid⟩ | ⟨valid, linked⟩
    · omega
    · exact absurd here invalid
    · exact accounted_extendLoop wf needed needed accounted valid linked knows (by omega)

theorem accounted_steady : Steady context (serve context.device) (Accounted context)
    (fun dirCluster => context.dataClusterValid dirCluster = true) where
  base := accounted_base wf
  allocate := accounted_allocate wf
  allocateChain := accounted_allocateChain wf
  free := accounted_free wf
  reserve := fun _ needed here => accounted_reserve wf needed here

end Calls

/-! ### Runs -/

section Runs

variable {context : Context} {device : Device} {start v v₀ : Volume}

/-- The directory in which a call makes an entry starts at a cluster of the volume. -/
def GroundedCalls (context : Context) : List Call → Volume → Prop
  | [], _ => True
  | next :: rest, v =>
    next.Grounded context (serve context.device)
      (fun dirCluster => context.dataClusterValid dirCluster = true) v ∧
      GroundedCalls context rest (next.after context v)

theorem mount_sectors (sectors : ∀ lba, (v.medium lba).length = device.logicalBlockSize)
    (mounted : runCode device (fat32InitializeContext device) v = (some context, v₀))
    (table : context.bpb.sectorsPerFat ≤ 2 ^ 21) :
    ∀ lba, (v₀.medium lba).length = context.sectorSize := by
  obtain ⟨first, same, accepted⟩ := mounted_context mounted
  subst same
  intro lba
  rw [Context.sectorSize_eq accepted]
  obtain ⟨v', repaired, ⟨-, -, ran⟩ | ⟨-, ran⟩⟩ :=
    initializeContext_run first accepted (Context.sized_of_accepted accepted table)
  all_goals rw [ran] at mounted; cases mounted
  obtain ⟨source, same⟩ := repaired.copies lba
  exact (congrArg List.length same).trans (sectors source)

variable (wf : context.WellFormed) (has : context.hasFsinfo = true)

include wf has

theorem Accounted.saved (accounted : Accounted context v) : Accounted context (context.saved v) := by
  have primary := (Context.hasFsinfo_iff.mp has).2
  have start : context.fatStart = context.bpb.reservedSectors := rfl
  have outside {lba : Nat} (low : context.fatStart ≤ lba) :
      (context.saved v).medium lba = v.medium lba := by
    refine saved_other (by omega) fun backup => ?_
    have there := (Context.hasBackup_iff.mp backup).2
    omega
  refine ⟨fun lba low high => by rw [outside low, accounted.sized lba low high], ?_⟩
  show v.info.freeClusterCount = _
  rw [accounted.count]
  refine (freeEntries_congr fun other valid => ?_).symm
  rw [entryOf_congr wf valid fun lba low _ => outside low]

theorem accounted_calls {calls : List Call} (tracked : Tracked context start v)
    (accounted : Accounted context v) (grounded : GroundedCalls context calls v) :
    Accounted context (afterCalls context calls v) := by
  induction calls generalizing v with
  | nil => exact accounted
  | cons call rest ih =>
    refine ih (v := call.after context v)
      (tracked_calls wf.toSized wf.some_ has [call] tracked) ?_ grounded.2
    by_cases sync : call = .sync
    · subst sync
      rw [after_sync wf.toSized wf.some_ has tracked.proper.valid]
      split_ifs
      · exact accounted.saved wf has
      · exact accounted
    · exact keeps_call (accounted_steady wf) wf.toSized sync accounted grounded.1

omit wf has

/-- The counter of free clusters is exact after calls that make entries only in directories
that start at clusters of the volume, and it is what a sync saves. -/
theorem free_count_exact {calls : List Call}
    (sectors : ∀ lba, (v.medium lba).length = device.logicalBlockSize)
    (mounted : runCode device (fat32InitializeContext device) v = (some context, v₀))
    (wf : context.WellFormed) (loaded : v₀.info.fsinfoValid = true)
    (exact_ : v₀.info.freeClusterCount = freeEntries context v₀.medium)
    (grounded : GroundedCalls context calls v₀) :
    (afterCalls context calls v₀).info.freeClusterCount =
        freeEntries context (afterCalls context calls v₀).medium ∧
      ∀ w, runCode device (fat32ContextSync context) (afterCalls context calls v₀) = (some (), w) →
        (afterCalls context calls v₀).info.fsinfoDirty = true →
        getLE (w.medium context.bpb.fsInfoSector) 488 4 = freeEntries context w.medium := by
  obtain ⟨on, sized, some_, has, faithful, -⟩ := mount_faithful sectors mounted wf.fat loaded
  have sized₀ := mount_sectors sectors mounted wf.fat
  have tracked := tracked_calls sized some_ has calls faithful.toTracked
  have accounted := accounted_calls wf has faithful.toTracked ⟨fun lba _ _ => sized₀ lba, exact_⟩ grounded
  refine ⟨accounted.count, fun w synced dirty => ?_⟩
  rw [← on, sync_run sized some_ has, tracked.proper.valid, dirty] at synced
  simp only [Bool.and_true, if_true] at synced
  split_ifs at synced
  · cases synced
    have saved := (accounted.saved wf has).count
    have room := fsinfo_room sized has tracked
    have known := accounted.known wf
    have bound := maxCluster_lt context some_
    rw [← saved, saved_primary, Context.savedSector, getLE,
      slice_putLE_other (by rw [putLE_length (by omega)]; omega) (by omega), ← getLE,
      getLE_putLE (by omega), Nat.mod_eq_of_lt (by omega)]
    rfl
  · cases synced

end Runs

/-! ### A directory that starts nowhere -/

/-- The small volume with a directory D whose first cluster is not one of it. -/
def strayDevice : Volume :=
  (smallDevice smallFsinfo smallFsinfo).write 34 (put (List.replicate 512 0) 0
    (put (newEntry FAT32_ATTR_DIRECTORY 0x40000005 0) 0 (0x44 :: List.replicate 10 0x20)))

def strayWrite : Call := .writeFile [0x2F, 0x44, 0x2F, 0x41] []

/-- The cluster that D gets is linked from entry 5 of the table: two entries have changed,
the counter by one. -/
theorem stray_link_uncounted :
    (runCode smallDisk (fat32InitializeContext smallDisk) strayDevice).1 = some smallVolume ∧
      (mountedVolume strayDevice).info = ⟨99, 3, true, false⟩ ∧
      freeEntries smallVolume (mountedVolume strayDevice).medium = 99 ∧
      (runCode smallDisk (strayWrite.code smallVolume) (mountedVolume strayDevice)).1 = some () ∧
      (strayWrite.after smallVolume (mountedVolume strayDevice)).info.freeClusterCount = 98 ∧
      freeEntries smallVolume (strayWrite.after smallVolume (mountedVolume strayDevice)).medium =
      97 := by
  decide +kernel

theorem smallVolume_wellFormed : smallVolume.WellFormed := by
  refine ⟨⟨?_, ?_, ?_, ?_, ?_, ?_, ?_⟩, ?_, ?_, ?_, ?_, ?_⟩ <;> decide

theorem smallWrite_grounded :
    GroundedCalls smallVolume [smallWrite] (mountedVolume (smallDevice smallFsinfo smallFsinfo)) := by
  refine ⟨fun parent resolved => ?_, trivial⟩
  have root : (run (serve smallVolume.device)
      (fat32ResolveParentLeaf smallVolume [0x2F, 0x41]).run
      (mountedVolume (smallDevice smallFsinfo smallFsinfo))).1 = some (2, [0x41]) := by decide
  rw [root] at resolved
  cases resolved
  decide

/-- A byte in a file of the root directory leaves 98 clusters, and the counter says so. -/
theorem free_count_small : (afterCalls smallVolume [smallWrite]
          (mountedVolume (smallDevice smallFsinfo smallFsinfo))).info.freeClusterCount =
        freeEntries smallVolume (afterCalls smallVolume [smallWrite]
          (mountedVolume (smallDevice smallFsinfo smallFsinfo))).medium ∧
      ∀ w, runCode smallDisk (fat32ContextSync smallVolume) (afterCalls smallVolume [smallWrite]
          (mountedVolume (smallDevice smallFsinfo smallFsinfo))) = (some (), w) →
        (afterCalls smallVolume [smallWrite]
          (mountedVolume (smallDevice smallFsinfo smallFsinfo))).info.fsinfoDirty = true →
        getLE (w.medium smallVolume.bpb.fsInfoSector) 488 4 = freeEntries smallVolume w.medium := by
  have length : smallFsinfo.length = 512 := by decide +kernel
  exact free_count_exact (smallDevice_sectors length length) smallDevice_mounted smallVolume_wellFormed
    (by decide +kernel) (by decide +kernel) smallWrite_grounded

end AsasOs.Fat32
