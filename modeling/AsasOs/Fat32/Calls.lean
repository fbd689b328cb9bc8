import AsasOs.Fat32.Upkeep

/-!
# FAT32: what the calls of the driver keep

All that a call of the driver does to a volume, other than to write the sectors of clusters,
is done by the functions that take and release clusters and reserve entries. An invariant
that these keep is kept by every call but `fat32_context_sync`. It need not be kept in a
directory that does not start at a cluster of the volume: which directories it is kept in
is a parameter.
-/
namespace AsasOs.Fat32

open Block Prog

/-- An invariant that taking and releasing clusters keeps, and reserving entries in some
directories. -/
structure Steady (context : Context) {σ : Type} (serve : (op : Fat32Op) → σ → op.Response × σ)
    (Inv : σ → Prop) (Parent : Nat → Prop) : Prop where
  base : Indifferent context serve Inv
  allocate : Guards serve Inv (fun taken => context.dataClusterValid taken = true)
    (fat32AllocateCluster context)
  allocateChain : ∀ count, Guards serve Inv (fun _ => True) (fat32AllocateChain context count)
  free : ∀ cluster, Guards serve Inv (fun _ => True) (fat32FreeChain context cluster)
  reserve : ∀ dirCluster needed, Parent dirCluster →
    Guards serve Inv (fun run => Behind context run ∧ needed ≤ run.length)
      (fat32ReserveEntries context dirCluster needed)

section Upkeep

variable {context : Context} {σ : Type} {serve : (op : Fat32Op) → σ → op.Response × σ}
  {Inv : σ → Prop} {Parent : Nat → Prop}

theorem keeps_discardChain
    (free : ∀ cluster, Guards serve Inv (fun _ => True) (fat32FreeChain context cluster)) (first : Nat) :
    Keeps serve Inv (fun _ => True) (discardChain context first) := by
  unfold discardChain
  split_ifs
  · exact keeps_bind (free first) fun _ _ => keeps_pure trivial
  · exact keeps_pure trivial

/-! ### The calls -/

section At

variable {α β : Type} {P : β → Prop} {s : σ}

theorem keeps_part_at {x : Fat32Code β} {f : β → Fat32Code α} (first : Guards serve Inv P x)
    (inv : Inv s)
    (rest : ∀ value, (run serve x.run s).1 = some value → P value → Inv (run serve x.run s).2 →
      Inv (run serve (f value).run (run serve x.run s).2).2) :
    Inv (run serve (x >>= f).run s).2 := by
  obtain ⟨inv', holds⟩ := first s inv
  rw [OptionT.run_bind, Option.elimM, Prog.run_bind]
  cases result : (run serve x.run s).1 with
  | none => exact inv'
  | some value => exact rest value result (holds value result) inv'

theorem keeps_bind_at {x : Fat32Code β} {f : β → Fat32Code α} (first : Guards serve Inv P x)
    (inv : Inv s)
    (rest : ∀ value, (run serve x.run s).1 = some value → P value →
      Guards serve Inv (fun _ => True) (f value)) :
    Inv (run serve (x >>= f).run s).2 :=
  keeps_part_at first inv fun value result holds inv' => (rest value result holds _ inv').1

theorem keeps_guard_at {p : Prop} [Decidable p] {f : Unit → Fat32Code α} (inv : Inv s)
    (rest : p → Inv (run serve (f ()).run s).2) : Inv (run serve (guard p >>= f).run s).2 := by
  by_cases holds : p
  · simp only [guard, if_pos holds]
    exact rest holds
  · simp only [guard, if_neg holds]
    exact inv

end At

/-- The directory in which a call makes an entry, as the call finds it, is one of some. -/
def Call.Grounded (context : Context) (serve : (op : Fat32Op) → σ → op.Response × σ)
    (Parent : Nat → Prop) (call : Call) (s : σ) : Prop :=
  match call with
  | .writeFile path _ => ∀ parent,
    (run serve (fat32ResolveParentLeaf context path).run s).1 = some parent → Parent parent.1
  | .createDirectory path => ∀ parent,
    (run serve (fat32ResolveParentLeaf context path).run s).1 = some parent → Parent parent.1
  | .rename source destination => ∀ parent,
    (run serve (fat32ResolveParentLeaf context destination).run
      (run serve (fat32ResolveParentLeaf context source).run s).2).1 = some parent → Parent parent.1
  | _ => True

section Steady

variable (steady : Steady context serve Inv Parent)

include steady

theorem upholds_writeNamedEntry (sized : context.Sized) {parent : Nat} (here : Parent parent)
    (leaf : Text) (source : Slot) :
    Guards serve Inv (fun _ => True) (fat32WriteNamedEntry context parent leaf source) := by
  refine guards_ofOption fun utf16 _ => ?_
  refine guards_bind (upholds_makeShortAlias steady.base sized parent leaf) fun made _ => ?_
  refine guards_guard fun _ => ?_
  refine guards_bind (steady.reserve parent _ here) fun positions holds => ?_
  refine guards_bind (upholds_writeSlots steady.base holds.1 0 _ ?_) fun _ _ => guards_pure trivial
  simpa using holds.2

theorem upholds_storeContent (sized : context.Sized) (buffer : List UInt8) :
    Guards serve Inv (fun _ => True) (storeContent context buffer) := by
  refine guards_bind (steady.allocateChain _) fun first _ => ?_
  refine guards_observe (upholds_writeChainLoop steady.base sized _ _ _) fun written _ => ?_
  cases written with
  | none => exact guards_lift (keeps_discardChain steady.free _) fun _ _ => guards_failure
  | some _ => exact guards_pure trivial

theorem upholds_newContent (sized : context.Sized) (buffer : List UInt8) :
    Guards serve Inv (fun _ => True) (newContent context buffer) := by
  rw [newContent]
  split_ifs
  · exact upholds_storeContent steady sized buffer
  · exact guards_pure trivial

theorem upholds_publishFile (sized : context.Sized) {parent : Nat} (here : Parent parent) (leaf : Text)
    (newCluster size : Nat) {located : Option Located}
    (found : ∀ entry, located = some entry → Behind context entry.positions ∧ entry.positions ≠ []) :
    Guards serve Inv (fun _ => True) (publishFile context parent leaf newCluster size located) := by
  cases located with
  | none =>
    exact guards_lift (keeps_setTimestamps steady.base _ _) fun target _ =>
      guards_bind (upholds_writeNamedEntry steady sized here _ _) fun _ _ => guards_pure trivial
  | some located =>
    obtain ⟨behind, some_⟩ := found located rfl
    refine guards_lift (keeps_setTimestamps steady.base _ _) fun target _ => ?_
    refine upholds_positionWrite steady.base ?_ target
    rw [List.getLastD_eq_getLast?, List.getLast?_eq_getLast_of_ne_nil some_, Option.getD_some]
    exact behind _ (List.getLast_mem some_)

theorem keeps_writeFile (sized : context.Sized) (path : Text) (buffer : List UInt8) {s : σ} (inv : Inv s)
    (fine : ∀ parent, (run serve (fat32ResolveParentLeaf context path).run s).1 = some parent →
      Parent parent.1) :
    Inv (run serve (fat32ContextWriteFile context path buffer).run s).2 := by
  refine keeps_guard_at inv fun _ => ?_
  refine keeps_bind_at (upholds_resolveParentLeaf steady.base sized path) inv fun parent resolved _ => ?_
  have here := fine parent resolved
  refine guards_observe (upholds_findNamedEntry steady.base sized _ _) fun located found => ?_
  refine guards_bind (upholds_oldContent steady.base located) fun oldCluster _ => ?_
  refine guards_bind (upholds_newContent steady sized buffer) fun newCluster _ => ?_
  refine guards_observe (upholds_publishFile steady sized here _ _ _ found) fun written _ => ?_
  cases written with
  | none => exact guards_lift (keeps_discardChain steady.free _) fun _ _ => guards_failure
  | some _ =>
    simp only
    split_ifs
    · exact guards_pure trivial
    · exact steady.free oldCluster

theorem upholds_deleteFile (sized : context.Sized) (path : Text) :
    Guards serve Inv (fun _ => True) (fat32ContextDeleteFile context path) := by
  refine guards_bind (upholds_resolveParentLeaf steady.base sized path) fun parent _ => ?_
  refine guards_bind (upholds_findNamedEntry steady.base sized _ _) fun located found => ?_
  refine guards_guard fun _ => ?_
  have finish : Guards serve Inv (fun _ => True) (do
      fat32MarkPositionsDeleted located.positions
      if located.entry.firstCluster < 2 then return ()
        else fat32FreeChain context located.entry.firstCluster) := by
    refine guards_bind (upholds_markPositionsDeleted steady.base found.1) fun _ _ => ?_
    split_ifs
    · exact guards_pure trivial
    · exact steady.free _
  by_cases chained : located.entry.firstCluster ≥ 2
  · simp only [if_pos chained]
    exact guards_bind (upholds_chainValid steady.base _) fun _ _ => finish
  · simp only [if_neg chained]
    exact finish

theorem upholds_deleteDirectory (sized : context.Sized) (path : Text) :
    Guards serve Inv (fun _ => True) (fat32ContextDeleteDirectory context path) := by
  refine guards_bind (upholds_resolveParentLeaf steady.base sized path) fun parent _ => ?_
  refine guards_bind (upholds_findNamedEntry steady.base sized _ _) fun located found => ?_
  refine guards_guard fun _ => guards_guard fun _ => ?_
  refine guards_bind (upholds_chainValid steady.base _) fun _ _ => ?_
  refine guards_lift (keeps_directoryIsEmpty steady.base sized _) fun empty _ => guards_guard fun _ => ?_
  exact guards_bind (upholds_markPositionsDeleted steady.base found.1) fun _ _ =>
    steady.free _

theorem keeps_createDirectory (sized : context.Sized) (path : Text) {s : σ} (inv : Inv s)
    (fine : ∀ parent, (run serve (fat32ResolveParentLeaf context path).run s).1 = some parent →
      Parent parent.1) :
    Inv (run serve (fat32ContextCreateDirectory context path).run s).2 := by
  refine keeps_bind_at (upholds_resolveParentLeaf steady.base sized path) inv fun parent resolved _ => ?_
  have here := fine parent resolved
  refine guards_lift (keeps_succeeds (upholds_findNamedEntry steady.base sized _ _)) fun _ _ => ?_
  refine guards_guard fun _ => ?_
  refine guards_bind steady.allocate fun cluster valid => ?_
  refine guards_observe (upholds_write steady.base (sized.clusterSector_data valid sized.cluster) _)
    fun written _ => ?_
  cases written with
  | none => exact guards_lift (keeps_discardChain steady.free _) fun _ _ => guards_failure
  | some _ =>
    refine guards_lift (keeps_setTimestamps steady.base _ _) fun target _ => ?_
    refine guards_observe (upholds_writeNamedEntry steady sized here _ _) fun created _ => ?_
    cases created with
    | none => exact guards_lift (keeps_discardChain steady.free _) fun _ _ => guards_failure
    | some _ => exact guards_pure trivial

theorem keeps_rename (sized : context.Sized) (source destination : Text) {s : σ} (inv : Inv s)
    (fine : ∀ parent, (run serve (fat32ResolveParentLeaf context destination).run
        (run serve (fat32ResolveParentLeaf context source).run s).2).1 = some parent →
      Parent parent.1) :
    Inv (run serve (fat32ContextRename context source destination).run s).2 := by
  have resolves := upholds_resolveParentLeaf steady.base sized
  refine keeps_part_at (resolves source) inv fun sourceParent _ _ inv => ?_
  refine keeps_bind_at (resolves destination) inv fun destinationParent resolved _ => ?_
  have here := fine destinationParent resolved
  refine guards_bind (upholds_findNamedEntry steady.base sized _ _) fun located found => ?_
  refine guards_lift (keeps_succeeds (upholds_findNamedEntry steady.base sized _ _)) fun _ _ => ?_
  refine guards_guard fun _ => ?_
  refine guards_lift (keeps_setTimestamps steady.base _ _) fun saved _ => ?_
  refine guards_bind (upholds_writeNamedEntry steady sized here _ _) fun _ _ => ?_
  split_ifs
  · refine guards_bind (P := fun _ => True) ?_ fun _ _ => upholds_markPositionsDeleted steady.base found.1
    refine guards_guard fun valid => ?_
    exact guards_bind (upholds_read steady.base _) fun _ _ =>
      upholds_write steady.base (sized.clusterSector_data valid sized.cluster) _
  · exact upholds_markPositionsDeleted steady.base found.1

theorem keeps_call (sized : context.Sized) {call : Call} (unsynced : call ≠ .sync) {s : σ} (inv : Inv s)
    (fine : call.Grounded context serve Parent s) : Inv (run serve (call.code context).run s).2 := by
  have reads {α : Type} {p : Fat32Prog α} (keeps : Keeps serve Inv (fun _ => True) p) :
      Guards serve Inv (fun _ => True) (do let _ ← liftM p : Fat32Code Unit) :=
    guards_lift keeps fun _ _ => guards_pure trivial
  cases call with
  | writeFile path buffer => exact keeps_writeFile steady sized path buffer inv fine
  | deleteFile path => exact (upholds_deleteFile steady sized path s inv).1
  | createDirectory path => exact keeps_createDirectory steady sized path inv fine
  | deleteDirectory path => exact (upholds_deleteDirectory steady sized path s inv).1
  | rename source destination => exact keeps_rename steady sized source destination inv fine
  | readFile path capacity => exact (reads (keeps_readFile steady.base sized path capacity) s inv).1
  | listDirectory path capacity =>
    exact (reads (keeps_listDirectory steady.base sized path capacity) s inv).1
  | fileSize path =>
    have size : Guards serve Inv (fun _ => True) (fat32ContextFileSize context path) :=
      guards_bind (upholds_resolve steady.base sized path) fun _ _ => guards_guard fun _ =>
        guards_pure trivial
    have whole : Guards serve Inv (fun _ => True)
        (do let _ ← observe (fat32ContextFileSize context path) : Fat32Code Unit) :=
      guards_observe size fun _ _ => guards_pure trivial
    exact (whole s inv).1
  | exists_ path => exact (reads (keeps_succeeds (upholds_resolve steady.base sized path)) s inv).1
  | isDirectory path => exact (reads (keeps_isDirectory steady.base sized path) s inv).1
  | sync => exact absurd rfl unsynced

end Steady

/-! ### Invariants of the table and the counters -/

/-- What a call of the driver other than `fat32_context_sync` asks for. -/
def Fat32Op.Behind (context : Context) : Fat32Op → Prop
  | .write lba _ => context.fatStart ≤ lba
  | .writeRun _ _ => False
  | .setInfo _ => False
  | _ => True

/-- What it does to the counters. -/
inductive InfoStep (context : Context) : Info → Info → Prop
  | take (info : Info) {cluster : Nat} (valid : context.dataClusterValid cluster = true) :
      InfoStep context info (info.take context.maxCluster cluster)
  | exhaust (info : Info) : InfoStep context info info.exhaust
  | release (info : Info) {first released : Nat} (valid : context.dataClusterValid first = true) :
      InfoStep context info (info.release context.maxCluster first released)

/-- An invariant that all of this keeps, whatever answers the calls. -/
structure Stable (context : Context) {σ : Type} (serve : (op : Fat32Op) → σ → op.Response × σ)
    (Inv : σ → Prop) : Prop where
  ops : ∀ op s, op.Behind context → Inv s → Inv (serve op s).2
  info : ∀ s info, Inv s → InfoStep context (serve .info s).1 info →
    Inv (serve (.setInfo info) (serve .info s).2).2

section Stable

variable (stable : Stable context serve Inv)

include stable

theorem Stable.base (sized : context.Sized) : Indifferent context serve Inv where
  quiet := fun op s quiet inv => by
    refine stable.ops op s ?_ inv
    cases op <;> trivial
  write := fun lba sector s data inv => by
    refine stable.ops (.write lba sector) s (le_trans ?_ data) inv
    rw [sized.dataStart_eq]
    exact Nat.le_add_right _ _

theorem upholds_tableWrite {lba : Nat} (behind : context.fatStart ≤ lba) (sector : List UInt8) :
    Guards serve Inv (fun _ => True) (f32WriteSector lba sector) :=
  upholds_attempt fun s inv => ⟨stable.ops (.write lba sector) s behind inv, trivial⟩

theorem upholds_setCopies (sized : context.Sized) (cluster value : Nat) {copies : List Nat}
    (inside : ∀ copy ∈ copies, copy < context.bpb.fatCount) :
    Guards serve Inv (fun _ => True) (setCopies context cluster value copies) := by
  induction copies with
  | nil => exact guards_pure trivial
  | cons copy rest ih =>
    refine guards_bind (upholds_read (stable.base sized) _) fun sec _ => ?_
    refine guards_bind (upholds_tableWrite stable ?_ _) fun _ _ =>
      ih fun other member => inside other (List.mem_cons_of_mem _ member)
    rw [sized.fat_lba (inside copy List.mem_cons_self).le]
    omega

theorem upholds_setCluster (sized : context.Sized) (cluster value : Nat) :
    Guards serve Inv (fun _ => True) (fat32SetCluster context cluster value) :=
  upholds_setCopies stable sized cluster value fun _ member => List.mem_range.mp member

end Stable

/-! ### Taking, releasing and linking clusters -/

/-- An invariant that the links of some clusters, those of the volume among them, may change under. -/
structure Linking (context : Context) {σ : Type} (serve : (op : Fat32Op) → σ → op.Response × σ)
    (Inv : σ → Prop) (Linked : Nat → Prop) : Prop where
  base : Indifferent context serve Inv
  valid : ∀ cluster, context.dataClusterValid cluster = true → Linked cluster
  set : ∀ cluster value, Linked cluster →
    Guards serve Inv (fun _ => True) (fat32SetCluster context cluster value)
  info : ∀ s info, Inv s → InfoStep context (serve .info s).1 info →
    Inv (serve (.setInfo info) (serve .info s).2).2

section Linking

variable {Linked : Nat → Prop} (linking : Linking context serve Inv Linked)

include linking

theorem keeps_changeInfo {change : Info → Info} (steps : ∀ info, InfoStep context info (change info)) :
    Keeps serve Inv (fun _ => True) (changeInfo change) :=
  fun s inv => ⟨linking.info s _ inv (steps _), trivial⟩

theorem upholds_takeCluster (sized : context.Sized) {cluster : Nat}
    (valid : context.dataClusterValid cluster = true) :
    Guards serve Inv (fun taken => context.dataClusterValid taken = true) (takeCluster context cluster) := by
  have linked := linking.valid cluster valid
  refine guards_bind (linking.set _ _ linked) fun _ _ => ?_
  refine guards_observe (upholds_clearSectors linking.base sized valid fun _ member =>
    List.mem_range.mp member) fun cleared _ => ?_
  cases cleared with
  | none => exact guards_observe (linking.set _ _ linked) fun _ _ => guards_failure
  | some _ =>
    exact guards_lift (keeps_changeInfo linking fun info => .take info valid) fun _ _ =>
      guards_pure valid

theorem upholds_allocateLoop (sized : context.Sized) (attempts : Nat) {cluster : Nat}
    (valid : context.dataClusterValid cluster = true) :
    Guards serve Inv (fun taken => context.dataClusterValid taken = true)
      (allocateLoop context attempts cluster) := by
  induction attempts generalizing cluster with
  | zero => exact guards_lift (keeps_changeInfo linking .exhaust) fun _ _ => guards_failure
  | succ attempts ih =>
    refine guards_lift (keeps_nextCluster linking.base cluster) fun value _ => ?_
    split_ifs with free
    · exact upholds_takeCluster linking sized valid
    all_goals
      refine ih ?_
      rw [Context.dataClusterValid_iff] at valid ⊢
      omega

theorem upholds_allocateCluster (sized : context.Sized) :
    Guards serve Inv (fun taken => context.dataClusterValid taken = true) (fat32AllocateCluster context) := by
  refine guards_lift (keeps_op linking.base .info trivial) fun info _ => guards_guard fun some_ => ?_
  refine upholds_allocateLoop linking sized _ ?_
  rw [Context.dataClusterValid_iff]
  split_ifs <;> omega

theorem upholds_freeLoop (rounds : Nat) {cluster : Nat} (released : Nat)
    (valid : context.dataClusterValid cluster = true) :
    Guards serve Inv (fun _ => True) (freeLoop context rounds cluster released) := by
  induction rounds generalizing cluster released with
  | zero => exact guards_failure
  | succ rounds ih =>
    refine guards_bind (upholds_chainAdvance linking.base cluster) fun next following => ?_
    refine guards_bind (linking.set _ _ (linking.valid cluster valid)) fun _ _ => ?_
    split_ifs with last
    · exact guards_pure trivial
    · exact ih _ (following.resolve_left fun ends => last ends.ge)

theorem upholds_freeChain (cluster : Nat) :
    Guards serve Inv (fun _ => True) (fat32FreeChain context cluster) := by
  refine guards_bind (upholds_chainValid linking.base cluster) fun _ valid => ?_
  refine guards_bind (upholds_freeLoop linking _ _ valid) fun released _ => ?_
  exact keeps_bind (keeps_changeInfo linking fun info => .release info valid) fun _ _ =>
    keeps_pure fun _ _ => trivial

theorem upholds_allocateChainLoop (sized : context.Sized) (remaining : Nat) {first previous : Nat}
    (start : first = 0 ∨ context.dataClusterValid first = true)
    (before : previous = 0 ∨ context.dataClusterValid previous = true) :
    Guards serve Inv (fun first => first = 0 ∨ context.dataClusterValid first = true)
      (allocateChainLoop context remaining first previous) := by
  induction remaining generalizing first previous with
  | zero => exact guards_pure start
  | succ remaining ih =>
    refine guards_observe (upholds_allocateCluster linking sized) fun taken valid => ?_
    cases taken with
    | none => exact guards_lift (keeps_discardChain (upholds_freeChain linking) _) fun _ _ => guards_failure
    | some cluster =>
      have here := valid cluster rfl
      have start' : (if first = 0 then cluster else first) = 0 ∨
          context.dataClusterValid (if first = 0 then cluster else first) = true := by
        split_ifs with none_
        · exact .inr here
        · exact .inr (start.resolve_left none_)
      simp only
      by_cases alone : previous = 0
      · rw [if_neg (not_not_intro alone)]
        exact ih start' (.inr here)
      · rw [if_pos alone]
        refine guards_observe (linking.set _ _ (linking.valid _ (before.resolve_left alone))) fun linked _ => ?_
        cases linked with
        | none =>
          exact guards_lift (keeps_discardChain (upholds_freeChain linking) _) fun _ _ => guards_failure
        | some _ => exact ih start' (.inr here)

theorem upholds_allocateChain (sized : context.Sized) (count : Nat) :
    Guards serve Inv (fun first => first = 0 ∨ context.dataClusterValid first = true)
      (fat32AllocateChain context count) :=
  guards_lift (keeps_op linking.base .info trivial) fun _ _ => guards_guard fun _ =>
    upholds_allocateChainLoop linking sized count (.inl rfl) (.inl rfl)

theorem upholds_extendLoop (sized : context.Sized) (needed rounds : Nat) {last : Nat}
    {run : List Position}
    (linked : Linked last) (behind : Behind context run) (enough : needed ≤ run.length + rounds) :
    Guards serve Inv (fun run' => Behind context run' ∧ needed ≤ run'.length)
      (extendLoop context needed rounds last run) := by
  induction rounds generalizing last run with
  | zero => exact guards_pure ⟨behind, enough⟩
  | succ rounds ih =>
    rw [extendLoop]
    split_ifs with more
    · refine guards_bind (upholds_allocateCluster linking sized) fun cluster valid => ?_
      refine guards_observe (linking.set _ _ linked) fun done _ => ?_
      cases done with
      | none => exact guards_lift (keeps_discardChain (upholds_freeChain linking) _) fun _ _ => guards_failure
      | some _ =>
        refine guards_bind (upholds_extendSectors linking.base sized valid needed (fun _ member =>
          List.mem_range.mp member) behind) fun run' holds => ?_
        obtain ⟨behind', -, longer⟩ := holds
        have some_ : List.range context.bpb.sectorsPerCluster ≠ [] := by
          have positive := sized.cluster
          simp only [ne_eq, List.range_eq_nil]
          omega
        have more' := longer some_ more
        exact ih (linking.valid cluster valid) behind' (by omega)
    · exact guards_pure ⟨behind, by omega⟩

theorem keeps_walkClusters_last {τ ρ : Type} (sized : context.Sized) (visit : Visit τ ρ)
    (count hops : Nat)
    {last : Nat} (current : Nat) (state : τ) (linked : Linked last) :
    Keeps serve Inv (fun walk => ∀ state' last' next, walk = .ended state' last' next → Linked last')
      (walkClusters context visit count hops last current state) := by
  induction hops generalizing last current state with
  | zero =>
    refine keeps_pure fun state' last' next ends => ?_
    cases ends
    exact linked
  | succ hops ih =>
    rw [walkClusters]
    split_ifs with valid
    · have sectors : Keeps serve Inv (Walk.All (fun _ => True) fun _ => True)
          (walkSectors context visit count current (List.range context.bpb.sectorsPerCluster) state) :=
        keeps_walkSectors linking.base sized (fun position slot state _ _ => by split <;> trivial) valid
          (fun _ member => List.mem_range.mp member) trivial
      refine keeps_bind sectors fun walk _ => ?_
      cases walk with
      | found result cluster => exact keeps_pure (by rintro _ _ _ ⟨⟩)
      | broken state => exact keeps_pure (by rintro _ _ _ ⟨⟩)
      | ended state last' current' =>
        refine keeps_bind (upholds_chainAdvance linking.base current) fun next _ => ?_
        cases next with
        | none => exact keeps_pure (by rintro _ _ _ ⟨⟩)
        | some next => exact ih next state (linking.valid current valid)
    · refine keeps_pure fun state' last' next ends => ?_
      cases ends
      exact linked

theorem upholds_reserveEntries (sized : context.Sized) {dirCluster : Nat} (needed : Nat)
    (linked : Linked dirCluster) :
    Guards serve Inv (fun run => Behind context run ∧ needed ≤ run.length)
      (fat32ReserveEntries context dirCluster needed) := by
  have walks : Keeps serve Inv (Walk.All _ _) (walkDir context (reserveVisit needed) 16 dirCluster []) :=
    keeps_walkDir linking.base sized (reserveVisit_knows context needed) dirCluster (by simp [Behind])
  refine guards_lift (keeps_and walks (keeps_walkClusters_last linking sized _ _ _ _ _ linked)) fun walk all => ?_
  cases walk with
  | found positions cluster => exact guards_pure all.1
  | broken state => exact guards_failure
  | ended run last current =>
    exact upholds_extendLoop linking sized needed needed (all.2 _ _ _ rfl) all.1 (by omega)

theorem Linking.steady (sized : context.Sized) : Steady context serve Inv Linked where
  base := linking.base
  allocate := upholds_allocateCluster linking sized
  allocateChain := fun count => guards_mono (upholds_allocateChain linking sized count) fun _ _ => trivial
  free := upholds_freeChain linking
  reserve := fun _ needed linked => upholds_reserveEntries linking sized needed linked

end Linking

theorem Stable.linking (stable : Stable context serve Inv) (sized : context.Sized) :
    Linking context serve Inv fun _ => True where
  base := stable.base sized
  valid := fun _ _ => trivial
  set := fun cluster value _ => upholds_setCluster stable sized cluster value
  info := stable.info

theorem Stable.call (stable : Stable context serve Inv) (sized : context.Sized) {call : Call}
    (unsynced : call ≠ .sync) {s : σ} (inv : Inv s) : Inv (run serve (call.code context).run s).2 :=
  keeps_call ((stable.linking sized).steady sized) sized unsynced inv (by cases call <;> simp [Call.Grounded])

end Upkeep

end AsasOs.Fat32
