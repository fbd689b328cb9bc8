import AsasOs.ExFat.FolderEdits
import AsasOs.Lib.Naming

/-!
# exFAT: the tree of a consistent volume

What makes an image a consistent volume is said with the help of a shape: the
directories, each with its clusters and its entry sets, and the stream that owns each
cluster in use. A stream goes by its first cluster. The shape gives each directory the
items that it holds under their names, and the code that resolves a path follows these
names.

## Main results

- `sees_resolvePath`: the node that a path leads to.
-/
namespace AsasOs.ExFat

open Block Bytes Prog Records Naming

variable {context : Context} {I : Image} {bitmap : List Nat}

/-! ### Shapes -/

/-- A directory, with its stream and its entry sets. -/
structure Folder where
  noFatChain : Bool
  dataLength : Nat
  clusters : List Nat
  records : List (Nat × List Slot)

/-- The directories, the owners of the clusters in use, and the directory and the slot of
the entry set to which a stream belongs. -/
structure Shape where
  folders : Nat → Option Folder
  owner : Nat → Option Nat
  place : Nat → Option (Nat × Nat)

/-- The directory as its entry set describes it. -/
def Folder.node (F : Folder) (first : Nat) : Node where
  firstCluster := first
  noFatChain := F.noFatChain
  dataLength := F.dataLength

/-- Names that the volume does not tell apart have one folded form. -/
def foldName (context : Context) (name : List Nat) : List Nat :=
  name.map (upcaseCharacter context)

/-- No two entry sets of a directory have the same name. -/
def NamesDiffer (context : Context) (records : List (Nat × List Slot)) : Prop :=
  ∀ r ∈ records, ∀ r' ∈ records, ∀ node node', setNode context r.2 = some node →
    setNode context r'.2 = some node' →
    foldName context node.name = foldName context node'.name → r = r'

/-- The bitmap and the directories of a volume are sound, and every cluster in use has one
owner. -/
structure Solid (context : Context) (I : Image) (bitmap : List Nat) (T : Shape) : Prop where
  regular : context.Regular
  mapped : Mapped context I.fat bitmap
  bits : ∀ cluster, context.validCluster cluster = true →
    I.bit context bitmap cluster = (T.owner cluster).isSome
  inside : ∀ cluster, (T.owner cluster).isSome → context.validCluster cluster = true
  bitmapOwned : ∀ cluster ∈ bitmap, T.owner cluster = some context.bitmapFirstCluster
  bitmapApart : T.folders context.bitmapFirstCluster = none
  root : ∃ R, T.folders context.rootCluster = some R ∧ R.dataLength = 0
  holding : ∀ first F, T.folders first = some F → Holding context I (F.node first) F.clusters F.records
  owned : ∀ first F, T.folders first = some F → ∀ cluster ∈ F.clusters, T.owner cluster = some first
  onlyRoot : ∀ first F, T.folders first = some F → F.dataLength = 0 → first = context.rootCluster
  named : ∀ first F, T.folders first = some F → NamesDiffer context F.records

/-- What an entry set says of its stream is true. -/
structure Attached (context : Context) (fat : Nat → Nat) (T : Shape) (node : Node) : Prop where
  directory : node.firstCluster ≠ 0 → node.isDirectory = true →
    ∃ F, T.folders node.firstCluster = some F ∧ F.noFatChain = node.noFatChain ∧
      F.dataLength = node.dataLength ∧ node.dataLength ≠ 0
  file : node.firstCluster ≠ 0 → node.isDirectory = false →
    T.folders node.firstCluster = none ∧ node.firstCluster ≠ context.bitmapFirstCluster ∧
      ∃ clusters, Extent context fat node.firstCluster node.noFatChain clusters ∧
        Counted context node.dataLength node.noFatChain clusters ∧
        node.dataLength ≤ clusters.length * context.clusterSize ∧
        ∀ cluster ∈ clusters, T.owner cluster = some node.firstCluster
  empty : node.firstCluster = 0 → node.dataLength = 0

/-- Every entry set is right about its stream. -/
def Joined (context : Context) (fat : Nat → Nat) (T : Shape) : Prop :=
  ∀ first F, T.folders first = some F → ∀ r ∈ F.records, ∀ node,
    setNode context r.2 = some node → Attached context fat T node

/-- Every stream belongs to one entry set, or to none. -/
structure Placed (context : Context) (T : Shape) : Prop where
  item : ∀ first F, T.folders first = some F → ∀ r ∈ F.records, ∀ node,
    setNode context r.2 = some node → node.firstCluster ≠ 0 →
    T.place node.firstCluster = some (first, r.1)
  root : T.place context.rootCluster = none

/-! ### What a directory holds -/

inductive Content where
  | directory (first : Nat)
  | file (bytes : List UInt8)
  deriving DecidableEq, Repr

/-- What a directory holds under a name. -/
structure Item where
  name : List Nat
  attributes : Nat
  content : Content
  deriving DecidableEq, Repr

/-- The directory that an item is, if it has clusters. -/
def Item.enter (item : Item) : Option Nat :=
  match item.content with
  | .directory first => if first = 0 then none else some first
  | .file _ => none

/-- The cluster of a stream with an index. -/
def clusterAt (fat : Nat → Nat) (first : Nat) (noFatChain : Bool) : Nat → Nat
  | 0 => first
  | index + 1 => if noFatChain then first + (index + 1) else fat (clusterAt fat first noFatChain index)

/-- The bytes of a file: those that were written, and zeros behind them. -/
def Image.file (I : Image) (context : Context) (node : Node) : List UInt8 :=
  window (fun i =>
    if i < node.validDataLength then
      I.data (clusterAt I.fat node.firstCluster node.noFatChain (i / context.clusterSize))
        (i % context.clusterSize)
    else 0) 0 node.dataLength

def itemOf (context : Context) (I : Image) (node : Node) : Item where
  name := node.name
  attributes := node.attributes
  content := if node.isDirectory then .directory node.firstCluster else .file (I.file context node)

def Folder.nodes (context : Context) (F : Folder) (first : Nat) : List Node :=
  nodesOf context (F.node first) F.records

/-- The node that a directory holds under a folded name. -/
def childNode (context : Context) (T : Shape) (first : Nat) (key : List Nat) : Option Node :=
  (T.folders first).bind fun F =>
    (F.nodes context first).find? fun node => key == foldName context node.name

/-- The item that a directory holds under a folded name. -/
def children (context : Context) (I : Image) (T : Shape) (first : Nat) (key : List Nat) : Option Item :=
  (childNode context T first key).map (itemOf context I)

theorem mem_nodesOf {directory node : Node} {records : List (Nat × List Slot)} :
    node ∈ nodesOf context directory records ↔
    ∃ r ∈ records, ∃ stored, setNode context r.2 = some stored ∧
        stored.placed directory (r.1 * 32) = node := by
  rw [nodesOf, List.mem_filterMap]
  constructor
  · rintro ⟨r, member, found⟩
    obtain ⟨stored, decoded, here⟩ := Option.map_eq_some_iff.mp found
    exact ⟨r, member, stored, decoded, here⟩
  · rintro ⟨r, member, stored, decoded, rfl⟩
    exact ⟨r, member, by rw [decoded]; rfl⟩

/-- A node that a directory holds under a name. -/
structure Held (context : Context) (T : Shape) (first : Nat) (F : Folder) (r : Nat × List Slot)
    (stored : Node) (key : List Nat) : Prop where
  folder : T.folders first = some F
  member : r ∈ F.records
  decoded : setNode context r.2 = some stored
  name : foldName context stored.name = key

theorem childNode_some {T : Shape} {first : Nat} {key : List Nat} {node : Node}
    (found : childNode context T first key = some node) :
    ∃ F r stored, Held context T first F r stored key ∧
    node = stored.placed (F.node first) (r.1 * 32) := by
  obtain ⟨F, folder, here⟩ := Option.bind_eq_some_iff.mp found
  have member := List.mem_of_find?_eq_some here
  have matched := List.find?_some here
  obtain ⟨r, inside, stored, decoded, rfl⟩ := mem_nodesOf.mp member
  exact ⟨F, r, stored, ⟨folder, inside, decoded, (beq_iff_eq.mp matched).symm⟩, rfl⟩

theorem Held.found {T : Shape} {first : Nat} {F : Folder} {r : Nat × List Slot} {stored : Node}
    {key : List Nat} (held : Held context T first F r stored key)
    (named : NamesDiffer context F.records) :
    childNode context T first key = some (stored.placed (F.node first) (r.1 * 32)) := by
  rw [childNode, held.folder, Option.bind_some]
  have present : stored.placed (F.node first) (r.1 * 32) ∈ F.nodes context first :=
    mem_nodesOf.mpr ⟨r, held.member, stored, held.decoded, rfl⟩
  cases found : (F.nodes context first).find? fun node => key == foldName context node.name with
  | none =>
    have different := List.find?_eq_none.mp found _ present
    exact absurd (beq_iff_eq.mpr held.name.symm) different
  | some node =>
    obtain ⟨r', inside, stored', decoded', rfl⟩ := mem_nodesOf.mp (List.mem_of_find?_eq_some found)
    have matched := List.find?_some found
    have same : foldName context stored.name = foldName context stored'.name :=
      held.name.trans (beq_iff_eq.mp matched)
    have equal := named r held.member r' inside stored stored' held.decoded decoded' same
    subst equal
    rw [held.decoded] at decoded'
    cases decoded'
    rfl

/-! ### Names and keys -/

/-- The names in a path, as far as `resolve_path` reads them. -/
def componentsFrom : Nat → Path → Option (List (List Nat))
  | _, [] => some []
  | 0, _ :: _ => none
  | components + 1, path@(_ :: _) =>
    (utf8Component path).bind fun component =>
      (componentsFrom components (skipSlashes component.2)).map (component.1 :: ·)

def pathNames (path : Path) : Option (List (List Nat)) :=
  componentsFrom path.length (skipSlashes path)

/-- The folded names in a path. Paths with the same keys name the same. -/
def pathKeys (context : Context) (path : Path) : Option (List (List Nat)) :=
  (pathNames path).map (·.map (foldName context))

/-- `find_visitor`, which looks at the key of its name only. -/
def keyVisitor (context : Context) (key : List Nat) : Visitor (Option Node) := fun node found =>
  if key == foldName context node.name then (false, some node) else (true, found)

theorem findVisitor_eq (name : List Nat) :
    findVisitor context name = keyVisitor context (foldName context name) := rfl

theorem visitNodes_key (key : List Nat) (nodes : List Node) :
    visitNodes (keyVisitor context key) nodes none =
      nodes.find? fun node => key == foldName context node.name := by
  induction nodes with
  | nil => rfl
  | cons node rest ih =>
    rw [visitNodes, keyVisitor, List.find?_cons]
    cases key == foldName context node.name with
    | true => rfl
    | false => exact ih

/-- The loop of `resolve_path` for the keys of a path. -/
def resolveKeys (context : Context) : List (List Nat) → Node → ExfatCode Node
  | [], current => return current
  | key :: rest, current => do
    guard current.isDirectory
    let found ← visitDirectory context current (keyVisitor context key) none
    let node ← Prog.ofOption found
    resolveKeys context rest node

section Eval

variable {medium : Nat → List UInt8}

theorem eval_resolveComponents {components : Nat} : ∀ {path : Path} {current : Node},
    eval (answer context.device medium) (resolveComponents context components path current).run =
      ((componentsFrom components path).map (·.map (foldName context))).bind fun keys =>
        eval (answer context.device medium) (resolveKeys context keys current).run := by
  induction components with
  | zero =>
    intro path current
    cases path <;> rfl
  | succ components ih =>
    intro path current
    cases path with
    | nil => rfl
    | cons byte rest =>
      have parts : ∀ (after : Path) (found : Option Node),
          eval (answer context.device medium) (Prog.ofOption found >>= fun node =>
            resolveComponents context components (skipSlashes after) node).run =
          ((componentsFrom components (skipSlashes after)).map (·.map (foldName context))).bind
            fun keys => eval (answer context.device medium) (Prog.ofOption found >>= fun node =>
              resolveKeys context keys node).run := by
        intro after found
        cases found with
        | none => exact (Option.bind_eq_none_iff.mpr fun _ _ => rfl).symm
        | some node => exact ih
      unfold resolveComponents componentsFrom
      cases parsed : utf8Component (byte :: rest) with
      | none =>
        rw [eval_fallible_bind]
        exact Option.bind_eq_none_iff.mpr fun _ _ => rfl
      | some component =>
        obtain ⟨name, after⟩ := component
        rw [Option.bind_some, Option.map_map]
        change eval _ ((guard current.isDirectory >>= fun _ =>
          visitDirectory context current (findVisitor context name) none >>= fun found =>
            Prog.ofOption found >>= fun node =>
              resolveComponents context components (skipSlashes after) node : ExfatCode Node)).run = _
        rw [eval_fallible_bind, eval_guard]
        cases names : componentsFrom components (skipSlashes after) with
        | none =>
          refine Option.bind_eq_none_iff.mpr fun _ _ => ?_
          rw [eval_fallible_bind]
          refine Option.bind_eq_none_iff.mpr fun found _ => ?_
          rw [parts, names]
          rfl
        | some names' =>
          rw [Option.map_some, Option.bind_some, Function.comp_apply, List.map_cons, resolveKeys,
            findVisitor_eq]
          refine Eq.trans ?_ (eval_fallible_bind _ _).symm
          rw [eval_guard]
          refine Option.bind_congr fun _ _ => ?_
          rw [eval_fallible_bind, eval_fallible_bind]
          refine Option.bind_congr fun found _ => ?_
          rw [parts, names]
          rfl

end Eval

theorem eval_resolvePath (medium : Nat → List UInt8) (path : Path) :
    eval (answer context.device medium) (resolvePath context path).run =
      (pathKeys context path).bind fun keys =>
        eval (answer context.device medium) (resolveKeys context keys (rootNode context)).run :=
  eval_resolveComponents

/-! ### Following keys -/

/-- The node that is found along keys. -/
def walkNodes (context : Context) (T : Shape) : List (List Nat) → Node → Option Node
  | [], current => some current
  | key :: rest, current =>
    if current.isDirectory then
      (childNode context T current.firstCluster key).bind (walkNodes context T rest)
    else none

/-- A directory node stands for a directory of the shape, or for one without clusters. -/
def Stands (T : Shape) (directory : Node) : Prop :=
  (T.folders directory.firstCluster = none ∧ directory.firstCluster = 0 ∧ directory.dataLength = 0) ∨
  ∃ F, T.folders directory.firstCluster = some F ∧ F.noFatChain = directory.noFatChain ∧
    F.dataLength = directory.dataLength

theorem nodesOf_stands {F : Folder} {directory : Node} (form : F.noFatChain = directory.noFatChain)
    (length : F.dataLength = directory.dataLength) :
    nodesOf context directory F.records = F.nodes context directory.firstCluster := by
  simp only [Folder.nodes, nodesOf, Node.placed, Folder.node, form, length]

theorem Holding.stands {F : Folder} {directory : Node}
    (holding : Holding context I (F.node directory.firstCluster) F.clusters F.records)
    (form : F.noFatChain = directory.noFatChain) (length : F.dataLength = directory.dataLength) :
    Holding context I directory F.clusters F.records where
  extent := by
    have extent := holding.extent
    rw [Folder.node, form] at extent
    exact extent
  length := by
    have lengths := holding.length
    rw [Folder.node, length, form] at lengths
    exact lengths
  layout := holding.layout
  valid := holding.valid

section Resolve

variable {T : Shape} (solid : Solid context I bitmap T)
include solid

theorem Solid.no_zero : T.folders 0 = none := by
  cases found : T.folders 0 with
  | none => rfl
  | some F =>
    have valid := (solid.holding 0 F found).extent.first_valid
    have bounds := Geometry.validCluster_iff.mp valid
    have low : 2 ≤ 0 := bounds.1
    omega

omit solid in
theorem sees_visit_empty {σ : Type} {directory : Node} {visitor : Visitor σ} {value : σ}
    (first : directory.firstCluster = 0) (length : directory.dataLength = 0) :
    Sees context (visitDirectory context directory visitor value).run I none := by
  have atEnd : ∀ v : Visit σ, Sees context (visitEnd directory v).run I none := by
    intro v
    refine sees_guard_fails ?_
    rintro ⟨notRoot, -⟩
    rw [isRoot, length] at notRoot
    cases notRoot
  unfold visitDirectory
  cases context.clusterCount with
  | zero => exact atEnd _
  | succ count =>
    unfold visitClusters
    have invalid : Sees context (streamCluster context directory.firstCluster directory.noFatChain
        0).run I none := by
      refine sees_guard_fails ?_
      rintro ⟨valid, -⟩
      have bounds := Geometry.validCluster_iff.mp valid
      omega
    exact sees_observe invalid (atEnd _)

theorem sees_findChild {directory : Node} (stands : Stands T directory) (key : List Nat) :
    ∃ outcome, Sees context (visitDirectory context directory (keyVisitor context key) none).run I
      outcome ∧ outcome.join = childNode context T directory.firstCluster key := by
  rcases stands with ⟨none, first, length⟩ | ⟨F, folder, form, length⟩
  · refine ⟨_, sees_visit_empty first length, ?_⟩
    rw [childNode, none]
    rfl
  · have holding := (solid.holding _ F folder).stands form length
    refine ⟨_, sees_visitDirectory solid.regular holding none, ?_⟩
    rw [visitNodes_key, nodesOf_stands form length, childNode, folder]
    rfl

theorem stands_of_child (joined : Joined context I.fat T) {first : Nat} {key : List Nat}
    {node : Node} (found : childNode context T first key = some node)
    (directory : node.isDirectory = true) : Stands T node := by
  obtain ⟨F, r, stored, held, rfl⟩ := childNode_some found
  have attached := joined first F held.folder r held.member stored held.decoded
  by_cases empty : stored.firstCluster = 0
  · refine Or.inl ⟨?_, empty, attached.empty empty⟩
    rw [show (stored.placed (F.node first) (r.1 * 32)).firstCluster = 0 from empty]
    exact solid.no_zero
  · obtain ⟨G, folder, form, length, -⟩ := attached.directory empty directory
    exact Or.inr ⟨G, folder, form, length⟩

theorem sees_resolveKeys (joined : Joined context I.fat T) {keys : List (List Nat)} :
    ∀ {current : Node}, (current.isDirectory = true → Stands T current) →
    Sees context (resolveKeys context keys current).run I (walkNodes context T keys current) := by
  induction keys with
  | nil => exact fun _ => sees_some
  | cons key rest ih =>
    intro current stands
    unfold resolveKeys
    rw [walkNodes]
    by_cases directory : current.isDirectory = true
    · rw [if_pos directory]
      obtain ⟨outcome, sees, child⟩ := sees_findChild solid (stands directory) key
      refine sees_guard directory ?_
      rw [← child]
      cases outcome with
      | none => exact sees_fails sees
      | some found =>
        refine sees_then sees ?_
        cases found with
        | none => exact sees_failure
        | some node => exact ih fun isDirectory => stands_of_child solid joined child.symm isDirectory
    · rw [if_neg directory]
      exact sees_guard_fails directory

theorem stands_root : Stands T (rootNode context) := by
  obtain ⟨R, folder, length⟩ := solid.root
  have lengths := (solid.holding _ R folder).length
  have positive := (solid.holding _ R folder).extent.length_pos
  have size := solid.regular.clusterSize_pos
  refine Or.inr ⟨R, folder, ?_, length⟩
  rcases lengths with ⟨-, chained⟩ | sized
  · exact chained
  · have zero : R.dataLength = R.clusters.length * context.clusterSize := sized
    have product := Nat.mul_pos positive size
    rw [← zero, length] at product
    cases product

/-- The node that a path leads to. -/
theorem sees_resolvePath (joined : Joined context I.fat T) (path : Path) :
    Sees context (resolvePath context path).run I
      ((pathKeys context path).bind fun keys => walkNodes context T keys (rootNode context)) := by
  intro medium pictured
  rw [eval_resolvePath]
  refine Option.bind_congr fun keys _ => ?_
  exact sees_resolveKeys solid joined (fun _ => stands_root solid) medium pictured

end Resolve

/-! ### The tree of names -/

theorem enter_itemOf (node : Node) : (itemOf context I node).enter =
    if node.isDirectory = true ∧ node.firstCluster ≠ 0 then some node.firstCluster else none := by
  unfold itemOf Item.enter
  cases directory : node.isDirectory with
  | true =>
    by_cases empty : node.firstCluster = 0
    · simp [empty]
    · simp [empty]
  | false => simp

section Names

variable {T : Shape} {keys rest : List (List Nat)} {key : List Nat} {current node : Node}

theorem walkNodes_reach (zero : T.folders 0 = none)
    (found : walkNodes context T keys current = some node) (directory : node.isDirectory = true)
    (some_clusters : node.firstCluster ≠ 0) :
    reach (children context I T) Item.enter current.firstCluster keys = some node.firstCluster := by
  induction keys generalizing current with
  | nil =>
    cases found
    rfl
  | cons key rest ih =>
    rw [walkNodes] at found
    split at found
    · obtain ⟨child, here, later⟩ := Option.bind_eq_some_iff.mp found
      have into : child.isDirectory = true ∧ child.firstCluster ≠ 0 := by
        cases rest with
        | nil =>
          cases later
          exact ⟨directory, some_clusters⟩
        | cons next rest =>
          rw [walkNodes] at later
          split at later
          · refine ⟨by assumption, fun empty => ?_⟩
            rw [empty, childNode, zero] at later
            cases later
          · cases later
      rw [reach, Naming.step, children, here, Option.map_some, Option.bind_some,
        enter_itemOf, if_pos into, Option.bind_some]
      exact ih later
    · cases found

theorem walkNodes_concat : walkNodes context T (keys ++ [key]) current =
      (walkNodes context T keys current).bind fun parent =>
        if parent.isDirectory then childNode context T parent.firstCluster key else none := by
  induction keys generalizing current with
  | nil =>
    rw [List.nil_append, walkNodes, walkNodes, Option.bind_some]
    split
    · cases childNode context T current.firstCluster key <;> rfl
    · rfl
  | cons first rest ih =>
    rw [List.cons_append, walkNodes, walkNodes]
    split
    · rw [Option.bind_assoc]
      exact Option.bind_congr fun node _ => ih
    · rfl

theorem rootNode_isDirectory : (rootNode context).isDirectory = true :=
  show (EXFAT_ATTR_DIRECTORY &&& EXFAT_ATTR_DIRECTORY != 0) = true by decide

/-- The directory and the name under which a stream is held. -/
def Shape.parent (context : Context) (T : Shape) (first : Nat) : Option (Nat × List Nat) :=
  (T.place first).bind fun place =>
    (T.folders place.1).bind fun F =>
      (F.records.find? fun r => r.1 == place.2).bind fun r =>
        (setNode context r.2).map fun node => (place.1, foldName context node.name)

theorem Solid.rooted (solid : Solid context I bitmap T) (placed : Placed context T) :
    Rooted (children context I T) Item.enter context.rootCluster (T.parent context) where
  root := by
    rw [Shape.parent, placed.root]
    rfl
  held := by
    intro first key e into
    obtain ⟨item, held, entered⟩ := Option.bind_eq_some_iff.mp into
    obtain ⟨node, found, rfl⟩ := Option.map_eq_some_iff.mp held
    rw [enter_itemOf] at entered
    split at entered
    · rename_i directory
      cases entered
      obtain ⟨F, r, stored, here, rfl⟩ := childNode_some found
      have place := placed.item first F here.folder r here.member stored here.decoded directory.2
      have layout := (solid.holding first F here.folder).layout
      have slot : F.records.find? (fun r' => r'.1 == r.1) = some r := by
        cases search : F.records.find? fun r' => r'.1 == r.1 with
        | none =>
          have different := List.find?_eq_none.mp search r here.member
          exact absurd (beq_self_eq_true r.1) different
        | some r' =>
          have same := List.find?_some search
          have member := List.mem_of_find?_eq_some search
          have slots : r'.1 = r.1 := beq_iff_eq.mp same
          have records : r'.2 = r.2 := by
            refine layout.unique (k := r.1) ?_ here.member
            rw [← slots]
            exact member
          exact congrArg some (Prod.ext slots records)
      rw [Shape.parent, show (stored.placed (F.node first) (r.1 * 32)).firstCluster =
        stored.firstCluster from rfl, place, Option.bind_some, here.folder, Option.bind_some, slot,
        Option.bind_some, here.decoded, Option.map_some, here.name]
    · cases entered

end Names

end AsasOs.ExFat
