import AsasOs.ExFat.RoundTrip
import AsasOs.ExFat.Spelling

/-!
# exFAT: every entry of a directory is listed under a path that leads to it

`list_visitor` writes the name of each node into a buffer of 256 bytes and passes over the
nodes whose names do not convert or do not fit. The listing of a directory is complete, and
the listed names lead back to the nodes, if all names in it are plain and short enough.

## Main results

- `listing_eq`: what a listing has.
- `listing_iff`: when it is complete and its names resolve.
-/
namespace AsasOs.ExFat

open Block Bytes Prog Records Naming

variable {context : Context} {I : Image} {bitmap : List Nat} {T : Shape}
  {medium : Nat → List UInt8} {path : Path} {directory node : Node} {capacity : Nat}

theorem walkNodes_held {keys : List (List Nat)} {current node : Node} (some_keys : keys ≠ [])
    (found : walkNodes context T keys current = some node) :
    ∃ first key, childNode context T first key = some node := by
  rw [← List.dropLast_concat_getLast some_keys, walkNodes_concat] at found
  obtain ⟨parent, -, found⟩ := Option.bind_eq_some_iff.mp found
  split at found
  · exact ⟨parent.firstCluster, keys.getLast some_keys, found⟩
  · cases found

/-! ### The entries of a listing -/

/-- What `list_visitor` makes of a node. -/
def fileInfo (node : Node) : Option FileInfo :=
  (utf16ToUtf8 node.name).bind fun name =>
    if name.length = 0 ∨ name.length ≥ EXFAT_NAME_CAPACITY then none
    else some ⟨name, node.dataLength, node.isDirectory, true⟩

theorem listVisitor_eq (node : Node) {entries : List FileInfo} (room : entries.length < capacity) :
    listVisitor capacity node entries = match fileInfo node with
      | none => (true, entries)
      | some info => (decide (entries.length + 1 < capacity), entries ++ [info]) := by
  unfold listVisitor fileInfo
  rw [if_neg (Nat.not_le_of_lt room)]
  cases utf16ToUtf8 node.name with
  | none => rfl
  | some name =>
    dsimp only [Option.bind_some]
    split
    · rfl
    · rw [List.length_append]
      rfl

theorem visitNodes_list {nodes : List Node} : ∀ {entries : List FileInfo},
    entries.length ≤ capacity → visitNodes (listVisitor capacity) nodes entries =
      (entries ++ nodes.filterMap fileInfo).take capacity := by
  induction nodes with
  | nil =>
    intro entries room
    rw [visitNodes, List.filterMap_nil, List.append_nil, List.take_of_length_le room]
  | cons node nodes ih =>
    intro entries room
    rw [visitNodes]
    by_cases full : entries.length ≥ capacity
    · have visited : listVisitor capacity node entries = (false, entries) := by
        rw [listVisitor, if_pos full]
      rw [visited]
      dsimp only
      rw [if_neg Bool.false_ne_true, List.take_append_of_le_length full, List.take_of_length_le room]
    · rw [listVisitor_eq node (by omega), List.filterMap_cons]
      cases fileInfo node with
      | none => exact ih room
      | some info =>
        dsimp only
        have length : (entries ++ [info]).length = entries.length + 1 := List.length_append
        have split : entries ++ info :: nodes.filterMap fileInfo =
            entries ++ [info] ++ nodes.filterMap fileInfo := List.append_cons _ _ _
        rw [split]
        by_cases more : entries.length + 1 < capacity
        · rw [if_pos (decide_eq_true more), ih (by omega)]
        · rw [if_neg (by rw [decide_eq_false more]; exact Bool.false_ne_true),
            List.take_append_of_le_length (by omega), List.take_of_length_le (by omega)]

/-- The nodes of a directory of the volume; those of one without clusters are none. -/
def Shape.nodesAt (T : Shape) (context : Context) (first : Nat) : List Node :=
  ((T.folders first).map fun F => F.nodes context first).getD []

section Resolved

variable (pictured : Pictured context medium I) (solid : Solid context I bitmap T)
  (joined : Joined context I.fat T)
  (resolved : eval (answer context.device medium) (resolvePath context path).run = some directory)
include pictured solid joined resolved

theorem spells_of_resolved : ∃ names, Spells path names ∧
    walkNodes context T (names.map (foldName context)) (rootNode context) = some directory := by
  rw [sees_resolvePath solid joined path medium pictured] at resolved
  obtain ⟨keys, spelled, walked⟩ := Option.bind_eq_some_iff.mp resolved
  obtain ⟨names, spells, rfl⟩ := Option.map_eq_some_iff.mp spelled
  exact ⟨names, pathNames_iff.mp spells, walked⟩

theorem stands_of_resolved (isDirectory : directory.isDirectory = true) : Stands T directory := by
  obtain ⟨names, -, walked⟩ := spells_of_resolved pictured solid joined resolved
  by_cases empty : names.map (foldName context) = []
  · rw [empty] at walked
    cases walked
    exact stands_root solid
  · obtain ⟨first, key, found⟩ := walkNodes_held empty walked
    exact stands_of_child solid joined found isDirectory

theorem eval_visit (isDirectory : directory.isDirectory = true) {σ : Type} (visitor : Visitor σ)
    (value : σ) :
    (eval (answer context.device medium) (visitDirectory context directory visitor value).run).getD
      value = visitNodes visitor (T.nodesAt context directory.firstCluster) value := by
  rcases stands_of_resolved pictured solid joined resolved isDirectory with
    ⟨none, first, length⟩ | ⟨F, folder, form, length⟩
  · rw [sees_visit_empty first length medium pictured, Shape.nodesAt, none]
    rfl
  · have holding := (solid.holding _ F folder).stands form length
    rw [sees_visitDirectory solid.regular holding value medium pictured, Shape.nodesAt, folder,
      nodesOf_stands form length]
    rfl

/-- What `exfat_context_list_directory` reports of a directory. -/
theorem listing_eq (isDirectory : directory.isDirectory = true) (capacity : Nat) :
    eval (answer context.device medium) (exfatContextListDirectory context path capacity) =
      ((T.nodesAt context directory.firstCluster).filterMap fileInfo).take capacity := by
  have visited := eval_visit pictured solid joined resolved isDirectory (listVisitor capacity) []
  rw [visitNodes_list (Nat.zero_le _), List.nil_append] at visited
  unfold exfatContextListDirectory
  simp only [eval_bind, eval_fallible_bind, eval_guard, resolved, Option.bind_some, isDirectory, if_true]
  by_cases none : capacity = 0
  · rw [if_neg (not_not.mpr none), none, List.take_zero]
    rfl
  · rw [if_pos none]
    exact visited

/-! ### Complete listings -/

/-- The entry is of the node, and its name leads to the node from the directory. -/
structure Lists (context : Context) (medium : Nat → List UInt8) (path : Path) (node : Node)
    (info : FileInfo) : Prop where
  size : info.size = node.dataLength
  kind : info.isDirectory = node.isDirectory
  leads : eval (answer context.device medium)
    (resolvePath context (path ++ SLASH :: cString info.name)).run = some node

/-- Whenever there is room, all nodes are listed, each of them once. -/
def FullyListed (context : Context) (medium : Nat → List UInt8) (path : Path) (nodes : List Node) :
    Prop :=
  ∀ capacity, 0 < capacity → nodes.length ≤ capacity → List.Forall₂ (Lists context medium path) nodes
      (eval (answer context.device medium) (exfatContextListDirectory context path capacity))

structure Listable (name : List Nat) : Prop where
  plain : PlainName name
  short : nameBytes name < EXFAT_NAME_CAPACITY

omit pictured solid joined resolved in
theorem setNode_name {record : List Slot} (whole : WholeSet record)
    (decoded : setNode context record = some node) :
    node.name ≠ [] ∧ node.name.length ≤ 255 ∧ ∀ unit ∈ node.name, unit < 2 ^ 16 := by
  obtain ⟨head, stream, names, rfl, -, -⟩ := whole.parts
  obtain ⟨valid, rfl⟩ := (setNode_some whole.sized).mp decoded
  have spelled := valid.spelled
  have named := valid.named
  have small := (byteAt stream 3).toNat_lt
  refine ⟨?_, ?_, ?_⟩
  · intro empty
    change storedName stream names = [] at empty
    rw [empty] at spelled
    exact named spelled.symm
  · change (storedName stream names).length ≤ 255
    omega
  · intro unit member
    obtain ⟨entry, -, inside⟩ := List.mem_flatMap.mp (List.mem_of_mem_take member)
    obtain ⟨index, -, rfl⟩ := List.mem_map.mp inside
    exact getLE_lt_pow entry _ 2

omit pictured joined resolved in
theorem childNode_of_mem {first : Nat} (member : node ∈ T.nodesAt context first) :
    childNode context T first (foldName context node.name) = some node ∧
      node.name ≠ [] ∧ node.name.length ≤ 255 ∧ ∀ unit ∈ node.name, unit < 2 ^ 16 := by
  unfold Shape.nodesAt at member
  cases folder : T.folders first with
  | none =>
    rw [folder] at member
    cases member
  | some F =>
    rw [folder] at member
    obtain ⟨r, inRecords, stored, decoded, rfl⟩ := mem_nodesOf.mp member
    have whole := ((solid.holding first F folder).place inRecords).1
    have held : Held context T first F r stored (foldName context stored.name) :=
      ⟨folder, inRecords, decoded, rfl⟩
    have named := setNode_name whole decoded
    exact ⟨held.found (solid.named first F folder), named⟩

theorem Listable.leads (isDirectory : directory.isDirectory = true)
    (member : node ∈ T.nodesAt context directory.firstCluster) (listable : Listable node.name) :
    ∃ info, fileInfo node = some info ∧ Lists context medium path node info := by
  obtain ⟨child, some_units, length, small⟩ := childNode_of_mem solid member
  obtain ⟨names, spells, walked⟩ := spells_of_resolved pictured solid joined resolved
  have written : utf16ToUtf8 node.name = some (node.name.flatMap unitBytes) := by
    exact utf16ToUtf8_single fun unit inside => (listable.plain unit inside).2.2
  have short := listable.short
  unfold nameBytes at short
  have long := length_le_nameBytes node.name
  have positive := List.length_pos_of_ne_nil some_units
  unfold nameBytes at long
  refine ⟨⟨node.name.flatMap unitBytes, node.dataLength, node.isDirectory, true⟩, ?_, rfl, rfl, ?_⟩
  · rw [fileInfo, written, Option.bind_some, if_neg]
    omega
  · dsimp only
    rw [cString_self (plain_zero listable.plain small),
      sees_resolvePath solid joined _ medium pictured, pathKeys,
      pathNames_iff.mpr (spells.append (spells_plain listable.plain small some_units length)),
      Option.map_some, Option.bind_some, List.map_append, List.map_singleton, walkNodes_concat, walked,
      Option.bind_some, if_pos isDirectory]
    exact child

omit pictured joined resolved in
theorem not_in_itself (placed : Placed context T) {keys : List (List Nat)}
    (walked : walkNodes context T keys (rootNode context) = some directory)
    (isDirectory : directory.isDirectory = true) {key : List Nat}
    (child : childNode context T directory.firstCluster key = some directory) : False := by
  obtain ⟨F, r, stored, held, -⟩ := childNode_some child
  have some_clusters : directory.firstCluster ≠ 0 := by
    intro zero
    have folder := held.folder
    rw [zero, solid.no_zero] at folder
    cases folder
  have here : reach (children context I T) Item.enter context.rootCluster keys =
      some directory.firstCluster :=
    walkNodes_reach solid.no_zero walked isDirectory some_clusters
  have there : reach (children context I T) Item.enter context.rootCluster (keys ++ [key]) =
      some directory.firstCluster := by
    rw [reach_concat, here, Option.bind_some, Naming.step, children, child, Option.map_some,
      Option.bind_some, enter_itemOf, if_pos ⟨isDirectory, some_clusters⟩]
  have same := congrArg List.length (reach_unique (solid.rooted placed) here there)
  rw [List.length_append, List.length_singleton] at same
  omega

theorem Lists.plain (placed : Placed context T) (isDirectory : directory.isDirectory = true)
    (member : node ∈ T.nodesAt context directory.firstCluster) {info : FileInfo}
    (written : utf16ToUtf8 node.name = some info.name)
    (lists : Lists context medium path node info) : PlainName node.name := by
  obtain ⟨child, some_units, length, small⟩ := childNode_of_mem solid member
  obtain ⟨names, spells, walked⟩ := spells_of_resolved pictured solid joined resolved
  obtain ⟨names', spells', walked'⟩ := spells_of_resolved pictured solid joined lists.leads
  obtain ⟨before, after, rfl, front, back⟩ := spells'.split
  obtain rfl := front.unique spells
  by_cases nothing : after = []
  · -- the path leads to the directory itself, which does not lie in itself
    rw [nothing, List.append_nil, walked] at walked'
    cases walked'
    exact (not_in_itself solid placed walked isDirectory child).elim
  · obtain ⟨first, last, rfl⟩ : ∃ first last, after = first ++ [last] :=
      ⟨after.dropLast, after.getLast nothing, (List.dropLast_concat_getLast nothing).symm⟩
    rw [← List.append_assoc, List.map_append, List.map_singleton, walkNodes_concat] at walked'
    obtain ⟨parent, -, found⟩ := Option.bind_eq_some_iff.mp walked'
    split at found
    · obtain ⟨F, r, stored, held, same⟩ := childNode_some found
      have folded := congrArg List.length held.name
      rw [foldName, foldName, List.length_map, List.length_map] at folded
      have stored_name : node.name = stored.name := by
        rw [same]
        rfl
      have member' : last ∈ first ++ [last] := List.mem_append_right _ List.mem_cons_self
      refine (spells_short (Nat.le_refl _) small written back last member').2 ?_
      rw [stored_name, folded]
    · cases found

omit pictured solid joined resolved in
theorem forall₂_filterMap {α β : Type} {f : α → Option β} {R : α → β → Prop} {xs : List α} :
    List.Forall₂ R xs (xs.filterMap f) ↔ ∀ x ∈ xs, ∃ y, f x = some y ∧ R x y := by
  constructor
  · intro all
    have present := List.filterMap_length_eq_length.mp all.length_eq.symm
    induction xs with
    | nil => exact nofun
    | cons x xs ih =>
      obtain ⟨y, here⟩ := Option.isSome_iff_exists.mp (present x List.mem_cons_self)
      rw [List.filterMap_cons_some here] at all
      obtain ⟨first, rest⟩ := List.forall₂_cons.mp all
      refine List.forall_mem_cons.mpr ⟨⟨y, here, first⟩, ih rest fun other member => ?_⟩
      exact present other (List.mem_cons_of_mem _ member)
  · intro all
    induction xs with
    | nil => exact .nil
    | cons x xs ih =>
      obtain ⟨⟨y, here, first⟩, rest⟩ := List.forall_mem_cons.mp all
      rw [List.filterMap_cons_some here]
      exact .cons first (ih rest)

/-- A directory is listed as a whole, with names that lead to its nodes, exactly if all its
names are plain and take less than 256 bytes. -/
theorem listing_iff (placed : Placed context T) (isDirectory : directory.isDirectory = true) :
    FullyListed context medium path (T.nodesAt context directory.firstCluster) ↔
      ∀ node ∈ T.nodesAt context directory.firstCluster, Listable node.name := by
  have listed := listing_eq pictured solid joined resolved isDirectory
  have few := List.length_filterMap_le fileInfo (T.nodesAt context directory.firstCluster)
  constructor
  · intro all node member
    have enough := all ((T.nodesAt context directory.firstCluster).length + 1) (Nat.succ_pos _)
      (Nat.le_succ _)
    rw [listed, List.take_of_length_le (by omega), forall₂_filterMap] at enough
    obtain ⟨info, reported, lists⟩ := enough node member
    obtain ⟨name, written, reported⟩ := Option.bind_eq_some_iff.mp reported
    rw [Option.ite_none_left_eq_some] at reported
    obtain ⟨fits, same⟩ := reported
    cases same
    have plain := lists.plain pictured solid joined resolved placed isDirectory member written
    refine ⟨plain, ?_⟩
    rw [utf16ToUtf8_single fun unit inside => (plain unit inside).2.2] at written
    cases written
    change (node.name.flatMap unitBytes).length < EXFAT_NAME_CAPACITY
    omega
  · intro all capacity _ enough
    rw [listed, List.take_of_length_le (by omega), forall₂_filterMap]
    exact fun node member =>
      (all node member).leads pictured solid joined resolved isDirectory member

end Resolved

/-! ### The small volume -/

theorem smallContext_regular : smallContext.Regular := by
  constructor <;> decide

def smallImage : Image := image smallContext smallVolume

/-- The entry set of the directory `d`. -/
def smallRecord : List Slot := ((smallImage.slots smallContext [4]).drop 2).take 3

/-- The root directory, and `d` in it. -/
def smallShape : Shape where
  folders first :=
    if first = 4 then some ⟨false, 0, [4], [(2, smallRecord)]⟩
    else if first = 5 then some ⟨false, 512, [5], []⟩
    else none
  owner cluster := if 2 ≤ cluster ∧ cluster ≤ 5 then some cluster else none
  place first := if first = 5 then some (4, 2) else none

def smallNode : Node :=
  { firstCluster := 5, validDataLength := 512, dataLength := 512, attributes := 0x10
    name := [0x64], entryCount := 3 }

theorem smallRecord_decoded : setNode smallContext smallRecord = some smallNode := by
  decide +kernel

theorem smallRecord_whole : WholeSet smallRecord where
  sized := by decide
  head := ⟨smallRecord.headD [], smallRecord.tail, by decide⟩
  secondary := by decide

theorem small_unused : (∀ slot ∈ (smallImage.slots smallContext [4]).drop 5, slotType slot = 0) ∧
    ∀ slot ∈ smallImage.slots smallContext [5], slotType slot = 0 := by
  decide +kernel

theorem smallRoot_layout :
    Layout entryFormat 0 (smallImage.slots smallContext [4]) [(2, smallRecord)] := by
  have parts : smallImage.slots smallContext [4] =
      smallImage.slotAt smallContext [4] 0 :: smallImage.slotAt smallContext [4] 1 ::
        (smallRecord ++ (smallImage.slots smallContext [4]).drop 5) := rfl
  rw [parts]
  refine .skip ?_ ?_ (.skip ?_ ?_ (.record smallRecord_whole (.ends small_unused.1)))
  · change ¬slotType _ = 0
    decide
  · change ¬SetHead _
    decide
  · change ¬slotType _ = 0
    decide
  · change ¬SetHead _
    decide

theorem smallShape_folders {first : Nat} {F : Folder} (folder : smallShape.folders first = some F) :
    first = 4 ∧ F = ⟨false, 0, [4], [(2, smallRecord)]⟩ ∨ first = 5 ∧ F = ⟨false, 512, [5], []⟩ := by
  unfold smallShape at folder
  dsimp only at folder
  split_ifs at folder with root below
  · exact Or.inl ⟨root, (Option.some.inj folder).symm⟩
  · exact Or.inr ⟨below, (Option.some.inj folder).symm⟩

theorem smallFat_ends : ∀ cluster ∈ [2, 3, 4, 5], EXFAT_EOC ≤ smallImage.fat cluster := by
  decide

theorem small_extent {cluster : Nat} (member : cluster ∈ [2, 3, 4, 5]) :
    Extent smallContext smallImage.fat cluster false [cluster] where
  head := rfl
  valid := by
    have all : ∀ cluster ∈ [2, 3, 4, 5], smallContext.validCluster cluster = true := by decide
    intro other same
    rw [List.mem_singleton.mp same]
    exact all cluster member
  nodup := List.nodup_singleton cluster
  range := nofun
  linked := fun _ => smallFat_ends cluster member

theorem smallShape_solid : Solid smallContext smallImage [2] smallShape where
  regular := smallContext_regular
  mapped := ⟨small_extent (by decide), by decide, by decide⟩
  bits := by
    intro cluster valid
    obtain ⟨low, high⟩ := Geometry.validCluster_iff.mp valid
    have few : cluster - 2 < 4 := high
    have all : ∀ cluster ∈ [2, 3, 4, 5],
        smallImage.bit smallContext [2] cluster = (smallShape.owner cluster).isSome := by
      decide
    refine all cluster ?_
    simp only [List.mem_cons, List.not_mem_nil, or_false]
    omega
  inside := by
    intro cluster owned
    unfold smallShape at owned
    dsimp only at owned
    split at owned
    · rename_i bounds
      have few : cluster - 2 < 4 := by omega
      exact Geometry.validCluster_iff.mpr ⟨bounds.1, few⟩
    · cases owned
  bitmapOwned := by decide
  bitmapApart := rfl
  root := ⟨_, rfl, rfl⟩
  holding := by
    intro first F folder
    have valid : ∀ r ∈ [(2, smallRecord)], ∃ node, setNode smallContext r.2 = some node := by
      intro r member
      rw [List.mem_singleton.mp member]
      exact ⟨smallNode, smallRecord_decoded⟩
    rcases smallShape_folders folder with ⟨rfl, rfl⟩ | ⟨rfl, rfl⟩
    · exact ⟨⟨small_extent (by decide), Or.inl ⟨rfl, rfl⟩⟩, smallRoot_layout, valid⟩
    · refine ⟨⟨small_extent (by decide), Or.inr rfl⟩, .ends ?_, nofun⟩
      exact small_unused.2
  owned := by
    intro first F folder
    rcases smallShape_folders folder with ⟨rfl, rfl⟩ | ⟨rfl, rfl⟩
    all_goals decide
  onlyRoot := by
    intro first F folder zero
    rcases smallShape_folders folder with ⟨rfl, rfl⟩ | ⟨rfl, rfl⟩
    · rfl
    · cases zero
  named := by
    intro first F folder
    rcases smallShape_folders folder with ⟨rfl, rfl⟩ | ⟨rfl, rfl⟩
    · intro r member r' member' _ _ _ _ _
      rw [List.mem_singleton.mp member, List.mem_singleton.mp member']
    · exact nofun

theorem smallShape_joined : Joined smallContext smallImage.fat smallShape := by
  intro first F folder r member node decoded
  rcases smallShape_folders folder with ⟨rfl, rfl⟩ | ⟨rfl, rfl⟩
  · rw [List.mem_singleton.mp member, smallRecord_decoded] at decoded
    cases decoded
    refine ⟨fun _ _ => ⟨_, rfl, rfl, rfl, by decide⟩, fun _ isFile => ?_, fun none => ?_⟩
    · exact absurd isFile (by decide)
    · exact absurd none (by decide)
  · cases member

theorem smallShape_placed : Placed smallContext smallShape where
  item := by
    intro first F folder r member node decoded _
    rcases smallShape_folders folder with ⟨rfl, rfl⟩ | ⟨rfl, rfl⟩
    · rw [List.mem_singleton.mp member] at decoded ⊢
      rw [smallRecord_decoded] at decoded
      cases decoded
      rfl
    · cases member
  root := rfl

/-- The root directory of the small volume has the directory `d`. -/
theorem listing_iff_small : FullyListed smallContext smallVolume [SLASH]
        (smallShape.nodesAt smallContext (rootNode smallContext).firstCluster) ↔
      ∀ node ∈ smallShape.nodesAt smallContext (rootNode smallContext).firstCluster, Listable node.name := by
  have resolved : eval (answer smallContext.device smallVolume)
      (resolvePath smallContext [SLASH]).run = some (rootNode smallContext) := by
    decide +kernel
  have pictured : Pictured smallContext smallVolume smallImage := ⟨smallVolume_sized, rfl⟩
  exact listing_iff pictured smallShape_solid smallShape_joined resolved smallShape_placed
    rootNode_isDirectory

/-! ### A name outside the basic plane -/

/-- The small volume with a directory named U+1F600. -/
def pairVolume : Nat → List UInt8
  | 27 => sectorWith [(0, [0x81]), (20, [2]), (24, [1]), (32, [0x82]), (36, [0xF6, 1, 0, 8]),
      (52, [3]), (56, [6]), (64, [0x85, 2, 0xF2, 0x60, 0x10]), (96, [0xC0, 0, 0, 2]),
      (104, [0, 2]), (116, [5]), (120, [0, 2]), (128, [0xC1, 0, 0x3D, 0xD8, 0x00, 0xDE])]
  | lba => smallVolume lba

/-- `readdir("/")` reports the directory under its name, and `/` and this name lead
nowhere. -/
theorem pair_unresolved : ∃ info,
    eval (answer smallDevice pairVolume) (exfatContextListDirectory smallContext [SLASH] 2) = [info] ∧
    eval (answer smallDevice pairVolume)
      (resolvePath smallContext ([SLASH] ++ SLASH :: cString info.name)).run = none :=
  ⟨⟨[0xF0, 0x9F, 0x98, 0x80], 512, true, true⟩, by decide +kernel, by decide +kernel⟩

end AsasOs.ExFat
