import AsasOs.Ext2.Paths

/-!
# ext2 volumes that are read inside the buffers

Whatever is on a disk, mounting it ends and stays inside the buffers. So do the calls on a mounted
volume, unless an inode that they come to has a descriptor that does not fit, or a tree whose nodes
have too many entries.

## Main results

- `VolumeInside`: no such inode can be reached.
- `reader_safe_iff`: every call on every volume that is mounted ends and stays inside the buffers
  just if no such inode can be reached on it.
-/
namespace AsasOs.Ext2

open Bytes Checked Filling

/-- A call on a mounted volume. -/
inductive Call where
  | pathExists (path : Name)
  | isDirectory (path : Name)
  | fileSize (path : Name)
  | readFile (path : Name) (capacity : Nat) (buffer : Memory)
  | listDirectory (path : Name) (capacity : Nat)

def Call.path : Call → Name
  | .pathExists path => path
  | .isDirectory path => path
  | .fileSize path => path
  | .readFile path _ _ => path
  | .listDirectory path _ => path

/-- A call, without its result. -/
def Call.run (steps : Nat) (c : Context) (leftover : Leftover) : Call → Run Unit
  | .pathExists path => ext2ContextExists steps c leftover path
  | .isDirectory path => ext2ContextIsDirectory steps c leftover path
  | .fileSize path => ext2ContextFileSize steps c leftover path >>= fun _ => pure ()
  | .readFile path capacity buffer => ext2ContextReadFile steps c leftover path capacity buffer >>= fun _ => pure ()
  | .listDirectory path capacity => ext2ContextListDirectory steps c leftover path capacity >>= fun _ => pure ()

/-- A run ends and stays inside its buffers, with enough steps for its loops. -/
def Ends {α : Type} (run : Nat → Run α) : Prop := ∃ enough, ∀ steps ≥ enough, Safe (run steps) fun _ => True

/-- Every call on a volume ends and stays inside the buffers, whatever the buffers hold before. -/
def CallsEnd (c : Context) : Prop :=
  ∀ (call : Call) (leftover : Leftover), 0 ∉ call.path → Ends fun steps => call.run steps c leftover

/-- Mounting a device, and every call on the volume, ends and stays inside the buffers. -/
structure ReaderEnds (device : Ext2Device) : Prop where
  probe : Ends fun steps => ext2Probe steps device
  create : ∀ allocated, Ends fun steps => ext2ContextCreate steps device allocated
  calls : ∀ c, (∃ enough, ∀ steps ≥ enough, ext2ContextCreate steps device true = .ok c) → CallsEnd c

/-- The inodes that a path leads to. -/
inductive Reached (c : Context) : Inode → Prop
  | root {inode : Inode} (found : inodeAt c EXT2_ROOT_INODE = some inode) : Reached c inode
  | child {directory inode : Inode} {name : Name} (leftover : Leftover) (reached : Reached c directory)
      (component : Component name) (found : lookup c leftover directory name = some inode) : Reached c inode

/-- The inodes that calls come to are read inside, and so are the trees of the directories and regular files. -/
structure VolumeInside (c : Context) : Prop where
  root : InodeInside c EXT2_ROOT_INODE
  entries : ∀ directory, Reached c directory → directory.type = EXT2_S_IFDIR →
    ∀ leftover, ∀ entry ∈ entries c leftover directory, InodeInside c entry.number
  trees : ∀ inode, Reached c inode → inode.type = EXT2_S_IFDIR ∨ inode.type = EXT2_S_IFREG → inode.size ≠ 0 →
    ∀ leftover, ExtentsInside c leftover inode

section Reached

variable {c : Context}

theorem inodeAt_size {number : Nat} {inode : Inode} (found : inodeAt c number = some inode) :
    inode.size < 2 ^ 64 := by
  unfold inodeAt at found
  split at found
  next =>
    obtain ⟨table, -, found⟩ := Option.bind_eq_some_iff.mp found
    obtain ⟨raw, -, found⟩ := Option.bind_eq_some_iff.mp found
    split at found
    next =>
      cases found
      have low := wordAt_lt raw 4 4
      have high := wordAt_lt raw 108 4
      dsimp only [parseInode]
      omega
    next => cases found
  next => cases found

theorem lookup_inode {leftover : Leftover} {directory inode : Inode} {name : Name}
    (found : lookup c leftover directory name = some inode) :
    ∃ number, inodeAt c number = some inode := by
  unfold lookup at found
  split at found
  next =>
    obtain ⟨entry, -, found⟩ := Option.bind_eq_some_iff.mp found
    exact ⟨entry.number, found⟩
  next => cases found

theorem Reached.size {inode : Inode} (reached : Reached c inode) : inode.size < 2 ^ 64 := by
  cases reached with
  | root found => exact inodeAt_size found
  | child _ _ _ found =>
    obtain ⟨number, there⟩ := lookup_inode found
    exact inodeAt_size there

end Reached

/-! ### Volumes that are inside -/

section Inside

variable {c : Context} {steps : Nat}

theorem lookup_eq (sized : c.Sized) (inside : VolumeInside c) (enough : 2 ^ 64 < steps)
    {directory : Inode}
    (reached : Reached c directory) (leftover : Leftover) (name : Name) :
    findInDirectory steps c leftover directory name = supplied (lookup c leftover directory name) := by
  have size := reached.size
  refine (findInDirectory_follows sized (by omega) (by omega) (fun folder offset within => ?_) name).gives ?_
  · exact inside.trees directory reached (Or.inl folder) (by omega) _
  · exact fun folder entry found => inside.entries directory reached folder leftover entry (List.mem_of_find?_eq_some found)

theorem walk_safe (sized : c.Sized) (inside : VolumeInside c) (enough : 2 ^ 64 < steps)
    (leftover : Leftover)
    (rounds : Nat) (s : Walk) (left : s.cursor.length < rounds) (reached : Reached c s.current)
    (terminated : 0 ∉ s.cursor) :
    Safe (iterate (walkBody steps c leftover) rounds s) (Reached c) := by
  refine @safe_iterate _ _ (walkBody steps c leftover) (fun s => Reached c s.current ∧ 0 ∉ s.cursor) (Reached c)
    (fun s => s.cursor.length) ?_ rounds s ⟨reached, terminated⟩ left
  rintro s ⟨reached, terminated⟩
  unfold walkBody
  cases next : nextPathComponent s.cursor with
  | none => exact reached
  | some parts =>
    obtain ⟨component, cursor⟩ := parts
    obtain ⟨valid, shorter, terminatedNext⟩ := nextPathComponent_spec terminated next
    dsimp only
    rw [lookup_eq sized inside enough reached]
    cases found : lookup c (leftover.under s.depth) s.current component with
    | none => exact rfl
    | some inode => exact ⟨⟨.child _ reached valid found, terminatedNext⟩, shorter⟩

theorem findInode_safe (sized : c.Sized) (inside : VolumeInside c) (enough : 2 ^ 64 < steps)
    (leftover : Leftover)
    {path : Name} (terminated : 0 ∉ path) (short : path.length < steps) :
    Safe (findInode steps c leftover path) (Reached c) := by
  rw [findInode, (readInode_follows sized (by omega) EXT2_ROOT_INODE).gives inside.root]
  cases found : inodeAt c EXT2_ROOT_INODE with
  | none => exact rfl
  | some root => exact walk_safe sized inside enough leftover steps ⟨path, root, 0⟩ short (.root found) terminated

theorem calls_end (sized : c.Sized) (inside : VolumeInside c) : CallsEnd c := by
  intro call leftover terminated
  refine ⟨2 ^ 64 + 1 + call.path.length, fun steps enough => ?_⟩
  have found := @findInode_safe c steps sized inside (by omega) leftover call.path terminated (by omega)
  cases call with
  | pathExists path => exact safe_bind found fun _ _ => trivial
  | isDirectory path => exact safe_bind found fun inode _ => safe_mono safe_demand fun _ _ => trivial
  | fileSize path =>
    exact safe_discard_iff.mpr (safe_bind found fun inode _ => safe_bind safe_demand fun _ _ => trivial)
  | readFile path capacity buffer =>
    refine safe_discard_iff.mpr (safe_bind found fun inode reached => ?_)
    refine safe_bind safe_demand fun _ regular => safe_bind safe_demand fun _ some => ?_
    have size := reached.size
    refine safe_bind ((readInodeBytes_follows sized _ inode buffer (by omega) (by omega) (by omega)).safe_iff.mpr
      fun _ => ?_) fun _ _ => trivial
    exact inside.trees inode reached (Or.inr regular) (by omega) _
  | listDirectory path capacity =>
    refine safe_discard_iff.mpr (safe_bind safe_demand fun _ _ => safe_bind found fun directory reached => ?_)
    refine safe_bind safe_demand fun _ folder => ?_
    have size := reached.size
    refine (listChunks_follows sized (by omega) (fun offset within => ?_) steps 0 [] (by omega)).safe_iff.mpr ?_
    · exact inside.trees directory reached (Or.inl folder) (by omega) _
    · rw [entriesFrom_enough sized steps directory.size 0 (by omega) (Nat.sub_le _ _)]
      exact listedInside_of_all (inside.entries directory reached folder _) []

end Inside

/-! ### Volumes whose calls end -/

/-- Some contents below one entry, and others elsewhere. -/
def Leftover.splice (index : Nat) (here others : Leftover) : Leftover
  | [] => others []
  | other :: way => if other = index then here way else others (other :: way)

theorem Leftover.splice_here (index : Nat) (here others : Leftover) :
    (Leftover.splice index here others).under index = here :=
  funext fun _ => if_pos rfl

theorem Leftover.splice_other {index other : Nat} (apart : other ≠ index) (here others : Leftover) :
    (Leftover.splice index here others).under other = others.under other :=
  funext fun _ => if_neg apart

/-- A path leads from the root to an inode, and then on. -/
def Leads (c : Context) (root : Inode) (leftover : Leftover) (path : Name) (depth : Nat)
    (inode : Inode) : Prop :=
  ∀ steps, 2 ^ 64 < steps → ∀ others : Leftover, (∀ k < depth, others.under k = leftover.under k) →
    ∀ rest : Name, rest = [] ∨ rest.head? = some SLASH →
      Relation.ReflTransGen (Next (walkBody steps c others)) ⟨path ++ rest, root, 0⟩ ⟨rest, inode, depth⟩

section Outside

variable {c : Context} {root : Inode}

theorem Ends.safe {α : Type} {run : Nat → Run α} (ends : Ends run) :
    ∃ steps, 2 ^ 64 < steps ∧ Safe (run steps) fun _ => True := by
  obtain ⟨enough, safe⟩ := ends
  exact ⟨enough + 2 ^ 64 + 1, by omega, safe _ (by omega)⟩

theorem root_inside (sized : c.Sized) (ends : CallsEnd c) : InodeInside c EXT2_ROOT_INODE := by
  obtain ⟨steps, enough, safe⟩ := (ends (.pathExists []) (fun _ _ => 0) List.not_mem_nil).safe
  have found := safe_discard_iff.mp safe
  rw [findInode, safe_bind_iff] at found
  exact (readInode_follows sized (by omega) EXT2_ROOT_INODE).safe_iff.mp (safe_mono found fun _ _ => trivial)

theorem Leads.reaches {leftover others : Leftover} {path : Name} {depth steps : Nat} {inode : Inode}
    {after : Inode → Prop} (sized : c.Sized) (inside : InodeInside c EXT2_ROOT_INODE)
    (found : inodeAt c EXT2_ROOT_INODE = some root) (leads : Leads c root leftover path depth inode)
    (enough : 2 ^ 64 < steps) (same : ∀ k < depth, others.under k = leftover.under k)
    (safe : Safe (findInode steps c others path) after) : after inode := by
  rw [findInode, (readInode_follows sized (by omega) EXT2_ROOT_INODE).gives inside, found, supplied, ok_bind] at safe
  have way := leads steps enough others same [] (Or.inl rfl)
  rw [List.append_nil] at way
  exact reached_last way rfl safe

theorem Leads.directory {leftover : Leftover} {path : Name} {depth : Nat} {directory : Inode}
    (sized : c.Sized)
    (ends : CallsEnd c) (found : inodeAt c EXT2_ROOT_INODE = some root) (reached : Reached c directory)
    (leads : Leads c root leftover path depth directory) (terminated : 0 ∉ path)
    (shallow : depth ≤ path.length) (folder : directory.type = EXT2_S_IFDIR) :
    (directory.size ≠ 0 → ∀ here, ExtentsInside c here directory) ∧
      ∀ here, ∀ entry ∈ entries c here directory, InodeInside c entry.number := by
  have inside := root_inside sized ends
  -- What a listing does in the directory, with any contents of the buffers there.
  have listing (capacity : Nat) (here : Leftover) : ∃ steps, 2 ^ 64 < steps ∧
      Safe (iterate (listChunk steps c here directory (capacity + 1)) steps (0, [])) fun _ => True := by
    obtain ⟨steps, enough, safe⟩ :=
      (ends (.listDirectory path (capacity + 1)) (Leftover.splice path.length here leftover) terminated).safe
    have listed := safe_discard_iff.mp safe
    rw [ext2ContextListDirectory, demand_holds (Nat.succ_ne_zero _), ok_bind, safe_bind_iff] at listed
    have rest := leads.reaches sized inside found enough
      (fun k below => Leftover.splice_other (by omega) here leftover) listed
    rw [demand_holds folder, ok_bind, Leftover.splice_here] at rest
    exact ⟨steps, enough, rest⟩
  have trees : directory.size ≠ 0 → ∀ here, ExtentsInside c here directory := by
    intro some here
    obtain ⟨steps, enough, safe⟩ := listing 0 (Leftover.splice 0 here here)
    obtain ⟨rounds, rfl⟩ : ∃ rounds, steps = rounds + 1 := ⟨steps - 1, by omega⟩
    obtain ⟨-, small, -⟩ := chunkSize_bounds sized directory (Nat.pos_of_ne_zero some)
    have few : chunkSize c directory 0 < rounds + 1 := by
      unfold EXT2_MAX_BLOCK_SIZE at small
      omega
    rw [iterate_succ, listChunk, if_pos ⟨Nat.pos_of_ne_zero some, Nat.zero_lt_one⟩, safe_bind_iff] at safe
    dsimp only at safe
    rw [safe_bind_iff, Leftover.splice_here] at safe
    have read := readInodeBytes_follows sized here directory (fun _ => 0) (by omega) few
      (Nat.le_trans (Nat.min_le_left _ (directory.size - 0)) small)
    exact read.tried.safe_iff.mp (safe_mono safe fun _ _ => trivial) (Nat.zero_le _)
  refine ⟨trees, fun here => ?_⟩
  obtain ⟨steps, enough, safe⟩ := listing (entries c here directory).length here
  have size := reached.size
  have listed := (listChunks_follows sized (by omega) (fun offset within => trees (by omega) _) steps 0 []
    (by omega)).safe_iff.mp safe
  rw [entriesFrom_enough sized steps directory.size 0 (by omega) (Nat.sub_le _ _)] at listed
  exact all_of_listedInside listed (by rw [List.length_nil, entries]; omega)

theorem Leads.file {leftover : Leftover} {path : Name} {depth : Nat} {inode : Inode} (sized : c.Sized)
    (ends : CallsEnd c) (found : inodeAt c EXT2_ROOT_INODE = some root) (reached : Reached c inode)
    (leads : Leads c root leftover path depth inode) (terminated : 0 ∉ path)
    (shallow : depth ≤ path.length)
    (regular : inode.type = EXT2_S_IFREG) (some : inode.size ≠ 0) (here : Leftover) :
    ExtentsInside c here inode := by
  obtain ⟨steps, enough, safe⟩ :=
    (ends (.readFile path inode.size fun _ => 0) (Leftover.splice path.length here leftover) terminated).safe
  have size := reached.size
  have read := safe_discard_iff.mp safe
  rw [ext2ContextReadFile, safe_bind_iff] at read
  have rest := leads.reaches sized (root_inside sized ends) found enough
    (fun k below => Leftover.splice_other (by omega) here leftover) read
  dsimp only at rest
  rw [demand_holds regular, ok_bind, Nat.min_self, demand_holds some, ok_bind, Leftover.splice_here,
    safe_bind_iff] at rest
  have bytes := readInodeBytes_follows sized here inode (fun _ => 0) (by omega) (show inode.size < steps by omega)
    (Nat.min_le_left _ (inode.size - 0))
  exact bytes.safe_iff.mp (safe_mono rest fun _ _ => trivial) (Nat.zero_le _)

theorem Reached.leads {inode : Inode} (sized : c.Sized) (ends : CallsEnd c)
    (found : inodeAt c EXT2_ROOT_INODE = some root) (reached : Reached c inode) :
    ∃ leftover path depth, Leads c root leftover path depth inode ∧ 0 ∉ path ∧ depth ≤ path.length := by
  induction reached with
  | root here =>
    rw [found] at here
    cases here
    exact ⟨fun _ _ => 0, [], 0, fun _ _ _ _ _ _ => .refl, List.not_mem_nil, Nat.le_refl _⟩
  | @child directory inode name here reached component lookedUp ih =>
    obtain ⟨leftover, path, depth, leads, terminated, shallow⟩ := ih
    refine ⟨Leftover.splice depth here leftover, path ++ SLASH :: name, depth + 1, ?_, ?_, ?_⟩
    · intro steps enough others same rest stops
      have earlier : ∀ k < depth, others.under k = leftover.under k := fun k below => by
        rw [same k (by omega), Leftover.splice_other (by omega)]
      have way := leads steps enough others earlier (SLASH :: (name ++ rest)) (Or.inr rfl)
      have folder : directory.type = EXT2_S_IFDIR := by
        by_contra other
        rw [lookup, if_neg other] at lookedUp
        cases lookedUp
      obtain ⟨trees, entries⟩ := leads.directory sized ends found reached terminated shallow folder
      -- The next round looks the component up.
      have size := reached.size
      have round : findInDirectory steps c (others.under depth) directory name = .ok inode := by
        rw [same depth (Nat.lt_succ_self _), Leftover.splice_here,
          (findInDirectory_follows sized (by omega) (by omega) (fun _ offset within => trees (by omega) _) name).gives
            fun _ entry first => entries here entry (List.mem_of_find?_eq_some first), lookedUp]
        rfl
      rw [List.append_assoc, List.cons_append]
      refine way.tail ?_
      rw [Next, walkBody]
      dsimp only
      rw [nextPathComponent_append component stops]
      dsimp only
      rw [round]
      rfl
    · intro member
      rcases List.mem_append.mp member with before | behind
      · exact terminated before
      · rcases List.mem_cons.mp behind with slash | last
        · exact absurd slash (by decide)
        · exact component.terminator last
    · rw [List.length_append, List.length_cons]
      omega

theorem volume_inside (sized : c.Sized) (ends : CallsEnd c) : VolumeInside c := by
  have reaches {inode : Inode} (reached : Reached c inode) : ∃ root, inodeAt c EXT2_ROOT_INODE = some root := by
    induction reached with
    | root found => exact ⟨_, found⟩
    | child _ _ _ _ ih => exact ih
  refine ⟨root_inside sized ends, fun directory reached folder => ?_, fun inode reached kind some => ?_⟩
  · obtain ⟨root, found⟩ := reaches reached
    obtain ⟨leftover, path, depth, leads, terminated, shallow⟩ := reached.leads sized ends found
    exact (leads.directory sized ends found reached terminated shallow folder).2
  · obtain ⟨root, found⟩ := reaches reached
    obtain ⟨leftover, path, depth, leads, terminated, shallow⟩ := reached.leads sized ends found
    rcases kind with folder | regular
    · exact (leads.directory sized ends found reached terminated shallow folder).1 some
    · exact leads.file sized ends found reached terminated shallow regular some

end Outside

/-- Mounting a volume and calling it ends and stays inside the buffers just if no inode is reached whose
descriptor or whose tree does not fit. -/
theorem reader_safe_iff (device : Ext2Device) :
    ReaderEnds device ↔ ∀ c, readSuper device = some c → VolumeInside c := by
  constructor
  · intro ends c mounted
    refine volume_inside (readSuper_sized mounted).2 (ends.calls c ⟨2 ^ 16 + 1, fun steps enough => ?_⟩)
    rw [ext2ContextCreate, demand_holds rfl, ok_bind, loadSuper_eq device (by omega), mounted]
    rfl
  · intro inside
    refine ⟨⟨2 ^ 16 + 1, fun steps enough => ?_⟩, fun allocated => ⟨2 ^ 16 + 1, fun steps enough => ?_⟩, ?_⟩
    · change Safe (ext2Probe steps device) _
      rw [ext2Probe, loadSuper_eq device (by omega)]
      exact safe_bind safe_demand fun _ _ => safe_bind safe_supplied fun _ _ => trivial
    · change Safe (ext2ContextCreate steps device allocated) _
      rw [ext2ContextCreate, loadSuper_eq device (by omega)]
      exact safe_bind safe_demand fun _ _ => safe_mono safe_supplied fun _ _ => trivial
    · rintro c ⟨enough, created⟩
      have made := created (enough + 2 ^ 16 + 1) (by omega)
      rw [ext2ContextCreate, demand_holds rfl, ok_bind, loadSuper_eq device (by omega)] at made
      have mounted : readSuper device = some c := supplied_inj made
      exact calls_end (readSuper_sized mounted).2 (inside c mounted)

/-! ### A volume with wide descriptors -/

/-- A superblock with the 64-bit feature and descriptors of 128 bytes. -/
def wideSuper : Memory := fun
  | 4 => 64 | 32 => 64 | 40 => 8 | 56 => 0x53 | 57 => 0xEF | 58 => 1 | 96 => 0xC2 | 254 => 128
  | _ => 0

def wideDisk : Ext2Device where
  logicalBlockSize := 1024
  sector := fun number => some (if number = 1 then wideSuper else fun _ => 0)

/-- A call on the volume leaves the 64 bytes of `inode_table_block`. -/
theorem descriptor_overrun : ¬∀ device, ReaderEnds device := by
  intro all
  have shape : (readSuper wideDisk).map (fun c => (c.inodeSize, c.inodesPerGroup, c.groupCount, c.descriptorSize)) =
      some (128, 8, 1, 128) := by decide +kernel
  obtain ⟨c, mounted, fields⟩ := Option.map_eq_some_iff.mp shape
  obtain ⟨inode, fields⟩ := Prod.mk.inj fields
  obtain ⟨perGroup, fields⟩ := Prod.mk.inj fields
  obtain ⟨groups, descriptor⟩ := Prod.mk.inj fields
  obtain ⟨device, sized⟩ := readSuper_sized mounted
  have ends := (all wideDisk).calls c ⟨2 ^ 16 + 1, fun steps enough => by
    rw [ext2ContextCreate, demand_holds rfl, ok_bind, loadSuper_eq wideDisk (by omega), mounted]
    rfl⟩
  have inside := root_inside sized ends ⟨by decide, by omega⟩
  rw [perGroup, groups] at inside
  rcases inside (by decide) with fits | ⟨k, -, missing⟩
  · omega
  · rw [device] at missing
    cases missing

end AsasOs.Ext2
