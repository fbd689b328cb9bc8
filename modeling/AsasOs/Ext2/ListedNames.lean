import AsasOs.Ext2.Paths

/-!
# Listed names of ext2 directories

A listing takes the entries of a directory as they are. A lookup compares names up to letter case, and
takes the first entry that fits.

## Main results

- `listing_entries`: what a listing of a consistent directory gives.
- `listed_resolves`: the path formed from the directory and a listed name leads to the inode of the
  first entry whose name is the same up to letter case.
- `case_lost`: that need not be the listed entry.
-/
namespace AsasOs.Ext2

open Bytes Checked Filling

/-- The entries of a directory whose names are distinct and can be part of a path. Its tree and the inodes can be
read, and nothing depends on what buffers hold before. -/
structure Consistent (c : Context) (directory : Inode) (es : List Entry) : Prop where
  folder : directory.type = EXT2_S_IFDIR
  trees : ∀ leftover, ExtentsInside c leftover directory
  entries : ∀ leftover, entries c leftover directory = es
  names : ∀ entry ∈ es, Component entry.name
  distinct : es.Pairwise fun entry other => entry.name ≠ other.name
  inside : ∀ entry ∈ es, InodeInside c entry.number
  inodes : ∀ entry ∈ es, (inodeAt c entry.number).isSome

section Listed

variable {c : Context} {directory : Inode} {es : List Entry} {steps : Nat} {leftover : Leftover} {path : Name}

theorem listing_take (capacity : Nat) (later : List Entry) (infos : List FileInfo)
    (few : infos.length ≤ capacity) :
    later.foldl (listEntry c capacity) infos = (infos ++ later.filterMap (listedAs c)).take capacity := by
  induction later generalizing infos with
  | nil =>
    rw [List.filterMap_nil, List.append_nil, List.take_of_length_le few]
    rfl
  | cons entry later ih =>
    rw [List.foldl_cons]
    by_cases room : infos.length < capacity
    · have longer := @listEntry_length c capacity infos entry
      rw [ih _ (by omega), listEntry, if_pos room, List.append_assoc]
      cases listed : listedAs c entry with
      | none => rw [List.filterMap_cons_none listed]; rfl
      | some info => rw [List.filterMap_cons_some listed]; rfl
    · rw [listEntry_full room, (listing_full room later).1, List.take_append_of_le_length (by omega),
        List.take_of_length_le few]

/-- A listing gives the entries in order, as many as there is room for. -/
theorem listing_entries (sized : c.Sized) (consistent : Consistent c directory es)
    (enough : 2 ^ 64 < steps)
    (short : directory.size < 2 ^ 64) (resolved : findInode steps c leftover path = .ok directory)
    {capacity : Nat}
    (some : capacity ≠ 0) :
    ext2ContextListDirectory steps c leftover path capacity =
    .ok ((es.filterMap (listedAs c)).take capacity) := by
  rw [ext2ContextListDirectory, demand_holds some, ok_bind, resolved, ok_bind, demand_holds consistent.folder, ok_bind]
  have listed := @listChunks_follows c steps capacity (leftover.under path.length) directory sized (by omega)
    (fun offset _ => consistent.trees _) steps 0 [] (by omega)
  rw [entriesFrom_enough sized steps directory.size 0 (by omega) (Nat.sub_le _ _)] at listed
  have all := consistent.entries (leftover.under path.length)
  rw [entries] at all
  rw [all] at listed
  rw [listed.gives (listedInside_of_all consistent.inside []), listing_take capacity es [] (Nat.zero_le _)]
  rfl

theorem resolve_entry (sized : c.Sized) (consistent : Consistent c directory es)
    (enough : 2 ^ 64 < steps)
    (short : directory.size < 2 ^ 64) (long : path.length + 256 < steps)
    (resolved : findInode steps c leftover path = .ok directory) {name : Name}
    (component : Component name) :
    findInode steps c leftover (path ++ SLASH :: name) =
      supplied ((es.find? fun entry => stringsEqualCi entry.name name).bind fun entry => inodeAt c entry.number) := by
  rw [findInode] at resolved ⊢
  cases root : readInode steps c EXT2_ROOT_INODE with
  | error stop =>
    rw [root] at resolved
    cases resolved
  | ok inode =>
    rw [root, ok_bind] at resolved
    obtain ⟨depth, looksUp⟩ := walk_extend component steps _ resolved
    rw [ok_bind, looksUp steps (by dsimp only; omega)]
    have found := @findInDirectory_follows c steps (leftover.under depth) directory sized (by omega) (by omega)
      (fun _ offset _ => consistent.trees _) name
    rw [lookup, if_pos consistent.folder, consistent.entries] at found
    exact found.gives fun _ entry first => consistent.inside entry (List.mem_of_find?_eq_some first)

/-- The path formed from a directory and a listed name leads to the inode of the first entry whose name is the same
up to letter case. That is the inode of the listed entry if no earlier name differs from it in letter case only. -/
theorem listed_resolves {capacity : Nat} {infos : List FileInfo} {info : FileInfo}
    (mounted : readSuper c.device = some c) (consistent : Consistent c directory es)
    (short : directory.size < 2 ^ 64) (enough : 2 ^ 64 < steps) (long : path.length + 256 < steps)
    (resolved : findInode steps c leftover path = .ok directory)
    (listing : ext2ContextListDirectory steps c leftover path capacity = .ok infos)
    (listed : info ∈ infos) :
    ∃ before entry after inode, es = before ++ entry :: after ∧ inodeAt c entry.number = some inode ∧
      info = fileInfo c entry.name inode ∧
      (∀ first, before.find? (fun other => stringsEqualCi other.name info.name) = some first →
        findInode steps c leftover (path ++ SLASH :: info.name) = supplied (inodeAt c first.number)) ∧
      ((∀ other ∈ before, ¬stringsEqualCi other.name info.name = true) →
        findInode steps c leftover (path ++ SLASH :: info.name) = .ok inode) := by
  have sized := (readSuper_sized mounted).2
  have some : capacity ≠ 0 := by
    rintro rfl
    rw [ext2ContextListDirectory, demand_fails (not_not_intro rfl)] at listing
    cases listing
  rw [listing_entries sized consistent enough short resolved some] at listing
  cases listing
  obtain ⟨entry, member, shown⟩ := List.mem_filterMap.mp (List.take_subset _ _ listed)
  obtain ⟨before, after, parts⟩ := List.append_of_mem member
  obtain ⟨inode, found, rfl⟩ := Option.map_eq_some_iff.mp shown
  have resolves := resolve_entry sized consistent enough short long resolved (consistent.names entry member)
  refine ⟨before, entry, after, inode, parts, found, rfl, fun first earlier => ?_, fun only => ?_⟩
  · change findInode steps c leftover (path ++ SLASH :: entry.name) = _
    change before.find? (fun other => stringsEqualCi other.name entry.name) = .some first at earlier
    rw [resolves, parts, List.find?_append, earlier]
    rfl
  · change findInode steps c leftover (path ++ SLASH :: entry.name) = _
    have none : before.find? (fun other => stringsEqualCi other.name entry.name) = .none :=
      List.find?_eq_none.mpr only
    have itself : stringsEqualCi entry.name entry.name = true := beq_self_eq_true _
    rw [resolves, parts, List.find?_append, none, List.find?_cons, itself, Option.none_or, Option.bind_some, found]
    rfl

end Listed

/-! ### Two names -/

/-- The root directory, and the files `a` of 3 bytes and `A` of 4 bytes. -/
def caseInodes : Memory := fun
  | 129 => 0x40 | 133 => 4 | 168 => 4
  | 257 => 0x80 | 260 => 3
  | 385 => 0x80 | 388 => 4
  | _ => 0

def caseRoot : Memory := fun
  | 0 => 3 | 4 => 12 | 6 => 1 | 7 => 1 | 8 => 0x61
  | 12 => 4 | 16 => 0xF4 | 17 => 3 | 18 => 1 | 19 => 1 | 20 => 0x41
  | _ => 0

def caseSuper : Memory := fun
  | 4 => 64 | 32 => 64 | 40 => 8 | 56 => 0x53 | 57 => 0xEF | 58 => 1 | 96 => 0x42
  | _ => 0

def caseDisk : Ext2Device where
  logicalBlockSize := 1024
  sector := fun
    | 1 => some caseSuper
    | 2 => some fun i => if i = 8 then 3 else 0
    | 3 => some caseInodes
    | 4 => some caseRoot
    | _ => none

def caseEntries : List Entry := [⟨3, [0x61]⟩, ⟨4, [0x41]⟩]

/-- What is mounted. -/
def caseContext : Context where
  device := caseDisk
  blockSize := 1024
  inodeSize := 128
  inodesPerGroup := 8
  blocksPerGroup := 64
  groupCount := 1
  descriptorSize := 32
  featureCompat := 0
  featureIncompat := 0x42
  featureRoCompat := 0
  state := 1
  readOnlyReason := false

theorem caseDisk_super : readSuper caseDisk = some caseContext := by
  have fields : (readSuper caseDisk).map (fun c => ([c.blockSize, c.inodeSize, c.inodesPerGroup, c.blocksPerGroup,
      c.groupCount, c.descriptorSize, c.state], [c.featureCompat, c.featureIncompat, c.featureRoCompat],
      c.readOnlyReason)) = some ([1024, 128, 8, 64, 1, 32, 1], [0, 0x42, 0], false) := by decide +kernel
  obtain ⟨c, mounted, same⟩ := Option.map_eq_some_iff.mp fields
  have device := (readSuper_sized mounted).1
  rw [mounted]
  cases c
  simp only [Prod.mk.injEq, List.cons.injEq, and_true] at same device
  obtain ⟨⟨rfl, rfl, rfl, rfl, rfl, rfl, rfl⟩, ⟨rfl, rfl, rfl⟩, rfl⟩ := same
  rw [device]
  rfl

theorem caseDisk_block : blockContent caseContext 4 = some (byteAt (window caseRoot 0 1024)) := by
  have bytes : gather (deviceByte caseDisk) 4096 1024 = gather (fun i => some (caseRoot i)) 0 1024 := by
    refine gather_congr fun i inside => ?_
    have near : wrapped 1024 (4096 + i) = 4096 + i := by
      rw [wrapped, if_pos (Nat.lt_of_lt_of_le (by omega) (le_lastEnd (by decide)))]
    have sector : (4096 + i) / 1024 = 4 := by omega
    have position : (4096 + i) % 1024 = i := by omega
    change (caseDisk.sector (wrapped 1024 (4096 + i) / 1024)).map _ = _
    rw [near, sector, Nat.zero_add]
    change some (caseRoot (wrapped 1024 (4096 + i) % 1024)) = _
    rw [near, position]
  change (gather (deviceByte caseDisk) 4096 1024).map byteAt = _
  rw [bytes, gather_content]
  rfl

theorem caseDisk_entries {directory : Inode} (plain : directory.flags = 0) (size : directory.size = 1024)
    (block : wordAt directory.blocks 0 4 = 4) (leftover : Leftover) :
    entries caseContext leftover directory = caseEntries := by
  have bytes (leftover : Leftover) : inodeBytes caseContext leftover directory 0 1024 = some (window caseRoot 0 1024) := by
    rw [inodeBytes, size, if_neg (by decide), plain, if_neg (by decide)]
    change gather _ 0 1024 = _
    rw [← gather_content]
    refine gather_congr fun i inside => ?_
    have first : blockOf caseContext directory ((0 + i) / 1024) = some 4 := by
      rw [Nat.div_eq_of_lt (by omega), blockOf, if_pos (by decide), block]
    change (blockOf caseContext directory ((0 + i) / 1024)).bind _ = _
    rw [first, Option.bind_some, if_neg (by decide), blockByte, caseDisk_block]
    change some (byteAt (window caseRoot 0 1024) ((0 + i) % 1024)) = _
    rw [Nat.mod_eq_of_lt (by omega), byteAt_window (by omega), Nat.zero_add]
  have chunk : chunkSize caseContext directory 0 = 1024 := by
    rw [chunkSize, size]
    rfl
  have records : chunkEntries 1024 (byteAt (window caseRoot 0 1024)) 1024 0 = caseEntries := by decide +kernel
  rw [entries, size, entriesFrom, size, if_pos (by decide), chunk]
  dsimp only
  rw [bytes]
  dsimp only
  rw [records, entriesFrom, size, if_neg (by decide), List.append_nil]

theorem caseDisk_inodes : ∃ directory third fourth, inodeAt caseContext 2 = some directory ∧
    inodeAt caseContext 3 = some third ∧ inodeAt caseContext 4 = some fourth ∧
    (directory.mode = 0x4000 ∧ directory.flags = 0 ∧ directory.size = 1024 ∧ wordAt directory.blocks 0 4 = 4) ∧
    third.size = 3 ∧ fourth.size = 4 := by
  have root : (inodeAt caseContext 2).map (fun inode =>
      [inode.mode, inode.flags, inode.size, wordAt inode.blocks 0 4]) = some [0x4000, 0, 1024, 4] := by decide +kernel
  have lower : (inodeAt caseContext 3).map Inode.size = some 3 := by decide +kernel
  have upper : (inodeAt caseContext 4).map Inode.size = some 4 := by decide +kernel
  obtain ⟨directory, found, fields⟩ := Option.map_eq_some_iff.mp root
  obtain ⟨third, foundLower, three⟩ := Option.map_eq_some_iff.mp lower
  obtain ⟨fourth, foundUpper, four⟩ := Option.map_eq_some_iff.mp upper
  simp only [List.cons.injEq, and_true] at fields
  exact ⟨directory, third, fourth, found, foundLower, foundUpper, fields, three, four⟩

theorem caseDisk_consistent : ∃ directory third fourth, Consistent caseContext directory caseEntries ∧
    directory.size = 1024 ∧
    (∀ steps > 2 ^ 16, ∀ leftover, findInode steps caseContext leftover [] = .ok directory) ∧
    inodeAt caseContext 3 = some third ∧ inodeAt caseContext 4 = some fourth ∧ third.size = 3 ∧
    fourth.size = 4 := by
  obtain ⟨directory, third, fourth, found, lower, upper, ⟨mode, flags, size, block⟩, three, four⟩ := caseDisk_inodes
  have plain : ¬directory.flags &&& EXT4_EXTENTS_FL ≠ 0 := by
    rw [flags]
    decide
  have small (number : Nat) : InodeInside caseContext number := fun _ _ => Or.inl (by decide)
  refine ⟨directory, third, fourth, ⟨?_, ?_, ?_, ?_, ?_, ?_, ?_⟩, size, ?_, lower, upper, three, four⟩
  · rw [Inode.type, mode]
    decide
  · exact fun leftover extents => absurd extents plain
  · exact caseDisk_entries flags size block
  · intro entry member
    rcases List.mem_pair.mp member with rfl | rfl
    · exact ⟨⟨by decide, by decide, by decide⟩, by decide⟩
    · exact ⟨⟨by decide, by decide, by decide⟩, by decide⟩
  · decide
  · exact fun entry _ => small entry.number
  · intro entry member
    rcases List.mem_pair.mp member with rfl | rfl
    · exact Option.isSome_of_eq_some lower
    · exact Option.isSome_of_eq_some upper
  · intro steps enough leftover
    have sized := (readSuper_sized caseDisk_super).2
    obtain ⟨more, rfl⟩ : ∃ more, steps = more + 1 := ⟨steps - 1, by omega⟩
    rw [findInode, (readInode_follows sized enough EXT2_ROOT_INODE).gives (small _)]
    change (supplied (inodeAt caseContext 2) >>= _) = _
    rw [found]
    rfl

theorem caseDisk_listing : ∃ directory third fourth, Consistent caseContext directory caseEntries ∧
    directory.size = 1024 ∧ findInode (2 ^ 64 + 2 ^ 16) caseContext (fun _ _ => 0) [] = .ok directory ∧
    (inodeAt caseContext 3 = some third ∧ third.size = 3) ∧
    (inodeAt caseContext 4 = some fourth ∧ fourth.size = 4) ∧
    ext2ContextListDirectory (2 ^ 64 + 2 ^ 16) caseContext (fun _ _ => 0) [] 2 =
      .ok [fileInfo caseContext [0x61] third, fileInfo caseContext [0x41] fourth] ∧
    findInode (2 ^ 64 + 2 ^ 16) caseContext (fun _ _ => 0) [SLASH, 0x41] = .ok third := by
  obtain ⟨directory, third, fourth, consistent, size, resolves, lower, upper, three, four⟩ := caseDisk_consistent
  have resolved := resolves (2 ^ 64 + 2 ^ 16) (by decide) fun _ _ => 0
  have sized := (readSuper_sized caseDisk_super).2
  have short : directory.size < 2 ^ 64 := by
    rw [size]
    decide
  have two : 2 ≠ 0 := by decide
  have listed := listing_entries sized consistent (by decide) short resolved two
  have looksUp := resolve_entry sized consistent (by decide) short (by decide) resolved
    (consistent.names ⟨4, [0x41]⟩ (by decide))
  refine ⟨directory, third, fourth, consistent, size, resolved, ⟨lower, three⟩, ⟨upper, four⟩, ?_, ?_⟩
  · rw [listed]
    change Except.ok ((caseEntries.filterMap (listedAs caseContext)).take 2) = _
    rw [caseEntries, List.filterMap_cons_some (b := fileInfo caseContext [0x61] third) (by rw [listedAs, lower]; rfl),
      List.filterMap_cons_some (b := fileInfo caseContext [0x41] fourth) (by rw [listedAs, upper]; rfl)]
    rfl
  · rw [List.nil_append] at looksUp
    rw [looksUp]
    have first : caseEntries.find? (fun entry => stringsEqualCi entry.name [0x41]) = some ⟨3, [0x61]⟩ := by decide
    rw [first, Option.bind_some, lower]
    rfl

theorem listed_resolves_case : ∃ directory infos info, Consistent caseContext directory caseEntries ∧
    ext2ContextListDirectory (2 ^ 64 + 2 ^ 16) caseContext (fun _ _ => 0) [] 2 = .ok infos ∧ info ∈ infos ∧
    ∃ before entry after inode, caseEntries = before ++ entry :: after ∧
    inodeAt caseContext entry.number = some inode ∧
      info = fileInfo caseContext entry.name inode ∧
      (∀ first, before.find? (fun other => stringsEqualCi other.name info.name) = some first →
        findInode (2 ^ 64 + 2 ^ 16) caseContext (fun _ _ => 0) ([] ++ SLASH :: info.name) =
          supplied (inodeAt caseContext first.number)) ∧
      ((∀ other ∈ before, ¬stringsEqualCi other.name info.name = true) →
        findInode (2 ^ 64 + 2 ^ 16) caseContext (fun _ _ => 0) ([] ++ SLASH :: info.name) = .ok inode) := by
  obtain ⟨directory, third, fourth, consistent, size, resolved, -, -, listing, -⟩ := caseDisk_listing
  have member : fileInfo caseContext [0x41] fourth ∈
      [fileInfo caseContext [0x61] third, fileInfo caseContext [0x41] fourth] :=
    List.mem_cons_of_mem _ List.mem_cons_self
  exact ⟨directory, _, _, consistent, listing, member, listed_resolves caseDisk_super consistent
    (by rw [size]; decide) (by decide) (by decide) resolved listing member⟩

/-- A listed name does not always resolve to the inode of its entry. -/
theorem case_lost : ¬∀ (c : Context) (directory : Inode) (es : List Entry) (steps : Nat)
    (leftover : Leftover)
    (path : Name) (capacity : Nat) (infos : List FileInfo) (info : FileInfo),
    readSuper c.device = some c → Consistent c directory es → directory.size < 2 ^ 64 → 2 ^ 64 < steps →
    path.length + 256 < steps → findInode steps c leftover path = .ok directory →
    ext2ContextListDirectory steps c leftover path capacity = .ok infos → info ∈ infos →
    ∃ entry ∈ es, ∃ inode, inodeAt c entry.number = some inode ∧ info = fileInfo c entry.name inode ∧
      findInode steps c leftover (path ++ SLASH :: info.name) = .ok inode := by
  intro all
  obtain ⟨directory, third, fourth, consistent, size, resolved, ⟨-, three⟩, ⟨upper, four⟩, listing, first⟩ :=
    caseDisk_listing
  obtain ⟨entry, member, inode, found, shown, resolves⟩ := all caseContext directory caseEntries _ _ [] 2 _
    (fileInfo caseContext [0x41] fourth) caseDisk_super consistent (by rw [size]; decide) (by decide) (by decide)
    resolved listing (List.mem_cons_of_mem _ List.mem_cons_self)
  rcases List.mem_pair.mp member with rfl | rfl
  · -- The names differ.
    have names : ([0x41] : Name) = [0x61] := congrArg FileInfo.name shown
    exact absurd names (by decide)
  · change findInode _ _ _ [SLASH, 0x41] = _ at resolves
    rw [first] at resolves
    cases resolves
    rw [upper] at found
    cases found
    omega
end AsasOs.Ext2
