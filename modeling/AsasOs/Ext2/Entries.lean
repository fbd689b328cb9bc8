import AsasOs.Ext2.Contents

/-!
# The entries of an ext2 directory

A directory is a list of entries, which ends where a chunk cannot be read. `find_in_directory` looks
for the first entry with a name, and `ext2_context_list_directory` takes the entries whose inodes can
be read.

## Main results

- `findInDirectory_follows`: a lookup gives the inode of the first entry whose name is the same up to
  letter case.
- `listChunks_follows`: a listing gives the entries in order, as long as there is room for them.
-/
namespace AsasOs.Ext2

open Bytes Checked Filling

def slotAt (chunk : Nat) (block : Memory) (cursor : Nat) : Slot :=
  if cursor + 8 ≤ chunk then
    let number := wordAt block cursor 4
    let recLen := wordAt block (cursor + 4) 2
    let nameLen := wordAt block (cursor + 6) 1
    if recLen < 8 ∨ cursor + recLen > chunk then .last
    else if number ≠ 0 ∧ nameLen ≠ 0 ∧ nameLen ≤ EXT2_NAME_LEN ∧ 8 + nameLen ≤ recLen then
      .entry ⟨number, cString (window block (cursor + 8) nameLen)⟩ (cursor + recLen)
    else .skip (cursor + recLen)
  else .last

/-- The entries of a chunk from a cursor on. A record has at least 8 bytes, so as many rounds as bytes are enough. -/
def chunkEntries (chunk : Nat) (block : Memory) : Nat → Nat → List Entry
  | 0, _ => []
  | rounds + 1, cursor =>
    match slotAt chunk block cursor with
    | .last => []
    | .skip next => chunkEntries chunk block rounds next
    | .entry entry next => entry :: chunkEntries chunk block rounds next

/-- The entries of a directory from an offset on, up to a chunk that cannot be read. -/
def entriesFrom (c : Context) (leftover : Leftover) (directory : Inode) : Nat → Nat → List Entry
  | 0, _ => []
  | rounds + 1, offset =>
    if offset < directory.size then
      let chunk := chunkSize c directory offset
      match inodeBytes c (leftover.under offset) directory offset chunk with
      | none => []
      | some data =>
        chunkEntries chunk (byteAt data) chunk 0 ++ entriesFrom c leftover directory rounds (offset + chunk)
    else []

def entries (c : Context) (leftover : Leftover) (directory : Inode) : List Entry :=
  entriesFrom c leftover directory directory.size 0

/-- A slot at a cursor leads behind its record, and not behind the chunk. -/
def Slot.Advances (chunk cursor : Nat) : Slot → Prop
  | .last => True
  | .skip next => cursor + 8 ≤ next ∧ next ≤ chunk
  | .entry _ next => cursor + 8 ≤ next ∧ next ≤ chunk

section Chunks

variable {c : Context} {steps chunk : Nat} {block : Memory}

theorem slotAt_advances (cursor : Nat) : (slotAt chunk block cursor).Advances chunk cursor := by
  unfold slotAt
  dsimp only
  split
  next room =>
    split
    next => trivial
    next passed =>
      split
      next => exact ⟨by omega, by omega⟩
      next => exact ⟨by omega, by omega⟩
  next => trivial

theorem entryAt_eq (small : chunk ≤ EXT2_MAX_BLOCK_SIZE) (cursor : Nat) :
    entryAt chunk block cursor = .ok (slotAt chunk block cursor) := by
  unfold entryAt slotAt
  by_cases room : cursor + 8 ≤ chunk
  · rw [if_pos room, if_pos room, peek_inside (by omega), ok_bind, peek_inside (by omega), ok_bind,
      peek_inside (by omega), ok_bind]
    dsimp only
    split
    next => rfl
    next passed =>
      split
      next used =>
        obtain ⟨-, -, short, within⟩ := used
        unfold EXT2_NAME_LEN at short
        rw [access, if_pos (Or.inr (by omega)), ok_bind, access, if_pos (Or.inr (by omega))]
        rfl
      next => rfl
  · rw [if_neg room, if_neg room]
    rfl

theorem chunkEntries_enough (rounds more cursor : Nat) (enough : chunk - cursor ≤ rounds)
    (also : chunk - cursor ≤ more) :
    chunkEntries chunk block rounds cursor = chunkEntries chunk block more cursor := by
  induction rounds generalizing more cursor with
  | zero =>
    cases more with
    | zero => rfl
    | succ more =>
      rw [chunkEntries, chunkEntries, slotAt, if_neg (by omega)]
  | succ rounds ih =>
    have advances := @slotAt_advances chunk block cursor
    cases more with
    | zero => rw [chunkEntries, chunkEntries, slotAt, if_neg (by omega)]
    | succ more =>
      rw [chunkEntries, chunkEntries]
      cases slot : slotAt chunk block cursor with
      | last => rfl
      | skip next =>
        rw [slot] at advances
        obtain ⟨behind, within⟩ := advances
        exact ih more next (by omega) (by omega)
      | entry entry next =>
        rw [slot] at advances
        obtain ⟨behind, within⟩ := advances
        exact congrArg (entry :: ·) (ih more next (by omega) (by omega))

theorem findLoop_follows (sized : c.Sized) (enough : 2 ^ 16 < steps)
    (small : chunk ≤ EXT2_MAX_BLOCK_SIZE)
    (name : Name) (rounds cursor : Nat) (left : chunk - cursor < rounds) :
    Follows (iterate (findBody steps c name chunk block) rounds cursor)
      (∀ entry, (chunkEntries chunk block rounds cursor).find? (fun entry => stringsEqualCi entry.name name) =
        some entry → InodeInside c entry.number)
      (match (chunkEntries chunk block rounds cursor).find? fun entry => stringsEqualCi entry.name name with
        | some entry => (inodeAt c entry.number).map some
        | none => some none) := by
  induction rounds generalizing cursor with
  | zero => exact absurd left (Nat.not_lt_zero _)
  | succ rounds ih =>
    have advances := @slotAt_advances chunk block cursor
    rw [chunkEntries, iterate_succ, findBody, entryAt_eq small, ok_bind]
    cases slot : slotAt chunk block cursor with
    | last => exact .anyway (fun _ found => nomatch found) rfl
    | skip next =>
      rw [slot] at advances
      obtain ⟨behind, within⟩ := advances
      exact ih next (by omega)
    | entry entry next =>
      rw [slot] at advances
      obtain ⟨behind, within⟩ := advances
      dsimp only
      by_cases same : stringsEqualCi entry.name name = true
      · rw [if_pos same, List.find?_cons, same, bind_assoc]
        have found : Follows (readInode steps c entry.number >>= fun inode => .ok (some inode))
            (InodeInside c entry.number) ((inodeAt c entry.number).bind fun inode => some (some inode)) :=
          (readInode_follows sized enough entry.number).bind_eq fun _ _ => rfl
        refine found.congr ?_ fun _ => Option.map_eq_bind
        exact ⟨fun all => all entry rfl, fun here other given => by cases given; exact here⟩
      · rw [if_neg same, List.find?_cons, Bool.eq_false_iff.mpr same]
        exact ih next (by omega)

end Chunks

section Lookups

variable {c : Context} {steps : Nat} {leftover : Leftover} {directory : Inode}

theorem chunkSize_bounds (sized : c.Sized) (directory : Inode) {offset : Nat}
    (more : offset < directory.size) :
    0 < chunkSize c directory offset ∧ chunkSize c directory offset ≤ EXT2_MAX_BLOCK_SIZE ∧
      offset + chunkSize c directory offset ≤ directory.size := by
  have bounds := block_bounds sized
  unfold chunkSize
  omega

theorem readChunk_eq (sized : c.Sized) (enough : 2 ^ 16 < steps)
    (tree : ExtentsInside c leftover directory)
    {offset : Nat} (more : offset < directory.size) :
    readInodeBytes steps c leftover directory EXT2_MAX_BLOCK_SIZE offset (chunkSize c directory offset) (fun _ => 0) =
      supplied ((inodeBytes c leftover directory offset (chunkSize c directory offset)).map byteAt) := by
  obtain ⟨-, small, -⟩ := chunkSize_bounds sized directory more
  have few : chunkSize c directory offset < steps := by
    unfold EXT2_MAX_BLOCK_SIZE at small
    omega
  rw [(readInodeBytes_follows sized leftover directory _ enough few (by omega)).gives fun _ => tree]
  congr 2
  funext data
  exact patch_zero data

theorem findChunks_follows (sized : c.Sized) (enough : 2 ^ 16 < steps)
    (trees : ∀ offset < directory.size, ExtentsInside c (leftover.under offset) directory)
    (name : Name) (rounds offset : Nat)
    (left : directory.size - offset < rounds) :
    Follows (iterate (findChunk steps c leftover directory name) rounds offset)
      (∀ entry, (entriesFrom c leftover directory rounds offset).find?
        (fun entry => stringsEqualCi entry.name name) = some entry → InodeInside c entry.number)
      (((entriesFrom c leftover directory rounds offset).find? fun entry => stringsEqualCi entry.name name).bind
        fun entry => inodeAt c entry.number) := by
  induction rounds generalizing offset with
  | zero => exact absurd left (Nat.not_lt_zero _)
  | succ rounds ih =>
    rw [entriesFrom, iterate_succ, findChunk]
    by_cases more : offset < directory.size
    · obtain ⟨positive, small, within⟩ := chunkSize_bounds sized directory more
      rw [if_pos more, if_pos more]
      dsimp only
      rw [readChunk_eq sized enough (trees offset more) more]
      generalize chunkIs : chunkSize c directory offset = chunk at *
      cases inodeBytes c (leftover.under offset) directory offset chunk with
      | none => exact .refused fun _ found => by cases found
      | some data =>
        have few : chunk < steps := by
          unfold EXT2_MAX_BLOCK_SIZE at small
          omega
        have loop := @findLoop_follows c steps chunk (byteAt data) sized enough small name steps 0 few
        rw [chunkEntries_enough steps chunk 0 (Nat.le_of_lt few) (Nat.le_refl _)] at loop
        rw [Option.map_some, supplied, ok_bind, bind_assoc]
        dsimp only
        rw [List.find?_append]
        cases here : (chunkEntries chunk (byteAt data) chunk 0).find? fun entry => stringsEqualCi entry.name name with
        | some entry =>
          rw [here] at loop
          refine Follows.congr (loop.bind_map fun inode _ => .of_eq (show _ = supplied (some inode) from rfl)) ?_ fun _ => ?_
          · exact (and_iff_left fun _ _ => trivial).symm
          · exact (Option.bind_fun_some _).symm
        | none =>
          rw [here] at loop
          refine (loop.bind_some (ih (offset + chunk) (by omega))).congr ?_ fun _ => rfl
          exact (and_iff_right fun _ found => by cases found).symm
    · rw [if_neg more, if_neg more]
      exact .refused fun _ found => by cases found

def lookup (c : Context) (leftover : Leftover) (directory : Inode) (name : Name) : Option Inode :=
  if directory.type = EXT2_S_IFDIR then
    ((entries c leftover directory).find? fun entry => stringsEqualCi entry.name name).bind
      fun entry => inodeAt c entry.number
  else none

theorem entriesFrom_enough (sized : c.Sized) (rounds more offset : Nat)
    (enough : directory.size - offset ≤ rounds)
    (also : directory.size - offset ≤ more) :
    entriesFrom c leftover directory rounds offset = entriesFrom c leftover directory more offset := by
  induction rounds generalizing more offset with
  | zero =>
    cases more with
    | zero => rfl
    | succ more => rw [entriesFrom, entriesFrom, if_neg (by omega)]
  | succ rounds ih =>
    cases more with
    | zero => rw [entriesFrom, entriesFrom, if_neg (by omega)]
    | succ more =>
      rw [entriesFrom, entriesFrom]
      by_cases here : offset < directory.size
      · obtain ⟨positive, -, within⟩ := chunkSize_bounds sized directory here
        rw [if_pos here, if_pos here]
        dsimp only
        rw [ih more (offset + chunkSize c directory offset) (by omega) (by omega)]
      · rw [if_neg here, if_neg here]

/-- `find_in_directory` gives the inode of the first entry with the name. -/
theorem findInDirectory_follows (sized : c.Sized) (enough : 2 ^ 16 < steps)
    (left : directory.size < steps)
    (trees : directory.type = EXT2_S_IFDIR → ∀ offset < directory.size,
      ExtentsInside c (leftover.under offset) directory)
    (name : Name) :
    Follows (findInDirectory steps c leftover directory name)
      (directory.type = EXT2_S_IFDIR → ∀ entry, (entries c leftover directory).find?
        (fun entry => stringsEqualCi entry.name name) = some entry → InodeInside c entry.number)
      (lookup c leftover directory name) := by
  unfold findInDirectory lookup entries
  by_cases folder : directory.type = EXT2_S_IFDIR
  · rw [demand_holds folder, ok_bind, if_pos folder,
      entriesFrom_enough sized directory.size steps 0 (Nat.sub_le _ _) (by omega)]
    exact (findChunks_follows sized enough (trees folder) name steps 0 (by omega)).congr
      (forall_prop_of_true folder) fun _ => rfl
  · rw [demand_fails folder, if_neg folder]
    exact .refused fun here => absurd here folder

end Lookups

/-! ### Listings -/

section Listings

variable {c : Context} {steps capacity : Nat} {leftover : Leftover} {directory : Inode}

/-- What is listed for an entry, if its inode can be read. -/
def listedAs (c : Context) (entry : Entry) : Option FileInfo :=
  (inodeAt c entry.number).map (fileInfo c entry.name)

/-- The listing with one more entry, as long as there is room for it. -/
def listEntry (c : Context) (capacity : Nat) (infos : List FileInfo) (entry : Entry) : List FileInfo :=
  if infos.length < capacity then infos ++ (listedAs c entry).toList else infos

/-- The inodes of the entries that a listing comes to are read inside. -/
def ListedInside (c : Context) (capacity : Nat) : List Entry → List FileInfo → Prop
  | [], _ => True
  | entry :: later, infos =>
    (infos.length < capacity → InodeInside c entry.number) ∧
    ListedInside c capacity later (listEntry c capacity infos entry)

theorem listEntry_full {infos : List FileInfo} (full : ¬infos.length < capacity) (entry : Entry) :
    listEntry c capacity infos entry = infos := if_neg full

theorem listing_full {infos : List FileInfo} (full : ¬infos.length < capacity) (later : List Entry) :
    later.foldl (listEntry c capacity) infos = infos ∧ ListedInside c capacity later infos := by
  induction later with
  | nil => exact ⟨rfl, trivial⟩
  | cons entry later ih =>
    rw [List.foldl_cons, ListedInside, listEntry_full full]
    exact ⟨ih.1, fun room => absurd room full, ih.2⟩

theorem ListedInside_append (first later : List Entry) (infos : List FileInfo) :
    ListedInside c capacity (first ++ later) infos ↔
      ListedInside c capacity first infos ∧
      ListedInside c capacity later (first.foldl (listEntry c capacity) infos) := by
  induction first generalizing infos with
  | nil => exact (and_iff_right trivial).symm
  | cons entry first ih => rw [List.cons_append, ListedInside, ListedInside, ih, and_assoc, List.foldl_cons]

theorem listedInside_of_all {later : List Entry} (inside : ∀ entry ∈ later, InodeInside c entry.number)
    (infos : List FileInfo) : ListedInside c capacity later infos := by
  induction later generalizing infos with
  | nil => trivial
  | cons entry later ih =>
    exact ⟨fun _ => inside entry List.mem_cons_self,
      ih (fun other member => inside other (List.mem_cons_of_mem _ member)) _⟩

theorem listEntry_length (infos : List FileInfo) (entry : Entry) :
    (listEntry c capacity infos entry).length ≤ infos.length + 1 := by
  unfold listEntry
  split
  next =>
    rw [List.length_append]
    cases listedAs c entry with
    | none => exact Nat.le_succ _
    | some info => exact Nat.le_refl _
  next => exact Nat.le_succ _

theorem all_of_listedInside {later : List Entry} {infos : List FileInfo}
    (inside : ListedInside c capacity later infos)
    (room : infos.length + later.length ≤ capacity) : ∀ entry ∈ later, InodeInside c entry.number := by
  induction later generalizing infos with
  | nil => exact fun _ member => absurd member List.not_mem_nil
  | cons entry later ih =>
    rw [List.length_cons] at room
    have longer := @listEntry_length c capacity infos entry
    intro other member
    rcases List.mem_cons.mp member with rfl | member
    · exact inside.1 (by omega)
    · exact ih inside.2 (by omega) other member

theorem listLoop_follows (sized : c.Sized) (enough : 2 ^ 16 < steps) {chunk : Nat} {block : Memory}
    (small : chunk ≤ EXT2_MAX_BLOCK_SIZE) (rounds cursor : Nat) (infos : List FileInfo)
    (left : chunk - cursor < rounds) :
    Follows (iterate (listBody steps c capacity chunk block) rounds (cursor, infos))
      (ListedInside c capacity (chunkEntries chunk block rounds cursor) infos)
      (some ((chunkEntries chunk block rounds cursor).foldl (listEntry c capacity) infos)) := by
  induction rounds generalizing cursor infos with
  | zero => exact absurd left (Nat.not_lt_zero _)
  | succ rounds ih =>
    have advances := @slotAt_advances chunk block cursor
    rw [iterate_succ, listBody]
    dsimp only
    by_cases room : infos.length < capacity
    · rw [if_pos room, chunkEntries, entryAt_eq small, ok_bind]
      cases slot : slotAt chunk block cursor with
      | last => exact .anyway trivial rfl
      | skip next =>
        rw [slot] at advances
        obtain ⟨behind, within⟩ := advances
        exact ih next infos (by omega)
      | entry entry next =>
        rw [slot] at advances
        obtain ⟨behind, within⟩ := advances
        dsimp only
        rw [access_inside (Nat.succ_le_of_lt room), ok_bind, bind_assoc, ListedInside, List.foldl_cons]
        refine ((readInode_follows sized enough entry.number).tried.bind_some ?_).congr
          (and_congr_left fun _ => forall_prop_of_true room) fun _ => rfl
        have later := ih next (listEntry c capacity infos entry) (by omega)
        rw [listEntry, if_pos room, listedAs] at later ⊢
        cases found : inodeAt c entry.number with
        | none =>
          rw [found, Option.map_none, Option.toList_none, List.append_nil] at later
          rw [Option.map_none, Option.toList_none, List.append_nil]
          exact later
        | some child =>
          rw [found] at later
          exact later
    · obtain ⟨unchanged, inside⟩ := @listing_full c capacity infos room (chunkEntries chunk block (rounds + 1) cursor)
      rw [if_neg room]
      exact .anyway inside (by rw [unchanged]; rfl)

/-- The loop of `ext2_context_list_directory` over the chunks. -/
theorem listChunks_follows (sized : c.Sized) (enough : 2 ^ 16 < steps)
    (trees : ∀ offset < directory.size, ExtentsInside c (leftover.under offset) directory)
    (rounds offset : Nat)
    (infos : List FileInfo) (left : directory.size - offset < rounds) :
    Follows (iterate (listChunk steps c leftover directory capacity) rounds (offset, infos))
      (ListedInside c capacity (entriesFrom c leftover directory rounds offset) infos)
      (some ((entriesFrom c leftover directory rounds offset).foldl (listEntry c capacity) infos)) := by
  induction rounds generalizing offset infos with
  | zero => exact absurd left (Nat.not_lt_zero _)
  | succ rounds ih =>
    rw [iterate_succ, listChunk]
    dsimp only
    by_cases room : infos.length < capacity
    · rw [entriesFrom]
      by_cases more : offset < directory.size
      · obtain ⟨positive, small, within⟩ := chunkSize_bounds sized directory more
        rw [if_pos ⟨more, room⟩, if_pos more]
        dsimp only
        rw [readChunk_eq sized enough (trees offset more) more]
        generalize chunkIs : chunkSize c directory offset = chunk at *
        cases inodeBytes c (leftover.under offset) directory offset chunk with
        | none => exact .anyway trivial rfl
        | some data =>
          have few : chunk < steps := by
            unfold EXT2_MAX_BLOCK_SIZE at small
            omega
          have loop := @listLoop_follows c steps capacity sized enough chunk (byteAt data) small steps 0 infos few
          rw [chunkEntries_enough steps chunk 0 (Nat.le_of_lt few) (Nat.le_refl _)] at loop
          rw [ListedInside_append, List.foldl_append, Option.map_some, supplied, tried, ok_bind]
          dsimp only
          rw [bind_assoc]
          exact loop.bind_some (ih (offset + chunk) _ (by omega))
      · rw [if_neg fun both => more both.1, if_neg more]
        exact .anyway trivial rfl
    · obtain ⟨unchanged, inside⟩ :=
        @listing_full c capacity infos room (entriesFrom c leftover directory (rounds + 1) offset)
      rw [if_neg fun both => room both.2]
      exact .anyway inside (by rw [unchanged]; rfl)

end Listings

end AsasOs.Ext2
