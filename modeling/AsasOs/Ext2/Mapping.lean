import AsasOs.Ext2.Contents

/-!
# Where the blocks of an ext2 inode are

An entry of a leaf says which logical blocks it stands for: where they begin, how many they are, and
whether they have been written at all. `collect_extent_tree` does not look at the beginning, and
takes 15 bits of the length for the number of blocks. `read_inode_bytes` then reads the extents
end to end.

## Main results

- `InPlace.byte`: a block that its entry has at the place of the row is read as the entry says.
- `Contiguous.inPlace`: this is every block of an inode without holes whose entries are in order.
- `readInodeBytes_mapped_iff`: when a read gives the bytes that the entries stand for.
-/
namespace AsasOs.Ext2

open Bytes Checked Filling Extents

/-- How many blocks an entry stands for. Lengths above 2^15 are those of extents that are not initialized. -/
def Leaf.count (leaf : Leaf) : Nat := if leaf.length ≤ 2 ^ 15 then leaf.length else leaf.length - 2 ^ 15

/-- The entry stands for a logical block. -/
def Leaf.covers (leaf : Leaf) (logical : Nat) : Bool :=
  leaf.logical ≤ logical && logical < leaf.logical + leaf.count

/-- The block of the disk that holds a logical block. A hole has none, and an extent that is not initialized. -/
def mappedBlock (leaves : List Leaf) (logical : Nat) : Option Nat :=
  (leaves.find? fun leaf => leaf.covers logical).bind fun leaf =>
    if leaf.length ≤ 2 ^ 15 then some (leaf.start + (logical - leaf.logical)) else none

def mappedByte (c : Context) (leaves : List Leaf) : Source := fun offset =>
  match mappedBlock leaves (offset / c.blockSize) with
  | some block => blockByte c block offset
  | none => some 0

/-- The entry that stands for a logical block lies where the row has it: it is initialized and shorter than 2^15
blocks, and it begins behind as many logical blocks as the entries before it have. -/
structure Aligned (leaves : List Leaf) (logical : Nat) (front : List Leaf) (leaf : Leaf) (back : List Leaf) : Prop where
  split : leaves = front ++ leaf :: back
  before : ∀ other ∈ front, other.covers logical = false
  covers : leaf.covers logical = true
  initialized : leaf.length < 2 ^ 15
  place : leaf.logical = (front.map fun other => other.length % 2 ^ 15).sum

/-- The row has a logical block where the entries of the tree have it. -/
def InPlace (leaves : List Leaf) (logical : Nat) :
    Prop := ∃ front leaf back, Aligned leaves logical front leaf back

/-- The entries are initialized, and follow one another from a logical block on. -/
def Contiguous : Nat → List Leaf → Prop
  | _, [] => True
  | next, leaf :: leaves => leaf.logical = next ∧ leaf.length < 2 ^ 15 ∧ Contiguous (next + leaf.length) leaves

instance decidableContiguous : ∀ (next : Nat) (leaves : List Leaf), Decidable (Contiguous next leaves)
  | _, [] => .isTrue trivial
  | next, leaf :: leaves =>
    have := decidableContiguous (next + leaf.length) leaves
    inferInstanceAs (Decidable (leaf.logical = next ∧ leaf.length < 2 ^ 15 ∧ Contiguous (next + leaf.length) leaves))

section Places

variable {leaves front : List Leaf} {logical : Nat}

theorem InPlace.located (inPlace : InPlace leaves logical) :
    ∃ block, locate (row leaves) logical = some block ∧ mappedBlock leaves logical = some block := by
  obtain ⟨front, leaf, back, rfl, before, covers, initialized, place⟩ := inPlace
  have found : (front ++ leaf :: back).find? (fun leaf => leaf.covers logical) = some leaf := by
    rw [List.find?_append, List.find?_eq_none.mpr fun other member => by simp [before other member],
      Option.none_or]
    exact List.find?_cons_of_pos (p := fun leaf : Leaf => leaf.covers logical) covers
  simp only [Leaf.covers, Leaf.count, if_pos initialized.le, Bool.and_eq_true, decide_eq_true_eq] at covers
  refine ⟨leaf.start + (logical - leaf.logical), ?_, ?_⟩
  · have lengths : ((row front).map Piece.length).sum = leaf.logical := by
      rw [place, row, List.map_map]
      rfl
    have behind : logical = ((row front).map Piece.length).sum + (logical - leaf.logical) := by omega
    have rows : row (front ++ leaf :: back) = row front ++ row (leaf :: back) := List.map_append
    rw [rows, behind, locate_append, lengths, Nat.add_sub_cancel_left]
    refine locate_here ?_
    change _ < leaf.length % 2 ^ 15
    rw [Nat.mod_eq_of_lt initialized]
    omega
  · rw [mappedBlock, found, Option.bind_some, if_pos initialized.le]

theorem InPlace.byte {c : Context} {offset : Nat} (inPlace : InPlace leaves (offset / c.blockSize)) :
    rowByte c leaves offset = mappedByte c leaves offset := by
  obtain ⟨block, here, mapped⟩ := inPlace.located
  rw [rowByte, here, Option.bind_some, mappedByte, mapped]

theorem Contiguous.aligned {next : Nat} (contiguous : Contiguous next leaves) (low : next ≤ logical)
    (high : logical < next + (leaves.map Leaf.length).sum)
    (start : next = (front.map fun other => other.length % 2 ^ 15).sum)
    (before : ∀ other ∈ front, other.covers logical = false) : InPlace (front ++ leaves) logical := by
  induction leaves generalizing next front with
  | nil =>
    rw [List.map_nil, List.sum_nil] at high
    omega
  | cons leaf leaves ih =>
    obtain ⟨begins, initialized, rest⟩ := contiguous
    rw [List.map_cons, List.sum_cons] at high
    have count : leaf.count = leaf.length := if_pos initialized.le
    by_cases here : logical < next + leaf.length
    · refine ⟨front, leaf, leaves, rfl, before, ?_, initialized, begins.trans start⟩
      simp only [Leaf.covers, count, begins, Bool.and_eq_true, decide_eq_true_eq]
      exact ⟨low, here⟩
    · have later := @ih (front ++ [leaf]) _ rest (by omega) (by omega)
        (by rw [List.map_append, List.sum_append, ← start, List.map_singleton, List.sum_singleton,
          Nat.mod_eq_of_lt initialized]) ?_
      · rwa [List.append_assoc, List.singleton_append] at later
      · intro other member
        rcases List.mem_append.mp member with early | last
        · exact before other early
        · rw [List.mem_singleton.mp last]
          simp only [Leaf.covers, count, begins, Bool.and_eq_false_iff, decide_eq_false_iff_not]
          exact Or.inr here

/-- In an inode without holes all blocks are where the row has them. -/
theorem Contiguous.inPlace (contiguous : Contiguous 0 leaves)
    (inside : logical < (leaves.map Leaf.length).sum) :
    InPlace leaves logical :=
  @Contiguous.aligned _ [] _ _ contiguous (Nat.zero_le _) (by omega) rfl (by rintro _ ⟨⟩)

end Places

/-! ### A file that begins with a hole -/

/-- The superblock of a volume with 1024-byte blocks and one group, and its descriptor. -/
def sparseSuper : Memory := fun
  | 4 => 64 | 32 => 64 | 40 => 8 | 56 => 0x53 | 57 => 0xEF | 58 => 1 | 96 => 0x42
  | _ => 0

/-- The inode table: the root directory with block 4, and a file of two blocks whose only extent begins at
logical block 1. -/
def sparseInodes : Memory := fun
  | 128 => 0 | 129 => 0x40 | 133 => 4 | 168 => 4
  | 256 => 0 | 257 => 0x80 | 261 => 8 | 290 => 8
  | 296 => 0x0A | 297 => 0xF3 | 298 => 1 | 300 => 4 | 308 => 1 | 312 => 1 | 316 => 5
  | _ => 0

/-- The root directory, with the file as `a`. -/
def sparseRoot : Memory := fun
  | 0 => 3 | 5 => 4 | 6 => 1 | 7 => 1 | 8 => 0x61
  | _ => 0

def sparseDisk : Ext2Device where
  logicalBlockSize := 1024
  sector := fun
    | 1 => some sparseSuper
    | 2 => some fun i => if i = 8 then 3 else 0
    | 3 => some sparseInodes
    | 4 => some sparseRoot
    | 5 => some fun _ => 0x41
    | _ => none

theorem sparse_read : ∃ c inode extents leaves out, readSuper sparseDisk = some c ∧
    inodeAt c 3 = some inode ∧
    inode.size = 2048 ∧ collectInodeExtents (2 ^ 16 + 1) c (fun _ _ => 0) inode = .ok extents ∧
    inodeLeaves c (fun _ _ => 0) inode = some leaves ∧ mappedByte c leaves 0 = some 0 ∧
    readInodeBytes (2 ^ 16 + 1) c (fun _ _ => 0) inode 1024 0 1024 (fun _ => 0) = .ok out ∧ out 0 = 0x41 := by
  have run : (do
      let c ← readSuper sparseDisk
      let inode ← inodeAt c 3
      let _ ← (collectInodeExtents (2 ^ 16 + 1) c (fun _ _ => 0) inode).toOption
      let leaves ← inodeLeaves c (fun _ _ => 0) inode
      let expected ← mappedByte c leaves 0
      let out ← (readInodeBytes (2 ^ 16 + 1) c (fun _ _ => 0) inode 1024 0 1024 fun _ => 0).toOption
      some (inode.size, expected, out 0)) = some (2048, 0, 0x41) := by decide +kernel
  obtain ⟨c, mounted, run⟩ := Option.bind_eq_some_iff.mp run
  obtain ⟨inode, found, run⟩ := Option.bind_eq_some_iff.mp run
  obtain ⟨extents, collected, run⟩ := Option.bind_eq_some_iff.mp run
  obtain ⟨leaves, tree, run⟩ := Option.bind_eq_some_iff.mp run
  obtain ⟨expected, mapped, run⟩ := Option.bind_eq_some_iff.mp run
  obtain ⟨out, read, run⟩ := Option.bind_eq_some_iff.mp run
  obtain ⟨size, bytes⟩ := Prod.mk.inj (Option.some.inj run)
  obtain ⟨zero, first⟩ := Prod.mk.inj bytes
  rw [zero] at mapped
  exact ⟨c, inode, extents, leaves, out, mounted, found, size, ok_of_toOption collected, tree, mapped,
    ok_of_toOption read, first⟩

/-! ### Reads -/

/-- A read of an inode whose tree is accepted gives the bytes that the entries of the tree stand for if every block
of it is where the row has it. Else it does so just if, at every byte of a block that is not, the block that is read
instead happens to have the same byte; or if it fails, and the entries have a block that cannot be read. -/
theorem readInodeBytes_mapped_iff {c : Context} {leftover : Leftover} {inode : Inode}
    {extents : List Extent}
    {leaves : List Leaf} {steps room offset capacity : Nat} {buffer : Memory}
    (mounted : readSuper c.device = some c) (enough : 2 ^ 16 < steps)
    (left : capacity < steps) (fits : capacity ≤ room) (within : offset ≤ inode.size)
    (accepted : collectInodeExtents steps c leftover inode = .ok extents)
    (tree : inodeLeaves c leftover inode = some leaves) :
    ((∀ i < min capacity (inode.size - offset), InPlace leaves ((offset + i) / c.blockSize)) →
      readInodeBytes steps c leftover inode room offset capacity buffer = supplied
        ((gather (mappedByte c leaves) offset (min capacity (inode.size - offset))).map (patch buffer 0))) ∧
    (readInodeBytes steps c leftover inode room offset capacity buffer = supplied
        ((gather (mappedByte c leaves) offset (min capacity (inode.size - offset))).map (patch buffer 0)) ↔
      (∀ i < min capacity (inode.size - offset), InPlace leaves ((offset + i) / c.blockSize) ∨
        rowByte c leaves (offset + i) = mappedByte c leaves (offset + i)) ∨
      (∃ i < min capacity (inode.size - offset), rowByte c leaves (offset + i) = none) ∧
        ∃ i < min capacity (inode.size - offset), mappedByte c leaves (offset + i) = none) := by
  obtain ⟨-, sized⟩ := readSuper_sized mounted
  have inside : ExtentsInside c leftover inode := by
    refine (collectInodeExtents_follows sized enough leftover inode).safe_iff.mp ?_
    rw [accepted]
    trivial
  have extentsUsed : inode.flags &&& EXT4_EXTENTS_FL ≠ 0 := by
    intro none
    rw [inodeLeaves, if_neg (not_not_intro none)] at tree
    cases tree
  have few : min capacity (inode.size - offset) ≤ room := Nat.le_trans (Nat.min_le_left _ _) fits
  have read := (readInodeBytes_follows sized leftover inode buffer enough left few).gives fun _ => inside
  rw [inodeBytes, if_neg (Nat.not_lt.mpr within), if_pos extentsUsed, tree, Option.bind_some] at read
  have same : readInodeBytes steps c leftover inode room offset capacity buffer = supplied
      ((gather (mappedByte c leaves) offset (min capacity (inode.size - offset))).map (patch buffer 0)) ↔
      gather (rowByte c leaves) offset (min capacity (inode.size - offset)) =
        gather (mappedByte c leaves) offset (min capacity (inode.size - offset)) := by
    rw [read]
    exact ⟨fun same => map_patch_inj (supplied_inj same), fun same => by rw [same]⟩
  constructor
  · intro inPlace
    exact same.mpr (gather_congr fun i below => (inPlace i below).byte)
  · rw [same, gather_eq_iff]
    refine or_congr (forall_congr' fun i => forall_congr' fun below => ?_) Iff.rfl
    exact ⟨Or.inr, fun either => either.elim InPlace.byte id⟩

/-- The file of two blocks has them in two extents, in the order of the file but not of the disk. -/
def swappedDisk : Ext2Device :=
  { sparseDisk with
    sector := fun lba =>
      if lba = 3 then some fun i => if i = 298 then 2 else if i = 308 then 0 else if i = 316 then 6
        else if i = 320 ∨ i = 324 then 1 else if i = 328 then 5 else sparseInodes i
      else if lba = 6 then some fun _ => 0x42
      else sparseDisk.sector lba }

theorem swapped_accepted : ∃ c inode extents leaves, readSuper swappedDisk = some c ∧
    c.blockSize = 1024 ∧
    inode.size = 2048 ∧ collectInodeExtents (2 ^ 16 + 1) c (fun _ _ => 0) inode = .ok extents ∧
    inodeLeaves c (fun _ _ => 0) inode = some leaves ∧ Contiguous 0 leaves ∧ (leaves.map Leaf.length).sum = 2 := by
  have run : (do
      let c ← readSuper swappedDisk
      let inode ← inodeAt c 3
      let _ ← (collectInodeExtents (2 ^ 16 + 1) c (fun _ _ => 0) inode).toOption
      let leaves ← inodeLeaves c (fun _ _ => 0) inode
      some (c.blockSize, inode.size, (leaves.map Leaf.length).sum, decide (Contiguous 0 leaves))) =
        some (1024, 2048, 2, true) := by decide +kernel
  obtain ⟨c, mounted, run⟩ := Option.bind_eq_some_iff.mp run
  obtain ⟨inode, -, run⟩ := Option.bind_eq_some_iff.mp run
  obtain ⟨extents, collected, run⟩ := Option.bind_eq_some_iff.mp run
  obtain ⟨leaves, tree, run⟩ := Option.bind_eq_some_iff.mp run
  simp only [Option.some.injEq, Prod.mk.injEq, decide_eq_true_eq] at run
  obtain ⟨block, size, blocks, contiguous⟩ := run
  exact ⟨c, inode, extents, leaves, mounted, block, size, ok_of_toOption collected, tree, contiguous, blocks⟩

/-- A read from the first extent into the second gives the bytes of their blocks. -/
theorem readInodeBytes_mapped_iff_swapped : ∃ c inode leaves, readSuper swappedDisk = some c ∧
    inode.size = 2048 ∧
    inodeLeaves c (fun _ _ => 0) inode = some leaves ∧
    readInodeBytes (2 ^ 16 + 1) c (fun _ _ => 0) inode 1024 512 1024 (fun _ => 0) = supplied
      ((gather (mappedByte c leaves) 512 (min 1024 (inode.size - 512))).map (patch (fun _ => 0) 0)) := by
  obtain ⟨c, inode, extents, leaves, mounted, block, size, collected, tree, contiguous, blocks⟩ := swapped_accepted
  have device := (readSuper_sized mounted).1
  refine ⟨c, inode, leaves, mounted, size, tree, ?_⟩
  refine (readInodeBytes_mapped_iff (by rw [device, mounted]) (by decide) (by decide) (Nat.le_refl _)
    (by rw [size]; decide) collected tree).1 fun i below => contiguous.inPlace ?_
  rw [block, blocks]
  omega

/-- Not every read of an accepted tree gives the byte of the extent that covers an offset. -/
theorem mapped_lost : ¬∀ (c : Context) (leftover : Leftover) (inode : Inode) (extents : List Extent)
    (leaves : List Leaf) (steps room offset capacity : Nat) (buffer out : Memory),
    readSuper c.device = some c → collectInodeExtents steps c leftover inode = .ok extents →
    inodeLeaves c leftover inode = some leaves → capacity ≤ room →
    readInodeBytes steps c leftover inode room offset capacity buffer = .ok out →
    ∀ i < min capacity (inode.size - offset), mappedByte c leaves (offset + i) = some (out i) := by
  intro all
  obtain ⟨c, inode, extents, leaves, out, mounted, -, size, collected, tree, mapped, read, first⟩ := sparse_read
  have device := (readSuper_sized mounted).1
  have here := all c _ inode extents leaves _ _ 0 1024 _ out (by rw [device, mounted]) collected tree (Nat.le_refl _)
    read 0 (by rw [size]; decide)
  rw [mapped, first] at here
  exact absurd here (by decide)

end AsasOs.Ext2
