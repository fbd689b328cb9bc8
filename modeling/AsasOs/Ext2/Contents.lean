import AsasOs.Ext2.Layout
import AsasOs.Lib.Extents

/-!
# What the inodes of an ext2 volume contain

The bytes that `read_inode_bytes` gives for an inode. It lays the extents of the tree end to end in
the order of the tree.

## Main results

- `readInodeBytes_follows`: a read gives the bytes of the row of extents, or those of the blocks of
  an inode without extents, or it leaves a buffer in the tree.
-/
namespace AsasOs.Ext2

open Bytes Checked Filling Extents

def blockByte (c : Context) (block offset : Nat) : Option UInt8 :=
  (blockContent c block).map fun content => content (offset % c.blockSize)

/-- The blocks of the extents in the order of the tree, end to end. -/
def row (leaves : List Leaf) : List (Piece Nat) :=
  leaves.map fun leaf => ⟨leaf.length % 2 ^ 15, fun i => leaf.start + i⟩

def rowByte (c : Context) (leaves : List Leaf) : Source := fun offset =>
  (locate (row leaves) (offset / c.blockSize)).bind fun block => blockByte c block offset

/-- The block of the disk that holds a block of an inode without extents, 0 for a hole. -/
def blockOf (c : Context) (inode : Inode) (logical : Nat) : Option Nat :=
  if logical < 12 then some (wordAt inode.blocks (logical * 4) 4)
  else if ¬(logical - 12) % 2 ^ 32 ≥ c.blockSize / 4 ∧ wordAt inode.blocks 48 4 ≠ 0 then
    (blockContent c (wordAt inode.blocks 48 4)).map fun indirect => wordAt indirect ((logical - 12) % 2 ^ 32 * 4) 4
  else none

def plainByte (c : Context) (inode : Inode) : Source := fun offset =>
  (blockOf c inode (offset / c.blockSize)).bind fun block => if block = 0 then some 0 else blockByte c block offset

/-- The bytes that `read_inode_bytes` gives. -/
def inodeBytes (c : Context) (leftover : Leftover) (inode : Inode) (offset capacity : Nat) :
    Option (List UInt8) :=
  if offset > inode.size then none
  else if inode.flags &&& EXT4_EXTENTS_FL ≠ 0 then
    (inodeLeaves c leftover inode).bind fun leaves =>
      gather (rowByte c leaves) offset (min capacity (inode.size - offset))
  else gather (plainByte c inode) offset (min capacity (inode.size - offset))

section Contents

variable {c : Context} {steps : Nat}

theorem gather_block (block : Nat) {offset count : Nat} (some : 0 < count)
    (inside : count ≤ c.blockSize - offset % c.blockSize) {source : Source}
    (here : ∀ i < count, source (offset + i) = blockByte c block (offset + i)) :
    gather source offset count =
      (blockContent c block).map fun content => window content (offset % c.blockSize) count := by
  rw [← gather_sector _ _ some]
  refine gather_congr fun i below => ?_
  rw [here i below, blockByte, (div_mod_add (by omega)).2, Nat.zero_add]

/-! ### Extents -/

def extentByte (c : Context) (extent : Extent) : Source := fun offset =>
  blockByte c (extent.block + offset / c.blockSize) offset

theorem extentLoop_eq (sized : c.Sized) (enough : 2 ^ 16 < steps) {room capacity : Nat}
    (fits : capacity ≤ room)
    (extent : Extent) : ∀ rounds s, capacity - s.done < rounds →
      iterate (extentBody steps c room capacity extent) rounds s =
        supplied ((gather (extentByte c extent) s.offset (min (capacity - s.done) (extent.length - s.offset))).map
          fun data => ⟨s.offset + data.length, s.done + data.length, patch s.out s.done data⟩) := by
  obtain ⟨positive, small⟩ := block_bounds sized
  intro rounds
  induction rounds with
  | zero => exact fun _ none => absurd none (Nat.not_lt_zero _)
  | succ rounds ih =>
    intro s left
    rw [iterate]
    by_cases more : s.offset < extent.length ∧ s.done < capacity
    · have below := Nat.mod_lt s.offset positive
      -- The chunk ends with the block, the buffer or the extent.
      generalize chunkIs : min (min (c.blockSize - s.offset % c.blockSize) (capacity - s.done))
        (extent.length - s.offset) = chunk
      have whole : min (capacity - s.done) (extent.length - s.offset) =
          chunk + min (capacity - (s.done + chunk)) (extent.length - (s.offset + chunk)) := by omega
      have first : gather (extentByte c extent) s.offset chunk =
          (blockContent c (extent.block + s.offset / c.blockSize)).map
            fun content => window content (s.offset % c.blockSize) chunk := by
        refine gather_block _ (by omega) (by omega) fun i inside => ?_
        rw [extentByte, (div_mod_add (by omega)).1]
      simp only [extentBody, if_pos more, chunkIs, readBlock_eq sized enough]
      rw [whole, gather_add, first]
      cases blockContent c (extent.block + s.offset / c.blockSize) with
      | none => rfl
      | some content =>
        rw [supplied, ok_bind, access, if_pos (by omega), ok_bind, access, if_pos (by omega), ok_bind]
        change iterate (extentBody steps c room capacity extent) rounds
          ⟨s.offset + chunk, s.done + chunk, patch s.out s.done (window content (s.offset % c.blockSize) chunk)⟩ = _
        rw [ih _ (by dsimp only; omega), Option.map_some, Option.bind_some, Option.map_map]
        congr 2
        funext later
        have behind := patch_append s.out s.done (window content (s.offset % c.blockSize) chunk) later
        rw [window_length] at behind
        simp only [Function.comp_apply, List.length_append, window_length, behind, Nat.add_assoc]
    · have finished : min (capacity - s.done) (extent.length - s.offset) = 0 := by omega
      simp only [extentBody, if_neg more]
      rw [finished, gather, Option.map_some, patch_nil]
      rfl

theorem rowByte_here {leaf : Leaf} {leaves : List Leaf} (positive : 0 < c.blockSize) {offset : Nat}
    (inside : offset < (leaf.extent c).length) :
    rowByte c (leaf :: leaves) offset = extentByte c (leaf.extent c) offset := by
  have block : offset / c.blockSize < leaf.length % 2 ^ 15 := (Nat.div_lt_iff_lt_mul positive).mpr inside
  rw [rowByte, row, List.map_cons, locate_here block]
  rfl

theorem rowByte_later {leaf : Leaf} {leaves : List Leaf} (positive : 0 < c.blockSize) (offset : Nat) :
    rowByte c (leaf :: leaves) ((leaf.extent c).length + offset) = rowByte c leaves offset := by
  have block : ((leaf.extent c).length + offset) / c.blockSize = leaf.length % 2 ^ 15 + offset / c.blockSize := by
    rw [Leaf.extent, Nat.add_comm, Nat.add_mul_div_right _ _ positive, Nat.add_comm]
  have inBlock : ((leaf.extent c).length + offset) % c.blockSize = offset % c.blockSize := by
    rw [Leaf.extent, Nat.mul_add_mod_self_right]
  simp only [rowByte, blockByte, inBlock, block]
  rw [row, List.map_cons, locate_later]
  rfl

theorem gather_empty (source : Source) (start : Nat) : gather source start 0 = some [] := rfl

theorem readExtents_eq (sized : c.Sized) (enough : 2 ^ 16 < steps) {room capacity : Nat}
    (fits : capacity ≤ room)
    (left : capacity < steps) (leaves : List Leaf) : ∀ s, s.done ≤ capacity →
      ((leaves.map (Leaf.extent c)).foldlM (readExtent steps c room capacity) s >>= fun s => do
        demand (s.done = capacity)
        pure s.out) =
      supplied ((gather (rowByte c leaves) s.offset (capacity - s.done)).map (patch s.out s.done)) := by
  obtain ⟨positive, -⟩ := block_bounds sized
  induction leaves with
  | nil =>
    intro s within
    rw [List.map_nil, List.foldlM_nil]
    by_cases full : s.done = capacity
    · rw [full, Nat.sub_self, gather_empty, Option.map_some, patch_nil]
      change (demand (s.done = capacity) >>= fun _ => (pure s.out : Run Memory)) = _
      rw [demand_holds full]
      rfl
    · have missing : gather (rowByte c []) s.offset (capacity - s.done) = none :=
        gather_none (show 0 < capacity - s.done by omega) rfl
      rw [missing]
      change (demand (s.done = capacity) >>= fun _ => (pure s.out : Run Memory)) = _
      rw [demand_fails full]
      rfl
  | cons leaf leaves ih =>
    intro s within
    rw [List.map_cons, List.foldlM_cons, bind_assoc]
    by_cases more : s.done < capacity
    · by_cases behind : s.offset ≥ (leaf.extent c).length
      · -- The offset lies behind the extent.
        have step : readExtent steps c room capacity s (leaf.extent c) =
            pure { s with offset := s.offset - (leaf.extent c).length } := by
          rw [readExtent, if_pos more, if_pos behind]
        rw [step, pure_bind]
        refine (ih { s with offset := s.offset - (leaf.extent c).length } within).trans ?_
        dsimp only
        have same : gather (rowByte c leaves) (s.offset - (leaf.extent c).length) (capacity - s.done) =
            gather (rowByte c (leaf :: leaves)) s.offset (capacity - s.done) := by
          refine gather_congr fun i _ => ?_
          rw [← rowByte_later positive]
          congr 1
          omega
        rw [← same]
      · rw [readExtent, if_pos more, if_neg behind, extentLoop_eq sized enough fits _ steps s (by omega)]
        generalize readIs : min (capacity - s.done) ((leaf.extent c).length - s.offset) = count
        have whole : capacity - s.done = count + (capacity - (s.done + count)) := by omega
        have first : gather (extentByte c (leaf.extent c)) s.offset count =
            gather (rowByte c (leaf :: leaves)) s.offset count :=
          gather_congr fun i inside => (rowByte_here positive (by omega)).symm
        rw [first, whole, gather_add]
        cases gathered : gather (rowByte c (leaf :: leaves)) s.offset count with
        | none => rfl
        | some data =>
          have length := gather_length gathered
          -- What follows is read from the next extent on, unless the buffer is full.
          have later : gather (rowByte c leaves) 0 (capacity - (s.done + count)) =
              gather (rowByte c (leaf :: leaves)) (s.offset + count) (capacity - (s.done + count)) := by
            refine gather_congr fun i inside => ?_
            rw [show s.offset + count + i = (leaf.extent c).length + (0 + i) by omega, rowByte_later positive]
          rw [Option.map_some, supplied, ok_bind, pure_bind, length]
          refine (ih ⟨0, s.done + count, _⟩ (by dsimp only; omega)).trans ?_
          dsimp only
          rw [later, Option.bind_some, Option.map_map]
          congr 2
          funext rest
          rw [← length, patch_append]
          rfl
    · -- Nothing is left to read.
      have full : capacity - s.done = 0 := by omega
      rw [readExtent, if_neg more, pure_bind]
      refine (ih s within).trans ?_
      rw [full, gather_empty, gather_empty]

/-! ### Blocks -/

theorem physicalBlock_eq (sized : c.Sized) (enough : 2 ^ 16 < steps) (inode : Inode) (logical : Nat) :
    physicalBlock steps c inode logical = supplied (blockOf c inode logical) := by
  unfold physicalBlock blockOf
  by_cases direct : logical < 12
  · have inside : logical * 4 + 4 ≤ INODE_BLOCKS_SIZE := by
      unfold INODE_BLOCKS_SIZE
      omega
    rw [if_pos direct, if_pos direct, peek_inside inside]
    rfl
  · rw [if_neg direct, if_neg direct]
    dsimp only
    by_cases large : (logical - 12) % 2 ^ 32 ≥ c.blockSize / 4
    · rw [demand_fails (not_not_intro large), if_neg fun both => both.1 large]
      rfl
    · rw [demand_holds large, ok_bind, peek_inside (by decide), ok_bind]
      by_cases none : wordAt inode.blocks 48 4 = 0
      · rw [demand_fails (not_not_intro none), if_neg fun both => both.2 none]
        rfl
      · rw [demand_holds none, ok_bind, if_pos ⟨large, none⟩, readBlock_eq sized enough]
        cases blockContent c (wordAt inode.blocks 48 4) with
        | none => rfl
        | some indirect =>
          have inside : (logical - 12) % 2 ^ 32 * 4 + 4 ≤ EXT2_MAX_BLOCK_SIZE := by
            have small := (block_bounds sized).2
            omega
          rw [supplied, ok_bind, peek_inside inside]
          rfl

theorem blockPieces (sized : c.Sized) (enough : 2 ^ 16 < steps) (inode : Inode) (offset capacity : Nat) :
    Pieces (fun i => plainByte c inode (offset + i)) capacity (blockPiece steps c inode offset capacity)
      fun _ => True := by
  intro done _ more
  obtain ⟨positive, small⟩ := block_bounds sized
  have below := Nat.mod_lt (offset + done) positive
  generalize chunkIs : min (c.blockSize - (offset + done) % c.blockSize) (capacity - done) = chunk
  refine ⟨chunk, by omega, by omega, fun _ => trivial, ?_⟩
  have bytes : gather (fun i => plainByte c inode (offset + i)) done chunk =
      gather (plainByte c inode) (offset + done) chunk :=
    gather_congr fun i _ => by rw [Nat.add_assoc]
  have same (i : Nat) (inside : i < chunk) : (offset + done + i) / c.blockSize = (offset + done) / c.blockSize :=
    (div_mod_add (by omega)).1
  unfold blockPiece
  simp only [chunkIs]
  rw [bytes, physicalBlock_eq sized enough]
  cases given : blockOf c inode ((offset + done) / c.blockSize) with
  | none =>
    have missing : gather (plainByte c inode) (offset + done) chunk = none :=
      gather_none (show 0 < chunk by omega) (by rw [plainByte, Nat.add_zero, given]; rfl)
    rw [missing]
    rfl
  | some block =>
    rw [supplied, ok_bind]
    by_cases hole : block = 0
    · have zeros : gather (plainByte c inode) (offset + done) chunk = some (window (fun _ => 0) 0 chunk) := by
        rw [← gather_content]
        refine gather_congr fun i inside => ?_
        rw [plainByte, same i inside, given, Option.bind_some, if_pos hole]
      have row : window (fun _ => 0) 0 chunk = List.replicate chunk (0 : UInt8) := by
        rw [window, List.map_const', List.length_range]
      rw [if_pos hole, zeros, row]
      rfl
    · have bytes : gather (plainByte c inode) (offset + done) chunk =
          (blockContent c block).map fun content => window content ((offset + done) % c.blockSize) chunk :=
        gather_block block (by omega) (by omega) fun i inside => by
          rw [plainByte, same i inside, given, Option.bind_some, if_neg hole]
      rw [if_neg hole, readBlock_eq sized enough, bytes]
      cases blockContent c block with
      | none => rfl
      | some content =>
        rw [supplied, ok_bind, access, if_pos (by omega)]
        rfl

/-! ### Reading -/

/-- `read_inode_bytes` gives the bytes of an inode, or leaves a buffer in its tree. -/
theorem readInodeBytes_follows (sized : c.Sized) (leftover : Leftover) (inode : Inode)
    {room offset capacity : Nat}
    (buffer : Memory) (enough : 2 ^ 16 < steps) (left : capacity < steps)
    (fits : min capacity (inode.size - offset) ≤ room) :
    Follows (readInodeBytes steps c leftover inode room offset capacity buffer)
      (offset ≤ inode.size → ExtentsInside c leftover inode)
      ((inodeBytes c leftover inode offset capacity).map (patch buffer 0)) := by
  unfold readInodeBytes inodeBytes
  by_cases beyond : offset > inode.size
  · rw [demand_fails (not_not_intro beyond), if_pos beyond]
    exact .refused fun within => absurd within (Nat.not_le.mpr beyond)
  · rw [demand_holds beyond, ok_bind, if_neg beyond]
    refine Follows.congr ?_ (forall_prop_of_true (Nat.not_lt.mp beyond)) fun _ => rfl
    dsimp only
    by_cases extents : inode.flags &&& EXT4_EXTENTS_FL ≠ 0
    · rw [if_pos extents, if_pos extents, Option.map_bind]
      refine Follows.congr ((collectInodeExtents_follows sized enough leftover inode).bind_map fun leaves _ =>
        .of_eq (readExtents_eq sized enough fits (by omega) leaves ⟨offset, 0, buffer⟩ (Nat.zero_le _))) ?_ fun _ => rfl
      exact (and_iff_left fun _ _ => trivial).symm
    · rw [if_neg extents, if_neg extents]
      refine Follows.congr (.of_eq ?_) (iff_of_true (fun here => absurd here extents) trivial) fun _ => rfl
      rw [fill_eq (blockPieces sized enough inode offset _) steps 0 buffer (fun _ => trivial) (Nat.zero_le _) (by omega)
        (Or.inl fits)]
      congr 2
      exact gather_congr fun i _ => by rw [Nat.zero_add]

end Contents

end AsasOs.Ext2
