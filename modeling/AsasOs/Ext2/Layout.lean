import AsasOs.Ext2.Directories

/-!
# What an ext2 volume contains

The bytes of the device, and what the reader makes of them: inodes, extents, contents and
directories, as values. The functions of `ext2.c` give these values as long as they stay in their
buffers.

## Main results

- `readBytes_eq` and `readBytes_outside`: a read gives the bytes of the device, if they fit or one
  of those before the end of the buffer is missing; otherwise it leaves the buffer.
-/
namespace AsasOs.Ext2

open Bytes Checked Filling

/-! ### Bytes of the device -/

/-- The end of the sector that holds the last byte with an offset of 64 bits. -/
def lastEnd (size : Nat) : Nat := (2 ^ 64 + size - 1) / size * size

/-- The offset that a read comes to, which only goes back to zero at the end of a sector. -/
def wrapped (size address : Nat) : Nat := if address < lastEnd size then address else address - 2 ^ 64

def deviceByte (device : Ext2Device) : Source := fun address =>
  (device.sector (wrapped device.logicalBlockSize address / device.logicalBlockSize)).map
    fun sector => sector (wrapped device.logicalBlockSize address % device.logicalBlockSize)

section Device

variable {device : Ext2Device} {size : Nat}

theorem le_lastEnd (some : 0 < size) : 2 ^ 64 ≤ lastEnd size := by
  have near := Nat.lt_div_mul_add some (a := 2 ^ 64 + size - 1)
  unfold lastEnd
  omega

theorem sector_le_lastEnd (some : 0 < size) {address : Nat} (below : address < 2 ^ 64) :
    (address / size + 1) * size ≤ lastEnd size := by
  refine Nat.mul_le_mul_right size ((Nat.le_div_iff_mul_le some).mpr ?_)
  have start := Nat.div_mul_le_self address size
  rw [Nat.succ_mul]
  omega

theorem lastEnd_le (some : 0 < size) {count : Nat} (above : 2 ^ 64 ≤ count * size) :
    lastEnd size ≤ count * size := by
  refine Nat.mul_le_mul_right size (Nat.le_of_lt_succ ((Nat.div_lt_iff_lt_mul some).mpr ?_))
  rw [Nat.succ_mul]
  omega

theorem wrapped_run (some : 0 < size) {address : Nat} (good : address < 2 ^ 64 ∨ lastEnd size ≤ address)
    (small : address < 2 ^ 65) {i : Nat} (inside : i < size - address % 2 ^ 64 % size) :
    wrapped size (address + i) = address % 2 ^ 64 + i := by
  unfold wrapped
  rcases good with below | above
  · rw [Nat.mod_eq_of_lt below] at inside ⊢
    have limit := sector_le_lastEnd some below
    have parts := Nat.div_add_mod' address size
    rw [Nat.succ_mul] at limit
    rw [if_pos (by omega)]
  · have least := le_lastEnd some
    rw [if_neg (by omega)]
    omega

theorem gather_sector (sector : Option Memory) (skip : Nat) {count : Nat} (some : 0 < count) :
    gather (fun i => sector.map fun sector => sector (skip + i)) 0 count =
      sector.map fun sector => window sector skip count := by
  cases sector with
  | none => exact gather_none some rfl
  | some sector =>
    rw [Option.map_some, ← Nat.add_zero skip, ← window_rest]
    exact gather_content (rest sector skip) 0 count

/-- Where the loop of `read_bytes` comes to: the offset has not overflowed, or a sector has ended before. -/
def AtPiece (device : Ext2Device) (byteOffset done : Nat) : Prop :=
  byteOffset + done < 2 ^ 64 ∨ lastEnd device.logicalBlockSize ≤ byteOffset + done

theorem div_mod_add {address i : Nat} (inside : i < size - address % size) :
    (address + i) / size = address / size ∧ (address + i) % size = address % size + i := by
  have parts := Nat.mod_add_div address size
  exact (Nat.div_mod_unique (by omega)).mpr ⟨by omega, by omega⟩

theorem readPiece_eq (sized : 512 ≤ device.logicalBlockSize ∧ device.logicalBlockSize ≤ 4096)
    {byteOffset done : Nat}
    (below : byteOffset + size < 2 ^ 65) (more : done < size) (good : AtPiece device byteOffset done) :
    readPiece device byteOffset size done = supplied (gather (fun i => deviceByte device (byteOffset + i)) done
      (min (device.logicalBlockSize - (byteOffset + done) % 2 ^ 64 % device.logicalBlockSize) (size - done))) := by
  have positive : 0 < device.logicalBlockSize := by omega
  have skipped := Nat.mod_lt ((byteOffset + done) % 2 ^ 64) positive
  have bytes : gather (fun i => deviceByte device (byteOffset + i)) done
        (min (device.logicalBlockSize - (byteOffset + done) % 2 ^ 64 % device.logicalBlockSize) (size - done)) =
      (device.sector ((byteOffset + done) % 2 ^ 64 / device.logicalBlockSize)).map fun sector =>
        window sector ((byteOffset + done) % 2 ^ 64 % device.logicalBlockSize)
          (min (device.logicalBlockSize - (byteOffset + done) % 2 ^ 64 % device.logicalBlockSize) (size - done)) := by
    rw [← gather_sector _ _ (by omega)]
    refine gather_congr fun i inside => ?_
    have here := wrapped_run positive good (by omega) (i := i) (by omega)
    obtain ⟨sector, skip⟩ := @div_mod_add device.logicalBlockSize ((byteOffset + done) % 2 ^ 64) i (by omega)
    simp only [deviceByte]
    rw [← Nat.add_assoc, here, sector, skip, Nat.zero_add]
  rw [bytes]
  unfold readPiece
  dsimp only
  cases device.sector ((byteOffset + done) % 2 ^ 64 / device.logicalBlockSize) with
  | none => rfl
  | some sector =>
    rw [supplied, ok_bind, access, if_pos (by omega), ok_bind]
    rfl

theorem readPieces (sized : 512 ≤ device.logicalBlockSize ∧ device.logicalBlockSize ≤ 4096)
    {byteOffset : Nat}
    (below : byteOffset + size < 2 ^ 65) :
    Pieces (fun i => deviceByte device (byteOffset + i)) size (readPiece device byteOffset size)
      (AtPiece device byteOffset) := by
  intro done good more
  have positive : 0 < device.logicalBlockSize := by omega
  have skipped := Nat.mod_lt ((byteOffset + done) % 2 ^ 64) positive
  refine ⟨_, by omega, by omega, fun goesOn => ?_, readPiece_eq sized below more good⟩
  rw [Nat.min_eq_left (by omega), AtPiece]
  rcases good with early | late
  · rw [Nat.mod_eq_of_lt early]
    have parts := Nat.div_add_mod' (byteOffset + done) device.logicalBlockSize
    rw [Nat.mod_eq_of_lt early] at skipped
    have next : byteOffset + (done + (device.logicalBlockSize - (byteOffset + done) % device.logicalBlockSize)) =
        ((byteOffset + done) / device.logicalBlockSize + 1) * device.logicalBlockSize := by
      rw [Nat.succ_mul]
      omega
    rw [next]
    rcases Nat.lt_or_ge (((byteOffset + done) / device.logicalBlockSize + 1) * device.logicalBlockSize) (2 ^ 64) with
      early | late
    · exact Or.inl early
    · exact Or.inr (lastEnd_le positive late)
  · exact Or.inr (by omega)

/-- A read gives the bytes of the device, if they fit or one before the end of the buffer is missing. -/
theorem readBytes_eq {steps room byteOffset : Nat} {buffer : Memory}
    (sized : 512 ≤ device.logicalBlockSize ∧ device.logicalBlockSize ≤ 4096)
    (start : byteOffset < 2 ^ 64)
    (short : size < 2 ^ 32) (enough : size < steps)
    (fits : size ≤ room ∨ ∃ k, k ≤ room ∧ k < size ∧ deviceByte device (byteOffset + k) = none) :
    readBytes steps device room byteOffset size buffer =
      supplied ((gather (deviceByte device) byteOffset size).map (patch buffer 0)) := by
  have bytes : gather (deviceByte device) byteOffset size =
      gather (fun i => deviceByte device (byteOffset + i)) 0 size :=
    gather_congr fun i _ => by rw [Nat.zero_add]
  rw [readBytes, demand_holds (by omega), ok_bind, bytes]
  refine fill_eq (readPieces sized (by omega)) steps 0 buffer (fun _ => Or.inl start) (Nat.zero_le _) enough ?_
  exact fits.imp_right fun ⟨k, rest⟩ => ⟨k, Nat.zero_le _, rest⟩

/-- A read leaves a buffer that is too small, if the bytes before its end can be read. -/
theorem readBytes_outside {steps room byteOffset : Nat} {buffer : Memory}
    (sized : 512 ≤ device.logicalBlockSize ∧ device.logicalBlockSize ≤ 4096)
    (start : byteOffset < 2 ^ 64)
    (short : size < 2 ^ 32) (small : room < size)
    (there : ∀ k ≤ room, deviceByte device (byteOffset + k) ≠ none) :
    ¬Safe (readBytes steps device room byteOffset size buffer) fun _ => True := by
  rw [readBytes, demand_holds (by omega), ok_bind]
  refine fill_outside (readPieces sized (by omega)) small there ?_ steps 0 buffer (Or.inl start) (Nat.zero_le _)
  intro done good more some refused
  have positive : 0 < device.logicalBlockSize := by omega
  have skipped := Nat.mod_lt ((byteOffset + done) % 2 ^ 64) positive
  have here := wrapped_run positive good (by omega) (i := 0) (by omega)
  rw [Nat.add_zero, Nat.add_zero] at here
  simp only [deviceByte, here, ne_eq, Option.map_eq_none_iff] at some
  obtain ⟨sector, given⟩ := Option.ne_none_iff_exists'.mp some
  unfold readPiece at refused
  dsimp only at refused
  rw [given, supplied, ok_bind, access, if_pos (by omega)] at refused
  cases refused

end Device

/-! ### Superblocks -/

/-- What `load_super` takes a device for. -/
def readSuper (device : Ext2Device) : Option Context :=
  if ¬device.logicalBlockSize < 512 ∧ ¬device.logicalBlockSize > 4096 then
    (gather (deviceByte device) EXT2_SUPER_OFFSET EXT2_SUPER_SIZE).bind fun super => parseSuper device (byteAt super)
  else none

/-- The sizes that `load_super` accepts. -/
structure Context.Sized (c : Context) : Prop where
  sector : 512 ≤ c.device.logicalBlockSize ∧ c.device.logicalBlockSize ≤ 4096
  block : c.blockSize = 1024 ∨ c.blockSize = 2048 ∨ c.blockSize = 4096
  inode : 128 ≤ c.inodeSize
  descriptor : 32 ≤ c.descriptorSize ∧ c.descriptorSize < 2 ^ 16

theorem loadSuper_eq {steps : Nat} (device : Ext2Device) (enough : 2 ^ 16 < steps) :
    loadSuper steps device = supplied (readSuper device) := by
  unfold loadSuper readSuper EXT2_SUPER_SIZE EXT2_SUPER_OFFSET
  by_cases sized : ¬device.logicalBlockSize < 512 ∧ ¬device.logicalBlockSize > 4096
  · rw [if_pos sized, readBytes_eq (by omega) (by decide) (by decide) (by omega) (Or.inl (Nat.le_refl _))]
    cases gather (deviceByte device) 1024 1024 with
    | none => rfl
    | some super =>
      rw [Option.map_some, patch_zero]
      rfl
  · rw [if_neg sized, readBytes, demand_fails sized]
    rfl

theorem parseSuper_sized {device : Ext2Device} {super : Memory} {c : Context}
    (sized : ¬device.logicalBlockSize < 512 ∧ ¬device.logicalBlockSize > 4096)
    (accepted : parseSuper device super = some c) : c.device = device ∧ c.Sized := by
  simp only [parseSuper, Option.ite_none_left_eq_some, not_or] at accepted
  obtain ⟨⟨-, blocks, wide, least, -⟩, made⟩ := accepted
  have made := (Option.some.inj made).symm
  subst made
  refine ⟨rfl, ⟨⟨Nat.not_lt.mp sized.1, Nat.not_lt.mp sized.2⟩, ?_, Nat.not_lt.mp least, ?_⟩⟩
  · dsimp only
    generalize wordAt super 24 4 = log at blocks
    have cases : log = 0 ∨ log = 1 ∨ log = 2 := by omega
    rcases cases with rfl | rfl | rfl
    · exact Or.inl rfl
    · exact Or.inr (Or.inl rfl)
    · exact Or.inr (Or.inr rfl)
  · dsimp only
    have small := wordAt_lt super 254 2
    split
    next large =>
      rw [if_pos large] at wide
      have enough : ¬wordAt super 254 2 < 64 := fun small => wide ⟨large, small⟩
      exact ⟨by omega, small⟩
    next => omega

theorem readSuper_sized {device : Ext2Device} {c : Context} (accepted : readSuper device = some c) :
    c.device = device ∧ c.Sized := by
  unfold readSuper at accepted
  split at accepted
  next sized =>
    obtain ⟨super, -, accepted⟩ := Option.bind_eq_some_iff.mp accepted
    exact parseSuper_sized sized accepted
  next => cases accepted

/-! ### Inodes -/

section Inodes

variable {c : Context} {steps : Nat}

/-- What a part of a device contains. -/
def content (device : Ext2Device) (offset size : Nat) : Option Memory :=
  (gather (deviceByte device) offset size).map byteAt

def blockContent (c : Context) (block : Nat) : Option Memory :=
  content c.device (block * c.blockSize % 2 ^ 64) c.blockSize

def descriptorOffset (c : Context) (group : Nat) : Nat :=
  (descriptorTableBlock c * c.blockSize + group * c.descriptorSize) % 2 ^ 64

def tableBlock (c : Context) (group : Nat) : Option Nat :=
  if group < c.groupCount then
    (content c.device (descriptorOffset c group) c.descriptorSize).bind fun descriptor =>
      let high := if c.descriptorSize ≥ 64 then wordAt descriptor 40 4 else 0
      let table := high * 2 ^ 32 + wordAt descriptor 8 4
      if table ≠ 0 then some table else none
  else none

/-- The descriptor of a group fits into 64 bytes, or one of its first 65 bytes cannot be read. -/
def DescriptorInside (c : Context) (group : Nat) : Prop :=
  c.descriptorSize ≤ 64 ∨ ∃ k ≤ 64, deviceByte c.device (descriptorOffset c group + k) = none

def inodeAt (c : Context) (number : Nat) : Option Inode :=
  if number ≠ 0 ∧ ¬c.inodeSize > 512 then
    (tableBlock c ((number - 1) / c.inodesPerGroup)).bind fun table =>
      let offset := (table * c.blockSize + (number - 1) % c.inodesPerGroup * c.inodeSize) % 2 ^ 64
      (content c.device offset c.inodeSize).bind fun raw =>
        if (parseInode raw).mode ≠ 0 then some (parseInode raw) else none
  else none

/-- `read_inode` stays inside, if it looks for the inode at all. -/
def InodeInside (c : Context) (number : Nat) : Prop :=
  number ≠ 0 ∧ ¬c.inodeSize > 512 → (number - 1) / c.inodesPerGroup < c.groupCount →
    DescriptorInside c ((number - 1) / c.inodesPerGroup)

theorem block_bounds (sized : c.Sized) : 0 < c.blockSize ∧ c.blockSize ≤ EXT2_MAX_BLOCK_SIZE := by
  unfold EXT2_MAX_BLOCK_SIZE
  rcases sized.block with size | size | size
  all_goals omega

theorem readBytes_content {device : Ext2Device} {room byteOffset size : Nat}
    (sized : 512 ≤ device.logicalBlockSize ∧ device.logicalBlockSize ≤ 4096)
    (start : byteOffset < 2 ^ 64)
    (short : size < 2 ^ 32) (enough : size < steps)
    (fits : size ≤ room ∨ ∃ k, k ≤ room ∧ k < size ∧ deviceByte device (byteOffset + k) = none) :
    readBytes steps device room byteOffset size (fun _ => 0) = supplied (content device byteOffset size) := by
  rw [readBytes_eq sized start short enough fits, content]
  congr 2
  funext data
  exact patch_zero data

theorem readBlock_patch (sized : c.Sized) (enough : 2 ^ 16 < steps) (block : Nat) (buffer : Memory) :
    readBlock steps c block buffer = supplied
      ((gather (deviceByte c.device) (block * c.blockSize % 2 ^ 64) c.blockSize).map (patch buffer 0)) := by
  obtain ⟨-, small⟩ := block_bounds sized
  refine readBytes_eq sized.sector (Nat.mod_lt _ (by decide)) ?_ ?_ (Or.inl small)
  all_goals
    unfold EXT2_MAX_BLOCK_SIZE at small
    omega

theorem readBlock_eq (sized : c.Sized) (enough : 2 ^ 16 < steps) (block : Nat) :
    readBlock steps c block (fun _ => 0) = supplied (blockContent c block) := by
  obtain ⟨-, small⟩ := block_bounds sized
  refine readBytes_content sized.sector (Nat.mod_lt _ (by decide)) ?_ ?_ (Or.inl small)
  all_goals
    unfold EXT2_MAX_BLOCK_SIZE at small
    omega

theorem peek_inside {size : Nat} {buffer : Memory} {position width : Nat}
    (inside : position + width ≤ size) :
    peek size buffer position width = .ok (wordAt buffer position width) := by
  rw [peek, access, if_pos (Or.inr inside)]
  rfl

theorem descriptor_follows (sized : c.Sized) (enough : 2 ^ 16 < steps) (group : Nat) :
    Follows (readBytes steps c.device 64 (descriptorOffset c group) c.descriptorSize fun _ => 0)
      (DescriptorInside c group) (content c.device (descriptorOffset c group) c.descriptorSize) where
  gives inside := by
    obtain ⟨-, small⟩ := sized.descriptor
    refine readBytes_content sized.sector (Nat.mod_lt _ (by decide)) (by omega) (by omega) ?_
    rcases inside with fits | ⟨k, early, missing⟩
    · exact Or.inl fits
    · by_cases fits : c.descriptorSize ≤ 64
      · exact Or.inl fits
      · exact Or.inr ⟨k, early, by omega, missing⟩
  leaves outside := by
    obtain ⟨-, small⟩ := sized.descriptor
    have large : ¬c.descriptorSize ≤ 64 := fun fits => outside (Or.inl fits)
    refine readBytes_outside sized.sector (Nat.mod_lt _ (by decide)) (by omega) (Nat.not_le.mp large) ?_
    exact fun k early missing => outside (Or.inr ⟨k, early, missing⟩)

theorem table_follows (sized : c.Sized) (enough : 2 ^ 16 < steps) (group : Nat) :
    Follows (inodeTableBlock steps c group) (group < c.groupCount → DescriptorInside c group) (tableBlock c group) := by
  unfold inodeTableBlock tableBlock
  by_cases counted : group < c.groupCount
  · rw [if_pos counted, demand_holds counted, ok_bind]
    refine ((descriptor_follows sized enough group).bind_eq fun descriptor _ => ?_).congr
      (forall_prop_of_true counted) fun _ => rfl
    rw [peek_inside (by decide), ok_bind]
    -- A block that is zero is refused, however wide the descriptor is.
    have block (table : Nat) : (demand (table ≠ 0) >>= fun _ => (pure table : Run Nat)) =
        supplied (if table ≠ 0 then some table else none) := by
      split
      next some => rw [demand_holds some]; rfl
      next none => rw [demand_fails none]; rfl
    dsimp only
    split
    next wide =>
      rw [peek_inside (by decide), ok_bind]
      exact block _
    next narrow => exact block _
  · rw [if_neg counted, demand_fails counted]
    exact .refused fun here => absurd here counted

theorem readInode_follows (sized : c.Sized) (enough : 2 ^ 16 < steps) (number : Nat) :
    Follows (readInode steps c number) (InodeInside c number) (inodeAt c number) := by
  unfold readInode inodeAt
  by_cases admitted : number ≠ 0 ∧ ¬c.inodeSize > 512
  · rw [if_pos admitted, demand_holds admitted, ok_bind]
    refine ((table_follows sized enough _).bind_eq fun table _ => ?_).congr
      (forall_prop_of_true admitted) fun _ => rfl
    dsimp only
    rw [readBytes_content sized.sector (Nat.mod_lt _ (by decide)) (by omega) (by omega) (Or.inl (by omega))]
    cases content c.device ((table * c.blockSize + (number - 1) % c.inodesPerGroup * c.inodeSize) % 2 ^ 64) c.inodeSize with
    | none => rfl
    | some raw =>
      rw [Option.bind_some, supplied, ok_bind, access, if_pos (by decide), ok_bind]
      split
      next used => rw [demand_holds used]; rfl
      next unused => rw [demand_fails unused]; rfl
  · rw [if_neg admitted, demand_fails admitted]
    exact .refused fun here => absurd here admitted

end Inodes

/-! ### Extent trees -/

/-- An entry of a leaf: the first logical block, the length as it is stored, and the first block on the disk. -/
structure Leaf where
  logical : Nat
  length : Nat
  start : Nat

def leafAt (node : Memory) (index : Nat) : Leaf where
  logical := wordAt node (12 + index * 12) 4
  length := wordAt node (12 + index * 12 + 4) 2
  start := wordAt node (12 + index * 12 + 6) 2 * 2 ^ 32 + wordAt node (12 + index * 12 + 8) 4

/-- The extent that the reader makes of an entry. -/
def Leaf.extent (c : Context) (leaf : Leaf) : Extent := ⟨leaf.start, leaf.length % 2 ^ 15 * c.blockSize⟩

def childBlock (node : Memory) (index : Nat) : Nat :=
  wordAt node (12 + index * 12 + 10) 2 * 2 ^ 32 + wordAt node (12 + index * 12 + 4) 4

def addLeaf (node : Memory) (leaves : List Leaf) (index : Nat) : Option (List Leaf) :=
  if leaves.length < EXT2_MAX_EXTENTS then some (leaves ++ [leafAt node index]) else none

def HeaderAccepted (node : Memory) : Prop :=
  wordAt node 0 2 = EXT4_EXTENT_MAGIC ∧ ¬wordAt node 2 2 > wordAt node 4 2

instance (node : Memory) : Decidable (HeaderAccepted node) := instDecidableAnd

/-- The entries of the leaves below a node, behind those that have been collected. -/
def nodeLeaves (node : Memory) (child : Nat → Nat → List Leaf → Option (List Leaf))
    (leaves : List Leaf) :
    Option (List Leaf) :=
  if HeaderAccepted node then
    if wordAt node 6 2 = 0 then (List.range (wordAt node 2 2)).foldlM (addLeaf node) leaves
    else (List.range (wordAt node 2 2)).foldlM (fun leaves index => child index (childBlock node index) leaves) leaves
  else none

/-- Each entry that the reader comes to lies in the `size` bytes of the node, and what is below it is inside. -/
def NodeInside (size : Nat) (node : Memory) (child : Nat → Nat → List Leaf → Option (List Leaf))
    (childInside : Nat → Nat → List Leaf → Prop) (leaves : List Leaf) : Prop :=
  HeaderAccepted node →
    if wordAt node 6 2 = 0 then
      Along (fun leaves index => leaves.length < EXT2_MAX_EXTENTS → 12 + index * 12 + 12 ≤ size) (addLeaf node)
        (List.range (wordAt node 2 2)) leaves
    else
      Along (fun leaves index => 12 + index * 12 + 12 ≤ size ∧ childInside index (childBlock node index) leaves)
        (fun leaves index => child index (childBlock node index) leaves) (List.range (wordAt node 2 2)) leaves

/-- The entries of the leaves below a block. -/
def treeLeaves (c : Context) : Nat → Leftover → Nat → List Leaf → Option (List Leaf)
  | 0, _, _, _ => none
  | levels + 1, leftover, block, leaves =>
    (gather (deviceByte c.device) (block * c.blockSize % 2 ^ 64) c.blockSize).bind fun data =>
      nodeLeaves (patch (leftover []) 0 data) (fun index => treeLeaves c levels (leftover.under index)) leaves

/-- Each entry below a block that the reader comes to lies in its buffer. -/
def TreeInside (c : Context) : Nat → Leftover → Nat → List Leaf → Prop
  | 0, _, _, _ => True
  | levels + 1, leftover, block, leaves =>
    ∀ data, gather (deviceByte c.device) (block * c.blockSize % 2 ^ 64) c.blockSize = some data →
      NodeInside EXT2_MAX_BLOCK_SIZE (patch (leftover []) 0 data)
        (fun index => treeLeaves c levels (leftover.under index))
        (fun index => TreeInside c levels (leftover.under index)) leaves

def inodeLeaves (c : Context) (leftover : Leftover) (inode : Inode) : Option (List Leaf) :=
  if inode.flags &&& EXT4_EXTENTS_FL ≠ 0 then
    nodeLeaves inode.blocks (fun index => treeLeaves c 5 (leftover.under index)) []
  else none

/-- Each entry of the tree of an inode that the reader comes to lies in its buffer. -/
def ExtentsInside (c : Context) (leftover : Leftover) (inode : Inode) : Prop :=
  inode.flags &&& EXT4_EXTENTS_FL ≠ 0 →
    NodeInside INODE_BLOCKS_SIZE inode.blocks (fun index => treeLeaves c 5 (leftover.under index))
      (fun index => TreeInside c 5 (leftover.under index)) []

section Trees

variable {c : Context} {steps size : Nat} {node : Memory}

theorem peek_follows {buffer : Memory} {position width : Nat} (some : width ≠ 0) :
    Follows (peek size buffer position width) (position + width ≤ size) (.some (wordAt buffer position width)) :=
  ((follows_access some).bind_some (.of_eq rfl)).congr (and_true _).symm.to_iff fun _ => rfl

theorem leafEntry_follows (leaves : List Leaf) (index : Nat) :
    Follows (leafEntry c size node (leaves.map (Leaf.extent c)) index)
      (leaves.length < EXT2_MAX_EXTENTS → 12 + index * 12 + 12 ≤ size)
      ((addLeaf node leaves index).map (List.map (Leaf.extent c))) := by
  unfold leafEntry addLeaf
  dsimp only
  rw [List.length_map]
  by_cases few : leaves.length < EXT2_MAX_EXTENTS
  · rw [demand_holds (Nat.not_le.mpr few), ok_bind, if_pos few]
    refine ((peek_follows (by decide)).bind_some ((peek_follows (by decide)).bind_some
      ((peek_follows (by decide)).bind_some (.of_eq ?_)))).congr
        ((forall_prop_of_true few).trans (by rw [and_true]; omega)) fun _ => rfl
    rw [access, if_pos (Or.inr (Nat.succ_le_of_lt few)), ok_bind, Option.map_some, List.map_append]
    rfl
  · rw [demand_fails (not_not_intro (Nat.not_lt.mp few)), if_neg few]
    exact .refused fun here => absurd here few

theorem indexEntry_follows {child : Nat → Nat → List Extent → Run (List Extent)}
    {childLeaves : Nat → Nat → List Leaf → Option (List Leaf)}
    {childInside : Nat → Nat → List Leaf → Prop}
    (below : ∀ index block leaves, Follows (child index block (leaves.map (Leaf.extent c)))
      (childInside index block leaves) ((childLeaves index block leaves).map (List.map (Leaf.extent c))))
    (leaves : List Leaf) (index : Nat) :
    Follows (indexEntry size node child (leaves.map (Leaf.extent c)) index)
      (12 + index * 12 + 12 ≤ size ∧ childInside index (childBlock node index) leaves)
      ((childLeaves index (childBlock node index) leaves).map (List.map (Leaf.extent c))) := by
  refine ((peek_follows (by decide)).bind_some ((peek_follows (by decide)).bind_some
    (below index (childBlock node index) leaves))).congr ?_ fun _ => rfl
  rw [← and_assoc]
  exact and_congr_left fun _ => by omega

theorem collectNode_follows (header : 8 ≤ size) {child : Nat → Nat → List Extent → Run (List Extent)}
    {childLeaves : Nat → Nat → List Leaf → Option (List Leaf)}
    {childInside : Nat → Nat → List Leaf → Prop}
    (below : ∀ index block leaves, Follows (child index block (leaves.map (Leaf.extent c)))
      (childInside index block leaves) ((childLeaves index block leaves).map (List.map (Leaf.extent c))))
    (leaves : List Leaf) :
    Follows (collectNode c size node child (leaves.map (Leaf.extent c)))
      (NodeInside size node childLeaves childInside leaves)
      ((nodeLeaves node childLeaves leaves).map (List.map (Leaf.extent c))) := by
  unfold collectNode NodeInside nodeLeaves
  rw [peek_inside (by omega), ok_bind]
  by_cases magic : wordAt node 0 2 = EXT4_EXTENT_MAGIC
  · rw [demand_holds magic, ok_bind, peek_inside (by omega), ok_bind, peek_inside (by omega), ok_bind]
    by_cases most : wordAt node 2 2 > wordAt node 4 2
    · rw [demand_fails (not_not_intro most), if_neg (show ¬HeaderAccepted node from fun accepted => accepted.2 most)]
      exact .refused fun accepted => absurd most accepted.2
    · have accepted : HeaderAccepted node := ⟨magic, most⟩
      rw [demand_holds most, ok_bind, peek_inside (by omega), ok_bind, if_pos accepted]
      refine Follows.congr ?_ (forall_prop_of_true accepted) fun _ => rfl
      split
      next leaf => exact follows_foldlM _ leafEntry_follows _ leaves
      next index => exact follows_foldlM _ (indexEntry_follows below) _ leaves
  · rw [demand_fails magic, if_neg (show ¬HeaderAccepted node from fun accepted => magic accepted.1)]
    exact .refused fun accepted => absurd accepted.1 magic

theorem collectExtentTree_follows (sized : c.Sized) (enough : 2 ^ 16 < steps) (levels : Nat)
    (leftover : Leftover)
    (block : Nat) (leaves : List Leaf) :
    Follows (collectExtentTree steps c levels leftover block (leaves.map (Leaf.extent c)))
      (TreeInside c levels leftover block leaves)
      ((treeLeaves c levels leftover block leaves).map (List.map (Leaf.extent c))) := by
  induction levels generalizing leftover block leaves with
  | zero => exact .refused trivial
  | succ levels ih =>
    rw [collectExtentTree, TreeInside, treeLeaves, readBlock_patch sized enough]
    cases gather (deviceByte c.device) (block * c.blockSize % 2 ^ 64) c.blockSize with
    | none => exact .refused nofun
    | some data =>
      rw [Option.map_some, supplied, ok_bind]
      refine (collectNode_follows (by decide) (fun index => ih (leftover.under index)) leaves).congr ?_ fun _ => rfl
      exact ⟨fun all => all data rfl, fun here _ given => by cases given; exact here⟩

theorem collectInodeExtents_follows (sized : c.Sized) (enough : 2 ^ 16 < steps)
    (leftover : Leftover) (inode : Inode) :
    Follows (collectInodeExtents steps c leftover inode) (ExtentsInside c leftover inode)
      ((inodeLeaves c leftover inode).map (List.map (Leaf.extent c))) := by
  unfold collectInodeExtents ExtentsInside inodeLeaves
  by_cases extents : inode.flags &&& EXT4_EXTENTS_FL ≠ 0
  · rw [demand_holds extents, ok_bind, if_pos extents]
    refine (collectNode_follows (by decide) (fun index => ?_) []).congr (forall_prop_of_true extents) fun _ => rfl
    exact collectExtentTree_follows sized enough 5 (leftover.under index)
  · rw [demand_fails extents, if_neg extents]
    exact .refused fun here => absurd here extents

end Trees

end AsasOs.Ext2
