import AsasOs.Lib.RadixTree
import AsasOs.Memory.Frames
import Mathlib.Data.Nat.Bitwise

/-!
# Page tables

`paging.c`: four levels of tables, which are created on demand in frames of the allocator.
Physical memory is the 512 entries at each page address. The tables are a `RadixTree`: an
entry that is present and is no large page leads to the table at its address.

## Main result

- `mapPage_law`: a mapping changes the leaf entry of its own page and of no other, and a
  mapping that fails changes none.
-/
namespace AsasOs.Memory

open RadixTree

def PAGE_PRESENT : Nat := 0x001
def PAGE_WRITABLE : Nat := 0x002
def PAGE_ADDRESS_MASK : Nat := 0x000FFFFFFFFFF000
def ASAS_PAGE_USER : Nat := 0x004

abbrev PhysicalMemory := Nat → Fin 512 → Nat

structure Machine where
  memory : PhysicalMemory
  allocator : FrameAllocator

def clearPage (memory : PhysicalMemory) (physicalAddress : Nat) : PhysicalMemory := fun table index =>
  if table = physicalAddress then 0 else memory table index

/-- `table[index] = entry`. -/
def setEntry (memory : PhysicalMemory) (table : Nat) (index : Fin 512) (entry : Nat) : PhysicalMemory :=
  fun other i => if other = table ∧ i = index then entry else memory other i

/-- `next_table`; zero stands for no table. -/
def nextTable (machine : Machine) (table : Nat) (index : Fin 512) (flags : Nat) : Machine × Nat :=
  if machine.memory table index &&& PAGE_PRESENT ≠ 0 then
    let entry := machine.memory table index ||| (flags &&& ASAS_PAGE_USER)
    ({ machine with memory := setEntry machine.memory table index entry }, entry &&& PAGE_ADDRESS_MASK)
  else
    match frameAllocate machine.allocator with
    | (allocator, frame) =>
      if frame = 0 then (⟨machine.memory, allocator⟩, 0)
      else
        let entry := frame ||| PAGE_PRESENT ||| PAGE_WRITABLE ||| (flags &&& ASAS_PAGE_USER)
        (⟨setEntry (clearPage machine.memory frame) table index entry, allocator⟩, frame)

/-- `(virtual_address >> shift) & 0x1FF`. -/
def tableIndex (virtualAddress shift : Nat) : Fin 512 := Fin.ofNat 512 (virtualAddress >>> shift)

def mapPage (machine : Machine) (pml4 virtualAddress physicalAddress flags : Nat) : Machine × Bool :=
  if pml4 = 0 then (machine, false)
  else
    match nextTable machine pml4 (tableIndex virtualAddress 39) flags with
    | (machine, pdpt) =>
      if pdpt = 0 then (machine, false)
      else
        match nextTable machine pdpt (tableIndex virtualAddress 30) flags with
        | (machine, pd) =>
          if pd = 0 then (machine, false)
          else
            match nextTable machine pd (tableIndex virtualAddress 21) flags with
            | (machine, pt) =>
              if pt = 0 then (machine, false)
              else
                let entry := (physicalAddress &&& PAGE_ADDRESS_MASK) ||| flags ||| PAGE_PRESENT
                ({ machine with memory := setEntry machine.memory pt (tableIndex virtualAddress 12) entry }, true)

/-- The loop of `paging_page_flags`, over the indices that are left. -/
def pageFlagsFrom (memory : PhysicalMemory) (last : Fin 512) (table : Nat) : List (Fin 512) → Nat
  | [] => memory table last
  | index :: rest =>
    let entry := memory table index
    if entry &&& PAGE_PRESENT = 0 then 0
    else pageFlagsFrom memory last (entry &&& PAGE_ADDRESS_MASK) rest

def pagingPageFlags (memory : PhysicalMemory) (pml4 virtualAddress : Nat) : Nat :=
  pageFlagsFrom memory (tableIndex virtualAddress 12) pml4
    [tableIndex virtualAddress 39, tableIndex virtualAddress 30, tableIndex virtualAddress 21]

/-! ### The bits of an entry -/

/-- The bit of an entry above the last level that stands for a page of 2 MiB or 1 GiB. -/
def PAGE_LARGE : Nat := 0x080

def Large (entry : Nat) : Prop := entry &&& PAGE_PRESENT ≠ 0 ∧ entry &&& PAGE_LARGE ≠ 0

/-- The table that an entry above the last level leads to. -/
def leadsTo (entry : Nat) : Option Nat :=
  if entry &&& PAGE_PRESENT ≠ 0 ∧ entry &&& PAGE_LARGE = 0 then some (entry &&& PAGE_ADDRESS_MASK) else none

/-- What an entry that leads to no table counts for: a large page, or nothing. -/
def stopped (entry : Nat) : Nat := if entry &&& PAGE_PRESENT ≠ 0 then entry else 0

theorem leadsTo_zero : leadsTo 0 = none := by decide

theorem stopped_absent {entry : Nat} (absent : entry &&& PAGE_PRESENT = 0) : stopped entry = 0 :=
  if_neg (not_not.mpr absent)

theorem leadsTo_absent {entry : Nat} (absent : entry &&& PAGE_PRESENT = 0) : leadsTo entry = none :=
  if_neg fun both => both.1 absent

theorem leadsTo_present {entry : Nat} (present : entry &&& PAGE_PRESENT ≠ 0) (small : ¬Large entry) :
    leadsTo entry = some (entry &&& PAGE_ADDRESS_MASK) :=
  if_pos ⟨present, not_not.mp fun large => small ⟨present, large⟩⟩

theorem or_user_and {entry flags mask : Nat} (other : ASAS_PAGE_USER &&& mask = 0) :
    (entry ||| (flags &&& ASAS_PAGE_USER)) &&& mask = entry &&& mask := by
  rw [Nat.and_or_distrib_right, Nat.and_assoc, other, Nat.and_zero, Nat.or_zero]

theorem large_user {entry flags : Nat} : Large (entry ||| (flags &&& ASAS_PAGE_USER)) ↔ Large entry := by
  unfold Large
  rw [or_user_and (by decide), or_user_and (by decide)]

theorem aligned_and {frame mask : Nat} (aligned : PAGE_SIZE ∣ frame) (low : mask < 2 ^ 12) :
    frame &&& mask = 0 := by
  obtain ⟨page, rfl⟩ := aligned
  apply Nat.eq_of_testBit_eq
  intro bit
  rw [Nat.testBit_and, Nat.zero_testBit, Bool.and_eq_false_iff]
  rcases Nat.lt_or_ge bit 12 with below | above
  · left
    have shifted : PAGE_SIZE * page = 2 ^ 12 * page := rfl
    rw [shifted, Nat.testBit_two_pow_mul, decide_eq_false (by omega), Bool.false_and]
  · right
    exact Nat.testBit_lt_two_pow (low.trans_le (Nat.pow_le_pow_right (by omega) above))

theorem aligned_mask {frame : Nat} (aligned : PAGE_SIZE ∣ frame) (physical : frame < 2 ^ 52) :
    frame &&& PAGE_ADDRESS_MASK = frame := by
  obtain ⟨page, rfl⟩ := aligned
  have shifted : PAGE_SIZE * page = page <<< 12 := by
    rw [Nat.shiftLeft_eq, Nat.mul_comm]
    rfl
  have mask : PAGE_ADDRESS_MASK = (2 ^ 40 - 1) <<< 12 := by decide
  have short : page < 2 ^ 40 := by
    unfold PAGE_SIZE at physical
    omega
  rw [shifted, mask, ← Nat.shiftLeft_and_distrib, Nat.and_two_pow_sub_one_of_lt_two_pow short]

theorem created_and (frame flags mask : Nat) :
    (frame ||| PAGE_PRESENT ||| PAGE_WRITABLE ||| (flags &&& ASAS_PAGE_USER)) &&& mask =
      (frame &&& mask) ||| (PAGE_PRESENT &&& mask) ||| (PAGE_WRITABLE &&& mask) |||
        (flags &&& (ASAS_PAGE_USER &&& mask)) := by
  rw [Nat.and_or_distrib_right, Nat.and_or_distrib_right, Nat.and_or_distrib_right, Nat.and_assoc]

theorem created_small {frame flags : Nat} (aligned : PAGE_SIZE ∣ frame) :
    (frame ||| PAGE_PRESENT ||| PAGE_WRITABLE ||| (flags &&& ASAS_PAGE_USER)) &&& PAGE_LARGE = 0 := by
  rw [created_and, aligned_and aligned (by decide)]
  have bits : PAGE_PRESENT &&& PAGE_LARGE = 0 ∧ PAGE_WRITABLE &&& PAGE_LARGE = 0 ∧
      ASAS_PAGE_USER &&& PAGE_LARGE = 0 := by decide
  rw [bits.1, bits.2.1, bits.2.2, Nat.and_zero]
  rfl

theorem created_present {frame flags : Nat} (aligned : PAGE_SIZE ∣ frame) :
    (frame ||| PAGE_PRESENT ||| PAGE_WRITABLE ||| (flags &&& ASAS_PAGE_USER)) &&& PAGE_PRESENT ≠ 0 := by
  rw [created_and, aligned_and aligned (by decide)]
  have bits : PAGE_PRESENT &&& PAGE_PRESENT = 1 ∧ PAGE_WRITABLE &&& PAGE_PRESENT = 0 ∧
      ASAS_PAGE_USER &&& PAGE_PRESENT = 0 := by decide
  rw [bits.1, bits.2.1, bits.2.2, Nat.and_zero]
  decide

theorem created_address {frame flags : Nat} (aligned : PAGE_SIZE ∣ frame) (physical : frame < 2 ^ 52) :
    (frame ||| PAGE_PRESENT ||| PAGE_WRITABLE ||| (flags &&& ASAS_PAGE_USER)) &&& PAGE_ADDRESS_MASK = frame := by
  rw [created_and, aligned_mask aligned physical]
  have bits : PAGE_PRESENT &&& PAGE_ADDRESS_MASK = 0 ∧ PAGE_WRITABLE &&& PAGE_ADDRESS_MASK = 0 ∧
      ASAS_PAGE_USER &&& PAGE_ADDRESS_MASK = 0 := by decide
  rw [bits.1, bits.2.1, bits.2.2, Nat.and_zero, Nat.or_zero, Nat.or_zero, Nat.or_zero]

/-- A reading of the entries that agrees with what `next_table` writes. -/
structure Enters (enter : Nat → Option Nat) : Prop where
  user : ∀ entry flags, enter (entry ||| (flags &&& ASAS_PAGE_USER)) = enter entry
  absent : ∀ entry, entry &&& PAGE_PRESENT = 0 → enter entry = none
  created : ∀ frame flags, PAGE_SIZE ∣ frame → frame < 2 ^ 52 →
    enter (frame ||| PAGE_PRESENT ||| PAGE_WRITABLE ||| (flags &&& ASAS_PAGE_USER)) = some frame

theorem leadsTo_enters : Enters leadsTo := by
  refine ⟨fun entry flags => ?_, fun entry => leadsTo_absent, fun frame flags aligned physical => ?_⟩
  · unfold leadsTo
    rw [or_user_and (by decide), or_user_and (by decide), or_user_and (by decide)]
  · rw [leadsTo_present (created_present aligned) fun large => large.2 (created_small aligned),
      created_address aligned physical]

/-! ### The walk -/

/-- The indices that lead to the last table of a page, the last one first. -/
def tablePath (virtualAddress : Nat) : List (Fin 512) :=
  [tableIndex virtualAddress 21, tableIndex virtualAddress 30, tableIndex virtualAddress 39]

theorem tablePath_short (virtualAddress : Nat) : (tablePath virtualAddress).length ≤ 3 := Nat.le_refl 3

/-- The leaf entry of a page: the entry in the last table, or a large page above it, or zero where
an entry on the way is not present. -/
def pageWalk (memory : PhysicalMemory) (pml4 virtualAddress : Nat) : Nat :=
  walk leadsTo stopped 0 memory pml4 (tableIndex virtualAddress 12 :: tablePath virtualAddress)

/-- The bits of an address that are translated, without the offset in the page. -/
def virtualPage (virtualAddress : Nat) : Nat := virtualAddress / 2 ^ 12 % 2 ^ 36

theorem tableIndex_val (virtualAddress shift : Nat) :
    (tableIndex virtualAddress shift).val = virtualAddress / 2 ^ shift % 512 := by
  unfold tableIndex
  rw [Fin.val_ofNat, Nat.shiftRight_eq_div_pow]

theorem virtualPage_path {first second : Nat} (other : virtualPage second ≠ virtualPage first) :
    tableIndex second 12 :: tablePath second ≠ tableIndex first 12 :: tablePath first := by
  intro same
  simp only [tablePath, List.cons.injEq, and_true, Fin.ext_iff, tableIndex_val] at same
  apply other
  unfold virtualPage
  omega

def NoLarge (memory : PhysicalMemory) (pml4 : Nat) (path : List (Fin 512)) : Prop :=
  ∀ index up table, index :: up <:+ path → follow leadsTo memory pml4 up = some table →
    ¬Large (memory table index)

section Walk

variable {memory : PhysicalMemory} {pml4 table : Nat} {index : Fin 512} {up path : List (Fin 512)}

theorem walk_absent (place : follow leadsTo memory pml4 up = some table)
    (absent : memory table index &&& PAGE_PRESENT = 0) (last : Fin 512) (more : List (Fin 512)) :
    follow leadsTo memory pml4 (more ++ index :: up) = none ∧
      walk leadsTo stopped 0 memory pml4 (last :: (more ++ index :: up)) = 0 := by
  induction more generalizing last with
  | nil =>
    have nothing : follow leadsTo memory pml4 (index :: up) = none :=
      (follow_next place).trans (leadsTo_absent absent)
    exact ⟨nothing, by rw [List.nil_append, walk_stop nothing, walk_cons place, stopped_absent absent]⟩
  | cons next more ih =>
    obtain ⟨nothing, zero⟩ := ih next
    have further : follow leadsTo memory pml4 (next :: (more ++ index :: up)) = none := by
      rw [follow_cons, nothing, Option.bind_none]
    exact ⟨further, by rw [List.cons_append, walk_stop further, zero, stopped_absent rfl]⟩

theorem pageFlagsFrom_eq (last : Fin 512) (rest : List (Fin 512)) : ∀ table up,
    follow leadsTo memory pml4 up = some table → NoLarge memory pml4 (rest.reverse ++ up) →
    pageFlagsFrom memory last table rest =
      walk leadsTo stopped 0 memory pml4 (last :: (rest.reverse ++ up)) := by
  induction rest with
  | nil => exact fun table up place _ => (walk_cons place).symm
  | cons index rest ih =>
    intro table up place small
    rw [List.reverse_cons, List.append_assoc, List.singleton_append] at small ⊢
    rw [pageFlagsFrom]
    split
    · rename_i absent
      exact (walk_absent place absent last rest.reverse).2.symm
    · rename_i present
      refine ih _ _ ?_ small
      exact (follow_next place).trans
        (leadsTo_present present (small index up table (List.suffix_append _ _) place))

theorem pagingPageFlags_eq {virtualAddress : Nat}
    (small : NoLarge memory pml4 (tablePath virtualAddress)) :
    pagingPageFlags memory pml4 virtualAddress = pageWalk memory pml4 virtualAddress :=
  pageFlagsFrom_eq (tableIndex virtualAddress 12)
    [tableIndex virtualAddress 39, tableIndex virtualAddress 30, tableIndex virtualAddress 21] pml4 [] rfl small

end Walk

/-! ### One level -/

/-- The tables of an address space: different paths lead to different ones, and none is in a frame that the
allocator can hand out. -/
structure AddressSpace (map : List Descriptor) (held : List Nat) (machine : Machine) (pml4 : Nat) : Prop where
  aligned : PAGE_SIZE ∣ pml4
  reached : Reached map machine.allocator held
  tree : Tree leadsTo 3 machine.memory pml4
  inUse : ∀ path table, path.length ≤ 3 → follow leadsTo machine.memory pml4 path = some table →
    table ∈ held ∨ ¬Usable map table

/-- What a step does not change: the leaf entries. It adds no large pages either. -/
structure Preserves (pml4 : Nat) (before after : PhysicalMemory) : Prop where
  leaves : ∀ path, path.length = 4 →
    walk leadsTo stopped 0 after pml4 path = walk leadsTo stopped 0 before pml4 path
  tables : ∀ path table, path.length ≤ 3 → follow leadsTo after pml4 path = some table →
    follow leadsTo before pml4 path = some table ∨ ∀ index, ¬Large (after table index)
  large : ∀ table index, Large (after table index) → Large (before table index)

namespace Preserves

variable {pml4 : Nat} {first second third : PhysicalMemory}

theorem refl (memory : PhysicalMemory) : Preserves pml4 memory memory :=
  ⟨fun _ _ => rfl, fun _ _ _ found => .inl found, fun _ _ large => large⟩

theorem trans (one : Preserves pml4 first second) (two : Preserves pml4 second third) :
    Preserves pml4 first third := by
  refine ⟨fun path long => (two.leaves path long).trans (one.leaves path long), ?_,
    fun table index large => one.large table index (two.large table index large)⟩
  intro path table short found
  rcases two.tables path table short found with before | small
  · rcases one.tables path table short before with start | small
    · exact .inl start
    · exact .inr fun index large => small index (two.large table index large)
  · exact .inr small

theorem noLarge (kept : Preserves pml4 first second) {path : List (Fin 512)} (short : path.length ≤ 3)
    (small : NoLarge first pml4 path) : NoLarge second pml4 path := by
  intro index up table part found large
  have shorter : up.length < path.length := part.length_le
  rcases kept.tables up table (by omega) found with before | none_large
  · exact small index up table part before (kept.large table index large)
  · exact none_large index large

theorem pageWalk (kept : Preserves pml4 first second) (virtualAddress : Nat) :
    pageWalk second pml4 virtualAddress = Memory.pageWalk first pml4 virtualAddress := kept.leaves _ rfl

end Preserves

/-- A memory map of physical addresses, which have 52 bits at most. -/
structure PhysicalMap (map : List Descriptor) : Prop extends WellFormed map where
  physical : ∀ d ∈ map, d.rangeEnd ≤ 2 ^ 52

theorem Usable.physical {map : List Descriptor} (physicalMap : PhysicalMap map) {frame : Nat}
    (usable : Usable map frame) : frame < 2 ^ 52 := by
  obtain ⟨d, member, -, -, below⟩ := usable.conventional
  have top := physicalMap.physical d member
  unfold PAGE_SIZE at below
  omega

section Entries

variable {enter : Nat → Option Nat} {memory : PhysicalMemory} {pml4 table : Nat} {index : Fin 512}
  {up : List (Fin 512)} {depth : Nat}

theorem Enters.setEntry_user (enters : Enters enter) (flags : Nat) (n : Nat) (j : Fin 512) :
    enter (setEntry memory table index (memory table index ||| (flags &&& ASAS_PAGE_USER)) n j) =
      enter (memory n j) := by
  unfold setEntry
  split
  · rename_i here
    rw [enters.user, here.1, here.2]
  · rfl

theorem setEntry_cleared {frame : Nat} (apart : frame ≠ table) (entry : Nat) (j : Fin 512) :
    setEntry (clearPage memory frame) table index entry frame j = 0 :=
  (if_neg fun both => apart both.1).trans (if_pos rfl)

theorem Enters.grown (enters : Enters enter) (place : follow enter memory pml4 up = some table)
    (shallow : up.length < depth) (absent : memory table index &&& PAGE_PRESENT = 0) {frame : Nat}
    (aligned : PAGE_SIZE ∣ frame) (physical : frame < 2 ^ 52)
    (unused : ∀ path, path.length ≤ depth → follow enter memory pml4 path ≠ some frame) (flags : Nat) :
    Grown enter depth memory (setEntry (clearPage memory frame) table index
      (frame ||| PAGE_PRESENT ||| PAGE_WRITABLE ||| (flags &&& ASAS_PAGE_USER))) pml4 table frame index up := by
  have apart : frame ≠ table := by
    rintro rfl
    exact unused up (Nat.le_of_lt shallow) place
  exact {
    place := place
    shallow := shallow
    nothing := enters.absent _ absent
    unused := unused
    leads := (congrArg enter (if_pos ⟨rfl, rfl⟩)).trans (enters.created frame flags aligned physical)
    empty := fun j => (congrArg enter (setEntry_cleared apart _ j)).trans (enters.absent 0 rfl)
    others := fun n j other elsewhere => (if_neg elsewhere).trans (if_neg other) }

end Entries

/-- What `next_table` can do: keep an entry that is present, find no frame, or create a table. -/
inductive NextTable (machine : Machine) (table : Nat) (index : Fin 512) (flags : Nat) : Machine × Nat → Prop
  | present (there : machine.memory table index &&& PAGE_PRESENT ≠ 0) :
      NextTable machine table index flags
        (⟨setEntry machine.memory table index (machine.memory table index ||| (flags &&& ASAS_PAGE_USER)),
          machine.allocator⟩, machine.memory table index &&& PAGE_ADDRESS_MASK)
  | full {allocator : FrameAllocator} (absent : machine.memory table index &&& PAGE_PRESENT = 0)
      (allocated : frameAllocate machine.allocator = (allocator, 0)) :
      NextTable machine table index flags (⟨machine.memory, allocator⟩, 0)
  | created {allocator : FrameAllocator} {frame : Nat}
      (absent : machine.memory table index &&& PAGE_PRESENT = 0)
      (allocated : frameAllocate machine.allocator = (allocator, frame)) (some_frame : frame ≠ 0) :
      NextTable machine table index flags
        (⟨setEntry (clearPage machine.memory frame) table index
          (frame ||| PAGE_PRESENT ||| PAGE_WRITABLE ||| (flags &&& ASAS_PAGE_USER)), allocator⟩, frame)

theorem nextTable_cases (machine : Machine) (table : Nat) (index : Fin 512) (flags : Nat) :
    NextTable machine table index flags (nextTable machine table index flags) := by
  unfold nextTable
  split
  · rename_i there
    dsimp only
    rw [or_user_and (by decide)]
    exact .present there
  · rename_i absent
    have absent := not_not.mp absent
    obtain ⟨allocator, frame, allocated⟩ : ∃ allocator frame,
      frameAllocate machine.allocator = (allocator, frame) := ⟨_, _, rfl⟩
    rw [allocated]
    dsimp only
    split
    · rename_i none_left
      exact .full absent (none_left ▸ allocated)
    · rename_i some_frame
      exact .created absent allocated some_frame

section Level

variable {map : List Descriptor} {held : List Nat} {machine machine' : Machine} {pml4 table : Nat}
  {index : Fin 512} {up : List (Fin 512)} {flags : Nat}

theorem preserves_user (tree : Tree leadsTo 3 machine.memory pml4)
    (place : follow leadsTo machine.memory pml4 up = some table) (shallow : up.length < 3)
    (entered : leadsTo (machine.memory table index) ≠ none) (flags : Nat) :
    Preserves pml4 machine.memory
      (setEntry machine.memory table index (machine.memory table index ||| (flags &&& ASAS_PAGE_USER))) := by
  have same : ∀ n j, leadsTo (setEntry machine.memory table index
      (machine.memory table index ||| (flags &&& ASAS_PAGE_USER)) n j) = leadsTo (machine.memory n j) :=
    leadsTo_enters.setEntry_user flags
  refine ⟨?_, ?_, ?_⟩
  · intro path long
    refine walk_same tree place (Nat.le_of_lt shallow) same entered (fun n j other => if_neg other) path
      (by omega) ?_
    rintro rfl
    rw [List.length_cons] at long
    omega
  · intro path other _ found
    rw [follow_same same] at found
    exact .inl found
  · intro n j large
    unfold setEntry at large
    split at large
    · rename_i here
      rw [here.1, here.2]
      exact large_user.mp large
    · exact large

theorem preserves_created (tree : Tree leadsTo 3 machine.memory pml4) {frame : Nat}
    (aligned : PAGE_SIZE ∣ frame)
    (absent : machine.memory table index &&& PAGE_PRESENT = 0)
    (grown : Grown leadsTo 3 machine.memory (setEntry (clearPage machine.memory frame) table index
      (frame ||| PAGE_PRESENT ||| PAGE_WRITABLE ||| (flags &&& ASAS_PAGE_USER))) pml4 table frame index up) :
    Preserves pml4 machine.memory (setEntry (clearPage machine.memory frame) table index
      (frame ||| PAGE_PRESENT ||| PAGE_WRITABLE ||| (flags &&& ASAS_PAGE_USER))) := by
  have apart : frame ≠ table := by
    rintro rfl
    exact grown.unused up (Nat.le_of_lt grown.shallow) grown.place
  have shallow := grown.shallow
  refine ⟨?_, ?_, ?_⟩
  · intro path long
    refine grown.walk_other tree (stopped_absent absent) (setEntry_cleared apart _) path (by omega) ?_
    rintro rfl
    rw [List.length_cons] at long
    omega
  · intro path other short found
    rcases grown.follow_cases tree short found with ⟨-, rfl⟩ | ⟨-, before⟩
    · refine .inr fun j large => ?_
      rw [setEntry_cleared apart] at large
      exact large.1 rfl
    · exact .inl before
  · intro n j large
    by_cases here : n = table ∧ j = index
    · rw [setEntry, if_pos here] at large
      exact absurd (created_small aligned) large.2
    · by_cases new : n = frame
      · rw [new, setEntry_cleared apart] at large
        exact absurd rfl large.1
      · rwa [setEntry, if_neg here, clearPage, if_neg new] at large

theorem nextTable_step (physicalMap : PhysicalMap map) (space : AddressSpace map held machine pml4)
    (place : follow leadsTo machine.memory pml4 up = some table) (shallow : up.length < 3)
    (small : ¬Large (machine.memory table index)) {next : Nat}
    (result : nextTable machine table index flags = (machine', next)) :
    ∃ held', AddressSpace map held' machine' pml4 ∧ Preserves pml4 machine.memory machine'.memory ∧
      (next ≠ 0 → follow leadsTo machine'.memory pml4 (index :: up) = some next) := by
  have outcome := nextTable_cases machine table index flags
  rw [result] at outcome
  cases outcome with
  | present present =>
    have leads := leadsTo_present present small
    have same : ∀ path, follow leadsTo (setEntry machine.memory table index
        (machine.memory table index ||| (flags &&& ASAS_PAGE_USER))) pml4 path =
        follow leadsTo machine.memory pml4 path := follow_same (leadsTo_enters.setEntry_user flags)
    refine ⟨held, ⟨space.aligned, space.reached, ?_, ?_⟩, ?_, fun _ => ?_⟩
    · intro p q node shortP shortQ first second
      rw [same] at first second
      exact space.tree p q node shortP shortQ first second
    · intro path node short found
      rw [same] at found
      exact space.inUse path node short found
    · refine preserves_user space.tree place shallow ?_ flags
      rw [leads]
      exact Option.some_ne_none _
    · rw [same, follow_next place, leads]
  | full absent allocated =>
    exact ⟨held, ⟨space.aligned, space.reached.allocate allocated, space.tree, space.inUse⟩, .refl _,
      fun some_table => absurd rfl some_table⟩
  | created absent allocated some_frame =>
    have reached := space.reached.allocate allocated
    rw [if_neg some_frame] at reached
    obtain ⟨fresh, usable, -⟩ := (frameAllocate_inv physicalMap.toWellFormed
      (space.reached.inv physicalMap.toWellFormed) allocated).1 some_frame
    have unused : ∀ path, path.length ≤ 3 → follow leadsTo machine.memory pml4 path ≠ some next := by
      intro path short found
      rcases space.inUse path next short found with taken | unusable
      · exact fresh taken
      · exact unusable usable
    have grown := leadsTo_enters.grown place shallow absent usable.aligned (usable.physical physicalMap) unused flags
    refine ⟨next :: held, ⟨space.aligned, reached, grown.tree' space.tree, ?_⟩,
      preserves_created space.tree usable.aligned absent grown, fun _ => grown.follow_new space.tree⟩
    intro path node short found
    rcases grown.follow_cases space.tree short found with ⟨-, rfl⟩ | ⟨-, before⟩
    · exact .inl List.mem_cons_self
    · exact (space.inUse path node short before).imp_left (List.mem_cons_of_mem _)

theorem setEntry_leaf (space : AddressSpace map held machine pml4)
    (place : follow leadsTo machine.memory pml4 up = some table) (deep : up.length = 3) (index : Fin 512)
    (entry : Nat) :
    AddressSpace map held { machine with memory := setEntry machine.memory table index entry } pml4 ∧
      walk leadsTo stopped 0 (setEntry machine.memory table index entry) pml4 (index :: up) = entry ∧
      (∀ path, path.length = 4 → path ≠ index :: up →
        walk leadsTo stopped 0 (setEntry machine.memory table index entry) pml4 path =
          walk leadsTo stopped 0 machine.memory pml4 path) ∧
      ∀ path, path.length ≤ 3 → NoLarge machine.memory pml4 path →
        NoLarge (setEntry machine.memory table index entry) pml4 path := by
  have others : ∀ n j, ¬(n = table ∧ j = index) →
      setEntry machine.memory table index entry n j = machine.memory n j := fun n j other => if_neg other
  have same := follow_leaf space.tree place deep others
  refine ⟨⟨space.aligned, space.reached, tree_leaf space.tree place deep others, ?_⟩, ?_, ?_, ?_⟩
  · intro path node short found
    exact space.inUse path node short ((same path short).symm.trans found)
  · exact (walk_leaf_self space.tree place deep others).trans (if_pos ⟨rfl, rfl⟩)
  · exact fun path long other => walk_leaf_other space.tree place deep others path (by omega) other
  · intro path short small i rest node part found
    have shorter : rest.length < path.length := part.length_le
    rw [same rest (by omega)] at found
    rw [others]
    · exact small i rest node part found
    -- the last table is at the full depth, and this one is above it
    · rintro ⟨rfl, -⟩
      have equal := space.tree rest up node (by omega) (by omega) found place
      subst equal
      omega

end Level

/-! ### Mapping a page -/

theorem mapPage_levels {Level : List (Fin 512) → Nat → Machine → Prop} {Stopped : Machine → Prop}
    {machine machine' : Machine} {pml4 virtualAddress physicalAddress flags : Nat}
    (first : Stopped machine)
    (root : Level [] pml4 machine)
    (step : ∀ {before after : Machine} {table next : Nat} {index : Fin 512} {up : List (Fin 512)},
      index :: up <:+ tablePath virtualAddress → Level up table before →
      nextTable before table index flags = (after, next) →
      Stopped after ∧ (next ≠ 0 → Level (index :: up) next after))
    {mapped : Bool}
    (result : mapPage machine pml4 virtualAddress physicalAddress flags = (machine', mapped)) :
    mapped = false ∧ Stopped machine' ∨
      mapped = true ∧ ∃ pt prepared, Level (tablePath virtualAddress) pt prepared ∧
        machine' = { prepared with
          memory := setEntry prepared.memory pt (tableIndex virtualAddress 12)
            ((physicalAddress &&& PAGE_ADDRESS_MASK) ||| flags ||| PAGE_PRESENT) } := by
  unfold mapPage at result
  split at result
  · cases result
    exact .inl ⟨rfl, first⟩
  obtain ⟨after, pdpt, top⟩ : ∃ after pdpt,
    nextTable machine pml4 (tableIndex virtualAddress 39) flags = (after, pdpt) := ⟨_, _, rfl⟩
  rw [top] at result
  dsimp only at result
  obtain ⟨stop, onward⟩ := step ⟨[_, _], rfl⟩ root top
  split at result
  · cases result
    exact .inl ⟨rfl, stop⟩
  rename_i some_pdpt
  obtain ⟨after₂, pd, middle⟩ : ∃ after₂ pd,
    nextTable after pdpt (tableIndex virtualAddress 30) flags = (after₂, pd) := ⟨_, _, rfl⟩
  rw [middle] at result
  dsimp only at result
  obtain ⟨stop₂, onward₂⟩ := step ⟨[_], rfl⟩ (onward some_pdpt) middle
  split at result
  · cases result
    exact .inl ⟨rfl, stop₂⟩
  rename_i some_pd
  obtain ⟨prepared, pt, last⟩ : ∃ prepared pt,
    nextTable after₂ pd (tableIndex virtualAddress 21) flags = (prepared, pt) := ⟨_, _, rfl⟩
  rw [last] at result
  dsimp only at result
  obtain ⟨stop₃, onward₃⟩ := step ⟨[], rfl⟩ (onward₂ some_pd) last
  split at result
  · cases result
    exact .inl ⟨rfl, stop₃⟩
  · rename_i some_pt
    cases result
    exact .inr ⟨rfl, pt, prepared, onward₃ some_pt, rfl⟩

section Map

variable {map : List Descriptor} {held : List Nat} {machine machine' : Machine} {pml4 : Nat}

theorem mapPage_cases (physicalMap : PhysicalMap map) (space : AddressSpace map held machine pml4)
    (virtualAddress physicalAddress flags : Nat)
    (small : NoLarge machine.memory pml4 (tablePath virtualAddress))
    {mapped : Bool}
    (result : mapPage machine pml4 virtualAddress physicalAddress flags = (machine', mapped)) :
    ∃ held' prepared, AddressSpace map held' prepared pml4 ∧
    Preserves pml4 machine.memory prepared.memory ∧
      (mapped = false ∧ machine' = prepared ∨
        mapped = true ∧ ∃ pt, follow leadsTo prepared.memory pml4 (tablePath virtualAddress) = some pt ∧
          machine' = { prepared with
            memory := setEntry prepared.memory pt (tableIndex virtualAddress 12)
              ((physicalAddress &&& PAGE_ADDRESS_MASK) ||| flags ||| PAGE_PRESENT) }) := by
  have levels := @mapPage_levels
    (fun up table after => follow leadsTo after.memory pml4 up = some table ∧
      ∃ held', AddressSpace map held' after pml4 ∧ Preserves pml4 machine.memory after.memory)
    (fun after => ∃ held', AddressSpace map held' after pml4 ∧ Preserves pml4 machine.memory after.memory)
    machine machine' pml4 virtualAddress physicalAddress flags ⟨held, space, .refl _⟩
    ⟨rfl, held, space, .refl _⟩ ?_ mapped result
  · rcases levels with ⟨failed, held', space', kept⟩ | ⟨done, pt, prepared, ⟨place, held', space', kept⟩, written⟩
    · exact ⟨held', machine', space', kept, .inl ⟨failed, rfl⟩⟩
    · exact ⟨held', prepared, space', kept, .inr ⟨done, pt, place, written⟩⟩
  · rintro before after table next index up part ⟨place, held', space', kept⟩ outcome
    have shorter : up.length < 3 := part.length_le
    have smallBefore := kept.noLarge (tablePath_short _) small index up table part place
    obtain ⟨held'', space'', kept', onward⟩ := nextTable_step physicalMap space' place shorter smallBefore outcome
    exact ⟨⟨held'', space'', kept.trans kept'⟩, fun some_table => ⟨onward some_table, held'', space'', kept.trans kept'⟩⟩

theorem leaf_address {physicalAddress flags : Nat} (apart : flags &&& PAGE_ADDRESS_MASK = 0) :
    ((physicalAddress &&& PAGE_ADDRESS_MASK) ||| flags ||| PAGE_PRESENT) &&& PAGE_ADDRESS_MASK =
      physicalAddress &&& PAGE_ADDRESS_MASK := by
  have bit : PAGE_PRESENT &&& PAGE_ADDRESS_MASK = 0 := by decide
  rw [Nat.and_or_distrib_right, Nat.and_or_distrib_right, apart, bit, Nat.or_zero, Nat.or_zero, Nat.and_assoc,
    Nat.and_self]

/-- **Mapping**: if no large page is on the path of the page, then the walk ends afterwards at the
physical page with the flags and the present bit, and the walks of all other pages end as before. If the
mapping fails, all of them do. The tables are a tree again. -/
theorem mapPage_law (physicalMap : PhysicalMap map) (space : AddressSpace map held machine pml4)
    (virtualAddress physicalAddress flags : Nat)
    (small : NoLarge machine.memory pml4 (tablePath virtualAddress))
    {mapped : Bool}
    (result : mapPage machine pml4 virtualAddress physicalAddress flags = (machine', mapped)) :
    (mapped = true → pageWalk machine'.memory pml4 virtualAddress =
          (physicalAddress &&& PAGE_ADDRESS_MASK) ||| flags ||| PAGE_PRESENT ∧
        pagingPageFlags machine'.memory pml4 virtualAddress =
        pageWalk machine'.memory pml4 virtualAddress ∧
        (PAGE_SIZE ∣ physicalAddress → physicalAddress < 2 ^ 52 → flags &&& PAGE_ADDRESS_MASK = 0 →
          pageWalk machine'.memory pml4 virtualAddress &&& PAGE_ADDRESS_MASK = physicalAddress)) ∧
    (∀ other, (mapped = true → virtualPage other ≠ virtualPage virtualAddress) →
      pageWalk machine'.memory pml4 other = pageWalk machine.memory pml4 other ∧
        (NoLarge machine.memory pml4 (tablePath other) →
          pagingPageFlags machine'.memory pml4 other = pagingPageFlags machine.memory pml4 other)) ∧
    ∃ held', AddressSpace map held' machine' pml4 := by
  obtain ⟨held', prepared, space', kept, ⟨rfl, rfl⟩ | ⟨rfl, pt, place, rfl⟩⟩ :=
    mapPage_cases physicalMap space virtualAddress physicalAddress flags small result
  · refine ⟨nofun, fun other _ => ⟨kept.pageWalk other, fun smallOther => ?_⟩, held', space'⟩
    rw [pagingPageFlags_eq smallOther, pagingPageFlags_eq (kept.noLarge (tablePath_short _) smallOther), kept.pageWalk]
  · have smallPrepared := kept.noLarge (tablePath_short _) small
    obtain ⟨space'', self, others, stillSmall⟩ := setEntry_leaf space' place rfl (tableIndex virtualAddress 12)
      ((physicalAddress &&& PAGE_ADDRESS_MASK) ||| flags ||| PAGE_PRESENT)
    refine ⟨fun _ => ⟨self, pagingPageFlags_eq (stillSmall _ (tablePath_short _) smallPrepared), ?_⟩, ?_, held', space''⟩
    · intro aligned physical apart
      rw [pageWalk, self, leaf_address apart, aligned_mask aligned physical]
    · intro other different
      have walked := (others _ rfl (virtualPage_path (different rfl))).trans (kept.pageWalk other)
      refine ⟨walked, fun smallOther => ?_⟩
      have smallOther' := stillSmall _ (tablePath_short _) (kept.noLarge (tablePath_short _) smallOther)
      rw [pagingPageFlags_eq smallOther, pagingPageFlags_eq smallOther']
      exact walked

end Map

/-- A page of an empty address space, with the tables in 64 KiB above the first megabyte. -/
theorem mapPage_law_low : let map : List Descriptor := [⟨7, 0x100000, 16⟩]
    let machine : Machine := ⟨fun _ _ => 0, (frameAllocate (frameAllocatorInitialize map)).1⟩
    let mapped := mapPage machine 0x100000 0x1000 0x5000 PAGE_WRITABLE
    mapped.2 = true ∧ pageWalk mapped.1.memory 0x100000 0x1000 = 0x5003 ∧ ∀ other, virtualPage other ≠ 1 →
        pageWalk mapped.1.memory 0x100000 other = pageWalk machine.memory 0x100000 other := by
  intro map machine mapped
  have physicalMap : PhysicalMap map :=
    ⟨⟨by decide, by decide, List.pairwise_singleton _ _⟩, by decide⟩
  have nothing : ∀ path node, follow leadsTo machine.memory 0x100000 path = some node → path = [] ∧ node = 0x100000 := by
    intro path node found
    cases path with
    | nil => exact ⟨rfl, (Option.some.inj found).symm⟩
    | cons i up =>
      rw [follow_cons] at found
      obtain ⟨_, -, impossible⟩ := Option.bind_eq_some_iff.mp found
      exact nomatch leadsTo_zero.symm.trans impossible
  have space : AddressSpace map [0x100000] machine 0x100000 := by
    refine ⟨by decide, Reached.start.next (by omega) (by decide +kernel), ?_, ?_⟩
    · intro p q node _ _ first second
      rw [(nothing p node first).1, (nothing q node second).1]
    · intro path node _ found
      exact .inl (List.mem_singleton.mpr (nothing path node found).2)
  have done : mapped.2 = true := by decide +kernel
  obtain ⟨self, others, -⟩ := mapPage_law physicalMap space 0x1000 0x5000 PAGE_WRITABLE
    (fun _ _ _ _ _ large => large.1 (Nat.zero_and PAGE_PRESENT)) (rfl : mapPage machine 0x100000 0x1000 0x5000 PAGE_WRITABLE = mapped)
  exact ⟨done, (self done).1.trans (by decide), fun other different => (others other fun _ => different).1⟩

end AsasOs.Memory
