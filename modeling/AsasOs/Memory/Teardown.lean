import AsasOs.Memory.Paging

/-!
# Address spaces

`paging.c`: an address space is a root table with the kernel half of the kernel's, and the
tables and pages that are mapped into its user half. Its teardown walks the user half and
gives every frame back.

## Main result

- `teardown_law`: which frames come back, and what the counter of allocated pages is. The list
  of recycled frames has a bounded capacity, and what finds it full is dropped.
-/
namespace AsasOs.Memory

open RadixTree

def allIndices : List (Fin 512) := List.finRange 512

/-- The entries of a root table from 0 to 255. -/
def userIndices : List (Fin 512) := allIndices.filter (·.val < 256)

/-- `paging_create_address_space`; zero stands for no root table. -/
def pagingCreateAddressSpace (machine : Machine) (kernelPml4 : Nat) : Machine × Nat :=
  match frameAllocate machine.allocator with
  | (allocator, pml4) =>
    if pml4 = 0 then (⟨machine.memory, allocator⟩, 0)
    else
      let memory := clearPage machine.memory pml4
      let copied : PhysicalMemory := fun table index =>
        if table = pml4 ∧ 256 ≤ index.val then memory kernelPml4 index else memory table index
      (⟨copied, allocator⟩, pml4)

/-- One of the nested loops of `paging_destroy_address_space`, over the entries that are left. `below` is the
loop inside. -/
def destroyEntries (below : Machine → Nat → Machine) (table : Nat) : Machine → List (Fin 512) → Machine
  | machine, [] => machine
  | machine, index :: rest =>
    let entry := machine.memory table index
    if entry &&& PAGE_PRESENT = 0 then destroyEntries below table machine rest
    else
      let machine := below machine (entry &&& PAGE_ADDRESS_MASK)
      destroyEntries below table
        ⟨setEntry machine.memory table index 0, frameFree machine.allocator (entry &&& PAGE_ADDRESS_MASK)⟩ rest

/-- The loops below an entry; there is none below an entry of the last level. -/
def destroyBelow : Nat → Machine → Nat → Machine
  | 0, machine, _ => machine
  | levels + 1, machine, table => destroyEntries (destroyBelow levels) table machine allIndices

def pagingDestroyAddressSpace (machine : Machine) (pml4 : Nat) : Machine :=
  if pml4 = 0 then machine
  else
    let machine := destroyEntries (destroyBelow 3) pml4 machine userIndices
    { machine with allocator := frameFree machine.allocator pml4 }

theorem mem_allIndices (index : Fin 512) : index ∈ allIndices := List.mem_finRange index

theorem allIndices_nodup : allIndices.Nodup := List.nodup_finRange 512

theorem mem_userIndices {index : Fin 512} : index ∈ userIndices ↔ index.val < 256 := by
  simp [userIndices, mem_allIndices]

theorem userIndices_nodup : userIndices.Nodup := allIndices_nodup.filter _

/-! ### What the loops visit -/

/-- The frame at the address of an entry that is present. -/
def framed (entry : Nat) : Option Nat :=
  if entry &&& PAGE_PRESENT = 0 then none else some (entry &&& PAGE_ADDRESS_MASK)

theorem framed_absent {entry : Nat} (absent : entry &&& PAGE_PRESENT = 0) :
    framed entry = none := if_pos absent

theorem framed_present {entry : Nat} (present : entry &&& PAGE_PRESENT ≠ 0) :
    framed entry = some (entry &&& PAGE_ADDRESS_MASK) := if_neg present

theorem framed_enters : Enters framed := by
  refine ⟨fun entry flags => ?_, fun entry => framed_absent, fun frame flags aligned physical => ?_⟩
  · unfold framed
    rw [or_user_and (by decide), or_user_and (by decide)]
  · rw [framed_present (created_present aligned), created_address aligned physical]

/-- The frames of an address space, in the order in which they are given back. -/
def spaceFrames (memory : PhysicalMemory) (pml4 : Nat) : List Nat :=
  nodes framed allIndices memory 3 pml4 userIndices ++ [pml4]

/-- The frames that are given back in one loop, with those of the loop inside. -/
def freed (under : PhysicalMemory → Nat → List Nat) (memory : PhysicalMemory) (table : Nat)
    (indices : List (Fin 512)) : List Nat :=
  indices.flatMap fun index =>
    match framed (memory table index) with
    | none => []
    | some next => under memory next ++ [next]

/-- A loop gives back a list of frames, and writes to no other frames. -/
structure Destroys (table : Nat) (frames : List Nat) (before after : Machine) : Prop where
  allocator : after.allocator = frames.foldl frameFree before.allocator
  others : ∀ node, node ≠ table → node ∉ frames → after.memory node = before.memory node

section Loops

variable {below : Machine → Nat → Machine} {under : PhysicalMemory → Nat → List Nat}

theorem freed_congr {memory memory' : PhysicalMemory} {table : Nat} {indices : List (Fin 512)}
    (congr : ∀ next, (∀ node, node = next ∨ node ∈ under memory next → memory' node = memory node) →
      under memory' next = under memory next)
    (here : ∀ index ∈ indices, memory' table index = memory table index)
    (same : ∀ node ∈ freed under memory table indices, memory' node = memory node) :
    freed under memory' table indices = freed under memory table indices := by
  refine List.flatMap_congr fun index member => ?_
  rw [here index member]
  cases entered : framed (memory table index) with
  | none => rfl
  | some next =>
    dsimp only
    rw [congr next]
    intro node part
    refine same node (List.mem_flatMap.mpr ⟨index, member, ?_⟩)
    rw [entered]
    exact List.mem_append.mpr (part.symm.imp_right List.mem_singleton.mpr)

theorem destroyEntries_destroys
    (congr : ∀ memory memory' next, (∀ node, node = next ∨ node ∈ under memory next → memory' node = memory node) →
      under memory' next = under memory next)
    (inside : ∀ machine next, (next :: under machine.memory next).Nodup →
      Destroys next (under machine.memory next) machine (below machine next))
    {table : Nat} (indices : List (Fin 512)) : ∀ machine, indices.Nodup →
    (table :: freed under machine.memory table indices).Nodup →
    Destroys table (freed under machine.memory table indices) machine
      (destroyEntries below table machine indices) := by
  induction indices with
  | nil => exact fun machine _ _ => ⟨rfl, fun _ _ _ => rfl⟩
  | cons index rest ih =>
    intro machine once distinct
    obtain ⟨new, once⟩ := List.nodup_cons.mp once
    rw [destroyEntries]
    dsimp only
    split
    · rename_i absent
      have skipped : freed under machine.memory table (index :: rest) = freed under machine.memory table rest := by
        rw [freed, List.flatMap_cons, framed_absent absent]
        rfl
      rw [skipped] at distinct ⊢
      exact ih machine once distinct
    · rename_i present
      generalize address : machine.memory table index &&& PAGE_ADDRESS_MASK = next
      have taken : freed under machine.memory table (index :: rest) =
          (under machine.memory next ++ [next]) ++ freed under machine.memory table rest := by
        rw [freed, List.flatMap_cons, framed_present present, address]
        rfl
      rw [taken] at distinct ⊢
      obtain ⟨root, all⟩ := List.nodup_cons.mp distinct
      obtain ⟨first, later, apart⟩ := List.nodup_append.mp all
      have first : (next :: under machine.memory next).Nodup :=
        List.nodup_append_comm.mp first
      obtain ⟨freedBelow, untouched⟩ := inside machine next first
      generalize below machine next = inner at freedBelow untouched ⊢
      -- what is left is as it was, since all frames are different ones
      have same : ∀ node, node ≠ table → node ∉ under machine.memory next ++ [next] →
          setEntry inner.memory table index 0 node = machine.memory node := by
        intro node other outside
        rw [List.mem_append, List.mem_singleton, not_or] at outside
        rw [← untouched node outside.2 outside.1]
        funext j
        exact if_neg fun both => other both.1
      have here : ∀ j ∈ rest, setEntry inner.memory table index 0 table j = machine.memory table j := by
        intro j member
        rw [List.mem_append, not_or, List.mem_append, List.mem_singleton, not_or] at root
        rw [← untouched table root.1.2 root.1.1]
        refine if_neg ?_
        rintro ⟨-, rfl⟩
        exact new member
      have unchanged : freed under (setEntry inner.memory table index 0) table rest =
          freed under machine.memory table rest := by
        refine freed_congr (congr _ _) here fun node member => same node ?_ ?_
        · rintro rfl
          exact root (List.mem_append_right _ member)
        · exact fun early => apart node early node member rfl
      have remaining := ih ⟨setEntry inner.memory table index 0, frameFree inner.allocator next⟩ once (by
        rw [unchanged]
        exact List.nodup_cons.mpr ⟨fun member => root (List.mem_append_right _ member), later⟩)
      dsimp only at remaining
      rw [unchanged] at remaining
      refine ⟨?_, fun node other outside => ?_⟩
      · rw [remaining.allocator, List.foldl_append, List.foldl_append, freedBelow]
        rfl
      · rw [List.mem_append, not_or] at outside
        rw [remaining.others node other outside.2]
        exact same node other outside.1

def levelFrames (levels : Nat) (memory : PhysicalMemory) (table : Nat) : List Nat :=
  nodes framed allIndices memory levels table allIndices

theorem nodes_freed (levels : Nat) (memory : PhysicalMemory) (table : Nat) (indices : List (Fin 512)) :
    nodes framed allIndices memory (levels + 1) table indices =
    freed (levelFrames levels) memory table indices := by
  refine List.flatMap_congr fun index _ => ?_
  cases framed (memory table index) with
  | none => rfl
  | some next => rfl

theorem nodes_freed_last (memory : PhysicalMemory) (table : Nat) (indices : List (Fin 512)) :
    nodes framed allIndices memory 0 table indices = freed (fun _ _ => []) memory table indices := by
  refine List.flatMap_congr fun index _ => ?_
  cases framed (memory table index) with
  | none => rfl
  | some next => rfl

theorem levelFrames_congr (levels : Nat) (memory memory' : PhysicalMemory) (next : Nat)
    (same : ∀ node, node = next ∨ node ∈ levelFrames levels memory next → memory' node = memory node) :
    levelFrames levels memory' next = levelFrames levels memory next :=
  nodes_congr levels next allIndices (fun index _ => by rw [same next (.inl rfl)])
    fun node lower => same node (.inr lower)

theorem destroyBelow_destroys : ∀ levels machine table,
    (table :: levelFrames levels machine.memory table).Nodup →
    Destroys table (levelFrames levels machine.memory table) machine (destroyBelow (levels + 1) machine table) := by
  intro levels
  induction levels with
  | zero =>
    intro machine table distinct
    rw [levelFrames, nodes_freed_last] at distinct ⊢
    exact destroyEntries_destroys (fun _ _ _ _ => rfl) (fun _ _ _ => ⟨rfl, fun _ _ _ => rfl⟩) allIndices machine
      allIndices_nodup distinct
  | succ levels ih =>
    intro machine table distinct
    rw [levelFrames, nodes_freed] at distinct ⊢
    exact destroyEntries_destroys (levelFrames_congr levels) ih allIndices machine allIndices_nodup distinct

theorem pagingDestroyAddressSpace_frees {machine : Machine} {pml4 : Nat} (some_root : pml4 ≠ 0)
    (distinct : (spaceFrames machine.memory pml4).Nodup) :
    (pagingDestroyAddressSpace machine pml4).allocator =
      (spaceFrames machine.memory pml4).foldl frameFree machine.allocator := by
  unfold spaceFrames at distinct ⊢
  have distinct := List.nodup_append_comm.mp distinct
  rw [List.singleton_append] at distinct
  rw [nodes_freed] at distinct ⊢
  have loop := destroyEntries_destroys (levelFrames_congr 2) (destroyBelow_destroys 2) userIndices machine
    userIndices_nodup distinct
  rw [List.foldl_append, List.foldl_cons, List.foldl_nil, ← loop.allocator, pagingDestroyAddressSpace,
    if_neg some_root]

end Loops

/-! ### The counter and the list of recycled frames -/

theorem selectRegion_counted (allocator : FrameAllocator) (rest : List Descriptor) :
    (selectRegion allocator rest).1.allocatedPages = allocator.allocatedPages := by
  fun_induction selectRegion allocator rest with
  | case1 => rfl
  | case2 => assumption
  | case3 => rfl
  | case4 => assumption

theorem frameAllocate_counted {map : List Descriptor} (wellFormed : WellFormed map)
    {allocator allocator' : FrameAllocator}
    {held : List Nat} (inv : Inv map allocator held) {frame : Nat}
    (allocated : frameAllocate allocator = (allocator', frame)) :
    allocator'.allocatedPages =
      if frame = 0 then allocator.allocatedPages else (allocator.allocatedPages + 1) % 2 ^ 64 := by
  have nonzero : ∀ {address : Nat}, LOW_MEMORY_RESERVE ≤ address → address ≠ 0 := by
    intro address high
    unfold LOW_MEMORY_RESERVE at high
    omega
  unfold frameAllocate at allocated
  split at allocated
  · rename_i recycled rest list
    cases allocated
    have known := inv.passed frame (list ▸ List.mem_append_right _ List.mem_cons_self)
    rw [if_neg (nonzero known.high)]
  · split at allocated
    · rename_i empty
      have selection := selectRegion_spec (inv.map.symm ▸ wellFormed) empty rfl
      have counted := selectRegion_counted allocator (allocator.memoryMap.drop allocator.descriptorIndex)
      split at allocated
      all_goals
        rename_i selected outcome
        rw [← selectNextRegion, outcome] at selection counted
      · cases allocated
        exact counted
      · cases selection with
        | found same recycled onward some_pages pointed =>
          cases allocated
          rw [if_neg (nonzero pointed.high), ← counted]
    · rename_i some_pages
      cases allocated
      rw [if_neg (nonzero (inv.pointed some_pages).high)]

def allocations : Nat → FrameAllocator → List Nat
  | 0, _ => []
  | count + 1, allocator =>
    match frameAllocate allocator with
    | (allocator, frame) => frame :: allocations count allocator

theorem allocations_recycled (count : Nat) : ∀ allocator :
    FrameAllocator, count ≤ allocator.freeList.length →
    allocations count allocator = allocator.freeList.take count := by
  induction count with
  | zero => exact fun _ _ => rfl
  | succ count ih =>
    intro allocator enough
    rw [allocations, frameAllocate]
    cases list : allocator.freeList with
    | nil =>
      rw [list] at enough
      exact absurd enough (Nat.not_succ_le_zero _)
    | cons frame rest =>
      rw [list] at enough
      rw [List.take_succ_cons]
      exact congrArg (frame :: ·) (ih _ (Nat.le_of_succ_le_succ enough))

theorem foldl_frameFree (frames : List Nat) : ∀ (allocator : FrameAllocator) (room : Nat),
    room = FRAME_FREE_LIST_CAPACITY - allocator.freeList.length →
    (∀ frame ∈ frames, frame ≠ 0 ∧ frame % PAGE_SIZE = 0) →
    (frames.foldl frameFree allocator).freeList = (frames.take room).reverse ++ allocator.freeList ∧
      ((frames.foldl frameFree allocator).allocatedPages + (frames.take room).length) % 2 ^ 64 =
        allocator.allocatedPages % 2 ^ 64 := by
  induction frames with
  | nil =>
    intro allocator room _ _
    rw [List.take_nil]
    exact ⟨rfl, rfl⟩
  | cons frame frames ih =>
    intro allocator room rooms each
    obtain ⟨valid, each⟩ := List.forall_mem_cons.mp each
    have skip : ¬(frame = 0 ∨ frame % PAGE_SIZE ≠ 0) := by
      rintro (zero | odd)
      · exact valid.1 zero
      · exact odd valid.2
    rw [List.foldl_cons]
    cases room with
    | zero =>
      have dropped : frameFree allocator frame = allocator := by rw [frameFree, if_neg skip, if_neg (by omega)]
      rw [dropped, List.take_zero]
      have later := ih allocator 0 rooms each
      rwa [List.take_zero] at later
    | succ room =>
      have recycled : frameFree allocator frame = { allocator with
          freeList := frame :: allocator.freeList
          allocatedPages := (allocator.allocatedPages + 2 ^ 64 - 1) % 2 ^ 64 } := by
        rw [frameFree, if_neg skip, if_pos (by omega)]
      rw [recycled, List.take_succ_cons, List.reverse_cons, List.append_assoc, List.length_cons]
      obtain ⟨list, counter⟩ := ih { allocator with
          freeList := frame :: allocator.freeList
          allocatedPages := (allocator.allocatedPages + 2 ^ 64 - 1) % 2 ^ 64 } room
        (by rw [List.length_cons]; omega) each
      dsimp only at list counter
      refine ⟨list, ?_⟩
      omega

theorem frameFree_counter_lt (allocator : FrameAllocator) (frame : Nat)
    (bound : allocator.allocatedPages < 2 ^ 64) :
    (frameFree allocator frame).allocatedPages < 2 ^ 64 := by
  unfold frameFree
  split
  · exact bound
  · split
    · exact Nat.mod_lt _ (Nat.two_pow_pos 64)
    · exact bound

theorem foldl_counter_lt (frames : List Nat) : ∀ allocator :
    FrameAllocator, allocator.allocatedPages < 2 ^ 64 →
    (frames.foldl frameFree allocator).allocatedPages < 2 ^ 64 := by
  induction frames with
  | nil => exact fun _ bound => bound
  | cons frame frames ih => exact fun allocator bound => ih _ (frameFree_counter_lt allocator frame bound)

/-! ### The user half -/

def userHalf (pml4 : Nat) (memory : PhysicalMemory) : PhysicalMemory := fun table index =>
  if table = pml4 ∧ 256 ≤ index.val then 0 else memory table index

/-- The frame that a path through the user half leads to. -/
abbrev frameAt (pml4 : Nat) (memory : PhysicalMemory) (path : List (Fin 512)) : Option Nat :=
  follow framed (userHalf pml4 memory) pml4 path

section UserHalf

variable {pml4 table : Nat} {index : Fin 512} {memory : PhysicalMemory} {up : List (Fin 512)}

theorem userHalf_user (user : ¬(table = pml4 ∧ 256 ≤ index.val)) :
    userHalf pml4 memory table index = memory table index := if_neg user

theorem userHalf_other (other : table ≠ pml4) : userHalf pml4 memory table = memory table := by
  funext index
  exact userHalf_user fun both => other both.1

theorem userHalf_setEntry (user : ¬(table = pml4 ∧ 256 ≤ index.val)) (entry : Nat) :
    userHalf pml4 (setEntry memory table index entry) = setEntry (userHalf pml4 memory) table index entry := by
  funext n j
  by_cases here : n = table ∧ j = index
  · rw [setEntry, if_pos here, userHalf, here.1, here.2, if_neg user, setEntry, if_pos ⟨rfl, rfl⟩]
  · simp only [setEntry, userHalf, if_neg here]

theorem userHalf_clearPage (frame : Nat) :
    userHalf pml4 (clearPage memory frame) = clearPage (userHalf pml4 memory) frame := by
  funext n j
  by_cases kernel : n = pml4 ∧ 256 ≤ j.val
  · rw [userHalf, if_pos kernel, clearPage, userHalf, if_pos kernel, ite_self]
  · simp only [userHalf, if_neg kernel, clearPage]

theorem frameAt_next (place : frameAt pml4 memory up = some table) :
    frameAt pml4 memory (index :: up) = framed (userHalf pml4 memory table index) := follow_next place

theorem user_entry (tree : Tree framed 4 (userHalf pml4 memory) pml4)
    (place : frameAt pml4 memory up = some table) (shallow : up.length ≤ 4)
    (user : up = [] → index.val < 256) :
    ¬(table = pml4 ∧ 256 ≤ index.val) := by
  rintro ⟨rfl, kernel⟩
  have top := tree up [] table shallow (Nat.zero_le 4) place rfl
  have low := user top
  omega

theorem frameAt_leaf (tree : Tree framed 4 (userHalf pml4 memory) pml4) {virtualAddress : Nat}
    (user : (tableIndex virtualAddress 39).val < 256) :
    frameAt pml4 memory (tableIndex virtualAddress 12 :: tablePath virtualAddress) =
      framed (pagingPageFlags memory pml4 virtualAddress) := by
  have loop : ∀ rest table up, rest.length + up.length = 3 → frameAt pml4 memory up = some table →
      (∀ index, (rest.reverse ++ up).getLast? = some index → index.val < 256) →
      frameAt pml4 memory (tableIndex virtualAddress 12 :: (rest.reverse ++ up)) =
        framed (pageFlagsFrom memory (tableIndex virtualAddress 12) table rest) := by
    intro rest
    induction rest with
    | nil =>
      intro table up long place first
      rw [List.length_nil, Nat.zero_add] at long
      rw [List.reverse_nil, List.nil_append, frameAt_next place, pageFlagsFrom,
        userHalf_user (user_entry tree place (by omega) fun top => by rw [top] at long; cases long)]
    | cons index rest ih =>
      intro table up long place first
      rw [List.length_cons] at long
      rw [List.reverse_cons, List.append_assoc, List.singleton_append] at first ⊢
      have entry : userHalf pml4 memory table index = memory table index := by
        refine userHalf_user (user_entry tree place (by omega) ?_)
        rintro rfl
        exact first index List.getLast?_concat
      have next : frameAt pml4 memory (index :: up) = framed (memory table index) :=
        (frameAt_next place).trans (congrArg framed entry)
      rw [pageFlagsFrom]
      split
      · rename_i absent
        rw [framed_absent absent] at next
        exact follow_blocked next (_ :: rest.reverse)
      · rename_i present
        exact ih _ (index :: up) (by rw [List.length_cons]; omega) (next.trans (framed_present present)) first
  refine loop [tableIndex virtualAddress 39, tableIndex virtualAddress 30, tableIndex virtualAddress 21] pml4 [] rfl
    rfl ?_
  intro index last
  rw [← Option.some.inj last]
  exact user

end UserHalf

/-! ### What an address space owns -/

/-- The frames that have been handed out are those of `before`, which others hold, those of `taken`, which are
not mapped, and those of the address space. The latter are different for different paths. -/
structure Owned (map : List Descriptor) (start : FrameAllocator) (before taken held : List Nat) (machine : Machine)
    (pml4 : Nat) : Prop where
  reached : Reached map machine.allocator held
  counted : (machine.allocator.allocatedPages + before.length) % 2 ^ 64 = (start.allocatedPages + held.length) % 2 ^ 64
  tree : Tree framed 4 (userHalf pml4 machine.memory) pml4
  members : ∀ frame, frame ∈ held ↔ frame ∈ taken ∨ frame ∈ before ∨
    ∃ path, path.length ≤ 4 ∧ frameAt pml4 machine.memory path = some frame
  apart : ∀ path frame, path.length ≤ 4 → frameAt pml4 machine.memory path = some frame →
    frame ∉ taken ∧ frame ∉ before
  distinct : (taken ++ before).Nodup

section Owned

variable {map : List Descriptor} {start : FrameAllocator} {before taken held : List Nat} {machine machine' : Machine}
  {pml4 : Nat}

theorem Owned.same (owned : Owned map start before taken held machine pml4)
    (paths : ∀ path, path.length ≤ 4 → frameAt pml4 machine'.memory path = frameAt pml4 machine.memory path)
    (reached : Reached map machine'.allocator held)
    (counted : machine'.allocator.allocatedPages = machine.allocator.allocatedPages) :
    Owned map start before taken held machine' pml4 := by
  refine ⟨reached, counted ▸ owned.counted, ?_, fun frame => (owned.members frame).trans ?_, ?_, owned.distinct⟩
  · intro p q node shortP shortQ first second
    exact owned.tree p q node shortP shortQ ((paths p shortP).symm.trans first) ((paths q shortQ).symm.trans second)
  · refine or_congr_right (or_congr_right (exists_congr fun path => and_congr_right fun short => ?_))
    rw [paths path short]
  · exact fun path frame short found => owned.apart path frame short ((paths path short).symm.trans found)

theorem Owned.handed (physicalMap : PhysicalMap map)
    (owned : Owned map start before taken held machine pml4)
    {allocator : FrameAllocator} {frame : Nat}
    (allocated : frameAllocate machine.allocator = (allocator, frame))
    (some_frame : frame ≠ 0) :
    Reached map allocator (frame :: held) ∧ Usable map frame ∧ frame ∉ held ∧
      (allocator.allocatedPages + before.length) % 2 ^ 64 = (start.allocatedPages + (frame :: held).length) % 2 ^ 64 := by
  have inv := owned.reached.inv physicalMap.toWellFormed
  obtain ⟨fresh, usable, -⟩ := (frameAllocate_inv physicalMap.toWellFormed inv allocated).1 some_frame
  have reached := owned.reached.allocate allocated
  rw [if_neg some_frame] at reached
  have counted := frameAllocate_counted physicalMap.toWellFormed inv allocated
  rw [if_neg some_frame] at counted
  refine ⟨reached, usable, fresh, ?_⟩
  have earlier := owned.counted
  rw [counted, List.length_cons]
  omega

theorem Owned.refused (physicalMap : PhysicalMap map)
    (owned : Owned map start before taken held machine pml4)
    {allocator : FrameAllocator} (allocated : frameAllocate machine.allocator = (allocator, 0)) :
    Owned map start before taken held ⟨machine.memory, allocator⟩ pml4 :=
  owned.same (fun _ _ => rfl) (owned.reached.allocate allocated)
    (frameAllocate_counted physicalMap.toWellFormed (owned.reached.inv physicalMap.toWellFormed) allocated)

theorem Owned.allocate (physicalMap : PhysicalMap map)
    (owned : Owned map start before taken held machine pml4)
    {allocator : FrameAllocator} {frame : Nat}
    (allocated : frameAllocate machine.allocator = (allocator, frame))
    (some_frame : frame ≠ 0) :
    Owned map start before (frame :: taken) (frame :: held) ⟨machine.memory, allocator⟩ pml4 := by
  obtain ⟨reached, -, fresh, counted⟩ := owned.handed physicalMap allocated some_frame
  have unknown := (not_congr (owned.members frame)).mp fresh
  refine ⟨reached, counted, owned.tree, fun other => ?_, ?_, ?_⟩
  · rw [List.mem_cons, owned.members other, List.mem_cons, or_assoc]
  · intro path other short found
    obtain ⟨untaken, foreign⟩ := owned.apart path other short found
    refine ⟨?_, foreign⟩
    rw [List.mem_cons, not_or]
    refine ⟨?_, untaken⟩
    rintro rfl
    exact unknown (.inr (.inr ⟨path, short, found⟩))
  · rw [List.cons_append]
    refine List.nodup_cons.mpr ⟨fun known => unknown ?_, owned.distinct⟩
    exact (List.mem_append.mp known).imp_right .inl

theorem Owned.nextTable (physicalMap : PhysicalMap map)
    (owned : Owned map start before taken held machine pml4)
    {table : Nat} {up : List (Fin 512)} (place : frameAt pml4 machine.memory up = some table)
    (shallow : up.length < 3)
    {index : Fin 512} (user : up = [] → index.val < 256) {flags next : Nat}
    (result : nextTable machine table index flags = (machine', next)) :
    ∃ held', Owned map start before taken held' machine' pml4 ∧
      (∀ path, path.length = 4 → frameAt pml4 machine'.memory path = frameAt pml4 machine.memory path) ∧
      (next ≠ 0 → frameAt pml4 machine'.memory (index :: up) = some next) := by
  have low : ¬(table = pml4 ∧ 256 ≤ index.val) := user_entry owned.tree place (by omega) user
  have entry : userHalf pml4 machine.memory table index = machine.memory table index := userHalf_user low
  have outcome := nextTable_cases machine table index flags
  rw [result] at outcome
  cases outcome with
  | present present =>
    have same : ∀ path, frameAt pml4 (setEntry machine.memory table index
        (machine.memory table index ||| (flags &&& ASAS_PAGE_USER))) path = frameAt pml4 machine.memory path := by
      intro path
      unfold frameAt
      rw [userHalf_setEntry low, ← entry]
      exact follow_same (framed_enters.setEntry_user flags) path
    refine ⟨held, owned.same (fun path _ => same path) owned.reached rfl, fun path _ => same path, fun _ => ?_⟩
    exact (same _).trans ((frameAt_next place).trans ((congrArg framed entry).trans (framed_present present)))
  | full absent allocated =>
    exact ⟨held, owned.refused physicalMap allocated, fun _ _ => rfl, fun some_table => absurd rfl some_table⟩
  | created absent allocated some_frame =>
    obtain ⟨reached, usable, fresh, counted⟩ := owned.handed physicalMap allocated some_frame
    have unknown := (not_congr (owned.members next)).mp fresh
    have grown := framed_enters.grown place (Nat.lt_succ_of_lt shallow) (entry.symm ▸ absent) usable.aligned
      (usable.physical physicalMap) (fun path short found => unknown (.inr (.inr ⟨path, short, found⟩))) flags
    rw [← userHalf_clearPage, ← userHalf_setEntry low] at grown
    refine ⟨next :: held, ⟨reached, counted, grown.tree' owned.tree, fun frame => ?_, ?_, owned.distinct⟩, ?_,
      fun _ => grown.follow_new owned.tree⟩
    · rw [List.mem_cons, owned.members frame]
      constructor
      · rintro (rfl | taken | foreign | ⟨path, short, found⟩)
        · exact .inr (.inr ⟨index :: up, by rw [List.length_cons]; omega, grown.follow_new owned.tree⟩)
        · exact .inl taken
        · exact .inr (.inl foreign)
        · refine .inr (.inr ⟨path, short, ?_⟩)
          refine (grown.follow_other owned.tree short ?_).trans found
          rintro rfl
          have nothing := (frameAt_next place).symm.trans found
          rw [entry, framed_absent absent] at nothing
          exact nomatch nothing
      · rintro (taken | foreign | ⟨path, short, found⟩)
        · exact .inr (.inl taken)
        · exact .inr (.inr (.inl foreign))
        · rcases grown.follow_cases owned.tree short found with ⟨-, rfl⟩ | ⟨-, earlier⟩
          · exact .inl rfl
          · exact .inr (.inr (.inr ⟨path, short, earlier⟩))
    · intro path frame short found
      rcases grown.follow_cases owned.tree short found with ⟨-, rfl⟩ | ⟨-, earlier⟩
      · exact ⟨fun member => unknown (.inl member), fun member => unknown (.inr (.inl member))⟩
      · exact owned.apart path frame short earlier
    · intro path long
      refine grown.follow_other owned.tree (Nat.le_of_eq long) ?_
      rintro rfl
      rw [List.length_cons] at long
      omega

theorem Owned.levels (physicalMap : PhysicalMap map)
    (owned : Owned map start before taken held machine pml4)
    {virtualAddress physicalAddress flags : Nat} (user : (tableIndex virtualAddress 39).val < 256)
    {mapped : Bool}
    (result : mapPage machine pml4 virtualAddress physicalAddress flags = (machine', mapped)) :
    mapped = false ∧ (∃ held', Owned map start before taken held' machine' pml4) ∨
      mapped = true ∧ ∃ pt prepared held', Owned map start before taken held' prepared pml4 ∧
        (∀ path, path.length = 4 → frameAt pml4 prepared.memory path = frameAt pml4 machine.memory path) ∧
        frameAt pml4 prepared.memory (tablePath virtualAddress) = some pt ∧
        machine' = { prepared with
          memory := setEntry prepared.memory pt (tableIndex virtualAddress 12)
            ((physicalAddress &&& PAGE_ADDRESS_MASK) ||| flags ||| PAGE_PRESENT) } := by
  have levels := @mapPage_levels
    (fun up table after => ∃ held', Owned map start before taken held' after pml4 ∧
      (∀ path, path.length = 4 → frameAt pml4 after.memory path = frameAt pml4 machine.memory path) ∧
      frameAt pml4 after.memory up = some table)
    (fun after => ∃ held', Owned map start before taken held' after pml4)
    machine machine' pml4 virtualAddress physicalAddress flags ⟨held, owned⟩ ⟨held, owned, fun _ _ => rfl, rfl⟩
    ?_ mapped result
  · rcases levels with stopped | ⟨done, pt, prepared, ⟨held', owned', kept, place⟩, written⟩
    · exact .inl stopped
    · exact .inr ⟨done, pt, prepared, held', owned', kept, place, written⟩
  · rintro between after table next index up part ⟨held', owned', kept, place⟩ outcome
    have shallow : up.length < 3 := part.length_le
    have top : up = [] → index.val < 256 := by
      rintro rfl
      obtain ⟨front, equal⟩ := part
      have last := congrArg List.getLast? equal
      rw [List.getLast?_concat] at last
      rw [Option.some.inj last]
      exact user
    obtain ⟨held'', owned'', kept', onward⟩ := owned'.nextTable physicalMap place shallow top outcome
    exact ⟨⟨held'', owned''⟩, fun some_table =>
      ⟨held'', owned'', fun path long => (kept' path long).trans (kept path long), onward some_table⟩⟩

theorem Owned.put (physicalMap : PhysicalMap map)
    (owned : Owned map start before taken held machine pml4)
    {frame : Nat} (free : frame ∈ taken) {pt : Nat} {up : List (Fin 512)}
    (place : frameAt pml4 machine.memory up = some pt) (deep : up.length = 3) (index : Fin 512)
    {flags : Nat}
    (apart : flags &&& PAGE_ADDRESS_MASK = 0) :
    Owned map start before ((frameAt pml4 machine.memory (index :: up)).toList ++ taken.erase frame) held
      { machine with
        memory := setEntry machine.memory pt index ((frame &&& PAGE_ADDRESS_MASK) ||| flags ||| PAGE_PRESENT) }
      pml4 := by
  have low : ¬(pt = pml4 ∧ 256 ≤ index.val) :=
    user_entry owned.tree place (by omega) fun top => by rw [top] at deep; exact absurd deep nofun
  have usable : Usable map frame := by
    have inv := owned.reached.inv physicalMap.toWellFormed
    have known := inv.passed frame (List.mem_append_left _ ((owned.members frame).mpr (.inl free)))
    exact inv.map ▸ known.usable
  have leads : framed ((frame &&& PAGE_ADDRESS_MASK) ||| flags ||| PAGE_PRESENT) = some frame := by
    rw [framed_present, leaf_address apart, aligned_mask usable.aligned (usable.physical physicalMap)]
    rw [Nat.and_or_distrib_right]
    intro zero
    have bit := (Nat.or_eq_zero_iff.mp zero).2
    exact absurd bit (by decide)
  have written : ∀ path, frameAt pml4 (setEntry machine.memory pt index
      ((frame &&& PAGE_ADDRESS_MASK) ||| flags ||| PAGE_PRESENT)) path =
      follow framed (setEntry (userHalf pml4 machine.memory) pt index
        ((frame &&& PAGE_ADDRESS_MASK) ||| flags ||| PAGE_PRESENT)) pml4 path := by
    intro path
    unfold frameAt
    rw [userHalf_setEntry low]
  have entered : framed (setEntry (userHalf pml4 machine.memory) pt index
      ((frame &&& PAGE_ADDRESS_MASK) ||| flags ||| PAGE_PRESENT) pt index) = some frame :=
    (congrArg framed (if_pos ⟨rfl, rfl⟩)).trans leads
  have others : ∀ n j, ¬(n = pt ∧ j = index) → setEntry (userHalf pml4 machine.memory) pt index
      ((frame &&& PAGE_ADDRESS_MASK) ||| flags ||| PAGE_PRESENT) n j = userHalf pml4 machine.memory n j :=
    fun n j other => if_neg other
  have deeper : up.length + 1 = 4 := by omega
  have paths := follow_put owned.tree place deeper entered others
  have short₀ : (index :: up).length ≤ 4 := by rw [List.length_cons]; omega
  have new := (paths (index :: up) short₀).1 rfl
  have distinctTaken := (List.nodup_append.mp owned.distinct).1
  refine ⟨owned.reached, owned.counted, ?_, fun other => ⟨?_, ?_⟩, ?_, ?_⟩
  · rw [userHalf_setEntry low]
    exact tree_put owned.tree place deeper entered others
      fun q short _ found => (owned.apart q frame short found).1 free
  · intro member
    rcases (owned.members other).mp member with known | foreign | ⟨path, short, found⟩
    · by_cases same : other = frame
      · exact .inr (.inr ⟨index :: up, short₀, (written _).trans (same ▸ new)⟩)
      · exact .inl (List.mem_append_right _ ((List.mem_erase_of_ne same).mpr known))
    · exact .inr (.inl foreign)
    · by_cases leaf : path = index :: up
      · subst leaf
        exact .inl (List.mem_append_left _ (Option.mem_toList.mpr found))
      · exact .inr (.inr ⟨path, short, (written path).trans (((paths path short).2 leaf).trans found)⟩)
  · rintro (known | foreign | ⟨path, short, found⟩)
    · rcases List.mem_append.mp known with old | erased
      · exact (owned.members other).mpr (.inr (.inr ⟨index :: up, short₀, Option.mem_toList.mp old⟩))
      · exact (owned.members other).mpr (.inl (List.mem_of_mem_erase erased))
    · exact (owned.members other).mpr (.inr (.inl foreign))
    · have found := (written path).symm.trans found
      rcases put_cases owned.tree place deeper entered others short found with ⟨-, rfl⟩ | ⟨-, found⟩
      · exact (owned.members other).mpr (.inl free)
      · exact (owned.members other).mpr (.inr (.inr ⟨path, short, found⟩))
  · intro path other short found
    have found := (written path).symm.trans found
    rcases put_cases owned.tree place deeper entered others short found with ⟨-, rfl⟩ | ⟨elsewhere, found⟩
    · refine ⟨fun known => ?_, fun foreign => (List.nodup_append.mp owned.distinct).2.2 _ free _ foreign rfl⟩
      rcases List.mem_append.mp known with old | erased
      · exact (owned.apart _ _ short₀ (Option.mem_toList.mp old)).1 free
      · exact distinctTaken.not_mem_erase erased
    · obtain ⟨untaken, foreign⟩ := owned.apart path other short found
      refine ⟨fun known => ?_, foreign⟩
      rcases List.mem_append.mp known with old | erased
      · exact elsewhere (owned.tree _ _ other short short₀ found (Option.mem_toList.mp old))
      · exact untaken (List.mem_of_mem_erase erased)
  · rw [List.append_assoc]
    have rest : (taken.erase frame ++ before).Nodup :=
      owned.distinct.sublist (List.erase_sublist.append (List.Sublist.refl before))
    refine List.nodup_append.mpr ⟨?_, rest, ?_⟩
    · cases frameAt pml4 machine.memory (index :: up) with
      | none => exact List.nodup_nil
      | some old => exact List.nodup_singleton old
    · rintro old led _ known rfl
      obtain ⟨untaken, foreign⟩ := owned.apart _ old short₀ (Option.mem_toList.mp led)
      rcases List.mem_append.mp known with erased | other
      · exact untaken (List.mem_of_mem_erase erased)
      · exact foreign other

/-! ### The frames of an address space -/

theorem root_only {entries : PhysicalMemory} (empty : ∀ index, userHalf pml4 entries pml4 index = 0) :
    ∀ path table, frameAt pml4 entries path = some table → path = [] ∧ table = pml4 := by
  intro path
  induction path with
  | nil => exact fun table found => ⟨rfl, (Option.some.inj found).symm⟩
  | cons index up ih =>
    intro table found
    cases place : frameAt pml4 entries up with
    | none => exact nomatch (follow_blocked place [index]).symm.trans found
    | some above =>
      obtain ⟨-, rfl⟩ := ih above place
      rw [frameAt_next place, empty index] at found
      exact nomatch found

theorem Owned.root_above (owned : Owned map start before taken held machine pml4) :
    pml4 ∉ nodes framed allIndices (userHalf pml4 machine.memory) 3 pml4 userIndices := by
  intro lower
  obtain ⟨path, index, -, short, found⟩ := (mem_nodes mem_allIndices 3 pml4 [] userIndices rfl).mp lower
  have top := owned.tree (path ++ [index]) [] pml4 (by rw [List.length_append, List.length_singleton]; omega)
    (Nat.zero_le 4) found rfl
  exact absurd top (List.append_ne_nil_of_right_ne_nil path (List.cons_ne_nil index []))

theorem Owned.nodes_userHalf (owned : Owned map start before taken held machine pml4) :
    nodes framed allIndices machine.memory 3 pml4 userIndices =
      nodes framed allIndices (userHalf pml4 machine.memory) 3 pml4 userIndices := by
  refine nodes_congr 3 pml4 userIndices (fun index low => ?_) fun node lower => ?_
  · exact (userHalf_user fun both => absurd (mem_userIndices.mp low) (Nat.not_lt.mpr both.2)).symm
  · refine (userHalf_other ?_).symm
    rintro rfl
    exact owned.root_above lower

theorem Owned.mem_spaceFrames (owned : Owned map start before taken held machine pml4) (frame : Nat) :
    frame ∈ spaceFrames machine.memory pml4 ↔
      ∃ path, path.length ≤ 4 ∧ frameAt pml4 machine.memory path = some frame := by
  rw [spaceFrames, owned.nodes_userHalf, List.mem_append, List.mem_singleton,
    mem_nodes mem_allIndices 3 pml4 [] userIndices rfl]
  constructor
  · rintro (⟨path, index, -, short, found⟩ | rfl)
    · exact ⟨path ++ [index], by rw [List.length_append, List.length_singleton]; omega, found⟩
    · exact ⟨[], Nat.zero_le 4, rfl⟩
  · rintro ⟨path, short, found⟩
    rcases List.eq_nil_or_concat path with rfl | ⟨front, index, rfl⟩
    · exact .inr (Option.some.inj found).symm
    · rw [List.concat_eq_append] at found short
      rw [List.length_append, List.length_singleton] at short
      refine .inl ⟨front, index, mem_userIndices.mpr (Nat.lt_of_not_le fun kernel => ?_), by omega, found⟩
      have blocked : frameAt pml4 machine.memory [index] = none :=
        (follow_next rfl).trans (congrArg framed (if_pos ⟨rfl, kernel⟩))
      exact nomatch (follow_blocked blocked front).symm.trans found

theorem Owned.spaceFrames_nodup (owned : Owned map start before taken held machine pml4) :
    (spaceFrames machine.memory pml4).Nodup := by
  rw [spaceFrames, owned.nodes_userHalf]
  refine List.nodup_append.mpr ⟨nodes_nodup mem_allIndices allIndices_nodup owned.tree 3 pml4 [] userIndices rfl
    userIndices_nodup (by decide), List.nodup_singleton pml4, ?_⟩
  rintro node lower root member rfl
  obtain rfl := List.mem_singleton.mp member
  exact owned.root_above lower

theorem Owned.perm (physicalMap : PhysicalMap map)
    (owned : Owned map start before taken held machine pml4) :
    held.Perm (taken ++ spaceFrames machine.memory pml4 ++ before) := by
  have handed : held.Nodup := (List.nodup_append.mp (owned.reached.inv physicalMap.toWellFormed).distinct).1
  obtain ⟨once, onceBefore, foreign⟩ := List.nodup_append.mp owned.distinct
  have all : (taken ++ spaceFrames machine.memory pml4 ++ before).Nodup := by
    refine List.nodup_append.mpr ⟨List.nodup_append.mpr ⟨once, owned.spaceFrames_nodup, ?_⟩, onceBefore, ?_⟩
    · rintro frame free _ part rfl
      obtain ⟨path, short, found⟩ := (owned.mem_spaceFrames frame).mp part
      exact (owned.apart path frame short found).1 free
    · rintro frame member _ other rfl
      rcases List.mem_append.mp member with free | part
      · exact foreign frame free frame other rfl
      · obtain ⟨path, short, found⟩ := (owned.mem_spaceFrames frame).mp part
        exact (owned.apart path frame short found).2 other
  refine (List.perm_ext_iff_of_nodup handed all).mpr fun frame => ?_
  rw [owned.members, List.mem_append, List.mem_append, owned.mem_spaceFrames, or_assoc]
  exact or_congr_right or_comm

end Owned

/-! ### Address spaces that are populated -/

/-- An address space after any number of mappings into its user half, with the frames that are allocated for it
and not mapped. A frame that is displaced by another one is such a frame again. Everything but the tables may be
written. -/
inductive Populated (start : Machine) (pml4 : Nat) : Machine → List Nat → Prop
  | created : Populated start pml4 start []
  | allocated {machine : Machine} {taken : List Nat} {allocator : FrameAllocator} {frame : Nat}
      (earlier : Populated start pml4 machine taken)
      (handed : frameAllocate machine.allocator = (allocator, frame)) :
      Populated start pml4 ⟨machine.memory, allocator⟩ (if frame = 0 then taken else frame :: taken)
  | mapped {machine machine' : Machine} {taken : List Nat} {virtualAddress frame flags : Nat}
      (earlier : Populated start pml4 machine taken) (free : frame ∈ taken) (user : virtualAddress < 2 ^ 47)
      (bits : flags &&& PAGE_ADDRESS_MASK = 0)
      (result : mapPage machine pml4 virtualAddress frame flags = (machine', true)) :
      Populated start pml4 machine'
        ((framed (pagingPageFlags machine.memory pml4 virtualAddress)).toList ++ taken.erase frame)
  | failed {machine machine' : Machine} {taken : List Nat} {virtualAddress frame flags : Nat}
      (earlier : Populated start pml4 machine taken) (user : virtualAddress < 2 ^ 47)
      (result : mapPage machine pml4 virtualAddress frame flags = (machine', false)) :
      Populated start pml4 machine' taken
  | written {machine : Machine} {taken : List Nat} {memory : PhysicalMemory}
      (earlier : Populated start pml4 machine taken)
      (tables : ∀ path table, path.length < 4 → frameAt pml4 machine.memory path = some table →
        memory table = machine.memory table) :
      Populated start pml4 ⟨memory, machine.allocator⟩ taken

theorem user_index {virtualAddress : Nat} (user : virtualAddress < 2 ^ 47) :
    (tableIndex virtualAddress 39).val < 256 := by
  rw [tableIndex_val]
  omega

section Populated

variable {map : List Descriptor} {before taken : List Nat} {machine machine' start : Machine} {pml4 kernelPml4 : Nat}

theorem created_owned (physicalMap : PhysicalMap map) (reached : Reached map machine.allocator before)
    (created : pagingCreateAddressSpace machine kernelPml4 = (start, pml4)) (some_root : pml4 ≠ 0) :
    Owned map machine.allocator before [] (pml4 :: before) start pml4 := by
  obtain ⟨allocator, frame, allocated⟩ : ∃ allocator frame,
    frameAllocate machine.allocator = (allocator, frame) := ⟨_, _, rfl⟩
  unfold pagingCreateAddressSpace at created
  rw [allocated] at created
  dsimp only at created
  split at created
  · cases created
    exact absurd rfl some_root
  cases created
  have inv := reached.inv physicalMap.toWellFormed
  have fresh := ((frameAllocate_inv physicalMap.toWellFormed inv allocated).1 some_root).1
  have later := reached.allocate allocated
  have counted := frameAllocate_counted physicalMap.toWellFormed inv allocated
  rw [if_neg some_root] at later counted
  have only := @root_only pml4 (fun table index =>
      if table = pml4 ∧ 256 ≤ index.val then clearPage machine.memory pml4 kernelPml4 index
      else clearPage machine.memory pml4 table index) fun index => by
    by_cases kernel : 256 ≤ index.val
    · exact if_pos ⟨rfl, kernel⟩
    · exact (if_neg fun both => kernel both.2).trans ((if_neg fun both => kernel both.2).trans (if_pos rfl))
  refine ⟨later, ?_, ?_, fun frame => ?_, ?_, (List.nodup_append.mp inv.distinct).1⟩
  · rw [counted, List.length_cons]
    omega
  · intro p q node _ _ first second
    rw [(only p node first).1, (only q node second).1]
  · rw [List.mem_cons]
    constructor
    · rintro (rfl | foreign)
      · exact .inr (.inr ⟨[], Nat.zero_le 4, rfl⟩)
      · exact .inr (.inl foreign)
    · rintro (none_taken | foreign | ⟨path, -, found⟩)
      · exact absurd none_taken List.not_mem_nil
      · exact .inr foreign
      · exact .inl (only path frame found).2
  · intro path frame _ found
    obtain ⟨-, rfl⟩ := only path frame found
    exact ⟨List.not_mem_nil, fresh⟩

theorem populated_owned (physicalMap : PhysicalMap map) {counter : FrameAllocator}
    (created : Owned map counter before [] (pml4 :: before) start pml4)
    (populated : Populated start pml4 machine taken) :
    ∃ held, Owned map counter before taken held machine pml4 := by
  induction populated with
  | created => exact ⟨_, created⟩
  | allocated earlier handed ih =>
    obtain ⟨held, owned⟩ := ih
    split
    · rename_i zero
      subst zero
      exact ⟨held, owned.refused physicalMap handed⟩
    · rename_i some_frame
      exact ⟨_, owned.allocate physicalMap handed some_frame⟩
  | mapped earlier free user bits result ih =>
    obtain ⟨held, owned⟩ := ih
    have leaf := frameAt_leaf owned.tree (user_index user)
    rcases owned.levels physicalMap (user_index user) result with ⟨failed, -⟩ | ⟨-, pt, prepared, held', owned', kept,
      place, rfl⟩
    · exact absurd failed nofun
    · rw [← leaf, ← kept _ rfl]
      exact ⟨held', owned'.put physicalMap free place rfl _ bits⟩
  | failed earlier user result ih =>
    obtain ⟨held, owned⟩ := ih
    rcases owned.levels physicalMap (user_index user) result with ⟨-, stopped⟩ | ⟨done, -⟩
    · exact stopped
    · exact absurd done nofun
  | written earlier tables ih =>
    obtain ⟨held, owned⟩ := ih
    refine ⟨held, owned.same (follow_frame fun path table shallow found => ?_) owned.reached rfl⟩
    funext index
    unfold userHalf
    split
    · rfl
    · exact congrFun (tables path table shallow found) index

theorem counter_lt (physicalMap : PhysicalMap map) {allocator : FrameAllocator} {held : List Nat}
    (reached : Reached map allocator held) : allocator.allocatedPages < 2 ^ 64 := by
  induction reached with
  | start => exact Nat.two_pow_pos 64
  | allocate before allocated ih =>
    rw [frameAllocate_counted physicalMap.toWellFormed (before.inv physicalMap.toWellFormed) allocated]
    split
    · exact ih
    · exact Nat.mod_lt _ (Nat.two_pow_pos 64)
  | free before holds ih => exact frameFree_counter_lt _ _ ih

theorem teardown_frees (physicalMap : PhysicalMap map) {counter : FrameAllocator} {held : List Nat}
    (owned : Owned map counter before taken held machine pml4) (some_root : pml4 ≠ 0) {room : Nat}
    (rooms : room = FRAME_FREE_LIST_CAPACITY - machine.allocator.freeList.length) :
    let frames := spaceFrames machine.memory pml4
    let after := (pagingDestroyAddressSpace machine pml4).allocator
    after.freeList = (frames.take room).reverse ++ machine.allocator.freeList ∧
      after.allocatedPages = (counter.allocatedPages + taken.length + (frames.length - room)) % 2 ^ 64 := by
  intro frames after
  have frees : after = frames.foldl frameFree machine.allocator :=
    pagingDestroyAddressSpace_frees some_root owned.spaceFrames_nodup
  have inv := owned.reached.inv physicalMap.toWellFormed
  have perm := owned.perm physicalMap
  have valid : ∀ frame ∈ frames, frame ≠ 0 ∧ frame % PAGE_SIZE = 0 := by
    intro frame member
    have known := inv.passed frame (List.mem_append_left _
      (perm.mem_iff.mpr (List.mem_append_left _ (List.mem_append_right _ member))))
    have high := known.high
    unfold LOW_MEMORY_RESERVE at high
    exact ⟨by omega, Nat.mod_eq_zero_of_dvd known.aligned⟩
  obtain ⟨list, count⟩ := foldl_frameFree frames machine.allocator room rooms valid
  rw [frees]
  refine ⟨list, ?_⟩
  have bound : (frames.foldl frameFree machine.allocator).allocatedPages < 2 ^ 64 :=
    foldl_counter_lt frames machine.allocator (counter_lt physicalMap owned.reached)
  have lengths := perm.length_eq
  rw [List.length_append, List.length_append] at lengths
  have counted := owned.counted
  rw [List.length_take] at count
  change held.length = taken.length + frames.length + before.length at lengths
  omega

/-- **Teardown**: the frames that have been handed out since the address space was created are those of the
address space, once each, and those that are not mapped. As many frames of the address space as the list of recycled
frames has room for come back from it, and are no longer counted. If it has room for all, every frame can be
allocated again, and the counter is what it was before the address space was created. -/
theorem teardown_law (physicalMap : PhysicalMap map) (reached : Reached map machine.allocator before)
    (created : pagingCreateAddressSpace machine kernelPml4 = (start, pml4)) (some_root : pml4 ≠ 0)
    (populated : Populated start pml4 machine' taken) {room : Nat}
    (rooms : room = FRAME_FREE_LIST_CAPACITY - machine'.allocator.freeList.length) :
    let frames := spaceFrames machine'.memory pml4
    let after := (pagingDestroyAddressSpace machine' pml4).allocator
    (∃ held, Reached map machine'.allocator held ∧ held.Perm (taken ++ frames ++ before)) ∧
      allocations (frames.take room).length after = (frames.take room).reverse ∧
      after.allocatedPages = (machine.allocator.allocatedPages + taken.length + (frames.length - room)) % 2 ^ 64 ∧
      (frames.length ≤ room → allocations frames.length after = frames.reverse ∧
        (taken = [] → after.allocatedPages = machine.allocator.allocatedPages)) := by
  intro frames after
  obtain ⟨held, owned⟩ := populated_owned physicalMap (created_owned physicalMap reached created some_root) populated
  obtain ⟨list, count⟩ := teardown_frees physicalMap owned some_root rooms
  have again : allocations (frames.take room).length after = (frames.take room).reverse := by
    have enough : (frames.take room).length ≤ after.freeList.length := by
      rw [list, List.length_append, List.length_reverse]
      exact Nat.le_add_right _ _
    rw [allocations_recycled _ after enough, list]
    exact List.take_left' List.length_reverse
  refine ⟨⟨held, owned.reached, owned.perm physicalMap⟩, again, count, fun fits => ?_⟩
  rw [List.take_of_length_le fits] at again
  refine ⟨again, fun none_taken => ?_⟩
  have bound := counter_lt physicalMap reached
  subst none_taken
  rw [count, List.length_nil, Nat.sub_eq_zero_of_le fits]
  exact Nat.mod_eq_of_lt bound

end Populated

/-! ### An address space that is too large -/

theorem nextTable_kept {machine : Machine} {table entry next flags : Nat} {index : Fin 512}
    (there : machine.memory table index = entry) (present : entry &&& PAGE_PRESENT ≠ 0)
    (address : entry &&& PAGE_ADDRESS_MASK = next) (user : flags &&& ASAS_PAGE_USER = 0) :
    nextTable machine table index flags = (machine, next) := by
  have same : setEntry machine.memory table index entry = machine.memory := by
    funext n j
    unfold setEntry
    split
    · rename_i here
      rw [here.1, here.2, there]
    · rfl
  rw [nextTable, there, if_pos present]
  dsimp only
  rw [user, Nat.or_zero, same, address]

/-- A memory map with 300 pages, and no kernel half. -/
def largeMap : List Descriptor := [⟨7, 0x100000, 300⟩]

def bootMachine : Machine := ⟨fun _ _ => 0, frameAllocatorInitialize largeMap⟩

def emptySpace : Machine := (pagingCreateAddressSpace bootMachine 0).1

/-- The pages at the lowest addresses are mapped, in one table. -/
structure Filled (count : Nat) (machine : Machine) : Prop where
  populated : Populated emptySpace 0x100000 machine []
  root : machine.memory 0x100000 0 = 0x102003
  pdpt : machine.memory 0x102000 0 = 0x103003
  pd : machine.memory 0x103000 0 = 0x104003
  unmapped : ∀ index : Fin 512, count ≤ index.val → machine.memory 0x104000 index = 0
  recycled : machine.allocator.freeList = []
  next : machine.allocator.nextFrame = 0x104000 + count * PAGE_SIZE
  remaining : machine.allocator.remainingPages = 296 - count
  counter : machine.allocator.allocatedPages = 4 + count

theorem Populated.page {start machine machine' : Machine} {pml4 virtualAddress frame flags : Nat}
    {allocator : FrameAllocator} (earlier : Populated start pml4 machine [])
    (handed : frameAllocate machine.allocator = (allocator, frame)) (some_frame : frame ≠ 0)
    (user : virtualAddress < 2 ^ 47) (bits : flags &&& PAGE_ADDRESS_MASK = 0)
    (unmapped : pagingPageFlags machine.memory pml4 virtualAddress = 0)
    (result : mapPage ⟨machine.memory, allocator⟩ pml4 virtualAddress frame flags = (machine', true)) :
    Populated start pml4 machine' [] := by
  have taken := earlier.allocated handed
  rw [if_neg some_frame] at taken
  have mapped := taken.mapped List.mem_cons_self user bits result
  rwa [unmapped, framed_absent rfl, List.erase_cons_head] at mapped

/-- One page, with three tables. -/
def onePage : Machine :=
  (mapPage ⟨emptySpace.memory, (frameAllocate emptySpace.allocator).1⟩ 0x100000 0 0x101000 PAGE_WRITABLE).1

theorem onePage_filled : Filled 1 onePage := by
  have handed : frameAllocate emptySpace.allocator = ((frameAllocate emptySpace.allocator).1, 0x101000) :=
    Prod.ext rfl (by decide)
  have result : mapPage ⟨emptySpace.memory, (frameAllocate emptySpace.allocator).1⟩ 0x100000 0 0x101000 PAGE_WRITABLE =
      (onePage, true) := Prod.ext rfl (by decide)
  refine ⟨Populated.created.page handed (by decide) (by decide) (by decide) (by decide) result,
    ?_, ?_, ?_, ?_, ?_, ?_, ?_, ?_⟩
  all_goals decide +kernel

theorem Filled.more {count : Nat} {machine : Machine} (filled : Filled count machine)
    (small : count < 290) :
    ∃ machine', Filled (count + 1) machine' := by
  have handed : frameAllocate machine.allocator = takeFrame machine.allocator := by
    have some_pages : machine.allocator.remainingPages ≠ 0 := by
      rw [filled.remaining]
      omega
    rw [frameAllocate, filled.recycled]
    exact if_neg some_pages
  have indices : tableIndex (count * PAGE_SIZE) 39 = 0 ∧ tableIndex (count * PAGE_SIZE) 30 = 0 ∧
      tableIndex (count * PAGE_SIZE) 21 = 0 ∧ (tableIndex (count * PAGE_SIZE) 12).val = count := by
    simp only [Fin.ext_iff, tableIndex_val, Fin.val_zero]
    unfold PAGE_SIZE
    omega
  obtain ⟨top, middle, low, last⟩ := indices
  have bits : (0x102003 &&& PAGE_PRESENT ≠ 0 ∧ 0x102003 &&& PAGE_ADDRESS_MASK = 0x102000) ∧
      (0x103003 &&& PAGE_PRESENT ≠ 0 ∧ 0x103003 &&& PAGE_ADDRESS_MASK = 0x103000) ∧
      0x104003 &&& PAGE_PRESENT ≠ 0 ∧ 0x104003 &&& PAGE_ADDRESS_MASK = 0x104000 := by decide
  obtain ⟨⟨rootPresent, rootAddress⟩, ⟨pdptPresent, pdptAddress⟩, pdPresent, pdAddress⟩ := bits
  have walked : pagingPageFlags machine.memory 0x100000 (count * PAGE_SIZE) = 0 := by
    rw [pagingPageFlags, top, middle, low]
    simp only [pageFlagsFrom, filled.root, rootAddress, filled.pdpt, pdptAddress, filled.pd, pdAddress,
      if_neg rootPresent, if_neg pdptPresent, if_neg pdPresent]
    exact filled.unmapped _ last.ge
  have mapped : ∀ allocator frame, mapPage ⟨machine.memory, allocator⟩ 0x100000 (count * PAGE_SIZE) frame PAGE_WRITABLE =
      (⟨setEntry machine.memory 0x104000 (tableIndex (count * PAGE_SIZE) 12)
        ((frame &&& PAGE_ADDRESS_MASK) ||| PAGE_WRITABLE ||| PAGE_PRESENT), allocator⟩, true) := by
    intro allocator frame
    have root : (⟨machine.memory, allocator⟩ : Machine).memory 0x100000 0 = 0x102003 := filled.root
    have pdpt : (⟨machine.memory, allocator⟩ : Machine).memory 0x102000 0 = 0x103003 := filled.pdpt
    have pd : (⟨machine.memory, allocator⟩ : Machine).memory 0x103000 0 = 0x104003 := filled.pd
    rw [mapPage, if_neg (by decide), top, middle, low, nextTable_kept root rootPresent rootAddress (by decide)]
    dsimp only
    rw [if_neg (by decide), nextTable_kept pdpt pdptPresent pdptAddress (by decide)]
    dsimp only
    rw [if_neg (by decide), nextTable_kept pd pdPresent pdAddress (by decide)]
    dsimp only
    rw [if_neg (by decide)]
  have some_frame : machine.allocator.nextFrame ≠ 0 := by
    rw [filled.next]
    omega
  have elsewhere : ∀ table index, table ≠ 0x104000 → setEntry machine.memory 0x104000
      (tableIndex (count * PAGE_SIZE) 12) ((machine.allocator.nextFrame &&& PAGE_ADDRESS_MASK) ||| PAGE_WRITABLE |||
        PAGE_PRESENT) table index = machine.memory table index :=
    fun table index other => if_neg fun both => other both.1
  refine ⟨_, filled.populated.page handed some_frame (by unfold PAGE_SIZE; omega) (by decide) walked (mapped _ _),
    (elsewhere _ _ (by decide)).trans filled.root, (elsewhere _ _ (by decide)).trans filled.pdpt,
    (elsewhere _ _ (by decide)).trans filled.pd, ?_, filled.recycled, ?_, ?_, ?_⟩
  · intro index above
    refine (if_neg ?_).trans (filled.unmapped index (Nat.le_of_succ_le above))
    rintro ⟨-, rfl⟩
    omega
  · show (machine.allocator.nextFrame + PAGE_SIZE) % 2 ^ 64 = _
    rw [filled.next]
    unfold PAGE_SIZE
    omega
  · show (machine.allocator.remainingPages + 2 ^ 64 - 1) % 2 ^ 64 = _
    rw [filled.remaining]
    omega
  · show (machine.allocator.allocatedPages + 1) % 2 ^ 64 = _
    rw [filled.counter]
    omega

theorem filled_many (count : Nat) (small : count < 290) : ∃ machine, Filled (count + 1) machine := by
  induction count with
  | zero => exact ⟨onePage, onePage_filled⟩
  | succ count ih =>
    obtain ⟨machine, filled⟩ := ih (by omega)
    exact filled.more (by omega)

theorem largeMap_physical : PhysicalMap largeMap :=
  ⟨⟨by decide, by decide, List.pairwise_singleton _ _⟩, by decide⟩

theorem emptySpace_owned : Owned largeMap bootMachine.allocator [] [] [0x100000] emptySpace 0x100000 :=
  created_owned largeMap_physical Reached.start (Prod.ext rfl (by decide) :
    pagingCreateAddressSpace bootMachine 0 = (emptySpace, 0x100000)) (by decide)

/-- An address space of 253 pages and four tables: one of the 257 frames finds the list full. -/
theorem teardown_large : ∃ machine, Populated emptySpace 0x100000 machine [] ∧
    bootMachine.allocator.allocatedPages = 0 ∧
    (pagingDestroyAddressSpace machine 0x100000).allocator.allocatedPages = 1 := by
  obtain ⟨machine, filled⟩ := filled_many 252 (by omega)
  obtain ⟨held, owned⟩ := populated_owned largeMap_physical emptySpace_owned filled.populated
  have lengths := (owned.perm largeMap_physical).length_eq
  have counted := owned.counted
  rw [filled.counter] at counted
  obtain ⟨-, count⟩ := teardown_frees largeMap_physical owned (by decide) rfl
  refine ⟨machine, filled.populated, rfl, ?_⟩
  rw [count, filled.recycled]
  have start : bootMachine.allocator.allocatedPages = 0 := rfl
  rw [start] at counted ⊢
  simp only [List.nil_append, List.append_nil, List.length_nil] at lengths counted ⊢
  have short : (pagingDestroyAddressSpace machine 0x100000).allocator.allocatedPages < 2 ^ 64 := by
    rw [count]
    exact Nat.mod_lt _ (Nat.two_pow_pos 64)
  unfold FRAME_FREE_LIST_CAPACITY
  omega

/-- A page and its tables come back. -/
theorem teardown_law_onePage : allocations 5 (pagingDestroyAddressSpace onePage 0x100000).allocator =
        [0x100000, 0x102000, 0x103000, 0x104000, 0x101000] ∧
      (pagingDestroyAddressSpace onePage 0x100000).allocator.allocatedPages = 0 := by
  have frames : spaceFrames onePage.memory 0x100000 = [0x101000, 0x104000, 0x103000, 0x102000, 0x100000] := by
    decide +kernel
  obtain ⟨-, -, -, fits⟩ := teardown_law largeMap_physical Reached.start (Prod.ext rfl (by decide +kernel) :
    pagingCreateAddressSpace bootMachine 0 = (emptySpace, 0x100000)) (by decide) onePage_filled.populated rfl
  rw [frames] at fits
  obtain ⟨again, counter⟩ := fits (by rw [onePage_filled.recycled]; decide)
  exact ⟨again, counter rfl⟩

end AsasOs.Memory
