import Mathlib.Data.List.Basic
import Mathlib.Data.List.Nodup
import Mathlib.Tactic.Ring

/-!
# Physical frames

`memory.c`: frames come from a bounded list of recycled frames, and else from a pointer that
runs through the regions of the memory map. The memory map is the list of its descriptors.

## Main result

- `frames_exclusive`: in every history a frame that is handed out is not held, and it is a
  page of conventional memory above the first megabyte.
-/
namespace AsasOs.Memory

def EFI_CONVENTIONAL_MEMORY : Nat := 7
def PAGE_SIZE : Nat := 4096
def LOW_MEMORY_RESERVE : Nat := 0x100000
def FRAME_FREE_LIST_CAPACITY : Nat := 256

/-- `EFI_MEMORY_DESCRIPTOR`, as far as the allocator reads it. -/
structure Descriptor where
  type : Nat
  physicalStart : Nat
  numberOfPages : Nat
  deriving DecidableEq, Repr

/-- `ASAS_FRAME_ALLOCATOR`; the last frame of the free list comes first. -/
structure FrameAllocator where
  memoryMap : List Descriptor
  descriptorIndex : Nat
  nextFrame : Nat
  remainingPages : Nat
  allocatedPages : Nat
  freeList : List Nat

/-- The loop of `select_next_region`, over the descriptors that are left. -/
def selectRegion (allocator : FrameAllocator) : List Descriptor → FrameAllocator × Bool
  | [] => (allocator, false)
  | descriptor :: rest =>
    let allocator := { allocator with descriptorIndex := allocator.descriptorIndex + 1 }
    if descriptor.type = EFI_CONVENTIONAL_MEMORY ∧ descriptor.numberOfPages ≠ 0 then
      let regionStart := descriptor.physicalStart
      let regionEnd := (regionStart + descriptor.numberOfPages * PAGE_SIZE) % 2 ^ 64
      if regionEnd ≤ LOW_MEMORY_RESERVE then selectRegion allocator rest
      else
        let regionStart := if regionStart < LOW_MEMORY_RESERVE then LOW_MEMORY_RESERVE else regionStart
        ({ allocator with
            nextFrame := regionStart
            remainingPages := (regionEnd + 2 ^ 64 - regionStart) % 2 ^ 64 / PAGE_SIZE }, true)
    else selectRegion allocator rest

def selectNextRegion (allocator : FrameAllocator) : FrameAllocator × Bool :=
  selectRegion allocator (allocator.memoryMap.drop allocator.descriptorIndex)

def frameAllocatorInitialize (memoryMap : List Descriptor) : FrameAllocator :=
  ⟨memoryMap, 0, 0, 0, 0, []⟩

/-- The end of `frame_allocate`: the next frame of the region. -/
def takeFrame (allocator : FrameAllocator) : FrameAllocator × Nat :=
  ({ allocator with
      nextFrame := (allocator.nextFrame + PAGE_SIZE) % 2 ^ 64
      remainingPages := (allocator.remainingPages + 2 ^ 64 - 1) % 2 ^ 64
      allocatedPages := (allocator.allocatedPages + 1) % 2 ^ 64 }, allocator.nextFrame)

/-- `frame_allocate`; zero stands for no frame. -/
def frameAllocate (allocator : FrameAllocator) : FrameAllocator × Nat :=
  match allocator.freeList with
  | frame :: rest =>
    ({ allocator with
        freeList := rest
        allocatedPages := (allocator.allocatedPages + 1) % 2 ^ 64 }, frame)
  | [] =>
    if allocator.remainingPages = 0 then
      match selectNextRegion allocator with
      | (allocator, false) => (allocator, 0)
      | (allocator, true) => takeFrame allocator
    else takeFrame allocator

/-- `frame_free`. A frame that finds the list full is dropped. -/
def frameFree (allocator : FrameAllocator) (frame : Nat) : FrameAllocator :=
  if frame = 0 ∨ frame % PAGE_SIZE ≠ 0 then allocator
  else if allocator.freeList.length < FRAME_FREE_LIST_CAPACITY then
    { allocator with
      freeList := frame :: allocator.freeList
      allocatedPages := (allocator.allocatedPages + 2 ^ 64 - 1) % 2 ^ 64 }
  else allocator

/-! ### Memory maps -/

namespace Descriptor

/-- The first address behind the range. -/
def rangeEnd (d : Descriptor) : Nat := d.physicalStart + d.numberOfPages * PAGE_SIZE

/-- The frame lies in the range, as a whole. -/
def Holds (d : Descriptor) (frame : Nat) : Prop :=
  d.physicalStart ≤ frame ∧ frame + PAGE_SIZE ≤ d.rangeEnd

/-- No frame lies in both ranges. -/
def Apart (d e : Descriptor) : Prop := ∀ frame, d.Holds frame → ¬e.Holds frame

end Descriptor

/-- Page-aligned ranges of physical addresses, which do not overlap. -/
structure WellFormed (map : List Descriptor) : Prop where
  aligned : ∀ d ∈ map, PAGE_SIZE ∣ d.physicalStart
  fits : ∀ d ∈ map, d.rangeEnd ≤ 2 ^ 64
  apart : map.Pairwise Descriptor.Apart

theorem WellFormed.same {map : List Descriptor} (wellFormed : WellFormed map) {i j frame : Nat}
    {d e : Descriptor} (first : map[i]? = some d) (second : map[j]? = some e)
    (inFirst : d.Holds frame) (inSecond : e.Holds frame) : i = j := by
  have apart := List.pairwise_iff_getElem.mp wellFormed.apart
  obtain ⟨below, rfl⟩ := List.getElem?_eq_some_iff.mp first
  obtain ⟨below', rfl⟩ := List.getElem?_eq_some_iff.mp second
  rcases Nat.lt_trichotomy i j with less | same | more
  · exact absurd inSecond (apart i j below below' less frame inFirst)
  · exact same
  · exact absurd inFirst (apart j i below' below more frame inSecond)

/-! ### The invariant -/

/-- A page of conventional memory above the first megabyte. -/
structure Usable (map : List Descriptor) (frame : Nat) : Prop where
  aligned : PAGE_SIZE ∣ frame
  high : LOW_MEMORY_RESERVE ≤ frame
  conventional : ∃ d ∈ map, d.type = EFI_CONVENTIONAL_MEMORY ∧ d.Holds frame

/-- A frame behind the pointer: in a region that the allocator has passed, or in the front of
the one that it is in. -/
structure Passed (allocator : FrameAllocator) (frame : Nat) : Prop where
  aligned : PAGE_SIZE ∣ frame
  high : LOW_MEMORY_RESERVE ≤ frame
  region : ∃ i d, i < allocator.descriptorIndex ∧ allocator.memoryMap[i]? = some d ∧
    d.type = EFI_CONVENTIONAL_MEMORY ∧ d.Holds frame ∧
    (i + 1 = allocator.descriptorIndex → allocator.remainingPages ≠ 0 →
      frame + PAGE_SIZE ≤ allocator.nextFrame)

/-- The pointer stands in the region that was selected last, and the pages that remain lead
to its end. -/
structure Pointed (allocator : FrameAllocator) : Prop where
  aligned : PAGE_SIZE ∣ allocator.nextFrame
  high : LOW_MEMORY_RESERVE ≤ allocator.nextFrame
  region : ∃ i d, i + 1 = allocator.descriptorIndex ∧ allocator.memoryMap[i]? = some d ∧
    d.type = EFI_CONVENTIONAL_MEMORY ∧ d.physicalStart ≤ allocator.nextFrame ∧
    allocator.nextFrame + allocator.remainingPages * PAGE_SIZE = d.rangeEnd

/-- The frames that are held or recycled are different ones, and lie behind the pointer. -/
structure Inv (map : List Descriptor) (allocator : FrameAllocator) (held : List Nat) : Prop where
  map : allocator.memoryMap = map
  pointed : allocator.remainingPages ≠ 0 → Pointed allocator
  passed : ∀ frame ∈ held ++ allocator.freeList, Passed allocator frame
  distinct : (held ++ allocator.freeList).Nodup

section Steps

variable {map : List Descriptor} {allocator allocator' : FrameAllocator} {held : List Nat}
  {frame : Nat}

theorem Passed.usable (passed : Passed allocator frame) : Usable allocator.memoryMap frame := by
  obtain ⟨aligned, high, i, d, -, there, conventional, holds, -⟩ := passed
  exact ⟨aligned, high, d, List.mem_of_getElem? there, conventional, holds⟩

theorem Passed.later (passed : Passed allocator frame)
    (same : allocator'.memoryMap = allocator.memoryMap)
    (onward : allocator.descriptorIndex < allocator'.descriptorIndex ∨
      allocator'.descriptorIndex = allocator.descriptorIndex ∧ allocator.remainingPages = 0 ∧
        allocator'.remainingPages = 0 ∨
      allocator'.descriptorIndex = allocator.descriptorIndex ∧
        (allocator'.remainingPages ≠ 0 → allocator.remainingPages ≠ 0 ∧
          allocator.nextFrame ≤ allocator'.nextFrame)) : Passed allocator' frame := by
  obtain ⟨aligned, high, i, d, before, there, conventional, holds, front⟩ := passed
  refine ⟨aligned, high, i, d, ?_, same ▸ there, conventional, holds, ?_⟩
  · omega
  · intro last some_pages
    rcases onward with further | ⟨equal, -, none_left⟩ | ⟨equal, moved⟩
    · omega
    · exact absurd none_left some_pages
    · obtain ⟨some_before, ahead⟩ := moved some_pages
      have behind := front (last.trans equal) some_before
      omega

/-- A region has been selected, or the map has ended. -/
inductive Selection (allocator : FrameAllocator) : FrameAllocator × Bool → Prop
  | found {selected : FrameAllocator} (map : selected.memoryMap = allocator.memoryMap)
      (recycled : selected.freeList = allocator.freeList)
      (onward : allocator.descriptorIndex < selected.descriptorIndex)
      (some_pages : selected.remainingPages ≠ 0) (pointed : Pointed selected) :
      Selection allocator (selected, true)
  | ended {last : FrameAllocator} (map : last.memoryMap = allocator.memoryMap)
      (recycled : last.freeList = allocator.freeList)
      (onward : allocator.descriptorIndex ≤ last.descriptorIndex)
      (empty : last.remainingPages = 0) : Selection allocator (last, false)

theorem Selection.skip {result : FrameAllocator × Bool}
    (later : Selection { allocator with descriptorIndex := allocator.descriptorIndex + 1 } result) :
    Selection allocator result := by
  cases later with
  | found same recycled onward some_pages pointed =>
    exact .found same recycled (Nat.lt_of_succ_lt onward) some_pages pointed
  | ended same recycled onward empty =>
    exact .ended same recycled (Nat.le_of_succ_le onward) empty

theorem selectRegion_spec (wellFormed : WellFormed allocator.memoryMap)
    (empty : allocator.remainingPages = 0) {rest : List Descriptor}
    (left : allocator.memoryMap.drop allocator.descriptorIndex = rest) :
    Selection allocator (selectRegion allocator rest) := by
  induction rest generalizing allocator with
  | nil => exact .ended rfl rfl (Nat.le_refl _) empty
  | cons d rest ih =>
    have here : allocator.memoryMap[allocator.descriptorIndex]? = some d := by
      have first := congrArg List.head? left
      rwa [List.head?_drop] at first
    have behind : allocator.memoryMap.drop (allocator.descriptorIndex + 1) = rest := by
      rw [← List.tail_drop, left, List.tail_cons]
    have next := @ih { allocator with descriptorIndex := allocator.descriptorIndex + 1 }
      wellFormed empty behind
    unfold selectRegion
    dsimp only
    split
    · rename_i conventional
      split
      · exact next.skip
      · rename_i high
        obtain ⟨pages, start⟩ := wellFormed.aligned d (List.mem_of_getElem? here)
        have fits := wellFormed.fits d (List.mem_of_getElem? here)
        -- a region up to the end of memory has been skipped, so that its end does not wrap here
        have regionEnd : (d.physicalStart + d.numberOfPages * PAGE_SIZE) % 2 ^ 64 = d.rangeEnd := by
          unfold Descriptor.rangeEnd LOW_MEMORY_RESERVE at *
          omega
        rw [regionEnd] at high ⊢
        obtain ⟨first, clamped⟩ : ∃ first, first = if d.physicalStart < LOW_MEMORY_RESERVE then
          LOW_MEMORY_RESERVE else d.physicalStart := ⟨_, rfl⟩
        rw [← clamped]
        have bounds : PAGE_SIZE ∣ first ∧ LOW_MEMORY_RESERVE ≤ first ∧ d.physicalStart ≤ first ∧
            first < d.rangeEnd := by
          rw [clamped]
          unfold Descriptor.rangeEnd LOW_MEMORY_RESERVE PAGE_SIZE at *
          split
          · omega
          · omega
        obtain ⟨aligned, low, inside, below⟩ := bounds
        have remaining : first + (d.rangeEnd + 2 ^ 64 - first) % 2 ^ 64 / PAGE_SIZE * PAGE_SIZE =
            d.rangeEnd := by
          unfold Descriptor.rangeEnd PAGE_SIZE at *
          omega
        refine .found rfl rfl (Nat.lt_succ_self _) ?_ ⟨aligned, low, allocator.descriptorIndex, d,
          rfl, here, conventional.1, inside, remaining⟩
        intro none_left
        have none_left : (d.rangeEnd + 2 ^ 64 - first) % 2 ^ 64 / PAGE_SIZE = 0 := none_left
        rw [none_left] at remaining
        omega
    · exact next.skip

theorem takeFrame_inv (wellFormed : WellFormed map) (inv : Inv map allocator held)
    (some_pages : allocator.remainingPages ≠ 0) :
    (takeFrame allocator).2 ∉ held ++ allocator.freeList ∧ Usable map (takeFrame allocator).2 ∧
      Inv map (takeFrame allocator).1 ((takeFrame allocator).2 :: held) := by
  obtain ⟨aligned, high, i, d, last, there, conventional, start, pages⟩ := inv.pointed some_pages
  have fits := wellFormed.fits d (List.mem_of_getElem? (inv.map ▸ there))
  have within : d.Holds allocator.nextFrame := by
    refine ⟨start, ?_⟩
    rw [← pages]
    exact Nat.add_le_add_left (Nat.le_mul_of_pos_left _ (Nat.pos_of_ne_zero some_pages)) _
  have fresh : allocator.nextFrame ∉ held ++ allocator.freeList := by
    intro known
    obtain ⟨-, -, j, e, before, there', -, holds, front⟩ := inv.passed _ known
    have same : j = i := wellFormed.same (inv.map ▸ there') (inv.map ▸ there) holds within
    have behind := front (by omega) some_pages
    unfold PAGE_SIZE at behind
    omega
  have usable : Usable map allocator.nextFrame :=
    ⟨aligned, high, d, List.mem_of_getElem? (inv.map ▸ there), conventional, within⟩
  have remaining : (allocator.remainingPages + 2 ^ 64 - 1) % 2 ^ 64 = allocator.remainingPages - 1 := by
    unfold Descriptor.rangeEnd PAGE_SIZE at *
    omega
  -- the pointer wraps only behind the last page of its region
  have moved : allocator.remainingPages - 1 ≠ 0 →
      (allocator.nextFrame + PAGE_SIZE) % 2 ^ 64 = allocator.nextFrame + PAGE_SIZE := by
    intro more
    unfold Descriptor.rangeEnd PAGE_SIZE at *
    omega
  unfold takeFrame
  rw [remaining]
  dsimp only
  generalize (allocator.nextFrame + PAGE_SIZE) % 2 ^ 64 = next at moved ⊢
  refine ⟨fresh, usable, inv.map, ?_, ?_, ?_⟩
  · intro more
    refine ⟨?_, ?_, i, d, last, there, conventional, ?_, ?_⟩
    all_goals rw [moved more]
    · exact Nat.dvd_add aligned (Nat.dvd_refl _)
    · exact Nat.le_add_right_of_le high
    · exact Nat.le_add_right_of_le start
    · have one : allocator.remainingPages = allocator.remainingPages - 1 + 1 := by omega
      rw [← pages, Nat.add_assoc]
      nth_rewrite 2 [one]
      rw [Nat.succ_mul, Nat.add_comm PAGE_SIZE]
  · intro frame member
    rw [List.cons_append, List.mem_cons] at member
    rcases member with rfl | known
    · exact ⟨aligned, high, i, d, Nat.lt_of_succ_le last.le, there, conventional, within,
        fun _ more => (moved more).ge⟩
    · refine (inv.passed frame known).later rfl (.inr (.inr ⟨rfl, fun more => ⟨some_pages, ?_⟩⟩))
      exact (Nat.le_add_right _ _).trans (moved more).ge
  · exact List.nodup_cons.mpr ⟨fresh, inv.distinct⟩

theorem frameAllocate_inv (wellFormed : WellFormed map) (inv : Inv map allocator held)
    {allocator' : FrameAllocator} {frame : Nat}
    (allocated : frameAllocate allocator = (allocator', frame)) :
    (frame ≠ 0 → frame ∉ held ∧ Usable map frame ∧ Inv map allocator' (frame :: held)) ∧
      (frame = 0 → Inv map allocator' held) := by
  have taking : ∀ from_ : FrameAllocator, Inv map from_ held → from_.remainingPages ≠ 0 →
      takeFrame from_ = (allocator', frame) →
      (frame ≠ 0 → frame ∉ held ∧ Usable map frame ∧ Inv map allocator' (frame :: held)) ∧
        (frame = 0 → Inv map allocator' held) := by
    intro from_ inv some_pages taken
    obtain ⟨fresh, usable, later⟩ := takeFrame_inv wellFormed inv some_pages
    rw [taken] at fresh usable later
    refine ⟨fun _ => ⟨fun known => fresh (List.mem_append_left _ known), usable, later⟩, ?_⟩
    intro zero
    have high : LOW_MEMORY_RESERVE ≤ frame := usable.high
    unfold LOW_MEMORY_RESERVE at high
    omega
  unfold frameAllocate at allocated
  split at allocated
  · rename_i recycled rest list
    cases allocated
    have known := inv.passed frame (list ▸ List.mem_append_right _ List.mem_cons_self)
    have distinct := inv.distinct
    rw [list] at distinct
    have moved : (frame :: held ++ rest).Perm (held ++ frame :: rest) := List.perm_middle.symm
    have later : Inv map { allocator with
        freeList := rest, allocatedPages := (allocator.allocatedPages + 1) % 2 ^ 64 }
        (frame :: held) := by
      refine ⟨inv.map, fun some_pages => ?_, fun other member => ?_, moved.nodup_iff.mpr distinct⟩
      · obtain ⟨aligned, high, region⟩ := inv.pointed some_pages
        exact ⟨aligned, high, region⟩
      · obtain ⟨aligned, high, region⟩ := inv.passed other (list ▸ moved.mem_iff.mp member)
        exact ⟨aligned, high, region⟩
    refine ⟨fun _ => ⟨?_, inv.map ▸ known.usable, later⟩, fun zero => ?_⟩
    · intro holds
      exact (List.nodup_append.mp distinct).2.2 frame holds frame List.mem_cons_self rfl
    · have high := known.high
      unfold LOW_MEMORY_RESERVE at high
      omega
  · split at allocated
    · rename_i empty
      have selection := selectRegion_spec (inv.map.symm ▸ wellFormed) empty rfl
      split at allocated
      all_goals
        rename_i selected outcome
        rw [← selectNextRegion, outcome] at selection
      · cases allocated
        cases selection with
        | ended same recycled onward none_left =>
          refine ⟨fun impossible => absurd rfl impossible, fun _ => ⟨same.trans inv.map, ?_, ?_, ?_⟩⟩
          · exact fun some_pages => absurd none_left some_pages
          · intro other member
            rw [recycled] at member
            refine (inv.passed other member).later same ?_
            rcases Nat.lt_or_eq_of_le onward with further | equal
            · exact .inl further
            · exact .inr (.inl ⟨equal.symm, empty, none_left⟩)
          · rw [recycled]
            exact inv.distinct
      · cases selection with
        | found same recycled onward some_pages pointed =>
          refine taking selected ⟨same.trans inv.map, fun _ => pointed, ?_, ?_⟩ some_pages allocated
          · intro other member
            rw [recycled] at member
            exact (inv.passed other member).later same (.inl onward)
          · rw [recycled]
            exact inv.distinct
    · rename_i some_pages
      exact taking allocator inv some_pages allocated

theorem frameFree_inv (inv : Inv map allocator held) (holds : frame ∈ held) :
    Inv map (frameFree allocator frame) (held.erase frame) := by
  have known := inv.passed frame (List.mem_append_left _ holds)
  have split := List.perm_cons_erase holds
  have all : (held ++ allocator.freeList).Perm (held.erase frame ++ frame :: allocator.freeList) :=
    (split.append_right _).trans List.perm_middle.symm
  have distinct := all.nodup_iff.mp inv.distinct
  have dropped : Inv map allocator (held.erase frame) := by
    refine ⟨inv.map, inv.pointed, fun other member => inv.passed other ?_, ?_⟩
    · rcases List.mem_append.mp member with still | recycled
      · exact List.mem_append_left _ (List.mem_of_mem_erase still)
      · exact List.mem_append_right _ recycled
    · exact (List.nodup_cons.mp (List.perm_middle.nodup_iff.mp distinct)).2
  unfold frameFree
  split
  · exact dropped
  · split
    · refine ⟨inv.map, fun some_pages => ?_, fun other member => ?_, distinct⟩
      · obtain ⟨aligned, high, region⟩ := inv.pointed some_pages
        exact ⟨aligned, high, region⟩
      · obtain ⟨aligned, high, region⟩ := inv.passed other (all.mem_iff.mpr member)
        exact ⟨aligned, high, region⟩
    · exact dropped

end Steps

/-! ### Histories -/

/-- The allocator after a history of calls, with the frames that are held then. Only frames
that are held are freed. -/
inductive Reached (map : List Descriptor) : FrameAllocator → List Nat → Prop
  | start : Reached map (frameAllocatorInitialize map) []
  | allocate {allocator allocator' : FrameAllocator} {held : List Nat} {frame : Nat}
      (before : Reached map allocator held)
      (allocated : frameAllocate allocator = (allocator', frame)) :
      Reached map allocator' (if frame = 0 then held else frame :: held)
  | free {allocator : FrameAllocator} {held : List Nat} {frame : Nat}
      (before : Reached map allocator held) (holds : frame ∈ held) :
      Reached map (frameFree allocator frame) (held.erase frame)

theorem Reached.inv {map : List Descriptor} (wellFormed : WellFormed map)
    {allocator : FrameAllocator} {held : List Nat} (reached : Reached map allocator held) :
    Inv map allocator held := by
  induction reached with
  | start => exact ⟨rfl, fun some_pages => absurd rfl some_pages, nofun, List.nodup_nil⟩
  | allocate before allocated ih =>
    obtain ⟨handed, refused⟩ := frameAllocate_inv wellFormed ih allocated
    split
    · rename_i zero
      exact refused zero
    · rename_i frame
      exact (handed frame).2.2
  | free before holds ih => exact frameFree_inv ih holds

theorem Reached.next {map : List Descriptor} {allocator : FrameAllocator} {held : List Nat}
    (before : Reached map allocator held) {frame : Nat} (some_frame : frame ≠ 0)
    (handed : (frameAllocate allocator).2 = frame) :
    Reached map (frameAllocate allocator).1 (frame :: held) := by
  have after := before.allocate (Prod.ext rfl handed : frameAllocate allocator =
    ((frameAllocate allocator).1, frame))
  rwa [if_neg some_frame] at after

/-- **Frame exclusivity**: whatever has been allocated and freed, a frame that is handed out
is not held, it is page aligned and above the first megabyte, and it lies in a descriptor of
conventional memory. -/
theorem frames_exclusive {map : List Descriptor} (wellFormed : WellFormed map)
    {allocator allocator' : FrameAllocator} {held : List Nat} (reached : Reached map allocator held)
    {frame : Nat} (allocated : frameAllocate allocator = (allocator', frame)) (some_frame : frame ≠ 0) :
    frame ∉ held ∧ PAGE_SIZE ∣ frame ∧ LOW_MEMORY_RESERVE ≤ frame ∧
      ∃ d ∈ map, d.type = EFI_CONVENTIONAL_MEMORY ∧ d.Holds frame := by
  obtain ⟨fresh, usable, -⟩ := (frameAllocate_inv wellFormed (reached.inv wellFormed) allocated).1
    some_frame
  exact ⟨fresh, usable.aligned, usable.high, usable.conventional⟩

/-- Two frames from the second megabyte on are handed out, the first one is freed, and comes
back. -/
theorem frames_exclusive_example : let map : List Descriptor := [⟨7, 0, 512⟩, ⟨2, 0x200000, 16⟩]
    let first := (frameAllocate (frameAllocatorInitialize map)).1
    let second := (frameAllocate first).1
    frameAllocate (frameFree second 0x100000) = ((frameAllocate (frameFree second 0x100000)).1, 0x100000) ∧
      0x100000 ∉ [0x101000] ∧ PAGE_SIZE ∣ 0x100000 ∧ LOW_MEMORY_RESERVE ≤ 0x100000 ∧
      ∃ d ∈ map, d.type = EFI_CONVENTIONAL_MEMORY ∧ d.Holds 0x100000 := by
  intro map first second
  have wellFormed : WellFormed map := by
    refine ⟨by decide, by decide, List.pairwise_pair.mpr ?_⟩
    rintro frame ⟨-, below⟩ ⟨above, -⟩
    simp only [Descriptor.rangeEnd, PAGE_SIZE] at below above
    omega
  have one : Reached map first [0x100000] := Reached.start.next (by omega) (by decide +kernel)
  have two : Reached map second [0x101000, 0x100000] := one.next (by omega) (by decide +kernel)
  have three : Reached map (frameFree second 0x100000) [0x101000] :=
    @Reached.free map _ _ 0x100000 two (by decide)
  have handed : (frameAllocate (frameFree second 0x100000)).2 = 0x100000 := by decide +kernel
  have again : frameAllocate (frameFree second 0x100000) =
      ((frameAllocate (frameFree second 0x100000)).1, 0x100000) :=
    Prod.mk.eta.symm.trans (congrArg (Prod.mk _) handed)
  exact ⟨again, frames_exclusive wellFormed three again (by omega)⟩

end AsasOs.Memory
