import Mathlib.Logic.Function.Basic
import AsasOs.Lib.Bytes

/-!
# The PE loader

`pe_loader.c`: the headers of a program file are read from a buffer on the kernel heap,
pages are mapped at the image base, and the headers and sections are copied there. The
loader is modelled with the file offsets that it reads and the addresses that it writes,
over a memory in which a write through the image may also hit the buffer. It checks that
raw section data lie inside the file and little else; the last theorem says which files
keep it within the file and within the image.
-/
namespace AsasOs.Process

open Bytes

def PE_BUFFER_SIZE : Nat := 65536
def HEAP_BASE : Nat := 0xFFFF900000000000
def HEAP_SIZE : Nat := 2048 * 4096

/-- The 16-bit count of sections is below this. -/
def SECTION_COUNT_END : Nat := 65536

/-- The first address behind the user half of the address space. -/
def USER_END : Nat := 0x0000800000000000

/-! ### Accesses -/

/-- What virtual memory holds, the image base and size once the image is mapped, and the
file offsets read and addresses written so far. -/
structure Loader where
  memory : Nat → UInt8
  image : Option (Nat × Nat)
  reads : List Nat
  writes : List Nat

namespace Loader

/-- The number in the `width` bytes at an offset into the buffer. -/
def field (s : Loader) (buffer offset width : Nat) : Nat :=
  value ((List.range width).map fun k => s.memory ((buffer + offset + k) % 2 ^ 64))

def read (s : Loader) (offset width : Nat) : Loader :=
  { s with reads := s.reads ++ List.range' offset width }

@[simp]
theorem field_read (s : Loader) (offset width buffer offset' width' : Nat) :
    (s.read offset width).field buffer offset' width' = s.field buffer offset' width' := rfl

/-- A step of `copy_bytes`. -/
def copyByte (s : Loader) (buffer destination source : Nat) : Loader :=
  { s with
    memory := Function.update s.memory (destination % 2 ^ 64)
      (s.memory ((buffer + source) % 2 ^ 64))
    reads := s.reads ++ [source]
    writes := s.writes ++ [destination % 2 ^ 64] }

/-- `copy_bytes`, from an offset into the buffer. -/
def copyBytes (buffer : Nat) : Nat → Nat → Nat → Loader → Loader
  | 0, _, _, s => s
  | count + 1, destination, source, s =>
    copyBytes buffer count (destination + 1) (source + 1) (s.copyByte buffer destination source)

/-- `map_page`, which looks at the bits 12 to 47 of the address. -/
def mapPage (s : Loader) (address : Nat) (frame : Nat → UInt8) : Loader :=
  { s with memory := fun a =>
      if a / 4096 % 2 ^ 36 = address / 4096 % 2 ^ 36 then frame (a % 4096) else s.memory a }

end Loader

/-! ### The loader -/

/-- `map_image_pages` from page `page` on; `frames` is what the frame for each page holds,
if it can be allocated and mapped. -/
def mapImagePages (frames : Nat → Option (Nat → UInt8)) (imageBase : Nat) : Nat → Nat → Loader →
    Bool × Loader
  | 0, _, s => (true, s)
  | left + 1, page, s =>
    match frames page with
    | none => (false, s)
    | some frame =>
      mapImagePages frames imageBase left (page + 1) (s.mapPage (imageBase + page * 4096) frame)

/-- The number of pages of an image. -/
def pageCount (size : Nat) : Nat := (size + 4095) / 4096

/-- A section whose raw data lie inside the file is copied to its virtual address. -/
def loadSection (buffer fileSize optional header : Nat) (s : Loader) : Loader :=
  let s := s.read (header + 16) 4
  if s.field buffer (header + 16) 4 ≠ 0 then
    let s := s.read (header + 20) 4
    if s.field buffer (header + 20) 4 + s.field buffer (header + 16) 4 ≤ fileSize then
      let s := (s.read (optional + 24) 8).read (header + 12) 4
      s.copyBytes buffer (s.field buffer (header + 16) 4)
        (s.field buffer (optional + 24) 8 + s.field buffer (header + 12) 4)
        (s.field buffer (header + 20) 4)
    else s
  else s

/-- The loop over the section table; `left` bounds the numbers that the 16-bit section
count can still exceed. -/
def loadSections (buffer fileSize coff optional sections : Nat) : Nat → Nat → Loader → Loader
  | 0, _, s => s
  | left + 1, index, s =>
    let s := s.read (coff + 2) 2
    if index < s.field buffer (coff + 2) 2 then
      loadSections buffer fileSize coff optional sections left (index + 1)
        (loadSection buffer fileSize optional (sections + index * 40) s)
    else s

/-- The headers and the sections are copied to the image. -/
def fillImage (buffer fileSize coff optional : Nat) (s : Loader) : Loader :=
  let s := (s.read (optional + 24) 8).read (optional + 60) 4
  let s := s.copyBytes buffer (min (s.field buffer (optional + 60) 4) fileSize)
    (s.field buffer (optional + 24) 8) 0
  let s := s.read (coff + 16) 2
  let sections := optional + s.field buffer (coff + 16) 2
  loadSections buffer fileSize coff optional sections SECTION_COUNT_END 0 s

/-- The image is mapped and filled. -/
def loadImage (buffer fileSize coff optional : Nat) (frames : Nat → Option (Nat → UInt8))
    (s : Loader) : Bool × Loader :=
  let s := (s.read (optional + 24) 8).read (optional + 56) 4
  let imageBase := s.field buffer (optional + 24) 8
  let size := s.field buffer (optional + 56) 4
  match mapImagePages frames imageBase (pageCount size) 0 s with
  | (false, s) => (false, s.read (optional + 24) 8)
  | (true, s) =>
    (true, fillImage buffer fileSize coff optional { s with image := some (imageBase, size) })

/-- The checks of `pe_load_and_enter_user_program`: the offset of the COFF header of a file
that is accepted. -/
def acceptHeaders (buffer fileSize : Nat) (s : Loader) : Option Nat × Loader :=
  if fileSize < 512 then (none, if 0 < fileSize then s.read 0 1 else s)
  else
    let s := s.read 0 1
    if s.field buffer 0 1 ≠ 0x4D then (none, s)
    else
      let s := s.read 1 1
      if s.field buffer 1 1 ≠ 0x5A then (none, s)
      else
        let s := s.read 0x3C 4
        let peOffset := s.field buffer 0x3C 4
        -- the sum with 4 is taken in 32 bits, the sum with the sizes in 64
        let coff := (peOffset + 4) % 2 ^ 32
        if fileSize < coff + 20 + 64 then (none, s)
        else
          let s := s.read peOffset 1
          if s.field buffer peOffset 1 ≠ 0x50 then (none, s)
          else
            let s := s.read ((peOffset + 1) % 2 ^ 32) 1
            if s.field buffer ((peOffset + 1) % 2 ^ 32) 1 ≠ 0x45 then (none, s)
            else
              let s := s.read (coff + 20) 2
              if s.field buffer (coff + 20) 2 ≠ 0x20B then (none, s)
              else
                let s := s.read (coff + 20 + 56) 4
                if s.field buffer (coff + 20 + 56) 4 = 0 then (none, s)
                else (some coff, s)

/-- `pe_load_and_enter_user_program` for a file of `fileSize` bytes in the buffer: the
entry point and the top of the stack with which user mode is entered, if it is. -/
def peLoadAndEnterUserProgram (buffer fileSize : Nat) (frames : Nat → Option (Nat → UInt8))
    (stack : Option (Nat × (Nat → UInt8))) (s : Loader) : Option (Nat × Nat) × Loader :=
  match acceptHeaders buffer fileSize s with
  | (none, s) => (none, s)
  | (some coff, s) =>
    let optional := coff + 20
    match loadImage buffer fileSize coff optional frames s with
    | (false, s) => (none, s)
    | (true, s) =>
      match stack with
      | none => (none, s)
      | some (address, frame) =>
        let s := ((s.mapPage address frame).read (optional + 24) 8).read (optional + 16) 4
        (some ((s.field buffer (optional + 24) 8 + s.field buffer (optional + 16) 4) % 2 ^ 64,
          address + 4096), s)

/-! ### Accesses in bounds -/

def OnImage (imageBase size address : Nat) : Prop :=
  imageBase ≤ address ∧ address < imageBase + size ∧
    ∃ page < pageCount size, address / 4096 = (imageBase + page * 4096) / 4096

/-- Bytes are read inside the file only, an image lies in the user half, and bytes are
written to the image only. -/
structure InBounds (fileSize : Nat) (s : Loader) : Prop where
  reads : ∀ offset ∈ s.reads, offset < fileSize
  user : ∀ imageBase size, s.image = some (imageBase, size) → imageBase + size ≤ USER_END
  writes : ∀ address ∈ s.writes, ∃ imageBase size, s.image = some (imageBase, size) ∧
    OnImage imageBase size address

/-- The number of bytes of the image that lie on its pages: an image that does not start
at a page boundary is mapped short. -/
def mappedBytes (imageBase size : Nat) : Nat :=
  min size (pageCount size * 4096 - imageBase % 4096)

theorem onImage_iff {imageBase size offset : Nat} :
    OnImage imageBase size (imageBase + offset) ↔ offset < mappedBytes imageBase size := by
  unfold OnImage mappedBytes
  constructor
  · rintro ⟨_, inside, page, mapped, same⟩
    omega
  · intro inside
    exact ⟨by omega, by omega, (imageBase % 4096 + offset) / 4096, by omega, by omega⟩

section Accesses

variable {buffer fileSize : Nat} {s : Loader}

theorem inBounds_read (offset width : Nat) (some_bytes : 0 < width) :
    InBounds fileSize (s.read offset width) ↔ InBounds fileSize s ∧ offset + width ≤ fileSize := by
  simp only [Loader.read]
  constructor
  · intro bounds
    refine ⟨⟨fun o member => bounds.reads o (List.mem_append_left _ member), bounds.user, bounds.writes⟩, ?_⟩
    -- the last byte is inside, and so all are
    have last := bounds.reads (offset + (width - 1)) (List.mem_append_right _ (by
      rw [List.mem_range'_1]
      omega))
    omega
  · rintro ⟨bounds, inside⟩
    refine ⟨?_, bounds.user, bounds.writes⟩
    intro o member
    rcases List.mem_append.mp member with before | here
    · exact bounds.reads o before
    · rw [List.mem_range'_1] at here
      omega

theorem inBounds_copyByte {imageBase size offset source : Nat}
    (image : s.image = some (imageBase, size)) (user : imageBase + size ≤ USER_END)
    (near : offset < 2 ^ 34) :
    InBounds fileSize (s.copyByte buffer (imageBase + offset) source) ↔
      InBounds fileSize s ∧ source < fileSize ∧ offset < mappedBytes imageBase size := by
  unfold USER_END at user
  have whole : (imageBase + offset) % 2 ^ 64 = imageBase + offset := by
    apply Nat.mod_eq_of_lt
    omega
  simp only [Loader.copyByte, whole]
  constructor
  · intro bounds
    refine ⟨⟨fun o member => bounds.reads o (List.mem_append_left _ member), bounds.user,
      fun a member => bounds.writes a (List.mem_append_left _ member)⟩, ?_, ?_⟩
    · exact bounds.reads source (List.mem_append_right _ List.mem_cons_self)
    · obtain ⟨base, length, here, inside⟩ := bounds.writes (imageBase + offset)
        (List.mem_append_right _ List.mem_cons_self)
      rw [image] at here
      cases here
      exact onImage_iff.mp inside
  · rintro ⟨bounds, inFile, inImage⟩
    refine ⟨?_, bounds.user, ?_⟩
    · intro o member
      rcases List.mem_append.mp member with before | here
      · exact bounds.reads o before
      · rw [List.mem_singleton.mp here]
        exact inFile
    · intro a member
      rcases List.mem_append.mp member with before | here
      · exact bounds.writes a before
      · rw [List.mem_singleton.mp here]
        exact ⟨imageBase, size, image, onImage_iff.mpr inImage⟩

theorem inBounds_copyBytes {imageBase size : Nat} (user : imageBase + size ≤ USER_END) :
    ∀ (count offset source : Nat) (s : Loader), s.image = some (imageBase, size) →
      offset + count < 2 ^ 34 → source + count ≤ fileSize →
      (InBounds fileSize (s.copyBytes buffer count (imageBase + offset) source) ↔
        InBounds fileSize s ∧ (count ≠ 0 → offset + count ≤ mappedBytes imageBase size)) := by
  intro count
  induction count with
  | zero =>
    intro offset source s _ _ _
    simp only [Loader.copyBytes, ne_eq, not_true_eq_false, false_implies, and_true]
  | succ count ih =>
    intro offset source s image near inFile
    rw [Loader.copyBytes, Nat.add_assoc,
      ih (offset + 1) (source + 1) (s.copyByte buffer (imageBase + offset) source) image
        (by omega) (by omega),
      inBounds_copyByte image user (by omega)]
    constructor
    · rintro ⟨⟨bounds, _, first⟩, rest⟩
      refine ⟨bounds, fun _ => ?_⟩
      by_cases more : count = 0
      · omega
      · have := rest more
        omega
    · rintro ⟨bounds, all⟩
      have := all (Nat.succ_ne_zero count)
      exact ⟨⟨bounds, by omega, by omega⟩, fun _ => by omega⟩

theorem copyBytes_image (count destination source : Nat) : ∀ s : Loader,
    (s.copyBytes buffer count destination source).image = s.image := by
  induction count generalizing destination source with
  | zero => exact fun _ => rfl
  | succ count ih => exact fun s => ih _ _ (s.copyByte buffer destination source)

end Accesses

/-! ### The buffer is left alone -/

/-- A buffer that `kmalloc` gave out. -/
structure OnHeap (buffer : Nat) : Prop where
  above : HEAP_BASE ≤ buffer
  below : buffer + PE_BUFFER_SIZE ≤ HEAP_BASE + HEAP_SIZE

def Holds (buffer fileSize : Nat) (file : Nat → UInt8) (s : Loader) : Prop :=
  ∀ offset < fileSize, s.memory (buffer + offset) = file offset

/-- The number in the `width` bytes of a file at an offset. -/
def fileField (file : Nat → UInt8) (offset width : Nat) : Nat :=
  value ((List.range width).map fun k => file (offset + k))

section Buffer

variable {buffer fileSize : Nat} {file : Nat → UInt8} {s : Loader}

theorem Holds.read (holds : Holds buffer fileSize file s) (offset width : Nat) :
    Holds buffer fileSize file (s.read offset width) := holds

theorem Holds.field (holds : Holds buffer fileSize file s) (heap : OnHeap buffer)
    (small : fileSize ≤ PE_BUFFER_SIZE) (offset width : Nat) (inside : offset + width ≤ fileSize) :
    s.field buffer offset width = fileField file offset width := by
  unfold Loader.field fileField
  congr 1
  apply List.map_congr_left
  intro k member
  rw [List.mem_range] at member
  obtain ⟨_, below⟩ := heap
  unfold HEAP_BASE HEAP_SIZE at below
  rw [Nat.mod_eq_of_lt (by omega), Nat.add_assoc]
  exact holds (offset + k) (by omega)

theorem Holds.mapPage (holds : Holds buffer fileSize file s) (heap : OnHeap buffer)
    (small : fileSize ≤ PE_BUFFER_SIZE) {address : Nat} (user : address < USER_END)
    (frame : Nat → UInt8) : Holds buffer fileSize file (s.mapPage address frame) := by
  intro offset inside
  obtain ⟨above, below⟩ := heap
  unfold HEAP_BASE at above below
  unfold HEAP_SIZE at below
  unfold USER_END at user
  have apart : ¬(buffer + offset) / 4096 % 2 ^ 36 = address / 4096 % 2 ^ 36 := by omega
  simp only [Loader.mapPage, if_neg apart]
  exact holds offset inside

theorem Holds.mapImagePages (heap : OnHeap buffer) (small : fileSize ≤ PE_BUFFER_SIZE)
    {imageBase size : Nat} (user : imageBase + size ≤ USER_END)
    (frames : Nat → Option (Nat → UInt8)) :
    ∀ (left page : Nat) (s : Loader), page + left ≤ pageCount size → Holds buffer fileSize file s →
      Holds buffer fileSize file (mapImagePages frames imageBase left page s).2 := by
  intro left
  induction left with
  | zero => exact fun _ _ _ holds => holds
  | succ left ih =>
    intro page s inside holds
    rw [Process.mapImagePages]
    split
    · exact holds
    · rename_i frame _
      refine ih (page + 1) _ (by omega) (holds.mapPage heap small ?_ frame)
      unfold pageCount at inside
      omega

theorem mapImagePages_accesses (frames : Nat → Option (Nat → UInt8)) (imageBase : Nat) :
    ∀ (left page : Nat) (s : Loader), (mapImagePages frames imageBase left page s).2.image = s.image ∧
      (mapImagePages frames imageBase left page s).2.reads = s.reads ∧
      (mapImagePages frames imageBase left page s).2.writes = s.writes := by
  intro left
  induction left with
  | zero => exact fun _ _ => ⟨rfl, rfl, rfl⟩
  | succ left ih =>
    intro page s
    rw [mapImagePages]
    split
    · exact ⟨rfl, rfl, rfl⟩
    · exact ih (page + 1) _

theorem mapImagePages_fst (frames : Nat → Option (Nat → UInt8)) (imageBase : Nat) :
    ∀ (left page : Nat) (s : Loader), (mapImagePages frames imageBase left page s).1 = true ↔
      ∀ k, page ≤ k → k < page + left → (frames k).isSome = true := by
  intro left
  induction left with
  | zero =>
    intro page s
    constructor
    · intro _ k above below
      omega
    · exact fun _ => rfl
  | succ left ih =>
    intro page s
    rw [mapImagePages]
    cases here : frames page with
    | none =>
      constructor
      · intro impossible
        cases impossible
      · intro all
        have first := all page (le_refl page) (by omega)
        rw [here] at first
        cases first
    | some frame =>
      dsimp only
      rw [ih]
      constructor
      · intro rest k above below
        rcases Nat.eq_or_lt_of_le above with rfl | later
        · rw [here]
          rfl
        · exact rest k later (by omega)
      · exact fun all k above below => all k (by omega) (by omega)

theorem Holds.copyByte (holds : Holds buffer fileSize file s) (heap : OnHeap buffer)
    {destination : Nat} (user : destination < USER_END)
    (source : Nat) : Holds buffer fileSize file (s.copyByte buffer destination source) := by
  intro offset inside
  have apart : buffer + offset ≠ destination % 2 ^ 64 := by
    have above := heap.above
    unfold HEAP_BASE at above
    unfold USER_END at user
    omega
  simp only [Loader.copyByte, Function.update_of_ne apart]
  exact holds offset inside

theorem Holds.copyBytes (heap : OnHeap buffer) (count : Nat) : ∀ (destination source : Nat) (s : Loader),
      (count ≠ 0 → destination + count ≤ USER_END) → Holds buffer fileSize file s →
      Holds buffer fileSize file (s.copyBytes buffer count destination source) := by
  induction count with
  | zero => exact fun _ _ _ _ holds => holds
  | succ count ih =>
    intro destination source s user holds
    have last := user (Nat.succ_ne_zero count)
    exact ih _ _ _ (fun _ => by omega) (holds.copyByte heap (by omega) source)

end Buffer

/-! ### The files that are loaded in bounds -/

/-- The header of a section lies inside the file as far as it is read, and the section
lies inside the image if its raw data lie inside the file. -/
structure SectionInside (file : Nat → UInt8) (fileSize imageBase size header : Nat) : Prop where
  sized : header + 20 ≤ fileSize
  placed : fileField file (header + 16) 4 ≠ 0 → header + 24 ≤ fileSize
  fits : fileField file (header + 16) 4 ≠ 0 →
    fileField file (header + 20) 4 + fileField file (header + 16) 4 ≤ fileSize →
    fileField file (header + 12) 4 + fileField file (header + 16) 4 ≤ mappedBytes imageBase size

/-- The image lies in the user half, and the headers and sections lie inside it. -/
structure ImageInside (file : Nat → UInt8) (fileSize coff optional : Nat) : Prop where
  user : fileField file (optional + 24) 8 + fileField file (optional + 56) 4 ≤ USER_END
  headers : min (fileField file (optional + 60) 4) fileSize ≤
    mappedBytes (fileField file (optional + 24) 8) (fileField file (optional + 56) 4)
  sections : ∀ index < fileField file (coff + 2) 2,
    SectionInside file fileSize (fileField file (optional + 24) 8)
      (fileField file (optional + 56) 4)
      (optional + fileField file (coff + 16) 2 + index * 40)

def peOffset (file : Nat → UInt8) : Nat := fileField file 0x3C 4

/-- A file that is long enough, with the signature of a DOS header, and with a PE header that
the check of its place finds inside. -/
structure Checked (file : Nat → UInt8) (fileSize : Nat) : Prop where
  sized : 512 ≤ fileSize
  dos : fileField file 0 1 = 0x4D ∧ fileField file 1 1 = 0x5A
  inside : (peOffset file + 4) % 2 ^ 32 + 84 ≤ fileSize

/-- A PE header of a 64-bit image that is not empty. -/
structure Accepted (file : Nat → UInt8) : Prop where
  signature : fileField file (peOffset file) 1 = 0x50 ∧ fileField file (peOffset file + 1) 1 = 0x45
  magic : fileField file (peOffset file + 4 + 20) 2 = 0x20B
  nonempty : fileField file (peOffset file + 4 + 20 + 56) 4 ≠ 0

/-- A file that fails a check, or whose header offset does not wrap and whose image, if it
is mapped, holds what is copied to it. -/
def LoadsInside (file : Nat → UInt8) (fileSize : Nat) (frames : Nat → Option (Nat → UInt8)) : Prop :=
  Checked file fileSize → peOffset file + 4 < 2 ^ 32 ∧ (Accepted file →
      (∀ page < pageCount (fileField file (peOffset file + 4 + 20 + 56) 4), (frames page).isSome = true) →
      ImageInside file fileSize (peOffset file + 4) (peOffset file + 4 + 20))

section Loading

variable {buffer fileSize : Nat} {file : Nat → UInt8} {imageBase size : Nat}

theorem fileField_lt (file : Nat → UInt8) (offset width : Nat) :
    fileField file offset width < 256 ^ width := by
  have bound := value_lt ((List.range width).map fun k => file (offset + k))
  rwa [List.length_map, List.length_range] at bound

/-- The accesses of a state are made in the other state as well. -/
structure Before (s s' : Loader) : Prop where
  reads : s.reads ⊆ s'.reads
  writes : s.writes ⊆ s'.writes

namespace Before

variable {s s' t : Loader}

theorem refl (s : Loader) : Before s s := ⟨fun _ h => h, fun _ h => h⟩

theorem trans (first : Before s s') (second : Before s' t) : Before s t :=
  ⟨fun _ h => second.reads (first.reads h), fun _ h => second.writes (first.writes h)⟩

theorem image (before : Before s s') (image : Option (Nat × Nat)) :
    Before s { s' with image := image } := ⟨before.reads, before.writes⟩

theorem read (before : Before s s') (offset width : Nat) : Before s (s'.read offset width) :=
  before.trans ⟨List.subset_append_left _ _, fun _ h => h⟩

theorem copyBytes (count : Nat) : ∀ {s' : Loader} (destination source : Nat), Before s s' →
    Before s (s'.copyBytes buffer count destination source) := by
  induction count with
  | zero => exact fun _ _ before => before
  | succ count ih =>
    intro s' destination source before
    refine ih _ _ (before.trans ⟨?_, ?_⟩)
    · exact List.subset_append_left _ _
    · exact List.subset_append_left _ _

theorem loadSection (optional header : Nat) (before : Before s s') :
    Before s (loadSection buffer fileSize optional header s') := by
  unfold Process.loadSection
  dsimp only
  split
  · split
    · exact ((((before.read _ _).read _ _).read _ _).read _ _).copyBytes _ _ _
    · exact (before.read _ _).read _ _
  · exact before.read _ _

theorem loadSections (coff optional sections left : Nat) : ∀ {s' : Loader} (index : Nat),
    Before s s' → Before s (loadSections buffer fileSize coff optional sections left index s') := by
  induction left with
  | zero => exact fun _ before => before
  | succ left ih =>
    intro s' index before
    rw [Process.loadSections]
    split
    · exact ih _ ((before.read _ _).loadSection _ _)
    · exact before.read _ _

theorem mapImagePages {frames : Nat → Option (Nat → UInt8)} {imageBase left page : Nat} {ok : Bool}
    (mapped : mapImagePages frames imageBase left page s' = (ok, t)) (before : Before s s') :
    Before s t := by
  obtain ⟨_, reads, writes⟩ := mapImagePages_accesses frames imageBase left page s'
  rw [mapped] at reads writes
  exact before.trans ⟨reads.symm ▸ fun _ h => h, writes.symm ▸ fun _ h => h⟩

theorem fillImage (coff optional : Nat) (before : Before s s') :
    Before s (fillImage buffer fileSize coff optional s') := by
  unfold Process.fillImage
  apply loadSections
  apply read
  apply copyBytes
  exact (before.read _ _).read _ _

theorem loadImage (frames : Nat → Option (Nat → UInt8)) (coff optional : Nat)
    (before : Before s s') : Before s (loadImage buffer fileSize coff optional frames s').2 := by
  have fields := (before.read (optional + 24) 8).read (optional + 56) 4
  unfold Process.loadImage
  dsimp only
  split
  · rename_i t failed
    dsimp only
    exact (fields.mapImagePages failed).read _ _
  · rename_i t done
    dsimp only
    exact ((fields.mapImagePages done).image _).fillImage coff optional

end Before

theorem InBounds.before {s s' : Loader} (bounds : InBounds fileSize s') (before : Before s s')
    (image : s'.image = s.image) : InBounds fileSize s where
  reads := fun offset member => bounds.reads offset (before.reads member)
  user := by
    rw [← image]
    exact bounds.user
  writes := by
    rw [← image]
    exact fun address member => bounds.writes address (before.writes member)

/-- The state between two sections: the buffer holds the file, and the image is mapped. -/
structure Mapped (buffer fileSize : Nat) (file : Nat → UInt8) (imageBase size : Nat)
    (s : Loader) : Prop where
  holds : Holds buffer fileSize file s
  image : s.image = some (imageBase, size)

theorem Mapped.read {s : Loader} (mapped : Mapped buffer fileSize file imageBase size s)
    (offset width : Nat) : Mapped buffer fileSize file imageBase size (s.read offset width) :=
  ⟨mapped.holds, mapped.image⟩

theorem Mapped.copyBytes {s : Loader} (mapped : Mapped buffer fileSize file imageBase size s)
    (heap : OnHeap buffer) (user : imageBase + size ≤ USER_END) {count offset source : Nat}
    (fits : count ≠ 0 → offset + count ≤ mappedBytes imageBase size) :
    Mapped buffer fileSize file imageBase size (s.copyBytes buffer count (imageBase + offset) source) := by
  constructor
  · refine .copyBytes heap count _ _ s (fun some_bytes => ?_) mapped.holds
    have inside := fits some_bytes
    unfold mappedBytes at inside
    omega
  · rw [copyBytes_image]
    exact mapped.image

theorem InBounds.of_read {s s' : Loader} {offset width : Nat} (bounds : InBounds fileSize s')
    (before : Before (s.read offset width) s') (image : s'.image = s.image)
    (some_bytes : 0 < width) : InBounds fileSize s ∧ offset + width ≤ fileSize :=
  (inBounds_read offset width some_bytes).mp (bounds.before before image)

theorem loadSection_image (optional header : Nat) (s : Loader) :
    (loadSection buffer fileSize optional header s).image = s.image := by
  unfold loadSection
  dsimp only
  split
  · split
    · exact copyBytes_image _ _ _ _
    · rfl
  · rfl

theorem loadSection_reads_size (optional header : Nat) (s : Loader) :
    Before (s.read (header + 16) 4) (loadSection buffer fileSize optional header s) := by
  unfold loadSection
  dsimp only
  split
  · split
    · exact ((((Before.refl _).read _ _).read _ _).read _ _).copyBytes _ _ _
    · exact (Before.refl _).read _ _
  · exact Before.refl _

theorem loadSection_reads_offset (optional header : Nat) {s : Loader}
    (sized : (s.read (header + 16) 4).field buffer (header + 16) 4 ≠ 0) :
    Before ((s.read (header + 16) 4).read (header + 20) 4)
      (loadSection buffer fileSize optional header s) := by
  unfold loadSection
  dsimp only
  rw [if_pos sized]
  split
  · exact (((Before.refl _).read _ _).read _ _).copyBytes _ _ _
  · exact Before.refl _

theorem loadSection_eq (heap : OnHeap buffer) (small : fileSize ≤ PE_BUFFER_SIZE) {optional : Nat}
    (inFile : optional + 64 ≤ fileSize) {header : Nat} {s : Loader}
    (holds : Holds buffer fileSize file s) (some_bytes : fileField file (header + 16) 4 ≠ 0)
    (placed : header + 24 ≤ fileSize) :
    loadSection buffer fileSize optional header s =
      if fileField file (header + 20) 4 + fileField file (header + 16) 4 ≤ fileSize then
        ((((s.read (header + 16) 4).read (header + 20) 4).read (optional + 24) 8).read
          (header + 12) 4).copyBytes buffer (fileField file (header + 16) 4)
            (fileField file (optional + 24) 8 + fileField file (header + 12) 4)
            (fileField file (header + 20) 4)
      else (s.read (header + 16) 4).read (header + 20) 4 := by
  -- the reads change nothing that the fields depend on
  have field : ∀ (t : Loader) offset width, t.memory = s.memory → offset + width ≤ fileSize →
      t.field buffer offset width = fileField file offset width := by
    intro t offset width same inside
    have kept : Holds buffer fileSize file t := by
      unfold Holds
      rw [same]
      exact holds
    exact kept.field heap small offset width inside
  unfold loadSection
  dsimp only
  rw [field (s.read (header + 16) 4) (header + 16) 4 rfl (by omega), if_pos some_bytes,
    field ((s.read (header + 16) 4).read (header + 20) 4) (header + 20) 4 rfl (by omega),
    field ((s.read (header + 16) 4).read (header + 20) 4) (header + 16) 4 rfl (by omega)]
  split
  · have reading (offset width : Nat) (inside : offset + width ≤ fileSize) :=
      field ((((s.read (header + 16) 4).read (header + 20) 4).read (optional + 24) 8).read
        (header + 12) 4) offset width rfl inside
    rw [reading (header + 16) 4 (by omega), reading (optional + 24) 8 (by omega),
      reading (header + 12) 4 (by omega), reading (header + 20) 4 (by omega)]
  · rfl

theorem loadSection_inBounds (heap : OnHeap buffer) (small : fileSize ≤ PE_BUFFER_SIZE)
    (user : imageBase + size ≤ USER_END) {optional : Nat} (inFile : optional + 64 ≤ fileSize)
    (base : fileField file (optional + 24) 8 = imageBase) {header : Nat} {s : Loader}
    (mapped : Mapped buffer fileSize file imageBase size s) :
    InBounds fileSize (loadSection buffer fileSize optional header s) ↔
      InBounds fileSize s ∧ SectionInside file fileSize imageBase size header := by
  have near := fileField_lt file (header + 16) 4
  have near' := fileField_lt file (header + 12) 4
  have reading := (((mapped.read (header + 16) 4).read (header + 20) 4).read (optional + 24) 8).read
    (header + 12) 4
  constructor
  · intro bounds
    have image := @loadSection_image buffer fileSize optional header s
    obtain ⟨before, sized⟩ :=
      bounds.of_read (loadSection_reads_size optional header s) image (by decide)
    have rawSize := (mapped.holds.read (header + 16) 4).field heap small (header + 16) 4 sized
    have placed (some_bytes : fileField file (header + 16) 4 ≠ 0) : header + 24 ≤ fileSize :=
      (bounds.of_read (loadSection_reads_offset optional header (rawSize ▸ some_bytes)) image
        (by decide)).2
    refine ⟨before, sized, placed, ?_⟩
    intro some_bytes inside
    rw [loadSection_eq heap small inFile mapped.holds some_bytes (placed some_bytes),
      if_pos inside, base, inBounds_copyBytes user (fileField file (header + 16) 4)
        (fileField file (header + 12) 4) _ _ reading.image (by omega) inside] at bounds
    exact bounds.2 some_bytes
  · rintro ⟨before, inside⟩
    have sized := inside.sized
    have read := (inBounds_read (header + 16) 4 (by decide)).mpr
      ⟨before, sized⟩
    by_cases some_bytes : fileField file (header + 16) 4 ≠ 0
    · have placed := inside.placed some_bytes
      have read' := (inBounds_read (header + 20) 4 (by decide)).mpr
        ⟨read, placed⟩
      rw [loadSection_eq heap small inFile mapped.holds some_bytes placed]
      split
      · rename_i inFile'
        rw [base, inBounds_copyBytes user (fileField file (header + 16) 4)
          (fileField file (header + 12) 4) _ _ reading.image (by omega) inFile',
          inBounds_read _ _ (by decide), inBounds_read _ _ (by decide)]
        exact ⟨⟨⟨read', by omega⟩, by omega⟩, fun _ => inside.fits some_bytes inFile'⟩
      · exact read'
    · have rawSize := (mapped.holds.read (header + 16) 4).field heap small (header + 16) 4 sized
      unfold loadSection
      dsimp only
      rw [rawSize, if_neg some_bytes]
      exact read

theorem loadSection_mapped (heap : OnHeap buffer) (small : fileSize ≤ PE_BUFFER_SIZE)
    (user : imageBase + size ≤ USER_END) {optional : Nat} (inFile : optional + 64 ≤ fileSize)
    (base : fileField file (optional + 24) 8 = imageBase) {header : Nat} {s : Loader}
    (mapped : Mapped buffer fileSize file imageBase size s)
    (inside : SectionInside file fileSize imageBase size header) :
    Mapped buffer fileSize file imageBase size (loadSection buffer fileSize optional header s) := by
  by_cases some_bytes : fileField file (header + 16) 4 ≠ 0
  · rw [loadSection_eq heap small inFile mapped.holds some_bytes (inside.placed some_bytes)]
    split
    · rename_i inFile'
      rw [base]
      exact ((((mapped.read _ _).read _ _).read _ _).read _ _).copyBytes heap user
        fun _ => inside.fits some_bytes inFile'
    · exact (mapped.read _ _).read _ _
  · have rawSize := (mapped.holds.read (header + 16) 4).field heap small (header + 16) 4 inside.sized
    unfold loadSection
    dsimp only
    rw [rawSize, if_neg some_bytes]
    exact mapped.read _ _

theorem loadSections_image (coff optional sections left : Nat) : ∀ (index : Nat) (s : Loader),
    (loadSections buffer fileSize coff optional sections left index s).image = s.image := by
  induction left with
  | zero => exact fun _ _ => rfl
  | succ left ih =>
    intro index s
    rw [loadSections]
    split
    · rw [ih, loadSection_image]
      rfl
    · rfl

theorem loadSections_inBounds (heap : OnHeap buffer) (small : fileSize ≤ PE_BUFFER_SIZE)
    (user : imageBase + size ≤ USER_END) {coff optional sections : Nat}
    (inFile : optional + 64 ≤ fileSize) (here : coff + 4 ≤ fileSize)
    (base : fileField file (optional + 24) 8 = imageBase) :
    ∀ (left index : Nat) (s : Loader), index + left = SECTION_COUNT_END →
      Mapped buffer fileSize file imageBase size s →
      (InBounds fileSize (loadSections buffer fileSize coff optional sections left index s) ↔
        InBounds fileSize s ∧ ∀ k, index ≤ k → k < fileField file (coff + 2) 2 →
          SectionInside file fileSize imageBase size (sections + k * 40)) := by
  intro left
  induction left with
  | zero =>
    intro index s last mapped
    -- the count is a 16-bit number, and so the loop has ended before
    have count := fileField_lt file (coff + 2) 2
    unfold SECTION_COUNT_END at last
    constructor
    · intro bounds
      exact ⟨bounds, fun k above below => by omega⟩
    · exact fun both => both.1
  | succ left ih =>
    intro index s last mapped
    have count := (mapped.holds.read (coff + 2) 2).field heap small (coff + 2) 2 (by omega)
    have read := @inBounds_read fileSize s (coff + 2) 2 (by decide)
    rw [loadSections, count]
    split
    · rename_i more
      have mapped' := mapped.read (coff + 2) 2
      by_cases inside : SectionInside file fileSize imageBase size (sections + index * 40)
      · rw [ih (index + 1) _ (by omega)
          (loadSection_mapped heap small user inFile base mapped' inside),
          loadSection_inBounds heap small user inFile base mapped', read]
        constructor
        · rintro ⟨⟨⟨bounds, _⟩, _⟩, rest⟩
          refine ⟨bounds, fun k above below => ?_⟩
          rcases Nat.eq_or_lt_of_le above with rfl | later
          · exact inside
          · exact rest k later below
        · rintro ⟨bounds, all⟩
          exact ⟨⟨⟨bounds, by omega⟩, inside⟩, fun k above below => all k (by omega) below⟩
      · -- a section that is not inside is seen at once
        constructor
        · intro bounds
          have section_bounds := bounds.before
            ((Before.refl _).loadSections coff optional sections left (index + 1))
            (loadSections_image coff optional sections left (index + 1) _)
          exact absurd ((loadSection_inBounds heap small user inFile base mapped').mp
            section_bounds).2 inside
        · rintro ⟨_, all⟩
          exact absurd (all index (le_refl index) more) inside
    · rename_i done
      rw [read]
      constructor
      · rintro ⟨bounds, _⟩
        exact ⟨bounds, fun k above below => by omega⟩
      · exact fun both => ⟨both.1, by omega⟩

theorem fillImage_inBounds (heap : OnHeap buffer) (small : fileSize ≤ PE_BUFFER_SIZE)
    {coff optional : Nat} (inFile : optional + 64 ≤ fileSize) (here : coff + 20 ≤ fileSize)
    {s : Loader} (user : fileField file (optional + 24) 8 + fileField file (optional + 56) 4 ≤ USER_END)
    (mapped : Mapped buffer fileSize file (fileField file (optional + 24) 8)
      (fileField file (optional + 56) 4) s) :
    InBounds fileSize (fillImage buffer fileSize coff optional s) ↔
      InBounds fileSize s ∧ ImageInside file fileSize coff optional := by
  have reading := (mapped.read (optional + 24) 8).read (optional + 60) 4
  have base := reading.holds.field heap small (optional + 24) 8 (by omega)
  have headers := reading.holds.field heap small (optional + 60) 4 (by omega)
  have reads : InBounds fileSize ((s.read (optional + 24) 8).read (optional + 60) 4) ↔
      InBounds fileSize s := by
    rw [inBounds_read _ _ (by decide), inBounds_read _ _ (by decide)]
    exact ⟨fun bounds => bounds.1.1, fun bounds => ⟨⟨bounds, by omega⟩, by omega⟩⟩
  have inBuffer : fileSize ≤ 65536 := small
  have copied := @inBounds_copyBytes buffer fileSize _ _ user
    (min (fileField file (optional + 60) 4) fileSize) 0 0 _ reading.image (by omega) (by omega)
  simp only [Nat.zero_add, Nat.add_zero, reads] at copied
  unfold fillImage
  dsimp only
  rw [base, headers]
  by_cases fits : min (fileField file (optional + 60) 4) fileSize ≤
      mappedBytes (fileField file (optional + 24) 8) (fileField file (optional + 56) 4)
  · have filled := @Mapped.copyBytes _ _ _ _ _ _ reading heap user
      (min (fileField file (optional + 60) 4) fileSize) 0 0 fun _ => by omega
    simp only [Nat.add_zero] at filled
    have table := (filled.read (coff + 16) 2).holds.field heap small (coff + 16) 2 (by omega)
    rw [table, loadSections_inBounds heap small user inFile (by omega) rfl _ _ _ (Nat.zero_add _)
      (filled.read (coff + 16) 2), inBounds_read _ _ (by decide), copied]
    constructor
    · rintro ⟨⟨⟨bounds, _⟩, _⟩, sections⟩
      exact ⟨bounds, user, fits, fun k below => sections k (Nat.zero_le k) below⟩
    · rintro ⟨bounds, inside⟩
      exact ⟨⟨⟨bounds, fun _ => fits⟩, by omega⟩, fun k _ below => inside.sections k below⟩
  · -- the headers do not fit, and the first sections cannot make up for it
    constructor
    · intro bounds
      have before := (bounds.before ((Before.refl _).loadSections _ _ _ _ _)
        (loadSections_image _ _ _ _ _ _)).before ((Before.refl _).read (coff + 16) 2) rfl
      exact absurd ((copied.mp before).2 fun zero => fits (by omega)) fits
    · rintro ⟨_, inside⟩
      exact absurd inside.headers fits

theorem fillImage_image (coff optional : Nat) (s : Loader) :
    (fillImage buffer fileSize coff optional s).image = s.image := by
  unfold fillImage
  dsimp only
  rw [loadSections_image]
  exact copyBytes_image _ _ _ _

theorem inBounds_image {s : Loader} (unwritten : s.writes = []) (memory : Nat → UInt8) :
    InBounds fileSize { s with memory := memory, image := some (imageBase, size) } ↔
      (∀ offset ∈ s.reads, offset < fileSize) ∧ imageBase + size ≤ USER_END := by
  constructor
  · exact fun bounds => ⟨bounds.reads, bounds.user imageBase size rfl⟩
  · rintro ⟨reads, user⟩
    refine ⟨reads, ?_, ?_⟩
    · intro base length here
      cases here
      exact user
    · intro address member
      rw [show ({ s with memory := memory, image := some (imageBase, size) } : Loader).writes =
        s.writes from rfl, unwritten] at member
      cases member

theorem loadImage_inBounds (heap : OnHeap buffer) (small : fileSize ≤ PE_BUFFER_SIZE)
    {coff optional : Nat} (inFile : optional + 64 ≤ fileSize) (here : coff + 20 ≤ fileSize)
    {s : Loader} (holds : Holds buffer fileSize file s) (bounds : InBounds fileSize s)
    (unmapped : s.image = none) (unwritten : s.writes = [])
    (frames : Nat → Option (Nat → UInt8)) :
    InBounds fileSize (loadImage buffer fileSize coff optional frames s).2 ↔
      ((∀ page < pageCount (fileField file (optional + 56) 4), (frames page).isSome = true) →
        ImageInside file fileSize coff optional) := by
  have reads := (inBounds_read (optional + 56) 4 (by decide)).mpr
    ⟨(inBounds_read (optional + 24) 8 (by decide)).mpr ⟨bounds, by omega⟩, by omega⟩
  have reading := (holds.read (optional + 24) 8).read (optional + 56) 4
  have base := reading.field heap small (optional + 24) 8 (by omega)
  have length := reading.field heap small (optional + 56) 4 (by omega)
  unfold loadImage
  dsimp only
  rw [base, length]
  rcases mapping : mapImagePages frames (fileField file (optional + 24) 8)
    (pageCount (fileField file (optional + 56) 4)) 0
    ((s.read (optional + 24) 8).read (optional + 56) 4) with ⟨ok, t⟩
  have whole := mapImagePages_fst frames (fileField file (optional + 24) 8)
    (pageCount (fileField file (optional + 56) 4)) 0
    ((s.read (optional + 24) 8).read (optional + 56) 4)
  obtain ⟨unmapped', reads', unwritten'⟩ := mapImagePages_accesses frames
    (fileField file (optional + 24) 8) (pageCount (fileField file (optional + 56) 4)) 0
    ((s.read (optional + 24) 8).read (optional + 56) 4)
  rw [mapping] at whole reads'
  have unwritten' : t.writes = [] := by
    rw [mapping] at unwritten'
    exact unwritten'.trans unwritten
  have unmapped' : t.image = none := by
    rw [mapping] at unmapped'
    exact unmapped'.trans unmapped
  cases ok with
  | false =>
    dsimp only
    constructor
    · intro _ all
      have done := whole.mpr fun k _ below => all k (by omega)
      cases done
    · intro _
      rw [inBounds_read _ _ (by decide)]
      refine ⟨⟨?_, ?_, ?_⟩, by omega⟩
      · rw [reads']
        exact reads.reads
      · intro base length entered
        rw [unmapped'] at entered
        cases entered
      · intro address member
        rw [unwritten'] at member
        cases member
  | true =>
    dsimp only
    have all : ∀ page < pageCount (fileField file (optional + 56) 4),
        (frames page).isSome = true := fun page below => whole.mp rfl page (Nat.zero_le _) (by omega)
    by_cases user : fileField file (optional + 24) 8 + fileField file (optional + 56) 4 ≤ USER_END
    · have kept := Holds.mapImagePages heap small user frames
        (pageCount (fileField file (optional + 56) 4)) 0 _ (by omega) reading
      rw [mapping] at kept
      have entered : Mapped buffer fileSize file (fileField file (optional + 24) 8)
          (fileField file (optional + 56) 4)
          { t with
            image := some (fileField file (optional + 24) 8, fileField file (optional + 56) 4) } :=
        ⟨kept, rfl⟩
      rw [fillImage_inBounds heap small inFile here user entered, inBounds_image unwritten' t.memory, reads']
      constructor
      · exact fun both _ => both.2
      · exact fun inside => ⟨⟨reads.reads, user⟩, inside all⟩
    · constructor
      · intro bounds
        exact absurd (bounds.user _ _ (by rw [fillImage_image])) user
      · intro inside
        exact absurd (inside all).user user

theorem acceptHeaders_kept (s : Loader) : (acceptHeaders buffer fileSize s).2.memory = s.memory ∧
    (acceptHeaders buffer fileSize s).2.image = s.image ∧
    (acceptHeaders buffer fileSize s).2.writes = s.writes := by
  unfold acceptHeaders
  dsimp only
  split_ifs <;> exact ⟨rfl, rfl, rfl⟩

/-- The ways through the checks: the file fails one on its size, its header offset wraps,
or its header is looked at. -/
inductive Ways (file : Nat → UInt8) (fileSize : Nat) (result : Option Nat × Loader) : Prop
  | unchecked (here : ¬Checked file fileSize) (rejected : result.1 = none)
      (bounds : InBounds fileSize result.2)
  | wrapped (here : Checked file fileSize) (wraps : 2 ^ 32 ≤ peOffset file + 4)
      (read : peOffset file ∈ result.2.reads)
  | looked (here : Checked file fileSize) (whole : peOffset file + 4 < 2 ^ 32)
      (bounds : InBounds fileSize result.2)
      (accepted : Accepted file ∧ result.1 = some (peOffset file + 4) ∨ ¬Accepted file ∧ result.1 = none)

theorem acceptHeaders_ways (heap : OnHeap buffer) (small : fileSize ≤ PE_BUFFER_SIZE) {s : Loader}
    (holds : Holds buffer fileSize file s) (bounds : InBounds fileSize s) :
    Ways file fileSize (acceptHeaders buffer fileSize s) := by
  have field := fun offset width => holds.field heap small offset width
  have reads : ∀ (t : Loader) offset width, InBounds fileSize t → 0 < width →
      offset + width ≤ fileSize → InBounds fileSize (t.read offset width) :=
    fun t offset width inside some_bytes fits =>
      (inBounds_read offset width some_bytes).mpr ⟨inside, fits⟩
  unfold acceptHeaders
  simp only [Loader.field_read]
  by_cases short : fileSize < 512
  · rw [if_pos short]
    refine .unchecked (fun checked => by have := checked.sized; omega) rfl ?_
    split
    · exact reads _ _ _ bounds (by decide) (by omega)
    · exact bounds
  · rw [if_neg short]
    have bounds0 := reads s 0 1 bounds (by decide) (by omega)
    simp only [field 0 1 (by omega)]
    by_cases m : fileField file 0 1 ≠ 0x4D
    · rw [if_pos m]
      exact .unchecked (fun checked => m checked.dos.1) rfl bounds0
    · rw [if_neg m]
      have bounds1 := reads _ 1 1 bounds0 (by decide) (by omega)
      simp only [field 1 1 (by omega)]
      by_cases z : fileField file 1 1 ≠ 0x5A
      · rw [if_pos z]
        exact .unchecked (fun checked => z checked.dos.2) rfl bounds1
      · rw [if_neg z]
        have bounds2 := reads _ 0x3C 4 bounds1 (by decide) (by omega)
        have here : s.field buffer 0x3C 4 = peOffset file := field 0x3C 4 (by omega)
        simp only [here]
        by_cases outside : fileSize < (peOffset file + 4) % 2 ^ 32 + 20 + 64
        · rw [if_pos outside]
          exact .unchecked (fun checked => by have := checked.inside; omega) rfl bounds2
        · rw [if_neg outside]
          have checked : Checked file fileSize :=
            ⟨by omega, ⟨not_not.mp m, not_not.mp z⟩, by omega⟩
          by_cases wraps : 2 ^ 32 ≤ peOffset file + 4
          · -- the signature is read at the offset that has not been added up
            refine .wrapped checked wraps ?_
            split_ifs <;> simp [Loader.read]
          · have whole : (peOffset file + 4) % 2 ^ 32 = peOffset file + 4 :=
              Nat.mod_eq_of_lt (by omega)
            have next : (peOffset file + 1) % 2 ^ 32 = peOffset file + 1 :=
              Nat.mod_eq_of_lt (by omega)
            rw [whole] at outside
            simp only [whole, next]
            have bounds3 := reads _ (peOffset file) 1 bounds2 (by decide) (by omega)
            simp only [field (peOffset file) 1 (by omega)]
            by_cases first : fileField file (peOffset file) 1 ≠ 0x50
            · rw [if_pos first]
              exact .looked checked (by omega) bounds3
                (Or.inr ⟨fun accepted => first accepted.signature.1, rfl⟩)
            · rw [if_neg first]
              have bounds4 := reads _ (peOffset file + 1) 1 bounds3 (by decide) (by omega)
              simp only [field (peOffset file + 1) 1 (by omega)]
              by_cases second : fileField file (peOffset file + 1) 1 ≠ 0x45
              · rw [if_pos second]
                exact .looked checked (by omega) bounds4
                  (Or.inr ⟨fun accepted => second accepted.signature.2, rfl⟩)
              · rw [if_neg second]
                have bounds5 := reads _ (peOffset file + 4 + 20) 2 bounds4 (by decide) (by omega)
                simp only [field (peOffset file + 4 + 20) 2 (by omega)]
                by_cases magic : fileField file (peOffset file + 4 + 20) 2 ≠ 0x20B
                · rw [if_pos magic]
                  exact .looked checked (by omega) bounds5
                    (Or.inr ⟨fun accepted => magic accepted.magic, rfl⟩)
                · rw [if_neg magic]
                  have bounds6 := reads _ (peOffset file + 4 + 20 + 56) 4 bounds5 (by decide)
                    (by omega)
                  simp only [field (peOffset file + 4 + 20 + 56) 4 (by omega)]
                  by_cases empty : fileField file (peOffset file + 4 + 20 + 56) 4 = 0
                  · rw [if_pos empty]
                    exact .looked checked (by omega) bounds6
                      (Or.inr ⟨fun accepted => accepted.nonempty empty, rfl⟩)
                  · rw [if_neg empty]
                    exact .looked checked (by omega) bounds6 (Or.inl
                      ⟨⟨⟨not_not.mp first, not_not.mp second⟩, not_not.mp magic, empty⟩, rfl⟩)

theorem peLoad_before (frames : Nat → Option (Nat → UInt8)) (stack : Option (Nat × (Nat → UInt8)))
    (s : Loader) : Before (acceptHeaders buffer fileSize s).2
      (peLoadAndEnterUserProgram buffer fileSize frames stack s).2 := by
  unfold peLoadAndEnterUserProgram
  rcases acceptHeaders buffer fileSize s with ⟨_ | coff, s'⟩
  · exact Before.refl s'
  · have loaded := @Before.loadImage buffer fileSize _ _ frames coff (coff + 20) (Before.refl s')
    dsimp only
    rcases loading : loadImage buffer fileSize coff (coff + 20) frames s' with ⟨_ | _, t⟩ <;>
      rw [loading] at loaded
    · exact loaded
    · rcases stack with _ | ⟨address, frame⟩
      · exact loaded
      · have entered : Before s' (t.mapPage address frame) := ⟨loaded.reads, loaded.writes⟩
        exact (entered.read _ _).read _ _

theorem peLoad_entered (frames : Nat → Option (Nat → UInt8))
    (stack : Option (Nat × (Nat → UInt8))) {s s' : Loader} {coff : Nat}
    (accepted : acceptHeaders buffer fileSize s = (some coff, s'))
    (inFile : coff + 84 ≤ fileSize) :
    InBounds fileSize (peLoadAndEnterUserProgram buffer fileSize frames stack s).2 ↔
      InBounds fileSize (loadImage buffer fileSize coff (coff + 20) frames s').2 := by
  unfold peLoadAndEnterUserProgram
  rw [accepted]
  dsimp only
  rcases loadImage buffer fileSize coff (coff + 20) frames s' with ⟨_ | _, t⟩
  · exact Iff.rfl
  · rcases stack with _ | ⟨address, frame⟩
    · exact Iff.rfl
    · dsimp only
      rw [inBounds_read _ _ (by decide), inBounds_read _ _ (by decide)]
      constructor
      · rintro ⟨⟨bounds, _⟩, _⟩
        exact ⟨bounds.reads, bounds.user, bounds.writes⟩
      · intro bounds
        exact ⟨⟨⟨bounds.reads, bounds.user, bounds.writes⟩, by omega⟩, by omega⟩

/-- The loader stays within the file and within the image exactly for the files whose
header offset does not wrap, and whose headers, section table and sections lie where they
are read and copied to. -/
theorem peLoad_inBounds_iff (heap : OnHeap buffer) (small : fileSize ≤ PE_BUFFER_SIZE)
    (memory : Nat → UInt8) (frames : Nat → Option (Nat → UInt8))
    (stack : Option (Nat × (Nat → UInt8))) :
    InBounds fileSize (peLoadAndEnterUserProgram buffer fileSize frames stack ⟨memory, none, [], []⟩).2 ↔
      LoadsInside (fun offset => memory (buffer + offset)) fileSize frames := by
  have holds : Holds buffer fileSize (fun offset => memory (buffer + offset))
      ⟨memory, none, [], []⟩ := fun _ _ => rfl
  have start : InBounds fileSize ⟨memory, none, [], []⟩ := by
    constructor
    · intro offset member
      cases member
    · intro base size entered
      cases entered
    · intro address member
      cases member
  have before := @peLoad_before buffer fileSize frames stack ⟨memory, none, [], []⟩
  obtain ⟨same, unmapped, unwritten⟩ :=
    @acceptHeaders_kept buffer fileSize ⟨memory, none, [], []⟩
  have ways := acceptHeaders_ways heap small holds start
  rcases checks : acceptHeaders buffer fileSize ⟨memory, none, [], []⟩ with ⟨result, s⟩
  rw [checks] at before same unmapped unwritten ways
  cases ways with
  | unchecked unchecked rejected bounds =>
    cases rejected
    constructor
    · exact fun _ checked => absurd checked unchecked
    · intro _
      unfold peLoadAndEnterUserProgram
      rw [checks]
      exact bounds
  | wrapped checked wraps read =>
    constructor
    · intro bounds
      have inside := bounds.reads _ (before.reads read)
      unfold PE_BUFFER_SIZE at small
      omega
    · intro inside
      have := (inside checked).1
      omega
  | looked checked whole bounds looked =>
    rcases looked with ⟨accepted, found⟩ | ⟨refused, missing⟩
    · cases found
      have inFile := checked.inside
      rw [Nat.mod_eq_of_lt whole] at inFile
      have kept : Holds buffer fileSize (fun offset => memory (buffer + offset)) s := by
        unfold Holds
        rw [same]
        exact holds
      rw [peLoad_entered frames stack checks inFile,
        loadImage_inBounds heap small (by omega) (by omega) kept bounds unmapped unwritten]
      constructor
      · exact fun inside _ => ⟨whole, fun _ => inside⟩
      · exact fun inside => (inside checked).2 accepted
    · cases missing
      constructor
      · exact fun _ _ => ⟨whole, fun accepted => absurd accepted refused⟩
      · intro _
        unfold peLoadAndEnterUserProgram
        rw [checks]
        exact bounds

end Loading

/-! ### A file with one section, and one whose header offset wraps -/

/-- The bytes of a small program that are not zero: its headers, with an image of two pages
at 4 MiB and one section of 16 bytes on the second page. -/
def smallProgram : List (Nat × UInt8) :=
  [(0, 0x4D), (1, 0x5A), (0x3C, 0x40), (0x40, 0x50), (0x41, 0x45), (70, 1), (84, 112), (88, 0x0B),
    (89, 0x02), (114, 0x40), (145, 0x20), (149, 0x02), (213, 0x10), (216, 16), (221, 0x02)]

/-- A file in a buffer at the start of the heap. -/
def inBuffer (bytes : List (Nat × UInt8)) (address : Nat) : UInt8 :=
  (bytes.lookup (address - (HEAP_BASE + 32))).getD 0

theorem peLoad_inBounds_example :
    InBounds 528 (peLoadAndEnterUserProgram (HEAP_BASE + 32) 528 (fun _ => some fun _ => 0) none
      ⟨inBuffer smallProgram, none, [], []⟩).2 := by
  refine (peLoad_inBounds_iff ⟨by decide, by decide⟩ (by decide) _ _ none).mpr fun _ => ?_
  refine ⟨by decide +kernel, fun _ _ => ⟨by decide +kernel, by decide +kernel, ?_⟩⟩
  intro index below
  have one : fileField (fun offset => inBuffer smallProgram (HEAP_BASE + 32 + offset))
      (peOffset (fun offset => inBuffer smallProgram (HEAP_BASE + 32 + offset)) + 4 + 2) 2 = 1 := by
    decide +kernel
  rw [one] at below
  have first : index = 0 := by omega
  subst first
  exact ⟨by decide +kernel, fun _ => by decide +kernel, fun _ _ => by decide +kernel⟩

/-- A file of 512 bytes with an offset of 0xFFFFFFFF to its PE header. -/
def wrappingProgram : List (Nat × UInt8) :=
  [(0, 0x4D), (1, 0x5A), (0x3C, 0xFF), (0x3D, 0xFF), (0x3E, 0xFF), (0x3F, 0xFF)]

/-- The check of the offset adds 4 to it in 32 bits, and the signature is then read four
gigabytes behind the buffer. -/
theorem peLoad_reads_outside :
    ¬InBounds 512 (peLoadAndEnterUserProgram (HEAP_BASE + 32) 512 (fun _ => some fun _ => 0) none
      ⟨inBuffer wrappingProgram, none, [], []⟩).2 := by
  intro bounds
  have read : 0xFFFFFFFF ∈ (peLoadAndEnterUserProgram (HEAP_BASE + 32) 512
      (fun _ => some fun _ => 0) none ⟨inBuffer wrappingProgram, none, [], []⟩).2.reads := by
    decide +kernel
  have inside := bounds.reads _ read
  omega

end AsasOs.Process
