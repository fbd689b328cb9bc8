import AsasOs.Ntfs.Records

/-!
# NTFS: nodes of a directory index

A node is an index header and the entries behind it, up to the one that is marked as the
last. Every piece of `ntfs.c` that goes through a node walks over its entries by their
lengths. A leaf is a node in an index record of its own, which `ntfs_build_leaf_record`
makes from entries that lie anywhere in a buffer.

## Main results

- `leafEntries_built`: the entries of a record that was built are those that were given.
-/
namespace AsasOs.Ntfs

open Bytes Packed

variable {context : NtfsContext}

/-! ### Headers -/

def firstEntryOffset (header : Memory) : Nat := wordAt header 0 4

def totalSize (header : Memory) : Nat := wordAt header 4 4

def allocSize (header : Memory) : Nat := wordAt header 8 4

def visitEntries {σ : Type} (header : Memory) (body : Nat → σ → Option (Step σ)) (state : σ) :
    Option σ :=
  visit entryFormat header (totalSize header) body (firstEntryOffset header) state

/-- The length that an entry tells. -/
abbrev entrySize (header : Memory) (position : Nat) : Nat := entryFormat.size header position

section Pointers

variable (memory : Memory) (base position : Nat)

@[simp] theorem keyLength_rest : keyLength (rest memory base) position =
    keyLength memory (base + position) := by
  rw [keyLength, wordAt_rest, keyLength, Nat.add_assoc]

@[simp] theorem entryAt_rest : entryAt (rest memory base) position =
    entryAt memory (base + position) := by
  simp only [entryAt, wordAt_rest, window_rest, keyLength_rest, Nat.add_assoc]

@[simp] theorem entrySize_rest : entrySize (rest memory base) position =
    entrySize memory (base + position) := by
  change wordAt (rest memory base) (position + 8) 2 = wordAt memory (base + position + 8) 2
  rw [wordAt_rest, Nat.add_assoc]

@[simp] theorem isLast_rest : isLast (rest memory base) position = isLast memory (base + position) := by
  simp only [isLast, entryFlags, rest, Nat.add_assoc]

end Pointers

/-! ### What a node holds -/

/-- The positions of the entries, and that of the last one, once it has been met. -/
abbrev Found := List Nat × Option Nat

def nodeBody (header : Memory) (position : Nat) (found : Found) : Option (Step Found) :=
  if isLast header position then some (.stop (found.1, some position))
  else if 16 + keyLength header position ≤ entrySize header position then
    some (.next (found.1 ++ [position], none))
  else none

/-- The entries of a well-formed node: every key lies within its entry and holds a whole
name, and there is a last entry. -/
def nodePositions (header : Memory) : Option (List Nat × Nat) :=
  match visitEntries header (nodeBody header) ([], none) with
  | some (positions, some stop) =>
    if positions.all fun position => (entryAt header position).Named then some (positions, stop)
    else none
  | _ => none

def nodeEntries (header : Memory) : Option (List IndexEntry) :=
  (nodePositions header).map fun node => node.1.map (entryAt header)

/-- The index header of an index record as it is stored. -/
def readLeaf (context : NtfsContext) (block : List UInt8) : Option Memory :=
  (applyFixup (byteAt block) context.indexRecordSize context.bytesPerSector).map fun record =>
    rest record 24

def leafEntries (context : NtfsContext) (block : List UInt8) : Option (List IndexEntry) :=
  (readLeaf context block).bind nodeEntries

/-- Entries that lie one after another, each with its key inside. -/
inductive Laid (header : Memory) : Nat → List IndexEntry → Nat → Prop where
  | nil (position : Nat) : Laid header position [] position
  | cons {position stop : Nat} {entries : List IndexEntry} (more : isLast header position = false)
      (inside : 16 + keyLength header position ≤ entrySize header position)
      (later : Laid header (position + entrySize header position) entries stop) :
      Laid header position (entryAt header position :: entries) stop

namespace Laid

variable {header header' : Memory} {position middle stop : Nat} {entries more : List IndexEntry}

theorem le (laid : Laid header position entries stop) : position ≤ stop := by
  induction laid with
  | nil => exact Nat.le_refl _
  | cons _ _ _ ih => omega

theorem append (laid : Laid header position entries middle) (next : Laid header middle more stop) :
    Laid header position (entries ++ more) stop := by
  induction laid with
  | nil => exact next
  | cons last inside _ ih => exact .cons last inside (ih next)

theorem one (more : isLast header position = false)
    (inside : 16 + keyLength header position ≤ entrySize header position) :
    Laid header position [entryAt header position] (position + entrySize header position) :=
  .cons more inside (.nil _)

theorem congr (laid : Laid header position entries stop)
    (same : ∀ i, position ≤ i → i < stop → header' i = header i) :
    Laid header' position entries stop := by
  induction laid with
  | nil => exact .nil _
  | cons last inside later ih =>
    rename_i position stop entries
    have order := later.le
    have bytes : ∀ i < 16 + keyLength header position, header' (position + i) = header (position + i) :=
      fun i below => same (position + i) (by omega) (by omega)
    have size : entrySize header' position = entrySize header position :=
      entryFormat.size_congr _ _ _ _ fun i (below : i < 16) => bytes i (by omega)
    have entry := entryAt_congr bytes
    have length : keyLength header' position = keyLength header position := by
      rw [← entryAt_key_length, entry, entryAt_key_length]
    rw [← entry]
    refine .cons ?_ ?_ ?_
    · rw [isLast, entryFlags, bytes 12 (by omega)]
      exact last
    · rw [size, length]
      exact inside
    · rw [size]
      exact ih fun i low high => same i (by omega) high

theorem behind {base : Nat} (laid : Laid header (base + position) entries (base + stop)) :
    Laid (rest header base) position entries stop := by
  generalize startDef : base + position = start at laid
  generalize endDef : base + stop = last at laid
  induction laid generalizing position with
  | nil =>
    obtain rfl : position = stop := by omega
    exact .nil _
  | cons more inside later ih =>
    subst startDef
    rw [← entryAt_rest]
    refine .cons (by rwa [isLast_rest]) (by rwa [keyLength_rest, entrySize_rest]) ?_
    rw [entrySize_rest]
    exact ih (Nat.add_assoc _ _ _).symm endDef

theorem visit {total : Nat} (laid : Laid header position entries stop) (within : stop ≤ total)
    (found : List Nat) :
    ∃ positions, positions.map (entryAt header) = entries ∧
      Packed.visit entryFormat header total (nodeBody header) position (found, none) =
        Packed.visit entryFormat header total (nodeBody header) stop (found ++ positions, none) := by
  induction laid generalizing found with
  | nil => exact ⟨[], rfl, by rw [List.append_nil]⟩
  | cons last inside later ih =>
    rename_i position stop entries
    have order := later.le
    obtain ⟨positions, same, visits⟩ := ih within (found ++ [position])
    refine ⟨position :: positions, by rw [List.map_cons, same], ?_⟩
    have fits : Fits entryFormat header total position :=
      ⟨show position + 16 ≤ total by omega, show 16 ≤ entrySize header position by omega,
        show position + entrySize header position ≤ total by omega⟩
    rw [visit_fits fits, nodeBody, if_neg (by rw [last]; exact Bool.false_ne_true), if_pos inside]
    simp only
    rw [visits, List.append_assoc, List.singleton_append]

end Laid

theorem nodeEntries_of_laid {header : Memory} {entries : List IndexEntry} {stop : Nat}
    (laid : Laid header (firstEntryOffset header) entries stop)
    (last : isLast header stop = true) (fits : Fits entryFormat header (totalSize header) stop) :
    nodeEntries header = if entries.all fun entry => entry.Named then some entries else none := by
  have room : stop + 16 ≤ totalSize header := fits.room
  obtain ⟨positions, same, visits⟩ := laid.visit (show stop ≤ totalSize header by omega) []
  have ended : visitEntries header (nodeBody header) ([], none) = some (positions, some stop) := by
    rw [visitEntries, visits, List.nil_append, visit_fits fits, nodeBody, if_pos last]
  rw [nodeEntries, nodePositions, ended]
  simp only
  rw [← same, List.all_map]
  simp only [Function.comp_def]
  split
  · simp only [Option.map_some]
  · rfl

/-! ### Building a leaf -/

/-- A difference of unsigned numbers of 32 bits. -/
def sub32 (a b : Nat) : Nat := (a + 2 ^ 32 - b % 2 ^ 32) % 2 ^ 32

/-- The index record before entries are copied into it. -/
def leafHeader (context : NtfsContext) (vcn : Nat) : Memory :=
  let fixupCount := (context.indexRecordSize / context.bytesPerSector + 1) % 2 ^ 16
  let record : Memory := fun _ => 0
  let record := patch record 0 [0x49, 0x4E, 0x44, 0x58]
  let record := patch record 4 (digits 2 40)
  let record := patch record 6 (digits 2 fixupCount)
  let record := patch record 16 (digits 8 vcn)
  let record := patch record 24 (digits 4 (ntfsAlign8 (16 + fixupCount * 2)))
  patch record 32 (digits 4 (sub32 context.indexRecordSize 24))

/-- Copy the entries at the given positions of a buffer behind one another. -/
def copyEntries (entries : Memory) (allocSize : Nat) : List Nat → Memory × Nat → Option (Memory × Nat)
  | [], copied => some copied
  | source :: sources, (record, output) => do
    let (record, length) ← ntfsIndexCopyEntry record (24 + output) (sub32 allocSize output)
      (wordAt entries source 8) (rest entries (source + 16)) (keyLength entries source) 0 0
    copyEntries entries allocSize sources (record, output + length)

def ntfsBuildLeafRecord (context : NtfsContext) (vcn : Nat) (entries : Memory)
    (offsets : Nat → Nat) (first last : Nat) : Option Memory := do
  let record := leafHeader context vcn
  let header := rest record 24
  let (record, output) ← copyEntries entries (allocSize header)
    ((List.range' first (last - first)).map offsets) (record, firstEntryOffset header)
  let (record, length) ← ntfsIndexCopyEntry record (24 + output) (sub32 (allocSize header) output)
    0 (fun _ => 0) 0 2 0
  let record := patch record 28 (digits 4 (output + length))
  protectFixup record context.indexRecordSize context.bytesPerSector

theorem sub32_eq {a b : Nat} (order : b ≤ a) (small : a < 2 ^ 32) : sub32 a b = a - b := by
  unfold sub32
  omega

theorem Copied.laid {memory memory' : Memory} {destination length childVcn : Nat} {entry : IndexEntry}
    (copied : Copied memory memory' destination length entry 0 childVcn)
    (inside : 16 + entry.key.length ≤ length) :
    Laid memory' destination [entry] (destination + length) := by
  have key : keyLength memory' destination = entry.key.length := by
    rw [← entryAt_key_length, copied.entry]
  have laid : Laid memory' destination [entryAt memory' destination]
      (destination + entrySize memory' destination) := Laid.one
    (by rw [isLast, copied.flagged]; rfl) (by rw [key, entrySize, copied.size]; exact inside)
  rwa [copied.entry, entrySize, copied.size] at laid

theorem reference_lt (memory : Memory) (position : Nat) : wordAt memory position 8 < 2 ^ 64 := by
  have bound := wordAt_lt memory position 8
  norm_num at bound ⊢
  exact bound

theorem copyEntries_spec {entries record record' : Memory} {allocSize output output' : Nat}
    {sources : List Nat}
    (done : copyEntries entries allocSize sources (record, output) = some (record', output'))
    (room : output ≤ allocSize) (small : allocSize < 2 ^ 32) :
    output ≤ output' ∧ output' ≤ allocSize ∧
      Laid (rest record' 24) output (sources.map (entryAt entries)) output' ∧
      ∀ i, i < 24 + output ∨ 24 + output' ≤ i → record' i = record i := by
  induction sources generalizing record output with
  | nil =>
    obtain ⟨rfl, rfl⟩ := Prod.mk.inj (Option.some.inj done)
    exact ⟨Nat.le_refl _, room, .nil _, fun _ _ => rfl⟩
  | cons source sources ih =>
    simp only [copyEntries, Option.bind_eq_bind, Option.bind_eq_some_iff] at done
    obtain ⟨⟨middle, length⟩, copied, done⟩ := done
    simp only at done
    obtain ⟨written, size, fits, -⟩ := ntfsIndexCopyEntry_spec copied (reference_lt _ _) (Nat.two_pow_pos 64)
    rw [sub32_eq room small] at fits
    obtain ⟨grows, within, laid, frame⟩ := ih done (by omega)
    rw [window_rest, Nat.add_zero] at written
    have inside : 16 + keyLength entries source ≤ entryLength (keyLength entries source) 0 :=
      le_ntfsAlign8 _
    have here : Laid (rest middle 24) output [entryAt entries source] (output + length) := by
      apply Laid.behind
      rw [← Nat.add_assoc]
      exact written.laid (by rw [window_length, size]; exact inside)
    refine ⟨by omega, within, ?_, ?_⟩
    · rw [List.map_cons, ← List.singleton_append]
      refine (here.congr fun i low high => ?_).append laid
      exact frame (24 + i) (by omega)
    · intro i apart
      rw [frame i (by omega), written.other i (by omega)]

/-! ### Reading a leaf that was built -/

theorem leafHeader_fields (context : NtfsContext) (vcn : Nat)
    (sectors : context.indexRecordSize / context.bytesPerSector ≤ 8)
    (large : 24 ≤ context.indexRecordSize) :
    wordAt (leafHeader context vcn) 4 2 = 40 ∧
    wordAt (leafHeader context vcn) 6 2 = context.indexRecordSize / context.bytesPerSector + 1 ∧
    wordAt (leafHeader context vcn) 24 4 =
      ntfsAlign8 (16 + (context.indexRecordSize / context.bytesPerSector + 1) * 2) ∧
    wordAt (leafHeader context vcn) 32 4 = context.indexRecordSize - 24 := by
  have size := context.indexRecordSize_le
  generalize count : context.indexRecordSize / context.bytesPerSector = sectorCount at *
  unfold leafHeader
  simp only [count]
  simp (disch := simp only [digits_length]; omega) only [wordAt_patch_other, wordAt_patch]
  rw [sub32_eq large (by omega)]
  unfold ntfsAlign8
  refine ⟨rfl, ?_, ?_, ?_⟩
  all_goals omega

theorem lastLength : entryLength 0 2 = 16 := rfl

/-- A leaf before it is guarded: the header, the copies from `start` on and the end entry at `stop`. -/
structure BuiltLeaf (context : NtfsContext) (vcn : Nat) (copies : List IndexEntry) (leaf : Memory)
    (start stop : Nat) : Prop where
  bounds : 16 + (context.indexRecordSize / context.bytesPerSector + 1) * 2 ≤ start ∧ start ≤ 40
  header : ∀ i < 24 + start, i < 28 ∨ 32 ≤ i → leaf i = leafHeader context vcn i
  first : firstEntryOffset (rest leaf 24) = start
  total : totalSize (rest leaf 24) = stop + 16
  laid : Laid (rest leaf 24) start copies stop
  last : isLast (rest leaf 24) stop = true
  lastSize : entrySize (rest leaf 24) stop = 16
  room : 24 + (stop + 16) ≤ context.indexRecordSize

theorem ntfsBuildLeafRecord_spec {vcn first last : Nat} {entries record : Memory} {offsets : Nat → Nat}
    (built : ntfsBuildLeafRecord context vcn entries offsets first last = some record) :
    ∃ leaf start stop, protectFixup leaf context.indexRecordSize context.bytesPerSector = some record ∧
      BuiltLeaf context vcn (((List.range' first (last - first)).map offsets).map (entryAt entries)) leaf start
        stop := by
  simp only [ntfsBuildLeafRecord, Option.bind_eq_bind, Option.bind_eq_some_iff] at built
  obtain ⟨⟨full, output⟩, copied, ⟨closed, length⟩, ended, guarded⟩ := built
  simp only at ended guarded
  generalize (List.range' first (last - first)).map offsets = positions at copied ⊢
  have small := context.indexRecordSize_le
  obtain ⟨some, sectors, multiple, long⟩ := fixupValid_sizes (protectFixup_valid guarded) small
  obtain ⟨_, _, start, room⟩ := leafHeader_fields context vcn sectors (by omega)
  have bounds : ntfsAlign8 (16 + (context.indexRecordSize / context.bytesPerSector + 1) * 2) ≤ 40 ∧
      16 + (context.indexRecordSize / context.bytesPerSector + 1) * 2 ≤
        ntfsAlign8 (16 + (context.indexRecordSize / context.bytesPerSector + 1) * 2) := by
    generalize context.indexRecordSize / context.bytesPerSector = sectorCount at sectors ⊢
    unfold ntfsAlign8
    omega
  have low : 16 ≤ ntfsAlign8 (16 + (context.indexRecordSize / context.bytesPerSector + 1) * 2) :=
    Nat.le_trans (Nat.le_add_right _ _) bounds.2
  rw [allocSize, firstEntryOffset, wordAt_rest, wordAt_rest, start, room] at copied
  rw [allocSize, wordAt_rest, room] at ended
  generalize ntfsAlign8 (16 + (context.indexRecordSize / context.bytesPerSector + 1) * 2) = offset at *
  obtain ⟨grows, within, laid, frame⟩ := copyEntries_spec copied (by omega) (by omega)
  obtain ⟨closing, size, fits, -⟩ := ntfsIndexCopyEntry_spec ended (by decide) (by decide)
  rw [lastLength] at size
  subst size
  rw [sub32_eq (by omega) (by omega)] at fits
  have header : ∀ i < 24 + offset, i < 28 ∨ 32 ≤ i →
      patch closed 28 (digits 4 (output + 16)) i = leafHeader context vcn i := by
    intro i below apart
    rw [patch, digits_length, if_neg (by omega), closing.other i (by omega), frame i (by omega)]
  -- The copies and the end entry lie behind the size that is stored last.
  have behind : ∀ i, offset ≤ i → rest (patch closed 28 (digits 4 (output + 16))) 24 i = rest closed 24 i := by
    intro i low
    rw [rest, rest, patch, digits_length, if_neg (by omega)]
  refine ⟨_, offset, output, guarded, ⟨bounds.symm, header, ?_, ?_, ?_, ?_, ?_, by omega⟩⟩
  · rw [firstEntryOffset, wordAt_rest, ← start]
    exact wordAt_congr fun i low high => header i (by omega) (by omega)
  · rw [totalSize, wordAt_rest, wordAt_patch]
    exact Nat.mod_eq_of_lt (by omega)
  · refine laid.congr fun i low high => ?_
    rw [behind i low]
    exact closing.other (24 + i) (by omega)
  · have flag := closing.flagged
    rw [isLast, entryFlags, behind (output + 12) (by omega)]
    change (closed (24 + output + 12) &&& 2 != 0) = true
    rw [show closed (24 + output + 12) = 2 from flag]
    rfl
  · refine Eq.trans ?_ ((entrySize_rest closed 24 output).trans closing.size)
    exact wordAt_congr fun i low high => behind i (by omega)

theorem BuiltLeaf.array {vcn start stop : Nat} {copies : List IndexEntry} {leaf : Memory}
    (built : BuiltLeaf context vcn copies leaf start stop)
    (sectors : context.indexRecordSize / context.bytesPerSector ≤ 8)
    (long : 24 ≤ context.indexRecordSize) :
    wordAt leaf 4 2 = 40 ∧ wordAt leaf 40 2 = 0 := by
  have low : 18 ≤ start := by
    have bounds := built.bounds
    generalize context.indexRecordSize / context.bytesPerSector = sectorCount at bounds
    omega
  constructor
  · rw [← (leafHeader_fields context vcn sectors long).1]
    exact wordAt_congr fun i low high => built.header i (by omega) (by omega)
  · have zero : wordAt (leafHeader context vcn) 40 2 = 0 := by
      unfold leafHeader
      dsimp only
      repeat rw [wordAt_patch_other (Or.inr (by simp))]
      rfl
    rw [← zero]
    exact wordAt_congr fun i low high => built.header i (by omega) (by omega)

theorem leafEntries_built {vcn first last : Nat} {entries record : Memory} {offsets : Nat → Nat}
    (built : ntfsBuildLeafRecord context vcn entries offsets first last = some record) :
    leafEntries context (window record 0 context.indexRecordSize) =
      let copies := ((List.range' first (last - first)).map offsets).map (entryAt entries)
      if copies.all fun entry => entry.Named then some copies else none := by
  obtain ⟨leaf, start, stop, guarded, built⟩ := ntfsBuildLeafRecord_spec built
  generalize ((List.range' first (last - first)).map offsets).map (entryAt entries) = copies at built ⊢
  have small := context.indexRecordSize_le
  have valid := protectFixup_valid guarded
  obtain ⟨some, sectors, multiple, long⟩ := fixupValid_sizes valid small
  obtain ⟨position, -⟩ := built.array sectors (by omega)
  have bounds := built.bounds
  have room := built.room
  have same : ∀ i < context.indexRecordSize,
      byteAt (window record 0 context.indexRecordSize) i = record i := by
    intro i below
    rw [byteAt_window below, Nat.zero_add]
  obtain ⟨plain, applied, shown⟩ := applyFixup_protectFixup guarded
    (by rw [position]; exact arrayApart_first (fixupValid_iff.mp valid).1.2.1 (by omega)) same
  rw [position] at shown
  generalize context.indexRecordSize / context.bytesPerSector = sectorCount at *
  -- What the finished record shows is read back, as it lies outside the update sequence array.
  have behind : ∀ i < context.indexRecordSize - 24, i < 16 ∨ start ≤ i → rest plain 24 i = rest leaf 24 i :=
    fun i below apart => shown (24 + i) (by omega) (by omega)
  have readStart : firstEntryOffset (rest plain 24) = start := by
    rw [← built.first]
    exact wordAt_congr fun i _ below => behind i (by omega) (by omega)
  have readTotal : totalSize (rest plain 24) = stop + 16 := by
    rw [← built.total]
    exact wordAt_congr fun i _ below => behind i (by omega) (by omega)
  have order := built.laid.le
  have laid : Laid (rest plain 24) start copies stop :=
    built.laid.congr fun i low high => behind i (by omega) (by omega)
  have last : isLast (rest plain 24) stop = true := by
    rw [← built.last, isLast, isLast, entryFlags, entryFlags, behind (stop + 12) (by omega) (by omega)]
  have lastSize : entrySize (rest plain 24) stop = 16 := by
    rw [← built.lastSize]
    exact wordAt_congr fun i low high => behind i (by omega) (by omega)
  have fit : Fits entryFormat (rest plain 24) (totalSize (rest plain 24)) stop :=
    ⟨show stop + 16 ≤ _ by omega, show 16 ≤ entrySize (rest plain 24) stop by omega,
      show stop + entrySize (rest plain 24) stop ≤ _ by omega⟩
  rw [leafEntries, readLeaf, applied, Option.map_some, Option.bind_some,
    nodeEntries_of_laid (readStart.symm ▸ laid) last fit]

end AsasOs.Ntfs
