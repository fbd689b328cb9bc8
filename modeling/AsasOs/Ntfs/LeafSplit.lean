import AsasOs.Lib.Sorted
import AsasOs.Ntfs.Interface

/-!
# NTFS: the split of a leaf

`ntfs_index_allocation_split_insert` collects the entries of a full leaf, with the new one
among them, and makes two leaves of them, with one entry between the two that goes into
the root. The list is collected in a buffer that `kmalloc` gives, and the positions in
it are kept in a local array; neither is cleared before. The code reads one element of that array which it
has not written, when the new name is greater than all others: the bytes of the collected
entries from there on are moved as if they had to make room.

## Model

- The calls that this code makes to other parts of the driver are answered in any way.
- `offsets` and the buffer `entries` have any content when the function begins.

## Main results

- `leafSplit_iff`: when a split gives the sorted insertion of the new entry.
- `entry_altered`: a split that alters an entry.
-/
namespace AsasOs.Ntfs

open Bytes Packed Prog

variable {context : NtfsContext}

/-! ### The code -/

/-- One entry of the leaf is collected. -/
def collectBody (capacity : Nat) (header : Memory) (position : Nat) (c : Collected) :
    Option (Step Collected) :=
  if isLast header position then some (.stop c)
  else if c.count ≥ 255 || c.bytes + entrySize header position > capacity then none
  else some (.next
    { entries := patch c.entries c.bytes (window header position (entrySize header position))
      offsets := Function.update c.offsets c.count c.bytes
      count := c.count + 1
      bytes := c.bytes + entrySize header position })

/-- Collect the entries of a leaf, over what the buffer and the array contain. -/
def collectLeaf (context : NtfsContext) (header entries : Memory) (offsets : Nat → Nat) :
    Option Collected :=
  visitEntries header (collectBody (context.indexRecordSize * 2) header) ⟨entries, offsets, 0, 0⟩

/-- The first entry with a greater name, or the number of entries. -/
def insertIndexOf (context : NtfsContext) (candidate : List Nat) (c : Collected) : Nat :=
  (List.range c.count).findIdx fun index =>
    ntfsCompareNames context candidate (fileName (rest c.entries (c.offsets index + 16))) < 0

/-- `for (index = count; index > insert_index; index--)` over `offsets` -/
def shiftOffsets (newLength insertIndex : Nat) (offsets : Nat → Nat) : Nat → Nat → Nat
  | 0 => offsets
  | index + 1 =>
    if index + 1 > insertIndex then
      shiftOffsets newLength insertIndex
        (Function.update offsets (index + 1) (offsets index + newLength)) index
    else offsets

/-- Put the new entry among the collected ones. -/
def spliceEntry (context : NtfsContext) (c : Collected) (insertIndex childReference : Nat)
    (fileNameValue : List UInt8) : Option Collected :=
  let newLength := ntfsAlign8 (16 + fileNameValue.length)
  if c.count ≥ 255 || c.bytes + newLength > context.indexRecordSize * 2 then none
  else
    let offsets := shiftOffsets newLength insertIndex c.offsets c.count
    let entries := shiftBytes newLength (offsets insertIndex) c.entries c.bytes
    let offsets := Function.update offsets insertIndex
      (if insertIndex = c.count then c.bytes else offsets insertIndex)
    (ntfsIndexCopyEntry entries (offsets insertIndex) newLength childReference
      (byteAt fileNameValue) fileNameValue.length 0 0).map fun copied =>
        ⟨copied.1, offsets, c.count + 1, c.bytes + newLength⟩

/-- `ntfs_index_allocation_split_insert`, with what the buffer and the array contain. -/
def ntfsIndexAllocationSplitInsert (context : NtfsContext) (parentRecord : Nat) (stream : NtfsStream)
    (recordIndex childReference : Nat) (fileNameValue : List UInt8) (entries : Memory)
    (offsets : Nat → Nat) : IndexCode Unit := do
  let record ← ask (.kmalloc context.indexRecordSize)
  let rightRecord ← ask (.kmalloc context.indexRecordSize)
  let buffer ← ask (.kmalloc (context.indexRecordSize * 2))
  let newRecordIndex := stream.dataSize / context.indexRecordSize % 2 ^ 32
  let oldVcn := recordIndex * context.indexRecordSize / context.bytesPerCluster
  guard ((record && rightRecord && buffer) = true)
  let bytes ← ask (.readFromRuns stream (recordIndex * context.indexRecordSize) context.indexRecordSize)
  guard (bytes.length = context.indexRecordSize)
  let record ← ofOption (applyFixup (byteAt bytes) context.indexRecordSize context.bytesPerSector)
  let c ← ofOption (collectLeaf context (rest record 24) entries offsets)
  let c ← ofOption (spliceEntry context c (insertIndexOf context (fileName (byteAt fileNameValue)) c)
    childReference fileNameValue)
  let medianIndex := c.count / 2
  let median := entryAt c.entries (c.offsets medianIndex)
  let grown ← ask (.growIndexAllocation parentRecord stream newRecordIndex)
  let (newVcn, stream) ← ofOption grown
  let left ← ofOption (ntfsBuildLeafRecord context oldVcn c.entries c.offsets 0 medianIndex)
  let right ← ofOption (ntfsBuildLeafRecord context newVcn c.entries c.offsets (medianIndex + 1) c.count)
  let written ← ask (.writeToRunsAt stream (recordIndex * context.indexRecordSize)
    (window left 0 context.indexRecordSize))
  guard (written = true)
  let written ← ask (.writeToRunsAt stream (newRecordIndex * context.indexRecordSize)
    (window right 0 context.indexRecordSize))
  guard (written = true)
  let separated ← ask (.rootInsertSeparator parentRecord median oldVcn newVcn)
  guard (separated = true)
  let flushed ← ask .transactionBarrier
  guard (flushed = true)

/-! ### What the loops do -/

theorem shiftOffsets_eq (newLength insertIndex count : Nat) (offsets : Nat → Nat) (i : Nat) :
    shiftOffsets newLength insertIndex offsets count i =
      if insertIndex < i ∧ i ≤ count then offsets (i - 1) + newLength else offsets i := by
  induction count generalizing offsets with
  | zero => rw [shiftOffsets, if_neg (by omega)]
  | succ index ih =>
    rw [shiftOffsets]
    split
    · rename_i more
      rw [ih]
      by_cases here : i = index + 1
      · rw [if_neg (by omega), if_pos (by omega), here, Function.update_self, Nat.add_sub_cancel]
      · by_cases below : insertIndex < i ∧ i ≤ index
        · rw [if_pos below, if_pos (by omega), Function.update_of_ne (by omega)]
        · rw [if_neg below, if_neg (by omega), Function.update_of_ne here]
    · rw [if_neg (by omega)]

/-- Entries lie behind one another, from a position to another. -/
structure Spread (header : Memory) (first : Nat) (positions : List Nat) (stop : Nat) : Prop where
  apart : positions.Pairwise fun p q => p + (16 + keyLength header p) ≤ q
  low : ∀ p ∈ positions, first ≤ p
  high : ∀ p ∈ positions, p + (16 + keyLength header p) ≤ stop

variable {header : Memory}

theorem Spread.nil {first : Nat} (stop : Nat) : Spread header first [] stop :=
  ⟨.nil, fun _ impossible => absurd impossible List.not_mem_nil,
    fun _ impossible => absurd impossible List.not_mem_nil⟩

variable {positions : List Nat}

theorem Spread.snoc {first position stop : Nat}
    (spread : Spread header first positions position) (order : first ≤ position)
    (inside : position + (16 + keyLength header position) ≤ stop) :
    Spread header first (positions ++ [position]) stop := by
  refine ⟨?_, ?_, ?_⟩
  · refine List.pairwise_append.mpr ⟨spread.apart, List.pairwise_singleton _ _, fun p before q here => ?_⟩
    obtain rfl := List.mem_singleton.mp here
    exact spread.high p before
  · intro p member
    rcases List.mem_append.mp member with before | here
    · exact spread.low p before
    · obtain rfl := List.mem_singleton.mp here
      exact order
  · intro p member
    rcases List.mem_append.mp member with before | here
    · have high := spread.high p before
      omega
    · obtain rfl := List.mem_singleton.mp here
      exact inside

/-- What the walk over a well-formed node has found. -/
structure NodeRead (header : Memory) (positions : List Nat) (stop : Nat) : Prop where
  found : nodePositions header = some (positions, stop)
  spread : Spread header (firstEntryOffset header) positions stop
  named : ∀ p ∈ positions, (entryAt header p).Named
  visited : visitEntries header (nodeBody header) ([], none) = some (positions, some stop)

theorem nodePositions_read {stop : Nat}
    (found : nodePositions header = some (positions, stop)) : NodeRead header positions stop := by
  have read := found
  unfold nodePositions at read
  split at read
  swap
  · cases read
  rename_i positions' stop' visited
  split at read
  swap
  · cases read
  rename_i all
  obtain ⟨rfl, rfl⟩ := Prod.mk.inj (Option.some.inj read)
  refine ⟨found, ?_, fun p member => of_decide_eq_true (List.all_eq_true.mp all p member), visited⟩
  refine visit_keeps
    (R := fun position found => found.2 = none ∧ firstEntryOffset header ≤ position ∧
      Spread header (firstEntryOffset header) found.1 position)
    (Q := fun found => ∀ stop, found.2 = some stop → Spread header (firstEntryOffset header) found.1 stop)
    ?_ ?_ ⟨rfl, Nat.le_refl _, .nil _⟩ visited _ rfl
  · rintro position ⟨found, ended⟩ fits ⟨rfl, order, spread⟩
    rw [nodeBody]
    split
    · rename_i step outcome
      split at outcome
      · cases outcome
      · split at outcome
        · rename_i inside
          cases outcome
          exact ⟨rfl, Nat.le_add_right_of_le order, spread.snoc order (Nat.add_le_add_left inside _)⟩
        · cases outcome
    · rename_i step outcome
      split at outcome
      · cases outcome
        intro stop same
        cases same
        exact spread
      · split at outcome <;> cases outcome
    · trivial
  · rintro position ⟨found, ended⟩ ⟨rfl, -, -⟩ stop impossible
    cases impossible

/-- Entries of a node have been collected; the rest of the array is as before. -/
structure Collects (header : Memory) (offsets : Nat → Nat) (c : Collected) (positions : List Nat)
    (stop : Nat) : Prop where
  bytes : firstEntryOffset header + c.bytes = stop
  count : c.count = positions.length
  located : ∀ i, (below : i < positions.length) → firstEntryOffset header + c.offsets i = positions[i]
  untouched : ∀ i, c.count ≤ i → c.offsets i = offsets i
  copied : ∀ k < c.bytes, c.entries k = header (firstEntryOffset header + k)

theorem Collects.snoc {offsets : Nat → Nat} {c : Collected} {position size : Nat}
    (collects : Collects header offsets c positions position) :
    Collects header offsets
      { entries := patch c.entries c.bytes (window header position size)
        offsets := Function.update c.offsets c.count c.bytes
        count := c.count + 1
        bytes := c.bytes + size }
      (positions ++ [position]) (position + size) := by
  have here := collects.bytes
  have count := collects.count
  refine ⟨?_, ?_, ?_, ?_, ?_⟩
  · change _ + (c.bytes + size) = _
    omega
  · rw [List.length_append, List.length_singleton, ← count]
  · intro i below
    rw [List.length_append, List.length_singleton] at below
    by_cases earlier : i < positions.length
    · rw [List.getElem_append_left earlier, ← collects.located i earlier]
      exact congrArg _ (Function.update_of_ne (by omega) _ _)
    · obtain rfl : i = positions.length := by omega
      rw [List.getElem_append_right (Nat.le_refl _), List.getElem_singleton, ← here, ← count]
      exact congrArg _ (Function.update_self _ _ _)
  · intro i above
    change c.count + 1 ≤ i at above
    rw [← collects.untouched i (by omega)]
    exact Function.update_of_ne (by omega) _ _
  · intro k below
    change k < c.bytes + size at below
    change patch c.entries c.bytes (window header position size) k = _
    rw [patch, window_length]
    by_cases earlier : k < c.bytes
    · rw [if_neg (by omega), collects.copied k earlier]
    · rw [if_pos (by omega), byteAt_window (by omega)]
      congr 1
      omega

theorem collectLeaf_spec {header entries : Memory} {offsets : Nat → Nat} {c : Collected} {stop : Nat}
    (read : NodeRead header positions stop)
    (done : collectLeaf context header entries offsets = some c) :
    Collects header offsets c positions stop := by
  refine visit_both
    (R := fun position c found => found.2 = none ∧ Collects header offsets c found.1 position)
    (Q := fun c found => ∀ stop, found.2 = some stop → Collects header offsets c found.1 stop)
    ?_ ?_ ⟨rfl, ?_⟩ done read.visited _ rfl
  · rintro position c ⟨found, ended⟩ a b fits ⟨rfl, collects⟩ one other
    rw [collectBody] at one
    rw [nodeBody] at other
    split at other
    · rename_i last
      rw [if_pos last] at one
      cases one
      cases other
      refine .stop fun stop same => ?_
      cases same
      exact collects
    · rename_i more
      rw [if_neg more] at one
      split at one
      · cases one
      · split at other
        · cases one
          cases other
          exact .next ⟨rfl, collects.snoc⟩
        · cases other
  · rintro position c ⟨found, ended⟩ ⟨rfl, -⟩ stop impossible
    cases impossible
  · exact ⟨rfl, rfl, by rintro _ ⟨⟩, fun _ _ => rfl, by rintro _ ⟨⟩⟩

section Collects

variable {header : Memory} {offsets : Nat → Nat} {c : Collected} {positions : List Nat} {stop : Nat}
  (collects : Collects header offsets c positions stop) (read : NodeRead header positions stop)

include collects read

theorem collected_inside {i : Nat} (below : i < positions.length) :
    c.offsets i + (16 + keyLength header positions[i]) ≤ c.bytes := by
  have place := collects.located i below
  have high := read.spread.high _ (List.getElem_mem below)
  have bytes := collects.bytes
  omega

theorem collected_apart {i j : Nat} (order : i < j) (below : j < positions.length)
    (first : i < positions.length) :
    c.offsets i + (16 + keyLength header positions[i]) ≤ c.offsets j := by
  have apart := List.pairwise_iff_getElem.mp read.spread.apart i j first below order
  have first := collects.located i first
  have second := collects.located j below
  omega

theorem collected_byte {i k : Nat} (below : i < positions.length)
    (inside : k < 16 + keyLength header positions[i]) :
    c.entries (c.offsets i + k) = header (positions[i] + k) := by
  have place := collects.located i below
  have high := collected_inside collects read below
  rw [collects.copied _ (by omega), ← place, Nat.add_assoc]

theorem collected_entry {i : Nat} (below : i < positions.length) :
    entryAt c.entries (c.offsets i) = entryAt header positions[i] :=
  entryAt_congr fun _ inside => collected_byte collects read below inside

theorem collected_place {new : IndexEntry} : insertIndexOf context new.name c =
      Sorted.place (placed context) new (positions.map (entryAt header)) := by
  have tests : ((List.range c.count).map fun index =>
        decide (ntfsCompareNames context new.name (fileName (rest c.entries (c.offsets index + 16))) < 0)) =
      (positions.map (entryAt header)).map (Sorted.above (placed context) new) := by
    apply List.ext_getElem
    · simp only [List.length_map, List.length_range, collects.count]
    · intro i first second
      have below : i < positions.length := by simpa using second
      have entry := collected_entry collects read below
      have name : fileName (rest c.entries (c.offsets i + 16)) = (entryAt header positions[i]).name := by
        rw [← entry]
        exact fileName_entryAt (by rw [entry]; exact read.named _ (List.getElem_mem below))
      simp only [List.getElem_map, List.getElem_range, name]
      rw [Bool.eq_iff_iff, decide_eq_true_iff, Sorted.above_iff]
      exact ntfsCompareNames_neg_iff
  have one := List.findIdx_map (List.range c.count) (fun index =>
    decide (ntfsCompareNames context new.name (fileName (rest c.entries (c.offsets index + 16))) < 0)) id
  rw [tests, List.findIdx_map] at one
  exact one.symm

end Collects

/-! ### Where the new entry is put -/

/-- What `spliceEntry` leaves behind: moved bytes, shifted positions, and the new entry. -/
structure Spliced (c c' : Collected) (insertIndex newLength : Nat) (new : IndexEntry) : Prop where
  count : c'.count = c.count + 1
  offset : ∀ i, c'.offsets i =
    if i = insertIndex then (if insertIndex = c.count then c.bytes else c.offsets insertIndex)
    else if insertIndex < i ∧ i ≤ c.count then c.offsets (i - 1) + newLength else c.offsets i
  entry : entryAt c'.entries (c'.offsets insertIndex) = new
  other : ∀ k, k < c'.offsets insertIndex ∨ c'.offsets insertIndex + newLength ≤ k →
    c'.entries k = moved c.entries newLength (c.offsets insertIndex) c.bytes k

theorem spliceEntry_spec {c c' : Collected} {insertIndex childReference : Nat}
    {fileNameValue : List UInt8} (small : childReference < 2 ^ 64)
    (done : spliceEntry context c insertIndex childReference fileNameValue = some c') :
    Spliced c c' insertIndex (ntfsAlign8 (16 + fileNameValue.length)) ⟨childReference, fileNameValue⟩ := by
  unfold spliceEntry at done
  simp only at done
  split at done
  · cases done
  obtain ⟨⟨copy, length⟩, copied, rfl⟩ := Option.map_eq_some_iff.mp done
  obtain ⟨written, size, -⟩ := ntfsIndexCopyEntry_spec copied small (Nat.two_pow_pos 64)
  have whole : window (byteAt fileNameValue) 0 fileNameValue.length = fileNameValue := by
    rw [← slice_eq_window (by omega), slice_whole]
  have same : length = ntfsAlign8 (16 + fileNameValue.length) := size
  have limit : shiftOffsets (ntfsAlign8 (16 + fileNameValue.length)) insertIndex c.offsets c.count
      insertIndex = c.offsets insertIndex := by
    rw [shiftOffsets_eq, if_neg (by omega)]
  rw [whole] at written
  subst same
  refine ⟨rfl, ?_, written.entry, ?_⟩
  · intro i
    by_cases here : i = insertIndex
    · subst here
      rw [if_pos rfl]
      refine (Function.update_self _ _ _).trans ?_
      rw [limit]
    · rw [if_neg here]
      refine (Function.update_of_ne here _ _).trans ?_
      rw [shiftOffsets_eq]
  · intro k apart
    refine (written.other k apart).trans ?_
    rw [shiftBytes_eq, limit]

/-- The bytes from `limit` on are moved behind the entries of a node, and every entry is as before. -/
def Undisturbed (header : Memory) (newLength limit : Nat) : Prop :=
  ∀ node, nodePositions header = some node → ∀ position ∈ node.1,
    entryAt (moved (rest header (firstEntryOffset header)) newLength limit
      (node.2 - firstEntryOffset header)) (position - firstEntryOffset header) = entryAt header position

section Splice

variable {header : Memory} {offsets : Nat → Nat} {c c' : Collected} {positions : List Nat} {stop : Nat}
  {newLength : Nat} {new : IndexEntry}
  (collects : Collects header offsets c positions stop) (read : NodeRead header positions stop)

include collects read

theorem shown_between {insertIndex : Nat} (spliced : Spliced c c' insertIndex newLength new)
    (before : insertIndex < positions.length) :
    shown c' = (positions.map (entryAt header)).take insertIndex ++
      new :: (positions.map (entryAt header)).drop insertIndex := by
  have count := collects.count
  have limit : c'.offsets insertIndex = c.offsets insertIndex := by
    rw [spliced.offset, if_pos rfl, if_neg (by omega)]
  apply List.ext_getElem
  · simp only [shown, List.length_map, List.length_range, spliced.count, List.length_append,
      List.length_take, List.length_cons, List.length_drop]
    omega
  intro i first second
  simp only [shown, List.length_map, List.length_range, spliced.count] at first
  simp only [shown, List.getElem_map, List.getElem_range]
  rcases Nat.lt_trichotomy i insertIndex with low | rfl | high
  · -- Entries before the place stay where they are.
    have below : i < positions.length := by omega
    have apart := collected_apart collects read low before below
    rw [List.getElem_append_left (by simp; omega), List.getElem_take, List.getElem_map,
      spliced.offset, if_neg (by omega), if_neg (by omega)]
    apply entryAt_congr
    intro k inside
    rw [spliced.other _ (by omega), moved, if_neg (by omega), collected_byte collects read below inside]
  · have long : i ≤ (positions.map (entryAt header)).length := by simpa using before.le
    rw [spliced.entry, List.getElem_append_right (by rw [List.length_take]; omega)]
    simp only [List.length_take, Nat.min_eq_left long, Nat.sub_self, List.getElem_cons_zero]
  · -- Entries behind the place are moved, and so are their positions.
    obtain ⟨j, rfl⟩ : ∃ j, i = j + 1 := ⟨i - 1, by omega⟩
    have below : j < positions.length := by omega
    have apart : c.offsets insertIndex ≤ c.offsets j := by
      by_cases same : insertIndex = j
      · rw [same]
      · have gap := collected_apart collects read (show insertIndex < j by omega) below before
        omega
    have inside' := collected_inside collects read below
    have third : ((positions.map (entryAt header)).take insertIndex ++
        new :: (positions.map (entryAt header)).drop insertIndex)[j + 1] = entryAt header positions[j] := by
      have long : insertIndex ≤ (positions.map (entryAt header)).length := by simpa using before.le
      rw [List.getElem_append_right (by rw [List.length_take]; omega)]
      simp only [List.length_take, Nat.min_eq_left long,
        show j + 1 - insertIndex = j - insertIndex + 1 by omega, List.getElem_cons_succ,
        List.getElem_drop, List.getElem_map, show insertIndex + (j - insertIndex) = j by omega]
    rw [third, spliced.offset, if_neg (by omega), if_pos (by omega), Nat.add_sub_cancel]
    apply entryAt_congr
    intro k inside
    rw [spliced.other _ (by omega), moved, if_pos (by omega), ← collected_byte collects read below inside]
    congr 1
    omega

omit read in
theorem shown_last (spliced : Spliced c c' positions.length newLength new) :
    shown c' = (List.range positions.length).map (fun i => entryAt c'.entries (c.offsets i)) ++ [new] := by
  have count : c'.count = positions.length + 1 := by rw [spliced.count, collects.count]
  have front : (List.range positions.length).map (fun i => entryAt c'.entries (c'.offsets i)) =
      (List.range positions.length).map fun i => entryAt c'.entries (c.offsets i) := by
    apply List.map_congr_left
    intro i member
    have below := List.mem_range.mp member
    rw [spliced.offset, if_neg (by omega), if_neg (by omega)]
  unfold shown
  rw [count, List.range_succ, List.map_append, front, List.map_singleton, spliced.entry]

theorem byte_behind (spliced : Spliced c c' positions.length newLength new) {i k : Nat}
    (below : i < positions.length) (inside : k < 16 + keyLength header positions[i]) :
    c'.entries (c.offsets i + k) =
      moved (rest header (firstEntryOffset header)) newLength (offsets positions.length)
        (stop - firstEntryOffset header) (positions[i] - firstEntryOffset header + k) := by
  have count := collects.count
  have bytes := collects.bytes
  have place := collects.located i below
  have room := collected_inside collects read below
  have destination : c'.offsets positions.length = c.bytes := by
    rw [spliced.offset, if_pos rfl, if_pos count.symm]
  have limit : c.offsets positions.length = offsets positions.length :=
    collects.untouched _ (by omega)
  have start : positions[i] - firstEntryOffset header = c.offsets i := by omega
  have size : stop - firstEntryOffset header = c.bytes := by omega
  rw [spliced.other _ (by omega), limit, start, size, moved, moved]
  split
  · exact collects.copied _ (by omega)
  · exact collects.copied _ (by omega)

theorem entry_behind (spliced : Spliced c c' positions.length newLength new) {i : Nat}
    (below : i < positions.length) :
    entryAt c'.entries (c.offsets i) = entryAt header positions[i] ↔
      entryAt (moved (rest header (firstEntryOffset header)) newLength (offsets positions.length)
        (stop - firstEntryOffset header)) (positions[i] - firstEntryOffset header) =
          entryAt header positions[i] := by
  have same := fun k => byte_behind (k := k) collects read spliced below
  constructor
  · intro equal
    rw [← equal]
    apply entryAt_congr
    intro k low
    rw [← entryAt_key_length, equal, entryAt_key_length] at low
    exact (same k low).symm
  · intro equal
    rw [← equal]
    apply entryAt_congr
    intro k low
    rw [← entryAt_key_length, equal, entryAt_key_length] at low
    exact same k low

theorem shown_behind (spliced : Spliced c c' positions.length newLength new) :
    shown c' = positions.map (entryAt header) ++ [new] ↔ ∀ position ∈ positions,
        entryAt (moved (rest header (firstEntryOffset header)) newLength (offsets positions.length)
          (stop - firstEntryOffset header)) (position - firstEntryOffset header) = entryAt header position := by
  rw [shown_last collects spliced]
  constructor
  · intro equal position member
    obtain ⟨i, below, rfl⟩ := List.mem_iff_getElem.mp member
    have front := congrArg (fun entries => entries[i]?) (List.append_cancel_right equal)
    simp only [List.getElem?_map, List.getElem?_range below, List.getElem?_eq_getElem below,
      Option.map_some, Option.some.injEq] at front
    exact (entry_behind collects read spliced below).mp front
  · intro undisturbed
    have front : (List.range positions.length).map (fun i => entryAt c'.entries (c.offsets i)) =
        positions.map (entryAt header) := by
      apply List.ext_getElem
      · simp only [List.length_map, List.length_range]
      · intro i first second
        have below : i < positions.length := by simpa using second
        simp only [List.getElem_map, List.getElem_range]
        exact (entry_behind collects read spliced below).mpr (undisturbed _ (List.getElem_mem below))
    rw [front]

theorem shown_insertion (growing : Sorted.Growing (placed context) (positions.map (entryAt header)))
    (fresh : Sorted.Fresh (placed context) new (positions.map (entryAt header)))
    (spliced : Spliced c c' (insertIndexOf context new.name c) newLength new) :
    Sorted.Insertion (placed context) new (positions.map (entryAt header)) (shown c') ↔
      (∃ entry ∈ positions.map (entryAt header), placed context new < placed context entry) ∨
        Undisturbed header newLength (offsets positions.length) := by
  have inserted := Sorted.insertion_place growing fresh
  rw [collected_place collects read] at spliced
  rw [← Sorted.place_lt_iff, List.length_map]
  generalize placeDef : Sorted.place (placed context) new (positions.map (entryAt header)) = place at *
  have within : place ≤ positions.length := by
    rw [← placeDef]
    exact Sorted.place_le.trans_eq (List.length_map _)
  rcases Nat.lt_or_eq_of_le within with between | rfl
  · refine iff_of_true ?_ (Or.inl between)
    rw [shown_between collects read spliced between]
    exact inserted
  · rw [List.take_of_length_le (by simp), List.drop_of_length_le (by simp)] at inserted
    have undisturbed : Undisturbed header newLength (offsets positions.length) ↔
        shown c' = positions.map (entryAt header) ++ [new] := by
      rw [shown_behind collects read spliced]
      constructor
      · exact fun undisturbed => undisturbed _ read.found
      · intro same node found
        rw [read.found] at found
        obtain rfl := Option.some.inj found
        exact same
    rw [undisturbed]
    constructor
    · exact fun result => Or.inr (result.unique inserted)
    · rintro (impossible | same)
      · exact absurd impossible (Nat.lt_irrefl _)
      · rw [same]
        exact inserted

end Splice

/-! ### The split -/

/-- What a split has read and written. -/
structure LeafSplit where
  old : List UInt8
  stream : NtfsStream
  newVcn : Nat
  left : List UInt8
  median : IndexEntry
  right : List UInt8

/-- The calls of a split that succeeds, with their responses. -/
def LeafSplit.calls (split : LeafSplit) (context : NtfsContext) (parentRecord : Nat)
    (stream : NtfsStream)
    (recordIndex : Nat) : List (Sigma IndexOp.Response) :=
  let newRecordIndex := stream.dataSize / context.indexRecordSize % 2 ^ 32
  let oldVcn := recordIndex * context.indexRecordSize / context.bytesPerCluster
  [⟨.kmalloc context.indexRecordSize, true⟩, ⟨.kmalloc context.indexRecordSize, true⟩,
   ⟨.kmalloc (context.indexRecordSize * 2), true⟩,
   ⟨.readFromRuns stream (recordIndex * context.indexRecordSize) context.indexRecordSize, split.old⟩,
   ⟨.growIndexAllocation parentRecord stream newRecordIndex, some (split.newVcn, split.stream)⟩,
   ⟨.writeToRunsAt split.stream (recordIndex * context.indexRecordSize) split.left, true⟩,
   ⟨.writeToRunsAt split.stream (newRecordIndex * context.indexRecordSize) split.right, true⟩,
   ⟨.rootInsertSeparator parentRecord split.median oldVcn split.newVcn, true⟩,
   ⟨.transactionBarrier, true⟩]

/-- The two leaves and the median are the sorted insertion of the new entry into the old leaf. -/
def LeafSplit.Inserts (split : LeafSplit) (context : NtfsContext) (new : IndexEntry)
    (leaf : List IndexEntry) : Prop :=
  ∃ left right, leafEntries context split.left = some left ∧ leafEntries context split.right = some right ∧
    Sorted.Insertion (placed context) new leaf (left ++ [split.median] ++ right)

/-- How a split that succeeds has come to what it has written. -/
structure Made (context : NtfsContext) (recordIndex childReference : Nat) (fileNameValue : List UInt8)
    (entries : Memory) (offsets : Nat → Nat) (split : LeafSplit) (c : Collected) : Prop where
  collected : ∃ header c', readLeaf context split.old = some header ∧
    collectLeaf context header entries offsets = some c' ∧
    spliceEntry context c' (insertIndexOf context (fileName (byteAt fileNameValue)) c')
      childReference fileNameValue = some c
  median : split.median = entryAt c.entries (c.offsets (c.count / 2))
  left : ∃ record, ntfsBuildLeafRecord context (recordIndex * context.indexRecordSize / context.bytesPerCluster)
      c.entries c.offsets 0 (c.count / 2) = some record ∧
    split.left = window record 0 context.indexRecordSize
  right : ∃ record, ntfsBuildLeafRecord context split.newVcn c.entries c.offsets (c.count / 2 + 1) c.count =
      some record ∧
    split.right = window record 0 context.indexRecordSize

theorem shown_range (c : Collected) {first last : Nat} (order : first ≤ last) (within : last ≤ c.count) :
    ((List.range' first (last - first)).map c.offsets).map (entryAt c.entries) =
      ((shown c).take last).drop first := by
  apply List.ext_getElem
  · simp only [List.length_map, List.length_range', List.length_drop, List.length_take, shown,
      List.length_range]
    omega
  · intro i one other
    simp only [List.getElem_map, List.getElem_range', List.getElem_drop, List.getElem_take, shown,
      List.getElem_range, Nat.one_mul]

theorem inserts_iff {recordIndex childReference : Nat} {fileNameValue : List UInt8} {entries : Memory}
    {offsets : Nat → Nat} {split : LeafSplit} {c : Collected} {new : IndexEntry} {leaf : List IndexEntry}
    (made : Made context recordIndex childReference fileNameValue entries offsets split c)
    (some : 0 < c.count) (named : ∀ entry ∈ new :: leaf, entry.Named) :
    split.Inserts context new leaf ↔ Sorted.Insertion (placed context) new leaf (shown c) := by
  have half : c.count / 2 < c.count := Nat.div_lt_self some (by decide)
  have length : (shown c).length = c.count := by simp [shown]
  obtain ⟨left, leftBuilt, leftIs⟩ := made.left
  obtain ⟨right, rightBuilt, rightIs⟩ := made.right
  have leftRead := leafEntries_built leftBuilt
  have rightRead := leafEntries_built rightBuilt
  rw [← leftIs, shown_range c (Nat.zero_le _) half.le] at leftRead
  rw [← rightIs, shown_range c half (Nat.le_refl _)] at rightRead
  rw [List.take_of_length_le (by omega)] at rightRead
  rw [List.drop_zero] at leftRead
  have inside : c.count / 2 < (shown c).length := by omega
  have median : split.median = (shown c)[c.count / 2] := by
    simp only [made.median, shown, List.getElem_map, List.getElem_range]
  have whole : (shown c).take (c.count / 2) ++ [split.median] ++ (shown c).drop (c.count / 2 + 1) = shown c := by
    rw [median, List.append_assoc, List.singleton_append, ← List.drop_eq_getElem_cons, List.take_append_drop]
  simp only at leftRead rightRead
  constructor
  · rintro ⟨lefts, rights, leftEntries, rightEntries, insertion⟩
    rw [leftEntries] at leftRead
    rw [rightEntries] at rightRead
    split at leftRead
    · split at rightRead
      · cases leftRead
        cases rightRead
        rwa [whole] at insertion
      · cases rightRead
    · cases leftRead
  · intro insertion
    have all : ∀ entry ∈ shown c, decide entry.Named = true := by
      intro entry member
      exact decide_eq_true (named entry (insertion.same.mem_iff.mp member))
    rw [if_pos (List.all_eq_true.mpr fun entry member => all entry (List.mem_of_mem_take member))] at leftRead
    rw [if_pos (List.all_eq_true.mpr fun entry member => all entry (List.mem_of_mem_drop member))] at rightRead
    exact ⟨_, _, leftRead, rightRead, by rwa [whole]⟩

section Completed

variable {σ : Type} {handle : (op : IndexOp) → σ → op.Response × σ} {s s' : σ}
  {calls : List (Sigma IndexOp.Response)} {parentRecord recordIndex childReference : Nat}
  {stream : NtfsStream} {fileNameValue : List UInt8} {entries : Memory} {offsets : Nat → Nat}

theorem split_completed
    (done : Completed handle (ntfsIndexAllocationSplitInsert context parentRecord stream recordIndex
      childReference fileNameValue entries offsets) s calls () s') :
    ∃ split c, calls = LeafSplit.calls split context parentRecord stream recordIndex ∧
      Made context recordIndex childReference fileNameValue entries offsets split c := by
  simp only [ntfsIndexAllocationSplitInsert, ask, completed_bind, completed_lift, completed_guard,
    completed_ofOption] at done
  obtain ⟨record, _, _, _, ⟨-, rfl⟩, done, rfl⟩ := done
  obtain ⟨rightRecord, _, _, _, ⟨-, rfl⟩, done, rfl⟩ := done
  obtain ⟨buffer, _, _, _, ⟨-, rfl⟩, done, rfl⟩ := done
  obtain ⟨-, _, _, _, ⟨rfl, memory, -⟩, done, rfl⟩ := done
  obtain ⟨old, _, _, _, ⟨-, rfl⟩, done, rfl⟩ := done
  obtain ⟨-, _, _, _, ⟨rfl, -, -⟩, done, rfl⟩ := done
  obtain ⟨plain, _, _, _, ⟨rfl, fixed, -⟩, done, rfl⟩ := done
  obtain ⟨c, _, _, _, ⟨rfl, collected, -⟩, done, rfl⟩ := done
  obtain ⟨c', _, _, _, ⟨rfl, spliced, -⟩, done, rfl⟩ := done
  obtain ⟨grown, _, _, _, ⟨-, rfl⟩, done, rfl⟩ := done
  obtain ⟨⟨newVcn, newStream⟩, _, _, _, ⟨rfl, rfl, -⟩, done, rfl⟩ := done
  obtain ⟨left, _, _, _, ⟨rfl, leftBuilt, -⟩, done, rfl⟩ := done
  obtain ⟨right, _, _, _, ⟨rfl, rightBuilt, -⟩, done, rfl⟩ := done
  obtain ⟨leftWritten, _, _, _, ⟨-, rfl⟩, done, rfl⟩ := done
  obtain ⟨-, _, _, _, ⟨rfl, rfl, -⟩, done, rfl⟩ := done
  obtain ⟨rightWritten, _, _, _, ⟨-, rfl⟩, done, rfl⟩ := done
  obtain ⟨-, _, _, _, ⟨rfl, rfl, -⟩, done, rfl⟩ := done
  obtain ⟨separated, _, _, _, ⟨-, rfl⟩, done, rfl⟩ := done
  obtain ⟨-, _, _, _, ⟨rfl, rfl, -⟩, done, rfl⟩ := done
  obtain ⟨flushed, _, _, _, ⟨-, rfl⟩, done, rfl⟩ := done
  obtain ⟨rfl, rfl, -⟩ := done
  simp only [Bool.and_eq_true] at memory
  obtain ⟨⟨rfl, rfl⟩, rfl⟩ := memory
  refine ⟨⟨old, newStream, newVcn, window left 0 context.indexRecordSize,
    entryAt c'.entries (c'.offsets (c'.count / 2)), window right 0 context.indexRecordSize⟩, c', rfl,
    ⟨⟨rest plain 24, c, ?_, collected, spliced⟩, rfl, ⟨left, leftBuilt, rfl⟩, ⟨right, rightBuilt, rfl⟩⟩⟩
  rw [readLeaf, fixed, Option.map_some]

theorem made_inserts_iff {split : LeafSplit} {c : Collected} {header : Memory} {leaf : List IndexEntry}
    (made : Made context recordIndex childReference fileNameValue entries offsets split c)
    (small : childReference < 2 ^ 64) (named : (⟨childReference, fileNameValue⟩ : IndexEntry).Named)
    (shows : readLeaf context split.old = some header) (holds : nodeEntries header = some leaf)
    (growing : Sorted.Growing (placed context) leaf)
    (fresh : Sorted.Fresh (placed context) ⟨childReference, fileNameValue⟩ leaf) :
    split.Inserts context ⟨childReference, fileNameValue⟩ leaf ↔
      (∃ entry ∈ leaf, placed context ⟨childReference, fileNameValue⟩ < placed context entry) ∨
        Undisturbed header (ntfsAlign8 (16 + fileNameValue.length)) (offsets leaf.length) := by
  obtain ⟨header', before, shows', collected, spliced⟩ := made.collected
  rw [shows] at shows'
  obtain rfl := Option.some.inj shows'
  obtain ⟨⟨positions, stop⟩, found, rfl⟩ := Option.map_eq_some_iff.mp holds
  have read := nodePositions_read found
  have collects := collectLeaf_spec read collected
  have splice := spliceEntry_spec small spliced
  rw [inserts_iff made (by rw [splice.count]; omega)]
  · rw [List.length_map]
    exact shown_insertion collects read growing fresh splice
  · intro entry member
    rcases List.mem_cons.mp member with rfl | member
    · exact named
    · obtain ⟨position, within, rfl⟩ := List.mem_map.mp member
      exact read.named position within

/-- A split gives the sorted insertion of the new entry exactly when the new entry is not the last one,
or the bytes that are moved from what the array contains change no entry. -/
theorem leafSplit_iff (small : childReference < 2 ^ 64)
    (named : (⟨childReference, fileNameValue⟩ : IndexEntry).Named)
    (done : Completed handle (ntfsIndexAllocationSplitInsert context parentRecord stream recordIndex
      childReference fileNameValue entries offsets) s calls () s') :
    ∃ split, calls = LeafSplit.calls split context parentRecord stream recordIndex ∧
      ∀ header leaf, readLeaf context split.old = some header → nodeEntries header = some leaf →
        Sorted.Growing (placed context) leaf →
        Sorted.Fresh (placed context) ⟨childReference, fileNameValue⟩ leaf →
          (split.Inserts context ⟨childReference, fileNameValue⟩ leaf ↔
            (∃ entry ∈ leaf, placed context ⟨childReference, fileNameValue⟩ < placed context entry) ∨
              Undisturbed header (ntfsAlign8 (16 + fileNameValue.length)) (offsets leaf.length)) := by
  obtain ⟨split, c, same, made⟩ := split_completed done
  exact ⟨split, same, fun header leaf shows holds growing fresh =>
    made_inserts_iff made small named shows holds growing fresh⟩

end Completed

/-! ### A full leaf -/

def smallContext : NtfsContext where
  bytesPerSector := 512
  sectorsPerCluster := 1
  clustersPerIndexRecord := 1
  accepted := by decide
  upcase := []

/-- A `$FILE_NAME` value with the same character so many times. -/
def repeatedName (character : UInt8) (count : Nat) : List UInt8 :=
  List.replicate 64 0 ++ [UInt8.ofNat count, 0] ++ (List.replicate count [character, 0]).flatten

/-- An entry of a leaf with a name of 60 characters. -/
def longEntry (reference : Nat) (character : UInt8) : List UInt8 :=
  digits 8 reference ++ digits 2 208 ++ digits 2 186 ++ [0, 0, 0, 0] ++ repeatedName character 60 ++
    List.replicate 6 0

/-- An index record of 512 bytes with two entries, in which 32 bytes are left. -/
def fullLeaf : List UInt8 :=
  [0x49, 0x4E, 0x44, 0x58, 40, 0, 2, 0] ++ List.replicate 16 0 ++
    digits 4 24 ++ digits 4 456 ++ digits 4 488 ++ List.replicate 4 0 ++
    [1, 0, 0, 0] ++ List.replicate 4 0 ++
    longEntry 30 0x61 ++ longEntry 31 0x62 ++
    (digits 8 0 ++ digits 2 16 ++ digits 2 0 ++ [2, 0, 0, 0]) ++
    List.replicate 30 0 ++ [1, 0]

/-- Every call succeeds, and the record that is read is the full leaf. -/
def fullHandle : (op : IndexOp) → Unit → op.Response × Unit
  | .kmalloc _, s => (true, s)
  | .readFromRuns _ _ _, s => (fullLeaf, s)
  | .growIndexAllocation _ stream newRecordIndex, s => (some (newRecordIndex, stream), s)
  | .writeToRunsAt _ _ _, s => (true, s)
  | .rootInsertSeparator _ _ _ _, s => (true, s)
  | .transactionBarrier, s => (true, s)
  | .readMftRecord _, s => (none, s)
  | .writeMftRecord _ _, s => (false, s)
  | .collectIndexAllocation _, s => (none, s)
  | .loadIndexBitmap _, s => (none, s)

def fullStream : NtfsStream := ⟨[⟨100, 1, false⟩], 512, 512⟩

def clearedBuffer : Memory := fun _ => 0

def clearedOffsets : Nat → Nat := fun _ => 0

abbrev fullSplit (character : UInt8) : IndexCode Unit :=
  ntfsIndexAllocationSplitInsert smallContext 5 fullStream 0 40 (repeatedName character 1)
    clearedBuffer clearedOffsets

def fullHeader : Memory := (readLeaf smallContext fullLeaf).getD fun _ => 0

def fullEntries : List IndexEntry := [⟨30, repeatedName 0x61 60⟩, ⟨31, repeatedName 0x62 60⟩]

theorem fullLeaf_reads : readLeaf smallContext fullLeaf = some fullHeader := by
  have applied : (readLeaf smallContext fullLeaf).isSome = true := by decide +kernel
  obtain ⟨header, same⟩ := Option.isSome_iff_exists.mp applied
  rw [fullHeader, same, Option.getD_some]

theorem fullHeader_positions : nodePositions fullHeader = some ([24, 232], 440) := by decide +kernel

theorem fullHeader_entries : nodeEntries fullHeader = some fullEntries := by
  have first : entryAt fullHeader 24 = ⟨30, repeatedName 0x61 60⟩ := by decide +kernel
  have second : entryAt fullHeader 232 = ⟨31, repeatedName 0x62 60⟩ := by decide +kernel
  rw [nodeEntries, fullHeader_positions, Option.map_some, List.map_cons, List.map_singleton, first,
    second]
  rfl

theorem fullEntries_growing : Sorted.Growing (placed smallContext) fullEntries := by
  have order : placed smallContext ⟨30, repeatedName 0x61 60⟩ < placed smallContext ⟨31, repeatedName 0x62 60⟩ := by
    decide
  exact List.pairwise_pair.mpr order

/-- A name in front of both others. -/
theorem leafSplit_iff_front :
    ∃ split, transcript fullHandle (fullSplit 0x41).run () = LeafSplit.calls split smallContext 5 fullStream 0 ∧
      ∀ header leaf, readLeaf smallContext split.old = some header → nodeEntries header = some leaf →
        Sorted.Growing (placed smallContext) leaf →
        Sorted.Fresh (placed smallContext) ⟨40, repeatedName 0x41 1⟩ leaf →
          (split.Inserts smallContext ⟨40, repeatedName 0x41 1⟩ leaf ↔
            (∃ entry ∈ leaf, placed smallContext ⟨40, repeatedName 0x41 1⟩ < placed smallContext entry) ∨
              Undisturbed header (ntfsAlign8 (16 + (repeatedName 0x41 1).length))
                (clearedOffsets leaf.length)) := by
  have done : (run fullHandle (fullSplit 0x41).run ()).1 = some () := by decide +kernel
  exact leafSplit_iff (by decide) (by decide +kernel) (completed_of_run done)

/-- A name behind both others: the bytes of the first entry are moved over the second, although the array
does not tell where it begins, and a name is altered. -/
theorem entry_altered : ∃ split : LeafSplit, (run fullHandle (fullSplit 0x63).run ()).1 = some () ∧
      transcript fullHandle (fullSplit 0x63).run () = split.calls smallContext 5 fullStream 0 ∧
      readLeaf smallContext split.old = some fullHeader ∧ nodeEntries fullHeader = some fullEntries ∧
      Sorted.Growing (placed smallContext) fullEntries ∧
      Sorted.Fresh (placed smallContext) ⟨40, repeatedName 0x63 1⟩ fullEntries ∧
      allocSize fullHeader - totalSize fullHeader < ntfsAlign8 (16 + (repeatedName 0x63 1).length) ∧
      ¬split.Inserts smallContext ⟨40, repeatedName 0x63 1⟩ fullEntries := by
  have done : (run fullHandle (fullSplit 0x63).run ()).1 = some () := by decide +kernel
  obtain ⟨split, c, same, made⟩ := split_completed (completed_of_run done)
  have read : split.old = fullLeaf := by
    have called : ⟨.readFromRuns fullStream (0 * smallContext.indexRecordSize) smallContext.indexRecordSize,
        split.old⟩ ∈ transcript fullHandle (fullSplit 0x63).run () := by
      rw [same]
      simp only [LeafSplit.calls, List.mem_cons, true_or, or_true]
    obtain ⟨_, answer⟩ := transcript_answered called
    exact answer
  have fresh : Sorted.Fresh (placed smallContext) ⟨40, repeatedName 0x63 1⟩ fullEntries := by
    have differs : ∀ entry ∈ fullEntries,
        placed smallContext entry ≠ placed smallContext ⟨40, repeatedName 0x63 1⟩ := by decide +kernel
    exact differs
  refine ⟨split, done, same, ?_, fullHeader_entries, fullEntries_growing, fresh, by decide +kernel, ?_⟩
  · rw [read]
    exact fullLeaf_reads
  · rw [made_inserts_iff made (by decide) (by decide +kernel) (by rw [read]; exact fullLeaf_reads)
      fullHeader_entries fullEntries_growing fresh]
    rintro (between | undisturbed)
    · have last : ¬∃ entry ∈ fullEntries,
          placed smallContext ⟨40, repeatedName 0x63 1⟩ < placed smallContext entry := by decide +kernel
      exact last between
    · have first := undisturbed _ fullHeader_positions 24 List.mem_cons_self
      simp only at first
      have altered : entryAt (moved (rest fullHeader (firstEntryOffset fullHeader))
          (ntfsAlign8 (16 + (repeatedName 0x63 1).length)) (clearedOffsets fullEntries.length)
          (440 - firstEntryOffset fullHeader)) (24 - firstEntryOffset fullHeader) ≠ entryAt fullHeader 24 := by
        decide +kernel
      exact altered first

end AsasOs.Ntfs
