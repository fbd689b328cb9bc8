import AsasOs.ExFat.EntrySets

/-!
# exFAT: directories as lists of slots

The stream of a directory is a list of slots, and the layout of the slots says which
entry sets it holds. The walk over the directory hands the nodes of these sets to its
visitor, in order, whatever the form of the directory is and wherever a set crosses a
sector or a cluster.

## Main results

- `visitEntries_layout`: the walk over slots with a layout.
- `sees_visitDirectory`: the walk over a directory.
-/
namespace AsasOs.ExFat

open Block Bytes Prog Records

variable {context : Context} {I I' : Image} {clusters : List Nat} {cluster : Nat} {σ : Type}

/-! ### The slots of a stream -/

def Geometry.clusterSlots (g : Geometry) : Nat := g.clusterSize / 32

def Geometry.sectorSlots (g : Geometry) : Nat := g.sectorSize / 32

def Image.slotAt (I : Image) (context : Context) (clusters : List Nat) (index : Nat) : Slot :=
  window (I.stream context clusters) (index * 32) 32

def Image.slots (I : Image) (context : Context) (clusters : List Nat) : List Slot :=
  (List.range (clusters.length * context.clusterSlots)).map (I.slotAt context clusters)

theorem slots_length : (I.slots context clusters).length = clusters.length * context.clusterSlots := by
  rw [Image.slots, List.length_map, List.length_range]

theorem slots_sized : ∀ slot ∈ I.slots context clusters, slot.length = 32 := by
  intro slot member
  obtain ⟨index, -, rfl⟩ := List.mem_map.mp member
  exact window_length _ _ _

theorem slots_getElem? {index : Nat} (below : index < clusters.length * context.clusterSlots) :
    (I.slots context clusters)[index]? = some (I.slotAt context clusters index) := by
  rw [Image.slots, List.getElem?_map, List.getElem?_range below]
  rfl

section Regular

variable (regular : context.Regular)
include regular

theorem sectorSlots_mul : context.sectorSlots * 32 = context.sectorSize :=
  Nat.div_mul_cancel regular.aligned

theorem clusterSlots_eq : context.clusterSlots = context.sectorsPerCluster * context.sectorSlots := by
  have sector := sectorSlots_mul regular
  rw [Geometry.clusterSlots, Geometry.clusterSize, ← sector, Nat.mul_comm, ← Nat.mul_assoc,
    Nat.mul_div_cancel _ (by decide)]

theorem clusterSlots_mul : context.clusterSlots * 32 = context.clusterSize := by
  rw [clusterSlots_eq regular, Nat.mul_assoc, sectorSlots_mul regular, Nat.mul_comm]
  rfl

theorem sectorSlots_pos : 0 < context.sectorSlots := by
  have sector := regular.sector
  have slots := sectorSlots_mul regular
  omega

theorem slots_bytes (count : Nat) : count * context.clusterSlots * 32 = count * context.clusterSize := by
  rw [Nat.mul_assoc, clusterSlots_mul regular]

theorem slots_congr (same : ∀ other ∈ clusters, I'.data other = I.data other) :
    I'.slots context clusters = I.slots context clusters := by
  apply List.map_congr_left
  intro index member
  have below := List.mem_range.mp member
  have bytes := slots_bytes regular clusters.length
  apply window_congr
  intro i low high
  refine stream_congr same ?_
  rw [← bytes]
  calc i < index * 32 + 32 := high
    _ = (index + 1) * 32 := (Nat.succ_mul index 32).symm
    _ ≤ clusters.length * context.clusterSlots * 32 := Nat.mul_le_mul_right 32 below

end Regular

theorem slots_wrote (regular : context.Regular) {before part new after : List Slot}
    (split : I.slots context clusters = before ++ (part ++ after)) (same : new.length = part.length)
    (sized : ∀ slot ∈ new, slot.length = 32)
    (wrote : Wrote context clusters (before.length * 32) new.flatten I I') :
    I'.slots context clusters = before ++ (new ++ after) := by
  have bytes := slots_bytes regular clusters.length
  have total := congrArg List.length split
  rw [slots_length, List.length_append, List.length_append] at total
  have newBytes : new.flatten.length = new.length * 32 := flatten_length sized
  have old : ∀ i : Nat, (I.slots context clusters)[i]? = (before ++ (part ++ after))[i]? := by
    intro i
    rw [split]
  apply List.ext_getElem?
  intro i
  by_cases inside : i < clusters.length * context.clusterSlots
  · have written : I'.slotAt context clusters i =
        window (patch (I.stream context clusters) (before.length * 32) new.flatten) (i * 32) 32 := by
      apply window_congr
      intro k low high
      refine wrote.stream k ?_
      rw [← bytes]
      omega
    rw [slots_getElem? inside, written]
    by_cases among : before.length ≤ i ∧ i < before.length + new.length
    · -- a slot that is overwritten
      have below : i - before.length < new.length := by omega
      rw [List.getElem?_append_right among.1, List.getElem?_append_left below, List.getElem?_eq_getElem below]
      congr 1
      have place : i * 32 = before.length * 32 + (i - before.length) * 32 := by omega
      have piece : slice (window (patch (I.stream context clusters) (before.length * 32) new.flatten)
          (before.length * 32) new.flatten.length) ((i - before.length) * 32) 32 =
          window (patch (I.stream context clusters) (before.length * 32) new.flatten)
            (before.length * 32 + (i - before.length) * 32) 32 := by
        refine slice_window ?_
        rw [newBytes]
        omega
      rw [window_patch, slice_flatten sized below] at piece
      rw [place, ← piece]
    · rw [window_patch_other]
      · have here := old i
        rw [slots_getElem? inside] at here
        rw [show window (I.stream context clusters) (i * 32) 32 = I.slotAt context clusters i from rfl, here]
        by_cases front : i < before.length
        · rw [List.getElem?_append_left front, List.getElem?_append_left front]
        · rw [List.getElem?_append_right (by omega), List.getElem?_append_right (by omega),
            List.getElem?_append_right (by omega), List.getElem?_append_right (by omega), same]
      · rw [newBytes]
        omega
  · rw [List.getElem?_eq_none (by rw [slots_length]; omega), List.getElem?_eq_none]
    rw [List.length_append, List.length_append]
    omega

/-! ### The walk over slots -/

def visitNodes (visitor : Visitor σ) : List Node → σ → σ
  | [], value => value
  | node :: rest, value =>
    match visitor node value with
    | (goesOn, value) => if goesOn then visitNodes visitor rest value else value

section Walk

variable {directory : Node} {visitor : Visitor σ}

theorem visitEntries_append (front back : List Slot) (v : Visit σ) :
    visitEntries context directory visitor (front ++ back) v =
      match visitEntries context directory visitor front v with
      | (true, v) => (true, v)
      | (false, v) => visitEntries context directory visitor back v := by
  induction front generalizing v with
  | nil => rfl
  | cons entry front ih =>
    rw [List.cons_append, visitEntries, visitEntries]
    cases visited : visitEntry context directory visitor entry v with
    | mk ended w =>
      cases ended with
      | true => rfl
      | false => exact ih w

/-- The directory does not end before the slots do. -/
def Reaches (directory : Node) (start count : Nat) : Prop :=
  isRoot directory = true ∨ (start + count) * 32 ≤ directory.dataLength

theorem Reaches.here {start count : Nat} (reaches : Reaches directory start (count + 1)) :
    ¬(!isRoot directory ∧ start * 32 ≥ directory.dataLength) := by
  rintro ⟨notRoot, behind⟩
  rcases reaches with root | inside
  · rw [root] at notRoot
    cases notRoot
  · omega

theorem Reaches.after {start first second : Nat} (reaches : Reaches directory start (first + second)) :
    Reaches directory (start + first) second := by
  rcases reaches with root | inside
  · exact Or.inl root
  · exact Or.inr (by omega)

theorem Reaches.before {start first second : Nat} (reaches : Reaches directory start (first + second)) :
    Reaches directory start first := by
  rcases reaches with root | inside
  · exact Or.inl root
  · exact Or.inr (by omega)

/-- What follows a complete entry set in the walk. -/
def afterSet (context : Context) (directory : Node) (visitor : Visitor σ) (set : List UInt8)
    (processed : Nat) (value : σ) (later : List Slot) : Bool × Visit σ :=
  match nodeOfSet context directory set processed with
  | none => visitEntries context directory visitor later ⟨[], 0, processed, value⟩
  | some node =>
    match visitor node value with
    | (true, value) => visitEntries context directory visitor later ⟨[], 0, processed, value⟩
    | (false, value) => (true, ⟨[], 0, processed, value⟩)

theorem visitEntries_collect {rest later : List Slot} {set : List UInt8} {start expected : Nat}
    {value : σ} (some_more : rest ≠ []) (sized : ∀ slot ∈ rest, slot.length = 32)
    (used : ∀ slot ∈ rest, slotType slot ≠ 0) (started : expected ≠ 0)
    (whole : set.length + rest.length * 32 = expected * 32)
    (reaches : Reaches directory start rest.length) :
    visitEntries context directory visitor (rest ++ later) ⟨set, expected, start * 32, value⟩ =
      afterSet context directory visitor (set ++ rest.flatten) ((start + rest.length) * 32) value later := by
  induction rest generalizing set start with
  | nil => exact absurd rfl some_more
  | cons slot rest ih =>
    have here := sized slot List.mem_cons_self
    have type : byteAt slot 0 ≠ 0 := used slot List.mem_cons_self
    have longer : (set ++ slot).length = set.length + 32 := by rw [List.length_append, here]
    rw [List.length_cons] at whole reaches
    have reaches' := reaches.here
    rw [List.cons_append, visitEntries, visitEntry]
    simp only [if_neg reaches', if_neg type, if_neg started, longer]
    cases rest with
    | nil =>
      have last : set.length + 32 = expected * 32 := by
        rw [List.length_nil] at whole
        omega
      have place : start * 32 + 32 = (start + [slot].length) * 32 := by
        rw [List.length_singleton]
        omega
      rw [if_pos last, afterSet, List.flatten_cons, List.flatten_nil, List.append_nil, place, List.nil_append]
      cases nodeOfSet context directory (set ++ slot) ((start + [slot].length) * 32) with
      | none => rfl
      | some node =>
        dsimp only
        cases visitor node value with
        | mk goesOn value => cases goesOn <;> rfl
    | cons next rest =>
      have unfinished : ¬set.length + 32 = expected * 32 := by
        rw [List.length_cons] at whole
        omega
      have collected := ih (List.cons_ne_nil next rest)
        (fun other member => sized other (List.mem_cons_of_mem _ member))
        (fun other member => used other (List.mem_cons_of_mem _ member))
        (show (set ++ slot).length + (next :: rest).length * 32 = expected * 32 by
          rw [longer]
          omega)
        (show Reaches directory (start + 1) (next :: rest).length from
          (show Reaches directory start (1 + (next :: rest).length) by
            rw [Nat.add_comm 1]
            exact reaches).after)
      rw [if_neg unfinished]
      have place : start * 32 + 32 = (start + 1) * 32 := by omega
      have count : start + (slot :: next :: rest).length = start + 1 + (next :: rest).length := by
        rw [List.length_cons, Nat.add_assoc, Nat.add_comm 1]
      rw [place, List.flatten_cons, ← List.append_assoc, count]
      exact collected

theorem visitEntry_skip {slot : Slot} {start : Nat} {value : σ} (reaches : Reaches directory start 1)
    (more : slotType slot ≠ 0) (other : ¬SetHead slot) :
    visitEntry context directory visitor slot ⟨[], 0, start * 32, value⟩ =
      (false, ⟨[], 0, (start + 1) * 32, value⟩) := by
  have here := (show Reaches directory start (0 + 1) from reaches).here
  have type : byteAt slot 0 ≠ 0 := more
  have place : start * 32 + 32 = (start + 1) * 32 := by omega
  rw [visitEntry]
  simp only [if_neg here, if_neg type, place]
  by_cases file : slotType slot = EXFAT_ENTRY_FILE
  · have few : (byteAt slot 1).toNat + 1 < 3 ∨ (byteAt slot 1).toNat + 1 > 19 := by
      by_contra enough
      refine other ⟨file, ?_⟩
      rw [announced]
      omega
    have isFile : ¬byteAt slot 0 ≠ EXFAT_ENTRY_FILE := fun different => different file
    rw [if_neg isFile, if_pos few]
    rfl
  · have notFile : byteAt slot 0 ≠ EXFAT_ENTRY_FILE := file
    rw [if_pos notFile]
    rfl

theorem visitEntry_head {slot : Slot} {start : Nat} {value : σ} (reaches : Reaches directory start 1)
    (first : SetHead slot) :
    visitEntry context directory visitor slot ⟨[], 0, start * 32, value⟩ =
      (false, ⟨slot, announced slot, (start + 1) * 32, value⟩) := by
  have here := (show Reaches directory start (0 + 1) from reaches).here
  have type : byteAt slot 0 = EXFAT_ENTRY_FILE := first.1
  have some_type : byteAt slot 0 ≠ 0 := by
    rw [type]
    decide
  have isFile : ¬byteAt slot 0 ≠ EXFAT_ENTRY_FILE := fun different => different type
  have enough : ¬((byteAt slot 1).toNat + 1 < 3 ∨ (byteAt slot 1).toNat + 1 > 19) := by
    have bounds := first.2
    rw [announced] at bounds
    omega
  have place : start * 32 + 32 = (start + 1) * 32 := by omega
  rw [visitEntry]
  simp only [if_neg here, if_neg some_type, if_neg isFile, if_neg enough, place, announced]
  rfl

def nodesOf (context : Context) (directory : Node) (records : List (Nat × List Slot)) : List Node :=
  records.filterMap fun r => (setNode context r.2).map fun node => node.placed directory (r.1 * 32)

theorem visitEntries_record {record : List Slot} (whole : WholeSet record) {start : Nat}
    (reaches : Reaches directory start record.length) (visitor : Visitor σ) (value : σ)
    (rest : List Slot) :
    visitEntries context directory visitor (record ++ rest) ⟨[], 0, start * 32, value⟩ =
      afterSet context directory visitor record.flatten ((start + record.length) * 32) value rest := by
  obtain ⟨head, stream, names, rfl, first, count⟩ := whole.parts
  rw [List.length_cons, Nat.add_comm] at reaches
  have used : ∀ slot ∈ stream :: names, slotType slot ≠ 0 := by
    intro slot member zero
    have inUse := whole.used (List.mem_cons_of_mem _ member)
    rw [zero] at inUse
    exact inUse (by decide)
  have headSized := whole.sized head List.mem_cons_self
  rw [List.cons_append, visitEntries, visitEntry_head reaches.before first]
  dsimp only
  rw [visitEntries_collect (List.cons_ne_nil _ _)
    (fun slot member => whole.sized slot (List.mem_cons_of_mem _ member)) used
    (by rw [← count]; omega) (by rw [headSized, ← count, List.length_cons]; omega) reaches.after,
    Nat.add_assoc, Nat.add_comm 1]
  rfl

/-- The walk over slots hands the nodes of their sets to the visitor. -/
theorem visitEntries_layout {start : Nat} {slots : List Slot} {records : List (Nat × List Slot)}
    (layout : Layout entryFormat start slots records) (sized : ∀ slot ∈ slots, slot.length = 32)
    (valid : ∀ r ∈ records, ∃ node, setNode context r.2 = some node)
    (reaches : Reaches directory start slots.length) (visitor : Visitor σ) (value : σ) :
    ∃ ended v, visitEntries context directory visitor slots ⟨[], 0, start * 32, value⟩ = (ended, v) ∧
      v.value = visitNodes visitor (nodesOf context directory records) value ∧
      (ended = false → v = ⟨[], 0, (start + slots.length) * 32, v.value⟩) := by
  induction layout generalizing value with
  | ends all =>
    rename_i start slots
    cases slots with
    | nil => exact ⟨false, _, rfl, rfl, fun _ => rfl⟩
    | cons slot rest =>
      have zero : byteAt slot 0 = 0 := all slot List.mem_cons_self
      have here := reaches.here
      refine ⟨true, ⟨[], 0, start * 32 + 32, value⟩, ?_, rfl, fun impossible => by cases impossible⟩
      rw [visitEntries, visitEntry]
      simp only [if_neg here, if_pos zero]
  | skip more other layout ih =>
    rename_i start slot rest records
    rw [List.length_cons, Nat.add_comm] at reaches
    obtain ⟨ended, v, visited, collected, unended⟩ := ih
      (fun other member => sized other (List.mem_cons_of_mem _ member)) valid reaches.after value
    refine ⟨ended, v, ?_, collected, fun more => ?_⟩
    · rw [visitEntries, visitEntry_skip reaches.before more other]
      exact visited
    · have place := unended more
      rwa [Nat.add_assoc, Nat.add_comm 1] at place
  | record whole layout ih =>
    rename_i start record rest records
    obtain ⟨node, stored⟩ := valid (start, record) List.mem_cons_self
    have placed : nodeOfSet context directory record.flatten ((start + record.length) * 32) =
        some (node.placed directory (start * 32)) := by
      rw [nodeOfSet_placed whole stored, Nat.add_mul, Nat.add_sub_cancel]
    have nodes : nodesOf context directory ((start, record) :: records) =
        node.placed directory (start * 32) :: nodesOf context directory records := by
      rw [nodesOf, List.filterMap_cons, stored]
      rfl
    rw [List.length_append] at reaches
    have restSized : ∀ slot ∈ rest, slot.length = 32 :=
      fun slot member => sized slot (List.mem_append_right _ member)
    have restValid : ∀ r ∈ records, ∃ node, setNode context r.2 = some node :=
      fun r member => valid r (List.mem_cons_of_mem _ member)
    rw [visitEntries_record whole reaches.before, afterSet, placed, nodes]
    dsimp only [visitNodes]
    cases visited : visitor (node.placed directory (start * 32)) value with
    | mk goesOn value' =>
      cases goesOn with
      | false => exact ⟨true, _, rfl, rfl, fun impossible => by cases impossible⟩
      | true =>
        obtain ⟨ended, v, later, collected, unended⟩ := ih restSized restValid reaches.after value'
        refine ⟨ended, v, later, collected, fun more => ?_⟩
        rw [List.length_append, ← Nat.add_assoc]
        exact unended more

end Walk

/-! ### The walk over a directory -/

structure Spans (context : Context) (fat : Nat → Nat) (directory : Node) (clusters : List Nat) :
    Prop where
  extent : Extent context fat directory.firstCluster directory.noFatChain clusters
  length : directory.dataLength = 0 ∧ directory.noFatChain = false ∨
    directory.dataLength = clusters.length * context.clusterSize

/-- A directory whose bytes lie in its clusters. They need not fill the last one. -/
structure Contained (context : Context) (fat : Nat → Nat) (directory : Node)
    (clusters : List Nat) : Prop where
  extent : Extent context fat directory.firstCluster directory.noFatChain clusters
  rooted : directory.dataLength = 0 → directory.noFatChain = false
  fits : directory.dataLength ≤ clusters.length * context.clusterSize

/-- The number of the bytes of a directory, which without a length has all its clusters. -/
def directoryBytes (context : Context) (directory : Node) (clusters : List Nat) : Nat :=
  if directory.dataLength = 0 then clusters.length * context.clusterSize else directory.dataLength

theorem Contained.bytes_le {fat : Nat → Nat} {directory : Node}
    (contained : Contained context fat directory clusters) :
    directoryBytes context directory clusters ≤ clusters.length * context.clusterSize := by
  unfold directoryBytes
  split
  · exact Nat.le_refl _
  · exact contained.fits

structure Holding (context : Context) (I : Image) (directory : Node) (clusters : List Nat)
    (records : List (Nat × List Slot)) : Prop extends Spans context I.fat directory clusters where
  layout : Layout entryFormat 0 (I.slots context clusters) records
  valid : ∀ r ∈ records, ∃ node, setNode context r.2 = some node

section Visit

variable {directory : Node} {visitor : Visitor σ} (regular : context.Regular)
include regular

theorem sectorEntries_eq {medium : Nat → List UInt8} (pictured : Pictured context medium I)
    {k index : Nat} (here : clusters[k]? = some cluster) (valid : context.validCluster cluster = true)
    (below : index < context.sectorsPerCluster) :
    sectorEntries context (medium (context.clusterLba cluster + index)) =
      (List.range' (k * context.clusterSlots + index * context.sectorSlots) context.sectorSlots).map
        (I.slotAt context clusters) := by
  have sector := sectorSlots_mul regular
  have slots := clusterSlots_mul regular
  have room := Geometry.sector_end below
  have positive := regular.clusterSize_pos
  apply List.ext_getElem?
  intro i
  rw [sectorEntries, List.getElem?_map, List.getElem?_map,
    show context.sectorSize / 32 = context.sectorSlots from rfl]
  by_cases inside : i < context.sectorSlots
  · have fits : i * 32 + 32 ≤ context.sectorSize := by omega
    have place : (k * context.clusterSlots + index * context.sectorSlots + i) * 32 =
        k * context.clusterSize + (index * context.sectorSize + i * 32) := by
      rw [Nat.add_mul, Nat.add_mul, Nat.mul_assoc, Nat.mul_assoc, slots, sector, Nat.add_assoc]
    have within : index * context.sectorSize + i * 32 < context.clusterSize := by omega
    have quotient : (k * context.clusterSize + (index * context.sectorSize + i * 32)) /
        context.clusterSize = k := by
      rw [Nat.mul_comm k, Nat.mul_add_div positive, Nat.div_eq_of_lt within, Nat.add_zero]
    have remainder : (k * context.clusterSize + (index * context.sectorSize + i * 32)) %
        context.clusterSize = index * context.sectorSize + i * 32 := by
      rw [Nat.mul_comm k, Nat.mul_add_mod, Nat.mod_eq_of_lt within]
    have read : window (I.stream context clusters)
        (k * context.clusterSize + (index * context.sectorSize + i * 32)) 32 =
        window (I.data cluster) (index * context.sectorSize + i * 32) 32 := by
      have inCluster := window_stream (I := I) (by rw [quotient]; exact here)
        (show (k * context.clusterSize + (index * context.sectorSize + i * 32)) %
          context.clusterSize + 32 ≤ context.clusterSize by rw [remainder]; omega)
      rwa [remainder] at inCluster
    rw [List.getElem?_range inside, List.getElem?_range' inside, Nat.one_mul, Option.map_some,
      Option.map_some, pictured.slice valid below fits, Image.slotAt, place, read]
  · rw [List.getElem?_eq_none (by rw [List.length_range]; omega),
      List.getElem?_eq_none (by rw [List.length_range']; omega)]
    rfl

theorem sees_visitSectors {k : Nat} (here : clusters[k]? = some cluster)
    (valid : context.validCluster cluster = true) {count : Nat} : ∀ {index : Nat} {v : Visit σ},
    index + count ≤ context.sectorsPerCluster →
    Sees context (visitSectors context directory visitor cluster (List.range' index count) v).run I
      (some (visitEntries context directory visitor
        ((List.range' (k * context.clusterSlots + index * context.sectorSlots)
          (count * context.sectorSlots)).map (I.slotAt context clusters)) v)) := by
  induction count with
  | zero =>
    intro index v _
    rw [Nat.zero_mul]
    exact sees_some
  | succ count ih =>
    intro index v room medium pictured
    have below : index < context.sectorsPerCluster := by omega
    have split : (List.range' (k * context.clusterSlots + index * context.sectorSlots)
        ((count + 1) * context.sectorSlots)) =
        List.range' (k * context.clusterSlots + index * context.sectorSlots) context.sectorSlots ++
          List.range' (k * context.clusterSlots + (index + 1) * context.sectorSlots)
            (count * context.sectorSlots) := by
      rw [Nat.succ_mul, Nat.add_comm (count * _), ← List.range'_append_1, Nat.succ_mul index, Nat.add_assoc]
    rw [List.range'_succ, visitSectors, eval_fallible_bind,
      eval_readSector (regular.clusterLba_inside valid below), Option.bind_some,
      sectorEntries_eq regular pictured here valid below, split, List.map_append,
      visitEntries_append]
    cases visitEntries context directory visitor _ v with
    | mk ended w =>
      cases ended with
      | true => rfl
      | false => exact ih (by omega) medium pictured

/-- Behind the last cluster of a contiguous directory nothing or a cluster of the heap is
found. -/
theorem sees_streamCluster_behind (first : context.validCluster directory.firstCluster = true)
    (contiguous : directory.noFatChain = true) (k : Nat) :
    ∃ found, Sees context (streamCluster context directory.firstCluster directory.noFatChain k).run I
      found ∧ ∀ other, found = some other → context.validCluster other = true := by
  have first := Geometry.validCluster_iff.mp first
  have few := regular.few
  simp only [EXFAT_BAD_CLUSTER] at few
  unfold streamCluster
  rw [contiguous, if_pos rfl]
  by_cases fits : context.validCluster directory.firstCluster = true ∧ k < context.clusterCount
  · by_cases inside : ¬directory.firstCluster - 2 > context.clusterCount - 1 - k
    · refine ⟨_, sees_guard fits (sees_guard inside sees_some), fun other same => ?_⟩
      cases same
      rw [Nat.mod_eq_of_lt (by omega)]
      exact Geometry.validCluster_iff.mpr (by omega)
    · exact ⟨none, sees_guard fits (sees_guard_fails inside), fun _ same => by cases same⟩
  · exact ⟨none, sees_guard_fails fits, fun _ same => by cases same⟩

/-- Behind the length of the directory the walk stops at the first slot. -/
theorem sees_visitSectors_behind (valid : context.validCluster cluster = true) {v : Visit σ}
    (stops : !isRoot directory ∧ v.processed ≥ directory.dataLength) :
    Sees context (visitSectors context directory visitor cluster
      (List.range context.sectorsPerCluster) v).run I (some (true, v)) := by
  intro medium pictured
  have positive := sectorSlots_pos regular
  have one := regular.cluster
  obtain ⟨more, count⟩ : ∃ more, context.sectorsPerCluster = more + 1 :=
    ⟨context.sectorsPerCluster - 1, by omega⟩
  obtain ⟨slots, slotCount⟩ : ∃ slots, context.sectorSize / 32 = slots + 1 :=
    ⟨context.sectorSlots - 1, by
      rw [Geometry.sectorSlots] at positive ⊢
      omega⟩
  rw [count, List.range_eq_range', List.range'_succ, visitSectors, eval_fallible_bind,
    eval_readSector (regular.clusterLba_inside valid (by omega)), Option.bind_some,
    sectorEntries, slotCount, List.range_eq_range', List.range'_succ, List.map_cons,
    visitEntries, visitEntry]
  simp only [if_pos stops]
  rfl

/-- The walk from a cluster on. -/
theorem sees_visitClusters (extent : Extent context I.fat directory.firstCluster
      directory.noFatChain clusters)
    (whole : directory.noFatChain = true → isRoot directory = false)
    {remaining : Nat} : ∀ {k : Nat} {v w : Visit σ} {ended : Bool},
    k ≤ clusters.length → clusters.length ≤ remaining + k →
    (k = clusters.length → directory.noFatChain = true) →
    visitEntries context directory visitor ((List.range' (k * context.clusterSlots)
      ((clusters.length - k) * context.clusterSlots)).map (I.slotAt context clusters)) v = (ended, w) →
    (ended = false → directory.noFatChain = true → w.processed ≥ directory.dataLength) →
    Sees context (visitClusters context directory visitor remaining k v).run I (some w.value) := by
  induction remaining with
  | zero =>
    intro k v w ended low high chained visited atEnd
    have all : k = clusters.length := by omega
    rw [all, Nat.sub_self, Nat.zero_mul] at visited
    cases visited
    have notRoot := whole (chained all)
    refine sees_guard ⟨?_, atEnd rfl (chained all)⟩ sees_some
    rw [notRoot]
    rfl
  | succ remaining ih =>
    intro k v w ended low high chained visited atEnd
    unfold visitClusters
    by_cases last : k = clusters.length
    · -- behind the last cluster of a contiguous directory
      rw [last, Nat.sub_self, Nat.zero_mul] at visited
      cases visited
      have contiguous := chained last
      have notRoot := whole contiguous
      have stops : !isRoot directory ∧ v.processed ≥ directory.dataLength := by
        refine ⟨?_, atEnd rfl contiguous⟩
        rw [notRoot]
        rfl
      obtain ⟨found, sees, someValid⟩ :=
        sees_streamCluster_behind regular extent.first_valid contiguous k
      refine sees_observe sees ?_
      cases found with
      | none => exact sees_guard stops sees_some
      | some other => exact sees_then (sees_visitSectors_behind regular (someValid other rfl) stops) sees_some
    · have inside : k < clusters.length := by omega
      have here : clusters[k]? = some clusters[k] := List.getElem?_eq_getElem inside
      have valid := extent.valid clusters[k] (List.getElem_mem inside)
      have slots := clusterSlots_eq regular
      have split : List.range' (k * context.clusterSlots)
          ((clusters.length - k) * context.clusterSlots) =
          List.range' (k * context.clusterSlots) context.clusterSlots ++
            List.range' ((k + 1) * context.clusterSlots)
              ((clusters.length - (k + 1)) * context.clusterSlots) := by
        have count : clusters.length - k = 1 + (clusters.length - (k + 1)) := by omega
        rw [count, Nat.add_mul, Nat.one_mul, ← List.range'_append_1, Nat.succ_mul]
      have sees : Sees context (visitSectors context directory visitor clusters[k]
          (List.range' 0 context.sectorsPerCluster) v).run I _ :=
        sees_visitSectors regular here valid (Nat.zero_add context.sectorsPerCluster).le
      rw [Nat.zero_mul, Nat.add_zero, ← slots, ← List.range_eq_range'] at sees
      rw [split, List.map_append, visitEntries_append] at visited
      refine sees_observe (sees_streamCluster regular extent here) ?_
      refine sees_then sees ?_
      generalize visitEntries context directory visitor
        ((List.range' (k * context.clusterSlots) context.clusterSlots).map
          (I.slotAt context clusters)) v = first at visited ⊢
      cases first with
      | mk stopped u =>
        cases stopped with
        | true =>
          cases visited
          exact sees_some
        | false =>
          dsimp only at visited ⊢
          rw [if_neg Bool.false_ne_true]
          cases form : directory.noFatChain with
          | true =>
            rw [if_pos rfl]
            refine sees_guard ?_ (ih (by omega) (by omega) (fun _ => form) visited atEnd)
            rw [whole form]
            rfl
          | false =>
            rw [if_neg Bool.false_ne_true]
            have linked := extent.linked form
            by_cases final : k + 1 = clusters.length
            · -- the chain ends here
              have link : EXFAT_EOC ≤ I.fat clusters[k] := linked.last inside final
              have readsEnd : Sees context (readFat context clusters[k]).run I
                  (some (I.fat clusters[k])) := sees_readFat_last regular valid link
              refine sees_observe readsEnd ?_
              dsimp only
              rw [if_pos link]
              rw [final, Nat.sub_self, Nat.zero_mul] at visited
              cases visited
              exact sees_some
            · have next : k + 1 < clusters.length := by omega
              have validNext := extent.valid clusters[k + 1] (List.getElem_mem next)
              have link : I.fat clusters[k] = clusters[k + 1] := linked.next next
              have readsNext : Sees context (readFat context clusters[k]).run I
                  (some clusters[k + 1]) := by
                have reads := sees_readFat (I := I) regular valid
                rwa [link, linkTo_valid regular validNext] at reads
              refine sees_observe readsNext ?_
              dsimp only
              rw [if_neg (valid_not_end regular validNext)]
              exact ih (by omega) (by omega) (fun same => by omega) visited atEnd

/-- The walk over a directory hands the nodes of its sets to the visitor. -/
theorem sees_visitDirectory {records : List (Nat × List Slot)}
    (holding : Holding context I directory clusters records) (value : σ) :
    Sees context (visitDirectory context directory visitor value).run I
      (some (visitNodes visitor (nodesOf context directory records) value)) := by
  have bytes := slots_bytes regular clusters.length
  have positive := holding.extent.length_pos
  have size := regular.clusterSize_pos
  have reaches : Reaches directory 0 (I.slots context clusters).length := by
    rw [slots_length]
    rcases holding.length with ⟨root, -⟩ | length
    · exact Or.inl (beq_iff_eq.mpr root)
    · exact Or.inr (by rw [Nat.zero_add, bytes, length])
  have contiguous : directory.noFatChain = true → isRoot directory = false := by
    intro form
    rcases holding.length with ⟨-, chained⟩ | length
    · rw [chained] at form
      cases form
    · refine beq_eq_false_iff_ne.mpr ?_
      rw [length]
      exact (Nat.mul_pos positive size).ne'
  obtain ⟨ended, v, visited, collected, unended⟩ :=
    visitEntries_layout holding.layout slots_sized holding.valid reaches visitor value
  rw [Nat.zero_mul] at visited
  rw [← collected]
  have whole : visitEntries context directory visitor ((List.range' (0 * context.clusterSlots)
      ((clusters.length - 0) * context.clusterSlots)).map (I.slotAt context clusters))
        ⟨[], 0, 0, value⟩ = (ended, v) := by
    rw [Nat.zero_mul, Nat.sub_zero, ← List.range_eq_range']
    exact visited
  refine sees_visitClusters regular holding.extent contiguous (Nat.zero_le _)
    holding.extent.length_le (fun none => ?_) whole fun more form => ?_
  · omega
  · -- a contiguous directory ends with its last slot
    have place := unended more
    rw [place, slots_length, Nat.zero_add]
    dsimp only
    rw [bytes]
    rcases holding.length with ⟨-, chained⟩ | length
    · rw [chained] at form
      cases form
    · rw [length]

end Visit

end AsasOs.ExFat
