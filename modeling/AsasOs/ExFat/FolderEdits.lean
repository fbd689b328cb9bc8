import AsasOs.ExFat.Folders

/-!
# exFAT: reading and rewriting the slots of a directory

The bytes of a directory are read and written through its stream, and the search for free
entries goes over its slots.

## Main results

- `Contained.sees_readDirectoryBytes`, `Contained.does_writeDirectoryBytes`: the bytes of a directory.
- `sees_scanEntries`: the search of `find_free_entries`.
-/
namespace AsasOs.ExFat

open Block Bytes Prog Records

variable {context : Context} {I I' : Image} {clusters : List Nat} {directory node : Node}
  {records : List (Nat × List Slot)} {record : List Slot} {k : Nat}

/-! ### The bytes of a directory -/

theorem clusterSize_lt (context : Context) : context.clusterSize < 2 ^ 32 := by
  have accepted := context.accepted
  simp only [Geometry.accepted, Bool.and_eq_true, Bool.not_eq_true', decide_eq_false_iff_not]
    at accepted
  have few : context.sectorsPerCluster ≤ 0xFFFFFFFF / context.sectorSize := by omega
  have product := Nat.mul_le_mul_left context.sectorSize few
  have bound := Nat.mul_div_le 0xFFFFFFFF context.sectorSize
  rw [Geometry.clusterSize]
  omega

section Bytes

variable (regular : context.Regular)
include regular

theorem stream_narrow (length : clusters.length ≤ context.clusterCount) :
    clusters.length * context.clusterSize + 608 < 2 ^ 64 := by
  have few := regular.few
  have size := clusterSize_lt context
  simp only [EXFAT_BAD_CLUSTER] at few
  have product : clusters.length * context.clusterSize ≤ (2 ^ 32 - 9) * (2 ^ 32 - 1) :=
    Nat.mul_le_mul (by omega) (by omega)
  omega

theorem Contained.sees_directoryLength (contained : Contained context I.fat directory clusters) :
    Sees context (directoryLength context directory) I (directoryBytes context directory clusters) := by
  unfold directoryLength directoryBytes
  by_cases root : directory.dataLength = 0
  · have extent := contained.extent
    rw [contained.rooted root] at extent
    rw [if_neg (fun some => some root), if_pos root]
    exact sees_bind (extent.sees_chainLength regular) sees_pure
  · rw [if_pos root, if_neg root]
    exact sees_pure

theorem Contained.sees_readDirectoryBytes_if
    (contained : Contained context I.fat directory clusters) (offset size : Nat) :
    Sees context (readDirectoryBytes context directory offset size).run I
      (if min size (directoryBytes context directory clusters - offset) = size then
        some (window (I.stream context clusters) offset size) else none) := by
  have read : Sees context (readStream context directory.firstCluster directory.noFatChain
      (directoryBytes context directory clusters) offset size) I _ :=
    sees_readStream regular contained.extent contained.bytes_le
  unfold readDirectoryBytes
  refine sees_lift (contained.sees_directoryLength regular) ?_
  refine sees_lift read ?_
  split
  · rename_i whole
    rw [whole]
    exact sees_guard (window_length _ _ _) sees_some
  · rename_i short
    exact sees_guard_fails fun whole => short (by rwa [window_length] at whole)

theorem Contained.sees_readDirectoryBytes (contained : Contained context I.fat directory clusters)
    {offset size : Nat} (inside : offset + size ≤ directoryBytes context directory clusters) :
    Sees context (readDirectoryBytes context directory offset size).run I
      (some (window (I.stream context clusters) offset size)) := by
  have read : Sees context (readDirectoryBytes context directory offset size).run I _ :=
    contained.sees_readDirectoryBytes_if regular offset size
  rwa [if_pos (Nat.min_eq_left (by omega))] at read

/-- What is written into a directory lies in it. -/
theorem Contained.does_writeDirectoryBytes (contained : Contained context I.fat directory clusters)
    {offset : Nat} {source : List UInt8} (here : offset ≤ clusters.length * context.clusterSize)
    (short : source.length ≤ 608) :
    Does context (writeDirectoryBytes context directory offset source) I fun _ I' =>
      offset + source.length ≤ directoryBytes context directory clusters ∧
        Wrote context clusters offset source I I' := by
  have narrow := stream_narrow regular contained.extent.length_le
  have low := contained.bytes_le
  unfold writeDirectoryBytes
  refine does_lift (directoryLength_looks context.from_zero directory)
    (contained.sees_directoryLength regular) ?_
  refine does_guard fun fits => ?_
  rw [Nat.mod_eq_of_lt (by omega)] at fits
  exact does_mono (does_writeStreamMetadata regular contained.extent (fits.trans low))
    fun _ I' wrote => ⟨fits, wrote⟩

/-! ### The set of a node -/

omit regular in
theorem Holding.place (holding : Holding context I directory clusters records)
    (member : (k, record) ∈ records) :
    WholeSet record ∧ ∃ before after,
      I.slots context clusters = before ++ (record ++ after) ∧ before.length = k := by
  obtain ⟨-, whole, before, after, split, length⟩ := holding.layout.mem_bounds member
  refine ⟨whole, before, after, ?_, by omega⟩
  rw [split, List.append_assoc]

end Bytes

/-! ### The search for free slots -/

def FreeSlot (slot : Slot) : Prop := slotType slot &&& 0x80 = 0

instance (slot : Slot) : Decidable (FreeSlot slot) := inferInstanceAs (Decidable (_ = _))

/-- The loop of `find_free_entries` over slots. -/
def scanSlots (needed : Nat) : Nat → List Slot → FreeRun → Nat ⊕ FreeRun
  | _, [], run => .inr run
  | index, slot :: rest, run =>
    if FreeSlot slot then
      let start := if run.consecutive = 0 then index * 32 else run.start
      if run.consecutive + 1 = needed then .inl start
      else scanSlots needed (index + 1) rest ⟨run.consecutive + 1, start⟩
    else scanSlots needed (index + 1) rest ⟨0, run.start⟩

theorem sees_scanEntries (regular : context.Regular)
    (contained : Contained context I.fat directory clusters)
    {needed count : Nat} : ∀ {index : Nat} {run : FreeRun},
    (index + count) * 32 ≤ directoryBytes context directory clusters →
    Sees context (scanEntries context directory needed ((List.range' index count).map (· * 32)) run).run I
      (some (scanSlots needed index ((List.range' index count).map (I.slotAt context clusters)) run)) := by
  induction count with
  | zero => exact fun _ => sees_some
  | succ count ih =>
    intro index run inside
    rw [List.range'_succ, List.map_cons, List.map_cons]
    unfold scanEntries scanSlots
    refine sees_then (contained.sees_readDirectoryBytes regular (by omega)) ?_
    have free : (byteAt (window (I.stream context clusters) (index * 32) 32) 0 = 0 ∨
        byteAt (window (I.stream context clusters) (index * 32) 32) 0 &&& 0x80 = 0) ↔
        FreeSlot (I.slotAt context clusters index) := by
      constructor
      · rintro (zero | unused)
        · have type : slotType (I.slotAt context clusters index) = 0 := zero
          rw [FreeSlot, type]
          decide
        · exact unused
      · exact Or.inr
    simp only [free]
    split
    · split
      · exact sees_some
      · exact ih (by omega)
    · exact ih (by omega)

end AsasOs.ExFat
