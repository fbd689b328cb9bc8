import AsasOs.ExFat.Extension

/-!
# exFAT: an entry set that was written is read back

The set that `build_entry_set` makes of a node is written into a directory, behind slots
that are read completely, and the walk over the directory comes across the node again.

## Main results

- `entrySet_roundTrip`: the node is found as it was given, where it was written.
-/
namespace AsasOs.ExFat

open Block Bytes Prog Records

variable {context : Context} {I I' : Image} {clusters : List Nat} {directory : Node}
  {name : List Nat} {attributes firstCluster dataLength validLength k : Nat} {noFatChain : Bool}
  {set : List UInt8}

def newNode (name : List Nat) (attributes firstCluster dataLength validLength : Nat)
    (noFatChain : Bool) : Node where
  name := name
  attributes := attributes
  firstCluster := firstCluster
  dataLength := dataLength
  validDataLength := validLength
  noFatChain := noFatChain

/-! ### All nodes of a directory -/

def collectVisitor : Visitor (List Node) := fun node nodes => (true, nodes ++ [node])

theorem visitEntry_collects (slot : Slot) (v : Visit (List Node)) :
    ∃ more, (visitEntry context directory collectVisitor slot v).2.value = v.value ++ more := by
  unfold visitEntry
  dsimp only
  split_ifs
  all_goals try exact ⟨[], (List.append_nil _).symm⟩
  split
  · exact ⟨[], (List.append_nil _).symm⟩
  · exact ⟨[_], rfl⟩

theorem visitEntries_collects (slots : List Slot) (v : Visit (List Node)) :
    ∃ more, (visitEntries context directory collectVisitor slots v).2.value = v.value ++ more := by
  induction slots generalizing v with
  | nil => exact ⟨[], (List.append_nil _).symm⟩
  | cons slot rest ih =>
    have first : ∃ more, (visitEntry context directory collectVisitor slot v).2.value =
        v.value ++ more := visitEntry_collects slot v
    obtain ⟨front, first⟩ := first
    rw [visitEntries]
    cases visited : visitEntry context directory collectVisitor slot v with
    | mk ended w =>
      rw [visited] at first
      cases ended with
      | true => exact ⟨front, first⟩
      | false =>
        obtain ⟨back, later⟩ := ih w
        refine ⟨front ++ back, ?_⟩
        dsimp only at first ⊢
        rw [later, first, List.append_assoc]

theorem visitEntry_processed {σ : Type} {visitor : Visitor σ} {slot : Slot} {v w : Visit σ}
    (visited : visitEntry context directory visitor slot v = (false, w)) :
    w.processed = v.processed + 32 := by
  unfold visitEntry at visited
  dsimp only at visited
  split_ifs at visited
  all_goals try (cases visited <;> rfl)
  split at visited
  · cases visited
    rfl
  · exact (congrArg (·.2.processed) visited).symm

theorem visitEntries_processed {σ : Type} {visitor : Visitor σ} {slots : List Slot} {v w : Visit σ}
    (visited : visitEntries context directory visitor slots v = (false, w)) :
    w.processed = v.processed + slots.length * 32 := by
  induction slots generalizing v with
  | nil =>
    cases visited
    rfl
  | cons slot rest ih =>
    rw [visitEntries] at visited
    cases here : visitEntry context directory visitor slot v with
    | mk ended u =>
      rw [here] at visited
      cases ended with
      | true => cases visited
      | false =>
        rw [ih visited, visitEntry_processed here, List.length_cons]
        omega

/-! ### The set of a node -/

theorem buildEntrySet_fields
    (built : buildEntrySet context name attributes firstCluster dataLength validLength noFatChain =
      some set) :
    entrySetChecksum set = getLE set 2 2 ∧ getLE set 36 2 = nameHash context name ∧
      set.length = (2 + (name.length + 14) / 15) * 32 := by
  obtain ⟨-, rfl⟩ := buildEntrySet_form built
  have headSized := builtHead_length attributes (2 + (name.length + 14) / 15)
  have streamSized : (builtStream context name firstCluster dataLength validLength noFatChain).length =
      32 := by
    obtain ⟨-, -, -, cluster⟩ :=
      builtStream_lengths context name firstCluster validLength noFatChain
    rw [builtStream, putLE_length (by omega), cluster]
  have sized : ∀ slot ∈ builtHead attributes (2 + (name.length + 14) / 15) ::
      builtStream context name firstCluster dataLength validLength noFatChain ::
      (List.range ((name.length + 14) / 15)).map (nameEntry name), slot.length = 32 := by
    intro slot member
    rcases List.mem_cons.mp member with rfl | later
    · exact headSized
    · rcases List.mem_cons.mp later with rfl | named
      · exact streamSized
      · obtain ⟨index, -, rfl⟩ := List.mem_map.mp named
        exact nameEntry_length name index
  have stampedSized := stamped_sized sized
  refine ⟨?_, ?_, ?_⟩
  · rw [checksum_stamped headSized]
    exact (getLE_append_left (by rw [putLE_length (by omega)]; omega)).symm
  · have first := stampedSized _ List.mem_cons_self
    rw [← builtStream_hash firstCluster dataLength validLength noFatChain]
    exact getLE_second first streamSized 4 (by decide)
  · rw [flatten_length stampedSized]
    change (((List.range ((name.length + 14) / 15)).map (nameEntry name)).length + 2) * 32 = _
    rw [List.length_map, List.length_range, Nat.add_comm]

theorem visitEntries_placed {before record after : List Slot} {nodes : List Node} {node : Node}
    (whole : WholeSet record) (decoded : setNode context record = some node)
    (reaches : Reaches directory k record.length)
    (parsed : visitEntries context directory collectVisitor before ⟨[], 0, 0, []⟩ =
      (false, ⟨[], 0, k * 32, nodes⟩)) :
    ∃ later, (visitEntries context directory collectVisitor (before ++ (record ++ after))
      ⟨[], 0, 0, []⟩).2.value = nodes ++ node.placed directory (k * 32) :: later := by
  have placed : nodeOfSet context directory record.flatten ((k + record.length) * 32) =
      some (node.placed directory (k * 32)) := by
    rw [nodeOfSet_placed whole decoded, Nat.add_mul, Nat.add_sub_cancel]
  rw [visitEntries_append, parsed]
  dsimp only
  rw [visitEntries_record whole reaches, afterSet, placed]
  dsimp only [collectVisitor]
  have stays : ∃ later, (visitEntries context directory collectVisitor after
      ⟨[], 0, (k + record.length) * 32, nodes ++ [node.placed directory (k * 32)]⟩).2.value =
        nodes ++ [node.placed directory (k * 32)] ++ later := visitEntries_collects after _
  obtain ⟨later, collected⟩ := stays
  refine ⟨later, ?_⟩
  rw [collected, List.append_assoc]
  rfl

/-! ### Writing and reading back -/

/-- The set of a node is written behind slots that are read completely, and the walk over
the directory finds the node, as it was given, where it was written. -/
theorem entrySet_roundTrip {size : Nat} (regular : context.Regular)
    (contained : Contained context I.fat directory clusters)
    (built : buildEntrySet context name attributes firstCluster dataLength validLength noFatChain = some set)
    (units : ∀ unit ∈ name, unit < 2 ^ 16) (small : attributes < 2 ^ 16)
    (fits : StreamFits context firstCluster dataLength validLength) {nodes : List Node}
    (parsed : visitEntries context directory collectVisitor ((I.slots context clusters).take k)
      ⟨[], 0, 0, []⟩ = (false, ⟨[], 0, k * 32, nodes⟩))
    (s : ExfatState size) (sectored : Sectored context s)
    (pictured : Pictured context s.disk.medium I)
    (answered : Answered context (writeDirectoryBytes context directory (k * 32) set).run s)
    (success : (runCode context (writeDirectoryBytes context directory (k * 32) set) s).1 = some ()) :
    entrySetChecksum set = getLE set 2 2 ∧ getLE set 36 2 = nameHash context name ∧
      ∃ later, eval (answer context.device
        (runCode context (writeDirectoryBytes context directory (k * 32) set) s).2.disk.medium)
          (visitDirectory context directory collectVisitor []).run =
        some (nodes ++ { newNode name attributes firstCluster dataLength validLength noFatChain with
          parentFirstCluster := directory.firstCluster
          parentNoFatChain := directory.noFatChain
          parentDataLength := directory.dataLength
          entryOffset := k * 32
          entryCount := 2 + (name.length + 14) / 15 } :: later) := by
  obtain ⟨record, whole, rfl, decoded⟩ := setNode_built built units small fits
  obtain ⟨checked, hashed, length⟩ := buildEntrySet_fields built
  have bytes := flatten_length whole.sized
  have short := whole.length_le
  have size := slots_bytes regular clusters.length
  have count : record.length = 2 + (name.length + 14) / 15 := by omega
  have counted := visitEntries_processed parsed
  rw [List.length_take, slots_length] at counted
  dsimp only at counted
  have writes : Does context (writeDirectoryBytes context directory (k * 32) record.flatten) I _ :=
    contained.does_writeDirectoryBytes regular (by omega) (by omega)
  obtain ⟨I', pictured', inside, wrote⟩ :=
    writes s.disk.medium pictured s sectored answered rfl () success
  have low := contained.bytes_le
  -- the slots before the set, those that it replaces, and the rest
  have split : I.slots context clusters = (I.slots context clusters).take k ++
      (((I.slots context clusters).drop k).take record.length ++
        ((I.slots context clusters).drop k).drop record.length) := by
    rw [List.take_append_drop, List.take_append_drop]
  have place : ((I.slots context clusters).take k).length = k := by
    rw [List.length_take, slots_length]
    omega
  have replaced : record.length =
      (((I.slots context clusters).drop k).take record.length).length := by
    rw [List.length_take, List.length_drop, slots_length]
    omega
  have here : Wrote context clusters (((I.slots context clusters).take k).length * 32)
      record.flatten I I' := by
    rw [place]
    exact wrote
  have slots := slots_wrote regular split replaced whole.sized here
  have reaches : Reaches directory k record.length := by
    unfold directoryBytes at inside
    split at inside
    · exact Or.inl (beq_iff_eq.mpr ‹_›)
    · exact Or.inr (by omega)
  have comesAcross (rest : List Slot) : ∃ later, (visitEntries context directory collectVisitor
      ((I.slots context clusters).take k ++ (record ++ rest)) ⟨[], 0, 0, []⟩).2.value = _ :=
    visitEntries_placed whole decoded reaches parsed
  obtain ⟨later, found⟩ := comesAcross (((I.slots context clusters).drop k).drop record.length)
  rw [← slots, count] at found
  refine ⟨checked, hashed, later, ?_⟩
  -- the walk over the clusters is the walk over the slots
  have extent : Extent context I'.fat directory.firstCluster directory.noFatChain clusters := by
    rw [wrote.fat]
    exact contained.extent
  cases visited : visitEntries context directory collectVisitor (I'.slots context clusters)
    ⟨[], 0, 0, []⟩ with
  | mk ended w =>
    rw [visited] at found
    have sees : Sees context (visitDirectory context directory collectVisitor []).run I'
        (some w.value) := by
      have contiguous : directory.noFatChain = true → isRoot directory = false := by
        intro form
        refine beq_eq_false_iff_ne.mpr fun root => ?_
        rw [contained.rooted root] at form
        cases form
      have all : ended = false → directory.noFatChain = true → w.processed ≥ directory.dataLength := by
        rintro rfl -
        have processed := visitEntries_processed visited
        have fits := contained.fits
        rw [slots_length] at processed
        dsimp only at processed
        omega
      have positive := extent.length_pos
      refine sees_visitClusters regular extent contiguous (Nat.zero_le _) extent.length_le
        (fun none => by omega) ?_ all
      rw [Nat.zero_mul, Nat.sub_zero, ← List.range_eq_range']
      exact visited
    rw [sees _ pictured', found]
    rfl

/-! ### A set on the seam of two clusters -/

/-- The name `a…p`, which takes two entries. -/
def seamName : List Nat := List.range' 0x61 16

/-- The set of a file `seamName` of 600 bytes at cluster 3, of which 400 are valid. -/
def seamSet : List UInt8 := (buildEntrySet seamContext seamName 0x20 3 600 400 true).getD []

/-- The set is written over deleted slots, three of it before the seam and one behind. -/
theorem entrySet_roundTrip_seam : ∃ later, eval (answer smallDevice
      (runCode seamContext (writeDirectoryBytes seamContext seamDirectory (13 * 32) seamSet)
        seamState).2.disk.medium)
      (visitDirectory seamContext seamDirectory collectVisitor []).run =
    some ({ newNode seamName 0x20 3 600 400 true with
      parentFirstCluster := 5, parentDataLength := 1024, entryOffset := 416, entryCount := 4 } ::
        later) := by
  have sectored : Sectored seamContext seamState := ⟨rfl, nofun⟩
  have built : buildEntrySet seamContext seamName 0x20 3 600 400 true = some seamSet := by
    decide +kernel
  have parsed : visitEntries seamContext seamDirectory collectVisitor
      (((image seamContext seamVolume).slots seamContext [5, 6]).take 13) ⟨[], 0, 0, []⟩ =
    (false, ⟨[], 0, 13 * 32, []⟩) := by decide +kernel
  have fits : StreamFits seamContext 3 600 400 := ⟨by decide, by decide, by decide, fun _ => by decide⟩
  have stored {set : List UInt8}
      (built : buildEntrySet seamContext seamName 0x20 3 600 400 true = some set)
      (success : (runCode seamContext (writeDirectoryBytes seamContext seamDirectory (13 * 32) set)
        seamState).1 = some ()) :=
    (entrySet_roundTrip seamContext_regular seamDirectory_contained built (by decide) (by decide)
      fits parsed seamState sectored ⟨seamVolume_sized, rfl⟩ (answered_of_healthy _ rfl) success).2.2
  exact stored built (by decide +kernel)

end AsasOs.ExFat
