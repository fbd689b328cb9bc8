import AsasOs.ExFat.Extension
import AsasOs.Lib.Runs

/-!
# exFAT: the slots that `find_free_entries` reserves

The search counts free slots that follow one another. When there are not enough of them it
extends the directory by a cluster and starts again at the first slot, but the count goes
on: free slots at the beginning of the directory are added to those at its end.

## Main results

- `does_extendGrowable`: what `extend_directory` makes of any directory in use.
- `findFreeEntries_iff`: when the slots that were found are free and inside the directory.
-/
namespace AsasOs.ExFat

open Block Bytes Prog Records

variable {context : Context} {I I' : Image} {bitmap clusters : List Nat} {directory node : Node}
  {needed : Nat}

/-! ### A directory that can be extended -/

/-- The clusters of a directory are marked in the bitmap, and so are those of the directory
that holds its entry set. They are told apart from each other and from the bitmap's own. -/
structure Growable (context : Context) (I : Image) (bitmap : List Nat) (directory : Node)
    (clusters : List Nat) : Prop where
  mapped : Mapped context I.fat bitmap
  marked : ∀ cluster ∈ bitmap, I.bit context bitmap cluster = true
  contained : Contained context I.fat directory clusters
  counted : Counted context directory.dataLength directory.noFatChain clusters
  used : ∀ cluster ∈ clusters, I.bit context bitmap cluster = true
  apart : ∀ cluster ∈ clusters, cluster ∉ bitmap
  entry : directory.entryCount ≠ 0 → ∃ parents,
    Contained context I.fat directory.parent parents ∧ ∀ cluster ∈ parents,
      cluster ∉ bitmap ∧ cluster ∉ clusters ∧ I.bit context bitmap cluster = true

section Code

variable (regular : context.Regular)
include regular

theorem does_readNodeSet {parents : List Nat} (contained : Contained context I.fat node.parent parents) :
    Does context (readNodeSet context node) I fun set I' => I' = I ∧ 64 ≤ set.length ∧ set.length ≤ 608 ∧
      node.entryOffset ≤ parents.length * context.clusterSize := by
  unfold readNodeSet
  refine does_guard fun few => ?_
  have reads : Sees context (readDirectoryBytes context node.parent node.entryOffset
      (node.entryCount * 32)).run I _ :=
    contained.sees_readDirectoryBytes_if regular node.entryOffset (node.entryCount * 32)
  refine does_mono (does_looks (readDirectoryBytes_looks context.from_zero _ _ _)) ?_
  rintro set I' ⟨rfl, found⟩
  have low := contained.bytes_le
  have set' := found _ reads
  split at set'
  · cases set'
    refine ⟨rfl, ?_, ?_, ?_⟩
    · rw [window_length]
      omega
    · rw [window_length]
      omega
    · omega
  · cases set'

theorem does_updateNodeStream_inside {parents : List Nat}
    (contained : Contained context I.fat node.parent parents)
    (firstCluster dataLength validLength : Nat) (noFatChain : Bool) :
    Does context (updateNodeStream context node firstCluster dataLength validLength noFatChain) I
      fun _ I' => ∃ offset source, Wrote context parents offset source I I' := by
  unfold updateNodeStream
  refine does_bind (does_readNodeSet regular contained) ?_
  rintro set J ⟨rfl, long, short, inside⟩
  refine does_guard fun _ => ?_
  have flags : (put set 33 [streamFlags noFatChain]).length = set.length :=
    put_length (by rw [List.length_singleton]; omega)
  have valid : (putLE (put set 33 [streamFlags noFatChain]) 40 8 validLength).length = set.length := by
    rw [putLE_length (by omega), flags]
  have cluster : (putLE (putLE (put set 33 [streamFlags noFatChain]) 40 8 validLength)
      52 4 firstCluster).length = set.length := by
    rw [putLE_length (by omega), valid]
  have changed : (changedSet set firstCluster dataLength validLength noFatChain).length =
      set.length := by
    have data : (putLE (putLE (putLE (put set 33 [streamFlags noFatChain]) 40 8 validLength)
        52 4 firstCluster) 56 8 dataLength).length = set.length := by
      rw [putLE_length (by omega), cluster]
    rw [changedSet, withChecksum, putLE_length (by omega), data]
  have written : Does context (writeDirectoryBytes context node.parent node.entryOffset
      (changedSet set firstCluster dataLength validLength noFatChain)) J _ :=
    contained.does_writeDirectoryBytes regular inside (by omega)
  exact does_mono written fun _ I' wrote => ⟨_, _, wrote.2⟩

omit regular in
theorem slots_blank (regular : context.Regular) {cluster : Nat}
    (zero : ∀ i < context.clusterSize, I.data cluster i = 0) :
    I.slots context [cluster] = List.replicate context.clusterSlots (List.replicate 32 0) := by
  have size := clusterSlots_mul regular
  refine List.eq_replicate_iff.mpr ⟨by rw [slots_length, List.length_singleton, Nat.one_mul], ?_⟩
  intro slot member
  obtain ⟨index, inside, rfl⟩ := List.mem_map.mp member
  have low := List.mem_range.mp inside
  rw [List.length_singleton, Nat.one_mul] at low
  rw [← window_zero (index * 32), Image.slotAt]
  refine window_congr fun i _ high => ?_
  have within : i < context.clusterSize := by omega
  rw [Image.stream, Nat.div_eq_of_lt within, Nat.mod_eq_of_lt within]
  exact zero i within

/-- What `extend_directory` leaves behind. -/
structure Lengthened (context : Context) (bitmap clusters : List Nat) (I : Image)
    (directory' : Node) (cluster : Nat) (I' : Image) : Prop where
  growable : Growable context I' bitmap directory' (clusters ++ [cluster])
  length : directory'.dataLength = (clusters.length + 1) * context.clusterSize
  slots : I'.slots context (clusters ++ [cluster]) =
    I.slots context clusters ++ List.replicate context.clusterSlots (List.replicate 32 0)

omit regular in
theorem Growable.lengthened (growable : Growable context I bitmap directory clusters)
    (regular : context.Regular) {cluster : Nat} (unused : I.bit context bitmap cluster = false)
    (valid : context.validCluster cluster = true)
    (grew : Grew context bitmap clusters cluster I I') :
    Lengthened context bitmap clusters I
      { directory with
        noFatChain := false
        dataLength := (clusters.length + 1) * context.clusterSize } cluster I' := by
  have extent := growable.contained.extent
  have positive := regular.clusterSize_pos
  have fresh : ∀ {other}, I.bit context bitmap other = true → other ≠ cluster := by
    rintro other marked rfl
    rw [unused] at marked
    cases marked
  have outside : cluster ∉ clusters := fun member => fresh (growable.used cluster member) rfl
  have notBitmap : cluster ∉ bitmap := fun member => fresh (growable.marked cluster member) rfl
  have fatKept : ∀ {other}, I.bit context bitmap other = true → other ∉ clusters →
      I'.fat other = I.fat other := by
    intro other marked away
    refine grew.fat other fun member => ?_
    rcases List.mem_append.mp member with old | new
    · exact away old
    · exact fresh marked (List.mem_singleton.mp new)
  have dataKept : ∀ other ∈ clusters, I'.data other = I.data other := fun other member =>
    grew.data other (growable.apart other member) (fresh (growable.used other member))
  have bitKept : ∀ {other}, context.validCluster other = true → I.bit context bitmap other = true →
      I'.bit context bitmap other = true := by
    intro other inside marked
    rw [grew.bits other inside, marked, Bool.true_or]
  have validAll : ∀ other ∈ clusters ++ [cluster], context.validCluster other = true := by
    intro other member
    rcases List.mem_append.mp member with old | new
    · exact extent.valid other old
    · rw [List.mem_singleton.mp new]
      exact valid
  have nodup : (clusters ++ [cluster]).Nodup := by
    refine List.nodup_append.mpr ⟨extent.nodup, List.nodup_singleton cluster, ?_⟩
    rintro other old _ new rfl
    exact outside (List.mem_singleton.mp new ▸ old)
  have long : (clusters ++ [cluster]).length = clusters.length + 1 := List.length_append
  have few := length_le_clusterCount validAll nodup
  rw [long] at few
  refine ⟨?_, rfl, ?_⟩
  · constructor
    · refine growable.mapped.congr fun other member => ?_
      exact fatKept (growable.marked other member) fun inside => growable.apart other inside member
    · exact fun other member =>
        bitKept (growable.mapped.extent.valid other member) (growable.marked other member)
    · refine ⟨⟨?_, validAll, nodup, nofun, fun _ => grew.linked⟩, fun _ => rfl, ?_⟩
      · rw [List.head?_append, extent.head]
        rfl
      · rw [long]
    · rw [Counted, if_neg (Nat.mul_pos (Nat.succ_pos _) positive).ne', long, clustersFor_mul regular few]
    · intro other member
      rcases List.mem_append.mp member with old | new
      · exact bitKept (extent.valid other old) (growable.used other old)
      · rw [List.mem_singleton.mp new, grew.bits cluster valid]
        simp
    · intro other member
      rcases List.mem_append.mp member with old | new
      · exact growable.apart other old
      · rw [List.mem_singleton.mp new]
        exact notBitmap
    · intro some
      obtain ⟨parents, contained, apart⟩ := growable.entry some
      refine ⟨parents, ⟨contained.extent.congr fun other member => ?_, contained.rooted,
        contained.fits⟩, fun other member => ?_⟩
      · exact fatKept (apart other member).2.2 (apart other member).2.1
      · obtain ⟨away, different, marked⟩ := apart other member
        refine ⟨away, fun inside => ?_, bitKept (contained.extent.valid other member) marked⟩
        rcases List.mem_append.mp inside with old | new
        · exact different old
        · exact fresh marked (List.mem_singleton.mp new)
  · rw [slots_append regular, slots_congr regular dataKept, slots_blank regular grew.zero]

omit regular in
theorem Growable.wrote {parents : List Nat} {offset : Nat} {source : List UInt8}
    (growable : Growable context I bitmap directory clusters)
    (apart : ∀ cluster ∈ parents, cluster ∉ bitmap)
    (wrote : Wrote context parents offset source I I') :
    Growable context I' bitmap directory clusters := by
  have bits : ∀ {cluster}, context.validCluster cluster = true →
      I'.bit context bitmap cluster = I.bit context bitmap cluster := by
    intro cluster valid
    refine bit_congr growable.mapped (fun other member => wrote.others other fun inside => ?_) valid
    exact apart other inside member
  refine ⟨growable.mapped.congr fun _ _ => by rw [wrote.fat], ?_, ?_, growable.counted, ?_,
    growable.apart, ?_⟩
  · intro cluster member
    rw [bits (growable.mapped.extent.valid cluster member)]
    exact growable.marked cluster member
  · have contained := growable.contained
    exact ⟨wrote.fat ▸ contained.extent, contained.rooted, contained.fits⟩
  · intro cluster member
    rw [bits (growable.contained.extent.valid cluster member)]
    exact growable.used cluster member
  · intro some
    obtain ⟨others, contained, away⟩ := growable.entry some
    refine ⟨others, ⟨wrote.fat ▸ contained.extent, contained.rooted, contained.fits⟩, ?_⟩
    intro cluster member
    rw [bits (contained.extent.valid cluster member)]
    exact away cluster member

/-- Any directory in use gets one more cluster, full of zeros. -/
theorem does_extendGrowable (growable : Growable context I bitmap directory clusters) :
    Does context (extendDirectory context directory) I fun directory' I' =>
      ∃ cluster, Lengthened context bitmap clusters I directory' cluster I' := by
  have extent := growable.contained.extent
  have few := extent.length_le
  have bad := regular.few
  have limit : EXFAT_BAD_CLUSTER < 2 ^ 32 := by decide
  have count : (clusters.length + 1) % 2 ^ 32 = clusters.length + 1 := Nat.mod_eq_of_lt (by omega)
  rw [extendDirectory_eq]
  refine does_look (collectClusters_looks context.from_zero directory)
    (sees_collectClusters regular extent growable.counted) ?_
  rintro _ ⟨⟩
  refine does_guard fun _ => ?_
  refine does_growClusters (f := fun _ => correctedDirectory context directory clusters.length) regular
    growable.mapped growable.marked (List.ne_nil_of_length_pos extent.length_pos) extent.valid
    extent.nodup growable.used ?_
  intro cluster J unused valid grew
  have longer := growable.lengthened regular unused valid grew
  unfold correctedDirectory
  rw [count]
  by_cases none : directory.entryCount = 0
  · rw [if_neg (not_not.mpr none)]
    exact does_pure ⟨cluster, longer⟩
  · rw [if_pos none]
    obtain ⟨parents, contained, apart⟩ := longer.growable.entry none
    refine does_bind (does_updateNodeStream_inside regular contained _ _ _ _) ?_
    rintro _ I' ⟨offset, source, wrote⟩
    refine does_pure ⟨cluster, ?_, longer.length, ?_⟩
    · exact longer.growable.wrote (fun other member => (apart other member).1) wrote
    · rw [← longer.slots]
      refine slots_congr regular fun other member => wrote.others other fun inside => ?_
      exact (apart other inside).2.1 member

end Code

/-! ### The slots that are searched -/

/-- The in-use bit of a slot is clear. -/
def freeSlot (slot : Slot) : Bool := decide (FreeSlot slot)

def directorySlots (context : Context) (I : Image) (directory : Node) (clusters : List Nat) :
    List Slot :=
  (I.slots context clusters).take (directoryBytes context directory clusters / 32)

/-- The slots of new clusters. -/
def blankSlots (context : Context) (count : Nat) : List Slot :=
  List.replicate (count * context.clusterSlots) (List.replicate 32 0)

/-- The slots of a directory that has got `k` more clusters. With the first of them the slots
of the last old cluster become slots of the directory. -/
def extendedSlots (context : Context) (I : Image) (directory : Node) (clusters : List Nat) : Nat →
    List Slot
  | 0 => directorySlots context I directory clusters
  | k + 1 => I.slots context clusters ++ blankSlots context (k + 1)

def addedSlots (context : Context) (I : Image) (directory : Node) (clusters : List Nat) : Nat → List Slot
  | 0 => (I.slots context clusters).drop (directoryBytes context directory clusters / 32) ++
      blankSlots context 1
  | _ + 1 => blankSlots context 1

theorem blankSlots_succ (context : Context) (count : Nat) :
    blankSlots context (count + 1) = blankSlots context count ++ blankSlots context 1 := by
  rw [blankSlots, blankSlots, blankSlots, Nat.one_mul, Nat.succ_mul, List.replicate_add]

theorem blankSlots_free (context : Context) (count : Nat) :
    ∀ slot ∈ blankSlots context count, freeSlot slot = true := by
  intro slot member
  rw [List.eq_of_mem_replicate member]
  decide

theorem growing_slots (regular : context.Regular) (I : Image) (directory : Node) (clusters : List Nat) :
    Runs.Growing freeSlot (extendedSlots context I directory clusters)
      (addedSlots context I directory clusters) where
  next := by
    intro k
    cases k with
    | zero =>
      rw [extendedSlots, extendedSlots, addedSlots, directorySlots, ← List.append_assoc,
        List.take_append_drop]
    | succ k => rw [extendedSlots, extendedSlots, addedSlots, blankSlots_succ, List.append_assoc]
  blank := fun _ => Runs.leading_all (blankSlots_free context 1)
  longer := by
    intro k nothing
    have positive := sectorSlots_pos regular
    have cluster := regular.cluster
    have length := congrArg List.length nothing
    rw [addedSlots, blankSlots, List.length_replicate, Nat.one_mul, clusterSlots_eq regular,
      List.length_nil] at length
    exact absurd length (Nat.mul_pos cluster positive).ne'
  steady := by
    intro k
    rw [extendedSlots, addedSlots, List.length_append, blankSlots, blankSlots, List.length_replicate,
      List.length_replicate, Nat.one_mul, Nat.succ_mul]
    omega

theorem scanSlots_eq {slots : List Slot} : ∀ {index : Nat} {run : Runs.Run},
    scanSlots needed index slots ⟨run.length, run.start * 32⟩ =
      match Runs.scan freeSlot needed index slots run with
      | .inl place => .inl (place * 32)
      | .inr run => .inr ⟨run.length, run.start * 32⟩ := by
  induction slots with
  | nil => exact rfl
  | cons slot rest ih =>
    intro index run
    have start : (if run.length = 0 then index * 32 else run.start * 32) =
        (if run.length = 0 then index else run.start) * 32 := by
      split <;> rfl
    rw [scanSlots, Runs.scan]
    by_cases free : FreeSlot slot
    · have isFree : freeSlot slot = true := decide_eq_true free
      rw [if_pos free, if_pos isFree]
      dsimp only
      rw [start]
      split
      · rfl
      · exact @ih (index + 1) ⟨run.length + 1, _⟩
    · have used : ¬freeSlot slot = true := fun isFree => free (of_decide_eq_true isFree)
      rw [if_neg free, if_neg used]
      exact @ih (index + 1) ⟨0, run.start⟩

/-! ### The search -/

/-- The slots that were found: all of them in the directory, and free. -/
structure Reserved (context : Context) (I : Image) (directory : Node) (clusters : List Nat)
    (offset needed : Nat) : Prop where
  aligned : 32 ∣ offset
  inside : offset + needed * 32 ≤ directoryBytes context directory clusters
  free : ∀ i < needed, FreeSlot (I.slotAt context clusters (offset / 32 + i))

/-- A directory after `k` rounds of the search. -/
structure Searched (context : Context) (bitmap : List Nat) (I : Image) (directory : Node)
    (clusters : List Nat) (k : Nat) (I' : Image) (directory' : Node) (clusters' : List Nat) :
    Prop where
  growable : Growable context I' bitmap directory' clusters'
  whole : I'.slots context clusters' = I.slots context clusters ++ blankSlots context k
  slots : directorySlots context I' directory' clusters' = extendedSlots context I directory clusters k

theorem Growable.searched (growable : Growable context I bitmap directory clusters) :
    Searched context bitmap I directory clusters 0 I directory clusters where
  growable := growable
  whole := by rw [blankSlots, Nat.zero_mul, List.replicate_zero, List.append_nil]
  slots := rfl

theorem Searched.next {k cluster : Nat} {J : Image} {directory' directory'' : Node}
    {clusters' : List Nat} (regular : context.Regular)
    (searched : Searched context bitmap I directory clusters k I' directory' clusters')
    (longer : Lengthened context bitmap clusters' I' directory'' cluster J) :
    Searched context bitmap I directory clusters (k + 1) J directory'' (clusters' ++ [cluster]) := by
  have whole : J.slots context (clusters' ++ [cluster]) =
      I.slots context clusters ++ blankSlots context (k + 1) := by
    rw [longer.slots, searched.whole, blankSlots_succ, List.append_assoc]
    congr 2
    rw [blankSlots, Nat.one_mul]
  refine ⟨longer.growable, whole, ?_⟩
  have positive := Nat.mul_pos (Nat.succ_pos clusters'.length) regular.clusterSize_pos
  have bytes := slots_bytes regular (clusters'.length + 1)
  have long : (clusters' ++ [cluster]).length = clusters'.length + 1 := List.length_append
  have all : directoryBytes context directory'' (clusters' ++ [cluster]) / 32 =
      (J.slots context (clusters' ++ [cluster])).length := by
    rw [directoryBytes, if_neg (by rw [longer.length]; exact positive.ne'), longer.length, slots_length,
      long, ← bytes, Nat.mul_div_cancel _ (by decide)]
  rw [directorySlots, all, List.take_length, whole, extendedSlots]

theorem does_findFreeRounds (regular : context.Regular) {rounds : Nat} : ∀ {k : Nat} {I' : Image}
    {directory' : Node} {clusters' : List Nat} {run : Runs.Run},
    Searched context bitmap I directory clusters k I' directory' clusters' →
    (∀ j < k, ∃ run, Runs.rounds freeSlot needed (extendedSlots context I directory clusters) j = .inr run) →
    Runs.rounds freeSlot needed (extendedSlots context I directory clusters) k =
      Runs.scan freeSlot needed 0 (extendedSlots context I directory clusters k) run →
    Does context (findFreeLoop context needed rounds directory' ⟨run.length, run.start * 32⟩) I'
      fun found J => ∃ r place clusters'',
        Searched context bitmap I directory clusters r J found.2 clusters'' ∧
        found.1 = place * 32 ∧
        Runs.rounds freeSlot needed (extendedSlots context I directory clusters) r = .inl place ∧
        ∀ j < r, ∃ run, Runs.rounds freeSlot needed (extendedSlots context I directory clusters) j =
          .inr run := by
  induction rounds with
  | zero => exact fun _ _ _ => does_failure
  | succ rounds ih =>
    intro k I' directory' clusters' run searched missed here
    have contained := searched.growable.contained
    have low := contained.bytes_le
    have bytes := slots_bytes regular clusters'.length
    have slots : directorySlots context I' directory' clusters' =
        (List.range' 0 (directoryBytes context directory' clusters' / 32)).map
          (I'.slotAt context clusters') := by
      rw [directorySlots, Image.slots, ← List.map_take, List.take_range, Nat.min_eq_left (by omega),
        List.range_eq_range']
    unfold findFreeLoop
    refine does_lift (directoryLength_looks context.from_zero directory')
      (contained.sees_directoryLength regular) ?_
    rw [List.range_eq_range']
    refine does_look (scanEntries_looks context.from_zero _ _ _ _)
      (sees_scanEntries regular contained (by omega)) ?_
    rintro outcome ⟨⟩
    rw [← slots, searched.slots, scanSlots_eq]
    cases found : Runs.scan freeSlot needed 0 (extendedSlots context I directory clusters k) run with
    | inl place =>
      rw [found] at here
      exact does_pure ⟨k, place, clusters', searched, rfl, here, missed⟩
    | inr later =>
      rw [found] at here
      refine does_bind (does_extendGrowable regular searched.growable) ?_
      rintro directory'' J ⟨cluster, longer⟩
      refine ih (searched.next regular longer) ?_ ?_
      · intro j before
        by_cases same : j = k
        · exact ⟨later, same ▸ here⟩
        · exact missed j (by omega)
      · rw [Runs.rounds, here]

theorem directorySlots_getElem? (contained : Contained context I.fat directory clusters)
    (regular : context.Regular) (index : Nat) :
    (directorySlots context I directory clusters)[index]? =
      if (index + 1) * 32 ≤ directoryBytes context directory clusters then
        some (I.slotAt context clusters index) else none := by
  have low := contained.bytes_le
  have bytes := slots_bytes regular clusters.length
  rw [directorySlots, List.getElem?_take]
  by_cases inside : (index + 1) * 32 ≤ directoryBytes context directory clusters
  · rw [if_pos inside, if_pos (by omega), slots_getElem? (by omega)]
  · rw [if_neg inside, if_neg (by omega)]

theorem reserved_iff {place : Nat} (contained : Contained context I.fat directory clusters)
    (regular : context.Regular) (positive : 0 < needed) :
    Reserved context I directory clusters (place * 32) needed ↔
      Runs.RunAt freeSlot needed place (directorySlots context I directory clusters) := by
  have index : place * 32 / 32 = place := Nat.mul_div_cancel _ (by decide)
  rw [Runs.runAt_iff]
  simp only [directorySlots_getElem? contained regular]
  constructor
  · intro reserved i low
    have inside := reserved.inside
    have free := reserved.free i low
    rw [index] at free
    exact ⟨_, if_pos (by omega), decide_eq_true free⟩
  · intro all
    refine ⟨⟨place, Nat.mul_comm _ _⟩, ?_, fun i low => ?_⟩
    · obtain ⟨slot, here, -⟩ := all (needed - 1) (by omega)
      split at here
      · omega
      · cases here
    · obtain ⟨slot, here, free⟩ := all i low
      rw [index]
      split at here
      · cases here
        exact of_decide_eq_true free
      · cases here

/-- The slots that `find_free_entries` returns are free and lie inside the directory, as it
is then, exactly if the search is seamless. -/
theorem findFreeEntries_iff {size offset : Nat} {directory' : Node} (regular : context.Regular)
    (growable : Growable context I bitmap directory clusters) (needed : Nat)
    (s : ExfatState size) (sectored : Sectored context s)
    (pictured : Pictured context s.disk.medium I)
    (answered : Answered context (findFreeEntries context directory needed).run s)
    (success : (runCode context (findFreeEntries context directory needed) s).1 = some (offset, directory')) :
    ∃ I' clusters', Pictured context
        (runCode context (findFreeEntries context directory needed) s).2.disk.medium I' ∧
      Growable context I' bitmap directory' clusters' ∧
      (Reserved context I' directory' clusters' offset needed ↔
        Runs.Seamless freeSlot needed (extendedSlots context I directory clusters)
          (addedSlots context I directory clusters)) := by
  have start : Runs.rounds freeSlot needed (extendedSlots context I directory clusters) 0 =
      Runs.scan freeSlot needed 0 (extendedSlots context I directory clusters 0) ⟨0, 0⟩ := rfl
  have rounds : Does context (findFreeEntries context directory needed) I _ :=
    does_findFreeRounds regular growable.searched nofun start
  obtain ⟨I', pictured', r, place, clusters', searched, same, found, first⟩ :=
    rounds _ pictured s sectored answered rfl _ success
  refine ⟨I', clusters', pictured', searched.growable, ?_⟩
  have positive : 0 < needed := by
    by_contra none
    obtain rfl : needed = 0 := by omega
    obtain ⟨run, missed⟩ : ∃ run, Runs.rounds freeSlot 0
      (extendedSlots context I directory clusters) r = .inr run := Runs.rounds_none
    rw [missed] at found
    cases found
  dsimp only at same
  rw [same, reserved_iff searched.growable.contained regular positive, searched.slots]
  exact Runs.rounds_iff (growing_slots regular I directory clusters) positive found first

/-! ### Free slots at both ends of the directory -/

theorem seamDirectory_growable :
    Growable seamContext (image seamContext seamVolume) [2] seamDirectory [5, 6] where
  mapped := by
    refine ⟨⟨rfl, by decide, List.nodup_singleton 2, nofun, fun _ => ?_⟩, by decide, by decide⟩
    change EXFAT_EOC ≤ (image seamContext seamVolume).fat 2
    decide
  marked := by decide
  contained := seamDirectory_contained
  counted := by
    rw [Counted, if_neg (by decide)]
    decide
  used := by decide
  apart := by decide
  entry := by
    refine fun _ => ⟨[4], ⟨⟨rfl, by decide, List.nodup_singleton 4, nofun, fun _ => ?_⟩, fun _ => rfl,
      by decide⟩, by decide⟩
    change EXFAT_EOC ≤ (image seamContext seamVolume).fat 4
    decide

/-- Three slots are found at the beginning of the directory. -/
theorem findFreeEntries_iff_small : ∃ I' clusters', Pictured seamContext
      (runCode seamContext (findFreeEntries seamContext seamDirectory 3) seamState).2.disk.medium I' ∧
    Growable seamContext I' [2] seamDirectory clusters' ∧
    (Reserved seamContext I' seamDirectory clusters' 0 3 ↔ Runs.Seamless freeSlot 3
        (extendedSlots seamContext (image seamContext seamVolume) seamDirectory [5, 6])
        (addedSlots seamContext (image seamContext seamVolume) seamDirectory [5, 6])) := by
  have sectored : Sectored seamContext seamState := ⟨rfl, nofun⟩
  exact findFreeEntries_iff seamContext_regular seamDirectory_growable 3 seamState sectored
    ⟨seamVolume_sized, rfl⟩ (answered_of_healthy _ rfl) (by decide +kernel)

/-- A set of 19 entries is to be placed. The two free slots at the end and the 17 at the
beginning are counted together, and 19 slots are returned of which the last lies outside
the directory with its new cluster. -/
theorem seam_overcounted : ∃ offset directory',
    (runCode seamContext (findFreeEntries seamContext seamDirectory 19) seamState).1 =
      some (offset, directory') ∧
    ∀ I' clusters', ¬Reserved seamContext I' directory' clusters' offset 19 := by
  refine ⟨960, { seamDirectory with dataLength := 1536 }, by decide +kernel, ?_⟩
  intro I' clusters' reserved
  have inside : 960 + 19 * 32 ≤ 1536 := reserved.inside
  omega

end AsasOs.ExFat
