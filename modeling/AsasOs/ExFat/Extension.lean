import AsasOs.ExFat.Trees

/-!
# exFAT: a directory that grows

`extend_directory` takes a free cluster, fills it with zeros, chains it behind the
clusters of the directory and corrects the directory's own entry set in its parent. What
the directories hold stays the same.

## Main results

- `does_chainClusters`, `does_relink`: the chain of a larger directory.
- `does_growClusters`, `extendDirectory_eq`: what the extension does.
-/
namespace AsasOs.ExFat

open Block Bytes Prog Records Naming

variable {context : Context} {I I' J : Image} {bitmap clusters : List Nat} {T T' : Shape}

/-! ### New clusters -/

/-- Clusters were taken into use, and nothing else was touched. -/
structure Allocated (context : Context) (bitmap clusters : List Nat) (I I' : Image) : Prop where
  boot : I'.boot = I.boot
  fat : ∀ other ∉ clusters, I'.fat other = I.fat other
  data : ∀ other ∉ bitmap, other ∉ clusters → I'.data other = I.data other
  bits : ∀ other, context.validCluster other = true →
    I'.bit context bitmap other = (I.bit context bitmap other || decide (other ∈ clusters))

theorem Took.allocated (took : Took context bitmap clusters I I') :
    Allocated context bitmap clusters I I' :=
  ⟨took.boot, took.fat, fun other outside _ => took.data other outside, took.bits⟩

theorem Allocated.wrote (allocated : Allocated context bitmap clusters I J)
    (mapped : Mapped context J.fat bitmap) (apart : ∀ other ∈ bitmap, other ∉ clusters)
    {offset : Nat} {source : List UInt8} (wrote : Wrote context clusters offset source J I') :
    Allocated context bitmap clusters I I' where
  boot := wrote.boot.trans allocated.boot
  fat := fun other outside => by rw [wrote.fat, allocated.fat other outside]
  data := fun other outside outside' =>
    (wrote.others other outside').trans (allocated.data other outside outside')
  bits := by
    intro other valid
    rw [bit_congr mapped (fun cluster member => wrote.others cluster (apart cluster member)) valid,
      allocated.bits other valid]

/-! ### The chain -/

/-- The links of the allocation table, each cluster chained to the next one. -/
def linkAll (fat : Nat → Nat) : List Nat → Nat → Nat
  | cluster :: next :: rest => linkAll (Function.update fat cluster next) (next :: rest)
  | _ => fat

section Links

variable {fat : Nat → Nat} {cluster last : Nat}

theorem linkAll_outside {other : Nat} : ∀ {fat : Nat → Nat}, other ∉ clusters →
    linkAll fat clusters other = fat other := by
  induction clusters with
  | nil => exact fun _ => rfl
  | cons cluster rest ih =>
    intro fat outside
    cases rest with
    | nil => rfl
    | cons next rest =>
      rw [linkAll, ih fun member => outside (List.mem_cons_of_mem _ member)]
      refine Function.update_of_ne ?_ _ _
      rintro rfl
      exact outside List.mem_cons_self

theorem linkAll_concat : ∀ {fat : Nat → Nat} {first : Nat} {rest : List Nat},
    (first :: rest).Nodup → linkAll fat (first :: rest ++ [cluster]) =
      Function.update (linkAll fat (first :: rest)) ((first :: rest).getLastD 0) cluster := by
  intro fat first rest
  induction rest generalizing fat first with
  | nil => exact fun _ => rfl
  | cons next rest ih =>
    intro nodup
    exact ih (List.nodup_cons.mp nodup).2

theorem linked_linkAll : ∀ {fat : Nat → Nat} {front : List Nat}, (front ++ [last]).Nodup →
    Linked (Function.update (linkAll fat (front ++ [last])) last 0xFFFFFFFF) (front ++ [last]) := by
  intro fat front
  induction front generalizing fat with
  | nil =>
    intro _
    rw [List.nil_append, Linked, Function.update_self]
    decide
  | cons first front ih =>
    intro nodup
    obtain ⟨new, nodup'⟩ := List.nodup_cons.mp nodup
    have different : first ≠ last := fun same => new (same ▸ List.mem_append_right _ List.mem_cons_self)
    cases front with
    | nil =>
      refine ⟨?_, ?_⟩
      · rw [Function.update_of_ne different]
        exact Function.update_self _ _ _
      · rw [Linked, Function.update_self]
        decide
    | cons next front =>
      refine ⟨?_, ih nodup'⟩
      rw [Function.update_of_ne different]
      exact (linkAll_outside new).trans (Function.update_self _ _ _)

/-- Chaining clusters changes nothing but their links. -/
theorem does_chainClusters (regular : context.Regular) : ∀ {clusters : List Nat} {I : Image},
    (∀ cluster ∈ clusters, context.validCluster cluster = true) →
    Does context (chainClusters context clusters) I
      fun _ I' => I' = { I with fat := linkAll I.fat clusters } := by
  intro clusters
  induction clusters with
  | nil => exact fun _ => does_pure rfl
  | cons cluster rest ih =>
    intro I valid
    cases rest with
    | nil => exact does_pure rfl
    | cons next rest =>
      unfold chainClusters
      have small := regular.valid_small (valid next (List.mem_cons_of_mem _ List.mem_cons_self))
      refine does_bind (does_writeFat regular (valid cluster List.mem_cons_self) next) ?_
      rintro _ J rfl
      refine does_mono (ih fun other member => valid other (List.mem_cons_of_mem _ member)) ?_
      rintro _ I' rfl
      rw [Image.setFat, linkAll, Nat.mod_eq_of_lt (Nat.lt_trans small (by decide))]

end Links

/-- What is left of an image when clusters are linked anew, with one more behind them. -/
structure Relinked (clusters : List Nat) (cluster : Nat) (I I' : Image) : Prop where
  boot : I'.boot = I.boot
  data : I'.data = I.data
  linked : Linked I'.fat (clusters ++ [cluster])
  fat : ∀ other ∉ clusters ++ [cluster], I'.fat other = I.fat other

theorem does_relink {α : Type} {post : α → Image → Prop} (regular : context.Regular) {cluster : Nat}
    {f : Unit → ExfatCode α} (some_clusters : clusters ≠ [])
    (valid : ∀ other ∈ clusters ++ [cluster], context.validCluster other = true)
    (nodup : (clusters ++ [cluster]).Nodup)
    (rest : ∀ I', Relinked clusters cluster I I' → Does context (f ()) I' post) :
    Does context (do
      chainClusters context clusters
      writeFat context (clusters.getLastD 0) cluster
      writeFat context cluster 0xFFFFFFFF
      f ()) I post := by
  obtain ⟨first, others, rfl⟩ := List.exists_cons_of_ne_nil some_clusters
  have lastMem : (first :: others).getLastD 0 ∈ first :: others := by
    rw [List.getLastD_cons, List.getLastD_eq_getLast?]
    cases found : others.getLast? with
    | none => exact List.mem_cons_self
    | some last => exact List.mem_cons_of_mem _ (List.mem_of_getLast? found)
  have old : ∀ other ∈ first :: others, context.validCluster other = true :=
    fun other member => valid other (List.mem_append_left _ member)
  have validLast := valid cluster (List.mem_append_right _ List.mem_cons_self)
  have small := regular.valid_small validLast
  refine does_bind (does_chainClusters regular old) ?_
  rintro _ J rfl
  refine does_bind (does_writeFat regular (old _ lastMem) cluster) ?_
  rintro _ J rfl
  refine does_bind (does_writeFat regular validLast 0xFFFFFFFF) ?_
  rintro ⟨⟩ I' rfl
  have whole : 0xFFFFFFFF % 2 ^ 32 = 0xFFFFFFFF := rfl
  have fat : Function.update (Function.update (linkAll I.fat (first :: others))
      ((first :: others).getLastD 0) (cluster % 2 ^ 32)) cluster (0xFFFFFFFF % 2 ^ 32) =
      Function.update (linkAll I.fat (first :: others ++ [cluster])) cluster 0xFFFFFFFF := by
    rw [linkAll_concat (List.Nodup.of_append_left nodup), whole,
      Nat.mod_eq_of_lt (Nat.lt_trans small (by decide))]
  refine rest _ ⟨rfl, rfl, ?_, ?_⟩
  · change Linked (Function.update (Function.update _ _ _) _ _) _
    rw [fat]
    exact linked_linkAll nodup
  · intro other outside
    change Function.update (Function.update _ _ _) _ _ other = _
    rw [fat, Function.update_of_ne]
    · exact linkAll_outside outside
    · rintro rfl
      exact outside (List.mem_append_right _ List.mem_cons_self)

/-! ### The slots of a larger directory -/

theorem stream_append_left {more : List Nat} {i : Nat}
    (low : i < clusters.length * context.clusterSize) :
    I.stream context (clusters ++ more) i = I.stream context clusters i := by
  have inside : i / context.clusterSize < clusters.length :=
    Nat.div_lt_of_lt_mul (by rw [Nat.mul_comm]; exact low)
  rw [Image.stream, Image.stream, List.getD_eq_getElem?_getD, List.getD_eq_getElem?_getD,
    List.getElem?_append_left inside]

theorem stream_append_right (regular : context.Regular) {more : List Nat} (i : Nat) :
    I.stream context (clusters ++ more) (clusters.length * context.clusterSize + i) =
      I.stream context more i := by
  have positive := regular.clusterSize_pos
  rw [Image.stream, Image.stream, Nat.mul_comm clusters.length, Nat.mul_add_div positive,
    Nat.mul_add_mod, List.getD_eq_getElem?_getD, List.getD_eq_getElem?_getD,
    List.getElem?_append_right (Nat.le_add_right _ _), Nat.add_sub_cancel_left]

theorem slots_append (regular : context.Regular) (more : List Nat) :
    I.slots context (clusters ++ more) = I.slots context clusters ++ I.slots context more := by
  have size := clusterSlots_mul regular
  rw [Image.slots, Image.slots, Image.slots, List.length_append, Nat.add_mul, List.range_add,
    List.map_append, List.map_map]
  congr 1
  · refine List.map_congr_left fun index member => window_congr fun i _ high => ?_
    have low := List.mem_range.mp member
    refine stream_append_left ?_
    rw [← slots_bytes regular]
    omega
  · refine List.map_congr_left fun index member => ?_
    rw [Function.comp_apply, Image.slotAt, Image.slotAt, window, window]
    refine List.map_congr_left fun i _ => ?_
    rw [Nat.add_mul, slots_bytes regular, Nat.add_assoc]
    exact stream_append_right regular _

/-- What is left of an image when a directory has got one more cluster, full of zeros. -/
structure Grew (context : Context) (bitmap clusters : List Nat) (cluster : Nat) (I I' : Image) :
    Prop where
  boot : I'.boot = I.boot
  fat : ∀ other ∉ clusters ++ [cluster], I'.fat other = I.fat other
  linked : Linked I'.fat (clusters ++ [cluster])
  data : ∀ other ∉ bitmap, other ≠ cluster → I'.data other = I.data other
  zero : ∀ i < context.clusterSize, I'.data cluster i = 0
  bits : ∀ other, context.validCluster other = true →
    I'.bit context bitmap other = (I.bit context bitmap other || decide (other ∈ [cluster]))

/-! ### The code -/

/-- A cluster is taken, filled with zeros and chained behind others that are in use. -/
theorem does_growClusters {α : Type} {post : α → Image → Prop} {f : Nat → ExfatCode α}
    (regular : context.Regular) (mapped : Mapped context I.fat bitmap)
    (marked : ∀ other ∈ bitmap, I.bit context bitmap other = true) (some_clusters : clusters ≠ [])
    (valid : ∀ other ∈ clusters, context.validCluster other = true) (nodup : clusters.Nodup)
    (used : ∀ other ∈ clusters, I.bit context bitmap other = true)
    (rest : ∀ cluster I', I.bit context bitmap cluster = false →
      context.validCluster cluster = true → Grew context bitmap clusters cluster I I' →
      Does context (f cluster) I' post) :
    Does context (do
      let newClusters ← allocateClusters context 1
      zeroCluster context (newClusters.headD 0) (List.range context.sectorsPerCluster)
      chainClusters context clusters
      writeFat context (clusters.getLastD 0) (newClusters.headD 0)
      writeFat context (newClusters.headD 0) 0xFFFFFFFF
      f (newClusters.headD 0)) I post := by
  refine does_bind (does_allocateClusters regular mapped marked 1) ?_
  rintro newClusters J ⟨length, -, fresh, took⟩
  obtain ⟨cluster, rfl⟩ := List.length_eq_one_iff.mp length
  obtain ⟨validNew, unused⟩ := fresh cluster List.mem_cons_self
  have apart : ∀ other ∈ bitmap, other ∉ [cluster] := by
    intro other member new
    rw [List.mem_singleton.mp new] at member
    rw [marked cluster member] at unused
    cases unused
  have outside : cluster ∉ clusters := by
    intro member
    rw [used cluster member] at unused
    cases unused
  change Does context (do
    zeroCluster context cluster (List.range context.sectorsPerCluster)
    chainClusters context clusters
    writeFat context (clusters.getLastD 0) cluster
    writeFat context cluster 0xFFFFFFFF
    f cluster) J post
  refine does_bind (does_zeroCluster regular validNew) fun _ K wrote => ?_
  refine does_relink (f := fun _ => f cluster) regular some_clusters ?_ ?_ fun I' relinked => ?_
  · intro other member
    rcases List.mem_append.mp member with old | new
    · exact valid other old
    · rw [List.mem_singleton.mp new]
      exact validNew
  · refine List.nodup_append.mpr ⟨nodup, List.nodup_singleton cluster, ?_⟩
    rintro other old _ new rfl
    exact outside (List.mem_singleton.mp new ▸ old)
  refine rest cluster I' unused validNew ?_
  have mapped' : Mapped context J.fat bitmap :=
    mapped.congr fun other member => took.fat other (apart other member)
  have filled := took.allocated.wrote mapped' apart wrote
  refine ⟨relinked.boot.trans filled.boot, ?_, relinked.linked, ?_, ?_, ?_⟩
  · intro other away
    rw [relinked.fat other away]
    exact filled.fat other fun new => away (List.mem_append_right _ new)
  · intro other notBitmap different
    rw [relinked.data]
    exact filled.data other notBitmap fun new => different (List.mem_singleton.mp new)
  · -- the zeros that were written are still there
    intro i low
    have stored := wrote.stream i (by rw [List.length_singleton]; omega)
    rw [patch, if_pos ⟨Nat.zero_le i, by rw [List.length_replicate]; omega⟩] at stored
    rw [relinked.data]
    have here : K.stream context [cluster] i = K.data cluster i := by
      rw [Image.stream, Nat.div_eq_of_lt low, Nat.mod_eq_of_lt low]
      rfl
    rw [← here, stored, byteAt, List.getD_eq_getElem?_getD, List.getElem?_replicate]
    split <;> rfl
  · intro other inside
    rw [← filled.bits other inside]
    exact bit_congr (wrote.fat ▸ mapped') (fun other _ => by rw [relinked.data]) inside

section Code

variable {directory : Node} {F : Folder}

theorem clustersFor_mul (regular : context.Regular) {count : Nat} (few : count ≤ context.clusterCount) :
    clustersFor context (count * context.clusterSize) = count := by
  have positive := regular.clusterSize_pos
  have small := clusterSize_lt context
  have bad := regular.few
  have limit : EXFAT_BAD_CLUSTER < 2 ^ 32 := by decide
  have narrow : (count + 1) * context.clusterSize < 2 ^ 32 * 2 ^ 32 :=
    Nat.mul_lt_mul'' (by omega) small
  rw [Nat.succ_mul] at narrow
  have total : (count * context.clusterSize + context.clusterSize - 1) % 2 ^ 64 =
      context.clusterSize * count + (context.clusterSize - 1) := by
    rw [Nat.mod_eq_of_lt (by omega), Nat.mul_comm context.clusterSize]
    omega
  rw [clustersFor, total, Nat.mul_add_div positive, Nat.div_eq_of_lt (by omega), Nat.add_zero,
    Nat.mod_eq_of_lt (by omega)]

/-- The last step of `extend_directory`: the longer directory, and its entry set. -/
def correctedDirectory (context : Context) (directory : Node) (count : Nat) : ExfatCode Node := do
  let directory :=
    { directory with
      noFatChain := false
      dataLength := (count + 1) % 2 ^ 32 * context.clusterSize }
  if directory.entryCount ≠ 0 then
    updateNodeStream context directory directory.firstCluster directory.dataLength
      directory.dataLength false
  return directory

theorem extendDirectory_eq : extendDirectory context directory = (do
    let oldClusters ← collectClusters context directory
    guard (oldClusters.length ≠ 0)
    let newClusters ← allocateClusters context 1
    zeroCluster context (newClusters.headD 0) (List.range context.sectorsPerCluster)
    chainClusters context oldClusters
    writeFat context (oldClusters.getLastD 0) (newClusters.headD 0)
    writeFat context (newClusters.headD 0) 0xFFFFFFFF
    correctedDirectory context directory oldClusters.length) := rfl

end Code

/-! ### A directory with free slots at both ends

The small volume with six clusters. The directory `d` has the last but one and another: 17
deleted slots, 13 that are in use, and two end marks. -/

def seamBoot : List UInt8 :=
  sectorWith [(0, [0xEB, 0x76, 0x90]), (3, exfatName), (72, [40]), (80, [24]), (84, [1]),
    (88, [25]), (92, [6]), (96, [4]), (108, [9, 0, 1]), (510, [0x55, 0xAA])]

def slotsOf (types : List UInt8) : List UInt8 :=
  types.flatMap fun type => type :: List.replicate 31 0

def seamVolume : Nat → List UInt8
  | 0 | 12 => seamBoot
  | 11 | 23 => (List.replicate 128 [0x0C, 0xAD, 0x98, 0x12]).flatten
  | 24 => sectorWith [(0, 0xF8 :: List.replicate 19 0xFF), (20, [6, 0, 0, 0, 0xFF, 0xFF, 0xFF, 0xFF])]
  | 25 => sectorWith [(0, [0x1F])]
  | 27 => sectorWith [(0, [0x81]), (20, [2]), (24, [1]), (32, [0x82]), (36, [0xF6, 1, 0, 8]),
      (52, [3]), (56, [6]), (64, [0x85, 2, 0x1A, 0x2D, 0x10]), (96, [0xC0, 0, 0, 1]),
      (104, [0, 4]), (116, [5]), (120, [0, 4]), (128, [0xC1, 0, 0x64])]
  | 28 => slotsOf (List.replicate 16 0x05)
  | 29 => slotsOf (0x05 :: List.replicate 13 0xE0 ++ [0, 0])
  | lba => smallVolume lba

theorem seamVolume_sized (lba : Nat) : (seamVolume lba).length = 512 := by
  unfold seamVolume
  split
  all_goals first | decide +kernel | exact smallVolume_sized _

def seamContext : Context :=
  { smallContext with clusterCount := 6, accepted := by decide }

/-- The node of `d`. -/
def seamDirectory : Node :=
  { firstCluster := 5, validDataLength := 1024, dataLength := 1024, attributes := 0x10
    name := [0x64], parentFirstCluster := 4, entryOffset := 64, entryCount := 3 }

def seamState : ExfatState 512 :=
  { ExfatState.idle (Disk.boot seamVolume seamVolume_sized []) with transactionActive := true }

theorem seamContext_regular : seamContext.Regular := by
  constructor <;> decide

theorem seamDirectory_contained :
    Contained seamContext (image seamContext seamVolume).fat seamDirectory [5, 6] := by
  refine ⟨⟨rfl, by decide, by decide, nofun, fun _ => ?_⟩, fun _ => rfl, by decide⟩
  change (image seamContext seamVolume).fat 5 = 6 ∧ EXFAT_EOC ≤ (image seamContext seamVolume).fat 6
  decide

end AsasOs.ExFat
