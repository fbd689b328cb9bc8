import AsasOs.ExFat.Effects
import Mathlib.Order.Interval.Finset.Nat

/-!
# exFAT: the clusters and the bytes of a stream

A stream is a list of clusters, held together by the allocation table or one behind the
other on the disk. Whichever form it has, the code finds its clusters in order, reads
windows of its bytes and patches them.

## Main results

- `sees_streamCluster`, `sees_collectClusters`: the clusters that are found.
- `sees_readStream`: what is read.
- `does_writeStreamMetadata`: what is written, and that nothing else is.
-/
namespace AsasOs.ExFat

open Block Bytes Prog

variable {context : Context} {I I' : Image} {first : Nat} {noFatChain : Bool}
  {clusters : List Nat} {cluster : Nat}

/-! ### Clusters -/

/-- The allocation table links each cluster to the next one, and the last to none. -/
def Linked (fat : Nat → Nat) : List Nat → Prop
  | [] => False
  | [cluster] => EXFAT_EOC ≤ fat cluster
  | cluster :: next :: rest => fat cluster = next ∧ Linked fat (next :: rest)

/-- The clusters of a stream. -/
structure Extent (context : Context) (fat : Nat → Nat) (first : Nat) (noFatChain : Bool)
    (clusters : List Nat) : Prop where
  head : clusters.head? = some first
  valid : ∀ cluster ∈ clusters, context.validCluster cluster = true
  nodup : clusters.Nodup
  range : noFatChain = true → clusters = List.range' first clusters.length
  linked : noFatChain = false → Linked fat clusters

theorem Linked.congr {fat fat' : Nat → Nat} (linked : Linked fat clusters)
    (same : ∀ cluster ∈ clusters, fat' cluster = fat cluster) : Linked fat' clusters := by
  induction clusters with
  | nil => exact linked
  | cons cluster rest ih =>
    have here := same cluster List.mem_cons_self
    cases rest with
    | nil =>
      change EXFAT_EOC ≤ fat' cluster
      rw [here]
      exact linked
    | cons next rest =>
      refine ⟨here.trans linked.1, ih linked.2 fun other member => ?_⟩
      exact same other (List.mem_cons_of_mem _ member)

variable {fat : Nat → Nat}

theorem Linked.next (linked : Linked fat clusters) {k : Nat}
    (inside : k + 1 < clusters.length) : fat clusters[k] = clusters[k + 1] := by
  induction clusters generalizing k with
  | nil => exact linked.elim
  | cons cluster rest ih =>
    cases rest with
    | nil => simp at inside
    | cons next rest =>
      cases k with
      | zero => exact linked.1
      | succ k => exact ih linked.2 (Nat.lt_of_succ_lt_succ inside)

theorem Linked.last (linked : Linked fat clusters) {k : Nat}
    (inside : k < clusters.length) (final : k + 1 = clusters.length) :
    EXFAT_EOC ≤ fat clusters[k] := by
  induction clusters generalizing k with
  | nil => exact linked.elim
  | cons cluster rest ih =>
    cases rest with
    | nil =>
      cases k with
      | zero => exact linked
      | succ k => simp at final
    | cons next rest =>
      cases k with
      | zero => simp at final
      | succ k => exact ih linked.2 (Nat.lt_of_succ_lt_succ inside) (Nat.succ.inj final)

theorem Extent.congr {fat fat' : Nat → Nat} (extent : Extent context fat first noFatChain clusters)
    (same : ∀ cluster ∈ clusters, fat' cluster = fat cluster) :
    Extent context fat' first noFatChain clusters :=
  { extent with linked := fun chained => (extent.linked chained).congr same }

theorem Extent.first_mem (extent : Extent context fat first noFatChain clusters) :
    first ∈ clusters := List.mem_of_head? extent.head

theorem Extent.first_valid (extent : Extent context fat first noFatChain clusters) :
    context.validCluster first = true := extent.valid first extent.first_mem

theorem Extent.length_pos (extent : Extent context fat first noFatChain clusters) :
    0 < clusters.length := List.length_pos_of_mem extent.first_mem

theorem length_le_clusterCount (valid : ∀ cluster ∈ clusters, context.validCluster cluster = true)
    (nodup : clusters.Nodup) : clusters.length ≤ context.clusterCount := by
  have among : clusters.toFinset ⊆ Finset.Ico 2 (context.clusterCount + 2) := by
    intro cluster member
    have bounds := Geometry.validCluster_iff.mp (valid cluster (List.mem_toFinset.mp member))
    rw [Finset.mem_Ico]
    omega
  have counted := Finset.card_le_card among
  rw [List.toFinset_card_of_nodup nodup, Nat.card_Ico] at counted
  omega

theorem Extent.length_le (extent : Extent context fat first noFatChain clusters) :
    clusters.length ≤ context.clusterCount := length_le_clusterCount extent.valid extent.nodup

theorem linkTo_valid (regular : context.Regular) (valid : context.validCluster cluster = true) :
    linkTo context cluster = some cluster := by
  have small := regular.valid_small valid
  rw [linkTo, if_neg]
  rintro (bad | ⟨_, invalid⟩)
  · omega
  · exact invalid valid

theorem linkTo_end {next : Nat} (last : EXFAT_EOC ≤ next) : linkTo context next = some next := by
  rw [linkTo, if_neg]
  rintro (bad | ⟨low, _⟩)
  · rw [bad] at last
    exact absurd last (by decide)
  · omega

section Links

variable (regular : context.Regular)
include regular

theorem valid_not_end (valid : context.validCluster cluster = true) : ¬cluster ≥ EXFAT_EOC := by
  have small := regular.valid_small valid
  simp only [EXFAT_BAD_CLUSTER, EXFAT_EOC] at small ⊢
  omega

theorem sees_readFat_next {next : Nat} {rest : List Nat}
    (valid : ∀ other ∈ cluster :: next :: rest, context.validCluster other = true)
    (linked : Linked I.fat (cluster :: next :: rest)) :
    Sees context (readFat context cluster).run I (some next) := by
  have sees := sees_readFat (I := I) regular (valid cluster List.mem_cons_self)
  rw [linked.1, linkTo_valid regular (valid next (by simp))] at sees
  exact sees

theorem sees_readFat_last (valid : context.validCluster cluster = true)
    (linked : Linked I.fat [cluster]) :
    Sees context (readFat context cluster).run I (some (I.fat cluster)) := by
  have sees := sees_readFat (I := I) regular valid
  rw [linkTo_end linked] at sees
  exact sees

theorem sees_followChain {steps : Nat} : ∀ {current : Nat} {chain : List Nat},
    (∀ other ∈ current :: chain, context.validCluster other = true) →
    Linked I.fat (current :: chain) → (current :: chain)[steps]? = some cluster →
    Sees context (followChain context steps current).run I (some cluster) := by
  induction steps with
  | zero =>
    intro current chain valid linked here
    cases here
    exact sees_some
  | succ steps ih =>
    intro current chain valid linked here
    cases chain with
    | nil => cases here
    | cons next rest =>
      refine sees_then (sees_readFat_next regular valid linked) ?_
      have later := valid_not_end regular (valid next (by simp))
      refine sees_guard (by omega) ?_
      exact ih (fun other member => valid other (List.mem_cons_of_mem _ member)) linked.2 here

/-- The code finds the clusters of a stream by their index. -/
theorem sees_streamCluster (extent : Extent context I.fat first noFatChain clusters) {index : Nat}
    (here : clusters[index]? = some cluster) :
    Sees context (streamCluster context first noFatChain index).run I (some cluster) := by
  have below : index < clusters.length := (List.getElem?_eq_some_iff.mp here).1
  have valid : context.validCluster cluster = true := extent.valid cluster (List.mem_of_getElem? here)
  have bounds := Geometry.validCluster_iff.mp valid
  have few := regular.few
  have length := extent.length_le
  unfold streamCluster
  refine sees_guard ⟨extent.first_valid, by omega⟩ ?_
  cases chained : noFatChain with
  | true =>
    have place : cluster = first + index := by
      have ranged := extent.range chained
      rw [ranged, List.getElem?_range' below, Nat.one_mul] at here
      exact (Option.some.inj here).symm
    have head := Geometry.validCluster_iff.mp extent.first_valid
    rw [if_pos rfl]
    refine sees_guard (by omega) ?_
    rw [← place, Nat.mod_eq_of_lt]
    · exact sees_some
    · have small := regular.valid_small valid
      simp only [EXFAT_BAD_CLUSTER] at small
      omega
  | false =>
    rw [if_neg Bool.false_ne_true]
    obtain ⟨rest, split⟩ := List.head?_eq_some_iff.mp extent.head
    have linked := extent.linked chained
    have all := extent.valid
    rw [split] at here linked all
    exact sees_followChain regular all linked here

theorem sees_chainLength {remaining : Nat} : ∀ {current : Nat} {chain : List Nat},
    (∀ other ∈ current :: chain, context.validCluster other = true) →
    Linked I.fat (current :: chain) → (current :: chain).length ≤ remaining →
    Sees context (chainLength context remaining current) I (current :: chain).length := by
  induction remaining with
  | zero =>
    intro current chain valid linked fits
    simp at fits
  | succ remaining ih =>
    intro current chain valid linked fits
    have here := valid current List.mem_cons_self
    unfold chainLength
    rw [if_pos here]
    cases chain with
    | nil =>
      refine sees_bind (sees_readFat_last regular here linked) ?_
      dsimp only
      rw [if_pos (show EXFAT_EOC ≤ I.fat current from linked)]
      exact sees_pure
    | cons next rest =>
      refine sees_bind (sees_readFat_next regular valid linked) ?_
      dsimp only
      rw [if_neg (valid_not_end regular (valid next (by simp)))]
      refine sees_bind (ih (fun other member => valid other (List.mem_cons_of_mem _ member))
        linked.2 (by simpa using fits)) ?_
      exact sees_pure

theorem Extent.sees_chainLength (extent : Extent context I.fat first false clusters) :
    Sees context (chainLength context context.clusterCount first) I clusters.length := by
  obtain ⟨rest, split⟩ := List.head?_eq_some_iff.mp extent.head
  have fits := extent.length_le
  have linked := extent.linked rfl
  have all := extent.valid
  rw [split] at fits linked all ⊢
  exact ExFat.sees_chainLength regular all linked fits

theorem sees_collectLoop {node : Node}
    (extent : Extent context I.fat node.firstCluster node.noFatChain clusters) (indices : List Nat)
    (below : ∀ index ∈ indices, index < clusters.length) :
    Sees context (collectLoop context node indices).run I
      (some (indices.map fun index => clusters.getD index 0)) := by
  induction indices with
  | nil => exact sees_some
  | cons index rest ih =>
    have here : clusters[index]? = some (clusters.getD index 0) := by
      have bound := below index List.mem_cons_self
      rw [List.getD_eq_getElem?_getD, List.getElem?_eq_getElem bound, Option.getD_some]
    refine sees_then (sees_streamCluster regular extent here) ?_
    refine sees_then (ih fun other member => below other (List.mem_cons_of_mem _ member)) ?_
    exact sees_some

def Counted (context : Context) (dataLength : Nat) (noFatChain : Bool) (clusters : List Nat) : Prop :=
  if dataLength = 0 then noFatChain = false else clusters.length = clustersFor context dataLength

/-- All clusters of a node are collected. -/
theorem sees_collectClusters {node : Node}
    (extent : Extent context I.fat node.firstCluster node.noFatChain clusters)
    (counted : Counted context node.dataLength node.noFatChain clusters) :
    Sees context (collectClusters context node).run I (some clusters) := by
  have positive := extent.length_pos
  have count : Sees context (storedClusters context node) I clusters.length := by
    unfold storedClusters
    unfold Counted at counted
    split at counted
    · rename_i empty
      rw [if_pos empty]
      rw [counted] at extent
      exact extent.sees_chainLength regular
    · rename_i stored
      rw [if_neg stored, counted]
      exact sees_pure
  have listed : (List.range clusters.length).map (fun index => clusters.getD index 0) = clusters := by
    apply List.ext_getElem
    · simp
    · intro index low high
      simp [List.getD_eq_getElem?_getD, high]
  have loop := sees_collectLoop (I := I) regular extent (List.range clusters.length)
    fun index member => List.mem_range.mp member
  rw [listed] at loop
  unfold collectClusters
  exact sees_lift count (sees_then (sees_kmalloc (by omega)) loop)

end Links

/-! ### Bytes -/

def Image.stream (I : Image) (context : Context) (clusters : List Nat) (i : Nat) : UInt8 :=
  I.data (clusters.getD (i / context.clusterSize) 0) (i % context.clusterSize)

theorem stream_congr (same : ∀ cluster ∈ clusters, I'.data cluster = I.data cluster) {i : Nat}
    (inside : i < clusters.length * context.clusterSize) :
    I'.stream context clusters i = I.stream context clusters i := by
  have below : i / context.clusterSize < clusters.length := by
    refine Nat.div_lt_of_lt_mul ?_
    rwa [Nat.mul_comm]
  have member : clusters.getD (i / context.clusterSize) 0 ∈ clusters := by
    rw [List.getD_eq_getElem?_getD, List.getElem?_eq_getElem below, Option.getD_some]
    exact List.getElem_mem below
  rw [Image.stream, Image.stream, same _ member]

theorem window_stream {offset count : Nat}
    (here : clusters[offset / context.clusterSize]? = some cluster)
    (room : offset % context.clusterSize + count ≤ context.clusterSize) :
    window (I.stream context clusters) offset count =
      window (I.data cluster) (offset % context.clusterSize) count := by
  apply List.map_congr_left
  intro i member
  have below := List.mem_range.mp member
  have split := Nat.div_add_mod offset context.clusterSize
  have place : offset + i =
      context.clusterSize * (offset / context.clusterSize) + (offset % context.clusterSize + i) := by
    omega
  have small : (offset % context.clusterSize + i) / context.clusterSize = 0 :=
    Nat.div_eq_of_lt (by omega)
  have quotient : (offset + i) / context.clusterSize = offset / context.clusterSize := by
    rw [place, Nat.mul_add_div (by omega), small, Nat.add_zero]
  have remainder : (offset + i) % context.clusterSize = offset % context.clusterSize + i := by
    rw [place, Nat.mul_add_mod, Nat.mod_eq_of_lt (by omega)]
  rw [Image.stream, quotient, remainder, List.getD_eq_getElem?_getD, here, Option.getD_some]

/-- The bytes of a stream were overwritten from an offset on, and nothing else was. -/
structure Wrote (context : Context) (clusters : List Nat) (offset : Nat) (source : List UInt8)
    (I I' : Image) : Prop where
  boot : I'.boot = I.boot
  fat : I'.fat = I.fat
  others : ∀ cluster ∉ clusters, I'.data cluster = I.data cluster
  stream : ∀ i < clusters.length * context.clusterSize,
    I'.stream context clusters i = patch (I.stream context clusters) offset source i

theorem Wrote.nothing (I : Image) (offset : Nat) : Wrote context clusters offset [] I I where
  boot := rfl
  fat := rfl
  others := fun _ _ => rfl
  stream := by
    intro i inside
    rw [patch_nil]

theorem Wrote.append {J : Image} {offset count : Nat} {source : List UInt8}
    (fits : count ≤ source.length) (front : Wrote context clusters offset (source.take count) I J)
    (back : Wrote context clusters (offset + count) (source.drop count) J I') :
    Wrote context clusters offset source I I' where
  boot := back.boot.trans front.boot
  fat := back.fat.trans front.fat
  others := fun other outside => (back.others other outside).trans (front.others other outside)
  stream := by
    intro i inside
    rw [back.stream i inside, ← patch_patch (I.stream context clusters) offset source count fits]
    simp only [patch]
    split
    · rfl
    · exact front.stream i inside

theorem Wrote.ofCluster {offset : Nat} {source : List UInt8} (nodup : clusters.Nodup)
    (here : clusters[offset / context.clusterSize]? = some cluster)
    (room : offset % context.clusterSize + source.length ≤ context.clusterSize) :
    Wrote context clusters offset source I (I.write cluster (offset % context.clusterSize) source) where
  boot := rfl
  fat := rfl
  others := by
    intro other outside
    have different : other ≠ cluster := by
      rintro rfl
      exact outside (List.mem_of_getElem? here)
    exact Function.update_of_ne different _ _
  stream := by
    intro i inside
    obtain ⟨bound, place⟩ := List.getElem?_eq_some_iff.mp here
    have below : i / context.clusterSize < clusters.length := by
      refine Nat.div_lt_of_lt_mul ?_
      rwa [Nat.mul_comm]
    have split := Nat.div_add_mod offset context.clusterSize
    have split' := Nat.div_add_mod i context.clusterSize
    have some : clusters.getD (i / context.clusterSize) 0 = clusters[i / context.clusterSize] := by
      rw [List.getD_eq_getElem?_getD, List.getElem?_eq_getElem below, Option.getD_some]
    simp only [Image.stream, Image.write, patch, some]
    by_cases same : i / context.clusterSize = offset / context.clusterSize
    · have equal : clusters[i / context.clusterSize] = cluster := by
        simp only [same]
        exact place
      rw [equal, Function.update_self]
      rw [same] at split'
      by_cases among : offset ≤ i ∧ i < offset + source.length
      · rw [if_pos among, patch, if_pos (by omega)]
        congr 1
        omega
      · rw [if_neg among, patch, if_neg (by omega)]
    · have different : clusters[i / context.clusterSize] ≠ cluster := by
        intro equal
        rw [← place] at equal
        exact same ((nodup.getElem_inj_iff).mp equal)
      rw [Function.update_of_ne different, if_neg]
      rintro ⟨low, high⟩
      refine same (Nat.div_eq_of_lt_le ?_ ?_)
      · rw [Nat.mul_comm]
        omega
      · rw [Nat.succ_mul, Nat.mul_comm]
        omega

section Bytes

variable (regular : context.Regular) {offset : Nat}
include regular

theorem sees_streamByteLocation (extent : Extent context I.fat first noFatChain clusters)
    (here : clusters[offset / context.clusterSize]? = some cluster) :
    Sees context (streamByteLocation context first noFatChain offset).run I
      (some (context.clusterLba cluster + offset % context.clusterSize / context.sectorSize,
        offset % context.clusterSize % context.sectorSize)) := by
  have below := (List.getElem?_eq_some_iff.mp here).1
  have length := extent.length_le
  have few := regular.few
  have narrow : offset / context.clusterSize % 2 ^ 32 = offset / context.clusterSize := by
    simp only [EXFAT_BAD_CLUSTER] at few
    exact Nat.mod_eq_of_lt (by omega)
  unfold streamByteLocation
  rw [narrow]
  exact sees_then (sees_streamCluster regular extent here) sees_some

theorem sector_below (offset : Nat) : offset % context.clusterSize / context.sectorSize <
    context.sectorsPerCluster := by
  refine Nat.div_lt_of_lt_mul ?_
  exact Nat.mod_lt _ regular.clusterSize_pos

omit regular in
theorem exists_cluster (inside : offset < clusters.length * context.clusterSize) :
    ∃ cluster, clusters[offset / context.clusterSize]? = some cluster := by
  have below : offset / context.clusterSize < clusters.length := by
    refine Nat.div_lt_of_lt_mul ?_
    rwa [Nat.mul_comm]
  exact ⟨clusters[offset / context.clusterSize], List.getElem?_eq_getElem below⟩

theorem sector_room (offset : Nat) : offset % context.clusterSize +
    (context.sectorSize - offset % context.clusterSize % context.sectorSize) ≤ context.clusterSize := by
  have room := Geometry.sector_end (sector_below regular offset)
  have split := Nat.div_add_mod (offset % context.clusterSize) context.sectorSize
  have sector := regular.sector
  have positive : 0 < context.sectorSize := by omega
  have low := Nat.mod_lt (offset % context.clusterSize) positive
  rw [Nat.mul_comm] at split
  omega

theorem sees_readStreamLoop (extent : Extent context I.fat first noFatChain clusters)
    {capacity : Nat} (inside : offset + capacity ≤ clusters.length * context.clusterSize)
    {rounds : Nat} : ∀ {done : Nat}, done ≤ capacity → capacity ≤ done + rounds →
    Sees context (readStreamLoop context first noFatChain offset capacity rounds
      (window (I.stream context clusters) offset done)) I
      (window (I.stream context clusters) offset capacity) := by
  induction rounds with
  | zero =>
    intro done low high
    have all : done = capacity := by omega
    rw [all]
    exact sees_pure
  | succ rounds ih =>
    intro done low high
    unfold readStreamLoop
    rw [window_length]
    by_cases more : done < capacity
    · rw [if_pos more]
      obtain ⟨cluster, here⟩ := exists_cluster
        (show offset + done < clusters.length * context.clusterSize by omega)
      have room := sector_room regular (offset + done)
      have sector := regular.sector
      have positive : 0 < context.sectorSize := by omega
      have within := Nat.mod_lt ((offset + done) % context.clusterSize) positive
      -- each round reads up to the end of a sector, at least one byte
      have part : Sees context (do
          let place ← streamByteLocation context first noFatChain (offset + done)
          let sector ← readSector context place.1
          return slice sector place.2 (min (context.sectorSize - place.2) (capacity - done))).run I
          (some (window (I.stream context clusters) (offset + done)
            (min (context.sectorSize - (offset + done) % context.clusterSize % context.sectorSize)
              (capacity - done)))) := by
        refine sees_then (sees_streamByteLocation regular extent here) ?_
        intro medium pictured
        have valid := extent.valid cluster (List.mem_of_getElem? here)
        have below := sector_below regular (offset + done)
        have split := Nat.div_add_mod ((offset + done) % context.clusterSize) context.sectorSize
        rw [Nat.mul_comm] at split
        have fits : min (context.sectorSize -
            (offset + done) % context.clusterSize % context.sectorSize) (capacity - done) ≤
            context.sectorSize - (offset + done) % context.clusterSize % context.sectorSize :=
          Nat.min_le_left _ _
        obtain ⟨count, same⟩ : ∃ count, min (context.sectorSize -
            (offset + done) % context.clusterSize % context.sectorSize) (capacity - done) = count :=
          ⟨_, rfl⟩
        rw [same] at fits ⊢
        have bytes := pictured.slice valid below (show (offset + done) % context.clusterSize %
          context.sectorSize + count ≤ context.sectorSize by omega)
        rw [split] at bytes
        rw [window_stream here (by omega), ← bytes, eval_fallible_bind,
          eval_readSector (regular.clusterLba_inside valid below)]
        rw [Option.bind_some]
        rfl
      refine sees_bind part ?_
      dsimp only
      rw [← window_add]
      exact ih (by omega) (by omega)
    · rw [if_neg more]
      have all : done = capacity := by omega
      rw [all]
      exact sees_pure

/-- What is read of a stream are its bytes. -/
theorem sees_readStream (extent : Extent context I.fat first noFatChain clusters)
    {dataLength capacity : Nat} (stored : dataLength ≤ clusters.length * context.clusterSize) :
    Sees context (readStream context first noFatChain dataLength offset capacity) I
      (window (I.stream context clusters) offset (min capacity (dataLength - offset))) := by
  unfold readStream
  split
  · have empty : min capacity (dataLength - offset) = 0 := by omega
    rw [empty]
    exact sees_pure
  · exact sees_readStreamLoop regular extent (by omega) (Nat.zero_le _) (by omega)

omit regular in
theorem streamByteLocation_looks (first : Nat) (noFatChain : Bool) (offset : Nat) :
    Uses (Looks 0) (streamByteLocation context first noFatChain offset).run := by
  unfold streamByteLocation
  exact uses_fallible_bind (streamCluster_looks context.from_zero _ _ _) fun _ => uses_some

theorem does_writeStreamLoop {rounds : Nat} : ∀ {I : Image} {offset : Nat} {source : List UInt8},
    Extent context I.fat first noFatChain clusters → source.length ≤ rounds →
    offset + source.length ≤ clusters.length * context.clusterSize →
    Does context (writeStreamLoop context first noFatChain rounds offset source) I
      fun _ I' => Wrote context clusters offset source I I' := by
  induction rounds with
  | zero =>
    intro I offset source extent fits inside
    have empty : source = [] := List.eq_nil_of_length_eq_zero (by omega)
    rw [empty]
    exact does_pure (.nothing I offset)
  | succ rounds ih =>
    intro I offset source extent fits inside
    unfold writeStreamLoop
    cases source with
    | nil => exact does_pure (.nothing I offset)
    | cons byte rest =>
      have more : 0 < (byte :: rest).length := Nat.succ_pos _
      rw [List.isEmpty_cons, if_neg Bool.false_ne_true]
      generalize byte :: rest = source at more fits inside
      obtain ⟨cluster, here⟩ := exists_cluster
        (show offset < clusters.length * context.clusterSize by omega)
      have valid := extent.valid cluster (List.mem_of_getElem? here)
      have below := sector_below regular offset
      have room := sector_room regular offset
      have sector := regular.sector
      have positive : 0 < context.sectorSize := by omega
      have within := Nat.mod_lt (offset % context.clusterSize) positive
      have split := Nat.div_add_mod (offset % context.clusterSize) context.sectorSize
      rw [Nat.mul_comm] at split
      refine does_look (streamByteLocation_looks first noFatChain offset)
        (sees_streamByteLocation regular extent here) fun location found => ?_
      cases found
      dsimp only
      intro medium pictured
      refine doesAt_readSector (regular.clusterLba_inside valid below) ?_
      -- one round writes up to the end of a sector, at least one byte
      generalize taken : min (context.sectorSize -
        offset % context.clusterSize % context.sectorSize) source.length = count
      have piece : (source.take count).length = count := by
        rw [List.length_take]
        omega
      have wrote := pictured.write regular valid below (show offset % context.clusterSize %
        context.sectorSize + (source.take count).length ≤ context.sectorSize by omega)
      rw [split] at wrote
      refine doesAt_bind (doesAt_writeSector wrote) fun _ J same => ?_
      subst same
      have later : Extent context (I.write cluster (offset % context.clusterSize)
          (source.take count)).fat first noFatChain clusters := extent
      refine does_mono (ih later ?_ ?_) fun _ I' back => ?_
      · rw [List.length_drop]
        omega
      · rw [List.length_drop]
        omega
      · exact .append (by omega) (.ofCluster extent.nodup here (by omega)) back

/-- What is written to a stream replaces its bytes, and nothing else. -/
theorem does_writeStreamMetadata (extent : Extent context I.fat first noFatChain clusters)
    {source : List UInt8} (inside : offset + source.length ≤ clusters.length * context.clusterSize) :
    Does context (writeStreamMetadata context first noFatChain offset source) I
      fun _ I' => Wrote context clusters offset source I I' :=
  does_writeStreamLoop regular extent (Nat.le_refl _) inside

end Bytes

end AsasOs.ExFat
