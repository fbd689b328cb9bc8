import AsasOs.ExFat.Streams

/-!
# exFAT: the allocation bitmap

The bit of a cluster as the stream of the bitmap has it, and what the code that
allocates and frees clusters does to bits, links and data.

## Main results

- `does_allocateClusters`: free clusters, linked to a chain, and marked.
- `does_zeroCluster`: what is stored in a new cluster.
-/
namespace AsasOs.ExFat

open Block Bytes Prog

variable {context : Context} {I I' J : Image} {bitmap clusters : List Nat} {cluster : Nat}

/-! ### Bits -/

def Image.bit (I : Image) (context : Context) (bitmap : List Nat) (cluster : Nat) : Bool :=
  (I.stream context bitmap ((cluster - 2) / 8)).toNat.testBit ((cluster - 2) % 8)

/-- The bitmap is a chain with a bit for every cluster. -/
structure Mapped (context : Context) (fat : Nat → Nat) (bitmap : List Nat) : Prop where
  extent : Extent context fat context.bitmapFirstCluster false bitmap
  stored : context.bitmapLength ≤ bitmap.length * context.clusterSize
  covers : context.clusterCount ≤ 8 * context.bitmapLength

theorem Mapped.congr {fat fat' : Nat → Nat} (mapped : Mapped context fat bitmap)
    (same : ∀ other ∈ bitmap, fat' other = fat other) : Mapped context fat' bitmap :=
  ⟨mapped.extent.congr same, mapped.stored, mapped.covers⟩

theorem Mapped.byte_inside {fat : Nat → Nat} (mapped : Mapped context fat bitmap)
    (valid : context.validCluster cluster = true) : (cluster - 2) / 8 < context.bitmapLength := by
  have bounds := Geometry.validCluster_iff.mp valid
  have covers := mapped.covers
  omega

theorem bit_congr (mapped : Mapped context I.fat bitmap)
    (same : ∀ other ∈ bitmap, I'.data other = I.data other)
    (valid : context.validCluster cluster = true) :
    I'.bit context bitmap cluster = I.bit context bitmap cluster := by
  have inside := mapped.byte_inside valid
  have stored := mapped.stored
  rw [Image.bit, Image.bit, stream_congr same (by omega)]

theorem testBit_mask {place other : Nat} (below : place < 8) (below' : other < 8) (value : UInt8)
    (used : Bool) :
    (if used then value ||| 1 <<< UInt8.ofNat place
      else value &&& ~~~(1 <<< UInt8.ofNat place)).toNat.testBit other =
      if other = place then used else value.toNat.testBit other := by
  have set : ∀ p < 8, ∀ o < 8,
      ((1 : UInt8) <<< UInt8.ofNat p).toNat.testBit o = decide (o = p) := by decide
  have cleared : ∀ p < 8, ∀ o < 8,
      (~~~((1 : UInt8) <<< UInt8.ofNat p)).toNat.testBit o = decide (o ≠ p) := by decide
  cases used with
  | true =>
    rw [if_pos rfl, UInt8.toNat_or, Nat.testBit_or, set place below other below']
    by_cases same : other = place
    · simp [same]
    · simp [same]
  | false =>
    rw [if_neg Bool.false_ne_true, UInt8.toNat_and, Nat.testBit_and, cleared place below other below']
    by_cases same : other = place
    · simp [same]
    · simp [same]

section Bits

variable (regular : context.Regular)
include regular

theorem sees_bitmapByte (mapped : Mapped context I.fat bitmap)
    (valid : context.validCluster cluster = true) :
    Sees context (bitmapByte context cluster).run I (some (I.stream context bitmap ((cluster - 2) / 8))) := by
  have inside := mapped.byte_inside valid
  have one : min 1 (context.bitmapLength - (cluster - 2) / 8) = 1 := by omega
  have sees : Sees context (readStream context context.bitmapFirstCluster false
      context.bitmapLength ((cluster - 2) / 8) 1) I
      (window (I.stream context bitmap) ((cluster - 2) / 8) 1) := by
    have read : Sees context (readStream context context.bitmapFirstCluster false
        context.bitmapLength ((cluster - 2) / 8) 1) I _ :=
      sees_readStream regular mapped.extent mapped.stored
    rwa [one] at read
  unfold bitmapByte
  refine sees_guard valid ?_
  refine sees_lift sees ?_
  exact sees_some

theorem sees_bitmapBit (mapped : Mapped context I.fat bitmap)
    (valid : context.validCluster cluster = true) :
    Sees context (bitmapBit context cluster).run I (some (I.bit context bitmap cluster)) :=
  sees_then (sees_bitmapByte regular mapped valid) sees_some

/-- The bits of the bitmap, and no others of its clusters' bytes that matter, were
changed: those of the volume's clusters are now the given ones. -/
structure Remapped (context : Context) (bitmap : List Nat) (bits : Nat → Bool) (I I' : Image) :
    Prop where
  boot : I'.boot = I.boot
  data : ∀ other ∉ bitmap, I'.data other = I.data other
  bits : ∀ other, context.validCluster other = true → I'.bit context bitmap other = bits other

theorem does_setBitmapBit (mapped : Mapped context I.fat bitmap)
    (valid : context.validCluster cluster = true) (used : Bool) :
    Does context (setBitmapBit context cluster used) I fun _ I' => I'.fat = I.fat ∧
      Remapped context bitmap (Function.update (I.bit context bitmap) cluster used) I I' := by
  have inside := mapped.byte_inside valid
  have stored := mapped.stored
  have looks : Uses (Looks 0) (bitmapByte context cluster).run :=
    bitmapByte_looks context.from_zero cluster
  unfold setBitmapBit
  refine does_look looks (sees_bitmapByte regular mapped valid) fun value found => ?_
  cases found
  refine does_mono (does_writeStreamMetadata regular mapped.extent ?_) fun _ I' wrote => ?_
  · rw [List.length_singleton]
    omega
  refine ⟨wrote.fat, wrote.boot, wrote.others, fun other valid' => ?_⟩
  have inside' := mapped.byte_inside valid'
  have bounds := Geometry.validCluster_iff.mp valid
  have bounds' := Geometry.validCluster_iff.mp valid'
  rw [Image.bit, wrote.stream _ (by omega), patch, List.length_singleton]
  by_cases byte : (other - 2) / 8 = (cluster - 2) / 8
  · -- the bit lies in the byte that was written
    have place : other = cluster ↔ (other - 2) % 8 = (cluster - 2) % 8 := by omega
    rw [if_pos (by omega), byte, Nat.sub_self]
    change (if used then _ else _ : UInt8).toNat.testBit _ = _
    rw [testBit_mask (Nat.mod_lt _ (by omega)) (Nat.mod_lt _ (by omega))]
    by_cases same : other = cluster
    · rw [if_pos (place.mp same), same, Function.update_self]
    · rw [if_neg (fun equal => same (place.mpr equal)), Function.update_of_ne same, Image.bit, byte]
  · have different : other ≠ cluster := by
      rintro rfl
      exact byte rfl
    rw [if_neg (by omega), Function.update_of_ne different, Image.bit]

theorem does_mark (mapped : Mapped context I.fat bitmap)
    (valid : context.validCluster cluster = true) (used : Bool) (link : Nat) :
    Does context (do
      setBitmapBit context cluster used
      writeFat context cluster link) I fun _ I' =>
        I'.fat = Function.update I.fat cluster (link % 2 ^ 32) ∧
        Remapped context bitmap (Function.update (I.bit context bitmap) cluster used) I I' := by
  refine does_bind (does_setBitmapBit regular mapped valid used) fun _ J marked => ?_
  obtain ⟨sameFat, remapped⟩ := marked
  refine does_mono (does_writeFat regular valid link) fun _ I' linked => ?_
  subst linked
  refine ⟨?_, remapped.boot, remapped.data, remapped.bits⟩
  rw [Image.setFat, sameFat]

/-! ### Free clusters -/

/-- The first `count` clusters from `cluster` on that are not in use. -/
def freeFrom (used : Nat → Bool) : Nat → Nat → Nat → List Nat
  | 0, _, _ => []
  | remaining + 1, cluster, count =>
    if count = 0 then []
    else if used cluster then freeFrom used remaining (cluster + 1) count
    else cluster :: freeFrom used remaining (cluster + 1) (count - 1)

omit regular in
theorem mem_freeFrom {used : Nat → Bool} {remaining count other : Nat}
    (member : other ∈ freeFrom used remaining cluster count) :
    cluster ≤ other ∧ other < cluster + remaining ∧ used other = false := by
  induction remaining generalizing cluster count with
  | zero => cases member
  | succ remaining ih =>
    unfold freeFrom at member
    split at member
    · cases member
    · split at member
      · have later := ih member
        exact ⟨by omega, by omega, later.2.2⟩
      · rename_i free
        rcases List.mem_cons.mp member with rfl | member
        · exact ⟨Nat.le_refl _, by omega, Bool.eq_false_iff.mpr free⟩
        · have later := ih member
          exact ⟨by omega, by omega, later.2.2⟩

omit regular in
theorem freeFrom_nodup (used : Nat → Bool) (remaining cluster count : Nat) :
    (freeFrom used remaining cluster count).Nodup := by
  induction remaining generalizing cluster count with
  | zero => exact List.nodup_nil
  | succ remaining ih =>
    unfold freeFrom
    split
    · exact List.nodup_nil
    · split
      · exact ih _ _
      · refine List.nodup_cons.mpr ⟨fun member => ?_, ih _ _⟩
        have later := mem_freeFrom member
        omega

theorem sees_findFreeClusters (mapped : Mapped context I.fat bitmap) {remaining : Nat} :
    ∀ {cluster count : Nat}, 2 ≤ cluster → cluster + remaining ≤ context.clusterCount + 2 →
      Sees context (findFreeClusters context remaining cluster count).run I
        (some (freeFrom (I.bit context bitmap) remaining cluster count)) := by
  have few := regular.few
  simp only [EXFAT_BAD_CLUSTER] at few
  induction remaining with
  | zero => exact fun _ _ => sees_some
  | succ remaining ih =>
    intro cluster count low high
    have valid : context.validCluster cluster = true :=
      Geometry.validCluster_iff.mpr ⟨low, by omega⟩
    have next : (cluster + 1) % 2 ^ 32 = cluster + 1 := Nat.mod_eq_of_lt (by omega)
    unfold findFreeClusters freeFrom
    split
    · exact sees_some
    · refine sees_then (sees_bitmapBit regular mapped valid) ?_
      rw [next]
      split
      · exact ih (by omega) (by omega)
      · exact sees_then (ih (by omega) (by omega)) sees_some

/-! ### Allocation -/

/-- Clusters were linked to a chain and marked as in use. -/
structure Took (context : Context) (bitmap clusters : List Nat) (I I' : Image) : Prop where
  boot : I'.boot = I.boot
  data : ∀ other ∉ bitmap, I'.data other = I.data other
  fat : ∀ other ∉ clusters, I'.fat other = I.fat other
  linked : clusters ≠ [] → Linked I'.fat clusters
  bits : ∀ other, context.validCluster other = true →
    I'.bit context bitmap other = (I.bit context bitmap other || decide (other ∈ clusters))

theorem does_takeClusters : ∀ {clusters : List Nat} {I : Image}, Mapped context I.fat bitmap →
    (∀ other ∈ clusters, context.validCluster other = true) → clusters.Nodup →
    (∀ other ∈ clusters, other ∉ bitmap) →
    Does context (takeClusters context clusters) I fun _ I' => Took context bitmap clusters I I' := by
  intro clusters
  induction clusters with
  | nil =>
    intro I mapped valid nodup apart
    refine does_pure ⟨rfl, fun _ _ => rfl, fun _ _ => rfl, fun some => absurd rfl some, ?_⟩
    intro other _
    simp
  | cons cluster rest ih =>
    intro I mapped valid nodup apart
    have here := valid cluster List.mem_cons_self
    obtain ⟨fresh, nodup'⟩ := List.nodup_cons.mp nodup
    have unused : ∀ other ∈ bitmap, other ≠ cluster := by
      rintro other member rfl
      exact apart other List.mem_cons_self member
    unfold takeClusters
    rw [← LawfulMonad.bind_assoc]
    refine does_bind (does_mark regular mapped here true (rest.headD 0xFFFFFFFF)) fun _ J marked => ?_
    obtain ⟨sameFat, remapped⟩ := marked
    have mapped' : Mapped context J.fat bitmap := by
      refine mapped.congr fun other member => ?_
      rw [sameFat, Function.update_of_ne (unused other member)]
    refine does_mono (ih mapped' (fun other member => valid other (List.mem_cons_of_mem _ member))
      nodup' fun other member => apart other (List.mem_cons_of_mem _ member)) fun _ I' took => ?_
    constructor
    · exact took.boot.trans remapped.boot
    · exact fun other outside => (took.data other outside).trans (remapped.data other outside)
    · intro other outside
      have different : other ≠ cluster := by
        rintro rfl
        exact outside List.mem_cons_self
      rw [took.fat other fun member => outside (List.mem_cons_of_mem _ member), sameFat,
        Function.update_of_ne different]
    · intro _
      have link : I'.fat cluster = rest.headD 0xFFFFFFFF % 2 ^ 32 := by
        rw [took.fat cluster fresh, sameFat, Function.update_self]
      cases rest with
      | nil =>
        change EXFAT_EOC ≤ I'.fat cluster
        rw [link]
        decide
      | cons next rest =>
        have small := regular.valid_small (valid next (by simp))
        simp only [EXFAT_BAD_CLUSTER] at small
        refine ⟨?_, took.linked (List.cons_ne_nil _ _)⟩
        rw [link]
        exact Nat.mod_eq_of_lt (by simp only [List.headD_cons]; omega)
    · intro other valid'
      rw [took.bits other valid', remapped.bits other valid']
      by_cases same : other = cluster
      · simp [same]
      · simp [same]

/-- Free clusters become a chain. -/
theorem does_allocateClusters (mapped : Mapped context I.fat bitmap)
    (used : ∀ other ∈ bitmap, I.bit context bitmap other = true) (count : Nat) :
    Does context (allocateClusters context count) I fun clusters I' =>
      clusters.length = count ∧ clusters.Nodup ∧
      (∀ other ∈ clusters, context.validCluster other = true ∧ I.bit context bitmap other = false) ∧
      Took context bitmap clusters I I' := by
  have looks : Uses (Looks 0) (findFreeClusters context context.clusterCount 2 count).run :=
    findFreeClusters_looks context.from_zero _ _ _
  have sees : Sees context (findFreeClusters context context.clusterCount 2 count).run I
      (some (freeFrom (I.bit context bitmap) context.clusterCount 2 count)) :=
    sees_findFreeClusters regular mapped (Nat.le_refl 2) (Nat.add_comm 2 context.clusterCount).le
  unfold allocateClusters
  refine does_look looks sees fun clusters found => ?_
  cases found
  have free : ∀ other ∈ freeFrom (I.bit context bitmap) context.clusterCount 2 count,
      context.validCluster other = true ∧ I.bit context bitmap other = false := by
    intro other member
    obtain ⟨low, high, unused⟩ := mem_freeFrom member
    exact ⟨Geometry.validCluster_iff.mpr ⟨low, by omega⟩, unused⟩
  have apart : ∀ other ∈ freeFrom (I.bit context bitmap) context.clusterCount 2 count,
      other ∉ bitmap := by
    intro other member inside
    have unused := (free other member).2
    rw [used other inside] at unused
    cases unused
  have nodup := freeFrom_nodup (I.bit context bitmap) context.clusterCount 2 count
  refine does_guard fun all => ?_
  refine does_bind (does_takeClusters regular mapped (fun other member => (free other member).1)
    nodup apart) fun _ I' took => ?_
  exact does_pure ⟨all, nodup, free, took⟩

/-! ### New contents -/

omit regular in
theorem Wrote.window_add {offset start first second : Nat} {content : Nat → UInt8}
    (front : Wrote context clusters offset (window content start first) I J)
    (back : Wrote context clusters (offset + first) (window content (start + first) second) J I') :
    Wrote context clusters offset (window content start (first + second)) I I' := by
  have whole := Bytes.window_add content start first second
  have fits : first ≤ (window content start (first + second)).length := by
    rw [window_length]
    omega
  refine Wrote.append fits (J := J) ?_ ?_
  · rw [whole, List.take_left' (window_length content start first)]
    exact front
  · rw [whole, List.drop_left' (window_length content start first)]
    exact back

theorem does_sector (valid : context.validCluster cluster = true) (nodup : clusters.Nodup)
    {k index : Nat} (here : clusters[k]? = some cluster) (below : index < context.sectorsPerCluster)
    {sector : List UInt8} (whole : sector.length = context.sectorSize) :
    Does context (blockDeviceWrite (context.clusterLba cluster + index) sector) I fun _ I' =>
      Wrote context clusters (k * context.clusterSize + index * context.sectorSize) sector I I' := by
  intro medium pictured
  have room := Geometry.sector_end below
  have positive := regular.clusterSize_pos
  have sectorPositive := regular.sector
  have inside : index * context.sectorSize < context.clusterSize := by omega
  have quotient : (k * context.clusterSize + index * context.sectorSize) / context.clusterSize = k := by
    rw [Nat.mul_comm k, Nat.mul_add_div positive, Nat.div_eq_of_lt inside, Nat.add_zero]
  have remainder : (k * context.clusterSize + index * context.sectorSize) % context.clusterSize =
      index * context.sectorSize := by
    rw [Nat.mul_comm k, Nat.mul_add_mod, Nat.mod_eq_of_lt inside]
  have wrote := pictured.write regular valid below (show 0 + sector.length ≤ context.sectorSize by omega)
  have replaced : put (medium (context.clusterLba cluster + index)) 0 sector = sector := by
    rw [put, Nat.zero_add, List.take_zero, List.nil_append, List.drop_eq_nil_of_le, List.append_nil]
    rw [pictured.sized, whole]
  rw [replaced, Nat.add_zero] at wrote
  have ofCluster : Wrote context clusters (k * context.clusterSize + index * context.sectorSize)
      sector I (I.write cluster (index * context.sectorSize) sector) := by
    have write : Wrote context clusters (k * context.clusterSize + index * context.sectorSize) sector
        I (I.write cluster ((k * context.clusterSize + index * context.sectorSize) %
          context.clusterSize) sector) :=
      .ofCluster nodup (by rw [quotient]; exact here) (by rw [remainder]; omega)
    rwa [remainder] at write
  intro size s sectored answered same value success
  obtain ⟨I', pictured', equal⟩ :=
    doesAt_blockDeviceWrite wrote s sectored answered same value success
  subst equal
  exact ⟨_, pictured', ofCluster⟩

omit regular in
theorem window_zero (offset size : Nat) : window (fun _ => 0) offset size = List.replicate size 0 := by
  rw [window, List.map_const', List.length_range]

theorem does_zeroCluster_from (valid : context.validCluster cluster = true) {count : Nat} :
    ∀ {index : Nat} {I : Image}, index + count ≤ context.sectorsPerCluster →
      Does context (zeroCluster context cluster (List.range' index count)) I fun _ I' =>
        Wrote context [cluster] (index * context.sectorSize)
          (window (fun _ => 0) 0 (count * context.sectorSize)) I I' := by
  induction count with
  | zero =>
    intro index I _
    rw [Nat.zero_mul]
    exact does_pure (.nothing I _)
  | succ count ih =>
    intro index I room
    have below : index < context.sectorsPerCluster := by omega
    have total : (count + 1) * context.sectorSize =
        context.sectorSize + count * context.sectorSize := by
      rw [Nat.succ_mul, Nat.add_comm]
    rw [List.range'_succ]
    unfold zeroCluster
    rw [← window_zero 0]
    refine does_bind (does_sector (k := 0) regular valid (List.nodup_singleton cluster) rfl below
      (window_length _ _ _)) fun _ J front => ?_
    refine does_mono (ih (by omega)) fun _ I' back => ?_
    rw [Nat.zero_mul, Nat.zero_add] at front
    rw [Nat.succ_mul] at back
    rw [total]
    refine front.window_add ?_
    rw [window_zero] at back ⊢
    exact back

theorem does_zeroCluster (valid : context.validCluster cluster = true) :
    Does context (zeroCluster context cluster (List.range context.sectorsPerCluster)) I
      fun _ I' => Wrote context [cluster] 0 (List.replicate context.clusterSize 0) I I' := by
  have size : context.sectorsPerCluster * context.sectorSize = context.clusterSize :=
    Nat.mul_comm _ _
  have all := does_zeroCluster_from regular valid (I := I) (Nat.zero_add _).le
  rw [size, window_zero, Nat.zero_mul] at all
  rw [List.range_eq_range']
  exact all

end Bits

end AsasOs.ExFat
