import AsasOs.ExFat.Machine

/-!
# exFAT: the image of a volume

What the code sees of a medium on which nothing fails: the boot sectors, the entries of
the allocation table and the bytes of the clusters. Code that reads has a result that
the image determines, and code that writes has an effect on the image; both are said
here for the code that touches single sectors.
-/
namespace AsasOs.ExFat

open Block Bytes Prog

/-! ### The regions of a volume -/

/-- The regions of a volume lie one behind the other, and the allocation table has an
entry for every cluster. -/
structure Geometry.Regular (g : Geometry) : Prop where
  boot : 24 ≤ g.fatOffset
  fat : g.fatOffset + g.fatLength ≤ g.clusterHeapOffset
  covers : (g.clusterCount + 2) * 4 ≤ g.fatLength * g.sectorSize
  heap : g.clusterHeapOffset + g.clusterCount * g.sectorsPerCluster ≤ g.volumeLength
  few : g.clusterCount + 2 ≤ EXFAT_BAD_CLUSTER
  sector : 512 ≤ g.sectorSize
  aligned : 32 ∣ g.sectorSize
  cluster : 0 < g.sectorsPerCluster

namespace Geometry

variable {g : Geometry} {cluster other : Nat}

theorem validCluster_iff : g.validCluster cluster = true ↔ 2 ≤ cluster ∧
    cluster - 2 < g.clusterCount := by
  simp [validCluster]

theorem Regular.valid_small (regular : g.Regular) (valid : g.validCluster cluster = true) :
    cluster < EXFAT_BAD_CLUSTER := by
  have bounds := validCluster_iff.mp valid
  have few := regular.few
  omega

theorem Regular.clusterSize_pos (regular : g.Regular) : 0 < g.clusterSize := by
  have sector := regular.sector
  exact Nat.mul_pos (by omega) regular.cluster

theorem sector_end {index : Nat} (below : index < g.sectorsPerCluster) :
    index * g.sectorSize + g.sectorSize ≤ g.clusterSize := by
  have room := Nat.mul_le_mul_right g.sectorSize below
  rw [Nat.succ_mul, Nat.mul_comm g.sectorsPerCluster] at room
  exact room

theorem Regular.fat_inside (regular : g.Regular) (valid : g.validCluster cluster = true) :
    cluster * 4 / g.sectorSize < g.fatLength := by
  have bounds := validCluster_iff.mp valid
  have covers := regular.covers
  have sector := regular.sector
  refine Nat.div_lt_of_lt_mul ?_
  rw [Nat.mul_comm g.sectorSize]
  omega

theorem Regular.fat_lba (regular : g.Regular) (valid : g.validCluster cluster = true) :
    g.fatOffset + cluster * 4 / g.sectorSize < g.clusterHeapOffset := by
  have inside := regular.fat_inside valid
  have fat := regular.fat
  omega

theorem Regular.fat_whole (regular : g.Regular) (cluster : Nat) :
    cluster * 4 % g.sectorSize + 4 ≤ g.sectorSize ∧ 4 ∣ cluster * 4 % g.sectorSize := by
  obtain ⟨k, size⟩ := regular.aligned
  have sector := regular.sector
  have below : cluster * 4 % g.sectorSize < g.sectorSize := Nat.mod_lt _ (by omega)
  have quad : 4 ∣ cluster * 4 % g.sectorSize := by
    refine (Nat.dvd_mod_iff ?_).mpr ⟨cluster, Nat.mul_comm _ _⟩
    exact ⟨8 * k, by omega⟩
  obtain ⟨q, here⟩ := quad
  exact ⟨by omega, q, here⟩

theorem Regular.clusterLba_inside (regular : g.Regular) (valid : g.validCluster cluster = true)
    {index : Nat} (below : index < g.sectorsPerCluster) :
    g.clusterLba cluster + index < g.volumeLength := by
  have bounds := validCluster_iff.mp valid
  have heap := regular.heap
  have room : (cluster - 2 + 1) * g.sectorsPerCluster ≤ g.clusterCount * g.sectorsPerCluster :=
    Nat.mul_le_mul_right _ bounds.2
  rw [Nat.succ_mul] at room
  rw [clusterLba]
  omega

theorem clusterLba_inj (valid : g.validCluster cluster = true)
    (valid' : g.validCluster other = true) {index index' : Nat}
    (below : index < g.sectorsPerCluster) (below' : index' < g.sectorsPerCluster)
    (same : g.clusterLba cluster + index = g.clusterLba other + index') :
    cluster = other ∧ index = index' := by
  have bounds := validCluster_iff.mp valid
  have bounds' := validCluster_iff.mp valid'
  simp only [clusterLba] at same
  have split : (cluster - 2) * g.sectorsPerCluster + index =
      (other - 2) * g.sectorsPerCluster + index' := by omega
  have quotient := congrArg (· / g.sectorsPerCluster) split
  simp only [Nat.mul_comm _ g.sectorsPerCluster] at quotient
  rw [Nat.mul_add_div (by omega), Nat.mul_add_div (by omega), Nat.div_eq_of_lt below,
    Nat.div_eq_of_lt below'] at quotient
  have equal : cluster = other := by omega
  subst equal
  exact ⟨rfl, by omega⟩

end Geometry

/-! ### The image -/

/-- The boot sectors, the entries of the allocation table and the bytes of the clusters. -/
structure Image where
  boot : Nat → List UInt8
  fat : Nat → Nat
  data : Nat → Nat → UInt8

section Image

variable (context : Context)

def image (medium : Nat → List UInt8) : Image where
  boot lba := if lba < 24 then medium lba else []
  fat cluster :=
    if context.validCluster cluster then
      getLE (medium (context.fatOffset + cluster * 4 / context.sectorSize))
        (cluster * 4 % context.sectorSize) 4
    else 0
  data cluster i :=
    if context.validCluster cluster ∧ i < context.clusterSize then
      byteAt (medium (context.clusterLba cluster + i / context.sectorSize)) (i % context.sectorSize)
    else 0

structure Pictured (medium : Nat → List UInt8) (I : Image) : Prop where
  sized : ∀ lba, (medium lba).length = context.sectorSize
  image : image context medium = I

variable {context} {medium : Nat → List UInt8} {I : Image} {cluster : Nat}

theorem Pictured.fat (pictured : Pictured context medium I)
    (valid : context.validCluster cluster = true) :
    getLE (medium (context.fatOffset + cluster * 4 / context.sectorSize))
      (cluster * 4 % context.sectorSize) 4 = I.fat cluster := by
  rw [← pictured.image]
  simp only [ExFat.image, if_pos valid]

theorem Pictured.data (pictured : Pictured context medium I)
    (valid : context.validCluster cluster = true) {index inside : Nat}
    (below : index < context.sectorsPerCluster) (within : inside < context.sectorSize) :
    byteAt (medium (context.clusterLba cluster + index)) inside =
      I.data cluster (index * context.sectorSize + inside) := by
  have room := Geometry.sector_end below
  rw [← pictured.image]
  simp only [ExFat.image]
  rw [if_pos ⟨valid, by omega⟩, Nat.mul_comm, Nat.mul_add_div (by omega), Nat.div_eq_of_lt within,
    Nat.mul_add_mod, Nat.mod_eq_of_lt within, Nat.add_zero]

theorem Pictured.slice (pictured : Pictured context medium I)
    (valid : context.validCluster cluster = true) {index inside count : Nat}
    (below : index < context.sectorsPerCluster) (within : inside + count ≤ context.sectorSize) :
    slice (medium (context.clusterLba cluster + index)) inside count =
      window (I.data cluster) (index * context.sectorSize + inside) count := by
  rw [slice_eq_window (by rw [pictured.sized]; exact within)]
  apply List.map_congr_left
  intro i member
  have low := List.mem_range.mp member
  rw [pictured.data valid below (by omega), Nat.add_assoc]

/-! ### The image after a write of one sector -/

/-- An entry of the allocation table is replaced. -/
def Image.setFat (I : Image) (cluster value : Nat) : Image :=
  { I with fat := Function.update I.fat cluster value }

def Image.write (I : Image) (cluster offset : Nat) (bytes : List UInt8) : Image :=
  { I with data := Function.update I.data cluster (patch (I.data cluster) offset bytes) }

theorem Pictured.update (pictured : Pictured context medium I) {lba : Nat} {sector : List UInt8}
    {I' : Image} (whole : sector.length = context.sectorSize)
    (same : ExFat.image context (Function.update medium lba sector) = I') :
    Pictured context (Function.update medium lba sector) I' where
  sized other := by
    by_cases here : other = lba
    · rw [here, Function.update_self, whole]
    · rw [Function.update_of_ne here, pictured.sized]
  image := same

theorem Pictured.setFat (pictured : Pictured context medium I) (regular : context.Regular)
    (valid : context.validCluster cluster = true) (value : Nat) :
    Pictured context (Function.update medium (context.fatOffset + cluster * 4 / context.sectorSize)
        (putLE (medium (context.fatOffset + cluster * 4 / context.sectorSize))
          (cluster * 4 % context.sectorSize) 4 value))
      (I.setFat cluster (value % 2 ^ 32)) := by
  have boot := regular.boot
  have here := regular.fat_whole cluster
  have low := regular.fat_lba valid
  have behind : 24 ≤ context.fatOffset + cluster * 4 / context.sectorSize :=
    boot.trans (Nat.le_add_right _ _)
  have fits : cluster * 4 % context.sectorSize + 4 ≤
      (medium (context.fatOffset + cluster * 4 / context.sectorSize)).length := by
    rw [pictured.sized]
    exact here.1
  refine pictured.update ((putLE_length fits value).trans (pictured.sized _)) ?_
  rw [← pictured.image]
  simp only [ExFat.image, Image.setFat, Image.mk.injEq]
  refine ⟨?_, ?_, ?_⟩
  · funext lba
    split
    · rw [Function.update_of_ne (by omega)]
    · rfl
  · funext other
    by_cases same : other = cluster
    · subst same
      rw [if_pos valid, Function.update_self, Function.update_self, getLE_putLE fits,
        show 256 ^ 4 = 2 ^ 32 from rfl]
    · rw [Function.update_of_ne same]
      split
      · by_cases sector : other * 4 / context.sectorSize = cluster * 4 / context.sectorSize
        · have there := regular.fat_whole other
          have first := Nat.div_add_mod (other * 4) context.sectorSize
          have second := Nat.div_add_mod (cluster * 4) context.sectorSize
          rw [sector] at first
          rw [sector, Function.update_self, putLE,
            getLE_put_other (by omega) (by rw [digits_length]; omega)]
        · rw [Function.update_of_ne (by omega)]
      · rfl
  · funext other i
    split
    · rw [Function.update_of_ne]
      have after : context.clusterHeapOffset ≤ context.clusterLba other + i / context.sectorSize :=
        (Nat.le_add_right _ _).trans (Nat.le_add_right _ _)
      omega
    · rfl

theorem Pictured.write (pictured : Pictured context medium I) (regular : context.Regular)
    (valid : context.validCluster cluster = true) {index inside : Nat} {bytes : List UInt8}
    (below : index < context.sectorsPerCluster)
    (within : inside + bytes.length ≤ context.sectorSize) :
    Pictured context (Function.update medium (context.clusterLba cluster + index)
        (put (medium (context.clusterLba cluster + index)) inside bytes))
      (I.write cluster (index * context.sectorSize + inside) bytes) := by
  have boot := regular.boot
  have fat := regular.fat
  have heap : context.clusterHeapOffset ≤ context.clusterLba cluster := Nat.le_add_right _ _
  have fits : inside + bytes.length ≤ (medium (context.clusterLba cluster + index)).length := by
    rw [pictured.sized]
    exact within
  have size : 0 < context.sectorSize := by
    have sector := regular.sector
    omega
  refine pictured.update ((put_length fits).trans (pictured.sized _)) ?_
  rw [← pictured.image]
  simp only [ExFat.image, Image.write, Image.mk.injEq]
  refine ⟨?_, ?_, ?_⟩
  · funext lba
    split
    · rw [Function.update_of_ne (by omega)]
    · rfl
  · funext other
    split
    · rename_i valid'
      have low := regular.fat_lba valid'
      rw [Function.update_of_ne (by omega)]
    · rfl
  · funext other i
    by_cases same : other = cluster
    · subst same
      rw [Function.update_self]
      by_cases inCluster : i < context.clusterSize
      · have both : context.validCluster other = true ∧ i < context.clusterSize :=
          ⟨valid, inCluster⟩
        simp only [patch, if_pos both]
        have split := Nat.div_add_mod i context.sectorSize
        have low := Nat.mod_lt i size
        rw [Nat.mul_comm] at split
        by_cases sector : i / context.sectorSize = index
        · rw [sector] at split ⊢
          rw [Function.update_self, byteAt_put (by omega)]
          by_cases among : inside ≤ i % context.sectorSize ∧ i % context.sectorSize < inside + bytes.length
          · rw [if_pos among, if_pos (by omega)]
            congr 1
            omega
          · rw [if_neg among, if_neg (by omega)]
        · rw [Function.update_of_ne (by omega)]
          have apart : ¬(index * context.sectorSize + inside ≤ i ∧
              i < index * context.sectorSize + inside + bytes.length) := by
            intro among
            refine sector (Nat.div_eq_of_lt_le (by omega) ?_)
            rw [Nat.succ_mul]
            omega
          rw [if_neg apart]
      · have inside' : index * context.sectorSize + inside + bytes.length ≤ context.clusterSize := by
          have room := Geometry.sector_end below
          omega
        rw [if_neg (fun both => inCluster both.2), patch, if_neg (by omega),
          if_neg (fun both => inCluster both.2)]
    · rw [Function.update_of_ne same]
      split
      · rename_i inCluster
        have sector : i / context.sectorSize < context.sectorsPerCluster := by
          refine Nat.div_lt_of_lt_mul ?_
          exact inCluster.2
        rw [Function.update_of_ne]
        intro equal
        exact same (Geometry.clusterLba_inj inCluster.1 valid sector below equal).1
      · rfl

end Image

end AsasOs.ExFat
