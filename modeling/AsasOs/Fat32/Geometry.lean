import AsasOs.Fat32.Persistence

/-!
# FAT32: the geometry that a mount accepts

The fields of a boot sector against the places that the driver computes from them. A mount
asks for a known sector size and for clusters; it does not ask that the table has an entry
for each of them.
-/
namespace AsasOs.Fat32

open Block Bytes Prog

/-! ### Accesses -/

/-- The call reads or writes a sector with this property. -/
def Fat32Op.OnSector (P : Nat → Prop) : Fat32Op → Prop
  | .read lba | .readLink lba | .write lba _ => P lba
  | _ => False

section Accesses

variable {context : Context} {cluster value : Nat} {P : Nat → Prop}

/-- `fat32_next_cluster` makes one call: it reads a sector of the first copy of the table. -/
theorem nextCluster_accesses : Uses (Fat32Op.OnSector P) (fat32NextCluster context cluster) ↔
    P ((context.fatStart + fatSectorOf context cluster) % 2 ^ 32) := by
  constructor
  · exact fun uses => uses.1
  · refine fun here => uses_bind (uses_perform here) fun sec => ?_
    cases sec with
    | none => exact uses_pure _
    | some sec => exact uses_pure _

/-- The loop of `fat32_set_cluster` over some copies of the table reads a sector of the first one,
and if it never fails it reads and writes one sector of each. -/
theorem setCopies_accesses {copies : List Nat} :
    Uses (Fat32Op.OnSector P) (setCopies context cluster value copies).run ↔
      ∀ copy ∈ copies, P ((context.fatStart + copy * context.bpb.sectorsPerFat +
        fatSectorOf context cluster) % 2 ^ 32) := by
  induction copies with
  | nil => exact iff_of_true uses_some (by simp)
  | cons copy rest ih =>
    rw [List.forall_mem_cons, ← ih]
    constructor
    · intro uses
      -- the sector is read, then it is written, then the loop goes on
      exact ⟨uses.1, (uses.2 (some [])).2 true⟩
    · rintro ⟨here, later⟩
      refine uses_fallible_bind (uses_perform here) fun sec => ?_
      refine uses_fallible_bind ?_ fun _ => later
      exact uses_fallible_bind (uses_lift (uses_perform here)) fun _ => uses_guard

/-- `fat32_set_cluster` reads and writes one sector of each copy of the table. -/
theorem setCluster_accesses : Uses (Fat32Op.OnSector P) (fat32SetCluster context cluster value).run ↔
    ∀ copy < context.bpb.fatCount, P ((context.fatStart + copy * context.bpb.sectorsPerFat +
      fatSectorOf context cluster) % 2 ^ 32) := by
  unfold fat32SetCluster
  simp only [setCopies_accesses, List.mem_range]

end Accesses

/-! ### Places -/

namespace Context

/-- The sector with the entry of a cluster in a copy of the table, and it is one of the sectors
of that copy. -/
def EntryPlace (context : Context) (copy cluster lba : Nat) : Prop :=
  lba = context.fatStart + copy * context.bpb.sectorsPerFat + cluster * 4 / context.sectorSize ∧
    cluster * 4 / context.sectorSize < context.bpb.sectorsPerFat

/-- The driver works on its clusters at the places that are meant: nothing wraps, there is a
table, an entry is accessed in its copy of the table and inside one sector, and every cluster
lies behind the tables and inside the volume. -/
structure GeometrySafe (context : Context) : Prop where
  tables : context.dataStart = context.fatStart + context.bpb.fatCount * context.bpb.sectorsPerFat
  clusters : context.maxCluster =
    2 + (context.totalSectors - context.dataStart) / context.bpb.sectorsPerCluster
  some_ : 0 < context.bpb.fatCount
  offset : ∀ cluster, context.dataClusterValid cluster = true →
    fatOffsetOf context cluster = cluster * 4 % context.sectorSize ∧
      fatOffsetOf context cluster + 4 ≤ context.sectorSize
  next : ∀ cluster, context.dataClusterValid cluster = true →
    Uses (Fat32Op.OnSector (context.EntryPlace 0 cluster)) (fat32NextCluster context cluster)
  set : ∀ cluster value, context.dataClusterValid cluster = true →
    Uses (Fat32Op.OnSector fun lba => ∃ copy < context.bpb.fatCount, context.EntryPlace copy cluster lba)
      (fat32SetCluster context cluster value).run
  /-- the round of the loop for one copy stays in this copy -/
  round : ∀ cluster value, context.dataClusterValid cluster = true → ∀ copy < context.bpb.fatCount,
    Uses (Fat32Op.OnSector (context.EntryPlace copy cluster))
      (setCopies context cluster value [copy]).run
  data : ∀ cluster, context.dataClusterValid cluster = true →
    context.clusterToLba cluster = context.dataStart + (cluster - 2) * context.bpb.sectorsPerCluster ∧
      context.fatStart + context.bpb.fatCount * context.bpb.sectorsPerFat ≤ context.clusterToLba cluster ∧
      context.clusterToLba cluster + context.bpb.sectorsPerCluster ≤ context.totalSectors

/-- There is a table, the tables end before sector 2 ^ 32, and a table has an entry for every
cluster, none of them behind its first four gigabytes. -/
structure TablesFit (context : Context) : Prop where
  some_ : 0 < context.bpb.fatCount
  small : context.fatStart + context.bpb.fatCount * context.bpb.sectorsPerFat < 2 ^ 32
  few : context.maxCluster ≤ 2 ^ 30
  room : context.maxCluster * 4 ≤ context.bpb.sectorsPerFat * context.sectorSize

end Context

/-! ### What a mount accepts -/

/-- What the checks of a mount say of the fields, whatever they are. -/
structure Context.Accepted (context : Context) : Prop where
  blocks : context.sectorSize % 512 = 0
  sector : 0 < context.sectorSize
  cluster : 0 < context.bpb.sectorsPerCluster
  some_ : 2 < context.maxCluster
  total : context.totalSectors < 2 ^ 32

section Accepted

variable {context : Context} {device : Device} {v v₀ : Volume} {cluster : Nat}

theorem accepted_of_mounted
    (mounted : runCode device (fat32InitializeContext device) v = (some context, v₀)) :
    context.Accepted := by
  obtain ⟨-, same, accepted⟩ := mounted_context mounted
  have some_ := Context.accepted_maxCluster accepted
  have size := Context.sectorSize_eq accepted
  have positive : context.bpb.sectorsPerCluster ≠ 0 := by
    intro none_
    unfold Context.maxCluster at some_
    rw [if_pos (.inr none_)] at some_
    exact lt_irrefl _ some_
  have total : context.totalSectors < 2 ^ 32 := by
    subst same
    exact Context.totalSectors_lt (getLE_lt_pow _ 19 2) (getLE_lt_pow _ 32 4)
  simp only [Context.accepted, Bool.and_eq_true, Bool.or_eq_true, beq_iff_eq] at accepted
  refine ⟨?_, ?_, Nat.pos_of_ne_zero positive, some_, total⟩ <;> omega

namespace Context.Accepted

variable (accepted : context.Accepted)

include accepted

theorem maxCluster_eq : context.maxCluster =
    2 + (context.totalSectors - context.dataStart) / context.bpb.sectorsPerCluster := by
  have some_ := accepted.some_
  have total := accepted.total
  have fewer := Nat.div_le_self (context.totalSectors - context.dataStart) context.bpb.sectorsPerCluster
  unfold Context.maxCluster at some_ ⊢
  split_ifs at some_ ⊢
  · omega
  · generalize (context.totalSectors - context.dataStart) / context.bpb.sectorsPerCluster = count at *
    omega

theorem last_valid : context.dataClusterValid (context.maxCluster - 1) = true := by
  have some_ := accepted.some_
  exact Context.dataClusterValid_iff.mpr ⟨by omega, by omega⟩

theorem sector_four : context.sectorSize % 4 = 0 := by
  have blocks := accepted.blocks
  omega

theorem entry_room (index tables : Nat) :
    index * 4 / context.sectorSize < tables ↔ (index + 1) * 4 ≤ tables * context.sectorSize := by
  rw [Nat.div_lt_iff_lt_mul accepted.sector]
  have four := accepted.sector_four
  have whole : tables * context.sectorSize % 4 = 0 := by
    rw [Nat.mul_mod, four, Nat.mul_zero, Nat.zero_mod]
  omega

theorem offset_le (small : cluster * 4 < 2 ^ 32) :
    fatOffsetOf context cluster + 4 ≤ context.sectorSize := by
  have below := Nat.mod_lt (cluster * 4) accepted.sector
  have four := accepted.sector_four
  have split := Nat.mod_mod_of_dvd (cluster * 4) (Nat.dvd_of_mod_eq_zero four)
  rw [fatOffsetOf, Nat.mod_eq_of_lt small]
  omega

/-- With tables that fit, the sectors that are computed are those that are meant. -/
theorem entryPlace (fit : context.TablesFit) (valid : context.dataClusterValid cluster = true)
    {copy : Nat} (below : copy < context.bpb.fatCount) :
    context.EntryPlace copy cluster ((context.fatStart + copy * context.bpb.sectorsPerFat +
      fatSectorOf context cluster) % 2 ^ 32) := by
  obtain ⟨_, small, few, room⟩ := fit
  obtain ⟨-, high⟩ := Context.dataClusterValid_iff.mp valid
  have wraps : cluster * 4 < 2 ^ 32 := by omega
  have inside : cluster * 4 / context.sectorSize < context.bpb.sectorsPerFat :=
    (accepted.entry_room cluster _).mpr (by omega)
  have before : (copy + 1) * context.bpb.sectorsPerFat ≤
      context.bpb.fatCount * context.bpb.sectorsPerFat := Nat.mul_le_mul_right _ below
  rw [Nat.succ_mul] at before
  refine ⟨?_, inside⟩
  rw [fatSectorOf, Nat.mod_eq_of_lt wraps]
  exact Nat.mod_eq_of_lt (by omega)

theorem geometrySafe (fit : context.TablesFit) : context.GeometrySafe where
  tables := Nat.mod_eq_of_lt fit.small
  clusters := accepted.maxCluster_eq
  some_ := fit.some_
  offset := by
    intro cluster valid
    obtain ⟨-, high⟩ := Context.dataClusterValid_iff.mp valid
    have few := fit.few
    have wraps : cluster * 4 < 2 ^ 32 := by omega
    refine ⟨?_, accepted.offset_le wraps⟩
    rw [fatOffsetOf, Nat.mod_eq_of_lt wraps]
  next := by
    intro cluster valid
    have place := accepted.entryPlace fit valid fit.some_
    rw [Nat.zero_mul, Nat.add_zero] at place
    exact nextCluster_accesses.mpr place
  set := by
    intro cluster value valid
    exact setCluster_accesses.mpr fun copy below => ⟨copy, below, accepted.entryPlace fit valid below⟩
  round := by
    intro cluster value valid copy below
    refine setCopies_accesses.mpr ?_
    rintro _ (_ | ⟨_, ⟨⟩⟩)
    exact accepted.entryPlace fit valid below
  data := by
    intro cluster valid
    have place := Context.clusterToLba_eq accepted.cluster valid accepted.total
    have end_ := Context.cluster_end accepted.cluster valid
    have tables : context.dataStart =
        context.fatStart + context.bpb.fatCount * context.bpb.sectorsPerFat := Nat.mod_eq_of_lt fit.small
    refine ⟨place, ?_, ?_⟩ <;> omega

omit accepted in
/-- The sector and the offset of an entry are those that are meant only if its byte address in
the table has 32 bits. -/
theorem unwrapped (here : (context.fatStart + fatSectorOf context cluster) % 2 ^ 32 =
      context.fatStart + cluster * 4 / context.sectorSize)
    (offset : fatOffsetOf context cluster = cluster * 4 % context.sectorSize) :
    cluster * 4 < 2 ^ 32 := by
  have lower : cluster * 4 % 2 ^ 32 / context.sectorSize ≤ cluster * 4 / context.sectorSize :=
    Nat.div_le_div_right (Nat.mod_le _ _)
  have wrapped := Nat.mod_le (context.fatStart + cluster * 4 % 2 ^ 32 / context.sectorSize) (2 ^ 32)
  have whole := Nat.div_add_mod (cluster * 4) context.sectorSize
  have part := Nat.div_add_mod (cluster * 4 % 2 ^ 32) context.sectorSize
  unfold fatSectorOf at here
  unfold fatOffsetOf at offset
  have sector : cluster * 4 % 2 ^ 32 / context.sectorSize = cluster * 4 / context.sectorSize := by omega
  rw [sector, offset, whole] at part
  rw [part]
  exact Nat.mod_lt _ (by decide)

theorem tablesFit (safe : context.GeometrySafe) : context.TablesFit := by
  have start : context.dataStart < 2 ^ 32 := Nat.mod_lt _ (by decide)
  have last := accepted.last_valid
  obtain ⟨here, inside⟩ := nextCluster_accesses.mp (safe.next _ last)
  rw [Nat.zero_mul, Nat.add_zero] at here
  have wraps := unwrapped here (safe.offset _ last).1
  have more := accepted.some_
  have room := (accepted.entry_room _ _).mp inside
  have count : context.maxCluster - 1 + 1 = context.maxCluster := by omega
  rw [count] at room
  refine ⟨safe.some_, safe.tables ▸ start, by omega, room⟩

end Context.Accepted

/-- The geometry of a volume that is mounted is safe if and only if its tables fit. -/
theorem geometry_safe_iff
    (mounted : runCode device (fat32InitializeContext device) v = (some context, v₀)) :
    context.GeometrySafe ↔ context.TablesFit :=
  have accepted := accepted_of_mounted mounted
  ⟨accepted.tablesFit, accepted.geometrySafe⟩

end Accepted

/-! ### A table that is too short -/

def largerDisk : Device := { smallDisk with blockCount := 1000 }

/-- The boot sector of the small volume, for 1000 sectors: a table of one sector has 128
entries. -/
def shortBoot : List UInt8 := putLE smallBoot 32 4 1000

/-- The rest of the disk is empty. -/
def shortDevice : Volume where
  medium := fun lba => if lba = 0 then shortBoot else List.replicate 512 0
  info := noFsinfo
  clock := []

/-- The volume is mounted with 966 clusters, and for cluster 200 the second copy of the table is
read, where the first copy would have to be. -/
theorem short_table_mounted : (runCode largerDisk (fat32InitializeContext largerDisk) shortDevice).1 =
        some ⟨largerDisk, { smallVolume.bpb with totalSectors32 := 1000 }⟩ ∧
      (⟨largerDisk, { smallVolume.bpb with totalSectors32 := 1000 }⟩ : Context).dataClusterValid 200 = true ∧
      Uses (Fat32Op.OnSector (· = 33))
        (fat32NextCluster ⟨largerDisk, { smallVolume.bpb with totalSectors32 := 1000 }⟩ 200) ∧
      ¬(⟨largerDisk, { smallVolume.bpb with totalSectors32 := 1000 }⟩ : Context).GeometrySafe := by
  have valid : (⟨largerDisk, { smallVolume.bpb with totalSectors32 := 1000 }⟩ : Context).dataClusterValid
    200 = true := by decide
  refine ⟨by decide +kernel, valid, nextCluster_accesses.mpr (by decide), fun safe => ?_⟩
  have inside := (nextCluster_accesses.mp (safe.next 200 valid)).2
  revert inside
  decide

/-- The geometry of the small volume is safe. -/
theorem geometry_safe_small : smallVolume.GeometrySafe ↔ smallVolume.TablesFit := by
  exact geometry_safe_iff smallDevice_mounted

end AsasOs.Fat32
