import AsasOs.Fat32.Accounting

/-!
# FAT32: the copies of the table

A mount makes the copies of the table equal to the first, and an entry that is set is set in
all of them. So they stay equal, unless the entry set is none of the table: then the copies
are written at places that belong to others.

## Main results

- `verified_mirrored`: after the reconciliation every copy is the first.
- `setEntry_mirrored`: an entry of the table is set in all copies.
- `mirrors_identical`: the copies stay equal over calls.
- `stray_link_splits`: a call that sets an entry behind the table.
-/
namespace AsasOs.Fat32

open Block Bytes Prog

/-! ### The sectors of the copies -/

namespace Context

variable (context : Context)

def tableLba (copy index : Nat) : Nat := context.fatStart + copy * context.bpb.sectorsPerFat + index

/-- The copies are equal sector for sector. -/
def Mirrored (medium : Nat → List UInt8) : Prop :=
  ∀ copy < context.bpb.fatCount, ∀ index < context.bpb.sectorsPerFat,
    medium (context.tableLba copy index) = medium (context.tableLba 0 index)

def entryBytes (medium : Nat → List UInt8) (copy cluster : Nat) : List UInt8 :=
  slice (medium (context.tableLba copy (fatSectorOf context cluster))) (fatOffsetOf context cluster) 4

/-- The copies are equal over the entries of the clusters of the volume. -/
def MirrorsAgree (medium : Nat → List UInt8) : Prop :=
  ∀ copy < context.bpb.fatCount, ∀ cluster, context.dataClusterValid cluster = true →
    context.entryBytes medium copy cluster = context.entryBytes medium 0 cluster

variable {context} {copy other index index' : Nat}

theorem tableLba_inj (inside : index < context.bpb.sectorsPerFat)
    (inside' : index' < context.bpb.sectorsPerFat)
    (same : context.tableLba copy index = context.tableLba other index') : copy = other ∧
    index = index' := by
  unfold tableLba at same
  rcases Nat.lt_trichotomy copy other with before | rfl | behind
  · have more := Nat.mul_le_mul_right context.bpb.sectorsPerFat (Nat.succ_le_of_lt before)
    rw [Nat.succ_mul] at more
    omega
  · exact ⟨rfl, by omega⟩
  · have more := Nat.mul_le_mul_right context.bpb.sectorsPerFat (Nat.succ_le_of_lt behind)
    rw [Nat.succ_mul] at more
    omega

theorem Sized.tableLba_lt (sized : context.Sized) (below : copy < context.bpb.fatCount)
    (inside : index < context.bpb.sectorsPerFat) : context.tableLba copy index < context.dataStart := by
  have more := Nat.mul_le_mul_right context.bpb.sectorsPerFat (Nat.succ_le_of_lt below)
  rw [Nat.succ_mul] at more
  rw [sized.dataStart_eq]
  unfold tableLba
  omega

theorem Sized.chunkLba_eq (sized : context.Sized) (below : copy < context.bpb.fatCount) {chunk : Nat}
    (inside : chunk * 8 < context.bpb.sectorsPerFat) :
    chunkLba context copy chunk = context.tableLba copy (chunk * 8) := by
  have copies := sized.copies_le below.le
  have reserved := sized.reserved
  have fat := sized.fat
  unfold chunkLba tableLba fatStart
  omega

theorem Mirrored.agree (wf : context.WellFormed) {medium : Nat → List UInt8}
    (mirrored : context.Mirrored medium) :
    context.MirrorsAgree medium := by
  intro copy below cluster valid
  rw [entryBytes, entryBytes, mirrored copy below _ (wf.sector_lt valid)]

end Context

/-! ### The reconciliation -/

section Verify

variable {context : Context} {copy other index : Nat} {v w : Volume}

theorem repairChunk_table (sized : context.Sized) (below : copy < context.bpb.fatCount) {chunk : Nat}
    (chunked : chunk * 8 < context.bpb.sectorsPerFat) (inside : index < context.bpb.sectorsPerFat) :
    (repairChunk context copy chunk v).medium (context.tableLba other index) =
      if other = copy ∧ index / 8 = chunk then v.medium (context.tableLba 0 index)
      else v.medium (context.tableLba other index) := by
  simp only [repairChunk]
  rw [sized.chunkLba_eq below chunked, sized.chunkLba_eq (by omega) chunked]
  by_cases here : other = copy ∧ index / 8 = chunk
  · obtain ⟨rfl, rfl⟩ := here
    rw [if_pos (by unfold Context.tableLba chunkSize; omega), if_pos ⟨rfl, rfl⟩]
    congr 1
    unfold Context.tableLba
    omega
  · rw [if_neg (c := other = copy ∧ _) here, if_neg]
    rintro ⟨low, high⟩
    -- A sector in the chunk is one of this copy.
    obtain ⟨k, bound, same⟩ : ∃ k < chunkSize context chunk,
        context.tableLba other index = context.tableLba copy (chunk * 8 + k) := by
      refine ⟨context.tableLba other index - context.tableLba copy (chunk * 8), by omega, ?_⟩
      unfold Context.tableLba at low ⊢
      omega
    unfold chunkSize at bound
    obtain ⟨rfl, rfl⟩ := Context.tableLba_inj inside (by omega) same
    exact here ⟨rfl, by omega⟩

theorem verifyChunks_table (sized : context.Sized) (below : copy < context.bpb.fatCount)
    (mirror : copy ≠ 0)
    {chunks : List Nat} (chunked : ∀ chunk ∈ chunks, chunk * 8 < context.bpb.sectorsPerFat)
    (verified : runCode context.device (verifyChunks context copy chunks) v = (some (), w))
    (inside : index < context.bpb.sectorsPerFat) :
    w.medium (context.tableLba other index) =
      if other = copy ∧ index / 8 ∈ chunks then v.medium (context.tableLba 0 index)
      else v.medium (context.tableLba other index) := by
  induction chunks generalizing v with
  | nil =>
    cases verified
    simp
  | cons chunk rest ih =>
    rw [verifyChunks_cons] at verified
    split_ifs at verified
    swap
    · cases verified
    have here := chunked chunk List.mem_cons_self
    rw [ih (fun other member => chunked other (List.mem_cons_of_mem _ member)) verified,
      repairChunk_table sized below here inside, repairChunk_table sized below here inside,
      if_neg (fun first : 0 = copy ∧ _ => mirror first.1.symm)]
    simp only [List.mem_cons]
    split_ifs <;> grind

theorem verifyCopies_table (sized : context.Sized) {copies : List Nat}
    (below : ∀ copy ∈ copies, copy < context.bpb.fatCount ∧ copy ≠ 0)
    (verified : runCode context.device (verifyCopies context copies) v = (some (), w))
    (inside : index < context.bpb.sectorsPerFat) :
    w.medium (context.tableLba other index) = if other ∈ copies then v.medium (context.tableLba 0 index)
      else v.medium (context.tableLba other index) := by
  induction copies generalizing v with
  | nil =>
    cases verified
    simp
  | cons copy rest ih =>
    rw [verifyCopies] at verified
    obtain ⟨_, v', first, later⟩ := runCode_bind_eq_some.mp verified
    have chunked : ∀ chunk ∈ List.range ((context.bpb.sectorsPerFat + 7) / 8),
        chunk * 8 < context.bpb.sectorsPerFat := by
      intro chunk member
      have bound := List.mem_range.mp member
      omega
    have covered : index / 8 ∈ List.range ((context.bpb.sectorsPerFat + 7) / 8) :=
      List.mem_range.mpr (by omega)
    obtain ⟨low, mirror⟩ := below copy List.mem_cons_self
    have table (other : Nat) := @verifyChunks_table _ _ other _ _ _ sized low mirror _ chunked first inside
    rw [ih (fun other member => below other (List.mem_cons_of_mem _ member)) later, table, table,
      if_neg (fun first : 0 = copy ∧ _ => mirror first.1.symm)]
    simp only [covered, and_true, List.mem_cons]
    split_ifs <;> grind

theorem verified_mirrored (sized : context.Sized)
    (verified : runCode context.device (fat32VerifyFatCopies context) v = (some (), w)) :
    context.Mirrored w.medium := by
  intro copy below index inside
  rw [fat32VerifyFatCopies] at verified
  split_ifs at verified with few
  · have only : copy = 0 := by omega
    rw [only]
  · obtain ⟨_, v', -, later⟩ := runCode_bind_eq_some.mp verified
    have mirrors : ∀ copy ∈ (List.range (context.bpb.fatCount - 1)).map (· + 1),
        copy < context.bpb.fatCount ∧ copy ≠ 0 := by
      intro copy member
      obtain ⟨before, bound, rfl⟩ := List.mem_map.mp member
      have := List.mem_range.mp bound
      omega
    rw [verifyCopies_table sized mirrors later inside, verifyCopies_table sized mirrors later inside,
      if_neg (fun first : 0 ∈ _ => (mirrors 0 first).2 rfl)]
    split_ifs with mirror
    · rfl
    · have only : copy = 0 := by
        by_contra later
        exact mirror (List.mem_map.mpr ⟨copy - 1, List.mem_range.mpr (by omega), by omega⟩)
      rw [only]

end Verify

/-! ### Setting entries -/

section Entries

variable {context : Context} {v v₀ : Volume} {cluster value : Nat}

theorem setCopies_table (wf : context.WellFormed) (valid : context.dataClusterValid cluster = true)
    {copies : List Nat} (once : copies.Nodup) {copy index : Nat}
    (inside : index < context.bpb.sectorsPerFat) :
    (copies.foldl (Volume.setCopy context cluster value) v).medium (context.tableLba copy index) =
      if copy ∈ copies ∧ index = fatSectorOf context cluster
      then storeEntry (v.medium (context.tableLba copy index)) (fatOffsetOf context cluster) value
      else v.medium (context.tableLba copy index) := by
  induction copies generalizing v with
  | nil => simp
  | cons other rest ih =>
    obtain ⟨absent, once⟩ := List.nodup_cons.mp once
    rw [List.foldl_cons, ih once]
    have here : (v.setCopy context cluster value other).medium (context.tableLba copy index) =
        if copy = other ∧ index = fatSectorOf context cluster
        then storeEntry (v.medium (context.tableLba copy index)) (fatOffsetOf context cluster) value
        else v.medium (context.tableLba copy index) := by
      by_cases same : copy = other ∧ index = fatSectorOf context cluster
      · obtain ⟨rfl, rfl⟩ := same
        rw [if_pos ⟨rfl, rfl⟩]
        exact Volume.write_self ..
      · rw [if_neg same]
        exact Volume.write_other (fun lba => same (Context.tableLba_inj inside (wf.sector_lt valid) lba)) _
    rw [here]
    simp only [List.mem_cons]
    split_ifs <;> grind

theorem setEntry_mirrored (wf : context.WellFormed) (valid : context.dataClusterValid cluster = true)
    (mirrored : context.Mirrored v.medium) :
    context.Mirrored (v.setEntry context cluster value).medium := by
  intro copy below index inside
  have every {copy : Nat} (below : copy < context.bpb.fatCount) : copy ∈ List.range context.bpb.fatCount :=
    List.mem_range.mpr below
  rw [Volume.setEntry, setCopies_table wf valid List.nodup_range inside,
    setCopies_table wf valid List.nodup_range inside, mirrored copy below index inside]
  simp only [every below, every wf.tables, true_and]

/-! ### Calls -/

/-- The copies are equal, and counters that are saved have a sector of their own. -/
structure Context.Kept (context : Context) (v : Volume) : Prop where
  mirrored : context.Mirrored v.medium
  reserved : v.info.fsinfoValid = true → context.hasFsinfo = true

theorem Context.Mirrored.congr (sized : context.Sized) {medium medium' : Nat → List UInt8}
    (same : ∀ lba, context.fatStart ≤ lba → lba < context.dataStart → medium' lba = medium lba)
    (mirrored : context.Mirrored medium) : context.Mirrored medium' := by
  intro copy below index inside
  have table {copy : Nat} (below : copy < context.bpb.fatCount) :
      medium' (context.tableLba copy index) = medium (context.tableLba copy index) :=
    same _ (by unfold Context.tableLba; omega) (sized.tableLba_lt below inside)
  rw [table below, table (by omega), mirrored copy below index inside]

theorem InfoStep.valid {info info' : Info} (step : InfoStep context info info') :
    info'.fsinfoValid = info.fsinfoValid := by
  cases step with
  | exhaust =>
    unfold Info.exhaust
    split_ifs <;> rfl
  | _ => rfl

theorem kept_linking (wf : context.WellFormed) :
    Linking context (serve context.device) context.Kept (fun cluster => context.dataClusterValid cluster = true) where
  base := by
    refine ⟨fun op v quiet kept => ?_, fun lba sector v behind kept => ?_⟩
    · cases op <;> first | exact ⟨kept.mirrored, kept.reserved⟩ | exact quiet.elim
    · simp only [serve]
      split_ifs
      · refine ⟨kept.mirrored.congr wf.toSized fun other _ table => ?_, kept.reserved⟩
        exact Volume.write_other (by omega) _
      · exact kept
  valid := fun _ valid => valid
  set := by
    intro cluster value valid v kept
    refine ⟨?_, fun _ _ => trivial⟩
    change context.Kept (runCode context.device (fat32SetCluster context cluster value) v).2
    cases writes : writable context.device with
    | false => rwa [setCluster_refused wf valid writes]
    | true =>
      rw [setCluster_run wf valid writes]
      exact ⟨setEntry_mirrored wf valid kept.mirrored, by rw [Volume.setEntry_info]; exact kept.reserved⟩
  info := fun v info kept step => ⟨kept.mirrored, fun valid => kept.reserved (step.valid.symm.trans valid)⟩

theorem kept_sync (wf : context.WellFormed) (kept : context.Kept v) :
    context.Kept (Call.sync.after context v) := by
  cases valid : v.info.fsinfoValid with
  | false =>
    have idle : Call.sync.after context v = v := by
      change (runCode context.device (if (v.info.fsinfoValid && v.info.fsinfoDirty) = true then _ else _) v).2 = v
      rw [valid]
      rfl
    rwa [idle]
  | true =>
    have has := kept.reserved valid
    have primary := (Context.hasFsinfo_iff.mp has).2
    rw [after_sync wf.toSized wf.some_ has valid]
    split_ifs
    · refine ⟨kept.mirrored.congr wf.toSized fun lba table _ => saved_other ?_ fun backup => ?_, fun _ => has⟩
      · unfold Context.fatStart at table
        omega
      · have there := (Context.hasBackup_iff.mp backup).2
        unfold Context.fatStart at table
        omega
    · exact kept

theorem kept_calls (wf : context.WellFormed) {calls : List Call} (kept : context.Kept v)
    (grounded : GroundedCalls context calls v) : context.Kept (afterCalls context calls v) := by
  induction calls generalizing v with
  | nil => exact kept
  | cons call rest ih =>
    refine ih (v := call.after context v) ?_ grounded.2
    by_cases sync : call = .sync
    · subst sync
      exact kept_sync wf kept
    · exact keeps_call ((kept_linking wf).steady wf.toSized) wf.toSized sync kept grounded.1

theorem mount_kept {device : Device}
    (mounted : runCode device (fat32InitializeContext device) v = (some context, v₀))
    (wf : context.WellFormed) : context.Kept v₀ := by
  obtain ⟨first, same, accepted⟩ := mounted_context mounted
  subst same
  obtain ⟨v', -, ⟨-, verified, ran⟩ | ⟨-, ran⟩⟩ := initializeContext_run first accepted wf.toSized
  all_goals rw [ran] at mounted; cases mounted
  have mirrored := verified_mirrored wf.toSized verified
  refine ⟨mirrored, fun loaded => ?_⟩
  by_contra none_
  rw [Context.mountedInfo, Bool.not_eq_true _ |>.mp none_] at loaded
  cases loaded

/-- After a mount and any calls that make entries only in directories that start at clusters of
the volume, the copies of the table are equal over the entries of its clusters. -/
theorem mirrors_identical {device : Device} {calls : List Call}
    (mounted : runCode device (fat32InitializeContext device) v = (some context, v₀))
    (wf : context.WellFormed) (grounded : GroundedCalls context calls v₀) :
    context.MirrorsAgree (afterCalls context calls v₀).medium :=
  (kept_calls wf (mount_kept mounted wf) grounded).mirrored.agree wf

end Entries

/-! ### A link behind the table -/

/-- The small volume with a directory D whose first cluster is behind the table. -/
def splitDevice : Volume :=
  (smallDevice smallFsinfo smallFsinfo).write 34 (put (List.replicate 512 0) 0
    (put (newEntry FAT32_ATTR_DIRECTORY 133 0) 0 (0x44 :: List.replicate 10 0x20)))

/-- The cluster that D gets is linked from entry 5 of the second copy only. -/
theorem stray_link_splits :
    (runCode smallDisk (fat32InitializeContext smallDisk) splitDevice).1 = some smallVolume ∧
      smallVolume.dataClusterValid 5 = true ∧
      (runCode smallDisk (strayWrite.code smallVolume) (mountedVolume splitDevice)).1 = some () ∧
      smallVolume.entryBytes (strayWrite.after smallVolume (mountedVolume splitDevice)).medium 0 5 =
      [0, 0, 0, 0] ∧
      smallVolume.entryBytes (strayWrite.after smallVolume (mountedVolume splitDevice)).medium 1 5 =
      [3, 0, 0, 0] := by
  decide +kernel

theorem mirrors_identical_small : smallVolume.MirrorsAgree (afterCalls smallVolume [smallWrite]
      (mountedVolume (smallDevice smallFsinfo smallFsinfo))).medium := by
  exact mirrors_identical smallDevice_mounted smallVolume_wellFormed smallWrite_grounded

end AsasOs.Fat32
