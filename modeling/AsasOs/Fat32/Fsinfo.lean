import AsasOs.Fat32.Calls

/-!
# FAT32: what a mount finds of the counters

A mount loads the counters from the FSInfo sector, or from its backup when the sector is
not signed. `fat32_context_sync` edits the sector and stores what it has edited in both
places, whichever of them the mount took the counters from. So what it saves is found again
where the sector was signed, and where it was not the backup is lost as well.
-/
namespace AsasOs.Fat32

open Block Bytes Prog

/-! ### The repair of the tables -/

section Verify

variable (context : Context)

/-- Where a chunk of a copy of the table is. -/
def chunkLba (fatIndex chunkIndex : Nat) : Nat :=
  (context.fatStart + fatIndex * context.bpb.sectorsPerFat + chunkIndex * 8) % 2 ^ 32

def chunkSize (chunkIndex : Nat) : Nat := min 8 (context.bpb.sectorsPerFat - chunkIndex * 8)

def chunkOf (medium : Nat → List UInt8) (fatIndex chunkIndex : Nat) : List (List UInt8) :=
  (List.range (chunkSize context chunkIndex)).map fun i =>
    medium (chunkLba context fatIndex chunkIndex + i)

/-- A chunk is there, and equal to that of the first copy or can be written. -/
abbrev Repairable (medium : Nat → List UInt8) (fatIndex chunkIndex : Nat) : Prop :=
  requestInBounds context.device (chunkLba context 0 chunkIndex) (chunkSize context chunkIndex) = true ∧
    requestInBounds context.device (chunkLba context fatIndex chunkIndex)
      (chunkSize context chunkIndex) = true ∧
    (chunkOf context medium 0 chunkIndex = chunkOf context medium fatIndex chunkIndex ∨
      writable context.device = true)

/-- The volume with a chunk of a copy taken from the first copy. -/
def repairChunk (fatIndex chunkIndex : Nat) (v : Volume) : Volume :=
  { v with
    medium := fun lba =>
      if chunkLba context fatIndex chunkIndex ≤ lba ∧
          lba < chunkLba context fatIndex chunkIndex + chunkSize context chunkIndex
      then v.medium (chunkLba context 0 chunkIndex + (lba - chunkLba context fatIndex chunkIndex))
      else v.medium lba }

variable {context}

theorem repairChunk_same {fatIndex chunkIndex : Nat} {v : Volume}
    (same : chunkOf context v.medium 0 chunkIndex = chunkOf context v.medium fatIndex chunkIndex) :
    repairChunk context fatIndex chunkIndex v = v := by
  have medium : (repairChunk context fatIndex chunkIndex v).medium = v.medium := by
    funext lba
    by_cases here : chunkLba context fatIndex chunkIndex ≤ lba ∧
        lba < chunkLba context fatIndex chunkIndex + chunkSize context chunkIndex
    · have sectors := List.map_inj_left.mp same (lba - chunkLba context fatIndex chunkIndex)
        (List.mem_range.mpr (by omega))
      refine (if_pos here).trans (sectors.trans (congrArg v.medium ?_))
      omega
    · exact if_neg here
  cases v
  exact congrArg (Volume.mk · _ _) medium

theorem verifyChunks_cons (fatIndex chunkIndex : Nat) (rest : List Nat) (v : Volume) :
    runCode context.device (verifyChunks context fatIndex (chunkIndex :: rest)) v =
      if Repairable context v.medium fatIndex chunkIndex
      then runCode context.device (verifyChunks context fatIndex rest) (repairChunk context fatIndex chunkIndex v)
      else (none, v) := by
  have primary : runCode context.device (OptionT.mk (Prog.perform (Fat32Op.readRun
      ((context.fatStart + chunkIndex * 8) % 2 ^ 32) (chunkSize context chunkIndex)))) v =
      (if requestInBounds context.device (chunkLba context 0 chunkIndex) (chunkSize context chunkIndex)
        then some (chunkOf context v.medium 0 chunkIndex) else none, v) := by
    simp only [chunkLba, chunkOf, Nat.zero_mul, Nat.add_zero]
    rfl
  have mirror : runCode context.device (OptionT.mk (Prog.perform (Fat32Op.readRun
      (chunkLba context fatIndex chunkIndex) (chunkSize context chunkIndex)))) v =
      (if requestInBounds context.device (chunkLba context fatIndex chunkIndex)
          (chunkSize context chunkIndex)
        then some (chunkOf context v.medium fatIndex chunkIndex) else none, v) := rfl
  rw [verifyChunks]
  simp only [Repairable]
  by_cases first : requestInBounds context.device (chunkLba context 0 chunkIndex)
      (chunkSize context chunkIndex) = true
  · by_cases second : requestInBounds context.device (chunkLba context fatIndex chunkIndex)
        (chunkSize context chunkIndex) = true
    · rw [if_pos first] at primary
      rw [if_pos second] at mirror
      simp only [first, second, true_and]
      by_cases same : chunkOf context v.medium 0 chunkIndex = chunkOf context v.medium fatIndex chunkIndex
      · rw [if_pos (.inl same), repairChunk_same same]
        refine (runCode_bind_some primary).trans ((runCode_bind_some mirror).trans ?_)
        simp only [same, ne_eq, not_true_eq_false, if_false]
      · by_cases writes : writable context.device = true
        · have length : (chunkOf context v.medium 0 chunkIndex).length = chunkSize context chunkIndex := by
            simp [chunkOf]
          have written : runCode context.device (attempt (Prog.perform (Fat32Op.writeRun
              (chunkLba context fatIndex chunkIndex) (chunkOf context v.medium 0 chunkIndex)))) v =
              (some (), repairChunk context fatIndex chunkIndex v) := by
            have allowed : (requestInBounds context.device (chunkLba context fatIndex chunkIndex)
                (chunkOf context v.medium 0 chunkIndex).length && writable context.device) = true := by
              rw [length, second, writes]
              rfl
            rw [runCode_attempt, run_perform]
            simp only [serve, if_pos allowed, if_true, repairChunk]
            rw [length]
            refine congrArg (fun medium => (some (), { v with medium := medium })) (funext fun lba => ?_)
            refine if_ctx_congr Iff.rfl (fun here => ?_) fun _ => rfl
            have below : lba - chunkLba context fatIndex chunkIndex < chunkSize context chunkIndex := by omega
            simp [chunkOf, below]
          rw [if_pos (.inr writes)]
          refine (runCode_bind_some primary).trans ((runCode_bind_some mirror).trans ?_)
          simp only [ne_eq, same, not_false_eq_true, if_true]
          rw [runCode_guard, if_pos (by simpa [writable] using writes)]
          exact runCode_bind_some written
        · rw [if_neg (fun either => either.elim same writes)]
          refine (runCode_bind_some primary).trans ((runCode_bind_some mirror).trans ?_)
          simp only [ne_eq, same, not_false_eq_true, if_true]
          rw [runCode_guard, if_neg]
          simpa [writable] using writes
    · rw [if_pos first] at primary
      rw [if_neg second] at mirror
      rw [if_neg (fun repairable => second repairable.2.1)]
      refine (runCode_bind_some primary).trans ?_
      exact runCode_bind_none mirror
  · rw [if_neg first] at primary
    rw [if_neg (fun repairable => first repairable.1)]
    exact runCode_bind_none primary

/-- What repairs change: only a device that can be written, behind the reserved sectors.
They copy sectors that are there. -/
structure Repaired (context : Context) (v v' : Volume) : Prop where
  info : v'.info = v.info
  changes : ∀ lba, v'.medium lba ≠ v.medium lba → writable context.device = true ∧ context.fatStart ≤ lba
  copies : ∀ lba, ∃ source, v'.medium lba = v.medium source

theorem Repaired.refl (v : Volume) : Repaired context v v :=
  ⟨rfl, fun _ differs => absurd rfl differs, fun lba => ⟨lba, rfl⟩⟩

theorem Repaired.trans {v v' w : Volume} (first : Repaired context v v')
    (second : Repaired context v' w) : Repaired context v w := by
  refine ⟨second.info.trans first.info, fun lba differs => ?_, fun lba => ?_⟩
  · by_cases same : w.medium lba = v'.medium lba
    · exact first.changes lba fun kept => differs (same.trans kept)
    · exact second.changes lba same
  · obtain ⟨source, copied⟩ := second.copies lba
    obtain ⟨source', copied'⟩ := first.copies source
    exact ⟨source', copied.trans copied'⟩

theorem Repaired.chunk {v : Volume} {fatIndex chunkIndex : Nat}
    (repairable : Repairable context v.medium fatIndex chunkIndex)
    (behind : context.fatStart ≤ chunkLba context fatIndex chunkIndex) :
    Repaired context v (repairChunk context fatIndex chunkIndex v) := by
  refine ⟨rfl, fun lba differs => ?_, fun lba => ?_⟩
  · rcases repairable.2.2 with same | writes
    · exact absurd (by rw [repairChunk_same same]) differs
    · refine ⟨writes, behind.trans ?_⟩
      by_contra before
      exact differs (if_neg fun here => before here.1)
  · by_cases here : chunkLba context fatIndex chunkIndex ≤ lba ∧
        lba < chunkLba context fatIndex chunkIndex + chunkSize context chunkIndex
    · exact ⟨_, if_pos here⟩
    · exact ⟨lba, if_neg here⟩

theorem Repaired.medium_eq {v v' : Volume} (repaired : Repaired context v v') :
    writable context.device = true ∨ v'.medium = v.medium := by
  by_cases writes : writable context.device = true
  · exact .inl writes
  · exact .inr (funext fun lba => by_contra fun differs => writes (repaired.changes lba differs).1)

theorem Repaired.reserved {v v' : Volume} (repaired : Repaired context v v') {lba : Nat}
    (below : lba < context.fatStart) : v'.medium lba = v.medium lba := by
  by_contra differs
  have behind := (repaired.changes lba differs).2
  omega

variable {medium medium' : Nat → List UInt8}

theorem repairable_congr (same : writable context.device = true ∨ medium' = medium)
    (fatIndex chunkIndex : Nat) :
    Repairable context medium' fatIndex chunkIndex ↔ Repairable context medium fatIndex chunkIndex := by
  rcases same with writes | rfl
  · simp only [Repairable, writes, or_true]
  · exact Iff.rfl

theorem chunkLba_behind (sized : context.Sized) {fatIndex chunkIndex : Nat}
    (copy : fatIndex ≤ context.bpb.fatCount) (chunk : chunkIndex * 8 ≤ context.bpb.sectorsPerFat) :
    context.fatStart ≤ chunkLba context fatIndex chunkIndex := by
  have copies := sized.copies_le copy
  have reserved := sized.reserved
  have fat := sized.fat
  unfold chunkLba Context.fatStart
  omega

theorem verifyChunks_run (sized : context.Sized) {fatIndex : Nat}
    (copy : fatIndex ≤ context.bpb.fatCount) {chunks : List Nat}
    (inside : ∀ chunkIndex ∈ chunks, chunkIndex * 8 ≤ context.bpb.sectorsPerFat) (v : Volume) :
    Repaired context v (runCode context.device (verifyChunks context fatIndex chunks) v).2 ∧
      ((runCode context.device (verifyChunks context fatIndex chunks) v).1 = some () ↔
        ∀ chunkIndex ∈ chunks, Repairable context v.medium fatIndex chunkIndex) := by
  induction chunks generalizing v with
  | nil => exact ⟨.refl v, by simp [verifyChunks]⟩
  | cons chunkIndex rest ih =>
    rw [verifyChunks_cons, List.forall_mem_cons]
    by_cases repairable : Repairable context v.medium fatIndex chunkIndex
    · have here := Repaired.chunk repairable (chunkLba_behind sized copy (inside _ List.mem_cons_self))
      obtain ⟨later, fine⟩ := ih (fun other member => inside other (List.mem_cons_of_mem _ member))
        (repairChunk context fatIndex chunkIndex v)
      rw [if_pos repairable]
      simp only [repairable_congr here.medium_eq] at fine
      exact ⟨here.trans later, fine.trans (iff_and_self.mpr fun _ => repairable)⟩
    · rw [if_neg repairable]
      exact ⟨.refl v, ⟨nofun, fun all => absurd all.1 repairable⟩⟩

variable (context) in
/-- A copy of the table can be made equal to the first. -/
def CopyFine (medium : Nat → List UInt8) (fatIndex : Nat) : Prop :=
  ∀ chunkIndex ∈ List.range ((context.bpb.sectorsPerFat + 7) / 8),
    Repairable context medium fatIndex chunkIndex

theorem copyFine_congr (same : writable context.device = true ∨ medium' = medium) (fatIndex : Nat) :
    CopyFine context medium' fatIndex ↔ CopyFine context medium fatIndex := by
  simp only [CopyFine, repairable_congr same]

theorem verifyCopies_run (sized : context.Sized) {copies : List Nat}
    (inside : ∀ fatIndex ∈ copies, fatIndex ≤ context.bpb.fatCount) (v : Volume) :
    Repaired context v (runCode context.device (verifyCopies context copies) v).2 ∧
      ((runCode context.device (verifyCopies context copies) v).1 = some () ↔
        ∀ fatIndex ∈ copies, CopyFine context v.medium fatIndex) := by
  induction copies generalizing v with
  | nil => exact ⟨.refl v, by simp [verifyCopies]⟩
  | cons fatIndex rest ih =>
    have chunks : ∀ chunkIndex ∈ List.range ((context.bpb.sectorsPerFat + 7) / 8),
        chunkIndex * 8 ≤ context.bpb.sectorsPerFat := by
      intro chunkIndex member
      have below := List.mem_range.mp member
      omega
    obtain ⟨here, first⟩ := verifyChunks_run sized (inside _ List.mem_cons_self) chunks v
    rw [verifyCopies, List.forall_mem_cons]
    rcases ran : runCode context.device (verifyChunks context fatIndex
      (List.range ((context.bpb.sectorsPerFat + 7) / 8))) v with ⟨_ | _, v'⟩
    · rw [ran] at here first
      rw [runCode_bind_none ran]
      exact ⟨here, ⟨nofun, fun all => (first.mpr all.1)⟩⟩
    · rw [ran] at here first
      rw [runCode_bind_some ran]
      obtain ⟨later, fine⟩ := ih (fun other member => inside other (List.mem_cons_of_mem _ member)) v'
      simp only [copyFine_congr here.medium_eq] at fine
      exact ⟨here.trans later, fine.trans (iff_and_self.mpr fun _ => first.mp rfl)⟩

variable (context) in
/-- The copies after the first can be made equal to it. -/
def TablesFine (medium : Nat → List UInt8) : Prop :=
  context.bpb.fatCount < 2 ∨
    ∀ fatIndex ∈ (List.range (context.bpb.fatCount - 1)).map (· + 1), CopyFine context medium fatIndex

theorem tablesFine_congr (same : writable context.device = true ∨ medium' = medium) :
    TablesFine context medium' ↔ TablesFine context medium := by
  simp only [TablesFine, copyFine_congr same]

theorem verifyFatCopies_run (sized : context.Sized) (v : Volume) :
    Repaired context v (runCode context.device (fat32VerifyFatCopies context) v).2 ∧
      ((runCode context.device (fat32VerifyFatCopies context) v).1 = some () ↔
        TablesFine context v.medium) := by
  rw [fat32VerifyFatCopies]
  by_cases few : context.bpb.fatCount < 2
  · simp only [if_pos few, runCode_pure]
    exact ⟨.refl v, iff_of_true trivial (.inl few)⟩
  · have inside : ∀ fatIndex ∈ (List.range (context.bpb.fatCount - 1)).map (· + 1),
        fatIndex ≤ context.bpb.fatCount := by
      intro fatIndex member
      obtain ⟨before, below, rfl⟩ := List.mem_map.mp member
      have := List.mem_range.mp below
      omega
    have buffers : runCode context.device (attempt (Prog.perform
        (Fat32Op.kmalloc (context.sectorSize * 8 * 2)))) v = (some (), v) := rfl
    rw [if_neg few, runCode_bind_some buffers]
    obtain ⟨repaired, fine⟩ := verifyCopies_run sized inside v
    refine ⟨repaired, fine.trans ?_⟩
    simp only [TablesFine, few, false_or]

end Verify

/-! ### The mount -/

namespace Context

variable (context : Context)

/-- The FSInfo sector is one of the reserved ones. -/
def hasFsinfo : Bool :=
  decide (context.bpb.fsInfoSector ≠ 0 ∧ context.bpb.fsInfoSector < context.bpb.reservedSectors)

def backupFsinfo : Nat := context.bpb.fsInfoSector + context.bpb.backupBootSector

def hasBackup : Bool :=
  decide (context.bpb.backupBootSector ≠ 0 ∧ context.backupFsinfo < context.bpb.reservedSectors)

def mountedSector (medium : Nat → List UInt8) : List UInt8 :=
  if !fsinfoSigned (medium context.bpb.fsInfoSector) && context.hasBackup
  then medium context.backupFsinfo else medium context.bpb.fsInfoSector

/-- The counters that a mount loads. -/
def mountedInfo (medium : Nat → List UInt8) : Info :=
  if context.hasFsinfo && fsinfoSigned (context.mountedSector medium)
  then loadFsinfo context (context.mountedSector medium) else noFsinfo

variable {context}

theorem hasFsinfo_iff : context.hasFsinfo = true ↔
    context.bpb.fsInfoSector ≠ 0 ∧ context.bpb.fsInfoSector < context.bpb.reservedSectors :=
  decide_eq_true_iff

theorem hasBackup_iff : context.hasBackup = true ↔
    context.bpb.backupBootSector ≠ 0 ∧ context.backupFsinfo < context.bpb.reservedSectors :=
  decide_eq_true_iff

theorem mountedSector_congr {medium medium' : Nat → List UInt8} (has : context.hasFsinfo = true)
    (same : ∀ lba < context.fatStart, medium' lba = medium lba) :
    context.mountedSector medium' = context.mountedSector medium := by
  have here := hasFsinfo_iff.mp has
  simp only [mountedSector, same _ here.2]
  split_ifs with backup
  · simp only [Bool.and_eq_true] at backup
    exact same _ (hasBackup_iff.mp backup.2).2
  · rfl

theorem accepted_maxCluster (accepted : context.accepted = true) : 2 < context.maxCluster := by
  simp only [Context.accepted, Bool.and_eq_true, Bool.not_eq_true', decide_eq_false_iff_not] at accepted
  omega

theorem sectorSize_eq (accepted : context.accepted = true) :
    context.sectorSize = context.device.logicalBlockSize := by
  simp only [Context.accepted, Bool.and_eq_true, beq_iff_eq] at accepted
  unfold sectorSize
  split_ifs
  · exact accepted.1.1.1.1.2.symm
  · rfl

theorem sized_of_accepted {device : Device} {boot : List UInt8}
    (accepted : Context.accepted ⟨device, readBpb boot⟩ = true)
    (fat : (readBpb boot).sectorsPerFat ≤ 2 ^ 21) : Context.Sized ⟨device, readBpb boot⟩ := by
  simp only [Context.accepted, Bool.and_eq_true, bne_iff_ne, ne_eq, Bool.or_eq_true, beq_iff_eq] at accepted
  obtain ⟨⟨⟨⟨⟨sizes, -⟩, cluster⟩, -⟩, -⟩, -⟩ := accepted
  refine ⟨?_, by simpa [Nat.pos_iff_ne_zero] using cluster, getLE_lt_pow boot 14 2,
    getLE_lt_pow boot 16 1, fat, getLE_lt_pow boot 19 2, getLE_lt_pow boot 32 4⟩
  unfold sectorSize
  simp only
  split_ifs <;> omega

end Context

section Mount

variable {context : Context} {v : Volume}

theorem findFsinfo_run (sized : context.Sized) (some_ : 2 < context.maxCluster) (boot : List UInt8) :
    run (serve context.device) (findFsinfo context boot) v =
      (if context.hasFsinfo then context.mountedSector v.medium else boot, v) := by
  have reserved {lba : Nat} (below : lba < context.fatStart) :
      run (serve context.device) (f32ReadSector lba).run v = (some (v.medium lba), v) := by
    change (v.reads context.device lba, v) = _
    rw [Volume.reads, if_pos (sized.inBounds_reserved some_ below)]
  rw [findFsinfo]
  by_cases has : context.hasFsinfo = true
  · have here := Context.hasFsinfo_iff.mp has
    rw [if_pos has, if_pos here, Prog.run_bind, reserved here.2]
    simp only [Option.isNone_some, Bool.false_or, Option.getD_some]
    by_cases unsigned : fsinfoSigned (v.medium context.bpb.fsInfoSector) = false
    · by_cases has' : context.hasBackup = true
      · have there := Context.hasBackup_iff.mp has'
        have backup : run (serve context.device)
            (f32ReadSector (context.bpb.fsInfoSector + context.bpb.backupBootSector)).run v =
              (some (v.medium context.backupFsinfo), v) := reserved there.2
        rw [if_pos ⟨by rw [unsigned]; rfl, there⟩, Prog.run_bind, backup]
        simp only [Context.mountedSector, unsigned, has', run_pure]
        rfl
      · rw [if_neg fun there => has' (Context.hasBackup_iff.mpr there.2), run_pure]
        simp only [Context.mountedSector, has', Bool.and_false, Bool.false_eq_true, if_false]
    · rw [Bool.not_eq_false] at unsigned
      simp only [Context.mountedSector, unsigned, Bool.not_true, Bool.false_and, Bool.false_eq_true,
        false_and, if_false, run_pure]
  · rw [if_neg has, if_neg (fun here => has (Context.hasFsinfo_iff.mpr here)), run_pure]

theorem initializeContext_run {device : Device} (first : inBounds device 0 = true)
    (accepted : Context.accepted ⟨device, readBpb (v.medium 0)⟩ = true)
    (sized : Context.Sized ⟨device, readBpb (v.medium 0)⟩) :
    ∃ v', Repaired ⟨device, readBpb (v.medium 0)⟩ v v' ∧
    (TablesFine ⟨device, readBpb (v.medium 0)⟩ v.medium ∧
          runCode device (fat32VerifyFatCopies ⟨device, readBpb (v.medium 0)⟩) v = (some (), v') ∧
          runCode device (fat32InitializeContext device) v = (some ⟨device, readBpb (v.medium 0)⟩,
              { v' with info := Context.mountedInfo ⟨device, readBpb (v.medium 0)⟩ v.medium }) ∨
        ¬TablesFine ⟨device, readBpb (v.medium 0)⟩ v.medium ∧
          runCode device (fat32InitializeContext device) v = (none, v')) := by
  have boot : runCode device (f32ReadSector 0) v = (some (v.medium 0), v) := by
    rw [runCode_read, Volume.reads, if_pos first]
  rw [fat32InitializeContext, runCode_bind_some boot]
  generalize hc : (⟨device, readBpb (v.medium 0)⟩ : Context) = context at *
  have on : context.device = device := by rw [← hc]
  rw [runCode_guard, if_pos accepted]
  have some_ := Context.accepted_maxCluster accepted
  obtain ⟨repaired, fine⟩ := verifyFatCopies_run sized v
  rw [on] at repaired fine
  rcases ran : runCode device (fat32VerifyFatCopies context) v with ⟨_ | _, v'⟩
  · rw [ran] at repaired fine
    exact ⟨v', repaired, .inr ⟨fun tables => (nomatch fine.mpr tables), runCode_bind_none ran⟩⟩
  · rw [ran] at repaired fine
    refine ⟨v', repaired, .inl ⟨fine.mp rfl, rfl, ?_⟩⟩
    have found := findFsinfo_run sized some_ (v := v') (v.medium 0)
    rw [on] at found
    rw [runCode_bind_some ran, runCode_lift, found, Context.mountedInfo]
    by_cases has : context.hasFsinfo = true
    · have here := Context.hasFsinfo_iff.mp has
      have same : context.mountedSector v'.medium = context.mountedSector v.medium :=
        Context.mountedSector_congr has fun lba below => repaired.reserved below
      simp only [here.1, here.2, same, has, ne_eq, not_false_eq_true, true_and, Bool.true_and]
      split_ifs <;> rfl
    · have here : ¬(context.bpb.fsInfoSector ≠ 0 ∧ context.bpb.fsInfoSector < context.bpb.reservedSectors ∧
          fsinfoSigned (v.medium 0) = true) :=
        fun here => has (Context.hasFsinfo_iff.mpr ⟨here.1, here.2.1⟩)
      simp only [if_neg here, has, Bool.false_and, Bool.false_eq_true, if_false]
      rfl

end Mount

/-! ### Saving -/

namespace Context

variable (context : Context)

/-- The sector that `fat32_context_sync` stores. -/
def savedSector (v : Volume) : List UInt8 :=
  putLE (putLE (v.medium context.bpb.fsInfoSector) 488 4 v.info.freeClusterCount) 492 4
    v.info.nextFreeCluster

/-- The volume behind a `fat32_context_sync` that has something to save. -/
def saved (v : Volume) : Volume :=
  let stored := v.write context.bpb.fsInfoSector (context.savedSector v)
  let stored := if context.hasBackup then stored.write context.backupFsinfo (context.savedSector v)
    else stored
  { stored with info := { v.info with fsinfoDirty := false } }

end Context

section Sync

variable {context : Context} {v : Volume}

theorem sync_run (sized : context.Sized) (some_ : 2 < context.maxCluster)
    (has : context.hasFsinfo = true) :
    runCode context.device (fat32ContextSync context) v = if v.info.fsinfoValid && v.info.fsinfoDirty then
        if writable context.device then (some (), context.saved v) else (none, v)
      else (some (), v) := by
  have here := Context.hasFsinfo_iff.mp has
  have inside : inBounds context.device context.bpb.fsInfoSector = true :=
    sized.inBounds_reserved some_ here.2
  have read : runCode context.device (f32ReadSector context.bpb.fsInfoSector) v =
      (some (v.medium context.bpb.fsInfoSector), v) := by
    rw [runCode_read, Volume.reads, if_pos inside]
  have flush (w : Volume) :
      runCode context.device (attempt (Prog.perform Fat32Op.flush)) w = (some (), w) := rfl
  rw [fat32ContextSync]
  refine (runCode_lift getInfo _).trans ?_
  change runCode context.device (if (v.info.fsinfoValid && v.info.fsinfoDirty) = true then _ else _) v = _
  by_cases unsaved : (v.info.fsinfoValid && v.info.fsinfoDirty) = true
  · rw [if_pos unsaved, if_pos unsaved, runCode_bind_some read]
    by_cases writes : writable context.device = true
    · have first : runCode context.device (f32WriteSector context.bpb.fsInfoSector
          (context.savedSector v)) v =
            (some (), v.write context.bpb.fsInfoSector (context.savedSector v)) := by
        rw [runCode_write, inside, writes]
        rfl
      rw [if_pos writes]
      refine (runCode_bind_some first).trans ?_
      have clean (w : Volume) (info : w.info = v.info) :
          runCode context.device (do
            changeInfo fun info => { info with fsinfoDirty := false }
            attempt (Prog.perform Fat32Op.flush)) w =
            (some (), { w with info := { v.info with fsinfoDirty := false } }) := by
        rw [← info]
        rfl
      have sum : context.bpb.backupBootSector + context.bpb.fsInfoSector = context.backupFsinfo :=
        Nat.add_comm _ _
      by_cases backup : context.hasBackup = true
      · have there := Context.hasBackup_iff.mp backup
        have inside' : inBounds context.device context.backupFsinfo = true :=
          sized.inBounds_reserved some_ there.2
        have second : runCode context.device (f32WriteSector context.backupFsinfo
            (context.savedSector v)) (v.write context.bpb.fsInfoSector (context.savedSector v)) =
            (some (), (v.write context.bpb.fsInfoSector (context.savedSector v)).write
              context.backupFsinfo (context.savedSector v)) := by
          rw [runCode_write, inside', writes]
          rfl
        simp only [sum]
        rw [if_pos there, Context.saved, if_pos backup]
        exact (runCode_bind_some second).trans (clean _ rfl)
      · simp only [sum]
        rw [if_neg fun there => backup (Context.hasBackup_iff.mpr there), Context.saved, if_neg backup]
        exact clean _ rfl
    · have first : runCode context.device (f32WriteSector context.bpb.fsInfoSector
          (context.savedSector v)) v = (none, v) := by
        rw [runCode_write, inside, Bool.true_and, if_neg writes]
      rw [if_neg writes]
      exact runCode_bind_none first
  · rw [if_neg unsaved, if_neg unsaved]
    exact flush v

end Sync

end AsasOs.Fat32
