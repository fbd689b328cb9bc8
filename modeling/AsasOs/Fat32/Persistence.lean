import AsasOs.Fat32.Fsinfo

/-!
# FAT32: the counters over a run

Between two saves the calls of the driver change the counters and say so. After a save
what a mount would load is what the context holds, as long as the FSInfo sector is signed;
where it is not, the save has destroyed the backup, and no mount finds counters again.
-/
namespace AsasOs.Fat32

open Block Bytes Prog

/-! ### Counters -/

/-- Counters that a mount of the volume can have loaded, or that have been kept since. -/
structure Info.Proper (context : Context) (info : Info) : Prop where
  valid : info.fsinfoValid = true
  count : info.freeClusterCount = FAT32_FSINFO_UNKNOWN ∨ info.freeClusterCount ≤ context.maxCluster - 2
  low : 2 ≤ info.nextFreeCluster
  high : info.nextFreeCluster < context.maxCluster

section Counters

variable {context : Context} {info info' : Info}

theorem maxCluster_lt (context : Context) (some_ : 2 < context.maxCluster) :
    context.maxCluster < 2 ^ 32 := by
  unfold Context.maxCluster at some_ ⊢
  split_ifs at some_ ⊢ <;> omega

theorem InfoStep.proper (some_ : 2 < context.maxCluster) (step : InfoStep context info info')
    (proper : info.Proper context) : info'.Proper context := by
  obtain ⟨valid, count, low, high⟩ := proper
  have bound := maxCluster_lt context some_
  cases step with
  | @take cluster fits =>
    obtain ⟨above, below⟩ := Context.dataClusterValid_iff.mp fits
    refine ⟨valid, ?_, ?_, ?_⟩ <;> simp only [Info.take] <;> split_ifs <;> omega
  | exhaust =>
    rw [Info.exhaust]
    split_ifs
    · exact ⟨valid, .inr (Nat.zero_le _), low, high⟩
    · exact ⟨valid, count, low, high⟩
  | @release first released fits =>
    obtain ⟨above, below⟩ := Context.dataClusterValid_iff.mp fits
    refine ⟨valid, ?_, ?_, ?_⟩ <;> simp only [Info.release] <;> split_ifs <;> omega

theorem InfoStep.dirty (step : InfoStep context info info') (valid : info.fsinfoValid = true) :
    info' = info ∨ info'.fsinfoDirty = true := by
  cases step with
  | take => exact .inr valid
  | exhaust =>
    rw [Info.exhaust]
    split_ifs
    · exact .inr valid
    · exact .inl rfl
  | release => exact .inr valid

theorem loadFsinfo_proper (some_ : 2 < context.maxCluster) (sec : List UInt8) :
    (loadFsinfo context sec).Proper context := by
  refine ⟨rfl, ?_, ?_, ?_⟩ <;> simp only [loadFsinfo] <;> split_ifs <;> omega

end Counters

/-! ### Volumes -/

section Runs

variable {context : Context} {start v : Volume}

/-- What holds along every run: the boot sector is as it was, and so is everything on a
device that cannot be written. -/
structure Tracked (context : Context) (start v : Volume) : Prop where
  boot : v.medium 0 = start.medium 0
  sectors : ∀ lba < context.fatStart, (v.medium lba).length = context.sectorSize
  proper : v.info.Proper context
  device : writable context.device = true ∨ v.medium = start.medium

/-- Two volumes with the same reserved sectors on a device that may refuse writes. -/
structure SameReserved (context : Context) (v v' : Volume) : Prop where
  reserved : ∀ lba < context.fatStart, v'.medium lba = v.medium lba
  device : writable context.device = true ∨ v'.medium = v.medium

theorem serve_behind {op : Fat32Op} {v : Volume} (behind : op.Behind context) :
    SameReserved context v (serve context.device op v).2 ∧
    (serve context.device op v).2.info = v.info := by
  have same : SameReserved context v v := ⟨fun _ _ => rfl, .inr rfl⟩
  cases op with
  | write lba sector =>
    simp only [serve]
    by_cases served : (inBounds context.device lba && writable context.device) = true
    · rw [if_pos served]
      rw [Bool.and_eq_true] at served
      refine ⟨⟨fun other below => ?_, .inl served.2⟩, rfl⟩
      have apart : other ≠ lba := by
        have : context.fatStart ≤ lba := behind
        omega
      exact Function.update_of_ne apart _ _
    · rw [if_neg served]
      exact ⟨same, rfl⟩
  | writeRun lba sectors => exact behind.elim
  | setInfo info => exact behind.elim
  | read lba => exact ⟨same, rfl⟩
  | readLink lba => exact ⟨same, rfl⟩
  | readRun lba count => exact ⟨same, rfl⟩
  | flush => exact ⟨same, rfl⟩
  | kmalloc size => exact ⟨same, rfl⟩
  | cmos register => exact ⟨⟨fun _ _ => rfl, .inr rfl⟩, rfl⟩
  | info => exact ⟨same, rfl⟩

theorem stable_reserved {Inv : Volume → Prop}
    (same : ∀ v v', SameReserved context v v' → v'.info = v.info → Inv v → Inv v')
    (steps : ∀ v info, Inv v → InfoStep context v.info info → Inv { v with info := info }) :
    Stable context (serve context.device) Inv where
  ops := fun _ v behind inv =>
    same v _ (serve_behind behind).1 (serve_behind behind).2 inv
  info := fun v info inv step => steps v info inv step

theorem Tracked.same {v' : Volume} (tracked : Tracked context start v)
    (reserved : SameReserved context v v') (info : v'.info = v.info) (some_ : 0 < context.fatStart) :
    Tracked context start v' where
  boot := (reserved.reserved 0 some_).trans tracked.boot
  sectors := fun lba below => by rw [reserved.reserved lba below, tracked.sectors lba below]
  proper := info ▸ tracked.proper
  device := by
    rcases reserved.device with writes | same
    · exact .inl writes
    · rw [same]
      exact tracked.device

theorem Tracked.stable (some_ : 2 < context.maxCluster) (room : 0 < context.fatStart) :
    Stable context (serve context.device) (Tracked context start) :=
  stable_reserved (fun _ _ reserved info tracked => tracked.same reserved info room)
    fun _ _ tracked step =>
      ⟨tracked.boot, tracked.sectors, step.proper some_ tracked.proper, tracked.device⟩

/-- Counters that are not said to be unsaved are those that a mount loads. -/
structure Faithful (context : Context) (start v : Volume) : Prop extends Tracked context start v where
  saved : v.info.fsinfoDirty = false → context.mountedInfo v.medium = v.info

/-- No counters are found by a mount. -/
structure Lost (context : Context) (start v : Volume) : Prop extends Tracked context start v where
  primary : fsinfoSigned (v.medium context.bpb.fsInfoSector) = false
  backup : context.hasBackup = true → fsinfoSigned (v.medium context.backupFsinfo) = false

theorem Faithful.stable (some_ : 2 < context.maxCluster) (has : context.hasFsinfo = true)
    (room : 0 < context.fatStart) :
    Stable context (serve context.device) (Faithful context start) := by
  refine stable_reserved ?_ ?_
  · intro v v' reserved info faithful
    refine ⟨faithful.toTracked.same reserved info room, fun clean => ?_⟩
    rw [info] at clean ⊢
    rw [Context.mountedInfo, Context.mountedSector_congr has reserved.reserved]
    exact faithful.saved clean
  · intro v info faithful step
    refine ⟨⟨faithful.boot, faithful.sectors, step.proper some_ faithful.proper, faithful.device⟩, ?_⟩
    intro clean
    rcases step.dirty faithful.proper.valid with rfl | dirty
    · exact faithful.saved clean
    · rw [dirty] at clean
      cases clean

theorem Lost.stable (some_ : 2 < context.maxCluster) (has : context.hasFsinfo = true) :
    Stable context (serve context.device) (Lost context start) := by
  have here := Context.hasFsinfo_iff.mp has
  have room : 0 < context.fatStart := Nat.lt_of_le_of_lt (Nat.zero_le _) here.2
  refine stable_reserved ?_ ?_
  · intro v v' reserved info lost
    refine ⟨lost.toTracked.same reserved info room, ?_, fun backup => ?_⟩
    · rw [reserved.reserved _ here.2]
      exact lost.primary
    · rw [reserved.reserved _ (Context.hasBackup_iff.mp backup).2]
      exact lost.backup backup
  · intro v info lost step
    exact ⟨⟨lost.boot, lost.sectors, step.proper some_ lost.proper, lost.device⟩, lost.primary, lost.backup⟩

theorem dirty_stable : Stable context (serve context.device)
      (fun v => v.info.fsinfoValid = true ∧ v.info.fsinfoDirty = true) := by
  refine stable_reserved ?_ ?_
  · intro v v' _ info unsaved
    rwa [info]
  · rintro v info ⟨valid, dirty⟩ step
    cases step with
    | take => exact ⟨valid, valid⟩
    | release => exact ⟨valid, valid⟩
    | exhaust =>
      show v.info.exhaust.fsinfoValid = true ∧ v.info.exhaust.fsinfoDirty = true
      rw [Info.exhaust]
      split_ifs
      · exact ⟨valid, valid⟩
      · exact ⟨valid, dirty⟩

theorem signed_stable (has : context.hasFsinfo = true) (signed : Bool) :
    Stable context (serve context.device)
      (fun v => fsinfoSigned (v.medium context.bpb.fsInfoSector) = signed) := by
  have here := Context.hasFsinfo_iff.mp has
  refine stable_reserved (fun v v' reserved _ same => ?_) fun v _ same _ => same
  rwa [reserved.reserved _ here.2]

/-! ### Syncs -/

theorem fsinfoSigned_saved (length : 496 ≤ (v.medium context.bpb.fsInfoSector).length) :
    fsinfoSigned (context.savedSector v) = fsinfoSigned (v.medium context.bpb.fsInfoSector) := by
  have field {start : Nat} (apart : start + 4 ≤ 488 ∨ 496 ≤ start) :
      getLE (context.savedSector v) start 4 = getLE (v.medium context.bpb.fsInfoSector) start 4 := by
    rw [Context.savedSector, getLE, slice_putLE_other (by rw [putLE_length (by omega)]; omega) (by omega),
      slice_putLE_other (by omega) (by omega), ← getLE]
  simp only [fsinfoSigned]
  rw [field (by omega), field (by omega), field (by omega)]

theorem loadFsinfo_saved (some_ : 2 < context.maxCluster)
    (length : 496 ≤ (v.medium context.bpb.fsInfoSector).length) (proper : v.info.Proper context) :
    loadFsinfo context (context.savedSector v) = { v.info with fsinfoDirty := false } := by
  obtain ⟨valid, count, low, high⟩ := proper
  have bound := maxCluster_lt context some_
  have free : getLE (context.savedSector v) 488 4 = v.info.freeClusterCount := by
    rw [Context.savedSector, getLE, slice_putLE_other (by rw [putLE_length (by omega)]; omega) (by omega),
      ← getLE, getLE_putLE (by omega)]
    unfold FAT32_FSINFO_UNKNOWN at count
    omega
  have next : getLE (context.savedSector v) 492 4 = v.info.nextFreeCluster := by
    rw [Context.savedSector, getLE_putLE (by rw [putLE_length (by omega)]; omega)]
    omega
  rw [loadFsinfo, free, next, if_neg (by omega : ¬(v.info.nextFreeCluster < 2 ∨ _))]
  have count' : (if v.info.freeClusterCount > context.maxCluster - 2 then FAT32_FSINFO_UNKNOWN
      else v.info.freeClusterCount) = v.info.freeClusterCount := by
    split_ifs <;> omega
  rw [count', ← valid]

section Saved

variable (sized : context.Sized) (has : context.hasFsinfo = true) (tracked : Tracked context start v)

/-! The two places of the counters, and the rest. -/

theorem saved_primary : (context.saved v).medium context.bpb.fsInfoSector = context.savedSector v := by
  rw [Context.saved]
  by_cases backup : context.hasBackup = true
  · have there := Context.hasBackup_iff.mp backup
    have apart : context.bpb.fsInfoSector ≠ context.backupFsinfo := by
      unfold Context.backupFsinfo
      omega
    simp only [if_pos backup]
    exact (Function.update_of_ne apart _ _).trans (Function.update_self ..)
  · simp only [if_neg backup]
    exact Function.update_self ..

theorem saved_backup (backup : context.hasBackup = true) :
    (context.saved v).medium context.backupFsinfo = context.savedSector v := by
  rw [Context.saved]
  simp only [if_pos backup]
  exact Function.update_self ..

theorem saved_other {lba : Nat} (primary : lba ≠ context.bpb.fsInfoSector)
    (backup : context.hasBackup = true → lba ≠ context.backupFsinfo) :
    (context.saved v).medium lba = v.medium lba := by
  rw [Context.saved]
  by_cases has' : context.hasBackup = true
  · simp only [if_pos has']
    exact (Function.update_of_ne (backup has') _ _).trans (Function.update_of_ne primary _ _)
  · simp only [if_neg has']
    exact Function.update_of_ne primary _ _

include sized has tracked

theorem fsinfo_room : 496 ≤ (v.medium context.bpb.fsInfoSector).length := by
  have length := tracked.sectors _ (Context.hasFsinfo_iff.mp has).2
  have sector := sized.sector
  omega

theorem tracked_saved (writes : writable context.device = true) :
    Tracked context start (context.saved v) := by
  have room := fsinfo_room sized has tracked
  have here := Context.hasFsinfo_iff.mp has
  have length : (context.savedSector v).length = context.sectorSize := by
    rw [Context.savedSector, putLE_length (by rw [putLE_length (by omega)]; omega),
      putLE_length (by omega), tracked.sectors _ here.2]
  refine ⟨?_, fun lba below => ?_, ?_, .inl writes⟩
  · refine (saved_other (Ne.symm here.1) fun _ => ?_).trans tracked.boot
    unfold Context.backupFsinfo
    omega
  · by_cases primary : lba = context.bpb.fsInfoSector
    · rw [primary, saved_primary, length]
    · by_cases backup : lba = context.backupFsinfo ∧ context.hasBackup = true
      · rw [backup.1, saved_backup backup.2, length]
      · rw [saved_other primary fun has' same => backup ⟨same, has'⟩, tracked.sectors lba below]
  · exact ⟨tracked.proper.valid, tracked.proper.count, tracked.proper.low, tracked.proper.high⟩

theorem faithful_saved (some_ : 2 < context.maxCluster) (writes : writable context.device = true)
    (signed : fsinfoSigned (v.medium context.bpb.fsInfoSector) = true) :
    Faithful context start (context.saved v) := by
  have room := fsinfo_room sized has tracked
  refine ⟨tracked_saved sized has tracked writes, fun _ => ?_⟩
  have here : context.mountedSector (context.saved v).medium = context.savedSector v := by
    rw [Context.mountedSector, saved_primary, fsinfoSigned_saved room, signed]
    rfl
  rw [Context.mountedInfo, here, fsinfoSigned_saved room, signed, has]
  exact loadFsinfo_saved some_ room tracked.proper

theorem lost_saved (writes : writable context.device = true)
    (unsigned : fsinfoSigned (v.medium context.bpb.fsInfoSector) = false) :
    Lost context start (context.saved v) := by
  have room := fsinfo_room sized has tracked
  refine ⟨tracked_saved sized has tracked writes, ?_, fun backup => ?_⟩
  · rw [saved_primary, fsinfoSigned_saved room, unsigned]
  · rw [saved_backup backup, fsinfoSigned_saved room, unsigned]

end Saved

theorem Lost.mountedInfo (lost : Lost context start v) : context.mountedInfo v.medium = noFsinfo := by
  rw [Context.mountedInfo, Context.mountedSector, lost.primary, Bool.not_false, Bool.true_and]
  by_cases backup : context.hasBackup = true
  · rw [if_pos backup, lost.backup backup, Bool.and_false]
    rfl
  · rw [if_neg backup, lost.primary, Bool.and_false]
    rfl

/-! ### Runs -/

/-- Some sync of the calls finds counters that have not been saved. -/
def Saves (context : Context) : List Call → Volume → Prop
  | [], _ => False
  | next :: rest, v =>
    next = .sync ∧ v.info.fsinfoDirty = true ∨ Saves context rest (next.after context v)

theorem after_stable {Inv : Volume → Prop} (sized : context.Sized)
    (stable : Stable context (serve context.device) Inv) {call : Call} (unsynced : call ≠ .sync)
    (inv : Inv v) : Inv (call.after context v) :=
  stable.call sized unsynced inv

section Steps

variable (sized : context.Sized) (some_ : 2 < context.maxCluster) (has : context.hasFsinfo = true)

include sized some_ has

theorem after_sync (valid : v.info.fsinfoValid = true) : Call.sync.after context v =
    if v.info.fsinfoDirty && writable context.device then context.saved v else v := by
  rw [Call.after, Call.code, sync_run sized some_ has, valid, Bool.true_and]
  cases v.info.fsinfoDirty <;> cases writable context.device <;> rfl

theorem sync_info {w : Volume} (valid : v.info.fsinfoValid = true)
    (synced : runCode context.device (fat32ContextSync context) v = (some (), w)) :
    w.info = { v.info with fsinfoDirty := false } := by
  rw [sync_run sized some_ has, valid, Bool.true_and] at synced
  split_ifs at synced with unsaved writes
  · cases synced
    rfl
  · cases synced
  · cases synced
    rw [Bool.not_eq_true] at unsaved
    rw [← unsaved]

theorem tracked_calls (calls : List Call) (tracked : Tracked context start v) :
    Tracked context start (afterCalls context calls v) := by
  induction calls generalizing v with
  | nil => exact tracked
  | cons call rest ih =>
    refine ih (v := call.after context v) ?_
    by_cases sync : call = .sync
    · subst sync
      rw [after_sync sized some_ has tracked.proper.valid]
      split_ifs with unsaved
      · exact tracked_saved sized has tracked (Bool.and_eq_true_iff.mp unsaved).2
      · exact tracked
    · have room : 0 < context.fatStart :=
        Nat.lt_of_le_of_lt (Nat.zero_le _) (Context.hasFsinfo_iff.mp has).2
      exact after_stable sized (Tracked.stable some_ room) sync tracked

variable {calls : List Call}

theorem faithful_calls (faithful : Faithful context start v)
    (fine : fsinfoSigned (v.medium context.bpb.fsInfoSector) = true ∨ ¬Saves context calls v) :
    Faithful context start (afterCalls context calls v) := by
  induction calls generalizing v with
  | nil => exact faithful
  | cons call rest ih =>
    have room : 0 < context.fatStart := Nat.lt_of_le_of_lt (Nat.zero_le _) (Context.hasFsinfo_iff.mp has).2
    by_cases sync : call = .sync
    · subst sync
      have step := after_sync (v := v) sized some_ has faithful.proper.valid
      by_cases unsaved : (v.info.fsinfoDirty && writable context.device) = true
      · rw [if_pos unsaved] at step
        rw [Bool.and_eq_true] at unsaved
        have signed : fsinfoSigned (v.medium context.bpb.fsInfoSector) = true :=
          fine.resolve_right fun saves => saves (.inl ⟨rfl, unsaved.1⟩)
        have signed' : fsinfoSigned ((context.saved v).medium context.bpb.fsInfoSector) = true := by
          rw [saved_primary, fsinfoSigned_saved (fsinfo_room sized has faithful.toTracked), signed]
        refine ih (v := Call.sync.after context v) ?_ (.inl ?_)
        · rw [step]
          exact faithful_saved sized has faithful.toTracked some_ unsaved.2 signed
        · rwa [step]
      · rw [if_neg unsaved] at step
        refine ih (v := Call.sync.after context v) (by rwa [step]) ?_
        rw [step]
        exact fine.imp_right fun saves later => saves (.inr (by rwa [step]))
    · refine ih (v := call.after context v)
        (after_stable sized (Faithful.stable some_ has room) sync faithful) ?_
      refine fine.imp (fun signed => ?_) fun saves later => saves (.inr later)
      exact after_stable sized (signed_stable has true) sync signed

theorem lost_after (call : Call) (lost : Lost context start v) :
    Lost context start (call.after context v) := by
  by_cases sync : call = .sync
  · subst sync
    rw [after_sync sized some_ has lost.proper.valid]
    split_ifs with unsaved
    · exact lost_saved sized has lost.toTracked (Bool.and_eq_true_iff.mp unsaved).2 lost.primary
    · exact lost
  · exact after_stable sized (Lost.stable some_ has) sync lost

theorem lost_stays (lost : Lost context start v) : Lost context start (afterCalls context calls v) := by
  induction calls generalizing v with
  | nil => exact lost
  | cons call rest ih => exact ih (lost_after sized some_ has call lost)

theorem lost_calls (writes : writable context.device = true) (faithful : Faithful context start v)
    (unsigned : fsinfoSigned (v.medium context.bpb.fsInfoSector) = false)
    (saves : Saves context calls v) : Lost context start (afterCalls context calls v) := by
  induction calls generalizing v with
  | nil => exact saves.elim
  | cons call rest ih =>
    have room : 0 < context.fatStart := Nat.lt_of_le_of_lt (Nat.zero_le _) (Context.hasFsinfo_iff.mp has).2
    by_cases sync : call = .sync
    · subst sync
      have step := after_sync (v := v) sized some_ has faithful.proper.valid
      rw [writes, Bool.and_true] at step
      by_cases unsaved : v.info.fsinfoDirty = true
      · rw [if_pos unsaved] at step
        refine lost_stays sized some_ has (v := Call.sync.after context v) ?_
        rw [step]
        exact lost_saved sized has faithful.toTracked writes unsigned
      · rw [if_neg unsaved] at step
        refine ih (v := Call.sync.after context v) (by rwa [step]) (by rwa [step]) ?_
        exact saves.resolve_left fun here => unsaved here.2
    · refine ih (v := call.after context v)
        (after_stable sized (Faithful.stable some_ has room) sync faithful)
        (after_stable sized (signed_stable has false) sync unsigned) ?_
      exact saves.resolve_left fun here => sync here.1

theorem dirty_stays (refuses : writable context.device = false)
    (valid : v.info.fsinfoValid = true) (dirty : v.info.fsinfoDirty = true) :
    (afterCalls context calls v).info.fsinfoDirty = true := by
  induction calls generalizing v with
  | nil => exact dirty
  | cons call rest ih =>
    have kept : (call.after context v).info.fsinfoValid = true ∧
        (call.after context v).info.fsinfoDirty = true := by
      by_cases sync : call = .sync
      · subst sync
        rw [after_sync sized some_ has valid, refuses, Bool.and_false]
        exact ⟨valid, dirty⟩
      · exact after_stable sized dirty_stable sync ⟨valid, dirty⟩
    exact ih (v := call.after context v) kept.1 kept.2

theorem dirty_calls (refuses : writable context.device = false)
    (faithful : Faithful context start v) (saves : Saves context calls v) :
    (afterCalls context calls v).info.fsinfoDirty = true := by
  induction calls generalizing v with
  | nil => exact saves.elim
  | cons call rest ih =>
    rcases saves with ⟨-, dirty⟩ | later
    · exact dirty_stays sized some_ has refuses faithful.proper.valid dirty
    · have room : 0 < context.fatStart :=
        Nat.lt_of_le_of_lt (Nat.zero_le _) (Context.hasFsinfo_iff.mp has).2
      refine ih (v := call.after context v) ?_ later
      by_cases sync : call = .sync
      · subst sync
        rw [after_sync sized some_ has faithful.proper.valid, refuses, Bool.and_false]
        exact faithful
      · exact after_stable sized (Faithful.stable some_ has room) sync faithful

end Steps

/-! ### Mounting again -/

section Remount

variable {device : Device} {v₀ w : Volume} {calls : List Call}

theorem mounted_context
    (mounted : runCode device (fat32InitializeContext device) v = (some context, v₀)) :
    inBounds device 0 = true ∧ context = ⟨device, readBpb (v.medium 0)⟩ ∧ context.accepted = true := by
  rw [fat32InitializeContext] at mounted
  obtain ⟨boot, v', read, rest⟩ := runCode_bind_eq_some.mp mounted
  rw [runCode_read, Volume.reads] at read
  split_ifs at read with first
  · cases read
    rw [runCode_guard] at rest
    split_ifs at rest with accepted
    · have same : context = ⟨device, readBpb (v.medium 0)⟩ := by
        obtain ⟨-, v₁, -, rest⟩ := runCode_bind_eq_some.mp rest
        rw [runCode_lift] at rest
        split_ifs at rest <;> exact (Option.some.inj (congrArg Prod.fst rest)).symm
      exact ⟨first, same, same ▸ accepted⟩
    · cases rest
  · cases read

theorem mount_faithful (sectors : ∀ lba, (v.medium lba).length = device.logicalBlockSize)
    (mounted : runCode device (fat32InitializeContext device) v = (some context, v₀))
    (table : context.bpb.sectorsPerFat ≤ 2 ^ 21) (loaded : v₀.info.fsinfoValid = true) :
    context.device = device ∧ context.Sized ∧ 2 < context.maxCluster ∧ context.hasFsinfo = true ∧
      Faithful context v₀ v₀ ∧
      v₀.medium context.bpb.fsInfoSector = v.medium context.bpb.fsInfoSector ∧
      ∀ w : Volume, w.medium 0 = v₀.medium 0 → (writable device = true ∨ w.medium = v₀.medium) →
        ∃ w', runCode device (fat32InitializeContext device) w = (some context, w') ∧
          w'.info = context.mountedInfo w.medium := by
  obtain ⟨first, same, accepted⟩ := mounted_context mounted
  subst same
  have sized := Context.sized_of_accepted accepted table
  have some_ := Context.accepted_maxCluster accepted
  obtain ⟨v', repaired, ⟨tables, -, ran⟩ | ⟨-, ran⟩⟩ := initializeContext_run first accepted sized
  swap
  · rw [ran] at mounted
    cases mounted
  rw [ran] at mounted
  cases mounted
  generalize hc : (⟨device, readBpb (v.medium 0)⟩ : Context) = context at *
  have on : context.device = device := by rw [← hc]
  have has : context.hasFsinfo = true := by
    by_contra none_
    rw [Context.mountedInfo, Bool.not_eq_true _ |>.mp none_] at loaded
    cases loaded
  have here := Context.hasFsinfo_iff.mp has
  have room : 0 < context.fatStart := Nat.lt_of_le_of_lt (Nat.zero_le _) here.2
  have mountedAgain : context.mountedInfo v'.medium = context.mountedInfo v.medium := by
    rw [Context.mountedInfo, Context.mountedSector_congr has fun lba below => repaired.reserved below,
      ← Context.mountedInfo]
  have proper : (context.mountedInfo v.medium).Proper context := by
    rw [Context.mountedInfo] at loaded ⊢
    split_ifs at loaded ⊢
    · exact loadFsinfo_proper some_ _
    · cases loaded
  refine ⟨on, sized, some_, has, ⟨⟨rfl, fun lba below => ?_, proper, .inr rfl⟩, fun _ => mountedAgain⟩,
    repaired.reserved here.2, ?_⟩
  · rw [repaired.reserved below, sectors, ← on, Context.sectorSize_eq accepted]
  · intro w boot same
    have boot' : w.medium 0 = v.medium 0 := boot.trans (repaired.reserved room)
    have again := initializeContext_run (v := w) first (by rw [boot', hc]; exact accepted)
      (by rw [boot', hc]; exact sized)
    rw [boot', hc] at again
    have tables' : TablesFine context w.medium := by
      refine (tablesFine_congr ?_).mpr tables
      rcases repaired.medium_eq with writes | kept
      · exact .inl writes
      · exact same.imp (fun writes => by rwa [on]) fun same => same.trans kept
    obtain ⟨w', -, ⟨-, -, ran'⟩ | ⟨refused, -⟩⟩ := again
    · exact ⟨_, ran', rfl⟩
    · exact absurd tables' refused

/-- A mount after a sync finds the counters that the context had, if and only if the FSInfo
sector was signed, or no sync had counters to save, or they say nothing. -/
theorem fsinfo_persists_iff (sectors : ∀ lba, (v.medium lba).length = device.logicalBlockSize)
    (mounted : runCode device (fat32InitializeContext device) v = (some context, v₀))
    (table : context.bpb.sectorsPerFat ≤ 2 ^ 21) (loaded : v₀.info.fsinfoValid = true)
    (synced : runCode device (fat32ContextSync context) (afterCalls context calls v₀) = (some (), w)) :
    (∃ w', runCode device (fat32InitializeContext device) w = (some context, w') ∧
        w'.info.freeClusterCount = (afterCalls context calls v₀).info.freeClusterCount ∧
        w'.info.nextFreeCluster = (afterCalls context calls v₀).info.nextFreeCluster) ↔
      fsinfoSigned (v.medium context.bpb.fsInfoSector) = true ∨ ¬Saves context (calls ++ [.sync]) v₀ ∨
        (afterCalls context calls v₀).info.freeClusterCount = FAT32_FSINFO_UNKNOWN ∧
          (afterCalls context calls v₀).info.nextFreeCluster = 2 := by
  obtain ⟨on, sized, some_, has, faithful, primary, again⟩ :=
    mount_faithful sectors mounted table loaded
  rw [← on] at synced again ⊢
  rw [← primary]
  have whole : w = afterCalls context (calls ++ [.sync]) v₀ := by
    rw [afterCalls, List.foldl_append, List.foldl_cons, List.foldl_nil, ← afterCalls, Call.after,
      Call.code, synced]
  have tracked := tracked_calls sized some_ has calls faithful.toTracked
  have tracked' := tracked_calls sized some_ has (calls ++ [.sync]) faithful.toTracked
  rw [← whole] at tracked'
  have kept : w.info = { (afterCalls context calls v₀).info with fsinfoDirty := false } :=
    sync_info sized some_ has tracked.proper.valid synced
  obtain ⟨w', ran, loads⟩ := again w tracked'.boot tracked'.device
  have mount : (∃ w', runCode context.device (fat32InitializeContext context.device) w = (some context, w') ∧
        w'.info.freeClusterCount = (afterCalls context calls v₀).info.freeClusterCount ∧
        w'.info.nextFreeCluster = (afterCalls context calls v₀).info.nextFreeCluster) ↔
      (context.mountedInfo w.medium).freeClusterCount = (afterCalls context calls v₀).info.freeClusterCount ∧
        (context.mountedInfo w.medium).nextFreeCluster =
          (afterCalls context calls v₀).info.nextFreeCluster := by
    rw [ran, ← loads]
    simp
  rw [mount]
  by_cases fine : fsinfoSigned (v₀.medium context.bpb.fsInfoSector) = true ∨
      ¬Saves context (calls ++ [.sync]) v₀
  · have held := faithful_calls sized some_ has faithful fine
    rw [← whole] at held
    rw [held.saved (by rw [kept]), kept]
    exact iff_of_true ⟨rfl, rfl⟩ (fine.imp_right .inl)
  · obtain ⟨unsigned, saves⟩ := not_or.mp fine
    rw [Bool.not_eq_true] at unsigned
    rw [not_not] at saves
    have writes : writable context.device = true := by
      by_contra refuses
      have dirty := dirty_calls sized some_ has (Bool.not_eq_true _ |>.mp refuses) faithful saves
      rw [← whole, kept] at dirty
      cases dirty
    have lost := lost_calls sized some_ has writes faithful unsigned saves
    rw [← whole] at lost
    rw [lost.mountedInfo]
    simp only [unsigned, Bool.false_eq_true, saves, not_true_eq_false, false_or, noFsinfo]
    exact and_congr eq_comm eq_comm

end Remount

end Runs

/-! ### A damaged FSInfo sector -/

def smallBoot : List UInt8 :=
  put (List.replicate 512 0) 11 [0, 2, 1, 32, 0, 2, 0, 0, 134, 0, 0, 0, 0, 0, 0, 0, 0, 0, 0, 0, 0, 0,
    0, 0, 0, 1, 0, 0, 0, 0, 0, 0, 0, 2, 0, 0, 0, 1, 0, 6, 0]

/-- An FSInfo sector with 99 free clusters from 3 on. -/
def smallFsinfo : List UInt8 :=
  putLE (putLE (putLE (putLE (putLE (List.replicate 512 0) 0 4 FAT32_FSINFO_LEAD_SIG) 484 4
    FAT32_FSINFO_STR_SIG) 488 4 99) 492 4 3) 508 4 FAT32_FSINFO_TRAIL_SIG

/-- A table in which the root directory has a cluster. -/
def smallTable : List UInt8 :=
  putLE (putLE (putLE (List.replicate 512 0) 0 4 0x0FFFFFF8) 4 4 0x0FFFFFFF) 8 4 0x0FFFFFFF

/-- The small volume, empty, with an FSInfo sector and its backup. -/
def smallDevice (fsinfo backup : List UInt8) : Volume where
  medium := fun lba =>
    if lba = 0 then smallBoot else if lba = 1 then fsinfo else if lba = 7 then backup
    else if lba = 32 ∨ lba = 33 then smallTable else List.replicate 512 0
  info := noFsinfo
  clock := []

/-- The file A gets a byte. -/
def smallWrite : Call := .writeFile [0x2F, 0x41] [0x42]

def mountedVolume (v : Volume) : Volume := (runCode smallDisk (fat32InitializeContext smallDisk) v).2

/-- The volume behind a mount, a write and a sync. -/
def syncedVolume (v : Volume) : Volume :=
  (runCode smallDisk (fat32ContextSync smallVolume)
    (afterCalls smallVolume [smallWrite] (mountedVolume v))).2

/-- Counters that a mount takes from the backup are lost by the next sync: 98 clusters are
free, and a fresh mount does not know. -/
theorem backup_overwritten : (runCode smallDisk (fat32InitializeContext smallDisk)
        (smallDevice (List.replicate 512 0) smallFsinfo)).1 = some smallVolume ∧
      (mountedVolume (smallDevice (List.replicate 512 0) smallFsinfo)).info = ⟨99, 3, true, false⟩ ∧
      (runCode smallDisk (fat32ContextSync smallVolume) (afterCalls smallVolume [smallWrite]
        (mountedVolume (smallDevice (List.replicate 512 0) smallFsinfo)))).1 = some () ∧
      (afterCalls smallVolume [smallWrite]
        (mountedVolume (smallDevice (List.replicate 512 0) smallFsinfo))).info = ⟨98, 4, true, true⟩ ∧
      (mountedVolume (syncedVolume (smallDevice (List.replicate 512 0) smallFsinfo))).info =
        ⟨FAT32_FSINFO_UNKNOWN, 2, false, false⟩ := by
  decide +kernel

theorem smallDevice_sectors {fsinfo backup : List UInt8} (primary : fsinfo.length = 512)
    (mirror : backup.length = 512) (lba : Nat) :
    ((smallDevice fsinfo backup).medium lba).length = smallDisk.logicalBlockSize := by
  have boot : smallBoot.length = 512 := by decide +kernel
  have table : smallTable.length = 512 := by decide +kernel
  simp only [smallDevice, smallDisk]
  split_ifs <;> simp only [boot, table, primary, mirror, List.length_replicate]

/-- With a signed FSInfo sector the count of 98 clusters is found again. -/
theorem smallDevice_mounted : runCode smallDisk (fat32InitializeContext smallDisk)
    (smallDevice smallFsinfo smallFsinfo) =
      (some smallVolume, mountedVolume (smallDevice smallFsinfo smallFsinfo)) :=
  Prod.ext (by decide +kernel) (by rw [mountedVolume])

theorem fsinfo_persists_small : ∃ w', runCode smallDisk (fat32InitializeContext smallDisk)
        (syncedVolume (smallDevice smallFsinfo smallFsinfo)) = (some smallVolume, w') ∧
      w'.info.freeClusterCount = (afterCalls smallVolume [smallWrite]
          (mountedVolume (smallDevice smallFsinfo smallFsinfo))).info.freeClusterCount ∧
      w'.info.nextFreeCluster = (afterCalls smallVolume [smallWrite]
          (mountedVolume (smallDevice smallFsinfo smallFsinfo))).info.nextFreeCluster := by
  have length : smallFsinfo.length = 512 := by decide +kernel
  have synced : runCode smallDisk (fat32ContextSync smallVolume)
      (afterCalls smallVolume [smallWrite] (mountedVolume (smallDevice smallFsinfo smallFsinfo))) =
        (some (), syncedVolume (smallDevice smallFsinfo smallFsinfo)) :=
    Prod.ext (by decide +kernel) (by rw [syncedVolume])
  have signed : fsinfoSigned ((smallDevice smallFsinfo smallFsinfo).medium
      smallVolume.bpb.fsInfoSector) = true := by decide +kernel
  exact (fsinfo_persists_iff (smallDevice_sectors length length) smallDevice_mounted (by decide)
    (by decide +kernel) synced).mpr (.inl signed)

end AsasOs.Fat32
