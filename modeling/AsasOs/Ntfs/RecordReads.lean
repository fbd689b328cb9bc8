import AsasOs.Ntfs.Streams
import AsasOs.Ntfs.TornWrites

/-!
# NTFS: what a read of a record depends on

A record that is read overwrites the buffer of the context. What it finds depends on the
disk only, and the disk is left alone: so do the streams that are collected of it.

## Main results

- `readMftRecord_twin`: a record is read in the same way, whatever the buffer holds before.
- `collectAttributeStream_keeps`: collecting a stream leaves the disk alone.
-/
namespace AsasOs.Ntfs

open Bytes Packed Attempts

/-! ### Buffers that differ -/

def SameDisk (m m' : NtfsMachine) : Prop := m.disk = m'.disk

/-- Two machines with the same disk, whose buffers begin with the same bytes. -/
def SameUpTo (size : Nat) (m m' : NtfsMachine) : Prop := m.disk = m'.disk ∧ Same size m.mftBuf m'.mftBuf

section Twins

variable {volume : NtfsVolume} {α : Type} {after : α → NtfsMachine → NtfsMachine → Prop}
  {before : NtfsMachine → NtfsMachine → Prop} {size : Nat}

theorem twin_check {condition : Prop} [Decidable condition] {rest : NtfsCode α}
    (disk : ∀ m m', before m m' → SameDisk m m') (holds : condition → Twin before SameDisk after rest) :
    Twin before SameDisk after (check condition >>= fun _ => rest) := by
  unfold check
  split
  next fulfilled => exact holds fulfilled
  next => exact twin_failure disk

theorem twin_readSector {context : NtfsContext} {lba : Nat}
    (disk : ∀ m m', before m m' → SameDisk m m') :
    Twin before SameDisk (fun _ => before) (readSector context lba) := by
  intro m m' related
  have same := disk m m' related
  unfold readSector
  simp only [attempt_bind, attempt_state, attempt_need]
  rw [← same]
  cases ntfsReadSector context m.disk lba with
  | none => exact same
  | some sector => exact ⟨rfl, related⟩

theorem twin_copy {data : List UInt8} {rest : NtfsCode α}
    (twin : Twin (SameUpTo (size + data.length)) SameDisk after rest) :
    Twin (SameUpTo size) SameDisk after (do
      let buffer ← mftBuffer
      setMftBuffer (patch buffer size data)
      rest) := by
  intro m m' ⟨disk, same⟩
  have longer : SameUpTo (size + data.length) { m with mftBuf := patch m.mftBuf size data }
      { m' with mftBuf := patch m'.mftBuf size data } := by
    refine ⟨disk, fun k below => ?_⟩
    dsimp only
    unfold patch
    split
    · rfl
    next outside => exact same k (by omega)
  exact twin _ _ longer

theorem readMirrorSectors_twin (steps : Nat) : ∀ physicalByte read, volume.mftRecordSize ≤ read + steps →
    Twin (SameUpTo read) SameDisk (fun _ => SameUpTo volume.mftRecordSize)
      (readMirrorSectors volume steps physicalByte read) := by
  induction steps with
  | zero =>
    intro physicalByte read enough
    exact twin_pure fun m m' same => ⟨same.1, fun k below => same.2 k (by omega)⟩
  | succ steps ih =>
    intro physicalByte read enough
    rw [readMirrorSectors]
    split
    next more =>
      have large := volume.sector_pos
      have within := Nat.mod_lt physicalByte (by omega : 0 < volume.bytesPerSector)
      refine twin_bind (twin_readSector fun _ _ same => same.1) fun sector => twin_copy ?_
      rw [window_length]
      exact ih _ _ (by omega)
    next => exact twin_pure fun m m' same => ⟨same.1, fun k below => same.2 k (by omega)⟩

theorem validateLoadedFileRecord_twin : Twin (SameUpTo volume.mftRecordSize) SameDisk
    (fun _ => SameUpTo volume.mftRecordSize) (validateLoadedFileRecord volume) := by
  intro m m' ⟨disk, same⟩
  have both := @Same.applyFixup _ volume.bytesPerSector _ _ same
  have large : (applyFixup m.mftBuf volume.mftRecordSize volume.bytesPerSector).isSome → 8 ≤ volume.mftRecordSize :=
    fun some => (fixupValid_iff.mp (applyFixup_isSome.mp some).1).1.1
  unfold validateLoadedFileRecord mftBuffer setMftBuffer
  simp only [attempt_bind, attempt_state, attempt_need, attempt_pure]
  generalize applyFixup m.mftBuf volume.mftRecordSize volume.bytesPerSector = applied at both large ⊢
  generalize applyFixup m'.mftBuf volume.mftRecordSize volume.bytesPerSector = applied' at both ⊢
  cases both with
  | none => exact disk
  | @some record record' agree =>
    have signature : window record' 0 4 = window record 0 4 :=
      window_congr fun i _ below => (agree i (by have := large rfl; omega)).symm
    simp only [attempt_change, check, signature]
    by_cases file : window record 0 4 = [0x46, 0x49, 0x4C, 0x45]
    · rw [if_pos file]
      exact ⟨trivial, disk, agree⟩
    · rw [if_neg file]
      exact disk

theorem readMftMirrorRecord_twin (recordN : Nat) : Twin SameDisk SameDisk
    (fun _ => SameUpTo volume.mftRecordSize) (readMftMirrorRecord volume recordN) := by
  refine twin_check (fun _ _ same => same) fun _ => ?_
  refine twin_bind (twin_mono (readMirrorSectors_twin _ _ 0 (by omega)) fun m m' disk => ?_)
    fun _ => validateLoadedFileRecord_twin
  exact ⟨disk, fun _ none => absurd none (Nat.not_lt_zero _)⟩

theorem readMftSectors_twin (run : NtfsRun) (runBytes steps : Nat) : ∀ byteOffset readSoFar,
    Twin (SameUpTo readSoFar) SameDisk SameUpTo (readMftSectors volume run runBytes steps byteOffset readSoFar) := by
  induction steps with
  | zero => exact fun _ _ => twin_pure fun _ _ same => same
  | succ steps ih =>
    intro byteOffset readSoFar
    rw [readMftSectors]
    split
    next more =>
      refine twin_bind (twin_readSector fun _ _ same => same.1) fun sector => twin_copy ?_
      rw [window_length]
      exact ih _ _
    next => exact twin_pure fun _ _ same => same

theorem readMftRuns_twin (runs : List NtfsRun) : ∀ byteOffset readSoFar,
    Twin (SameUpTo readSoFar) SameDisk SameUpTo (readMftRuns volume runs byteOffset readSoFar) := by
  induction runs with
  | nil => exact fun _ _ => twin_pure fun _ _ same => same
  | cons run runs ih =>
    intro byteOffset readSoFar
    rw [readMftRuns]
    split
    · dsimp only
      split
      · exact ih _ _
      · split
        · exact twin_failure fun _ _ same => same.1
        · exact twin_bind (readMftSectors_twin run _ _ _ _) fun readSoFar => ih 0 readSoFar
    · exact twin_pure fun _ _ same => same

theorem readPrimaryRecord_twin (recordN : Nat) : Twin SameDisk SameDisk
    (fun _ => SameUpTo volume.mftRecordSize) (readPrimaryRecord volume recordN) := by
  refine twin_bind (twin_mono (readMftRuns_twin volume.mftRuns _ 0) fun m m' disk => ?_) fun readSoFar => ?_
  · exact ⟨disk, fun _ none => absurd none (Nat.not_lt_zero _)⟩
  · refine twin_check (fun _ _ same => same.1) fun whole => ?_
    refine twin_mono validateLoadedFileRecord_twin fun m m' same => ⟨same.1, fun k below => same.2 k ?_⟩
    omega

/-- Whether a record can be read, and what it holds, depends on the disk only. -/
theorem readMftRecord_twin (recordN : Nat) : Twin SameDisk SameDisk
    (fun _ => SameUpTo volume.mftRecordSize) (readMftRecord volume recordN) :=
  twin_orElse (readPrimaryRecord_twin recordN) (readMftMirrorRecord_twin recordN)

end Twins

/-- A record as it is on a disk, its fixups applied. -/
def loadedRecord (volume : NtfsVolume) (disk : NtfsDisk) (recordN : Nat) : Option Memory :=
  let result := runNtfs (readMftRecord volume recordN) ⟨disk, fun _ => 0⟩
  result.1.map fun _ => result.2.mftBuf

/-! ### The disk is left alone -/

section Keeping

variable {volume : NtfsVolume}

theorem keeps_check {condition : Prop} [Decidable condition] :
    Keeps NtfsMachine.disk (check condition) := by
  unfold check
  split
  · exact keeps_pure _
  · exact keeps_failure

theorem keeps_readSector {context : NtfsContext} {lba : Nat} :
    Keeps NtfsMachine.disk (readSector context lba) :=
  keeps_bind keeps_state fun _ => keeps_need _

theorem keeps_mftBuffer : Keeps NtfsMachine.disk mftBuffer := keeps_bind keeps_state fun _ => keeps_pure _

theorem keeps_setMftBuffer {buffer : Memory} : Keeps NtfsMachine.disk (setMftBuffer buffer) :=
  keeps_change fun _ => rfl

theorem readMirrorSectors_keeps (steps : Nat) : ∀ physicalByte read,
    Keeps NtfsMachine.disk (readMirrorSectors volume steps physicalByte read) := by
  induction steps with
  | zero => exact fun _ _ => keeps_pure _
  | succ steps ih =>
    intro physicalByte read
    rw [readMirrorSectors]
    split
    · exact keeps_bind keeps_readSector fun _ => keeps_bind keeps_mftBuffer fun _ =>
        keeps_bind keeps_setMftBuffer fun _ => ih _ _
    · exact keeps_pure _

theorem validateLoadedFileRecord_keeps : Keeps NtfsMachine.disk (validateLoadedFileRecord volume) :=
  keeps_bind keeps_mftBuffer fun _ => keeps_bind (keeps_need _) fun _ => keeps_bind keeps_setMftBuffer fun _ =>
    keeps_check

theorem readMftSectors_keeps (run : NtfsRun) (runBytes steps : Nat) : ∀ byteOffset readSoFar,
    Keeps NtfsMachine.disk (readMftSectors volume run runBytes steps byteOffset readSoFar) := by
  induction steps with
  | zero => exact fun _ _ => keeps_pure _
  | succ steps ih =>
    intro byteOffset readSoFar
    rw [readMftSectors]
    split
    · exact keeps_bind keeps_readSector fun _ => keeps_bind keeps_mftBuffer fun _ =>
        keeps_bind keeps_setMftBuffer fun _ => ih _ _
    · exact keeps_pure _

theorem readMftRuns_keeps (runs : List NtfsRun) : ∀ byteOffset readSoFar,
    Keeps NtfsMachine.disk (readMftRuns volume runs byteOffset readSoFar) := by
  induction runs with
  | nil => exact fun _ _ => keeps_pure _
  | cons run runs ih =>
    intro byteOffset readSoFar
    rw [readMftRuns]
    split
    · dsimp only
      split
      · exact ih _ _
      · split
        · exact keeps_failure
        · exact keeps_bind (readMftSectors_keeps run _ _ _ _) fun _ => ih _ _
    · exact keeps_pure _

theorem readMftRecord_keeps (recordN : Nat) : Keeps NtfsMachine.disk (readMftRecord volume recordN) :=
  keeps_orElse
    (keeps_bind (readMftRuns_keeps _ _ _) fun _ => keeps_bind keeps_check fun _ => validateLoadedFileRecord_keeps)
    (keeps_bind keeps_check fun _ => keeps_bind (readMirrorSectors_keeps _ _ _) fun _ => validateLoadedFileRecord_keeps)

theorem appendLoaded_keeps {wanted : Wanted} {stream : AttributeStream} :
    Keeps NtfsMachine.disk (appendLoaded volume wanted stream) :=
  keeps_bind keeps_mftBuffer fun _ => keeps_bind (keeps_need _) fun _ => keeps_need _

theorem readList_keeps {stream : AttributeStream} {available : Nat} :
    Keeps NtfsMachine.disk (readList volume stream available) :=
  keeps_bind keeps_state fun _ => keeps_bind keeps_check fun _ => keeps_pure _

theorem expandList_keeps {dataSize : Nat} (steps : Nat) : ∀ offset stream list,
    Keeps NtfsMachine.disk (expandList volume dataSize steps offset stream list) := by
  induction steps with
  | zero => exact fun _ _ _ => keeps_pure _
  | succ steps ih =>
    intro offset stream list
    rw [expandList]
    split
    · dsimp only
      split
      · exact keeps_pure _
      · split
        · exact keeps_bind (readMftRecord_keeps _) fun _ => keeps_bind appendLoaded_keeps fun _ =>
            keeps_bind keeps_check fun _ => keeps_bind readList_keeps fun _ => ih _ _ _
        · exact ih _ _ _
    · exact keeps_pure _

theorem loadAttributeList_keeps : Keeps NtfsMachine.disk (loadAttributeList volume) := by
  refine keeps_bind keeps_mftBuffer fun mft => ?_
  split
  · exact keeps_pure _
  · refine keeps_bind keeps_check fun _ => ?_
    split
    · exact keeps_pure _
    · exact keeps_bind (keeps_need _) fun _ => keeps_bind readList_keeps fun _ =>
        keeps_bind (expandList_keeps _ _ _ _) fun _ => keeps_bind keeps_check fun _ => keeps_pure _

theorem collectEntries_keeps {name : StreamName} {list : List UInt8} (steps : Nat) : ∀ offset stream,
    Keeps NtfsMachine.disk (collectEntries volume name list steps offset stream) := by
  induction steps with
  | zero => exact fun _ _ => keeps_pure _
  | succ steps ih =>
    intro offset stream
    rw [collectEntries]
    split
    · dsimp only
      split
      · exact keeps_failure
      · split
        · exact keeps_bind (readMftRecord_keeps _) fun _ => keeps_bind appendLoaded_keeps fun _ => ih _ _
        · exact ih _ _
    · exact keeps_pure _

/-- Collecting a stream leaves the disk alone. -/
theorem collectAttributeStream_keeps (name : StreamName) :
    Keeps NtfsMachine.disk (collectAttributeStream volume name) := by
  refine keeps_bind (readMftRecord_keeps _) fun _ => keeps_bind loadAttributeList_keeps fun list => ?_
  cases list with
  | none => exact appendLoaded_keeps
  | some list =>
    refine keeps_bind (collectEntries_keeps _ _ _) fun stream => ?_
    split
    · exact keeps_pure _
    · exact keeps_bind (readMftRecord_keeps _) fun _ => appendLoaded_keeps

end Keeping

/-! ### The record that is loaded -/

section Loaded

variable {volume : NtfsVolume} {m m' : NtfsMachine} {recordN : Nat}

theorem validateLoadedFileRecord_large
    (done : runNtfs (validateLoadedFileRecord volume) m = (some (), m')) :
    512 ≤ volume.mftRecordSize := by
  obtain ⟨buffer, t, _, later⟩ := attempt_bind_some done
  obtain ⟨applied, t', fixed, _⟩ := attempt_bind_some later
  rw [attempt_need, Prod.mk.injEq] at fixed
  have valid := (applyFixup_isSome.mp (Option.isSome_iff_exists.mpr ⟨applied, fixed.1⟩)).1
  exact (fixupValid_sizes valid volume.fits.2).2.2.2

theorem readMftRecord_large (done : runNtfs (readMftRecord volume recordN) m = (some (), m')) :
    512 ≤ volume.mftRecordSize := by
  unfold runNtfs readMftRecord at done
  rw [attempt_orElse] at done
  rcases first : attempt (readPrimaryRecord volume recordN) m with ⟨_ | value, t⟩
  · rw [first] at done
    obtain ⟨_, t', _, later⟩ := attempt_bind_some done
    obtain ⟨_, t'', _, valid⟩ := attempt_bind_some later
    exact validateLoadedFileRecord_large valid
  · obtain ⟨_, t', _, later⟩ := attempt_bind_some first
    obtain ⟨_, t'', _, valid⟩ := attempt_bind_some later
    exact validateLoadedFileRecord_large valid

theorem readMftRecord_loaded {disk : NtfsDisk} {image : Memory}
    (loaded : loadedRecord volume disk recordN = some image)
    (same : m.disk = disk) : ∃ m', runNtfs (readMftRecord volume recordN) m = (some (), m') ∧
    m'.disk = disk ∧
      512 ≤ volume.mftRecordSize ∧ Same volume.mftRecordSize m'.mftBuf image := by
  have twin := @readMftRecord_twin volume recordN m ⟨disk, fun _ => 0⟩ same
  have kept := @readMftRecord_keeps volume recordN ⟨disk, fun _ => 0⟩
  unfold loadedRecord runNtfs at loaded
  rcases first : attempt (readMftRecord volume recordN) ⟨disk, fun _ => 0⟩ with ⟨_ | value, t⟩
  · rw [first] at loaded
    cases loaded
  · rw [first] at loaded twin kept
    cases loaded
    rcases second : attempt (readMftRecord volume recordN) m with ⟨_ | value', m'⟩
    · rw [second] at twin
      exact twin.elim
    · rw [second] at twin
      exact ⟨m', second, twin.2.1.trans kept, readMftRecord_large second, twin.2.2⟩

end Loaded

/-! ### The attributes of a loaded record -/

section Views

variable {volume : NtfsVolume} {mft mft' : Memory} {position size : Nat} {wanted : Wanted} {view : AttrView}

def Wanted.identified (wanted : Wanted) (id vcn : Nat) : Bool :=
  wanted.identity.all fun identity => id == identity.1 && vcn == identity.2

/-- An attribute that was found, and where. -/
structure Viewed (volume : NtfsVolume) (mft : Memory) (view : AttrView) (position : Nat) : Prop where
  fits : AttributeAt mft position
  within : usedSize mft ≤ volume.mftRecordSize
  shape : view = residentView mft position ∧ residentValid mft position = true ∨
    view = nonresidentView mft position ∧ runlistOffset mft position < attributeLength mft position

theorem Viewed.inside {position : Nat} (viewed : Viewed volume mft view position) :
    view.value + view.valueLength ≤ volume.mftRecordSize ∧
      view.runlist + view.runlistLength ≤ volume.mftRecordSize := by
  have inside := viewed.fits.inside
  have within := viewed.within
  change position + attributeLength mft position ≤ _ at inside
  rcases viewed.shape with ⟨rfl, valid⟩ | ⟨rfl, room⟩
  · simp only [residentValid, Bool.and_eq_true, decide_eq_true_eq] at valid
    simp only [residentView]
    omega
  · simp only [nonresidentView]
    omega

end Views

/-! ### What a stream depends on -/

section StreamTwins

variable {volume : NtfsVolume} {before : NtfsMachine → NtfsMachine → Prop} {stream : AttributeStream}

end StreamTwins

end AsasOs.Ntfs
