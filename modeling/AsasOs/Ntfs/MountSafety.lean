import AsasOs.Ntfs.Mount
import AsasOs.Ntfs.TornWrites

/-!
# NTFS: the mount stays in its buffers

The sizes in the boot sector are checked, and so are the fixups of every record. The
attributes of the volume record are checked one by one. Those of the MFT record 0 are
not: where their lengths and the run list lead decides whether the mount ends, and whether
it stays in the buffer.

## Main results

- `applyFixup_eq`: fixups are applied inside the record.
- `readMftRecord_safe`: an MFT record is read inside the buffer.
- `mount_safe_iff`: when the mount is safe.
-/
namespace AsasOs.Ntfs.Mount

open Bytes Checked

section Accesses

variable {size position width : Nat} {buffer : Memory} {data : List UInt8}

theorem access_eq (inside : position + width ≤ size) :
    access size position width = .ok () := if_pos (Or.inr inside)

theorem peek_eq (inside : position + width ≤ size) :
    peek size buffer position width = .ok (wordAt buffer position width) := by
  rw [peek, access_eq inside]
  rfl

theorem poke_eq (inside : position + data.length ≤ size) :
    poke size buffer position data = .ok (patch buffer position data) := by
  rw [poke, access_eq inside]
  rfl

theorem copied_eq (inside : position + width ≤ size) :
    copied size buffer position width = .ok (window buffer position width) := by
  rw [copied, access_eq inside]
  rfl

theorem peek_outside (some : width ≠ 0) (outside : ¬position + width ≤ size) :
    peek size buffer position width = .error .outside := by
  rw [peek, access, if_neg (not_or.mpr ⟨some, outside⟩)]
  rfl

theorem peek_safe (inside : position + width ≤ size) :
    Safe (peek size buffer position width) fun value => value = wordAt buffer position width := by
  rw [peek_eq inside]
  exact safe_ok rfl

end Accesses

/-! ### The boot sector -/

structure Sized (boot : NtfsBoot) : Prop where
  sector : 512 ≤ boot.bytesPerSector ∧ boot.bytesPerSector ≤ 4096
  record : 0 < boot.recordSize ∧ boot.recordSize ≤ 4096

theorem sized_of_accepted {device : NtfsDevice} {boot : NtfsBoot}
    (accepted : sizesAccepted device boot = true) :
    Sized boot := by
  simp only [sizesAccepted, MFT_BUF_SIZE, Bool.and_eq_true, Bool.or_eq_true, beq_iff_eq, bne_iff_ne,
    Bool.not_eq_true', Bool.or_eq_false_iff, beq_eq_false_iff_ne, decide_eq_false_iff_not,
    gt_iff_lt, not_lt] at accepted
  obtain ⟨⟨⟨⟨sector, _⟩, _⟩, record⟩, _⟩ := accepted
  exact ⟨by omega, by omega⟩

theorem readBoot_safe (device : NtfsDevice) : Safe (readBoot device) Sized := by
  refine safe_bind safe_supplied fun bootSec _ => ?_
  have inside : ∀ position width, position + width ≤ 72 → Safe (peek NTFS_MAX_SECTOR_SIZE bootSec position width)
      fun value => value = wordAt bootSec position width :=
    fun position width small => peek_safe (by unfold NTFS_MAX_SECTOR_SIZE; omega)
  refine safe_bind (inside 11 2 (by decide)) fun _ _ => safe_bind (inside 13 1 (by decide)) fun _ _ => ?_
  refine safe_bind (inside 40 8 (by decide)) fun _ _ => safe_bind (inside 48 8 (by decide)) fun _ _ => ?_
  refine safe_bind (inside 56 8 (by decide)) fun _ _ => safe_bind (inside 64 1 (by decide)) fun _ _ => ?_
  refine safe_bind (inside 68 1 (by decide)) fun _ _ => ?_
  exact safe_bind safe_demand fun _ accepted => safe_pure (sized_of_accepted accepted)

/-! ### Update sequences -/

section Fixups

variable {record : Memory} {recordSize sectorSize : Nat}

theorem checkedFixup_eq : checkedFixup record recordSize sectorSize =
    if fixupValid record recordSize sectorSize then .ok (recordSize / sectorSize, wordAt record 4 2)
    else .error .refused := by
  unfold checkedFixup NTFS_MAX_SECTOR_SIZE
  rw [peek_eq (by decide), peek_eq (by decide)]
  by_cases sizes : recordSize < 8 ∨ sectorSize < 512 ∨ sectorSize > 4096 ∨ recordSize % sectorSize ≠ 0
  · have invalid : ¬fixupValid record recordSize sectorSize = true := fun valid => by
      obtain ⟨sized, _⟩ := fixupValid_iff.mp valid
      omega
    rw [demand_fails (not_not.mpr sizes), if_neg invalid, error_bind]
  · rw [demand_holds sizes]
    dsimp only [ok_bind]
    by_cases array : wordAt record 4 2 < 8 ∨ wordAt record 4 2 % 2 ≠ 0 ∨
        wordAt record 6 2 ≠ recordSize / sectorSize + 1 ∨ wordAt record 4 2 + wordAt record 6 2 * 2 > recordSize
    · have invalid : ¬fixupValid record recordSize sectorSize = true := fun valid => by
        obtain ⟨_, fields⟩ := fixupValid_iff.mp valid
        omega
      rw [demand_fails (not_not.mpr array), if_neg invalid, error_bind]
    · rw [demand_holds array, if_pos (fixupValid_iff.mpr (by omega))]
      rfl

/-- Fixups are applied inside the record. -/
theorem applyFixup_eq (small : recordSize ≤ MFT_BUF_SIZE) : applyFixup record recordSize sectorSize =
    match Ntfs.applyFixup record recordSize sectorSize with
    | some applied => .ok applied
    | none => .error .refused := by
  unfold applyFixup Ntfs.applyFixup
  rw [checkedFixup_eq]
  cases valid : fixupValid record recordSize sectorSize with
  | false => rfl
  | true =>
    have inside : ∀ i ∈ List.range (recordSize / sectorSize), _ := fun i member =>
      fixup_inside valid (List.mem_range.mp member)
    have checks : ∀ i ∈ List.range (recordSize / sectorSize),
        (peek MFT_BUF_SIZE record (tailAt sectorSize (i + 1)) 2 >>= fun word =>
          demand (word = wordAt record (wordAt record 4 2) 2)) =
        demand (wordAt record (tailAt sectorSize (i + 1)) 2 = wordAt record (wordAt record 4 2) 2) := fun i member => by
      rw [peek_eq ((inside i member).1.trans small)]
      rfl
    have tails : ∀ record', ∀ i ∈ List.range (recordSize / sectorSize),
        (peek MFT_BUF_SIZE record' (wordAt record 4 2 + 2 * (i + 1)) 2 >>= fun saved =>
          poke MFT_BUF_SIZE record' (tailAt sectorSize (i + 1)) (digits 2 saved)) =
        .ok (patch record' (tailAt sectorSize (i + 1))
          (digits 2 (wordAt record' (wordAt record 4 2 + 2 * (i + 1)) 2))) := fun record' i member => by
      rw [peek_eq ((inside i member).2.trans small), ok_bind, poke_eq]
      rw [digits_length]
      exact (inside i member).1.trans small
    have first := (fixup_first valid).trans small
    rw [if_pos rfl, ok_bind]
    dsimp only
    rw [peek_eq first, ok_bind, forM_demand checks, foldlM_ok tails]
    simp only [Bool.not_true, Bool.false_eq_true, if_false, List.any_eq_true, bne_iff_ne]
    by_cases all : ∀ i ∈ List.range (recordSize / sectorSize),
        wordAt record (tailAt sectorSize (i + 1)) 2 = wordAt record (wordAt record 4 2) 2
    · rw [demand_holds all, if_neg fun ⟨i, member, differs⟩ => differs (all i member)]
      rfl
    · rw [demand_fails all, if_pos (by push Not at all; exact all)]
      rfl

theorem protectFixup_safe (small : recordSize ≤ MFT_BUF_SIZE) :
    Safe (protectFixup record recordSize sectorSize) fun _ => True := by
  unfold protectFixup
  rw [checkedFixup_eq]
  cases valid : fixupValid record recordSize sectorSize with
  | false => exact rfl
  | true =>
    have first := (fixup_first valid).trans small
    rw [if_pos rfl, ok_bind]
    dsimp only
    rw [peek_eq first, ok_bind, poke_eq (by rw [digits_length]; exact first), ok_bind]
    refine safe_foldlM (fun record' _ i member => ?_) _ trivial
    obtain ⟨tail, saved⟩ := fixup_inside valid (List.mem_range.mp member)
    rw [peek_eq (tail.trans small), ok_bind, poke_eq (by rw [digits_length]; exact saved.trans small), ok_bind,
      poke_eq (by rw [digits_length]; exact tail.trans small)]
    trivial

theorem validated_eq (small : recordSize ≤ MFT_BUF_SIZE) : validated record recordSize sectorSize =
    .ok (match Ntfs.applyFixup record recordSize sectorSize with
      | some applied => (isFile applied, applied)
      | none => (false, record)) := by
  unfold validated
  rw [applyFixup_eq small]
  cases Ntfs.applyFixup record recordSize sectorSize with
  | none => rfl
  | some applied =>
    dsimp only
    rw [copied_eq (by decide)]
    rfl

end Fixups

/-! ### MFT record 0 -/

/-- The bytes of a record that begins at a sector, in `mft_buf`. -/
def zeroImage (device : NtfsDevice) (boot : NtfsBoot) (mftLba : Nat) (mft : Memory) : Option Memory :=
  (List.range ((boot.recordSize + boot.bytesPerSector - 1) / boot.bytesPerSector)).foldlM (fun mft i =>
    (device.sector ((mftLba + i) % 2 ^ 64)).map fun sec =>
      patch mft (i * boot.bytesPerSector)
        (window sec 0 (min (boot.recordSize - i * boot.bytesPerSector) boot.bytesPerSector))) mft

/-- The buffer after the two tests of a record, and whether it passes them. -/
def tested (boot : NtfsBoot) (image : Memory) : Bool × Memory :=
  match Ntfs.applyFixup image boot.recordSize boot.bytesPerSector with
  | some applied => (isFile applied, applied)
  | none => (false, image)

/-- The MFT record 0 of a disk: the one in the MFT, or else that in the mirror. -/
def recordZero (device : NtfsDevice) (boot : NtfsBoot) (mft : Memory) : Option Memory := do
  let image ← zeroImage device boot (boot.mftLcn * boot.sectorsPerCluster % 2 ^ 64) mft
  let primary := tested boot image
  if primary.1 then some primary.2
  else do
    let image ← zeroImage device boot (boot.mftMirrorLcn * boot.sectorsPerCluster % 2 ^ 64) primary.2
    let mirror := tested boot image
    if mirror.1 then some mirror.2 else none

section Zero

variable {device : NtfsDevice} {boot : NtfsBoot} {mft : Memory}

theorem readZero_eq (sized : Sized boot) (mftLba : Nat) :
    readZero device boot mftLba mft = supplied (zeroImage device boot mftLba mft) := by
  obtain ⟨⟨sector, small⟩, _, record⟩ := sized
  refine foldlM_supplied (fun mft i member => ?_) mft
  have below := List.mem_range.mp member
  rw [Nat.lt_div_iff_mul_lt (by omega)] at below
  cases device.sector ((mftLba + i) % 2 ^ 64) with
  | none => rfl
  | some sec =>
    have chunk : min (boot.recordSize - i * boot.bytesPerSector) boot.bytesPerSector ≤ NTFS_MAX_SECTOR_SIZE := by
      unfold NTFS_MAX_SECTOR_SIZE
      omega
    have room : i * boot.bytesPerSector +
        min (boot.recordSize - i * boot.bytesPerSector) boot.bytesPerSector ≤ MFT_BUF_SIZE := by
      unfold MFT_BUF_SIZE
      omega
    change (copied _ sec 0 _ >>= fun chunk => poke _ mft _ chunk) = _
    rw [copied_eq (by omega), ok_bind, poke_eq (by rw [window_length]; exact room)]
    rfl

theorem loadZero_eq (sized : Sized boot) : loadZero device boot mft =
    supplied (recordZero device boot mft) := by
  have validated_tested : ∀ image, validated image boot.recordSize boot.bytesPerSector = .ok (tested boot image) :=
    fun image => validated_eq sized.record.2
  unfold loadZero recordZero
  rw [readZero_eq sized]
  cases zeroImage device boot (boot.mftLcn * boot.sectorsPerCluster % 2 ^ 64) mft with
  | none => rfl
  | some image =>
    simp only [supplied, ok_bind, validated_tested, Option.bind_eq_bind, Option.bind_some]
    cases passes : (tested boot image).1 with
    | true => simp only [if_true]; rfl
    | false =>
      simp only [Bool.false_eq_true, if_false, readZero_eq sized]
      cases zeroImage device boot (boot.mftMirrorLcn * boot.sectorsPerCluster % 2 ^ 64) (tested boot image).2 with
      | none => rfl
      | some copy =>
        simp only [supplied, ok_bind, Option.bind_some]
        cases copies : (tested boot copy).1 with
        | true => rfl
        | false => rfl

end Zero

/-! ### The attributes of the MFT record 0 -/

def nextAttribute (mft : Memory) (off : Nat) : Nat := (off + attributeLength mft off) % 2 ^ 32

def IsData (mft : Memory) (off : Nat) : Prop := attributeType mft off = ATTR_DATA ∧
    nonResident mft off = true

instance (mft : Memory) (off : Nat) : Decidable (IsData mft off) := inferInstanceAs (Decidable (_ ∧ _))

/-- The used part of the record goes on here. -/
def Continues (mft : Memory) (off : Nat) : Prop :=
  off + 16 ≤ usedSize mft ∧ attributeType mft off ≠ ATTR_END ∧ attributeLength mft off ≠ 0

instance (mft : Memory) (off : Nat) : Decidable (Continues mft off) := inferInstanceAs (Decidable (_ ∧ _))

/-- How many bytes of an attribute the walk looks at. -/
def attributeBytes (mft : Memory) (off : Nat) : Nat :=
  if attributeType mft off = ATTR_END then 4
  else if attributeLength mft off = 0 ∨ attributeType mft off ≠ ATTR_DATA then 8
  else if nonResident mft off then 56 else 9

/-- The bytes that are looked at lie in the buffer. -/
def AttributeInside (mft : Memory) (off : Nat) : Prop :=
  off + 16 ≤ usedSize mft → off + attributeBytes mft off ≤ MFT_BUF_SIZE

def foundData (mft : Memory) (off : Nat) : FoundData :=
  ⟨off + runlistOffset mft off, sub32 (attributeLength mft off) (runlistOffset mft off), wordAt mft (off + 48) 8⟩

section ZeroWalk

variable {mft : Memory} {off : Nat}

theorem wordAt_one (memory : Memory) (position : Nat) :
    wordAt memory position 1 = (memory position).toNat := by
  simp [wordAt, window, value]

theorem nonResident_iff : wordAt mft (off + 8) 1 ≠ 0 ↔ nonResident mft off = true := by
  rw [wordAt_one, nonResident, bne_iff_ne, ne_eq, ne_eq, ← UInt8.toNat_inj]
  rfl

theorem attributeBytes_le (mft : Memory) (off : Nat) : 4 ≤ attributeBytes mft off := by
  unfold attributeBytes
  split
  · omega
  · split
    · omega
    · split <;> omega

theorem dataRound_eq (bytes : attributeBytes mft off = 56) : (do
    let runlistOffset ← peek MFT_BUF_SIZE mft (off + 32) 2
    let dataSize ← peek MFT_BUF_SIZE mft (off + 48) 8
    pure (.inr (some ⟨off + runlistOffset, sub32 (attributeLength mft off) runlistOffset, dataSize⟩)) :
      Run (Nat ⊕ Option FoundData)) =
    if off + attributeBytes mft off ≤ MFT_BUF_SIZE then .ok (.inr (some (foundData mft off)))
    else .error .outside := by
  rw [bytes]
  by_cases inside : off + 56 ≤ MFT_BUF_SIZE
  · rw [if_pos inside, peek_eq (by omega), ok_bind, peek_eq (by omega)]
    rfl
  · rw [if_neg inside, peek_outside (by decide) (by omega : ¬off + 48 + 8 ≤ MFT_BUF_SIZE)]
    by_cases first : off + 32 + 2 ≤ MFT_BUF_SIZE
    · rw [peek_eq first]
      rfl
    · rw [peek_outside (by decide) first]
      rfl

theorem lengthRound_eq (used : off + 16 ≤ usedSize mft) (open' : attributeType mft off ≠ ATTR_END) : (do
    let length ← peek MFT_BUF_SIZE mft (off + 4) 4
    if length = 0 then pure (.inr none)
    else if attributeType mft off = ATTR_DATA then do
      let nonResident ← peek MFT_BUF_SIZE mft (off + 8) 1
      if nonResident ≠ 0 then do
        let runlistOffset ← peek MFT_BUF_SIZE mft (off + 32) 2
        let dataSize ← peek MFT_BUF_SIZE mft (off + 48) 8
        pure (.inr (some ⟨off + runlistOffset, sub32 length runlistOffset, dataSize⟩))
      else pure (.inl ((off + length) % 2 ^ 32))
    else pure (.inl ((off + length) % 2 ^ 32)) : Run (Nat ⊕ Option FoundData)) =
    if off + attributeBytes mft off ≤ MFT_BUF_SIZE then
      .ok (if Continues mft off then if IsData mft off then .inr (some (foundData mft off))
        else .inl (nextAttribute mft off) else .inr none)
    else .error .outside := by
  by_cases inside : off + 4 + 4 ≤ MFT_BUF_SIZE
  · rw [peek_eq inside, ok_bind, ← attributeLength]
    by_cases zero : attributeLength mft off = 0
    · have bytes : attributeBytes mft off = 8 := by rw [attributeBytes, if_neg open', if_pos (Or.inl zero)]
      rw [if_pos zero, bytes, if_pos inside, if_neg fun goesOn => goesOn.2.2 zero]
      rfl
    · have goesOn : Continues mft off := ⟨used, open', zero⟩
      rw [if_neg zero, if_pos goesOn]
      by_cases data : attributeType mft off = ATTR_DATA
      · have bytes : attributeBytes mft off = if nonResident mft off then 56 else 9 := by
          rw [attributeBytes, if_neg open', if_neg (not_or.mpr ⟨zero, not_not.mpr data⟩)]
        rw [if_pos data]
        by_cases kind : off + 8 + 1 ≤ MFT_BUF_SIZE
        · rw [peek_eq kind, ok_bind]
          by_cases runs : nonResident mft off = true
          · rw [if_pos runs] at bytes
            have found : IsData mft off := ⟨data, runs⟩
            rw [if_pos (nonResident_iff.mpr runs), if_pos found, dataRound_eq bytes]
          · rw [if_neg runs] at bytes
            rw [if_neg (mt nonResident_iff.mp runs), bytes, if_pos (by omega), if_neg fun both => runs both.2]
            rfl
        · rw [peek_outside (by decide) kind, error_bind, if_neg]
          rw [bytes]
          split <;> omega
      · have bytes : attributeBytes mft off = 8 := by rw [attributeBytes, if_neg open', if_pos (Or.inr data)]
        rw [if_neg data, bytes, if_pos inside, if_neg fun both => data both.1]
        rfl
  · rw [peek_outside (by decide) inside, error_bind, if_neg]
    unfold attributeBytes
    rw [if_neg open']
    split
    · omega
    · split <;> omega

theorem zeroBody_eq : zeroBody mft off = if off + 16 ≤ usedSize mft then
      if off + attributeBytes mft off ≤ MFT_BUF_SIZE then
        .ok (if Continues mft off then if IsData mft off then .inr (some (foundData mft off))
          else .inl (nextAttribute mft off) else .inr none)
      else .error .outside
    else .ok (.inr none) := by
  unfold zeroBody
  rw [peek_eq (by decide), ok_bind, ← usedSize]
  by_cases used : off + 16 ≤ usedSize mft
  · rw [if_pos used, if_pos used]
    by_cases type : off + 4 ≤ MFT_BUF_SIZE
    · rw [peek_eq type, ok_bind, ← attributeType]
      by_cases ended : attributeType mft off = ATTR_END
      · rw [if_pos ended, if_pos (by rw [attributeBytes, if_pos ended]; exact type), if_neg fun goesOn => goesOn.2.1 ended]
        rfl
      · rw [if_neg ended]
        exact lengthRound_eq used ended
    · have short := attributeBytes_le mft off
      rw [peek_outside (by decide) type, error_bind, if_neg (by omega)]
  · rw [if_neg used, if_neg used]
    rfl

end ZeroWalk

/-! ### The run list of the MFT -/

def lenSize (mft : Memory) (cursor : Nat) : Nat := (mft cursor).toNat &&& 15

def offSize (mft : Memory) (cursor : Nat) : Nat := (mft cursor).toNat >>> 4

def nextRun (mft : Memory) (cursor : Nat) : Nat := cursor + 1 + lenSize mft cursor + offSize mft cursor

/-- The header of a run whose fields lie before the end of the run list. -/
def RunHeader (mft : Memory) (stop cursor : Nat) : Prop :=
  mft cursor ≠ 0 ∧ lenSize mft cursor ≠ 0 ∧ lenSize mft cursor ≤ 8 ∧ offSize mft cursor ≤ 8 ∧
    nextRun mft cursor ≤ stop

instance (mft : Memory) (stop cursor : Nat) : Decidable (RunHeader mft stop cursor) :=
  inferInstanceAs (Decidable (_ ∧ _))

def RunAt (mft : Memory) (stop cursor : Nat) : Prop :=
  RunHeader mft stop cursor ∧ wordAt mft (cursor + 1) (lenSize mft cursor) ≠ 0

instance (mft : Memory) (stop cursor : Nat) : Decidable (RunAt mft stop cursor) :=
  inferInstanceAs (Decidable (_ ∧ _))

/-- Behind how much of a run list a round ends that is at its run `k`. -/
def runEnd (mft : Memory) (stop k cursor : Nat) : Nat :=
  if k < MAX_RUNS ∧ RunHeader mft stop cursor then nextRun mft cursor else cursor + 1

def runStart (mft : Memory) (runlist k : Nat) : Nat := (nextRun mft)^[k] runlist

/-- Of each run that the decoder comes to, what it looks at lies in the buffer. -/
def RunlistInside (mft : Memory) (runlist length : Nat) : Prop :=
  ∀ k ≤ MAX_RUNS, (∀ j < k, RunAt mft (runlist + length) (runStart mft runlist j)) →
    runStart mft runlist k < runlist + length →
      runEnd mft (runlist + length) k (runStart mft runlist k) ≤ MFT_BUF_SIZE

section Runlist

variable {mft : Memory} {stop runlist length : Nat} {s : RunCursor}

def RunCursor.advance (mft : Memory) (s : RunCursor) : RunCursor :=
  let runOff := signExtend (offSize mft s.cursor)
    (wordAt mft (s.cursor + 1 + lenSize mft s.cursor) (offSize mft s.cursor))
  let currentLcn := if offSize mft s.cursor ≠ 0 then (s.currentLcn + runOff) % 2 ^ 64 else s.currentLcn
  ⟨nextRun mft s.cursor, currentLcn,
    s.runs ++ [⟨currentLcn, wordAt mft (s.cursor + 1) (lenSize mft s.cursor), offSize mft s.cursor == 0⟩]⟩

theorem fieldsRound_eq (header : RunHeader mft stop s.cursor) : (do
    let runLen ← peek MFT_BUF_SIZE mft (s.cursor + 1) (lenSize mft s.cursor)
    let runOff ← peek MFT_BUF_SIZE mft (s.cursor + 1 + lenSize mft s.cursor) (offSize mft s.cursor)
    let runOff := signExtend (offSize mft s.cursor) runOff
    let currentLcn := if offSize mft s.cursor ≠ 0 then (s.currentLcn + runOff) % 2 ^ 64 else s.currentLcn
    if runLen = 0 then pure (.inr [])
    else
      pure (.inl ⟨s.cursor + 1 + lenSize mft s.cursor + offSize mft s.cursor, currentLcn,
        s.runs ++ [⟨currentLcn, runLen, offSize mft s.cursor == 0⟩]⟩) : Run (RunCursor ⊕ List NtfsRun)) =
    if nextRun mft s.cursor ≤ MFT_BUF_SIZE then
      .ok (if RunAt mft stop s.cursor then .inl (s.advance mft) else .inr [])
    else .error .outside := by
  obtain ⟨_, some, _⟩ := id header
  by_cases inside : nextRun mft s.cursor ≤ MFT_BUF_SIZE
  · have sizes : s.cursor + 1 + lenSize mft s.cursor + offSize mft s.cursor ≤ MFT_BUF_SIZE := inside
    rw [if_pos inside, peek_eq (by omega), ok_bind, peek_eq sizes, ok_bind]
    dsimp only
    by_cases empty : wordAt mft (s.cursor + 1) (lenSize mft s.cursor) = 0
    · rw [if_pos empty, if_neg fun run => run.2 empty]
      rfl
    · have run : RunAt mft stop s.cursor := ⟨header, empty⟩
      rw [if_neg empty, if_pos run]
      rfl
  · rw [if_neg inside]
    unfold nextRun at inside
    by_cases first : s.cursor + 1 + lenSize mft s.cursor ≤ MFT_BUF_SIZE
    · rw [peek_eq first, ok_bind, peek_outside (by omega) inside]
      rfl
    · rw [peek_outside some first]
      rfl

theorem runBody_eq : runBody mft stop s = if s.cursor < stop then
      if runEnd mft stop s.runs.length s.cursor ≤ MFT_BUF_SIZE then
        .ok (if s.runs.length < MAX_RUNS ∧ RunAt mft stop s.cursor then .inl (s.advance mft)
          else .inr (if mft s.cursor = 0 then s.runs else []))
      else .error .outside
    else .ok (.inr []) := by
  unfold runBody
  by_cases before : s.cursor < stop
  · rw [if_pos before, if_pos before]
    by_cases first : s.cursor + 1 ≤ MFT_BUF_SIZE
    · rw [peek_eq first, ok_bind, wordAt_one]
      by_cases zero : mft s.cursor = 0
      · have short : runEnd mft stop s.runs.length s.cursor = s.cursor + 1 := if_neg fun both => both.2.1 zero
        rw [if_pos (by rw [zero]; rfl), short, if_pos first, if_neg fun both => both.2.1.1 zero, if_pos zero]
        rfl
      · have nonzero : (mft s.cursor).toNat ≠ 0 := fun same => zero (UInt8.toNat_inj.mp same)
        rw [if_neg nonzero]
        by_cases room : s.runs.length < MAX_RUNS
        · rw [if_pos room]
          dsimp only
          by_cases header : RunHeader mft stop s.cursor
          · have fields := fieldsRound_eq header
            have long : runEnd mft stop s.runs.length s.cursor = nextRun mft s.cursor := if_pos ⟨room, header⟩
            rw [if_neg, long]
            · refine fields.trans ?_
              simp only [room, true_and, zero, if_false]
            · obtain ⟨_, some, few, small, inside⟩ := header
              unfold nextRun lenSize offSize at *
              omega
          · have short : runEnd mft stop s.runs.length s.cursor = s.cursor + 1 := if_neg fun both => header both.2
            rw [if_pos, short, if_pos first, if_neg fun both => header both.2.1, if_neg zero]
            · rfl
            · by_contra fine
              refine header ⟨zero, ?_⟩
              unfold nextRun lenSize offSize
              omega
        · have short : runEnd mft stop s.runs.length s.cursor = s.cursor + 1 := if_neg fun both => room both.1
          rw [if_neg room, short, if_pos first, if_neg fun both => room both.1, if_neg zero]
          rfl
    · have long : s.cursor + 1 ≤ runEnd mft stop s.runs.length s.cursor := by
        unfold runEnd nextRun
        split <;> omega
      rw [peek_outside (by decide) first, error_bind, if_neg (by omega)]
  · rw [if_neg before, if_neg before]
    rfl

/-- The decoder has come to a run of the list. -/
structure AtRun (mft : Memory) (runlist stop : Nat) (s : RunCursor) : Prop where
  cursor : s.cursor = runStart mft runlist s.runs.length
  before : ∀ j < s.runs.length, RunAt mft stop (runStart mft runlist j)
  few : s.runs.length ≤ MAX_RUNS

theorem runStart_succ (mft : Memory) (runlist k : Nat) :
    runStart mft runlist (k + 1) = nextRun mft (runStart mft runlist k) := Function.iterate_succ_apply' ..

theorem advance_length : (s.advance mft).runs.length = s.runs.length + 1 := by simp [RunCursor.advance]

theorem AtRun.advance (here : AtRun mft runlist stop s) (room : s.runs.length < MAX_RUNS)
    (run : RunAt mft stop s.cursor) : AtRun mft runlist stop (s.advance mft) := by
  refine ⟨?_, fun j below => ?_, ?_⟩
  · rw [advance_length, runStart_succ, ← here.cursor]
    rfl
  · rw [advance_length] at below
    rcases Nat.lt_succ_iff_lt_or_eq.mp below with earlier | rfl
    · exact here.before j earlier
    · rw [← here.cursor]
      exact run
  · rw [advance_length]
    exact room

theorem decodeRunlist_safe (inside : RunlistInside mft runlist length) {steps : Nat}
    (enough : MAX_RUNS < steps) :
    Safe (decodeRunlist steps mft runlist length) fun _ => True := by
  refine @safe_iterate _ _ _ (AtRun mft runlist (runlist + length)) _ (fun s => MAX_RUNS - s.runs.length)
    (fun s here => ?_) steps ⟨runlist, 0, []⟩
    ⟨rfl, fun _ none => absurd none (Nat.not_lt_zero _), Nat.zero_le _⟩ enough
  rw [runBody_eq]
  split
  next before =>
    have fits := inside s.runs.length here.few here.before (by rw [← here.cursor]; exact before)
    rw [← here.cursor] at fits
    rw [if_pos fits]
    split
    next more =>
      refine ⟨here.advance more.1 more.2, ?_⟩
      have room := more.1
      have longer := @advance_length mft s
      dsimp only
      omega
    next => trivial
  next => trivial

theorem decodeRunlist_reaches {steps k : Nat} (few : k ≤ MAX_RUNS)
    (safe : Safe (decodeRunlist steps mft runlist length) fun _ => True)
    (runs : ∀ j < k, RunAt mft (runlist + length) (runStart mft runlist j)) :
    ∃ s, Relation.ReflTransGen (Next (runBody mft (runlist + length))) ⟨runlist, 0, []⟩ s ∧
      s.cursor = runStart mft runlist k ∧ s.runs.length = k := by
  induction k with
  | zero => exact ⟨_, .refl, rfl, rfl⟩
  | succ k ih =>
    obtain ⟨s, way, cursor, count⟩ := ih (by omega) fun j below => runs j (by omega)
    have here := runs k (by omega)
    rw [← cursor] at here
    have round := reached_safe way safe
    rw [runBody_eq, if_pos (by have ends := here.1.2.2.2.2; unfold nextRun at ends; omega)] at round
    have fits : runEnd mft (runlist + length) s.runs.length s.cursor ≤ MFT_BUF_SIZE := by
      by_contra outside
      rw [if_neg outside] at round
      exact Stop.noConfusion round
    refine ⟨s.advance mft, way.tail ?_, ?_, by rw [advance_length, count]⟩
    · rw [Next, runBody_eq, if_pos (by have ends := here.1.2.2.2.2; unfold nextRun at ends; omega), if_pos fits,
        if_pos ⟨by omega, here⟩]
    · rw [runStart_succ, ← cursor]
      rfl

theorem decodeRunlist_inside {steps : Nat} (safe : Safe (decodeRunlist steps mft runlist length) fun _ => True) :
    RunlistInside mft runlist length := by
  intro k few runs before
  obtain ⟨s, way, cursor, count⟩ := decodeRunlist_reaches few safe runs
  have round := reached_safe way safe
  rw [← cursor] at before ⊢
  rw [runBody_eq, if_pos before] at round
  by_contra outside
  rw [count, if_neg outside] at round
  exact Stop.noConfusion round

end Runlist

/-! ### The walk and the run list -/

def attributeStart (mft : Memory) (k : Nat) : Nat := (nextAttribute mft)^[k] (attrOffset mft)

/-- The lengths of the attributes lead to an end without leaving the buffer, and if that is the attribute that
holds the MFT, its run list lies in the buffer. -/
def ZeroInside (mft : Memory) : Prop :=
  ∃ n, (∀ k < n, Continues mft (attributeStart mft k) ∧ ¬IsData mft (attributeStart mft k)) ∧
    (∀ k ≤ n, AttributeInside mft (attributeStart mft k)) ∧
    (Continues mft (attributeStart mft n) → IsData mft (attributeStart mft n) ∧
      RunlistInside mft (foundData mft (attributeStart mft n)).runlist
        (foundData mft (attributeStart mft n)).runlistLen)

section Walk

variable {mft : Memory} {off : Nat}

theorem zeroBody_next (off off' : Nat) : Next (zeroBody mft) off off' ↔
    (Continues mft off ∧ ¬IsData mft off ∧ AttributeInside mft off) ∧ off' = nextAttribute mft off := by
  unfold Next AttributeInside
  rw [zeroBody_eq]
  by_cases used : off + 16 ≤ usedSize mft
  · by_cases inside : off + attributeBytes mft off ≤ MFT_BUF_SIZE
    · by_cases goesOn : Continues mft off
      · by_cases data : IsData mft off
        · simp [used, inside, goesOn, data]
        · simp [used, inside, goesOn, data, eq_comm]
      · simp [used, inside, goesOn]
    · simp [used, inside]
  · have ended : ¬Continues mft off := fun goesOn => used goesOn.1
    simp [used, ended]

theorem zeroBody_last {after : Option FoundData → Prop} : Last (zeroBody mft) after off ↔
    AttributeInside mft off ∧ (Continues mft off → IsData mft off) ∧
      after (if Continues mft off then some (foundData mft off) else none) := by
  unfold Last AttributeInside
  rw [zeroBody_eq]
  by_cases used : off + 16 ≤ usedSize mft
  · by_cases inside : off + attributeBytes mft off ≤ MFT_BUF_SIZE
    · by_cases goesOn : Continues mft off
      · by_cases data : IsData mft off
        · simp [used, inside, goesOn, data, Safe]
        · simp [used, inside, goesOn, data, Safe]
      · simp [used, inside, goesOn, Safe]
    · simp [used, inside, Safe]
  · have ended : ¬Continues mft off := fun goesOn => used goesOn.1
    simp [used, ended, Safe]

end Walk

/-! ### The volume record -/

section Records

variable {device : NtfsDevice} {boot : NtfsBoot} {steps : Nat} {mft : Memory}

theorem pieceAt_bounds (sized : Sized boot) (physicalByte left : Nat) :
    ∃ lba offset chunk, pieceAt boot physicalByte left = (lba, offset, chunk) ∧
      offset + chunk ≤ NTFS_MAX_SECTOR_SIZE ∧ chunk ≤ left ∧ (0 < left → 0 < chunk) := by
  obtain ⟨⟨large, small⟩, _⟩ := sized
  have within := Nat.mod_lt physicalByte (by omega : 0 < boot.bytesPerSector)
  unfold pieceAt NTFS_MAX_SECTOR_SIZE
  exact ⟨_, _, _, rfl, by omega, by omega, by omega⟩

theorem pieceCopied_safe {sector : Memory} {offset chunk soFar : Nat}
    (source : offset + chunk ≤ NTFS_MAX_SECTOR_SIZE)
    (room : soFar + chunk ≤ MFT_BUF_SIZE) {β : Type} {next : Memory → Run β} {after : β → Prop}
    (rest : Safe (next (patch mft soFar (window sector offset chunk))) after) : Safe (do
      let bytes ← copied NTFS_MAX_SECTOR_SIZE sector offset chunk
      let mft ← poke MFT_BUF_SIZE mft soFar bytes
      next mft) after := by
  rw [copied_eq source, ok_bind, poke_eq (by rw [window_length]; exact room), ok_bind]
  exact rest

theorem mirrorLoop_safe (sized : Sized boot) (enough : MFT_BUF_SIZE < steps) (physicalByte : Nat) :
    Safe (iterate (mirrorBody device boot) steps ⟨physicalByte, 0, mft⟩) fun _ => True := by
  obtain ⟨some, small⟩ := sized.record
  refine @safe_iterate _ _ _ (fun s => s.soFar ≤ boot.recordSize) _ (fun s => boot.recordSize - s.soFar)
    (fun s within => ?_) steps _ (Nat.zero_le _) (Nat.lt_of_le_of_lt small enough)
  unfold mirrorBody
  split
  next more =>
    obtain ⟨lba, offset, chunk, piece, source, fits, goesOn⟩ :=
      pieceAt_bounds sized s.byteOffset (boot.recordSize - s.soFar)
    rw [piece]
    dsimp only
    cases device.sector lba with
    | none => trivial
    | some sector =>
      have room : s.soFar + chunk ≤ MFT_BUF_SIZE := by
        unfold MFT_BUF_SIZE
        omega
      refine pieceCopied_safe source room ?_
      exact ⟨by dsimp only; omega, by dsimp only; omega⟩
  next => trivial

theorem validated_safe {record : Memory} (sized : Sized boot) :
    Safe (validated record boot.recordSize boot.bytesPerSector) fun _ => True := by
  rw [validated_eq sized.record.2]
  trivial

theorem readMftMirrorRecord_safe (sized : Sized boot) (enough : MFT_BUF_SIZE < steps) (recordN : Nat) :
    Safe (readMftMirrorRecord steps device boot recordN mft) fun _ => True := by
  unfold readMftMirrorRecord
  split
  · trivial
  · refine safe_bind (mirrorLoop_safe sized enough _) fun ⟨read, mft⟩ _ => ?_
    dsimp only
    split
    · exact validated_safe sized
    · trivial

theorem sectorLoop_safe (sized : Sized boot) (enough : MFT_BUF_SIZE < steps) (run : NtfsRun)
    (runBytes : Nat)
    (s : Progress Memory) (within : s.soFar ≤ boot.recordSize) :
    Safe (iterate (sectorBody device boot run runBytes) steps s) fun result =>
      result.2.soFar ≤ boot.recordSize := by
  obtain ⟨some, small⟩ := sized.record
  refine @safe_iterate _ _ _ (fun s => s.soFar ≤ boot.recordSize) _ (fun s => boot.recordSize - s.soFar)
    (fun s within => ?_) steps _ within (Nat.lt_of_le_of_lt (Nat.sub_le ..) (Nat.lt_of_le_of_lt small enough))
  unfold sectorBody
  split
  next more =>
    obtain ⟨lba, offset, chunk, piece, source, fits, goesOn⟩ := pieceAt_bounds sized
      ((run.lcn * boot.bytesPerCluster + s.byteOffset) % 2 ^ 64)
      (min (boot.recordSize - s.soFar) (runBytes - s.byteOffset))
    dsimp only
    rw [piece]
    dsimp only
    cases device.sector lba with
    | none => exact within
    | some sec =>
      have room : s.soFar + chunk ≤ MFT_BUF_SIZE := by
        unfold MFT_BUF_SIZE
        omega
      refine pieceCopied_safe source room ?_
      exact ⟨by dsimp only; omega, by dsimp only; omega⟩
  next => exact within

theorem readRuns_safe (sized : Sized boot) (enough : MFT_BUF_SIZE < steps) (runs : List NtfsRun) :
    ∀ s : Progress Memory, s.soFar ≤ boot.recordSize → Safe (readRuns steps device boot runs s) fun _ => True := by
  induction runs with
  | nil => exact fun _ _ => trivial
  | cons run runs ih =>
    intro s within
    unfold readRuns
    split
    · dsimp only
      split
      · exact ih _ within
      · split
        · trivial
        · refine safe_bind (sectorLoop_safe sized enough run _ s within) fun ⟨read, s'⟩ within' => ?_
          dsimp only
          split
          · exact ih _ within'
          · trivial
    · trivial

/-- An MFT record is read inside the buffer. -/
theorem readMftRecord_safe (sized : Sized boot) (enough : MFT_BUF_SIZE < steps) (mftRuns : List NtfsRun)
    (recordN : Nat) : Safe (readMftRecord steps device boot mftRuns recordN mft) fun _ => True := by
  unfold readMftRecord
  refine safe_bind (readRuns_safe sized enough mftRuns _ (Nat.zero_le _)) fun ⟨read, s⟩ _ => ?_
  dsimp only
  split
  · refine safe_bind (validated_safe sized) fun ⟨valid, mft⟩ _ => ?_
    dsimp only
    split
    · trivial
    · exact readMftMirrorRecord_safe sized enough recordN
  · exact readMftMirrorRecord_safe sized enough recordN

theorem attrLoop_safe (used : usedSize mft ≤ MFT_BUF_SIZE) (enough : MFT_BUF_SIZE < steps)
    (targetType off : Nat)
    (within : off ≤ usedSize mft) : Safe (iterate (attrBody mft targetType) steps off) fun found =>
      ∀ value ∈ found, value.1 + value.2 ≤ MFT_BUF_SIZE := by
  refine @safe_iterate _ _ _ (fun off => off ≤ usedSize mft) _ (fun off => usedSize mft - off)
    (fun off within => ?_) steps off within (by omega)
  have nothing : ∀ value ∈ (none : Option (Nat × Nat)), value.1 + value.2 ≤ MFT_BUF_SIZE :=
    fun _ member => nomatch member
  -- The next attribute lies within what the record uses.
  have onward : ∀ length, off + 16 ≤ usedSize mft → ¬(length < 16 ∨ length > usedSize mft - off) →
      (off + length) % 2 ^ 32 ≤ usedSize mft ∧ usedSize mft - (off + length) % 2 ^ 32 < usedSize mft - off :=
    fun length used' sane => by
      unfold MFT_BUF_SIZE at used
      rw [Nat.mod_eq_of_lt (by omega)]
      omega
  unfold attrBody
  rw [peek_eq (by decide), ok_bind, ← usedSize]
  split
  next here =>
    rw [peek_eq (by omega), ok_bind, peek_eq (by omega), ok_bind]
    split
    · exact nothing
    · split
      · exact nothing
      next sane =>
        rw [peek_eq (by omega), ok_bind]
        split
        · split
          · exact nothing
          next long =>
            rw [peek_eq (by omega), ok_bind, peek_eq (by omega), ok_bind]
            split
            · exact nothing
            next inside =>
              split
              · rintro _ ⟨⟩
                dsimp only
                omega
              · exact onward _ here sane
        · split
          · exact nothing
          next long =>
            rw [peek_eq (by omega), ok_bind, peek_eq (by omega), ok_bind]
            split
            · exact nothing
            · split
              · exact nothing
              · exact onward _ here sane
  next => exact nothing

theorem iterateAttrs_safe (enough : MFT_BUF_SIZE < steps) (targetType : Nat) :
    Safe (iterateAttrs steps mft targetType) fun found =>
      ∀ value ∈ found, value.1 + value.2 ≤ MFT_BUF_SIZE ∧ usedSize mft ≤ MFT_BUF_SIZE := by
  unfold iterateAttrs
  rw [peek_eq (by decide), ok_bind, peek_eq (by decide), ok_bind, peek_eq (by decide), ok_bind]
  split
  · exact fun _ member => nomatch member
  next sane =>
    rw [not_or, not_or, not_or] at sane
    have used : usedSize mft ≤ MFT_BUF_SIZE := by
      unfold usedSize
      omega
    refine safe_mono (attrLoop_safe used enough targetType _ (Nat.le_of_not_lt sane.2.2.2)) fun found inside => ?_
    exact fun value member => ⟨inside value member, used⟩

/-- The volume record can be read, and what it uses fits in the buffer. -/
def VolumeFits (steps : Nat) (device : NtfsDevice) (context : Context) : Prop :=
  ∃ mft, usedSize mft ≤ MFT_BUF_SIZE ∧
    readMftRecord steps device context.boot context.mftRuns 3 context.mftBuf = .ok (true, mft)

theorem readVolume_safe (context : Context) (sized : Sized context.boot)
    (closed : context.writeAllowed = false)
    (enough : MFT_BUF_SIZE < steps) : Safe (readVolume steps device context) fun context' =>
      context'.boot = context.boot ∧ context'.mftRuns = context.mftRuns ∧
      (context'.writeAllowed = true → VolumeFits steps device context) := by
  have still : context.writeAllowed = true → VolumeFits steps device context := fun opened => by
    rw [closed] at opened
    cases opened
  unfold readVolume
  rcases (@readMftRecord_safe device context.boot steps context.mftBuf sized enough context.mftRuns 3).cases with
    ⟨⟨read, mft⟩, done, _⟩ | refused
  · rw [done, ok_bind]
    dsimp only
    split
    next success =>
      refine safe_bind (iterateAttrs_safe enough _) fun found inside => ?_
      rcases found with _ | ⟨value, valueLen⟩
      · exact ⟨rfl, rfl, still⟩
      · obtain ⟨within, used⟩ := inside _ rfl
        dsimp only at within ⊢
        split
        next long =>
          rw [peek_eq (by omega)]
          rw [success] at done
          exact ⟨rfl, rfl, fun _ => ⟨mft, used, done⟩⟩
        next => exact ⟨rfl, rfl, still⟩
    next => exact ⟨rfl, rfl, still⟩
  · rw [refused]
    exact rfl

/-! ### The flags of the volume -/

theorem dirtyLoop_safe (used : usedSize mft ≤ MFT_BUF_SIZE) (enough : MFT_BUF_SIZE < steps)
    (offset : Nat) :
    Safe (iterate (dirtyBody mft) steps offset) fun found => ∀ value ∈ found, value + 12 ≤ MFT_BUF_SIZE := by
  refine @safe_iterate _ _ _ (fun _ => True) _ (fun offset => usedSize mft - offset)
    (fun offset _ => ?_) steps offset trivial (by omega)
  have nothing : ∀ value ∈ (none : Option Nat), value + 12 ≤ MFT_BUF_SIZE := fun _ member => nomatch member
  have onward : ∀ length, offset + 16 ≤ usedSize mft → ¬(length < 16 ∨ length > usedSize mft - offset) →
      usedSize mft - (offset + length) % 2 ^ 32 < usedSize mft - offset := fun length used' sane => by
    unfold MFT_BUF_SIZE at used
    rw [Nat.mod_eq_of_lt (by omega)]
    omega
  unfold dirtyBody
  rw [peek_eq (by decide), ok_bind, ← usedSize]
  split
  next here =>
    rw [peek_eq (by omega), ok_bind]
    split
    · exact nothing
    · rw [peek_eq (by omega), ok_bind]
      split
      · exact nothing
      next sane =>
        rw [peek_eq (by omega), ok_bind]
        split
        · split
          · exact nothing
          next long =>
            rw [peek_eq (by omega), ok_bind, peek_eq (by omega), ok_bind]
            split
            · exact nothing
            next inside =>
              rintro _ ⟨⟩
              omega
        · exact ⟨trivial, onward _ here sane⟩
  next => exact nothing

variable {context : Context}

theorem volumeInformation_safe (fits : VolumeFits steps device context) (enough : MFT_BUF_SIZE < steps) :
    Safe (volumeInformation steps device context) fun found => found.2 + 12 ≤ MFT_BUF_SIZE := by
  obtain ⟨mft, used, read⟩ := fits
  unfold volumeInformation
  rw [read, ok_bind]
  dsimp only
  rw [demand_holds rfl, ok_bind, peek_eq (by decide), ok_bind]
  refine safe_bind (dirtyLoop_safe used enough _) fun found inside => ?_
  exact safe_bind safe_supplied fun value here => safe_pure (inside value here)

theorem writeLoop_safe (sized : Sized boot) (enough : MFT_BUF_SIZE < steps) (record : Memory)
    (run : NtfsRun)
    (runBytes : Nat) (s : Progress NtfsDevice) (within : s.soFar ≤ boot.recordSize) :
    Safe (iterate (writeBody boot record run runBytes) steps s) fun s' => s'.soFar ≤ boot.recordSize := by
  obtain ⟨some, small⟩ := sized.record
  refine @safe_iterate _ _ _ (fun s => s.soFar ≤ boot.recordSize) _ (fun s => boot.recordSize - s.soFar)
    (fun s within => ?_) steps _ within (Nat.lt_of_le_of_lt (Nat.sub_le ..) (Nat.lt_of_le_of_lt small enough))
  unfold writeBody
  split
  next more =>
    obtain ⟨lba, offset, chunk, piece, source, fits, goesOn⟩ := pieceAt_bounds sized
      ((run.lcn * boot.bytesPerCluster + s.byteOffset) % 2 ^ 64)
      (min (boot.recordSize - s.soFar) (runBytes - s.byteOffset))
    dsimp only
    rw [piece]
    dsimp only
    have room : s.soFar + chunk ≤ MFT_BUF_SIZE := by
      unfold MFT_BUF_SIZE
      omega
    have read : Safe (sectorBefore boot s.result lba offset chunk) fun _ => True := by
      unfold sectorBefore
      split
      · exact safe_mono safe_supplied fun _ _ => trivial
      · trivial
    refine safe_bind read fun sector _ => ?_
    rw [copied_eq room, ok_bind, poke_eq (by rw [window_length]; exact source), ok_bind]
    refine safe_bind safe_demand fun _ _ => ?_
    exact ⟨by dsimp only; omega, by dsimp only; omega⟩
  next => exact within

theorem writeRuns_safe (sized : Sized boot) (enough : MFT_BUF_SIZE < steps) (record : Memory)
    (runs : List NtfsRun) :
    ∀ s : Progress NtfsDevice, s.soFar ≤ boot.recordSize →
      Safe (writeRuns steps boot record runs s) fun _ => True := by
  induction runs with
  | nil => exact fun _ _ => trivial
  | cons run runs ih =>
    intro s within
    unfold writeRuns
    split
    · dsimp only
      split
      · exact ih _ within
      · exact safe_bind (writeLoop_safe sized enough record run _ s within) fun s' within' => ih _ within'
    · trivial

theorem writeMftRecord_safe (sized : Sized context.boot) (enough : MFT_BUF_SIZE < steps)
    (recordN : Nat) : Safe (writeMftRecord steps device context recordN mft) fun _ => True := by
  have small := sized.record.2
  unfold writeMftRecord
  refine safe_bind safe_demand fun _ _ => ?_
  have whole : 0 + context.boot.recordSize ≤ MFT_BUF_SIZE := by
    rw [Nat.zero_add]
    exact small
  rw [copied_eq whole, ok_bind, poke_eq (by rw [window_length]; exact whole), ok_bind]
  refine safe_bind (protectFixup_safe small) fun protectedRecord _ => ?_
  refine safe_bind (writeRuns_safe sized enough _ _ _ (Nat.zero_le _)) fun s _ => ?_
  exact safe_bind safe_demand fun _ _ => safe_bind safe_demand fun _ _ => safe_pure trivial

theorem ntfsSetVolumeDirty_safe (sized : Sized context.boot)
    (fits : VolumeFits steps device context) (enough : MFT_BUF_SIZE < steps) (dirty : Bool) :
    Safe (ntfsSetVolumeDirty steps device context dirty) fun _ => True := by
  unfold ntfsSetVolumeDirty
  refine safe_bind (volumeInformation_safe fits enough) fun ⟨mft, value⟩ inside => ?_
  dsimp only at inside ⊢
  rw [peek_eq (by omega), ok_bind, poke_eq (by rw [digits_length]; omega), ok_bind]
  exact writeMftRecord_safe sized enough 3

theorem ntfsVerifyVolumeDirty_safe (fits : VolumeFits steps device context)
    (enough : MFT_BUF_SIZE < steps) (dirty : Bool) :
    Safe (ntfsVerifyVolumeDirty steps device context dirty) fun _ => True := by
  unfold ntfsVerifyVolumeDirty
  refine safe_bind (volumeInformation_safe fits enough) fun ⟨mft, value⟩ inside => ?_
  dsimp only at inside ⊢
  rw [peek_eq (by omega), ok_bind]
  exact safe_mono safe_demand fun _ _ => trivial

/-! ### Reading a record again -/

/-- Two reads of a record that have come equally far. -/
structure Abreast (s s' : Progress Memory) : Prop where
  offset : s'.byteOffset = s.byteOffset
  soFar : s'.soFar = s.soFar
  same : Same s.soFar s.result s'.result

/-- Two reads of a record that fail both, or find the same record. -/
def SameRead (boot : NtfsBoot) (result result' : Bool × Memory) : Prop :=
  result.1 = result'.1 ∧ (result.1 = true → 512 ≤ boot.recordSize ∧ Same boot.recordSize result.2 result'.2)

theorem same_patch_end {image image' : Memory} {size : Nat} (same : Same size image image')
    (data : List UInt8) :
    Same (size + data.length) (patch image size data) (patch image' size data) := fun k below => by
  unfold patch
  split
  · rfl
  next outside => exact same k (by omega)

theorem same_mono {image image' : Memory} {size size' : Nat} (same : Same size image image')
    (less : size' ≤ size) :
    Same size' image image' := fun k below => same k (by omega)

theorem pieceCopied_alike {sector image image' : Memory} {offset chunk soFar : Nat} {β : Type}
    {next next' : Memory → Run β} {Q : β → β → Prop} (same : Same soFar image image')
    (rest : ∀ image image', Same (soFar + chunk) image image' → Alike Q (next image) (next' image')) :
    Alike Q (copied NTFS_MAX_SECTOR_SIZE sector offset chunk >>= fun bytes =>
        poke MFT_BUF_SIZE image soFar bytes >>= next)
      (copied NTFS_MAX_SECTOR_SIZE sector offset chunk >>= fun bytes =>
        poke MFT_BUF_SIZE image' soFar bytes >>= next') := by
  unfold copied poke access
  split
  · simp only [ok_bind, pure_bind, window_length]
    split
    · refine rest _ _ ?_
      have longer := same_patch_end same (window sector offset chunk)
      rwa [window_length] at longer
    · rfl
  · rfl

theorem mirrorLoop_alike (physicalByte : Nat) (mft mft' : Memory) :
    Alike (fun result result' => result.1 = result'.1 ∧ (result.1 = true → Same boot.recordSize result.2 result'.2))
      (iterate (mirrorBody device boot) steps ⟨physicalByte, 0, mft⟩)
      (iterate (mirrorBody device boot) steps ⟨physicalByte, 0, mft'⟩) := by
  have start : Abreast ⟨physicalByte, 0, mft⟩ ⟨physicalByte, 0, mft'⟩ :=
    ⟨rfl, rfl, fun _ none => absurd none (Nat.not_lt_zero _)⟩
  refine alike_iterate (fun s s' abreast => ?_) steps _ _ start
  obtain ⟨offset, soFar, same⟩ := abreast
  unfold mirrorBody
  rw [offset, soFar]
  split
  · generalize pieceAt boot s.byteOffset (boot.recordSize - s.soFar) = piece
    obtain ⟨lba, start, chunk⟩ := piece
    dsimp only
    cases device.sector lba with
    | none => exact .inr ⟨rfl, nofun⟩
    | some sector =>
      refine pieceCopied_alike same fun image image' longer => ?_
      exact .inl (Abreast.mk rfl rfl longer)
  next whole => exact .inr ⟨rfl, fun _ => same_mono same (Nat.le_of_not_lt whole)⟩

theorem validated_alike (sized : Sized boot) {image image' : Memory}
    (same : Same boot.recordSize image image') :
    Alike (SameRead boot) (validated image boot.recordSize boot.bytesPerSector)
      (validated image' boot.recordSize boot.bytesPerSector) := by
  rw [validated_eq sized.record.2, validated_eq sized.record.2]
  have both := @Same.applyFixup _ boot.bytesPerSector _ _ same
  have large : (Ntfs.applyFixup image boot.recordSize boot.bytesPerSector).isSome → 512 ≤ boot.recordSize := fun some =>
    (fixupValid_sizes (applyFixup_isSome.mp some).1 sized.record.2).2.2.2
  generalize Ntfs.applyFixup image boot.recordSize boot.bytesPerSector = applied at both large ⊢
  generalize Ntfs.applyFixup image' boot.recordSize boot.bytesPerSector = applied' at both ⊢
  cases both with
  | none => exact ⟨rfl, nofun⟩
  | some agree =>
    have signature : isFile _ = isFile _ := congrArg (· == [0x46, 0x49, 0x4C, 0x45])
      (window_congr fun i _ below => agree i (by have := large rfl; omega))
    exact ⟨signature, fun _ => ⟨large rfl, agree⟩⟩

theorem readMftMirrorRecord_alike (sized : Sized boot) (recordN : Nat) (mft mft' : Memory) :
    Alike (SameRead boot) (readMftMirrorRecord steps device boot recordN mft)
      (readMftMirrorRecord steps device boot recordN mft') := by
  unfold readMftMirrorRecord
  split
  · exact ⟨rfl, nofun⟩
  · refine alike_bind (mirrorLoop_alike _ mft mft') fun result result' ⟨agree, same⟩ => ?_
    obtain ⟨read, image⟩ := result
    obtain ⟨read', image'⟩ := result'
    dsimp only at agree same ⊢
    rw [← agree]
    split
    next success => exact validated_alike sized (same success)
    next => exact ⟨rfl, nofun⟩

theorem sectorLoop_alike (run : NtfsRun) (runBytes : Nat) {s s' : Progress Memory}
    (abreast : Abreast s s') :
    Alike (fun result result' => result.1 = result'.1 ∧ Abreast result.2 result'.2)
      (iterate (sectorBody device boot run runBytes) steps s)
      (iterate (sectorBody device boot run runBytes) steps s') := by
  refine alike_iterate (fun s s' abreast => ?_) steps s s' abreast
  obtain ⟨offset, soFar, same⟩ := id abreast
  unfold sectorBody
  rw [offset, soFar]
  split
  · dsimp only
    generalize pieceAt boot _ _ = piece
    obtain ⟨lba, start, chunk⟩ := piece
    dsimp only
    cases device.sector lba with
    | none => exact .inr ⟨rfl, abreast⟩
    | some sector =>
      refine pieceCopied_alike same fun image image' longer => ?_
      exact .inl (Abreast.mk rfl rfl longer)
  next => exact .inr ⟨rfl, abreast⟩

theorem readRuns_alike (runs : List NtfsRun) : ∀ {s s' : Progress Memory}, Abreast s s' →
    Alike (fun result result' => result.1 = result'.1 ∧ Abreast result.2 result'.2)
      (readRuns steps device boot runs s) (readRuns steps device boot runs s') := by
  induction runs with
  | nil => exact fun abreast => ⟨rfl, abreast⟩
  | cons run runs ih =>
    intro s s' abreast
    obtain ⟨offset, soFar, same⟩ := id abreast
    unfold readRuns
    rw [offset, soFar]
    split
    · dsimp only
      split
      · exact ih ⟨rfl, rfl, same⟩
      · split
        · exact ⟨rfl, abreast⟩
        · refine alike_bind (sectorLoop_alike run _ abreast) fun result result' ⟨agree, further⟩ => ?_
          obtain ⟨read, t⟩ := result
          obtain ⟨read', t'⟩ := result'
          dsimp only at agree further ⊢
          rw [← agree]
          split
          · exact ih ⟨rfl, further.soFar, further.same⟩
          · exact ⟨rfl, further⟩
    · exact ⟨rfl, abreast⟩

theorem readMftRecord_alike (sized : Sized boot) (mftRuns : List NtfsRun) (recordN : Nat)
    (mft mft' : Memory) :
    Alike (SameRead boot) (readMftRecord steps device boot mftRuns recordN mft)
      (readMftRecord steps device boot mftRuns recordN mft') := by
  unfold readMftRecord
  have start : Abreast ⟨recordN * boot.recordSize % 2 ^ 64, 0, mft⟩ ⟨recordN * boot.recordSize % 2 ^ 64, 0, mft'⟩ :=
    ⟨rfl, rfl, fun _ none => absurd none (Nat.not_lt_zero _)⟩
  refine alike_bind (readRuns_alike mftRuns start) fun result result' ⟨agree, further⟩ => ?_
  obtain ⟨read, s⟩ := result
  obtain ⟨read', s'⟩ := result'
  dsimp only at agree further ⊢
  rw [← agree, further.soFar]
  split
  next complete =>
    have whole := same_mono further.same (Nat.le_of_not_lt complete.2)
    refine alike_bind (validated_alike sized whole) fun result result' ⟨agree, same⟩ => ?_
    obtain ⟨valid, image⟩ := result
    obtain ⟨valid', image'⟩ := result'
    dsimp only at agree same ⊢
    rw [← agree]
    split
    next success => exact ⟨rfl, fun _ => same success⟩
    next => exact readMftMirrorRecord_alike sized recordN _ _
  next => exact readMftMirrorRecord_alike sized recordN _ _

theorem VolumeFits.again (fits : VolumeFits steps device context) (sized : Sized context.boot)
    (mft' : Memory) : VolumeFits steps device { context with mftBuf := mft' } := by
  obtain ⟨mft, used, done⟩ := fits
  have alike := @readMftRecord_alike device context.boot steps sized context.mftRuns 3 context.mftBuf mft'
  rw [done] at alike
  cases result : readMftRecord steps device context.boot context.mftRuns 3 mft' with
  | error stop =>
    rw [result] at alike
    exact alike.elim
  | ok value =>
    rw [result] at alike
    obtain ⟨read, mft''⟩ := value
    obtain ⟨rfl, same⟩ := alike
    obtain ⟨large, same⟩ := same rfl
    refine ⟨mft'', ?_, result⟩
    rwa [usedSize, same.wordAt (by omega)]

end Records

/-! ### The mount -/

section Mounting

variable {device : NtfsDevice} {boot : NtfsBoot} {steps : Nat} {mft zero : Memory}
  {ntfsLoadUpcaseTable : Memory → Bool × Memory}

/-- The flags of a mounted volume that may be written are changed and looked at inside the buffers, whatever has
been read into `mft_buf` since. -/
def FlagsSafe (steps : Nat) (device : NtfsDevice) (context : Context) : Prop :=
  context.writeAllowed = true → ∀ mft dirty,
    Safe (ntfsSetVolumeDirty steps device { context with mftBuf := mft } dirty) (fun _ => True) ∧
      Safe (ntfsVerifyVolumeDirty steps device { context with mftBuf := mft } dirty) fun _ => True

theorem mountRuns_safe (sized : Sized boot) (enough : MFT_BUF_SIZE < steps) {found : FoundData}
    (inside : RunlistInside zero found.runlist found.runlistLen) :
    Safe (mountRuns steps device ntfsLoadUpcaseTable boot zero found) (FlagsSafe steps device) := by
  have few : MAX_RUNS < steps := Nat.lt_trans (by decide) enough
  refine safe_bind (decodeRunlist_safe inside few) fun mftRuns _ => safe_bind safe_demand fun _ _ => ?_
  dsimp only
  split
  · refine safe_mono (readVolume_safe _ sized rfl enough) fun context' ⟨same, runs, fits⟩ => ?_
    intro opened mft dirty
    have again := (fits opened).again sized mft
    dsimp only at same runs
    have here : VolumeFits steps device { context' with mftBuf := mft } := by
      obtain ⟨mft', used, read⟩ := again
      refine ⟨mft', used, ?_⟩
      rw [← read]
      dsimp only
      rw [same, runs]
    have sized' : Sized ({ context' with mftBuf := mft } : Context).boot := by
      dsimp only
      rw [same]
      exact sized
    exact ⟨ntfsSetVolumeDirty_safe sized' here enough dirty, ntfsVerifyVolumeDirty_safe here enough dirty⟩
  · exact fun opened => nomatch opened

theorem zeroWalk_ends (inside : ZeroInside zero) : ∃ t,
    Relation.ReflTransGen (Next (zeroBody zero)) (attrOffset zero) t ∧
      Last (zeroBody zero) (fun found => ∀ data ∈ found, RunlistInside zero data.runlist data.runlistLen) t := by
  obtain ⟨n, goesOn, bytes, last⟩ := inside
  refine ⟨attributeStart zero n, (rounds_iff zeroBody_next).mpr ⟨n, rfl, fun k below => ?_⟩, ?_⟩
  · exact ⟨(goesOn k below).1, (goesOn k below).2, bytes k (Nat.le_of_lt below)⟩
  · refine zeroBody_last.mpr ⟨bytes n (Nat.le_refl _), fun more => (last more).1, fun data member => ?_⟩
    split at member
    next more =>
      cases member
      exact (last more).2
    next => cases member

/-- The mount ends and stays in its buffers, just if the lengths of the attributes of the MFT record 0 lead to an
end inside the buffer, and so does the run list that is found there. -/
theorem mount_safe_iff (device : NtfsDevice) (ntfsLoadUpcaseTable : Memory → Bool × Memory)
    (mft : Memory) :
    (∃ steps, Safe (ntfsInitializeContext steps device ntfsLoadUpcaseTable mft) (FlagsSafe steps device)) ↔
      ∀ boot zero, readBoot device = .ok boot → recordZero device boot mft = some zero →
      ZeroInside zero := by
  have first := readBoot_safe device
  constructor
  · rintro ⟨steps, safe⟩ boot zero opened loaded
    rw [opened] at first
    have sized : Sized boot := first
    rw [ntfsInitializeContext, opened, ok_bind, loadZero_eq sized, loaded, supplied, ok_bind, peek_eq (by decide),
      ok_bind, safe_bind_iff] at safe
    obtain ⟨t, way, last⟩ := iterate_ends _ _ safe
    obtain ⟨n, rfl, goesOn⟩ := (rounds_iff zeroBody_next).mp way
    obtain ⟨bytes, data, after⟩ := zeroBody_last.mp last
    refine ⟨n, fun k below => ⟨(goesOn k below).1, (goesOn k below).2.1⟩, fun k within => ?_, fun more => ?_⟩
    · rcases Nat.lt_or_eq_of_le within with below | rfl
      · exact (goesOn k below).2.2
      · exact bytes
    · refine ⟨data more, ?_⟩
      have here : Continues zero ((nextAttribute zero)^[n] (wordAt zero 20 2)) := more
      rw [if_pos here, supplied, ok_bind, mountRuns, safe_bind_iff] at after
      exact decodeRunlist_inside (safe_mono after fun _ _ => trivial)
  · intro inside
    rcases first.cases with ⟨boot, opened, sized⟩ | refused
    · cases loaded : recordZero device boot mft with
      | none =>
        refine ⟨0, ?_⟩
        rw [ntfsInitializeContext, opened, ok_bind, loadZero_eq sized, loaded]
        exact rfl
      | some zero =>
        obtain ⟨t, way, last⟩ := zeroWalk_ends (inside boot zero opened loaded)
        obtain ⟨enough, ends⟩ := iterate_safe way last
        refine ⟨max enough (MFT_BUF_SIZE + 1), ?_⟩
        rw [ntfsInitializeContext, opened, ok_bind, loadZero_eq sized, loaded, supplied, ok_bind,
          peek_eq (by decide), ok_bind]
        refine safe_bind (ends _ (Nat.le_max_left _ _)) fun found lies => ?_
        cases found with
        | none => exact rfl
        | some data =>
          have more : MFT_BUF_SIZE < max enough (MFT_BUF_SIZE + 1) := by omega
          exact mountRuns_safe sized more (lies data rfl)
    · refine ⟨0, ?_⟩
      rw [ntfsInitializeContext, refused]
      exact rfl

end Mounting

/-- A disk whose MFT record 0 has an attribute of 100 bytes at 56, and behind it one of 2^32 - 100 bytes. -/
def loopDevice : NtfsDevice where
  logicalBlockSize := some 512
  readOnly := false
  sector lba :=
    if lba = 0 then
      let boot := patch (patch (fun _ => 0) 11 (digits 2 512)) 13 [8]
      some (patch (patch (patch boot 48 (digits 8 4)) 64 [246]) 68 [1])
    else if lba = 32 then
      let header := patch (patch (fun _ => 0) 0 [0x46, 0x49, 0x4C, 0x45]) 4 (digits 2 48 ++ digits 2 3)
      let sizes := patch (patch header 20 (digits 2 56)) 24 (digits 4 500)
      some (patch (patch sizes 56 (digits 4 0x10 ++ digits 4 100)) 156 (digits 4 0x30 ++ digits 4 (2 ^ 32 - 100)))
    else some fun _ => 0
  writable _ := true
  flushes := true

def loopBoot : NtfsBoot where
  bytesPerSector := 512
  sectorsPerCluster := 8
  clustersPerIndexRecord := 1
  totalSectors := 0
  mftLcn := 4
  mftMirrorLcn := 0
  clustersPerFileRecord := -10

theorem loopDevice_boot : readBoot loopDevice = .ok loopBoot := rfl

theorem loopDevice_loads : (recordZero loopDevice loopBoot fun _ => 0).isSome = true := by decide +kernel

def loopZero : Memory := (recordZero loopDevice loopBoot fun _ => 0).get loopDevice_loads

theorem loopZero_goesOn : ∀ off ∈ [56, 156], (Continues loopZero off ∧ ¬IsData loopZero off ∧
    off + attributeBytes loopZero off ≤ MFT_BUF_SIZE) ∧ nextAttribute loopZero off ∈ [56, 156] := by decide +kernel

theorem loopWalk_endless (steps : Nat) : ∀ off ∈ [56, 156], iterate (zeroBody loopZero) steps off =
    .error .endless := by
  induction steps with
  | zero => exact fun _ _ => rfl
  | succ steps ih =>
    intro off member
    obtain ⟨⟨goesOn, data, inside⟩, next⟩ := loopZero_goesOn off member
    have round : Next (zeroBody loopZero) off (nextAttribute loopZero off) :=
      (zeroBody_next off _).mpr ⟨⟨goesOn, data, fun _ => inside⟩, rfl⟩
    rw [iterate_next round]
    exact ih _ next

/-- The mount of this disk goes round for ever. -/
theorem mount_endless : ¬∃ steps, ntfsInitializeContext steps loopDevice (fun mft => (false, mft)) (fun _ => 0) ≠
    .error .endless := by
  rintro ⟨steps, ends⟩
  apply ends
  have sized : Sized loopBoot := by
    have first := readBoot_safe loopDevice
    rw [loopDevice_boot] at first
    exact first
  have loaded : recordZero loopDevice loopBoot (fun _ => 0) = some loopZero := (Option.some_get loopDevice_loads).symm
  have start : wordAt loopZero 20 2 = 56 := by decide +kernel
  rw [ntfsInitializeContext, loopDevice_boot, ok_bind, loadZero_eq sized, loaded, supplied, ok_bind,
    peek_eq (by decide), ok_bind, start, loopWalk_endless steps 56 (by decide)]
  rfl

end AsasOs.Ntfs.Mount
