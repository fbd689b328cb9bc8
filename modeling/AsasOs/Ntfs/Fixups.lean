import AsasOs.Ntfs.Records

/-!
# Fixups in place

`apply_fixup` and `protect_fixup` change the buffer that they are given, one word after the other, and may return in
between. What a call leaves in the buffer is part of its outcome, also when it fails.

## Main results

- `applyFixup_eq`, `protectFixup_eq`: what is left in the buffer is what the functions on records give.
- `fixup_roundTrip`: a record that has been guarded is read back, and a call that fails changes nothing.
-/
namespace AsasOs.Ntfs.InPlace

open Bytes

/-- Code on a buffer, which is left as it is when the code returns 0. -/
abbrev Buffered := EStateM Unit Memory Unit

/-- `if (*word != check) return 0;` -/
def demandTail (sectorSize check i : Nat) : Buffered := do
  let record ← get
  if wordAt record (tailAt sectorSize (i + 1)) 2 = check then pure () else throw ()

/-- `*word = fixup[i];` -/
def restoreTail (sectorSize fixupOffset i : Nat) : Buffered :=
  modify fun record =>
    patch record (tailAt sectorSize (i + 1)) (digits 2 (wordAt record (fixupOffset + 2 * (i + 1)) 2))

def applyFixup (recordSize sectorSize : Nat) : Buffered := do
  let record ← get
  if fixupValid record recordSize sectorSize = true then
    let fixupOffset := wordAt record 4 2
    (List.range (recordSize / sectorSize)).forM (demandTail sectorSize (wordAt record fixupOffset 2))
    (List.range (recordSize / sectorSize)).forM (restoreTail sectorSize fixupOffset)
  else throw ()

/-- `fixup[index] = *tail; *tail = sequence;` -/
def guardTail (sectorSize fixupOffset sequence i : Nat) : Buffered := do
  modify fun record =>
    patch record (fixupOffset + 2 * (i + 1)) (digits 2 (wordAt record (tailAt sectorSize (i + 1)) 2))
  modify fun record => patch record (tailAt sectorSize (i + 1)) (digits 2 sequence)

def protectFixup (recordSize sectorSize : Nat) : Buffered := do
  let record ← get
  if fixupValid record recordSize sectorSize = true then
    let fixupOffset := wordAt record 4 2
    let sequence := nextSequence (wordAt record fixupOffset 2)
    modify fun record => patch record fixupOffset (digits 2 sequence)
    (List.range (recordSize / sectorSize)).forM (guardTail sectorSize fixupOffset sequence)
  else throw ()

section Loops

variable {record after : Memory} {recordSize sectorSize : Nat} {first : Buffered} {next : Unit → Buffered}

theorem get_bind {body : Memory → Buffered} : (get >>= body) record = body record record := rfl

theorem modify_eq (change : Memory → Memory) :
    (modify change : Buffered) record = .ok () (change record) := rfl

theorem bind_ok (given : first record = .ok () after) : (first >>= next) record = next () after := by
  change EStateM.bind first next record = _
  rw [EStateM.bind, given]

theorem bind_error (failed : first record = .error () after) :
    (first >>= next) record = .error () after := by
  change EStateM.bind first next record = _
  rw [EStateM.bind, failed]

theorem forM_modify {step : Nat → Buffered} {change : Memory → Nat → Memory}
    (each : ∀ i record, step i record = .ok () (change record i)) (indices : List Nat) :
    indices.forM step record = .ok () (indices.foldl change record) := by
  induction indices generalizing record with
  | nil => rfl
  | cons i indices ih => exact (bind_ok (each i record)).trans ih

theorem forM_demandTail {check : Nat} (indices : List Nat) :
    indices.forM (demandTail sectorSize check) record =
      if indices.any (fun i => wordAt record (tailAt sectorSize (i + 1)) 2 != check) = true then .error () record
      else .ok () record := by
  have here (i : Nat) : demandTail sectorSize check i record =
      (if wordAt record (tailAt sectorSize (i + 1)) 2 = check then pure () else throw () : Buffered) record := rfl
  induction indices with
  | nil => rfl
  | cons i indices ih =>
    by_cases same : wordAt record (tailAt sectorSize (i + 1)) 2 = check
    · have passed := here i
      rw [if_pos same] at passed
      rw [List.any_cons, bne_eq_false_iff_eq.mpr same, Bool.false_or]
      exact (bind_ok passed).trans ih
    · have failed := here i
      rw [if_neg same] at failed
      rw [List.any_cons, bne_iff_ne.mpr same, Bool.true_or, if_pos rfl]
      exact bind_error failed

/-- The loops of `apply_fixup` leave what it gives on records, and a failed check leaves the buffer alone. -/
theorem applyFixup_eq : applyFixup recordSize sectorSize record =
      match Ntfs.applyFixup record recordSize sectorSize with
      | some plain => .ok () plain
      | none => .error () record := by
  rw [applyFixup, get_bind, Ntfs.applyFixup]
  by_cases valid : fixupValid record recordSize sectorSize = true
  · have checked := @forM_demandTail record sectorSize (wordAt record (wordAt record 4 2) 2)
      (List.range (recordSize / sectorSize))
    rw [if_pos valid, if_neg (by simpa using valid)]
    dsimp only
    split at checked
    next differs =>
      rw [if_pos differs]
      exact bind_error checked
    next agree =>
      rw [if_neg agree]
      exact (bind_ok checked).trans (forM_modify (fun _ _ => rfl) _)
  · rw [if_neg valid, if_pos (by simpa using valid)]
    rfl

theorem protectFixup_eq : protectFixup recordSize sectorSize record =
      match Ntfs.protectFixup record recordSize sectorSize with
      | some guarded => .ok () guarded
      | none => .error () record := by
  rw [protectFixup, get_bind, Ntfs.protectFixup]
  by_cases valid : fixupValid record recordSize sectorSize = true
  · rw [if_pos valid, if_neg (by simpa using valid)]
    dsimp only
    refine (bind_ok (modify_eq _)).trans ?_
    exact forM_modify (fun _ _ => rfl) _
  · rw [if_neg valid, if_pos (by simpa using valid)]
    rfl

end Loops

section RoundTrip

variable {record guarded plain : Memory} {recordSize sectorSize : Nat}

theorem behind_kept (done : Ntfs.protectFixup record recordSize sectorSize = some guarded)
    (apart : ArrayApart (wordAt record 4 2) sectorSize (recordSize / sectorSize))
    (read : Ntfs.applyFixup guarded recordSize sectorSize = some plain) {i : Nat}
    (behind : recordSize ≤ i) :
    plain i = record i := by
  have valid := protectFixup_valid done
  have steps := protectFixup_guarded done apart
  have fixup : wordAt guarded 4 2 = wordAt record 4 2 :=
    wordAt_congr fun k _ below => (protectFixup_number done apart).1 k (by omega)
  have array : wordAt record 4 2 + 2 * (recordSize / sectorSize + 1) ≤ recordSize := by
    have sizes := fixupValid_iff.mp valid
    omega
  have first := fixup_first valid
  have tails : ∀ k < recordSize / sectorSize, i < tailAt sectorSize (k + 1) ∨ tailAt sectorSize (k + 1) + 2 ≤ i :=
    fun k below => Or.inr ((fixup_inside valid below).1.trans behind)
  unfold Ntfs.applyFixup at read
  split at read
  next => cases read
  next =>
    dsimp only at read
    split at read
    next => cases read
    next =>
      cases read
      rw [fixup, (applyTails_spec guarded (fixupValid_iff.mp valid).1.2.1 apart (Nat.le_refl _)).2 i tails,
        steps.other i (Or.inr (array.trans behind)) tails, patch, digits_length, if_neg (by omega)]

/-- A record that has been guarded is read back outside its update sequence array, and where the fixup cannot be applied
the buffer is left alone. -/
theorem fixup_roundTrip (record : Memory) (recordSize sectorSize : Nat) :
    (∀ guarded, protectFixup recordSize sectorSize record = .ok () guarded →
      ArrayApart (wordAt record 4 2) sectorSize (recordSize / sectorSize) →
        ∃ plain, applyFixup recordSize sectorSize guarded = .ok () plain ∧
          ∀ i, (i < wordAt record 4 2 ∨ wordAt record 4 2 + 2 * (recordSize / sectorSize + 1) ≤ i) →
            plain i = record i) ∧
      ∀ after, applyFixup recordSize sectorSize record = .error () after → after = record := by
  constructor
  · intro guarded done apart
    rw [protectFixup_eq] at done
    cases outcome : Ntfs.protectFixup record recordSize sectorSize with
    | none =>
      rw [outcome] at done
      cases done
    | some other =>
      rw [outcome] at done
      cases done
      obtain ⟨plain, read, same⟩ := applyFixup_protectFixup outcome apart fun _ _ => rfl
      refine ⟨plain, by rw [applyFixup_eq, read], fun i outside => ?_⟩
      rcases Nat.lt_or_ge i recordSize with inside | behind
      · exact same i inside outside
      · exact behind_kept outcome apart read behind
  · intro after failed
    rw [applyFixup_eq] at failed
    split at failed
    next => cases failed
    next =>
      cases failed
      rfl

/-- A record of one sector whose sequence number is the last one. -/
def lastSequence : Memory := fun i => [0, 0, 0, 0, 48, 0, 2, 0].getD i (if i = 48 ∨ i = 49 then 0xFF else 7)

theorem fixup_roundTrip_last : ∃ plain,
    applyFixup 512 512 (patch (patch (patch lastSequence 48 [1, 0]) 50 [7, 7]) 510 [1, 0]) =
    .ok () plain ∧
      ∀ i, (i < 48 ∨ 48 + 2 * (512 / 512 + 1) ≤ i) → plain i = lastSequence i :=
  (fixup_roundTrip lastSequence 512 512).1 _ rfl (by
    intro index first last
    obtain rfl : index = 1 := Nat.le_antisymm last first
    decide)

end RoundTrip

end AsasOs.Ntfs.InPlace
