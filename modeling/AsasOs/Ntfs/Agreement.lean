import AsasOs.Lib.Outcomes
import AsasOs.Ntfs.MountSafety
import AsasOs.Ntfs.Resolution

/-!
# NTFS: the mount and the mounted volume

The mount has models of its own of two functions that the calls on a mounted volume use as well: there every access is
checked against the buffer. Where the accesses are inside, the two models give the same.

## Main results

- `decodeRunlist_agrees`: run lists.
- `iterateAttrs_agrees`: resident values.
-/
namespace AsasOs.Ntfs

open Bytes Checked Packed

variable {mft : Memory} {steps : Nat}

/-! ### Run lists -/

theorem window_cons (position size : Nat) :
    window mft position (size + 1) = mft position :: window mft (position + 1) size := by
  rw [Nat.add_comm, window_add]
  rfl

theorem wordAt_one (position : Nat) : wordAt mft position 1 = (mft position).toNat := by
  rw [wordAt, window_cons, value]
  rfl

theorem take_window {position first size : Nat} (inside : first ≤ size) :
    (window mft position size).take first = window mft position first := by
  obtain ⟨more, rfl⟩ := Nat.exists_eq_add_of_le inside
  rw [window_add, List.take_left' (window_length _ _ _)]

theorem drop_window {position first size : Nat} (inside : first ≤ size) :
    (window mft position size).drop first = window mft (position + first) (size - first) := by
  obtain ⟨more, rfl⟩ := Nat.exists_eq_add_of_le inside
  rw [window_add, List.drop_left' (window_length _ _ _), Nat.add_sub_cancel_left]

/-- The cursor of the mount is at what is left of the run list. -/
theorem runBody_agrees (remaining : Nat) {stop : Nat} (bound : stop ≤ Mount.MFT_BUF_SIZE) :
    ∀ {steps} (s : Mount.RunCursor), s.cursor ≤ stop → s.runs.length + remaining = Mount.MAX_RUNS → remaining < steps →
      iterate (Mount.runBody mft stop) steps s =
        .ok (decodeRuns remaining (window mft s.cursor (stop - s.cursor)) s.currentLcn s.runs) := by
  have zero (byte : UInt8) : byte.toNat = 0 ↔ byte = 0 := UInt8.toNat_inj (b := 0)
  induction remaining with
  | zero =>
    intro steps s within whole enough
    obtain ⟨steps, rfl⟩ : ∃ left, steps = left + 1 := ⟨steps - 1, by omega⟩
    rw [iterate_succ, Mount.runBody, decodeRuns]
    by_cases more : s.cursor < stop
    · obtain ⟨left, here⟩ : ∃ left, stop - s.cursor = left + 1 := ⟨stop - s.cursor - 1, by omega⟩
      rw [if_pos more, Mount.peek_eq (by omega), ok_bind, wordAt_one, here, window_cons]
      by_cases last : mft s.cursor = 0
      · rw [if_pos ((zero _).mpr last), List.head?_cons, if_pos (congrArg some last)]
        rfl
      · rw [if_neg (mt (zero _).mp last), if_neg (by omega), List.head?_cons, if_neg fun same => last (Option.some.inj same)]
        rfl
    · rw [if_neg more, Nat.sub_eq_zero_of_le (Nat.not_lt.mp more)]
      rfl
  | succ remaining ih =>
    intro steps s within whole enough
    obtain ⟨steps, rfl⟩ : ∃ left, steps = left + 1 := ⟨steps - 1, by omega⟩
    rw [iterate_succ, Mount.runBody]
    by_cases more : s.cursor < stop
    · obtain ⟨left, here⟩ : ∃ left, stop - s.cursor = left + 1 := ⟨stop - s.cursor - 1, by omega⟩
      rw [if_pos more, Mount.peek_eq (by omega), ok_bind, wordAt_one, here, window_cons, decodeRuns]
      by_cases last : mft s.cursor = 0
      · rw [if_pos ((zero _).mpr last), if_pos last]
        rfl
      · rw [if_neg (mt (zero _).mp last), if_pos (by omega), if_neg last]
        dsimp only
        generalize (mft s.cursor).toNat &&& 15 = lenSize
        generalize (mft s.cursor).toNat >>> 4 = offSize
        have length : stop - (s.cursor + 1) = left := by omega
        rw [length]
        by_cases broken : lenSize = 0 ∨ lenSize > 8 ∨ offSize > 8 ∨ left < lenSize + offSize
        · rw [if_pos broken, if_pos (by simpa [or_assoc] using broken)]
          rfl
        · rw [if_neg broken, if_neg (by simpa [or_assoc] using broken)]
          obtain ⟨-, -, -, room⟩ : _ ∧ _ ∧ _ ∧ _ := by simpa only [not_or] using broken
          have first : (window mft (s.cursor + 1) left).take lenSize = window mft (s.cursor + 1) lenSize :=
            take_window (by omega)
          have second : ((window mft (s.cursor + 1) left).drop lenSize).take offSize =
              window mft (s.cursor + 1 + lenSize) offSize := by
            rw [drop_window (by omega), take_window (by omega)]
          have behind : (window mft (s.cursor + 1) left).drop (lenSize + offSize) =
              window mft (s.cursor + 1 + lenSize + offSize) (stop - (s.cursor + 1 + lenSize + offSize)) := by
            rw [drop_window (by omega), ← Nat.add_assoc]
            congr 1
            omega
          rw [Mount.peek_eq (by omega), ok_bind, Mount.peek_eq (by omega), ok_bind, first, second, behind, ← wordAt,
            ← wordAt]
          by_cases none : wordAt mft (s.cursor + 1) lenSize = 0
          · rw [if_pos none, if_pos none]
            rfl
          · rw [if_neg none, if_neg none]
            refine ih ⟨_, _, _⟩ ?_ ?_ (by omega)
            · dsimp only
              omega
            · rw [List.length_append, List.length_singleton]
              omega
    · rw [if_neg more, Nat.sub_eq_zero_of_le (Nat.not_lt.mp more)]
      rfl

theorem decodeRunlist_agrees {runlist length : Nat} (inside : runlist + length ≤ Mount.MFT_BUF_SIZE)
    (enough : Mount.MAX_RUNS < steps) :
    Mount.decodeRunlist steps mft runlist length = .ok (decodeRunlist (window mft runlist length) Mount.MAX_RUNS) := by
  have agrees := @runBody_agrees mft Mount.MAX_RUNS (runlist + length) inside steps ⟨runlist, 0, []⟩
    (Nat.le_add_right _ _) (Nat.zero_add _) enough
  rwa [Nat.add_sub_cancel_left] at agrees

/-! ### Resident values -/

theorem attrBody_end {targetType off : Nat} (done : ¬off + 16 ≤ usedSize mft) :
    Mount.attrBody mft targetType off = .ok (.inr none) := by
  have folded : wordAt mft 24 4 = usedSize mft := rfl
  rw [Mount.attrBody, Mount.peek_eq (by decide), ok_bind, folded, if_neg done]
  rfl

theorem attrBody_misfit {targetType off : Nat} (used : usedSize mft ≤ Mount.MFT_BUF_SIZE) (room : off + 16 ≤ usedSize mft)
    (misfit : ¬AttributeAt mft off) : Mount.attrBody mft targetType off = .ok (.inr none) := by
  have folded : wordAt mft 24 4 = usedSize mft := rfl
  have length : wordAt mft (off + 4) 4 = attributeLength mft off := rfl
  have broken : attributeLength mft off < 16 ∨ attributeLength mft off > usedSize mft - off := by
    by_contra fine
    exact misfit ⟨room, by
      change 16 ≤ attributeLength mft off
      omega, by
      change off + attributeLength mft off ≤ usedSize mft
      omega⟩
  rw [Mount.attrBody, Mount.peek_eq (by decide), ok_bind, folded, if_pos room, Mount.peek_eq (by omega), ok_bind,
    Mount.peek_eq (by omega), ok_bind, length]
  by_cases ends : wordAt mft off 4 = ATTR_END ∨ attributeLength mft off = 0
  · rw [if_pos ends]
    rfl
  · rw [if_neg ends, if_pos broken]
    rfl

/-- At an attribute that fits, the mount does what a mounted volume does. -/
theorem attrBody_fits {targetType off : Nat} (used : usedSize mft ≤ Mount.MFT_BUF_SIZE) (here : AttributeAt mft off) :
    Mount.attrBody mft targetType off = .ok (match iterateBody targetType mft off none with
      | none => .inr none
      | some (.stop found) => .inr found
      | some (.next _) => .inl (off + attributeLength mft off)) := by
  have room : off + 16 ≤ usedSize mft := here.room
  have large : 16 ≤ attributeLength mft off := here.large
  have inside : off + attributeLength mft off ≤ usedSize mft := here.inside
  have small : (off + attributeLength mft off) % 2 ^ 32 = off + attributeLength mft off :=
    Nat.mod_eq_of_lt (by unfold Mount.MFT_BUF_SIZE at used; omega)
  have folded : wordAt mft 24 4 = usedSize mft := rfl
  have type : wordAt mft off 4 = attributeType mft off := rfl
  have length : wordAt mft (off + 4) 4 = attributeLength mft off := rfl
  have flag : wordAt mft (off + 8) 1 = 0 ↔ nonResident mft off = false := by
    rw [wordAt_one, nonResident, bne_eq_false_iff_eq]
    exact UInt8.toNat_inj (b := 0)
  rw [Mount.attrBody, Mount.peek_eq (by decide), ok_bind, folded, if_pos room, Mount.peek_eq (by omega), ok_bind,
    Mount.peek_eq (by omega), ok_bind, type, length, iterateBody]
  by_cases last : attributeType mft off = ATTR_END
  · rw [if_pos (.inl last), if_pos last]
    rfl
  rw [if_neg (by omega), if_neg last, if_neg (by omega), Mount.peek_eq (by omega), ok_bind]
  by_cases resident : nonResident mft off = false
  · rw [if_pos (flag.mpr resident), if_pos resident]
    have valid : residentValid mft off = true ↔ ¬attributeLength mft off < 16 + 8 ∧
        ¬(valueOffset mft off > attributeLength mft off ∨
          valueLength mft off > attributeLength mft off - valueOffset mft off) := by
      simp only [residentValid, Bool.and_eq_true, decide_eq_true_eq]
      omega
    by_cases short : attributeLength mft off < 16 + 8
    · rw [if_pos short, if_neg fun fine => (valid.mp fine).1 short]
      rfl
    rw [if_neg short, Mount.peek_eq (by omega), ok_bind, Mount.peek_eq (by omega), ok_bind, small]
    change (if valueOffset mft off > _ ∨ valueLength mft off > _ - valueOffset mft off then _ else _) = _
    by_cases far : valueOffset mft off > attributeLength mft off ∨
        valueLength mft off > attributeLength mft off - valueOffset mft off
    · rw [if_pos far, if_neg fun fine => (valid.mp fine).2 far]
      rfl
    · rw [if_neg far, if_pos (valid.mpr ⟨short, far⟩)]
      split <;> rfl
  · rw [if_neg (mt flag.mp resident), if_neg resident]
    by_cases short : attributeLength mft off < 16 + 48
    · rw [if_pos short, if_pos (.inl short)]
      rfl
    rw [if_neg short, Mount.peek_eq (by omega), ok_bind, Mount.peek_eq (by omega), ok_bind, small]
    change (if runlistOffset mft off ≥ _ then _ else _) = _
    by_cases far : runlistOffset mft off ≥ attributeLength mft off
    · rw [if_pos far, if_pos (.inr far)]
      rfl
    · rw [if_neg far, if_neg (not_or.mpr ⟨short, far⟩)]
      split <;> rfl

theorem iterateAttrs_agrees (targetType : Nat) (enough : Mount.MFT_BUF_SIZE + 1 < steps) :
    Mount.iterateAttrs steps mft targetType = .ok (iterateAttrs mft targetType) := by
  have walked (used : usedSize mft ≤ Mount.MFT_BUF_SIZE) : ∀ (fuel off : Nat) {steps}, usedSize mft < off + fuel →
      fuel < steps → iterate (Mount.attrBody mft targetType) steps off =
        .ok (walk attributeFormat mft (usedSize mft) (iterateBody targetType mft) fuel off none).join := by
    intro fuel
    induction fuel with
    | zero =>
      intro off steps more enough
      obtain ⟨steps, rfl⟩ : ∃ left, steps = left + 1 := ⟨steps - 1, by omega⟩
      rw [iterate_succ, attrBody_end (by omega)]
      rfl
    | succ fuel ih =>
      intro off steps more enough
      obtain ⟨steps, rfl⟩ : ∃ left, steps = left + 1 := ⟨steps - 1, by omega⟩
      rw [iterate_succ]
      by_cases room : off + 16 ≤ usedSize mft
      · by_cases here : AttributeAt mft off
        · rw [attrBody_fits used here, walk_fits here]
          have large : 16 ≤ attributeLength mft off := here.large
          cases body : iterateBody targetType mft off none with
          | none => rfl
          | some step =>
            cases step with
            | stop found => rfl
            | next state =>
              obtain rfl := iterateBody_next body
              exact ih _ (by omega) (by omega)
        · rw [attrBody_misfit used room here, walk_misfit room here]
          rfl
      · rw [attrBody_end room, walk_end (Nat.lt_of_not_le room)]
        rfl
  have first : wordAt mft 20 2 = attrOffset mft := rfl
  have used : wordAt mft 24 4 = usedSize mft := rfl
  have allocated : wordAt mft 28 4 = recordAllocSize mft := rfl
  rw [Mount.iterateAttrs, Mount.peek_eq (by decide), ok_bind, Mount.peek_eq (by decide), ok_bind,
    Mount.peek_eq (by decide), ok_bind, iterateAttrs, first, used, allocated]
  change (if usedSize mft > recordAllocSize mft ∨ recordAllocSize mft > MFT_BUF_SIZE ∨ attrOffset mft < 48 ∨
    attrOffset mft > usedSize mft then _ else _) = _
  split
  · rfl
  next sound =>
    have bound : usedSize mft ≤ Mount.MFT_BUF_SIZE := by
      change usedSize mft ≤ MFT_BUF_SIZE
      omega
    exact walked bound _ _ (by omega) (by omega)

end AsasOs.Ntfs
