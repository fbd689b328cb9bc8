import AsasOs.Ntfs.FileRecords

/-!
# NTFS: torn writes

A record is written sector by sector. If only some of its sectors reach the disk, the
image is a mix of an old and of a new one, and the update sequence numbers at the ends
of the sectors are to give that away. A record that was read, edited and guarded again
has the next number; one that was built anew always has the number 1.

## Main results

- `detected_of_numbers`: images with different numbers do not mix.
- `tornWrite_detected_iff`: which rewrites of a record are safe against torn writes.
- `tornWrite_undetected`: a file that is rewritten twice.
-/
namespace AsasOs.Ntfs

open Bytes

/-! ### Mixed images -/

def mixed (sectorSize : Nat) (taken : Nat → Bool) (old new : Memory) : Memory :=
  fun k => if taken (k / sectorSize) then new k else old k

/-- Two images of a record are the same. -/
def Same (size : Nat) (image image' : Memory) : Prop := ∀ k < size, image k = image' k

/-- Every mix of two images that is neither of them is rejected. -/
def Detected (size sectorSize : Nat) (old new : Memory) : Prop :=
  ∀ taken, ¬Same size (mixed sectorSize taken old new) old → ¬Same size (mixed sectorSize taken old new) new →
    applyFixup (mixed sectorSize taken old new) size sectorSize = none

/-- At most one sector differs. -/
def OneSector (size sectorSize : Nat) (old new : Memory) : Prop :=
  ∃ sector, ∀ k < size, k / sectorSize ≠ sector → old k = new k

/-- The update sequence array lies in the first sector, before its end. -/
def InFirstSector (image : Memory) : Prop := wordAt image 4 2 + 2 * wordAt image 6 2 ≤ 510

/-! ### Records with the same bytes -/

section Same

variable {size sectorSize : Nat} {image image' : Memory}

theorem Same.wordAt (same : Same size image image') {position width : Nat}
    (inside : position + width ≤ size) :
    wordAt image' position width = wordAt image position width :=
  wordAt_congr fun i _ below => (same i (by omega)).symm

theorem Same.patch (same : Same size image image') (position : Nat) (data : List UInt8) :
    Same size (patch image position data) (patch image' position data) := fun k below => by
  unfold Bytes.patch
  split
  · rfl
  · exact same k below

theorem Same.fixupValid (same : Same size image image') :
    fixupValid image' size sectorSize = fixupValid image size sectorSize := by
  by_cases header : 8 ≤ size
  · unfold Ntfs.fixupValid
    rw [same.wordAt (by omega), same.wordAt (by omega)]
  · have short : size < 8 := by omega
    simp [Ntfs.fixupValid, short]

theorem Same.tails {fixupOffset : Nat} (same : Same size image image') {sectors : List Nat}
    (inside : ∀ i ∈ sectors, fixupOffset + 2 * (i + 1) + 2 ≤ size) :
    Same size (sectors.foldl (fun record i => Bytes.patch record (tailAt sectorSize (i + 1))
        (digits 2 (Bytes.wordAt record (fixupOffset + 2 * (i + 1)) 2))) image)
      (sectors.foldl (fun record i => Bytes.patch record (tailAt sectorSize (i + 1))
        (digits 2 (Bytes.wordAt record (fixupOffset + 2 * (i + 1)) 2))) image') := by
  induction sectors generalizing image image' with
  | nil => exact same
  | cons i sectors ih =>
    rw [List.foldl_cons, List.foldl_cons, same.wordAt (inside i (List.mem_cons_self ..))]
    exact ih (same.patch _ _) fun i member => inside i (List.mem_cons_of_mem _ member)

theorem Same.applyFixup (same : Same size image image') :
    Option.Rel (Same size) (applyFixup image size sectorSize) (applyFixup image' size sectorSize) := by
  unfold Ntfs.applyFixup
  rw [same.fixupValid]
  split
  · exact .none
  next accepted =>
    rw [Bool.not_eq_true', Bool.not_eq_false] at accepted
    have header : 8 ≤ size := (fixupValid_iff.mp accepted).1.1
    have inside : ∀ i ∈ List.range (size / sectorSize), _ := fun i member =>
      fixup_inside accepted (List.mem_range.mp member)
    have offset : Bytes.wordAt image' 4 2 = Bytes.wordAt image 4 2 := same.wordAt (by omega)
    have number := same.wordAt (fixup_first accepted)
    have checks : ((List.range (size / sectorSize)).any fun i =>
        Bytes.wordAt image' (tailAt sectorSize (i + 1)) 2 != Bytes.wordAt image (Bytes.wordAt image 4 2) 2) =
        (List.range (size / sectorSize)).any fun i =>
          Bytes.wordAt image (tailAt sectorSize (i + 1)) 2 != Bytes.wordAt image (Bytes.wordAt image 4 2) 2 := by
      rw [Bool.eq_iff_iff, List.any_eq_true, List.any_eq_true]
      refine exists_congr fun i => and_congr_right fun member => ?_
      rw [same.wordAt (inside i member).1]
    dsimp only
    rw [offset, number, checks]
    split
    · exact .none
    · exact .some (same.tails fun i member => (inside i member).2)

end Same

section Mixed

variable {old new image : Memory} {taken : Nat → Bool} {size sectorSize : Nat}

theorem applyFixup_isSome :
    (applyFixup image size sectorSize).isSome ↔ fixupValid image size sectorSize = true ∧
      ∀ i < size / sectorSize, wordAt image (tailAt sectorSize (i + 1)) 2 = sequenceNumber image := by
  unfold applyFixup
  dsimp only
  split
  next invalid =>
    rw [Bool.not_eq_true'] at invalid
    simp [invalid]
  next valid =>
    rw [Bool.not_eq_true', Bool.not_eq_false] at valid
    split
    next broken =>
      simp only [List.any_eq_true, List.mem_range, bne_iff_ne] at broken
      obtain ⟨i, inside, differs⟩ := broken
      exact ⟨nofun, fun ⟨_, tails⟩ => absurd (tails i inside) differs⟩
    next whole =>
      simp only [List.any_eq_true, List.mem_range, bne_iff_ne] at whole
      refine ⟨fun _ => ⟨valid, fun i inside => ?_⟩, fun _ => rfl⟩
      by_contra differs
      exact whole ⟨i, inside, differs⟩

theorem mixed_word {sector position : Nat} (first : position / sectorSize = sector)
    (last : (position + 1) / sectorSize = sector) :
    wordAt (mixed sectorSize taken old new) position 2 =
      if taken sector then wordAt new position 2 else wordAt old position 2 := by
  have place : ∀ k, position ≤ k → k < position + 2 → k / sectorSize = sector := by
    intro k low high
    rcases Nat.eq_or_lt_of_le low with rfl | next
    · exact first
    · obtain rfl : k = position + 1 := by omega
      exact last
  split
  next yes =>
    refine wordAt_congr fun k low high => ?_
    rw [mixed, place k low high, if_pos yes]
  next no =>
    refine wordAt_congr fun k low high => ?_
    rw [mixed, place k low high, if_neg no]

theorem mixed_tail {sector : Nat} (large : 512 ≤ sectorSize) :
    wordAt (mixed sectorSize taken old new) (tailAt sectorSize (sector + 1)) 2 =
      if taken sector then wordAt new (tailAt sectorSize (sector + 1)) 2
      else wordAt old (tailAt sectorSize (sector + 1)) 2 := by
  have whole : (sector + 1) * sectorSize = sectorSize * sector + sectorSize := by
    rw [Nat.succ_mul, Nat.mul_comm]
  have tail : tailAt sectorSize (sector + 1) = sectorSize - 2 + sectorSize * sector := by
    unfold tailAt
    omega
  have next : tailAt sectorSize (sector + 1) + 1 = sectorSize - 1 + sectorSize * sector := by omega
  apply mixed_word
  · rw [tail, Nat.add_mul_div_left _ _ (by omega), Nat.div_eq_of_lt (by omega), Nat.zero_add]
  · rw [next, Nat.add_mul_div_left _ _ (by omega), Nat.div_eq_of_lt (by omega), Nat.zero_add]

theorem exists_taken (differs : ¬Same size (mixed sectorSize taken old new) old) :
    ∃ k < size, taken (k / sectorSize) = true ∧ new k ≠ old k := by
  unfold Same at differs
  push Not at differs
  obtain ⟨k, inside, differs⟩ := differs
  unfold mixed at differs
  split at differs
  next yes => exact ⟨k, inside, yes, differs⟩
  next => exact absurd rfl differs

theorem exists_kept (differs : ¬Same size (mixed sectorSize taken old new) new) :
    ∃ k < size, taken (k / sectorSize) = false ∧ old k ≠ new k := by
  unfold Same at differs
  push Not at differs
  obtain ⟨k, inside, differs⟩ := differs
  unfold mixed at differs
  split at differs
  next => exact absurd rfl differs
  next no => exact ⟨k, inside, Bool.eq_false_of_not_eq_true no, differs⟩

/-- Images with different numbers do not mix: the ends of an old and of a new sector differ. -/
theorem detected_of_numbers (read : (applyFixup old size sectorSize).isSome)
    (written : (applyFixup new size sectorSize).isSome)
    (differ : sequenceNumber new ≠ sequenceNumber old) :
    Detected size sectorSize old new := by
  intro taken notOld notNew
  obtain ⟨k, inside, new, -⟩ := exists_taken notOld
  obtain ⟨k', inside', kept, -⟩ := exists_kept notNew
  obtain ⟨valid, olds⟩ := applyFixup_isSome.mp read
  obtain ⟨-, news⟩ := applyFixup_isSome.mp written
  obtain ⟨⟨_, large, _, whole⟩, -⟩ := fixupValid_iff.mp valid
  have multiple := Nat.div_mul_cancel (Nat.dvd_of_mod_eq_zero whole)
  have sector : ∀ k < size, k / sectorSize < size / sectorSize := by
    intro k inside
    rw [Nat.div_lt_iff_lt_mul (by omega), multiple]
    exact inside
  by_contra accepted
  have some := Option.isSome_iff_ne_none.mpr accepted
  obtain ⟨-, tails⟩ := applyFixup_isSome.mp some
  have fresh := tails _ (sector k inside)
  have stale := tails _ (sector k' inside')
  rw [mixed_tail large, if_pos new, news _ (sector k inside)] at fresh
  rw [mixed_tail large, if_neg (by rw [kept]; exact Bool.false_ne_true), olds _ (sector k' inside')] at stale
  exact differ (fresh.trans stale.symm)

theorem detected_of_oneSector (one : OneSector size sectorSize old new) :
    Detected size sectorSize old new := by
  intro taken notOld notNew
  obtain ⟨k, inside, new, differs⟩ := exists_taken notOld
  obtain ⟨k', inside', kept, differs'⟩ := exists_kept notNew
  obtain ⟨sector, same⟩ := one
  have here : k / sectorSize = sector := by
    by_contra elsewhere
    exact differs (same k inside elsewhere).symm
  have there : k' / sectorSize = sector := by
    by_contra elsewhere
    exact differs' (same k' inside' elsewhere)
  rw [here] at new
  rw [there, new] at kept
  cases kept

theorem oneSector_of_detected (read : (applyFixup old size sectorSize).isSome)
    (written : (applyFixup new size sectorSize).isSome) (first : InFirstSector new)
    (agree : sequenceNumber new = sequenceNumber old) (detected : Detected size sectorSize old new) :
    OneSector size sectorSize old new := by
  by_contra many
  unfold OneSector at many
  push Not at many
  obtain ⟨k, inside, later, differs⟩ := many 0
  obtain ⟨k', inside', elsewhere, differs'⟩ := many (k / sectorSize)
  obtain ⟨-, olds⟩ := applyFixup_isSome.mp read
  obtain ⟨valid, news⟩ := applyFixup_isSome.mp written
  obtain ⟨⟨_, large, _, _⟩, -⟩ := fixupValid_iff.mp valid
  -- All sectors are new except that of `k`, which is not the first one.
  let taken : Nat → Bool := fun sector => sector != k / sectorSize
  have head : taken 0 = true := bne_iff_ne.mpr later.symm
  have low : ∀ position, position + 1 < 512 →
      wordAt (mixed sectorSize taken old new) position 2 = wordAt new position 2 := by
    intro position below
    rw [mixed_word (Nat.div_eq_of_lt (by omega)) (Nat.div_eq_of_lt (by omega)), if_pos head]
  unfold InFirstSector at first
  have number : sequenceNumber (mixed sectorSize taken old new) = sequenceNumber new := by
    rw [sequenceNumber, low 4 (by omega), low _ (by omega), sequenceNumber]
  have accepted : (applyFixup (mixed sectorSize taken old new) size sectorSize).isSome := by
    refine applyFixup_isSome.mpr ⟨?_, fun sector below => ?_⟩
    · unfold fixupValid at valid ⊢
      rw [low 4 (by omega), low 6 (by omega)]
      exact valid
    · rw [mixed_tail large, number, news sector below, olds sector below, agree, ite_self]
  have rejected := detected taken ?_ ?_
  · rw [rejected] at accepted
    cases accepted
  · intro same
    have here := same k' inside'
    unfold mixed at here
    rw [if_pos (bne_iff_ne.mpr elsewhere)] at here
    exact differs' here.symm
  · intro same
    have here := same k inside
    unfold mixed at here
    rw [if_neg (by simp [taken])] at here
    exact differs here

end Mixed

/-! ### Rewrites -/

/-- What an edit of a record leaves alone: where its update sequence array is, and the array. -/
structure Edited (plain edited : Memory) : Prop where
  header : ∀ k < 8, edited k = plain k
  array : ∀ k, wordAt plain 4 2 ≤ k → k < wordAt plain 4 2 + 2 * wordAt plain 6 2 → edited k = plain k

/-- What a new image is made of. -/
inductive Origin where
  | readBack
  | fromScratch
  deriving DecidableEq, Repr

/-- The ways in which the driver replaces an image that is on the disk. -/
inductive Rewrites (context : MftContext) (old : Memory) : Nat → Origin → Memory → Prop where
  | edited {size : Nat} {plain edited new : Memory} (first : InFirstSector old)
      (read : applyFixup old size context.bytesPerSector = some plain) (edit : Edited plain edited)
      (written : protectFixup edited size context.bytesPerSector = some new) :
      Rewrites context old size .readBack new
  | record {record new : Memory} (built : FileRecord context record)
      (written : protectFixup record context.mftRecordSize context.bytesPerSector = some new) :
      Rewrites context old context.mftRecordSize .fromScratch new
  | leaf {vcn first last : Nat} {entries new : Memory} {offsets : Nat → Nat}
      (built : ntfsBuildLeafRecord context.toNtfsContext vcn entries offsets first last = some new) :
      Rewrites context old context.indexRecordSize .fromScratch new

section Rewrites

variable {context : MftContext} {old new record : Memory} {size sectorSize : Nat} {origin : Origin}

theorem protectFixup_image (done : protectFixup record size sectorSize = some new)
    (first : InFirstSector record) :
    (applyFixup new size sectorSize).isSome ∧ InFirstSector new ∧
      sequenceNumber new = nextSequence (sequenceNumber record) := by
  obtain ⟨⟨_, large, _, _⟩, _, _, count, _⟩ := fixupValid_iff.mp (protectFixup_valid done)
  have inside := first
  rw [InFirstSector, count] at inside
  have apart := arrayApart_first large inside
  obtain ⟨head, number⟩ := protectFixup_number done apart
  obtain ⟨plain, applied, -⟩ := applyFixup_protectFixup done apart fun _ _ => rfl
  have position : wordAt new 4 2 = wordAt record 4 2 := wordAt_congr fun k _ below => head k (by omega)
  have sectors : wordAt new 6 2 = wordAt record 6 2 := wordAt_congr fun k _ below => head k (by omega)
  refine ⟨by rw [applied]; rfl, ?_, ?_⟩
  · rw [InFirstSector, position, sectors]
    exact first
  · rw [sequenceNumber, position, number]

theorem applyFixup_kept {plain : Memory} (read : applyFixup old size sectorSize = some plain)
    (first : InFirstSector old) : ∀ k < 510, plain k = old k := by
  have some : (applyFixup old size sectorSize).isSome := by rw [read]; rfl
  obtain ⟨valid, tails⟩ := applyFixup_isSome.mp some
  obtain ⟨⟨_, large, _, _⟩, _, _, count, _⟩ := fixupValid_iff.mp valid
  rw [InFirstSector, count] at first
  obtain ⟨-, other⟩ := applyTails_spec old large (arrayApart_first large first) (Nat.le_refl _)
  have shape : plain = applyTails sectorSize (wordAt old 4 2) (size / sectorSize) old := by
    unfold applyFixup at read
    dsimp only at read
    split at read
    · cases read
    split at read
    · cases read
    · exact (Option.some.inj read).symm
  intro k below
  rw [shape]
  refine other k fun i _ => Or.inl ?_
  have whole : sectorSize ≤ (i + 1) * sectorSize := Nat.le_mul_of_pos_left _ (Nat.succ_pos i)
  unfold tailAt
  omega

theorem applyFixup_number {plain : Memory} (read : applyFixup old size sectorSize = some plain)
    (first : InFirstSector old) :
    InFirstSector plain ∧ sequenceNumber plain = sequenceNumber old ∧ 1 ≤ wordAt plain 6 2 := by
  have some : (applyFixup old size sectorSize).isSome := by rw [read]; rfl
  obtain ⟨_, _, _, count, _⟩ := fixupValid_iff.mp (applyFixup_isSome.mp some).1
  have kept := applyFixup_kept read first
  have position : wordAt plain 4 2 = wordAt old 4 2 := wordAt_congr fun k _ below => kept k (by omega)
  have sectors : wordAt plain 6 2 = wordAt old 6 2 := wordAt_congr fun k _ below => kept k (by omega)
  have some : 1 ≤ wordAt old 6 2 := by
    rw [count]
    exact Nat.succ_pos _
  have inside := first
  unfold InFirstSector at inside
  refine ⟨?_, ?_, by omega⟩
  · rw [InFirstSector, position, sectors]
    exact first
  · rw [sequenceNumber, position]
    exact wordAt_congr fun k low below => kept k (by omega)

theorem edited_patch {plain : Memory} {offset : Nat} {data : List UInt8} (behind : 8 ≤ offset)
    (apart : offset + data.length ≤ wordAt plain 4 2 ∨ wordAt plain 4 2 + 2 * wordAt plain 6 2 ≤ offset) :
    Edited plain (patch plain offset data) := by
  constructor
  · intro k below
    rw [patch_before (by omega)]
  · intro k low high
    rw [patch, if_neg (by omega)]

theorem Edited.number {plain edited : Memory} (edit : Edited plain edited)
    (some : 1 ≤ wordAt plain 6 2) :
    sequenceNumber edited = sequenceNumber plain ∧ (InFirstSector plain → InFirstSector edited) := by
  have position : wordAt edited 4 2 = wordAt plain 4 2 := wordAt_congr fun k _ below => edit.header k (by omega)
  have sectors : wordAt edited 6 2 = wordAt plain 6 2 := wordAt_congr fun k _ below => edit.header k (by omega)
  constructor
  · rw [sequenceNumber, position]
    exact wordAt_congr fun k low below => edit.array k low (by omega)
  · intro first
    rw [InFirstSector, position, sectors]
    exact first

theorem protectFixup_fresh (done : protectFixup record size sectorSize = some new) (small : size ≤ 4096)
    (position : wordAt record 4 2 ≤ 48) (number : sequenceNumber record = 0) :
    (applyFixup new size sectorSize).isSome ∧ InFirstSector new ∧ sequenceNumber new = 1 := by
  have valid := protectFixup_valid done
  obtain ⟨_, _, _, count, _⟩ := fixupValid_iff.mp valid
  obtain ⟨_, few, -, -⟩ := fixupValid_sizes valid small
  have first : InFirstSector record := by
    rw [InFirstSector, count]
    omega
  obtain ⟨accepted, first, number'⟩ := protectFixup_image done first
  rw [number] at number'
  exact ⟨accepted, first, number'⟩

theorem nextSequence_ne {number : Nat} (small : number < 256 ^ 2) : nextSequence number ≠ number := by
  unfold nextSequence
  split <;> omega

def newNumber (old : Memory) : Origin → Nat
  | .readBack => nextSequence (sequenceNumber old)
  | .fromScratch => 1

theorem Rewrites.image (rewrites : Rewrites context old size origin new) :
    (applyFixup new size context.bytesPerSector).isSome ∧ InFirstSector new ∧
      sequenceNumber new = newNumber old origin := by
  cases rewrites with
  | edited first read edit written =>
    obtain ⟨firstPlain, same, some⟩ := applyFixup_number read first
    obtain ⟨number, inside⟩ := edit.number some
    obtain ⟨accepted, firstNew, next⟩ := protectFixup_image written (inside firstPlain)
    refine ⟨accepted, firstNew, ?_⟩
    rw [next, number, same]
    rfl
  | record built written =>
    have begun := built.begun
    refine protectFixup_fresh written context.fits.2 (Nat.le_of_eq begun.offset) ?_
    rw [sequenceNumber, begun.offset, begun.number]
  | leaf built =>
    obtain ⟨leaf, _, _, written, built⟩ := ntfsBuildLeafRecord_spec built
    have small := context.indexRecordSize_le
    obtain ⟨_, few, _, long⟩ := fixupValid_sizes (protectFixup_valid written) small
    obtain ⟨position, number⟩ := built.array few (by omega)
    refine protectFixup_fresh written small (by omega) ?_
    rw [sequenceNumber, position, number]

/-- A torn write is given away if the record was read back, or if the image it replaces does not have the
number of a new record; else only if no more than one sector was to change. -/
theorem tornWrite_detected_iff (rewrites : Rewrites context old size origin new)
    (guarded : (applyFixup old size context.bytesPerSector).isSome) :
    Detected size context.bytesPerSector old new ↔
      origin = .readBack ∨ sequenceNumber old ≠ 1 ∨ OneSector size context.bytesPerSector old new := by
  obtain ⟨accepted, first, number⟩ := rewrites.image
  constructor
  · intro detected
    cases origin with
    | readBack => exact Or.inl rfl
    | fromScratch =>
      by_cases old : sequenceNumber old = 1
      · exact Or.inr (Or.inr (oneSector_of_detected guarded accepted first (number.trans old.symm) detected))
      · exact Or.inr (Or.inl old)
  · rintro (rfl | old | one)
    · refine detected_of_numbers guarded accepted ?_
      rw [number]
      exact nextSequence_ne (wordAt_lt _ _ 2)
    · refine detected_of_numbers guarded accepted ?_
      rw [number]
      cases origin with
      | readBack => exact nextSequence_ne (wordAt_lt _ _ 2)
      | fromScratch => exact old.symm
    · exact detected_of_oneSector one

end Rewrites

/-- A record whose flags are set where it was read. -/
theorem tornWrite_detected_iff_edited :
    ∃ old new, Rewrites smallVolume old 1024 .readBack new ∧ Detected 1024 512 old new := by
  have run : ((ntfsBuildBasicRecord smallVolume 40 1 5 [97] true []).bind fun record =>
      (protectFixup record 1024 512).bind fun old => (applyFixup old 1024 512).bind fun plain =>
      (protectFixup (patch plain 22 (digits 2 0)) 1024 512).map fun _ =>
        decide (wordAt old 4 2 + 2 * wordAt old 6 2 ≤ 510) && decide (wordAt plain 4 2 = 48)) = some true := by
    decide +kernel
  obtain ⟨_, -, run⟩ := Option.bind_eq_some_iff.mp run
  obtain ⟨old, -, run⟩ := Option.bind_eq_some_iff.mp run
  obtain ⟨plain, read, run⟩ := Option.bind_eq_some_iff.mp run
  obtain ⟨new, written, run⟩ := Option.map_eq_some_iff.mp run
  simp only [Bool.and_eq_true, decide_eq_true_eq] at run
  obtain ⟨first, position⟩ := run
  have rewrites : Rewrites smallVolume old 1024 .readBack new := by
    refine .edited first read (edited_patch (by decide) (Or.inl ?_)) written
    rw [position, digits_length]
    decide
  have guarded := Option.isSome_of_eq_some read
  exact ⟨old, new, rewrites, (tornWrite_detected_iff rewrites guarded).mpr (Or.inl rfl)⟩

/-- A file of one byte that is created and then written with sixteen bytes. Its record is built twice, and the
image with the first sector of the new record and the second one of the old record is accepted. -/
theorem tornWrite_undetected : ∃ first second old new : Memory,
      ntfsBuildBasicRecord smallVolume 40 1 5 (List.replicate 150 97) false [1] = some first ∧
      protectFixup first 1024 512 = some old ∧
      ntfsBuildBasicRecord smallVolume 40 1 5 (List.replicate 150 97) false (List.replicate 16 2) =
      some second ∧
      protectFixup second 1024 512 = some new ∧ ¬Detected 1024 512 old new := by
  have run : ((ntfsBuildBasicRecord smallVolume 40 1 5 (List.replicate 150 97) false [1]).bind fun first =>
      (protectFixup first 1024 512).bind fun old =>
      (ntfsBuildBasicRecord smallVolume 40 1 5 (List.replicate 150 97) false (List.replicate 16 2)).bind fun second =>
      (protectFixup second 1024 512).map fun new =>
        (new 200 != old 200 && old 524 != new 524) &&
          (applyFixup (mixed 512 (fun sector => sector == 0) old new) 1024 512).isSome) = some true := by
    decide +kernel
  obtain ⟨first, built, run⟩ := Option.bind_eq_some_iff.mp run
  obtain ⟨old, guarded, run⟩ := Option.bind_eq_some_iff.mp run
  obtain ⟨second, built', run⟩ := Option.bind_eq_some_iff.mp run
  obtain ⟨new, guarded', run⟩ := Option.map_eq_some_iff.mp run
  simp only [Bool.and_eq_true, bne_iff_ne] at run
  obtain ⟨⟨size, length⟩, accepted⟩ := run
  refine ⟨first, second, old, new, built, guarded, built', guarded', fun detected => ?_⟩
  -- The first sector is the new one, and the second one the old one.
  have rejected := detected (fun sector => sector == 0) (fun same => size (same 200 (by decide)))
    fun same => length (same 524 (by decide))
  rw [rejected] at accepted
  cases accepted

end AsasOs.Ntfs
