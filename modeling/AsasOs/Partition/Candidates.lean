import AsasOs.Partition.Tables

/-!
# What the readers yield

Whatever a disk answers, the candidates of one reader do not overlap, carry growing
numbers, and are few. The recording of a table rests on it: a candidate is never refused
because of another one of its own table.
-/
namespace AsasOs.Partition

open Block Bytes Prog

/-- Apart from each other, with growing numbers below `bound`, and few. -/
structure WellRead (bound : Nat) (candidates : List Candidate) : Prop where
  apart : candidates.Pairwise fun earlier later =>
    overlap later.startLba later.blockCount earlier.startLba earlier.blockCount = false
  growing : candidates.Pairwise fun earlier later => earlier.number < later.number
  positive : ∀ candidate ∈ candidates, 0 < candidate.number
  below : ∀ candidate ∈ candidates, candidate.number < bound
  few : candidates.length ≤ PARTITION_MAX_PER_DISK

theorem WellRead.nil (bound : Nat) : WellRead bound [] :=
  ⟨.nil, .nil, nofun, nofun, Nat.zero_le _⟩

theorem WellRead.mono {bound bound' : Nat} {candidates : List Candidate}
    (read : WellRead bound candidates) (wider : bound ≤ bound') : WellRead bound' candidates :=
  ⟨read.apart, read.growing, read.positive,
    fun candidate member => Nat.lt_of_lt_of_le (read.below candidate member) wider, read.few⟩

theorem WellRead.add {bound bound' : Nat} {candidates : List Candidate} {candidate : Candidate}
    (read : WellRead bound candidates) (room : ¬candidates.length ≥ PARTITION_MAX_PER_DISK)
    (apart : ∀ earlier ∈ candidates, overlap candidate.startLba candidate.blockCount
      earlier.startLba earlier.blockCount = false)
    (next : bound ≤ candidate.number) (positive : 0 < candidate.number)
    (later : candidate.number < bound') : WellRead bound' (candidates ++ [candidate]) := by
  refine ⟨?_, ?_, fun other member => ?_, fun other member => ?_, ?_⟩
  · refine List.pairwise_append.mpr ⟨read.apart, List.pairwise_singleton _ _, ?_⟩
    intro earlier member later here
    rw [List.mem_singleton.mp here]
    exact apart earlier member
  · refine List.pairwise_append.mpr ⟨read.growing, List.pairwise_singleton _ _, ?_⟩
    intro earlier member later here
    rw [List.mem_singleton.mp here]
    exact Nat.lt_of_lt_of_le (read.below earlier member) next
  · rcases List.mem_append.mp member with old | new
    · exact read.positive other old
    · rw [List.mem_singleton.mp new]
      exact positive
  · rcases List.mem_append.mp member with old | new
    · have below := read.below other old
      omega
    · rw [List.mem_singleton.mp new]
      exact later
  · rw [List.length_append, List.length_singleton]
    omega

/-! ### The GPT reader -/

theorem lastBlock_entry {firstLba lastLba : Nat} (inOrder : firstLba ≤ lastLba)
    (bounded : lastLba < 2 ^ 64) :
    lastBlock firstLba ((lastLba - firstLba + 1) % 2 ^ 64) = lastLba := by
  unfold lastBlock
  omega

theorem gptCandidates_wellRead (disk : Device) (header : GptHeader) :
    ∀ (left index currentSector : Nat) (entrySector : List UInt8) (crc : UInt32)
      (candidates : List Candidate), WellRead (index + 1) candidates →
      Yields (fun result => WellRead (index + left + 1) result.2)
        (gptCandidates disk header left index currentSector entrySector crc candidates) := by
  intro left
  induction left with
  | zero => exact fun _ _ _ _ _ read => yields_pure read
  | succ left ih =>
    intro index currentSector entrySector crc candidates read
    have onward : index + (left + 1) + 1 = index + 1 + left + 1 := by omega
    rw [gptCandidates, onward]
    refine yields_bind fun entrySector => ?_
    refine yields_guard fun _ => ?_
    dsimp only
    split
    · exact ih _ _ _ _ _ (read.mono (Nat.le_succ _))
    · refine yields_guard fun inOrder => yields_guard fun clear => ih _ _ _ _ _ ?_
      obtain ⟨room, -, -, ordered⟩ :
          ¬candidates.length ≥ PARTITION_MAX_PER_DISK ∧ _ ∧ _ ∧ _ := by
        simpa only [not_or] using inOrder
      have last := getLE_bound entrySector
        (index * header.entrySize % disk.logicalBlockSize + 40) 8
      refine read.add room (fun earlier member => ?_) (Nat.le_refl _) (Nat.succ_pos _)
        (Nat.lt_succ_self _)
      have away := List.any_eq_false.mp (Bool.eq_false_of_not_eq_true clear) earlier member
      rw [overlap, lastBlock_entry (Nat.le_of_not_lt ordered) last]
      exact Bool.eq_false_of_not_eq_true away

theorem gptTableAt_wellRead (disk : Device) (headerLba : Nat) :
    Yields (fun candidates => ∃ bound, WellRead bound candidates) (gptTableAt disk headerLba) := by
  rw [gptTableAt]
  refine yields_bind fun sector => ?_
  refine yields_bind_of (gptCandidates_wellRead disk _ _ _ _ _ _ _ (.nil _)) fun result read => ?_
  exact yields_guard fun _ => yields_pure ⟨_, read⟩

/-! ### The MBR reader -/

theorem mbrCandidateAdd_wellRead {candidates candidates' : List Candidate}
    {number type startLba blockCount deviceBlocks bound : Nat} (read : WellRead bound candidates)
    (next : bound ≤ number) (positive : 0 < number)
    (added : mbrCandidateAdd candidates number type startLba blockCount deviceBlocks =
      some candidates') : WellRead (number + 1) candidates' := by
  unfold mbrCandidateAdd at added
  split_ifs at added with refused overlapping
  cases added
  rw [Bool.not_eq_true, List.any_eq_false] at overlapping
  exact read.add (fun full => refused (.inl full))
    (fun earlier member => Bool.eq_false_of_not_eq_true (overlapping earlier member)) next positive
    (Nat.lt_succ_self _)

theorem mbrPrimaries_wellRead (disk : Device) (sector : List UInt8) :
    ∀ (indices : List Nat) (bound : Nat) (candidates : List Candidate) (extended : Nat × Nat)
      (result : List Candidate × Nat × Nat), indices.Pairwise (· < ·) →
      (∀ index ∈ indices, bound ≤ index + 1 ∧ index < 4) → bound ≤ 5 →
      WellRead bound candidates →
      mbrPrimaries disk sector indices candidates extended = some result →
      WellRead 5 result.1 := by
  intro indices
  induction indices with
  | nil =>
    intro bound candidates extended result _ _ small read found
    cases found
    exact read.mono small
  | cons index rest ih =>
    intro bound candidates extended result sorted above small read found
    obtain ⟨first, sorted⟩ := List.pairwise_cons.mp sorted
    have rest_above : ∀ other ∈ rest, bound ≤ other + 1 ∧ other < 4 :=
      fun other member => above other (List.mem_cons_of_mem _ member)
    obtain ⟨here, four⟩ := above index List.mem_cons_self
    rw [mbrPrimaries] at found
    split_ifs at found
    · exact ih _ _ _ _ sorted rest_above small read found
    · exact ih _ _ _ _ sorted rest_above small read found
    · split at found
      · cases found
      next candidates' added =>
        refine ih (index + 1 + 1) _ _ _ sorted (fun other member => ?_) (by omega)
          (mbrCandidateAdd_wellRead read here (Nat.succ_pos _) added) found
        have later := first other member
        exact ⟨by omega, (rest_above other member).2⟩

theorem mbrLogicals_wellRead (disk : Device) (base last : Nat) :
    ∀ (left ebrLba number : Nat) (visited : List Nat) (candidates : List Candidate),
      0 < number → WellRead number candidates →
      Yields (fun candidates => ∃ bound, WellRead bound candidates)
        (mbrLogicals disk base last left ebrLba number visited candidates) := by
  intro left
  induction left with
  | zero =>
    intro ebrLba number visited candidates positive read
    rw [mbrLogicals]
    split
    · exact yields_pure ⟨_, read⟩
    · exact yields_failure
  | succ left ih =>
    intro ebrLba number visited candidates positive read
    rw [mbrLogicals]
    split
    · exact yields_pure ⟨_, read⟩
    · refine yields_guard fun _ => yields_bind fun sector => yields_guard fun _ =>
        yields_guard fun _ => yields_guard fun _ => yields_guard fun _ =>
        yields_ofOption fun candidates' added => ?_
      have read' := mbrCandidateAdd_wellRead read (Nat.le_refl _) positive added
      split
      · exact yields_guard fun _ => yields_guard fun _ => ih _ _ _ _ (Nat.succ_pos _) read'
      · exact ih _ _ _ _ (Nat.succ_pos _) read'

theorem mbrTable_wellRead (disk : Device) (sector : List UInt8) :
    Yields (fun candidates => ∃ bound, WellRead bound candidates) (mbrTable disk sector) := by
  rw [mbrTable]
  refine yields_ofOption fun result found => ?_
  have read := mbrPrimaries_wellRead disk sector [0, 1, 2, 3] 1 [] (0, 0) result (by decide)
    (by decide) (by decide) (.nil _) found
  dsimp only
  split
  · exact yields_pure ⟨_, read⟩
  · exact yields_guard fun _ => mbrLogicals_wellRead disk _ _ _ _ _ _ _ (by decide) read

end AsasOs.Partition
