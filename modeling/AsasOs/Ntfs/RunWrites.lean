import AsasOs.Ntfs.Device

/-!
# NTFS: writing through runs

`write_to_runs` and `write_to_runs_at` write a buffer to the runs of a stream, a sector or a part of one at a time.
Sectors that are written in part are read before. The first function does not look at the mark of sparse runs, and
where two offsets of the stream are the same place on the disk, the later one is left there.

## Model

- The device answers every read and every write by the next of a list of answers, whatever they are.
- The loops have fuel; `none` is what they are without it.

## Main results

- `writeToRuns_eq`: the first function is the second one from offset 0 on, with runs that are not sparse.
- `runs_written`: both end, and what they leave on the disk.
-/
namespace AsasOs.Ntfs.RunWrite

open Bytes Extents

/-! ### The device -/

/-- How a request ends. A write that fails may have reached the disk. -/
inductive Answer where
  | done
  | refused
  | torn
  deriving DecidableEq, Repr

structure RunIo where
  sectors : Nat → Memory
  answers : List Answer
  /-- What the buffer on the stack holds before it is used. -/
  stack : Memory

namespace RunIo

def answer (io : RunIo) : Answer := io.answers.headD .done

def next (io : RunIo) : RunIo := { io with answers := io.answers.tail }

/-- The byte at an address, which is a sector and a place in it. -/
def bytes (io : RunIo) (address : Nat × Nat) : UInt8 := io.sectors address.1 address.2

end RunIo

def ntfsReadSector (lba : Nat) (io : RunIo) : Option Memory × RunIo :=
  (if io.answer = .done then some (io.sectors lba) else none, io.next)

/-- `ntfs_write_sector`; what keeps it from taking the snapshot is a refusal. -/
def ntfsWriteSector (context : NtfsContext) (lba : Nat) (sector : Memory) (io : RunIo) : Bool × RunIo :=
  (io.answer = .done,
    if io.answer = .refused then io.next
    else
      { io.next with
        sectors := Function.update io.sectors lba fun k =>
          if k < context.bytesPerSector then sector k else io.sectors lba k })

def ntfsTransactionBarrier (io : RunIo) : Bool × RunIo := (io.answer = .done, io.next)

/-! ### The code -/

variable (context : NtfsContext) (source : Memory) (size : Nat)

/-- `run_bytes`. -/
def runBytes (run : NtfsRun) : Nat := run.len * context.bytesPerCluster % 2 ^ 64

/-- What a round of either loop does with a chunk: read the sector if it is written in part, put the bytes of the
buffer into it, and write it. -/
def writeChunk (run : NtfsRun) (runOffset chunk written : Nat) (io : RunIo) : Bool × RunIo :=
  let lba := (run.lcn * context.sectorsPerCluster + runOffset / context.bytesPerSector) % 2 ^ 64
  let sectorOffset := runOffset % context.bytesPerSector
  let (sector, io) := if sectorOffset ≠ 0 ∨ chunk ≠ context.bytesPerSector then ntfsReadSector lba io
    else (some io.stack, io)
  match sector with
  | none => (false, io)
  | some sector => ntfsWriteSector context lba (patch sector sectorOffset (window source written chunk)) io

/-- The loop of `write_to_runs` over the sectors of a run. -/
def writeSectors (run : NtfsRun) : Nat → Nat → Nat → RunIo → Option (Bool × Nat × RunIo)
  | 0, _, _, _ => none
  | fuel + 1, runOffset, written, io =>
    if runOffset < runBytes context run ∧ written < size then
      let sectorOffset := runOffset % context.bytesPerSector
      let chunk := (size - written) % 2 ^ 32
      let chunk := if chunk > context.bytesPerSector - sectorOffset then context.bytesPerSector - sectorOffset else chunk
      match writeChunk context source run runOffset chunk written io with
      | (false, io) => some (false, written, io)
      | (true, io) => writeSectors run fuel (runOffset + chunk) (written + chunk) io
    else some (true, written, io)

/-- The loop of `write_to_runs` over the runs. -/
def writeRuns (fuel : Nat) : List NtfsRun → Nat → RunIo → Option (Bool × Nat × RunIo)
  | [], written, io => some (true, written, io)
  | run :: runs, written, io =>
    if written < size then
      match writeSectors context source size run fuel 0 written io with
      | some (true, written, io) => writeRuns fuel runs written io
      | stopped => stopped
    else some (true, written, io)

def writeToRuns (runs : List NtfsRun) (allocatedSize fuel : Nat) (io : RunIo) : Option (Bool × RunIo) :=
  if size > allocatedSize then some (false, io)
  else
    (writeRuns context source size fuel runs 0 io).map fun (ok, written, io) =>
      if ok = false ∨ written ≠ size then (false, io) else ntfsTransactionBarrier io

/-- The loop of `write_to_runs_at` over the sectors of a run. -/
def writeSectorsAt (run : NtfsRun) : Nat → Nat → Nat → RunIo → Option (Bool × Nat × RunIo)
  | 0, _, _, _ => none
  | fuel + 1, runOffset, written, io =>
    if runOffset < runBytes context run ∧ written < size then
      if run.sparse then some (false, written, io)
      else
        let sectorOffset := runOffset % context.bytesPerSector
        let chunk := (size - written) % 2 ^ 32
        let chunk := if chunk > context.bytesPerSector - sectorOffset then context.bytesPerSector - sectorOffset
          else chunk
        let chunk := if chunk > runBytes context run - runOffset then (runBytes context run - runOffset) % 2 ^ 32
          else chunk
        match writeChunk context source run runOffset chunk written io with
        | (false, io) => some (false, written, io)
        | (true, io) => writeSectorsAt run fuel (runOffset + chunk) (written + chunk) io
    else some (true, written, io)

/-- The loop of `write_to_runs_at` over the runs. -/
def writeRunsAt (fuel : Nat) : List NtfsRun → Nat → Nat → RunIo → Option (Bool × Nat × RunIo)
  | [], _, written, io => some (true, written, io)
  | run :: runs, skipped, written, io =>
    if written < size then
      if skipped ≥ runBytes context run then writeRunsAt fuel runs (skipped - runBytes context run) written io
      else
        match writeSectorsAt context source size run fuel skipped written io with
        | some (true, written, io) => writeRunsAt fuel runs 0 written io
        | stopped => stopped
    else some (true, written, io)

def writeToRunsAt (runs : List NtfsRun) (allocatedSize fileOffset fuel : Nat) (io : RunIo) :
    Option (Bool × RunIo) :=
  if fileOffset > allocatedSize ∨ size > allocatedSize - fileOffset then some (false, io)
  else
    (writeRunsAt context source size fuel runs fileOffset 0 io).map fun (ok, written, io) =>
      (ok && written == size, io)

/-! ### Where the bytes belong -/

/-- The address of an offset of a stream. It has none in a sparse run. -/
def placeOf (runs : List NtfsRun) (offset : Nat) : Option (Nat × Nat) :=
  (locate (runs.map fun run => ⟨runBytes context run, runAddress context run⟩) offset).join

/-- The runs, all of them stored. -/
def solid (runs : List NtfsRun) : List NtfsRun := runs.map fun run => { run with sparse := false }

/-- What a write to the runs does: when it succeeds, the bytes are in their places, and in any case nothing is
changed elsewhere. -/
structure WroteRuns (runs : List NtfsRun) (fileOffset : Nat) (io io' : RunIo) (ok : Bool) : Prop where
  landed : ok = true → Landed (fun i => placeOf context runs (fileOffset + i)) source 0 size io.bytes io'.bytes
  kept : Kept (fun i => placeOf context runs (fileOffset + i)) 0 size io.bytes io'.bytes

/-! ### A chunk -/

section Chunks

variable {context source size} {run : NtfsRun} {runOffset chunk written fuel : Nat} {io : RunIo}

theorem runBytes_whole : context.bytesPerSector ∣ runBytes context run := by
  have divides : context.bytesPerSector ∣ 2 ^ 64 := by
    have accepted := context.accepted
    simp only [Geometry.accepted, Bool.and_eq_true, Bool.or_eq_true, beq_iff_eq] at accepted
    rcases accepted.1.1.1.1.1.1 with ((size | size) | size) | size <;> rw [size] <;> decide
  rw [runBytes, Geometry.bytesPerCluster, Nat.mul_left_comm]
  exact (Nat.dvd_mod_iff divides).mpr (Nat.dvd_mul_right _ _)

theorem sector_inside (inside : runOffset < runBytes context run) :
    context.bytesPerSector - runOffset % context.bytesPerSector ≤ runBytes context run - runOffset := by
  obtain ⟨sectors, whole⟩ := @runBytes_whole context run
  have parts := Nat.div_add_mod runOffset context.bytesPerSector
  have positive := context.sector_pos
  have index : runOffset / context.bytesPerSector < sectors :=
    Nat.div_lt_of_lt_mul (whole ▸ inside)
  have room := Nat.mul_le_mul_left context.bytesPerSector (Nat.succ_le_of_lt index)
  rw [Nat.mul_succ, ← whole] at room
  omega

theorem runAddress_chunk (stored : run.sparse = false) {k : Nat}
    (inside : runOffset % context.bytesPerSector + k < context.bytesPerSector) :
    runAddress context run (runOffset + k) =
      some ((run.lcn * context.sectorsPerCluster + runOffset / context.bytesPerSector) % 2 ^ 64,
        runOffset % context.bytesPerSector + k) := by
  have parts := Nat.div_add_mod runOffset context.bytesPerSector
  have positive := context.sector_pos
  have place : runOffset + k = runOffset % context.bytesPerSector + k +
      context.bytesPerSector * (runOffset / context.bytesPerSector) := by omega
  rw [runAddress, stored, if_neg Bool.false_ne_true, place, Nat.add_mul_div_left _ _ (by omega),
    Nat.div_eq_of_lt inside, Nat.zero_add, Nat.add_mul_mod_self_left, Nat.mod_eq_of_lt inside]

theorem ntfsWriteSector_bytes (lba : Nat) (sector : Memory) (address : Nat × Nat) :
    (ntfsWriteSector context lba sector io).2.bytes address =
      if io.answer ≠ .refused ∧ address.1 = lba ∧ address.2 < context.bytesPerSector then sector address.2
      else io.bytes address := by
  unfold ntfsWriteSector RunIo.bytes
  by_cases refused : io.answer = .refused
  · rw [if_pos refused, if_neg fun both => both.1 refused, RunIo.next]
  · rw [if_neg refused]
    by_cases here : address.1 = lba
    · simp only [here, Function.update_self, true_and, refused, ne_eq, not_false_eq_true]
    · rw [if_neg fun both => here both.2.1]
      simp only [Function.update_of_ne here]

theorem writeChunk_wrote {place : Nat → Option (Nat × Nat)} (stored : run.sparse = false)
    (inside : runOffset % context.bytesPerSector + chunk ≤ context.bytesPerSector)
    (places : ∀ k < chunk, place (written + k) = runAddress context run (runOffset + k)) :
    ((writeChunk context source run runOffset chunk written io).1 = true →
      Landed place source written (written + chunk) io.bytes
        (writeChunk context source run runOffset chunk written io).2.bytes) ∧
      Kept place written (written + chunk) io.bytes
        (writeChunk context source run runOffset chunk written io).2.bytes := by
  have addresses : ∀ k < chunk, place (written + k) =
      some ((run.lcn * context.sectorsPerCluster + runOffset / context.bytesPerSector) % 2 ^ 64,
        runOffset % context.bytesPerSector + k) := fun k below => by
    rw [places k below, runAddress_chunk stored (by omega)]
  unfold writeChunk
  dsimp only
  generalize (run.lcn * context.sectorsPerCluster + runOffset / context.bytesPerSector) % 2 ^ 64 = lba at addresses ⊢
  generalize runOffset % context.bytesPerSector = start at addresses inside ⊢
  -- What is written of the sector besides the chunk is what is there.
  have wrote : ∀ (sector : Memory) (io₁ : RunIo), io₁.sectors = io.sectors →
      (∀ k < context.bytesPerSector, k < start ∨ start + chunk ≤ k → sector k = io.sectors lba k) →
      ((ntfsWriteSector context lba (patch sector start (window source written chunk)) io₁).1 = true →
        Landed place source written (written + chunk) io.bytes
          (ntfsWriteSector context lba (patch sector start (window source written chunk)) io₁).2.bytes) ∧
      Kept place written (written + chunk) io.bytes
        (ntfsWriteSector context lba (patch sector start (window source written chunk)) io₁).2.bytes := by
    intro sector io₁ same around
    have kept : Kept place written (written + chunk) io.bytes
        (ntfsWriteSector context lba (patch sector start (window source written chunk)) io₁).2.bytes := by
      rintro ⟨other, k⟩ apart
      rw [ntfsWriteSector_bytes, RunIo.bytes, RunIo.bytes, same]
      split_ifs with written_
      · obtain ⟨-, rfl, below⟩ := written_
        rw [patch, window_length, if_neg, around k below]
        · by_contra within
          have here := addresses (k - start) (by omega)
          rw [Nat.add_sub_cancel' (by omega)] at here
          exact apart _ (Nat.le_add_right _ _) (by omega) here
        · rintro ⟨low, high⟩
          have here := addresses (k - start) (by omega)
          rw [Nat.add_sub_cancel' low] at here
          exact apart _ (Nat.le_add_right _ _) (by omega) here
      · rfl
    refine ⟨fun done => ⟨fun i low high => ?_, fun i a low high here _ => ?_, kept⟩, kept⟩
    · obtain ⟨k, rfl⟩ := Nat.exists_eq_add_of_le low
      rw [addresses k (by omega)]
      rfl
    · obtain ⟨k, rfl⟩ := Nat.exists_eq_add_of_le low
      have answered : io₁.answer = .done := of_decide_eq_true done
      rw [addresses k (by omega)] at here
      cases here
      rw [ntfsWriteSector_bytes, if_pos ⟨by rw [answered]; decide, rfl, by omega⟩, patch, window_length,
        if_pos ⟨Nat.le_add_right _ _, by omega⟩, Nat.add_sub_cancel_left, byteAt_window (by omega)]
  by_cases part : start ≠ 0 ∨ chunk ≠ context.bytesPerSector
  · rw [if_pos part, ntfsReadSector]
    by_cases done : io.answer = .done
    · simp only [if_pos done]
      exact wrote _ io.next rfl fun _ _ _ => rfl
    · simp only [if_neg done]
      exact ⟨by rintro ⟨⟩, .refl⟩
  · rw [if_neg part]
    exact wrote _ io rfl fun k below around => by omega

end Chunks

/-! ### The loops -/

section Loops

variable {context source size} {run : NtfsRun} {runs : List NtfsRun} {place : Nat → Option (Nat × Nat)}

/-- What a loop has done that has written `written` bytes before. -/
structure LoopWrote (place : Nat → Option (Nat × Nat)) (source : Memory) (size written : Nat) (io : RunIo)
    (ok : Bool) (written' : Nat) (io' : RunIo) : Prop where
  more : ok = true → written ≤ written' ∧ written' ≤ size
  landed : ok = true → Landed place source written written' io.bytes io'.bytes
  kept : Kept place written size io.bytes io'.bytes

theorem LoopWrote.refl {written : Nat} {io : RunIo} (few : written ≤ size) (ok : Bool) :
    LoopWrote place source size written io ok written io :=
  ⟨fun _ => ⟨Nat.le_refl _, few⟩, fun _ => .refl, .refl⟩

theorem LoopWrote.trans {written written' written'' : Nat} {io io' io'' : RunIo} {ok : Bool}
    (first : LoopWrote place source size written io true written' io')
    (second : LoopWrote place source size written' io' ok written'' io'') :
    LoopWrote place source size written io ok written'' io'' := by
  obtain ⟨low, high⟩ := first.more rfl
  refine ⟨fun done => ?_, fun done => (first.landed rfl).trans low (second.landed done) (second.more done).1,
    ((first.landed rfl).kept).trans low second.kept high⟩
  obtain ⟨low', high'⟩ := second.more done
  exact ⟨low.trans low', high'⟩

theorem chunk_bounds {runOffset written : Nat} (small : size < 2 ^ 32)
    (inside : runOffset < runBytes context run)
    (left : written < size) :
    ∃ chunk, (if (size - written) % 2 ^ 32 > context.bytesPerSector - runOffset % context.bytesPerSector then
        context.bytesPerSector - runOffset % context.bytesPerSector else (size - written) % 2 ^ 32) = chunk ∧
      0 < chunk ∧ written + chunk ≤ size ∧ runOffset % context.bytesPerSector + chunk ≤
      context.bytesPerSector ∧
      runOffset + chunk ≤ runBytes context run := by
  have room := sector_inside inside
  have positive := context.sector_pos
  have within := Nat.mod_lt runOffset (by omega : 0 < context.bytesPerSector)
  rw [Nat.mod_eq_of_lt (by omega : size - written < 2 ^ 32)]
  refine ⟨_, rfl, ?_⟩
  split <;> omega

theorem writeSectorsAt_wrote (small : size < 2 ^ 32) (fuel : Nat) {runOffset written : Nat} {io : RunIo}
    (few : written ≤ size) (inRun : runOffset ≤ runBytes context run) (enough : size - written < fuel)
    (places : ∀ k, runOffset + k < runBytes context run → written + k < size →
      place (written + k) = runAddress context run (runOffset + k)) :
    ∃ ok written' io', writeSectorsAt context source size run fuel runOffset written io =
    some (ok, written', io') ∧
      LoopWrote place source size written io ok written' io' ∧
      (ok = true → written' = min size (written + (runBytes context run - runOffset))) := by
  induction fuel generalizing runOffset written io with
  | zero => omega
  | succ fuel ih =>
    rw [writeSectorsAt]
    by_cases more : runOffset < runBytes context run ∧ written < size
    · obtain ⟨inside, left⟩ := more
      rw [if_pos ⟨inside, left⟩]
      cases stored : run.sparse with
      | true => exact ⟨false, _, _, rfl, .refl few _, nofun⟩
      | false =>
        obtain ⟨chunk, same, some_, fits, inSector, inRun'⟩ := chunk_bounds small inside left
        dsimp only
        rw [same, if_neg Bool.false_ne_true, if_neg (by omega)]
        obtain ⟨landed, kept⟩ := @writeChunk_wrote context source run runOffset chunk written io place stored inSector
          fun k below => places k (by omega) (by omega)
        generalize writeChunk context source run runOffset chunk written io = outcome at landed kept ⊢
        obtain ⟨_ | _, io₁⟩ := outcome
        · exact ⟨false, _, _, rfl, ⟨nofun, nofun, kept.mono fits⟩, nofun⟩
        · obtain ⟨ok, written', io', ran, wrote, count⟩ := @ih (runOffset + chunk) (written + chunk) io₁ fits inRun'
            (by omega) fun k inRun left => by
              rw [Nat.add_assoc, Nat.add_assoc]
              exact places (chunk + k) (by omega) (by omega)
          refine ⟨ok, written', io', ran, .trans ⟨fun _ => ⟨Nat.le_add_right _ _, fits⟩, fun _ => landed rfl,
            kept.mono fits⟩ wrote, fun done => ?_⟩
          rw [count done]
          omega
    · rw [if_neg more]
      exact ⟨true, _, _, rfl, .refl few _, fun _ => by omega⟩

theorem placeOf_here {skipped k : Nat} (inside : skipped + k < runBytes context run) :
    placeOf context (run :: runs) (skipped + k) = runAddress context run (skipped + k) := by
  rw [placeOf, List.map_cons, locate_here inside]
  rfl

theorem placeOf_later {skipped : Nat} (behind : runBytes context run ≤ skipped) :
    placeOf context (run :: runs) skipped = placeOf context runs (skipped - runBytes context run) := by
  rw [placeOf, List.map_cons, locate, if_neg (by exact Nat.not_lt.mpr behind), placeOf]

theorem writeRunsAt_wrote (small : size < 2 ^ 32) {fuel : Nat} (enough : size < fuel)
    {skipped written : Nat}
    {io : RunIo} (few : written ≤ size)
    (places : ∀ k, written + k < size → place (written + k) = placeOf context runs (skipped + k)) :
    ∃ ok written' io', writeRunsAt context source size fuel runs skipped written io =
    some (ok, written', io') ∧
      LoopWrote place source size written io ok written' io' := by
  induction runs generalizing skipped written io with
  | nil => exact ⟨true, _, _, rfl, .refl few _⟩
  | cons run runs ih =>
    rw [writeRunsAt]
    by_cases left : written < size
    · rw [if_pos left]
      by_cases behind : skipped ≥ runBytes context run
      · rw [if_pos behind]
        refine ih few fun k inside => ?_
        rw [places k inside, placeOf_later (by omega), Nat.sub_add_comm behind]
      · rw [if_neg behind]
        obtain ⟨ok, written', io', ran, wrote, count⟩ := @writeSectorsAt_wrote context source size run place small fuel
          skipped written io few (by omega) (by omega)
          fun k inRun inside => (places k inside).trans (placeOf_here inRun)
        rw [ran]
        cases ok with
        | false => exact ⟨false, _, _, rfl, wrote⟩
        | true =>
          obtain ⟨low, high⟩ := wrote.more rfl
          obtain ⟨ok, written'', io'', ran', wrote'⟩ := @ih 0 written' io' high fun k inside => by
            -- The run has been written to its end, as there is more to write.
            have full := count rfl
            have after := places (written' - written + k) (by omega)
            rw [← Nat.add_assoc, Nat.add_sub_cancel' low] at after
            rw [after, placeOf_later (by omega)]
            congr 1
            omega
          exact ⟨ok, written'', io'', ran', wrote.trans wrote'⟩
    · rw [if_neg left]
      exact ⟨true, _, _, rfl, .refl few _⟩

theorem writeSectors_eq (run : NtfsRun) (fuel : Nat) {runOffset written : Nat} {io : RunIo} :
    writeSectors context source size run fuel runOffset written io =
      writeSectorsAt context source size { run with sparse := false } fuel runOffset written io := by
  induction fuel generalizing runOffset written io with
  | zero => rfl
  | succ fuel ih =>
    rw [writeSectors, writeSectorsAt]
    by_cases more : runOffset < runBytes context run ∧ written < size
    · have room := sector_inside more.1
      have same : runBytes context { run with sparse := false } = runBytes context run := rfl
      rw [if_pos more, same, if_pos more, if_neg Bool.false_ne_true]
      dsimp only
      have whole : (if (size - written) % 2 ^ 32 > context.bytesPerSector - runOffset % context.bytesPerSector then
          context.bytesPerSector - runOffset % context.bytesPerSector else (size - written) % 2 ^ 32) ≤
          runBytes context run - runOffset := by
        split <;> omega
      rw [if_neg (Nat.not_lt.mpr whole)]
      simp only [ih]
      rfl
    · rw [if_neg more]
      exact (if_neg more).symm

theorem writeRuns_eq (runs : List NtfsRun) {fuel : Nat} (some_ : 0 < fuel) {written : Nat} {io : RunIo} :
    writeRuns context source size fuel runs written io =
      writeRunsAt context source size fuel (solid runs) 0 written io := by
  induction runs generalizing written io with
  | nil => rfl
  | cons run runs ih =>
    rw [writeRuns, solid, List.map_cons, writeRunsAt, ← solid, writeSectors_eq]
    simp only [ih]
    by_cases left : written < size
    · rw [if_pos left, if_pos left]
      by_cases empty : runBytes context { run with sparse := false } = 0
      · obtain ⟨fuel, rfl⟩ := Nat.exists_eq_add_of_le' some_
        rw [if_pos (Nat.le_of_eq empty), writeSectorsAt, if_neg (by rw [empty]; omega), Nat.zero_sub]
      · rw [if_neg (by omega)]
    · rw [if_neg left, if_neg left]

/-- `write_to_runs` is `write_to_runs_at` from offset 0 on, with the sparse marks left out, and a barrier. -/
theorem writeToRuns_eq {allocatedSize fuel : Nat} {io : RunIo} (some_ : 0 < fuel) :
    writeToRuns context source size runs allocatedSize fuel io =
      (writeToRunsAt context source size (solid runs) allocatedSize 0 fuel io).map fun (ok, io) =>
        if ok then ntfsTransactionBarrier io else (false, io) := by
  unfold writeToRuns writeToRunsAt
  by_cases large : size > allocatedSize
  · rw [if_pos large, if_pos (.inr large)]
    rfl
  · rw [if_neg large, if_neg (by omega), writeRuns_eq runs some_, Option.map_map]
    congr 1
    funext ⟨ok, written, io⟩
    cases ok <;> by_cases full : written = size <;> simp [full]

end Loops

/-! ### What is written -/

variable {context source size}

theorem writeToRunsAt_wrote (small : size < 2 ^ 32) (runs : List NtfsRun)
    (allocatedSize fileOffset : Nat) {fuel : Nat}
    (enough : size < fuel) (io : RunIo) :
    ∃ ok io', writeToRunsAt context source size runs allocatedSize fileOffset fuel io = some (ok, io') ∧
      WroteRuns context source size runs fileOffset io io' ok := by
  unfold writeToRunsAt
  split
  next outside => exact ⟨false, io, rfl, nofun, .refl⟩
  next inside =>
    obtain ⟨ok, written, io', ran, wrote⟩ := @writeRunsAt_wrote context source size runs
      (fun i => placeOf context runs (fileOffset + i)) small fuel enough fileOffset 0 io (Nat.zero_le _)
      fun k _ => by rw [Nat.zero_add]
    rw [ran]
    refine ⟨_, io', rfl, fun done => ?_, wrote.kept⟩
    obtain ⟨done, full⟩ := Bool.and_eq_true_iff.mp done
    exact beq_iff_eq.mp full ▸ wrote.landed done

/-- **Writes through runs.** Both functions end. When they succeed, each byte of the buffer is in its place in the
runs, or a later one that has the same place. Whether they succeed or not, nothing is changed in other places. -/
theorem runs_written (small : size < 2 ^ 32) (runs : List NtfsRun) (allocatedSize : Nat) {fuel : Nat}
    (enough : size < fuel) (io : RunIo) :
    (∃ ok io', writeToRuns context source size runs allocatedSize fuel io = some (ok, io') ∧
      WroteRuns context source size (solid runs) 0 io io' ok) ∧
    ∀ fileOffset, ∃ ok io',
      writeToRunsAt context source size runs allocatedSize fileOffset fuel io = some (ok, io') ∧
        WroteRuns context source size runs fileOffset io io' ok := by
  refine ⟨?_, fun fileOffset => writeToRunsAt_wrote small runs allocatedSize fileOffset enough io⟩
  obtain ⟨ok, io', ran, wrote⟩ :=
    @writeToRunsAt_wrote context source size small (solid runs) allocatedSize 0 fuel enough io
  rw [writeToRuns_eq (by omega), ran]
  cases ok with
  | false => exact ⟨false, io', rfl, wrote⟩
  | true => exact ⟨_, _, rfl, fun _ => wrote.landed rfl, wrote.kept⟩

/-- An empty disk on which every request succeeds. -/
def emptyIo : RunIo := ⟨fun _ _ => 0, [], fun _ => 0⟩

theorem runs_written_small :
    (∃ ok io', writeToRuns smallVolume.toNtfsContext UInt8.ofNat 256 [⟨10, 1, false⟩] 4096 257 emptyIo =
        some (ok, io') ∧
      WroteRuns smallVolume.toNtfsContext UInt8.ofNat 256 (solid [⟨10, 1, false⟩]) 0 emptyIo io' ok) ∧
    ∀ fileOffset, ∃ ok io', writeToRunsAt smallVolume.toNtfsContext UInt8.ofNat 256 [⟨10, 1, false⟩] 4096 fileOffset
        257 emptyIo = some (ok, io') ∧
      WroteRuns smallVolume.toNtfsContext UInt8.ofNat 256 [⟨10, 1, false⟩] fileOffset emptyIo io' ok :=
  runs_written (by decide) _ _ (by decide) _

/-- Where two runs are the same cluster, the first byte of the buffer is overwritten. -/
theorem runs_overlap : placeOf smallVolume.toNtfsContext [⟨10, 1, false⟩, ⟨10, 1, false⟩] 0 =
    some (80, 0) ∧
      (writeToRunsAt smallVolume.toNtfsContext (fun i => if i < 4096 then 0 else 1) 8192
          [⟨10, 1, false⟩, ⟨10, 1, false⟩] 8192 0 8193 emptyIo).map
        (fun result => (result.1, result.2.bytes (80, 0))) = some (true, 1) := by
  decide +kernel

end AsasOs.Ntfs.RunWrite
