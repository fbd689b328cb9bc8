import AsasOs.Lib.Extents
import AsasOs.Ntfs.FileRecords
import AsasOs.Ntfs.Interface

/-!
# NTFS: reading through runs

The bytes of a stream lie in runs of clusters, or in holes. They are read sector by
sector: the part of a sector that lies in the run and is still wanted.

## Model

- A disk gives a byte at every address, and says which sectors can be read.
- The buffer that is read into is the list of the bytes read; its length is the result.

## Main results

- `readFromRuns_fetched`: what is read is what the runs say, up to the first byte that cannot be read.
-/
namespace AsasOs.Ntfs

open Bytes Extents

/-! ### The code -/

structure NtfsDisk where
  content : Nat → UInt8
  readable : Nat → Bool

/-- `ntfs_read_sector` into a buffer. -/
def ntfsReadSector (context : NtfsContext) (disk : NtfsDisk) (lba : Nat) : Option Memory :=
  if disk.readable lba then some (rest disk.content (lba * context.bytesPerSector)) else none

/-- The loop of `read_from_runs` over the sectors of a run, and whether all of them could be read. -/
def readSectors (context : NtfsContext) (disk : NtfsDisk) (run : NtfsRun) :
    Nat → Nat → Nat → List UInt8 → Bool × List UInt8
  | 0, _, _, out => (true, out)
  | steps + 1, byteIn, toRead, out =>
    if 0 < toRead then
      let sectorOffset := byteIn % context.bytesPerSector
      let lba := (run.lcn * context.sectorsPerCluster + byteIn / context.bytesPerSector) % 2 ^ 64
      let available := context.bytesPerSector - sectorOffset
      let chunk := if toRead < available then toRead else available
      if run.sparse then
        readSectors context disk run steps (byteIn + chunk) (toRead - chunk) (out ++ List.replicate chunk 0)
      else
        match ntfsReadSector context disk lba with
        | none => (false, out)
        | some sector =>
          readSectors context disk run steps (byteIn + chunk) (toRead - chunk) (out ++ window sector sectorOffset chunk)
    else (true, out)

/-- The loop of `read_from_runs` over the runs. -/
def readRuns (context : NtfsContext) (disk : NtfsDisk) (n : Nat) : List NtfsRun → Nat → List UInt8 →
    List UInt8
  | [], _, out => out
  | run :: runs, vcnByte, out =>
    if out.length < n then
      let runBytes := run.len * context.bytesPerCluster % 2 ^ 64
      if vcnByte ≥ runBytes then readRuns context disk n runs (vcnByte - runBytes) out
      else
        let toRead := runBytes - vcnByte
        let toRead := if toRead > n - out.length then n - out.length else toRead
        match readSectors context disk run toRead vcnByte toRead out with
        | (false, out) => out
        | (true, out) => readRuns context disk n runs 0 out
    else out

def readFromRuns (context : NtfsContext) (disk : NtfsDisk) (runs : List NtfsRun)
    (dataSize fileOffset n : Nat) :
    List UInt8 :=
  if fileOffset ≥ dataSize then []
  else
    let n := if n > dataSize - fileOffset then dataSize - fileOffset else n
    readRuns context disk n runs fileOffset []

/-! ### What the runs say -/

/-- The address of a byte of a run: its sector, and its place in that. A hole has none. -/
def runAddress (context : NtfsContext) (run : NtfsRun) (offset : Nat) : Option (Nat × Nat) :=
  if run.sparse then none
  else
    some ((run.lcn * context.sectorsPerCluster + offset / context.bytesPerSector) % 2 ^ 64,
      offset % context.bytesPerSector)

def pieces (context : NtfsContext) (runs : List NtfsRun) : List (Piece (Option (Nat × Nat))) :=
  runs.map fun run => ⟨run.len * context.bytesPerCluster, runAddress context run⟩

/-- The byte at an address, if its sector can be read. -/
def readAddress (context : NtfsContext) (disk : NtfsDisk) : Option (Nat × Nat) → Option UInt8
  | none => some 0
  | some (lba, offset) =>
    if disk.readable lba then some (disk.content (lba * context.bytesPerSector + offset)) else none

/-- The byte at an offset of a stream: the byte stored in its run, or zero in a hole. -/
def storedByte (context : NtfsContext) (disk : NtfsDisk) (runs : List NtfsRun) (offset : Nat) :
    Option UInt8 :=
  (locate (pieces context runs) offset).bind (readAddress context disk)

def runByte (context : NtfsContext) (disk : NtfsDisk) (run : NtfsRun) (offset : Nat) : Option UInt8 :=
  readAddress context disk (runAddress context run offset)

/-- The runs cover a stream whose offsets are numbers of 64 bits. -/
def Bounded (context : NtfsContext) (runs : List NtfsRun) : Prop :=
  ∀ run ∈ runs, run.len * context.bytesPerCluster < 2 ^ 64

section Reading

variable {context : NtfsContext} {disk : NtfsDisk} {run : NtfsRun} {runs : List NtfsRun} {out : List UInt8}

theorem NtfsContext.sector_pos (context : NtfsContext) : 512 ≤ context.bytesPerSector := by
  have accepted := context.accepted
  simp only [Geometry.accepted, Bool.and_eq_true, Bool.or_eq_true, beq_iff_eq] at accepted
  omega

theorem storedByte_cons (offset : Nat) : storedByte context disk (run :: runs) offset =
      if offset < run.len * context.bytesPerCluster then runByte context disk run offset
      else storedByte context disk runs (offset - run.len * context.bytesPerCluster) := by
  unfold storedByte
  by_cases here : offset < run.len * context.bytesPerCluster
  · rw [if_pos here, pieces, List.map_cons, locate_here here]
    rfl
  · rw [if_neg here, pieces, List.map_cons, locate, if_neg here]
    rfl

theorem runByte_sector {byteIn k : Nat}
    (inside : byteIn % context.bytesPerSector + k < context.bytesPerSector) :
    runByte context disk run (byteIn + k) = if run.sparse then some 0 else (ntfsReadSector context disk
        ((run.lcn * context.sectorsPerCluster + byteIn / context.bytesPerSector) % 2 ^ 64)).map
          fun sector => sector (byteIn % context.bytesPerSector + k) := by
  have some := context.sector_pos
  have parts := Nat.div_add_mod byteIn context.bytesPerSector
  have place : byteIn + k = byteIn % context.bytesPerSector + k +
      context.bytesPerSector * (byteIn / context.bytesPerSector) := by omega
  have quotient : (byteIn + k) / context.bytesPerSector = byteIn / context.bytesPerSector := by
    rw [place, Nat.add_mul_div_left _ _ (by omega), Nat.div_eq_of_lt inside, Nat.zero_add]
  have remainder : (byteIn + k) % context.bytesPerSector = byteIn % context.bytesPerSector + k := by
    rw [place, Nat.add_mul_mod_self_left, Nat.mod_eq_of_lt inside]
  unfold runByte runAddress
  by_cases hole : run.sparse = true
  · rw [if_pos hole, if_pos hole, readAddress]
  · rw [if_neg hole, if_neg hole, quotient, remainder, readAddress, ntfsReadSector]
    split <;> rfl

theorem readSectors_fetched (steps : Nat) : ∀ byteIn toRead out, toRead ≤ steps →
    ∃ fetched, Fetched (fun i => runByte context disk run (byteIn + i)) toRead fetched ∧
      readSectors context disk run steps byteIn toRead out = (decide (fetched.length = toRead), out ++ fetched) := by
  induction steps with
  | zero =>
    intro byteIn toRead out few
    obtain rfl : toRead = 0 := by omega
    exact ⟨[], .nil (Or.inl rfl), by rw [List.append_nil]; rfl⟩
  | succ steps ih =>
    intro byteIn toRead out few
    rw [readSectors]
    split
    next more =>
      have sector := context.sector_pos
      have within := Nat.mod_lt byteIn (by omega : 0 < context.bytesPerSector)
      dsimp only
      generalize chunkDef : (if toRead < context.bytesPerSector - byteIn % context.bytesPerSector then toRead
        else context.bytesPerSector - byteIn % context.bytesPerSector) = chunk
      have some : 1 ≤ chunk ∧ chunk ≤ toRead ∧ byteIn % context.bytesPerSector + chunk ≤ context.bytesPerSector := by
        rw [← chunkDef]
        split <;> omega
      have bytes : ∀ k < chunk, _ := fun k below =>
        @runByte_sector context disk run byteIn k (by omega)
      -- One chunk, and what is read of the others.
      have go : ∀ part : List UInt8, part.length = chunk →
          (∀ k (h : k < part.length), runByte context disk run (byteIn + k) = Option.some part[k]) →
          ∃ fetched, Fetched (fun i => runByte context disk run (byteIn + i)) toRead fetched ∧
            readSectors context disk run steps (byteIn + chunk) (toRead - chunk) (out ++ part) =
              (decide (fetched.length = toRead), out ++ fetched) := by
        intro part length right
        obtain ⟨fetched, fetch, result⟩ := ih (byteIn + chunk) (toRead - chunk) (out ++ part) (by omega)
        refine ⟨part ++ fetched, ?_, ?_⟩
        · have whole : toRead = part.length + (toRead - chunk) := by omega
          rw [whole]
          refine Fetched.append ⟨Nat.le_refl _, right, Or.inl rfl⟩ ?_
          rw [length]
          simpa only [Nat.add_assoc] using fetch
        · rw [result, List.append_assoc, List.length_append, length]
          congr 2
          apply propext
          omega
      split
      next hole =>
        refine go _ (List.length_replicate ..) fun k below => ?_
        rw [List.length_replicate] at below
        rw [bytes k below, if_pos hole, List.getElem_replicate]
      next solid =>
        split
        next unread =>
          refine ⟨[], .nil (Or.inr ?_), ?_⟩
          · rw [bytes 0 (by omega), if_neg solid, unread]
            rfl
          · rw [List.append_nil]
            congr 1
            exact (decide_eq_false (by rw [List.length_nil]; omega)).symm
        next data read =>
          refine go _ (window_length ..) fun k below => ?_
          rw [window_length] at below
          rw [bytes k below, if_neg solid, read]
          simp [window]
    next done =>
      obtain rfl : toRead = 0 := by omega
      exact ⟨[], .nil (Or.inl rfl), by rw [List.append_nil]; rfl⟩

theorem readRuns_fetched {n : Nat} : ∀ vcnByte out, Bounded context runs → out.length ≤ n →
    ∃ fetched, Fetched (fun i => storedByte context disk runs (vcnByte + i)) (n - out.length) fetched ∧
      readRuns context disk n runs vcnByte out = out ++ fetched := by
  induction runs with
  | nil =>
    intro vcnByte out _ _
    exact ⟨[], .nil (Or.inr rfl), (List.append_nil out).symm⟩
  | cons run runs ih =>
    intro vcnByte out bounded few
    have bound := bounded run (List.mem_cons_self ..)
    have later : Bounded context runs := fun run member => bounded run (List.mem_cons_of_mem _ member)
    rw [readRuns]
    split
    next more =>
      dsimp only
      rw [Nat.mod_eq_of_lt bound]
      split
      next behind =>
        obtain ⟨fetched, fetch, result⟩ := ih (vcnByte - run.len * context.bytesPerCluster) out later few
        refine ⟨fetched, ?_, result⟩
        have same : (fun i => storedByte context disk (run :: runs) (vcnByte + i)) =
            fun i => storedByte context disk runs (vcnByte - run.len * context.bytesPerCluster + i) := by
          funext i
          rw [storedByte_cons, if_neg (by omega)]
          congr 1
          omega
        rw [same]
        exact fetch
      next inside =>
        generalize wantedDef : (if run.len * context.bytesPerCluster - vcnByte > n - out.length then n - out.length
          else run.len * context.bytesPerCluster - vcnByte) = wanted
        have within : wanted ≤ run.len * context.bytesPerCluster - vcnByte ∧ wanted ≤ n - out.length ∧
            (wanted = run.len * context.bytesPerCluster - vcnByte ∨ wanted = n - out.length) := by
          rw [← wantedDef]
          split <;> omega
        obtain ⟨front, fetch, result⟩ := @readSectors_fetched context disk run wanted vcnByte wanted out (Nat.le_refl _)
        -- In this run the stream is the run.
        have here : Fetched (fun i => storedByte context disk (run :: runs) (vcnByte + i)) wanted front := by
          refine fetch.congr fun i below => ?_
          rw [storedByte_cons, if_pos (by omega)]
        have few' := fetch.few
        rw [result]
        by_cases whole : front.length = wanted
        · rw [decide_eq_true whole]
          dsimp only
          obtain ⟨back, fetch, result⟩ := ih 0 (out ++ front) later (by rw [List.length_append]; omega)
          refine ⟨front ++ back, ?_, by rw [result, List.append_assoc]⟩
          have count : n - out.length = front.length + (n - (out ++ front).length) := by
            rw [List.length_append]
            omega
          rw [count]
          rw [← whole] at here
          refine here.append (fetch.congr fun i below => ?_)
          rw [List.length_append] at below
          rw [storedByte_cons, if_neg (by omega)]
          congr 1
          omega
        · rw [decide_eq_false whole]
          exact ⟨front, here.short (by omega) within.2.1, rfl⟩
    next full =>
      have none : n - out.length = 0 := by omega
      rw [none]
      exact ⟨[], .nil (Or.inl rfl), (List.append_nil out).symm⟩

/-- What is read is what the runs say, up to the first byte that cannot be read. -/
theorem readFromRuns_fetched {dataSize fileOffset n : Nat} (bounded : Bounded context runs) :
    Fetched (fun i => storedByte context disk runs (fileOffset + i)) (min n (dataSize - fileOffset))
      (readFromRuns context disk runs dataSize fileOffset n) := by
  unfold readFromRuns
  split
  next behind => exact .nil (Or.inl (by omega))
  next inside =>
    dsimp only
    have count : (if n > dataSize - fileOffset then dataSize - fileOffset else n) = min n (dataSize - fileOffset) := by
      split <;> omega
    rw [count]
    obtain ⟨fetched, fetch, result⟩ := @readRuns_fetched context disk runs _ fileOffset [] bounded (Nat.zero_le _)
    rw [result, List.nil_append]
    exact fetch

end Reading

end AsasOs.Ntfs
