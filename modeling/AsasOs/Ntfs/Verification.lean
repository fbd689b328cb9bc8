import AsasOs.Ntfs.RecordReads

/-!
# NTFS: verifying the allocation of a file

After a change the volume is mounted again, and the records and clusters of the file that
changed are looked up in the bitmaps. The value of a resident bitmap is not copied: it is
looked up in the buffer, where the records that are read meanwhile replace it.

## Main results

- `bits_steady`, `shown_steady`: bits that are not looked up in the buffer are those on the disk.
- `Verification.steady_of_runs`: bitmaps in runs are not looked up in the buffer.
- `verifyFileAllocation_iff`: when the verdict is the one that the bitmaps on the disk give.
-/
namespace AsasOs.Ntfs

open Bytes Attempts

/-! ### The code -/

def ntfsStreamBitIsSet (volume : NtfsVolume) (bitmap : AttributeStream) (bit : Nat)
    (m : NtfsMachine) : Bool :=
  let byte := bit >>> 3
  if byte ≥ bitmap.dataSize then false
  else if bitmap.resident then (m.mftBuf (bitmap.residentValue + byte)).toNat.testBit (bit &&& 7)
  else
    match readFromRuns volume.toNtfsContext m.disk bitmap.runs bitmap.dataSize byte 1 with
    | [value] => value.toNat.testBit (bit &&& 7)
    | _ => false

/-- `if (!ntfs_stream_bit_is_set(...)) goto done;` -/
def testBits (volume : NtfsVolume) (bitmap : AttributeStream) : List Nat → NtfsCode Unit
  | [] => pure ()
  | bit :: bits => do
    let m ← state
    check (ntfsStreamBitIsSet volume bitmap bit m = true)
    testBits volume bitmap bits

/-- The loop of `ntfs_collect_extension_records`. There is nothing if there is no room for a record. -/
def extensionOwners (list : List UInt8) (baseRecord type capacity : Nat) : Nat → Nat → List Nat →
    Option (List Nat)
  | 0, _, records => some records
  | steps + 1, offset, records =>
    if offset + 26 ≤ list.length then
      let entry := listEntryAt list offset
      if entry.length < 26 ∨ entry.length > list.length - offset then some records
      else if entry.type = type ∧ entry.owner ≠ baseRecord ∧ entry.owner ∉ records then
        if records.length ≥ capacity then none
        else
          extensionOwners list baseRecord type capacity steps (offset + entry.length) (records ++ [entry.owner])
      else extensionOwners list baseRecord type capacity steps (offset + entry.length) records
    else some records

def readWithList (volume : NtfsVolume) (baseRecord : Nat) : NtfsCode (Option (List UInt8)) := do
  readMftRecord volume baseRecord
  loadAttributeList volume

def ntfsCollectExtensionRecords (volume : NtfsVolume) (baseRecord type capacity : Nat) :
    NtfsCode (List Nat) :=
  (do
    let list ← readWithList volume baseRecord
    let list ← need list
    need (extensionOwners list baseRecord type capacity (list.length + 1) 0 [])) <|> pure []

/-- `base_record` -/
def baseReference (mft : Memory) : Nat := wordAt mft 32 8

/-- The loop of `ntfs_verify_file_allocation` over the extension records. -/
def verifyExtensions (volume : NtfsVolume) (mftBitmap : AttributeStream) (recordNumber : Nat) :
    List Nat → NtfsCode Unit
  | [] => pure ()
  | extension :: extensions => do
    testBits volume mftBitmap [extension]
    readMftRecord volume extension
    let mft ← mftBuffer
    check (baseReference mft % 2 ^ 48 = recordNumber)
    verifyExtensions volume mftBitmap recordNumber extensions

/-- The clusters of a file, in the order of its runs. -/
def fileClusters (runs : List NtfsRun) : List Nat :=
  runs.flatMap fun run => if run.sparse then [] else (List.range run.len).map fun cluster => (run.lcn + cluster) % 2 ^ 64

/-- `ntfs_verify_file_allocation` of the file to which the path resolves. -/
def ntfsVerifyFileAllocation (volume : NtfsVolume) (recordNumber : Nat) : NtfsCode Unit := do
  check (recordNumber ≠ 0)
  let data ← collectAttributeStream volume ⟨recordNumber, ATTR_DATA, true⟩
  let clusterBitmap ← collectAttributeStream volume ⟨6, ATTR_DATA, true⟩
  let mftBitmap ← collectAttributeStream volume ⟨0, ATTR_BITMAP, false⟩
  testBits volume mftBitmap [recordNumber]
  testBits volume clusterBitmap (fileClusters data.runs)
  let records ← ntfsCollectExtensionRecords volume recordNumber ATTR_DATA NTFS_MAX_STREAM_RUNS
  verifyExtensions volume mftBitmap recordNumber records

/-! ### The records of a file -/

def listEntries (list : List UInt8) : Nat → Nat → List ListEntry
  | 0, _ => []
  | steps + 1, offset =>
    if offset + 26 ≤ list.length then
      let entry := listEntryAt list offset
      if entry.length < 26 ∨ entry.length > list.length - offset then []
      else entry :: listEntries list steps (offset + entry.length)
    else []

/-- The records behind some others that entries of a type name, each once and without that of the file. -/
def namedRecords (baseRecord type : Nat) (records : List Nat) (entries : List ListEntry) : List Nat :=
  entries.foldl (fun records entry =>
    if entry.type = type ∧ entry.owner ≠ baseRecord ∧ entry.owner ∉ records then records ++ [entry.owner]
    else records) records

/-- The attribute list of a file names a record, other than that of the file, for its data. -/
def Extends (list : Option (List UInt8)) (recordNumber extension : Nat) : Prop :=
  ∃ bytes, list = some bytes ∧ ∃ entry ∈ listEntries bytes (bytes.length + 1) 0,
    entry.type = ATTR_DATA ∧ entry.owner = extension ∧ extension ≠ recordNumber

/-- The records that the code looks at. -/
def ownersSeen (list : Option (List UInt8)) (recordNumber : Nat) : List Nat :=
  (list.bind fun bytes =>
    extensionOwners bytes recordNumber ATTR_DATA NTFS_MAX_STREAM_RUNS (bytes.length + 1) 0 []).getD []

/-- The attribute list names no more extension records than there is room for. -/
def Few (list : Option (List UInt8)) (recordNumber : Nat) : Prop :=
  ∀ bytes, list = some bytes →
    (namedRecords recordNumber ATTR_DATA [] (listEntries bytes (bytes.length + 1) 0)).length ≤ NTFS_MAX_STREAM_RUNS

section Owners

variable {list : List UInt8} {baseRecord type capacity : Nat}

theorem extensionOwners_mem (steps : Nat) : ∀ offset records found,
    extensionOwners list baseRecord type capacity steps offset records = some found → ∀ extension,
      (extension ∈ found ↔ extension ∈ records ∨ ∃ entry ∈ listEntries list steps offset,
        entry.type = type ∧ entry.owner = extension ∧ extension ≠ baseRecord) := by
  induction steps with
  | zero =>
    rintro offset records found ⟨⟩ extension
    simp [listEntries]
  | succ steps ih =>
    intro offset records found done extension
    rw [extensionOwners] at done
    rw [listEntries]
    split at done
    next more =>
      rw [if_pos more]
      dsimp only at done ⊢
      split at done
      next broken =>
        cases done
        simp [broken]
      next whole =>
        rw [if_neg whole]
        simp only [List.mem_cons, exists_eq_or_imp]
        split at done
        next fresh =>
          split at done
          · cases done
          · rw [ih _ _ _ done extension, List.mem_append, List.mem_singleton]
            constructor
            · rintro ((old | rfl) | later)
              · exact Or.inl old
              · exact Or.inr (Or.inl ⟨fresh.1, rfl, fresh.2.1⟩)
              · exact Or.inr (Or.inr later)
            · rintro (old | ⟨_, rfl, _⟩ | later)
              · exact Or.inl (Or.inl old)
              · exact Or.inl (Or.inr rfl)
              · exact Or.inr later
        next stale =>
          rw [ih _ _ _ done extension]
          constructor
          · rintro (old | later)
            · exact Or.inl old
            · exact Or.inr (Or.inr later)
          · rintro (old | ⟨right, rfl, other⟩ | later)
            · exact Or.inl old
            · refine Or.inl ?_
              by_contra new
              exact stale ⟨right, other, new⟩
            · exact Or.inr later
    next ended =>
      cases done
      simp [ended]

theorem namedRecords_length (entries : List ListEntry) (records : List Nat) :
    records.length ≤ (namedRecords baseRecord type records entries).length := by
  induction entries generalizing records with
  | nil => exact Nat.le_refl _
  | cons entry entries ih =>
    rw [namedRecords, List.foldl_cons]
    refine Nat.le_trans ?_ (ih _)
    split
    · rw [List.length_append]
      exact Nat.le_add_right _ _
    · exact Nat.le_refl _

/-- The loop collects the records that the list names, if there is room for all of them. -/
theorem extensionOwners_eq (steps : Nat) : ∀ offset records, records.length ≤ capacity →
    extensionOwners list baseRecord type capacity steps offset records =
      if (namedRecords baseRecord type records (listEntries list steps offset)).length ≤ capacity then
        some (namedRecords baseRecord type records (listEntries list steps offset))
      else none := by
  induction steps with
  | zero =>
    intro offset records room
    rw [extensionOwners, listEntries]
    exact (if_pos room).symm
  | succ steps ih =>
    intro offset records room
    rw [extensionOwners, listEntries]
    split
    next more =>
      dsimp only
      split
      next broken => exact (if_pos room).symm
      next whole =>
        rw [namedRecords, List.foldl_cons]
        split
        next =>
          split
          next full =>
            have longer := @namedRecords_length baseRecord type
              (listEntries list steps (offset + (listEntryAt list offset).length))
              (records ++ [(listEntryAt list offset).owner])
            rw [List.length_append, List.length_singleton] at longer
            exact (if_neg (by rw [namedRecords] at longer; omega)).symm
          next less =>
            exact ih _ _ (by rw [List.length_append, List.length_singleton]; omega)
        next => exact ih _ _ room
    next ended => exact (if_pos room).symm

end Owners

/-! ### What the code looks at -/

section Looks

variable {volume : NtfsVolume} {bitmap mftBitmap : AttributeStream} {m m' : NtfsMachine} {recordNumber : Nat}
  {list : Option (List UInt8)}

theorem testBits_eq (bits : List Nat) : attempt (testBits volume bitmap bits) m =
    (if ∀ bit ∈ bits, ntfsStreamBitIsSet volume bitmap bit m = true then some () else none, m) := by
  induction bits with
  | nil => simp [testBits]
  | cons bit bits ih =>
    rw [testBits]
    simp only [attempt_bind, attempt_state, check]
    by_cases set : ntfsStreamBitIsSet volume bitmap bit m = true
    · simp only [set, if_true, attempt_pure, List.forall_mem_cons, true_and]
      exact ih
    · simp [set]

theorem collectExtensionRecords_eq
    (listed : runNtfs (readWithList volume recordNumber) m = (some list, m')) :
    runNtfs (ntfsCollectExtensionRecords volume recordNumber ATTR_DATA NTFS_MAX_STREAM_RUNS) m =
      (some (ownersSeen list recordNumber), m') := by
  unfold ntfsCollectExtensionRecords ownersSeen
  rw [runNtfs, attempt_orElse, attempt_bind_of listed]
  cases list with
  | none => rfl
  | some bytes =>
    rw [attempt_bind_of (attempt_need _), attempt_need, Option.bind_some]
    cases extensionOwners bytes recordNumber ATTR_DATA NTFS_MAX_STREAM_RUNS (bytes.length + 1) 0 [] with
    | none => rfl
    | some owners => rfl

/-- Each of these records is marked, where it is looked up: in the buffer that the reads of the records before it
have left. -/
def Shown (volume : NtfsVolume) (mftBitmap : AttributeStream) : List Nat → NtfsMachine → Prop
  | [], _ => True
  | extension :: extensions, m =>
    ntfsStreamBitIsSet volume mftBitmap extension m = true ∧
      Shown volume mftBitmap extensions (runNtfs (readMftRecord volume extension) m).2

/-- The extension records of a file can be read, and refer back to it. -/
def WellLinked (volume : NtfsVolume) (disk : NtfsDisk) (list : Option (List UInt8))
    (recordNumber : Nat) : Prop :=
  ∀ extension, Extends list recordNumber extension →
    ∃ image, loadedRecord volume disk extension = some image ∧ baseReference image % 2 ^ 48 = recordNumber

theorem ownersSeen_extends {extension : Nat} (seen : extension ∈ ownersSeen list recordNumber) :
    Extends list recordNumber extension := by
  unfold ownersSeen at seen
  cases list with
  | none => cases seen
  | some bytes =>
    rw [Option.bind_some] at seen
    cases found : extensionOwners bytes recordNumber ATTR_DATA NTFS_MAX_STREAM_RUNS (bytes.length + 1) 0 [] with
    | none =>
      rw [found] at seen
      cases seen
    | some owners =>
      rw [found] at seen
      rcases (extensionOwners_mem _ _ _ _ found extension).mp seen with none | entry
      · cases none
      · exact ⟨bytes, rfl, entry⟩

theorem verifyExtensions_iff {disk : NtfsDisk} (extensions : List Nat) : ∀ m, m.disk = disk →
    (∀ extension ∈ extensions, ∃ image, loadedRecord volume disk extension = some image ∧
      baseReference image % 2 ^ 48 = recordNumber) →
    ((runNtfs (verifyExtensions volume mftBitmap recordNumber extensions) m).1 = some () ↔
      Shown volume mftBitmap extensions m) := by
  induction extensions with
  | nil => exact fun _ _ _ => ⟨fun _ => trivial, fun _ => rfl⟩
  | cons extension extensions ih =>
    intro m same linked
    obtain ⟨image, loaded, back⟩ := linked extension (List.mem_cons_self ..)
    obtain ⟨m', read, kept, large, agree⟩ := readMftRecord_loaded loaded same
    have base : baseReference m'.mftBuf = baseReference image :=
      (agree.wordAt (by omega)).symm
    have later := ih m' kept fun other member => linked other (List.mem_cons_of_mem _ member)
    rw [verifyExtensions, Shown, read, runNtfs, attempt_bind, testBits_eq]
    by_cases set : ntfsStreamBitIsSet volume mftBitmap extension m = true
    · simp only [set, List.mem_singleton, forall_eq, if_true, true_and]
      rw [attempt_bind_of read, mftBuffer]
      simp only [attempt_bind, attempt_state, attempt_pure, check, base, back, if_true]
      exact later
    · simp [set]

/-- Bits are looked up in the buffer: the first one lies in the value of a resident bitmap. -/
def LooksInBuffer (bitmap : AttributeStream) (bits : List Nat) : Prop :=
  bitmap.resident = true ∧ ∃ bit, bits.head? = some bit ∧ bit >>> 3 < bitmap.dataSize

theorem bitIsSet_of_runs {bit : Nat} (inRuns : bitmap.resident = false) (same : m'.disk = m.disk) :
    ntfsStreamBitIsSet volume bitmap bit m' = ntfsStreamBitIsSet volume bitmap bit m := by
  unfold ntfsStreamBitIsSet
  rw [inRuns, same]
  rfl

theorem bitIsSet_outside {bit : Nat} (outside : ¬bit >>> 3 < bitmap.dataSize) (m : NtfsMachine) :
    ntfsStreamBitIsSet volume bitmap bit m = false := if_pos (Nat.le_of_not_lt outside)

/-- Bits that are not looked up in the buffer are the same in every machine with the disk. -/
theorem bits_steady {bits : List Nat} (steady : ¬LooksInBuffer bitmap bits) (same : m'.disk = m.disk) :
    (∀ bit ∈ bits, ntfsStreamBitIsSet volume bitmap bit m' = true) ↔
      ∀ bit ∈ bits, ntfsStreamBitIsSet volume bitmap bit m = true := by
  by_cases resident : bitmap.resident = true
  · cases bits with
    | nil => simp
    | cons bit bits =>
      have outside : ¬bit >>> 3 < bitmap.dataSize := fun inside => steady ⟨resident, bit, rfl, inside⟩
      simp [bitIsSet_outside outside]
  · simp only [bitIsSet_of_runs (Bool.eq_false_iff.mpr resident) same]

theorem shown_steady {extensions : List Nat} (steady : ¬LooksInBuffer mftBitmap extensions)
    (same : m'.disk = m.disk) : Shown volume mftBitmap extensions m' ↔
      ∀ extension ∈ extensions, ntfsStreamBitIsSet volume mftBitmap extension m = true := by
  by_cases resident : mftBitmap.resident = true
  · cases extensions with
    | nil => simp [Shown]
    | cons extension extensions =>
      have outside : ¬extension >>> 3 < mftBitmap.dataSize := fun inside => steady ⟨resident, extension, rfl, inside⟩
      simp [Shown, bitIsSet_outside outside]
  · clear steady
    have inRuns := Bool.eq_false_iff.mpr resident
    induction extensions generalizing m' with
    | nil => simp [Shown]
    | cons extension extensions ih =>
      have kept : (runNtfs (readMftRecord volume extension) m').2.disk = m.disk :=
        (readMftRecord_keeps extension m').trans same
      rw [Shown, List.forall_mem_cons, bitIsSet_of_runs inRuns same]
      exact and_congr_right fun _ => ih kept

theorem few_seen (few : Few list recordNumber) {extension : Nat} :
    extension ∈ ownersSeen list recordNumber ↔ Extends list recordNumber extension := by
  unfold ownersSeen Extends
  cases list with
  | none => simp
  | some bytes =>
    have found := @extensionOwners_eq bytes recordNumber ATTR_DATA NTFS_MAX_STREAM_RUNS (bytes.length + 1) 0 []
      (Nat.zero_le _)
    rw [if_pos (few bytes rfl)] at found
    rw [Option.bind_some, found, Option.getD_some, extensionOwners_mem _ _ _ _ found extension]
    simp

end Looks

/-! ### The verdict -/

section Machines

variable (volume : NtfsVolume) (recordNumber : Nat) (m : NtfsMachine)

def behindData :
    NtfsMachine := (runNtfs (collectAttributeStream volume ⟨recordNumber, ATTR_DATA, true⟩) m).2

def behindClusters : NtfsMachine :=
  (runNtfs (collectAttributeStream volume ⟨6, ATTR_DATA, true⟩) (behindData volume recordNumber m)).2

/-- The machine behind the collection of the bitmap of the records. -/
def behindMft : NtfsMachine :=
  (runNtfs (collectAttributeStream volume ⟨0, ATTR_BITMAP, false⟩) (behindClusters volume recordNumber m)).2

def behindList :
    NtfsMachine := (runNtfs (readWithList volume recordNumber) (behindMft volume recordNumber m)).2

/-- The streams of a verification, and the attribute list of the file. -/
structure Verification where
  data : AttributeStream
  clusterBitmap : AttributeStream
  mftBitmap : AttributeStream
  list : Option (List UInt8)
  collectedData : (runNtfs (collectAttributeStream volume ⟨recordNumber, ATTR_DATA, true⟩) m).1 = some data
  collectedClusters :
    (runNtfs (collectAttributeStream volume ⟨6, ATTR_DATA, true⟩) (behindData volume recordNumber m)).1 =
      some clusterBitmap
  collectedMft :
    (runNtfs (collectAttributeStream volume ⟨0, ATTR_BITMAP, false⟩) (behindClusters volume recordNumber m)).1 =
      some mftBitmap
  listed : (runNtfs (readWithList volume recordNumber) (behindMft volume recordNumber m)).1 = some list

theorem behindMft_disk : (behindMft volume recordNumber m).disk =
    (behindClusters volume recordNumber m).disk :=
  collectAttributeStream_keeps _ _

theorem behindList_disk : (behindList volume recordNumber m).disk =
    (behindMft volume recordNumber m).disk := by
  have code : Keeps NtfsMachine.disk (readWithList volume recordNumber) :=
    keeps_bind (readMftRecord_keeps _) fun _ => loadAttributeList_keeps
  exact code _

theorem behindClusters_disk : (behindClusters volume recordNumber m).disk = m.disk :=
  (collectAttributeStream_keeps _ _).trans (collectAttributeStream_keeps _ _)

end Machines

section Verdict

variable {volume : NtfsVolume} {recordNumber : Nat} {m : NtfsMachine}

/-- The clusters of the file are marked in the bitmap, as it is when it has been collected. -/
def Verification.Marked (c : Verification volume recordNumber m) : Prop :=
  ∀ cluster ∈ fileClusters c.data.runs,
    ntfsStreamBitIsSet volume c.clusterBitmap cluster (behindClusters volume recordNumber m) = true

/-- The records and the clusters of the file are marked in the bitmaps, each as it is on the disk: in the buffer it
was collected into, if it is resident. -/
def Verification.Allocated (c : Verification volume recordNumber m) : Prop :=
  ntfsStreamBitIsSet volume c.mftBitmap recordNumber (behindMft volume recordNumber m) = true ∧ c.Marked ∧
    ∀ extension, Extends c.list recordNumber extension →
      ntfsStreamBitIsSet volume c.mftBitmap extension (behindMft volume recordNumber m) = true

/-- What the code looks at behind the bit of the file's own record. -/
def Verification.Seen (c : Verification volume recordNumber m) : Prop :=
  (∀ cluster ∈ fileClusters c.data.runs,
      ntfsStreamBitIsSet volume c.clusterBitmap cluster (behindMft volume recordNumber m) = true) ∧
    Shown volume c.mftBitmap (ownersSeen c.list recordNumber) (behindList volume recordNumber m)

/-- No bit is looked up in a buffer that has been read into meanwhile, and no extension record is left out: the file
is refused for its own record; or the clusters are not looked up in the buffer, and the file is refused for one of
them, or its extension records have room and are not looked up in the buffer either. -/
def Verification.Steady (c : Verification volume recordNumber m) : Prop :=
  ntfsStreamBitIsSet volume c.mftBitmap recordNumber (behindMft volume recordNumber m) = false ∨
    ¬LooksInBuffer c.clusterBitmap (fileClusters c.data.runs) ∧
      (¬c.Marked ∨ Few c.list recordNumber ∧ ¬LooksInBuffer c.mftBitmap (ownersSeen c.list recordNumber))

theorem Verification.accepts_iff (c : Verification volume recordNumber m) (some : recordNumber ≠ 0)
    (linked : WellLinked volume m.disk c.list recordNumber) :
    (runNtfs (ntfsVerifyFileAllocation volume recordNumber) m).1 = .some () ↔
      ntfsStreamBitIsSet volume c.mftBitmap recordNumber (behindMft volume recordNumber m) = true ∧
      c.Seen := by
  have disk : (behindList volume recordNumber m).disk = m.disk :=
    (behindList_disk ..).trans ((behindMft_disk ..).trans (behindClusters_disk ..))
  have data : attempt _ m = (.some c.data, behindData volume recordNumber m) := Prod.ext c.collectedData rfl
  have clusters : attempt _ _ = (.some c.clusterBitmap, behindClusters volume recordNumber m) :=
    Prod.ext c.collectedClusters rfl
  have mft : attempt _ _ = (.some c.mftBitmap, behindMft volume recordNumber m) := Prod.ext c.collectedMft rfl
  have list : runNtfs _ _ = (.some c.list, behindList volume recordNumber m) := Prod.ext c.listed rfl
  unfold ntfsVerifyFileAllocation
  rw [runNtfs, check, if_pos some, attempt_bind_of (attempt_pure ()), attempt_bind_of data, attempt_bind_of clusters,
    attempt_bind_of mft, attempt_bind, testBits_eq]
  by_cases record : ntfsStreamBitIsSet volume c.mftBitmap recordNumber (behindMft volume recordNumber m) = true
  · simp only [record, List.mem_singleton, forall_eq, if_true, true_and]
    rw [attempt_bind, testBits_eq]
    by_cases marked : ∀ cluster ∈ fileClusters c.data.runs,
        ntfsStreamBitIsSet volume c.clusterBitmap cluster (behindMft volume recordNumber m) = true
    · rw [if_pos marked]
      dsimp only
      rw [attempt_bind_of (collectExtensionRecords_eq list), Verification.Seen, and_iff_right marked]
      exact verifyExtensions_iff _ _ disk fun extension seen => linked extension (ownersSeen_extends seen)
    · rw [if_neg marked]
      exact iff_of_false (by rintro ⟨⟩) fun both => marked both.1
  · simp [record]

/-- Where no bit is looked up in the buffer, the code sees what is marked. -/
theorem Verification.seen_iff (c : Verification volume recordNumber m)
    (clusters : ¬LooksInBuffer c.clusterBitmap (fileClusters c.data.runs))
    (records : ¬c.Marked ∨ Few c.list recordNumber ∧ ¬LooksInBuffer c.mftBitmap (ownersSeen c.list recordNumber)) :
    c.Seen ↔ c.Marked ∧ ∀ extension, Extends c.list recordNumber extension →
      ntfsStreamBitIsSet volume c.mftBitmap extension (behindMft volume recordNumber m) = true := by
  have marked := @bits_steady volume _ _ _ _ clusters (behindMft_disk volume recordNumber m)
  refine (and_congr_left' marked).trans ?_
  rcases records with unmarked | ⟨few, records⟩
  · exact iff_of_false (fun both => unmarked both.1) fun both => unmarked both.1
  · refine and_congr_right fun _ => (shown_steady records (behindList_disk volume recordNumber m)).trans ?_
    exact forall_congr' fun extension => by rw [few_seen few]

/-- With bitmaps in runs nothing is looked up in the buffer. -/
theorem Verification.steady_of_runs (c : Verification volume recordNumber m)
    (clusters : c.clusterBitmap.resident = false) (records : c.mftBitmap.resident = false)
    (few : Few c.list recordNumber) : c.Steady := by
  refine Or.inr ⟨fun looks => ?_, Or.inr ⟨few, fun looks => ?_⟩⟩
  · exact Bool.false_ne_true (clusters.symm.trans looks.1)
  · exact Bool.false_ne_true (records.symm.trans looks.1)

/-- The verdict is the one that the bitmaps on the disk give if no bit is looked up in a buffer that has been read
into meanwhile and no extension record is left out. In the other cases it is that one just if what is looked up
instead happens to agree with the bitmaps. -/
theorem verifyFileAllocation_iff (c : Verification volume recordNumber m) (some : recordNumber ≠ 0)
    (linked : WellLinked volume m.disk c.list recordNumber) :
    (c.Steady → ((runNtfs (ntfsVerifyFileAllocation volume recordNumber) m).1 = .some () ↔ c.Allocated)) ∧
    (¬c.Steady → (((runNtfs (ntfsVerifyFileAllocation volume recordNumber) m).1 = .some () ↔ c.Allocated) ↔
      (c.Seen ↔ c.Marked ∧ ∀ extension, Extends c.list recordNumber extension →
        ntfsStreamBitIsSet volume c.mftBitmap extension (behindMft volume recordNumber m) = true))) := by
  rw [c.accepts_iff some linked, Verification.Allocated]
  constructor
  · rintro (unset | ⟨clusters, records⟩)
    · rw [unset]
      exact iff_of_false (fun both => Bool.false_ne_true both.1) fun both => Bool.false_ne_true both.1
    · exact and_congr_right fun _ => c.seen_iff clusters records
  · intro unsteady
    have record : ntfsStreamBitIsSet volume c.mftBitmap recordNumber (behindMft volume recordNumber m) = true := by
      by_contra unset
      exact unsteady (Or.inl (Bool.eq_false_iff.mpr unset))
    rw [and_iff_right record, and_iff_right record]

end Verdict

/-! ### A resident bitmap -/

/-- Records of one sector. -/
def bitsContext : MftContext := sectorVolume

def bitsVolume : NtfsVolume where
  toMftContext := bitsContext
  mftRuns := [⟨1, 10, false⟩]
  mftMirrorLcn := 0
  mftDataSize := 40960
  totalSectors := 1000

/-- The MFT record 0: the first 26 records are in use. -/
def bitsMft : Option Memory := do
  let record ← ntfsInitializeFileRecord bitsContext 0 1 false
  let record ← ntfsAppendResidentAttribute record 512 ATTR_BITMAP [] [0xFF, 0xFF, 0xFF, 0x03] 0
  protectFixup record 512 512

/-- The record 6: the bitmap of the clusters is in the cluster 30. -/
def bitsClusters : Option Memory := do
  let record ← ntfsInitializeFileRecord bitsContext 6 1 false
  let record ← ntfsAppendNonresidentExtent record 512 ATTR_DATA [] [0x11, 1, 30, 0] 0 1 4096 16 16 0 0 0
  protectFixup record 512 512

/-- The record 24: a file whose data are in the record 25. -/
def bitsFile : Option Memory := do
  let record ← splitBaseRecord bitsContext 24 1 5 [97] (attributeListEntry ATTR_DATA 0 (25 + 2 ^ 48) 0) 4096
  protectFixup record 512 512

def bitsExtension : Option Memory := do
  let record ← extensionRecord bitsContext 25 1 (24 + 2 ^ 48) [0x11, 1, 20, 0] 0 1 4096 4096
  protectFixup record 512 512

/-- All clusters are in use. -/
def bitsMachine : NtfsMachine where
  disk := {
    content := fun address =>
      let record image := (image.getD fun _ => 0) ((address - 4096) % 512)
      if address < 4096 then 0
      else if address < 4096 + 512 then record bitsMft
      else if address < 4096 + 6 * 512 then 0
      else if address < 4096 + 7 * 512 then record bitsClusters
      else if address < 4096 + 24 * 512 then 0
      else if address < 4096 + 25 * 512 then record bitsFile
      else if address < 4096 + 26 * 512 then record bitsExtension
      else 0xFF
    readable := fun _ => true }
  mftBuf := fun _ => 0

def bitsList : List UInt8 := attributeListEntry ATTR_DATA 0 (25 + 2 ^ 48) 0

def bitsData : AttributeStream := ⟨⟨[⟨20, 1, false⟩], 4096, 4096⟩, 4096, 1, 0, 0, 0, 0, false, true⟩

def bitsClusterBitmap : AttributeStream := ⟨⟨[⟨30, 1, false⟩], 16, 4096⟩, 16, 1, 0, 0, 0, 0, false, true⟩

def bitsMftBitmap : AttributeStream := ⟨⟨[], 4, 0⟩, 0, 0, 80, 4, 0, 0, true, true⟩

theorem bits_collected :
    (runNtfs (collectAttributeStream bitsVolume ⟨24, ATTR_DATA, true⟩) bitsMachine).1 = some bitsData ∧
      (runNtfs (collectAttributeStream bitsVolume ⟨6, ATTR_DATA, true⟩) (behindData bitsVolume 24 bitsMachine)).1 =
        some bitsClusterBitmap ∧
      (runNtfs (collectAttributeStream bitsVolume ⟨0, ATTR_BITMAP, false⟩)
        (behindClusters bitsVolume 24 bitsMachine)).1 = some bitsMftBitmap ∧
      (runNtfs (readWithList bitsVolume 24) (behindMft bitsVolume 24 bitsMachine)).1 =
      some (some bitsList) := by
  decide +kernel

def bitsVerification : Verification bitsVolume 24 bitsMachine where
  data := bitsData
  clusterBitmap := bitsClusterBitmap
  mftBitmap := bitsMftBitmap
  list := some bitsList
  collectedData := bits_collected.1
  collectedClusters := bits_collected.2.1
  collectedMft := bits_collected.2.2.1
  listed := bits_collected.2.2.2

theorem bitsExtends : ∀ extension, Extends (some bitsList) 24 extension → extension = 25 := by
  rintro extension ⟨bytes, same, entry, member, data, rfl, -⟩
  cases same
  have all : ∀ entry ∈ listEntries bitsList (bitsList.length + 1) 0, entry.owner = 25 := by decide
  exact all entry member

theorem bitsLinked_of {disk : NtfsDisk}
    (loads : ∃ some : (loadedRecord bitsVolume disk 25).isSome = true,
    baseReference ((loadedRecord bitsVolume disk 25).get some) % 2 ^ 48 = 24) :
    WellLinked bitsVolume disk (some bitsList) 24 := by
  obtain ⟨some, back⟩ := loads
  intro extension named
  rw [bitsExtends extension named]
  exact ⟨_, (Option.some_get some).symm, back⟩

theorem bitsLinked :
    WellLinked bitsVolume bitsMachine.disk (some bitsList) 24 := bitsLinked_of (by decide +kernel)

/-- The MFT record 0 of a volume whose bitmap of the records is in the cluster 31. -/
def runsMft : Option Memory := do
  let record ← ntfsInitializeFileRecord bitsContext 0 1 false
  let record ← ntfsAppendNonresidentExtent record 512 ATTR_BITMAP [] [0x11, 1, 31, 0] 0 1 4096 4 4 0 0 0
  protectFixup record 512 512

def runsMachine : NtfsMachine :=
  { bitsMachine with
    disk := {
      content := fun address =>
        if 4096 ≤ address ∧ address < 4096 + 512 then (runsMft.getD fun _ => 0) (address - 4096)
        else bitsMachine.disk.content address
      readable := fun _ => true } }

def runsMftBitmap : AttributeStream := ⟨⟨[⟨31, 1, false⟩], 4, 4096⟩, 4, 1, 0, 0, 0, 0, false, true⟩

theorem runs_collected :
    (runNtfs (collectAttributeStream bitsVolume ⟨24, ATTR_DATA, true⟩) runsMachine).1 = some bitsData ∧
      (runNtfs (collectAttributeStream bitsVolume ⟨6, ATTR_DATA, true⟩) (behindData bitsVolume 24 runsMachine)).1 =
        some bitsClusterBitmap ∧
      (runNtfs (collectAttributeStream bitsVolume ⟨0, ATTR_BITMAP, false⟩)
        (behindClusters bitsVolume 24 runsMachine)).1 = some runsMftBitmap ∧
      (runNtfs (readWithList bitsVolume 24) (behindMft bitsVolume 24 runsMachine)).1 =
      some (some bitsList) := by
  decide +kernel

def runsVerification : Verification bitsVolume 24 runsMachine where
  data := bitsData
  clusterBitmap := bitsClusterBitmap
  mftBitmap := runsMftBitmap
  list := some bitsList
  collectedData := runs_collected.1
  collectedClusters := runs_collected.2.1
  collectedMft := runs_collected.2.2.1
  listed := runs_collected.2.2.2

theorem runsLinked :
    WellLinked bitsVolume runsMachine.disk (some bitsList) 24 := bitsLinked_of (by decide +kernel)

/-- With both bitmaps in runs the verdict about the file is the right one. -/
theorem verifyFileAllocation_iff_runs :
    (runNtfs (ntfsVerifyFileAllocation bitsVolume 24) runsMachine).1 = some () ↔
    runsVerification.Allocated := by
  have few : Few (some bitsList) 24 := by
    rintro bytes ⟨⟩
    decide
  exact (verifyFileAllocation_iff runsVerification (by decide) runsLinked).1
    (runsVerification.steady_of_runs rfl rfl few)

/-- The bit of the extension record is looked for in the record of the file, which has been read meanwhile. -/
theorem verifyFileAllocation_refuses :
    WellLinked bitsVolume bitsMachine.disk bitsVerification.list 24 ∧ bitsVerification.Allocated ∧
      (runNtfs (ntfsVerifyFileAllocation bitsVolume 24) bitsMachine).1 = none := by
  have marked : ∀ cluster ∈ fileClusters bitsData.runs,
      ntfsStreamBitIsSet bitsVolume bitsClusterBitmap cluster (behindClusters bitsVolume 24 bitsMachine) = true := by
    decide +kernel
  refine ⟨bitsLinked, ⟨by decide +kernel, marked, fun extension named => ?_⟩, by decide +kernel⟩
  rw [bitsExtends extension named]
  decide +kernel

end AsasOs.Ntfs
