import AsasOs.Iso9660.Lookup

/-!
# Listings and sizes in ISO 9660 directories

A listing passes over the records that continue a file, and reports the size in its first record. The size query adds
up the sizes in all of them.

## Main results

- `listDirectory_eq`: a listing reports the first records of the files.
- `listing_agrees_iff`: the sizes that it reports are those of the size query just if the files are recorded so.
-/
namespace AsasOs.Iso9660

open Bytes Checked Optical

/-! ### The files of a directory -/

/-- The entries that are the first of a file, each with what comes after it. The records of the file of a name are
passed over. -/
def filesOf : Option Name → List Entry → List (Entry × List Entry)
  | _, [] => []
  | passed, entry :: rest =>
    if passed.any (stringsEqualCi entry.name) = true then
      filesOf (if entry.record.isMultiExtent then passed else none) rest
    else (entry, rest) :: filesOf (if entry.record.isMultiExtent then some entry.name else none) rest

/-- The records that continue a file, up to the last one. -/
def partsOf (name : Name) : Bool → List Entry → Option (List Record)
  | false, _ => some []
  | true, [] => none
  | true, part :: rest =>
    if stringsEqualCi part.name name = true then (partsOf name part.record.isMultiExtent rest).map (part.record :: ·)
    else none

/-- The size of a file by all its records, of which there are 16 at most and the last one is no directory. It is 0
where they are not complete. -/
def recordedSize (file : Entry × List Entry) : Nat :=
  match partsOf file.1.name file.1.record.isMultiExtent file.2 with
  | none => 0
  | some parts =>
    if (parts = [] ∨ file.1.record.extents.length + parts.length ≤ 16) ∧
        (parts.getLastD file.1.record).isDirectory = false then
      if file.1.record.isSymlink then file.1.record.symlink.length
      else parts.foldl (fun size part => (size + part.size) % 2 ^ 32) file.1.record.size
    else 0

/-- No two files have one name, and the size of a file is that in its first record. -/
structure FilesPlain (entries : List Entry) : Prop where
  once : (filesOf none entries).Pairwise fun file other => stringsEqualCi file.1.name other.1.name = false
  whole : ∀ file ∈ filesOf none entries, file.1.record.isDirectory = false →
    Component file.1.name ∧ recordedSize file = (fileInfo file.1.name file.1.record).size

/-- What a listing of a path reports, and what the size query says of it. -/
structure Agrees (steps : Nat) (context : Context) (path : Name) (infos : List FileInfo) : Prop where
  listed : ∀ capacity, capacity ≠ 0 → infos.length ≤ capacity →
    iso9660ContextListDirectory steps context path capacity = .ok infos
  once : infos.Pairwise fun info other => stringsEqualCi info.name other.name = false
  sizes : ∀ info ∈ infos, info.isDirectory = false →
    Component info.name ∧ iso9660ContextFileSize steps context (path ++ SLASH :: info.name) = .ok info.size

section Listing

variable {joliet : Bool} {entries : List Entry} {passed : Option Name}

def infosOf (entries : List Entry) : List FileInfo :=
  (filesOf none entries).map fun file => fileInfo file.1.name file.1.record

theorem visitAll_files {capacity : Nat} {after : List FileInfo × Option Name → Run (List FileInfo)}
    (ends : ∀ s, after s = .ok s.1) {items : List Item}
    (inside : ∀ item ∈ items, Bounded item.1 item.2 ∧ NameInside joliet item.1 item.2 ∧ LinkInside item.1 item.2)
    {infos : List FileInfo} (few : infos.length ≤ capacity) :
    visitAll (listVisitor joliet capacity) after items (infos, passed) =
      .ok ((infos ++ (filesOf passed (items.map (entryOf joliet))).map fun file =>
        fileInfo file.1.name file.1.record).take capacity) := by
  induction items generalizing infos passed with
  | nil =>
    rw [visitAll, List.map_nil, filesOf, List.map_nil, List.append_nil, List.take_of_length_le few, ends]
    exact ite_self _
  | cons item rest ih =>
    obtain ⟨⟨bounded, name, link⟩, later⟩ := List.forall_mem_cons.mp inside
    by_cases full : infos.length = capacity
    · have done : ¬(listVisitor joliet capacity).more (infos, passed) = true := by
        simp [listVisitor, full]
      rw [visitAll_done _ done, List.take_append_of_le_length full.ge, List.take_of_length_le full.le]
      rfl
    · have more : (listVisitor joliet capacity).more (infos, passed) = true :=
        decide_eq_true (Nat.lt_of_le_of_ne few full)
      rw [visitAll_cons _ _ more, visit_listed bounded name link, ok_bind, Sum.elim_inl, List.map_cons, filesOf, listed]
      split
      next => exact ih later few
      next =>
        have longer := @ih (if (entryOf joliet item).record.isMultiExtent then some (entryOf joliet item).name else none)
          later (infos ++ [fileInfo (entryOf joliet item).name (entryOf joliet item).record])
          (by rw [List.length_append, List.length_singleton]; omega)
        rwa [List.append_assoc, List.singleton_append] at longer

/-! ### The size of a file -/

def fileSize : Option Record → Nat
  | none => 0
  | some record =>
    if record.isDirectory then 0 else if record.isSymlink then record.symlink.length else record.size

theorem joined_eq (name : Name) (record : Record) (rest : List Entry) :
    joined name record rest = (partsOf name record.isMultiExtent rest).bind fun parts => parts.foldlM appendExtent record := by
  induction rest generalizing record with
  | nil => cases multi : record.isMultiExtent <;> simp [joined, partsOf, multi]
  | cons part rest ih =>
    cases multi : record.isMultiExtent with
    | false => simp [joined, partsOf, multi]
    | true =>
      rw [joined, if_pos multi, partsOf]
      split
      next =>
        rw [Option.bind_map]
        cases appended : appendExtent record part.record with
        | none => simp [appended]
        | some result => simp [ih, isMultiExtent_appendExtent appended, appended]
      next => rfl

theorem fileSize_parts (parts : List Record) (record : Record) :
    fileSize (parts.foldlM appendExtent record) =
      if (parts = [] ∨ record.extents.length + parts.length ≤ 16) ∧ (parts.getLastD record).isDirectory = false then
        if record.isSymlink then record.symlink.length
        else parts.foldl (fun size part => (size + part.size) % 2 ^ 32) record.size
      else 0 := by
  induction parts generalizing record with
  | nil => cases directory : record.isDirectory <;> simp [fileSize, directory]
  | cons part parts ih =>
    rw [List.foldlM_cons, appendExtent]
    by_cases full : record.extents.length ≥ 16
    · rw [if_pos full, if_neg]
      · rfl
      · rintro ⟨none | room, -⟩
        · cases none
        · rw [List.length_cons] at room
          omega
    · rw [if_neg full, Option.bind_eq_bind, Option.bind_some, ih]
      cases parts with
      | nil =>
        have room : [part] = [] ∨ record.extents.length + [part].length ≤ 16 := .inr (by
          rw [List.length_singleton]
          omega)
        simp only [and_iff_right room, true_or, true_and]
        simp [Record.isDirectory, Record.isSymlink]
      | cons next parts =>
        have bound : record.extents.length + 1 + (parts.length + 1) ≤ 16 ↔
            record.extents.length + (parts.length + 1 + 1) ≤ 16 := by omega
        simp [Record.isDirectory, Record.isSymlink, List.getLast?_cons, bound]

theorem fileSize_joined (file : Entry × List Entry) :
    fileSize (joined file.1.name file.1.record file.2) = recordedSize file := by
  rw [joined_eq, recordedSize]
  cases partsOf file.1.name file.1.record.isMultiExtent file.2 with
  | none => rfl
  | some parts => exact fileSize_parts parts file.1.record

theorem stringsEqualCi_symm (left right : Name) :
    stringsEqualCi left right = stringsEqualCi right left :=
  Bool.beq_comm

theorem stringsEqualCi_trans {first second third : Name} (same : stringsEqualCi first second = true)
    (same' : stringsEqualCi second third = true) : stringsEqualCi first third = true :=
  beq_iff_eq.mpr ((beq_iff_eq.mp same).trans (beq_iff_eq.mp same'))

/-- The first entry with the name of a file is the first of the file. -/
theorem lookup_file {file : Entry × List Entry} (member : file ∈ filesOf passed entries)
    (once : (filesOf passed entries).Pairwise fun file other => stringsEqualCi file.1.name other.1.name = false)
    (other : ∀ name, passed = some name → stringsEqualCi name file.1.name = false) :
    lookup file.1.name entries = joined file.1.name file.1.record file.2 := by
  induction entries generalizing passed with
  | nil => cases member
  | cons entry rest ih =>
    rw [filesOf] at member once
    rw [lookup]
    -- An entry with another name is passed over, and the file that it may belong to has another name.
    have later {passed' : Option Name} (apart : stringsEqualCi entry.name file.1.name = false)
        (fewer : ∀ name, passed' = some name → passed = some name ∨ name = entry.name)
        (member : file ∈ filesOf passed' rest)
        (once : (filesOf passed' rest).Pairwise fun file other => stringsEqualCi file.1.name other.1.name = false) :
        (if stringsEqualCi entry.name file.1.name = true then joined entry.name entry.record rest
          else lookup file.1.name rest) = joined file.1.name file.1.record file.2 := by
      rw [apart, if_neg Bool.false_ne_true]
      refine ih member once fun name given => ?_
      rcases fewer name given with old | rfl
      · exact other name old
      · exact apart
    split at member
    next skipped =>
      rw [if_pos skipped] at once
      cases passed with
      | none => cases skipped
      | some name =>
        have same : stringsEqualCi name entry.name = true := (stringsEqualCi_symm ..).trans skipped
        refine later ?_ (fun name' given => .inl ?_) member once
        · refine Bool.eq_false_iff.mpr fun hit => ?_
          exact absurd (stringsEqualCi_trans same hit) (by rw [other name rfl]; exact Bool.false_ne_true)
        · split at given
          · exact given
          · cases given
    next fresh =>
      rw [if_neg fresh, List.pairwise_cons] at once
      rcases List.mem_cons.mp member with rfl | member
      · exact if_pos (beq_self_eq_true _)
      · refine later (once.1 file member) (fun name given => .inr ?_) member once.2
        split at given
        · exact (Option.some.inj given).symm
        · cases given

end Listing

/-! ### Listings and size queries -/

section Agreement

variable {context : Context} {directory : Record} {steps : Nat} {path : Name}
  (sound : Sound context directory) (isDirectory : directory.isDirectory = true) (enough : 2 ^ 21 < steps)
  (found : findRecord steps context path = .ok directory)

include sound isDirectory enough found

/-- A listing reports the first records of the files. -/
theorem listDirectory_eq {capacity : Nat} (some_ : capacity ≠ 0) :
    iso9660ContextListDirectory steps context path capacity =
      .ok ((infosOf (entriesOf context directory)).take capacity) := by
  obtain ⟨more, rfl⟩ := enough_steps enough
  rw [iso9660ContextListDirectory, demand_holds some_, ok_bind, found, ok_bind, demand_holds isDirectory, ok_bind,
    walk_eq]
  refine visitAll_files (fun s => ?_) sound.items (Nat.zero_le _)
  cases last : endingOf context.device directory with
  | stop => rfl
  | last => rfl
  | wrapped => exact absurd last sound.ends

theorem fileSize_eq {name : Name} (component : Component name) :
    iso9660ContextFileSize steps context (path ++ SLASH :: name) =
      .ok (fileSize (lookup name (entriesOf context directory))) := by
  rw [iso9660ContextFileSize, findRecord_append component found, findInDirectory_eq sound enough isDirectory]
  cases lookup name (entriesOf context directory) with
  | none => rfl
  | some record => rfl

/-- A listing agrees with the size query just if no two files of the directory have one name, and the size of each file
by all its records is that in the first one. -/
theorem listing_agrees_iff :
    (∃ infos, Agrees steps context path infos) ↔ FilesPlain (entriesOf context directory) := by
  have lists {capacity : Nat} := @listDirectory_eq context directory steps path sound isDirectory enough found capacity
  have queried {file : Entry × List Entry} (member : file ∈ filesOf none (entriesOf context directory))
      (once : (filesOf none (entriesOf context directory)).Pairwise fun file other =>
        stringsEqualCi file.1.name other.1.name = false) (component : Component file.1.name) :
      iso9660ContextFileSize steps context (path ++ SLASH :: file.1.name) = .ok (recordedSize file) := by
    rw [fileSize_eq sound isDirectory enough found component, lookup_file member once nofun, fileSize_joined]
  constructor
  · rintro ⟨infos, agrees⟩
    obtain rfl : infos = infosOf (entriesOf context directory) := by
      have listed := agrees.listed (infos.length + (infosOf (entriesOf context directory)).length + 1)
        (Nat.succ_ne_zero _) (by omega)
      rw [lists (Nat.succ_ne_zero _), List.take_of_length_le (by omega)] at listed
      exact (Except.ok.inj listed).symm
    have once := List.pairwise_map.mp agrees.once
    refine ⟨once, fun file member plain => ?_⟩
    obtain ⟨component, size⟩ := agrees.sizes _ (List.mem_map_of_mem member) plain
    refine ⟨component, ?_⟩
    have query := queried member once component
    exact Except.ok.inj (query.symm.trans size)
  · intro plain
    refine ⟨infosOf (entriesOf context directory), fun capacity some_ room => ?_, List.pairwise_map.mpr plain.once,
      fun info member file => ?_⟩
    · rw [lists some_, List.take_of_length_le room]
    · obtain ⟨file', here, rfl⟩ := List.mem_map.mp member
      obtain ⟨component, size⟩ := plain.whole file' here file
      exact ⟨component, (queried here plain.once component).trans (congrArg Except.ok size)⟩

end Agreement

/-! ### A file in two extents -/

/-- The records of a file `A` of 10 bytes in one extent and 5 bytes in another. -/
def splitSector : Memory := fun i =>
  if i = 0 ∨ i = 34 then 34 else if i = 10 then 10 else if i = 44 then 5 else if i = 25 then 0x80
  else if i = 32 ∨ i = 66 then 1 else if i = 33 ∨ i = 67 then 0x41 else 0

def splitContext : Context where
  device := ⟨2048, fun n => if n = 20 then some splitSector else none⟩
  root := ⟨[(20, 2048)], 20, 2048, 2, none, [], none⟩
  joliet := false

theorem splitContext_sound : Sound splitContext splitContext.root := by
  obtain ⟨sector, items, lengths, fields⟩ : ∃ sector,
      itemsOf splitContext.device splitContext.root = [(sector, 0), (sector, 34)] ∧
        (sector (0 + 32) = 1 ∧ sector (34 + 32) = 1) ∧ fieldsOf sector 0 = [] ∧ fieldsOf sector 34 = [] :=
    ⟨_, rfl, by decide, by decide⟩
  have record {start : Nat} (low : start ≤ 34) (one : sector (start + 32) = 1) (none : fieldsOf sector start = []) :
      NameInside false sector start ∧ LinkInside sector start := by
    refine ⟨fun _ => ?_, fun field member => ?_⟩
    · rw [if_neg Bool.false_ne_true, one]
      exact ⟨by omega, .inr trivial⟩
    · rw [none] at member
      cases member
  refine ⟨by decide, ?_⟩
  rw [items]
  exact List.forall_mem_cons.mpr ⟨record (Nat.zero_le 34) lengths.1 fields.1,
    List.forall_mem_singleton.mpr (record (Nat.le_refl 34) lengths.2 fields.2)⟩

theorem listing_agrees_iff_split : (∃ infos, Agrees (2 ^ 21 + 1) splitContext [] infos) ↔
    FilesPlain (entriesOf splitContext splitContext.root) :=
  listing_agrees_iff splitContext_sound (by decide) (by decide) findRecord_root

/-- The listing reports the size of the first extent, and the size query that of both. -/
theorem extents_disagree :
    (iso9660ContextListDirectory (2 ^ 21 + 1) splitContext [] 4).toOption =
    some [⟨[0x41], 10, false, true⟩] ∧
      (iso9660ContextFileSize (2 ^ 21 + 1) splitContext [SLASH, 0x41]).toOption = some 15 := by
  decide +kernel

end AsasOs.Iso9660
