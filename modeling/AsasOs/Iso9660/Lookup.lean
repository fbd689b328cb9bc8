import AsasOs.Iso9660.Directories

/-!
# Lookups in ISO 9660 directories

Where each record of a directory is read inside its buffers, a directory is a list of names and records, and a lookup
gives the first record of a name with the extents of those that follow it.

## Main results

- `findInDirectory_eq`: a lookup in a directory is one in the list.
- `findRecord_append`: a name at the end of a path is looked up in what the path leads to.
-/
namespace AsasOs.Iso9660

open Bytes Checked Optical

/-- A record of a directory and its name. -/
structure Entry where
  name : Name
  record : Record
  deriving DecidableEq

/-- A record that has not been read. -/
def blank : Record := ⟨[], 0, 0, 0, none, [], none⟩

/-- A record at a position, with the name that is read there. -/
def entryOf (joliet : Bool) (item : Item) : Entry where
  name := (directoryRecordName joliet item.1 item.2).toOption.getD []
  record := (parseRecord item.1 item.2).toOption.getD blank

def entriesOf (context : Context) (directory : Record) : List Entry :=
  (itemsOf context.device directory).map (entryOf context.joliet)

/-- A record with the extents of those that follow it under its name, up to one that is the last of its file. -/
def joined (name : Name) (record : Record) : List Entry → Option Record
  | [] => if record.isMultiExtent = true then none else some record
  | part :: rest =>
    if record.isMultiExtent = true then
      if stringsEqualCi part.name name = true then
        (appendExtent record part.record).bind fun record => joined name record rest
      else none
    else some record

def lookup (wanted : Name) : List Entry → Option Record
  | [] => none
  | entry :: rest =>
    if stringsEqualCi entry.name wanted = true then joined entry.name entry.record rest else lookup wanted rest

/-- Each record of a directory is read inside its buffers, and the directory ends. -/
structure Sound (context : Context) (directory : Record) : Prop where
  ends : endingOf context.device directory ≠ .wrapped
  inside : ∀ item ∈ itemsOf context.device directory,
    NameInside context.joliet item.1 item.2 ∧ LinkInside item.1 item.2

section Entries

variable {joliet : Bool} {item : Item}

theorem eq_ok_of_given {α : Type} {run : Run α} {inside : Prop} (given : Given run inside)
    (here : inside) (other : α) :
    run = .ok (run.toOption.getD other) := by
  obtain ⟨value, same⟩ := given.gives here
  rw [same]
  rfl

theorem directoryRecordName_eq (bounded : Bounded item.1 item.2)
    (inside : NameInside joliet item.1 item.2) :
    directoryRecordName joliet item.1 item.2 = .ok (entryOf joliet item).name :=
  eq_ok_of_given (given_directoryRecordName bounded) inside []

theorem parseRecord_eq (bounded : Bounded item.1 item.2) (inside : LinkInside item.1 item.2) :
    parseRecord item.1 item.2 = .ok (entryOf joliet item).record :=
  eq_ok_of_given (given_parseRecord bounded) inside blank

theorem isMultiExtent_appendExtent {output part result : Record}
    (appended : appendExtent output part = some result) :
    result.isMultiExtent = part.isMultiExtent := by
  unfold appendExtent at appended
  split at appended
  next => cases appended
  next =>
    cases appended
    rfl

theorem joined_single {name : Name} {record : Record} (single : ¬record.isMultiExtent = true)
    (rest : List Entry) :
    joined name record rest = some record := by
  cases rest with
  | nil => exact if_neg single
  | cons part rest => exact if_neg single

theorem visit_collecting {wanted collected : Name} {record : Record} (bounded : Bounded item.1 item.2)
    (name : NameInside joliet item.1 item.2) (link : LinkInside item.1 item.2) :
    (findVisitor joliet wanted).visit item.1 item.2 (some (collected, record)) =
      supplied (if stringsEqualCi (entryOf joliet item).name collected = true then
        (appendExtent record (entryOf joliet item).record).map fun result =>
          if (entryOf joliet item).record.isMultiExtent = true then .inl (some (collected, result)) else .inr result
        else none) := by
  dsimp only [findVisitor]
  rw [directoryRecordName_eq bounded name, ok_bind]
  split
  next same =>
    rw [demand_holds same, ok_bind, parseRecord_eq bounded link, ok_bind]
    cases appendExtent record (entryOf joliet item).record with
    | none => rfl
    | some result => rfl
  next other =>
    rw [demand_fails other]
    rfl

theorem visit_looking {wanted : Name} (bounded : Bounded item.1 item.2)
    (name : NameInside joliet item.1 item.2)
    (link : LinkInside item.1 item.2) :
    (findVisitor joliet wanted).visit item.1 item.2 none =
      .ok (if stringsEqualCi (entryOf joliet item).name wanted = true then
        if (entryOf joliet item).record.isMultiExtent = true then
          .inl (some ((entryOf joliet item).name, (entryOf joliet item).record))
        else .inr (entryOf joliet item).record
        else .inl none) := by
  dsimp only [findVisitor]
  rw [directoryRecordName_eq bounded name, ok_bind]
  split
  next =>
    rw [parseRecord_eq bounded link, ok_bind]
    rfl
  next => rfl

theorem visitAll_joined {wanted collected : Name} {after : Option (Name × Record) → Run Record}
    {items : List Item}
    {record : Record} (multi : record.isMultiExtent = true)
    (ends : ∀ record, record.isMultiExtent = true → after (some (collected, record)) = .error .refused)
    (inside : ∀ item ∈ items, Bounded item.1 item.2 ∧ NameInside joliet item.1 item.2 ∧ LinkInside item.1 item.2) :
    visitAll (findVisitor joliet wanted) after items (some (collected, record)) =
      supplied (joined collected record (items.map (entryOf joliet))) := by
  induction items generalizing record with
  | nil =>
    rw [List.map_nil, joined, if_pos multi]
    exact ends record multi
  | cons item rest ih =>
    obtain ⟨⟨bounded, name, link⟩, later⟩ := List.forall_mem_cons.mp inside
    rw [List.map_cons, joined, if_pos multi, visitAll_cons _ _ rfl, visit_collecting bounded name link]
    by_cases same : stringsEqualCi (entryOf joliet item).name collected = true
    · rw [if_pos same, if_pos same]
      cases appended : appendExtent record (entryOf joliet item).record with
      | none => rfl
      | some result =>
        have flag := isMultiExtent_appendExtent appended
        by_cases more : (entryOf joliet item).record.isMultiExtent = true
        · rw [Option.map_some, if_pos more]
          exact ih (flag.trans more) later
        · rw [Option.map_some, if_neg more, Option.bind_some, joined_single (by rwa [flag])]
          rfl
    · rw [if_neg same, if_neg same]
      rfl

theorem visitAll_lookup {wanted : Name} {after : Option (Name × Record) → Run Record} {items : List Item}
    (none : after none = .error .refused)
    (ends : ∀ collected record, record.isMultiExtent = true → after (some (collected, record)) = .error .refused)
    (inside : ∀ item ∈ items, Bounded item.1 item.2 ∧ NameInside joliet item.1 item.2 ∧ LinkInside item.1 item.2) :
    visitAll (findVisitor joliet wanted) after items .none =
      supplied (lookup wanted (items.map (entryOf joliet))) := by
  induction items with
  | nil => exact none
  | cons item rest ih =>
    obtain ⟨⟨bounded, name, link⟩, later⟩ := List.forall_mem_cons.mp inside
    rw [List.map_cons, lookup, visitAll_cons _ _ rfl, visit_looking bounded name link, ok_bind]
    by_cases same : stringsEqualCi (entryOf joliet item).name wanted = true
    · rw [if_pos same, if_pos same]
      by_cases more : (entryOf joliet item).record.isMultiExtent = true
      · rw [if_pos more]
        exact visitAll_joined more (ends _) later
      · rw [if_neg more, joined_single more]
        rfl
    · rw [if_neg same, if_neg same]
      exact ih later

/-- What a listing does with a record. -/
def listed (entry : Entry) (s : List FileInfo × Option Name) : List FileInfo × Option Name :=
  if s.2.any (stringsEqualCi entry.name) = true then (s.1, if entry.record.isMultiExtent then s.2 else none)
  else (s.1 ++ [fileInfo entry.name entry.record], if entry.record.isMultiExtent then some entry.name else none)

theorem listed_length (entry : Entry) (s : List FileInfo × Option Name) :
    (listed entry s).1.length ≤ s.1.length + 1 := by
  unfold listed
  split
  next => exact Nat.le_succ _
  next => rw [List.length_append, List.length_singleton]

theorem visit_listed {capacity : Nat} {s : List FileInfo × Option Name} (bounded : Bounded item.1 item.2)
    (name : NameInside joliet item.1 item.2) (link : LinkInside item.1 item.2) :
    (listVisitor joliet capacity).visit item.1 item.2 s = .ok (.inl (listed (entryOf joliet item) s)) := by
  dsimp only [listVisitor]
  rw [parseRecord_eq bounded link]
  dsimp only [tried]
  rw [ok_bind]
  dsimp only
  rw [directoryRecordName_eq bounded name, ok_bind, listed]
  split
  next => rfl
  next => rfl

end Entries

section Directories

variable {context : Context} {directory : Record} {steps : Nat}

theorem Sound.items (sound : Sound context directory) : ∀ item ∈ itemsOf context.device directory,
      Bounded item.1 item.2 ∧ NameInside context.joliet item.1 item.2 ∧ LinkInside item.1 item.2 :=
  fun item member => ⟨bounded_of_mem member, sound.inside item member⟩

theorem enough_steps (enough : 2 ^ 21 < steps) :
    ∃ more, steps = 2 ^ 21 + (more + 1) := ⟨steps - 2 ^ 21 - 1, by omega⟩

/-- A lookup in a directory is one in its list of names and records. -/
theorem findInDirectory_eq (sound : Sound context directory) (enough : 2 ^ 21 < steps)
    (isDirectory : directory.isDirectory = true) (name : Name) :
    findInDirectory steps context directory name = supplied (lookup name (entriesOf context directory)) := by
  obtain ⟨more, rfl⟩ := enough_steps enough
  rw [findInDirectory, demand_holds isDirectory, ok_bind, walk_eq]
  refine visitAll_lookup ?_ (fun collected record multi => ?_) sound.items
  · cases last : endingOf context.device directory with
    | stop => rfl
    | last => rfl
    | wrapped => exact absurd last sound.ends
  · cases last : endingOf context.device directory with
    | stop => rfl
    | last =>
      dsimp only [ending, findVisitor]
      rw [multi]
      rfl
    | wrapped => exact absurd last sound.ends

theorem findRecord_root : findRecord steps context [] = .ok context.root := rfl

/-- A name at the end of a path is looked up in what the path leads to. -/
theorem findRecord_append {path name : Name} (component : Component name)
    (found : findRecord steps context path = .ok directory) :
    findRecord steps context (path ++ SLASH :: name) = findInDirectory steps context directory name := by
  unfold findRecord at found ⊢
  rw [followPath_eq] at found ⊢
  rw [components, Components.split_append component, List.foldlM_append, found, ok_bind, List.foldlM_cons]
  cases findInDirectory steps context directory name with
  | error stop => rfl
  | ok record => rfl

end Directories

end AsasOs.Iso9660
