import AsasOs.Iso9660.Lookup

/-!
# ISO 9660 volumes that are read inside the buffers

Whatever is on a disk, calls stay inside the buffers and end, unless a record says that its name goes on behind the
sector, a symbolic link has a component that takes the place of the terminator, or a directory goes up to the end of the
32-bit offsets.

## Main results

- `VolumeInside`: no such record or directory can be reached.
- `volume_safe_iff`: mounting a device, and every call on the volume, ends and stays inside the buffers just if that is
  so of the root records and of what can be reached.
-/
namespace AsasOs.Iso9660

open Bytes Checked Optical

/-- A call on a mounted volume. -/
inductive Call where
  | resolve (path : Name)
  | readFile (path : Name) (capacity : Nat)
  | listDirectory (path : Name) (capacity : Nat)

def Call.path : Call → Name
  | .resolve path => path
  | .readFile path _ => path
  | .listDirectory path _ => path

/-- A call, without its result. -/
def Call.run (steps : Nat) (context : Context) : Call → Run Unit
  | .resolve path => findRecord steps context path >>= fun _ => pure ()
  | .readFile path capacity => iso9660ContextReadFile steps context path capacity >>= fun _ => pure ()
  | .listDirectory path capacity => iso9660ContextListDirectory steps context path capacity >>= fun _ => pure ()

/-- A run ends and stays inside its buffers, with enough steps for its loops. -/
def Ends {α : Type} (run : Nat → Run α) : Prop := ∃ enough, ∀ steps ≥ enough, Safe (run steps) fun _ => True

/-- Every call on a volume ends and stays inside the buffers. -/
def CallsEnd (context : Context) : Prop := ∀ call : Call, 0 ∉ call.path → Ends fun steps => call.run steps context

/-- Mounting a device, and every call on the volume, ends and stays inside the buffers. -/
structure ReaderEnds (device : Device) : Prop where
  create : Safe (iso9660ContextCreate device) fun _ => True
  calls : ∀ context, iso9660ContextCreate device = .ok context → CallsEnd context

/-- The records that a path leads to. -/
inductive Reached (context : Context) : Record → Prop
  | root : Reached context context.root
  | child {directory record : Record} {name : Name} (reached : Reached context directory)
      (isDirectory : directory.isDirectory = true) (component : Component name) (terminated : 0 ∉ name)
      (found : lookup name (entriesOf context directory) = some record) : Reached context record

/-- The directories that calls come to end, and their records are read inside the buffers. -/
def VolumeInside (context : Context) : Prop :=
  ∀ directory, Reached context directory → directory.isDirectory = true → Sound context directory

/-! ### Mounting -/

/-- The record of the root directory in a descriptor is read inside its buffers. -/
def RootInside (sector : Memory) : Prop := 34 ≤ (sector 156).toNat → LinkInside sector 156

/-- So are those of the Joliet descriptors, up to the one that is taken. -/
def JolietInside (device : Device) : List Nat → Prop
  | [] => True
  | descriptor :: rest =>
    ∀ sector, sectorOf device descriptor = some sector → isStandard sector = true → sector 0 ≠ 255 →
      if isJoliet sector = true then RootInside sector ∧ ((sector 156).toNat < 34 → JolietInside device rest)
      else JolietInside device rest

def RootsInside (device : Device) : Prop :=
  512 ≤ device.blockSize ∧ device.blockSize ≤ 4096 → ∀ sector, sectorOf device 16 = some sector →
    sector 0 = 1 ∧ isStandard sector = true ∧ sector 6 = 1 ∧ wordAt sector 128 2 = 2048 →
      RootInside sector ∧ (34 ≤ (sector 156).toNat → JolietInside device (List.range' 17 47))

section Mounting

variable {device : Device} {sector : Memory}

theorem bounded_root (header : 34 ≤ (sector 156).toNat) : Bounded sector 156 :=
  ⟨by have byte := (sector 156).toNat_lt; omega, header⟩

theorem parseRecord_short {start : Nat} (inside : start < 2048) (short : (sector start).toNat < 34) :
    parseRecord sector start = .error .refused := by
  have refused : ¬¬sector start < 34 := not_not.mpr (UInt8.lt_iff_toNat_lt.mpr short)
  rw [parseRecord, peek_eq inside, ok_bind, demand_fails refused]
  rfl

theorem safe_findJoliet_iff (root : Record) (descriptors : List Nat) :
    Safe (findJoliet device root descriptors) (fun _ => True) ↔ JolietInside device descriptors := by
  induction descriptors with
  | nil => exact iff_of_true trivial trivial
  | cons descriptor rest ih =>
    rw [findJoliet, readIsoSector_eq, JolietInside]
    cases given : sectorOf device descriptor with
    | none => exact iff_of_true trivial nofun
    | some sector =>
      dsimp only [supplied, tried]
      rw [ok_bind]
      dsimp only
      have here : (∀ other, some sector = some other → isStandard other = true → other 0 ≠ 255 →
            if isJoliet other = true then RootInside other ∧ ((other 156).toNat < 34 → JolietInside device rest)
            else JolietInside device rest) ↔ (isStandard sector = true → sector 0 ≠ 255 →
          if isJoliet sector = true then RootInside sector ∧ ((sector 156).toNat < 34 → JolietInside device rest)
          else JolietInside device rest) :=
        ⟨fun all => all sector rfl, fun one other same => by cases same; exact one⟩
      rw [here]
      split
      next last =>
        refine iff_of_true trivial fun standard other => ?_
        exact absurd last fun or => or.elim (fun none => Bool.noConfusion (none.symm.trans standard)) other
      next on =>
        obtain ⟨standard, other⟩ := not_or.mp on
        rw [forall_prop_of_true (Bool.eq_true_of_not_eq_false standard), forall_prop_of_true other]
        split
        next =>
          by_cases header : 34 ≤ (sector 156).toNat
          · rw [and_iff_left fun less => absurd header (Nat.not_le.mpr less)]
            have given := given_parseRecord (bounded_root header)
            by_cases inside : LinkInside sector 156
            · obtain ⟨record, same⟩ := given.gives inside
              rw [same]
              exact iff_of_true trivial fun _ => inside
            · rw [given.leaves inside]
              exact iff_of_false (fun safe => Stop.noConfusion safe) fun root => inside (root header)
          · rw [parseRecord_short (by decide) (by omega), ← ih,
              forall_prop_of_true (by omega)]
            exact (and_iff_right fun enough => absurd enough header).symm
        next => exact ih

theorem safe_create_iff : Safe (iso9660ContextCreate device) (fun _ => True) ↔ RootsInside device := by
  unfold iso9660ContextCreate iso9660Probe RootsInside
  rw [readIsoSector_eq, bind_assoc]
  by_cases sized : 512 ≤ device.blockSize ∧ device.blockSize ≤ 4096
  · rw [demand_holds sized, ok_bind, forall_prop_of_true sized, bind_assoc]
    cases sectorOf device 16 with
    | none => exact iff_of_true rfl nofun
    | some sector =>
      dsimp only [supplied]
      rw [ok_bind, ok_bind]
      have here {p : Memory → Prop} : (∀ other, some sector = some other → p other) ↔ p sector :=
        ⟨fun all => all sector rfl, fun one other same => by cases same; exact one⟩
      rw [here]
      by_cases volume : sector 0 = 1 ∧ isStandard sector = true ∧ sector 6 = 1 ∧ wordAt sector 128 2 = 2048
      · rw [demand_holds volume, ok_bind, forall_prop_of_true volume, safe_bind_iff]
        by_cases header : 34 ≤ (sector 156).toNat
        · have given := given_parseRecord (bounded_root header)
          rw [forall_prop_of_true header]
          by_cases inside : LinkInside sector 156
          · obtain ⟨record, same⟩ := given.gives inside
            rw [same]
            exact (safe_findJoliet_iff record _).trans (and_iff_right fun _ => inside).symm
          · rw [given.leaves inside]
            exact iff_of_false (fun safe => Stop.noConfusion safe) fun both => inside (both.1 header)
        · rw [parseRecord_short (by decide) (by omega)]
          exact iff_of_true rfl ⟨fun enough => absurd enough header, fun enough => absurd enough header⟩
      · rw [demand_fails volume]
        exact iff_of_true rfl fun other => absurd other volume
  · rw [demand_fails sized]
    exact iff_of_true rfl fun other => absurd other sized

end Mounting

/-! ### Volumes that are inside -/

section Inside

variable {context : Context} {steps : Nat}

theorem lookup_eq (inside : VolumeInside context) (enough : 2 ^ 21 < steps) {directory : Record}
    (reached : Reached context directory) (name : Name) :
    findInDirectory steps context directory name =
      supplied (if directory.isDirectory = true then lookup name (entriesOf context directory) else none) := by
  split
  next folder => exact findInDirectory_eq (inside directory reached folder) enough folder name
  next other =>
    rw [findInDirectory, demand_fails other]
    rfl

theorem findRecord_safe (inside : VolumeInside context) (enough : 2 ^ 21 < steps) {path : Name}
    (terminated : 0 ∉ path) : Safe (findRecord steps context path) (Reached context) := by
  rw [findRecord, followPath_eq]
  refine safe_foldlM (fun directory reached name member => ?_) context.root .root
  rw [lookup_eq inside enough reached]
  refine safe_mono safe_supplied fun record found => ?_
  split at found
  next folder =>
    exact .child reached folder (Components.split_component (by decide) member)
      (fun zero => terminated (Components.split_subset member zero)) found
  next => cases found

theorem readExtent_safe {device : Device} {capacity : Nat} {s extent : Nat × Nat}
    (room : s.1 + s.2 ≤ capacity) :
    Safe (readExtent device capacity s extent) fun s' => s'.1 + s'.2 ≤ capacity := by
  unfold readExtent
  split
  next =>
    dsimp only
    rw [access_inside (by omega), ok_bind]
    exact safe_bind (readBytes_safe device _ _) fun _ _ => safe_pure (by dsimp only; omega)
  next => exact safe_pure room

theorem readFile_safe (inside : VolumeInside context) (enough : 2 ^ 21 < steps) {path : Name}
    (terminated : 0 ∉ path) (capacity : Nat) :
    Safe (iso9660ContextReadFile steps context path capacity) fun _ => True := by
  refine safe_bind (findRecord_safe inside enough terminated) fun record _ => ?_
  refine safe_bind safe_demand fun _ _ => ?_
  split
  next =>
    dsimp only
    rw [access_inside (by omega), ok_bind]
    exact safe_pure trivial
  next =>
    dsimp only
    refine safe_bind (@safe_foldlM _ _ _ _ (fun s => s.1 + s.2 ≤ capacity) (fun s room extent _ => readExtent_safe room)
      (0, min capacity record.size) ?_) fun s _ => safe_bind safe_demand fun _ _ => safe_pure trivial
    dsimp only
    omega

theorem listDirectory_safe (inside : VolumeInside context) (enough : 2 ^ 21 < steps) {path : Name}
    (terminated : 0 ∉ path) (capacity : Nat) :
    Safe (iso9660ContextListDirectory steps context path capacity) fun _ => True := by
  refine safe_bind safe_demand fun _ _ => safe_bind (findRecord_safe inside enough terminated) fun directory reached => ?_
  refine safe_bind safe_demand fun _ folder => ?_
  have sound := inside directory reached folder
  obtain ⟨more, rfl⟩ := enough_steps enough
  rw [walk_eq]
  refine visitAll_safe _ (fun item member s => ?_) (fun s => ?_) fun s => safe_pure trivial
  · obtain ⟨bounded, name, link⟩ := sound.items item member
    rw [visit_listed bounded name link]
    trivial
  · cases last : endingOf context.device directory with
    | stop => exact safe_pure trivial
    | last => exact safe_pure trivial
    | wrapped => exact absurd last sound.ends

theorem callsEnd_of_inside (inside : VolumeInside context) : CallsEnd context := by
  intro call terminated
  refine ⟨2 ^ 21 + 1, fun steps enough => ?_⟩
  cases call with
  | resolve path => exact safe_bind (findRecord_safe inside enough terminated) fun _ _ => trivial
  | readFile path capacity => exact safe_bind (readFile_safe inside enough terminated capacity) fun _ _ => trivial
  | listDirectory path capacity =>
    exact safe_bind (listDirectory_safe inside enough terminated capacity) fun _ _ => trivial

end Inside

/-! ### Calls that come to every record -/

/-- A name that no record has: longer than those in a field, and of bytes that the others end at. -/
def unmatched : Name := List.replicate 251 SEMICOLON

section Unmatched

variable {joliet : Bool} {sector : Memory} {start : Nat} {out name : Name}

theorem append_ok {bytes : Name} (appended : append out bytes = .ok name) : name = out ++ bytes := by
  obtain ⟨_, -, same⟩ := bind_eq_ok_iff.mp appended
  cases same
  rfl

theorem append_plain {bytes : Name} (plain : SEMICOLON ∉ out) (others : SEMICOLON ∉ bytes)
    (appended : append out bytes = .ok name) : SEMICOLON ∉ name := by
  rw [append_ok appended, List.mem_append]
  exact fun or => or.elim plain others

theorem marked_ne {mark : Nat} (high : mark.testBit 7 = true) (n : Nat) :
    SEMICOLON ≠ UInt8.ofNat (mark ||| n) := by
  intro same
  have bytes : SEMICOLON.toNat = (mark ||| n) % 2 ^ 8 := by
    rw [same, UInt8.toNat_ofNat']
  have bit := congrArg (Nat.testBit · 7) bytes
  simp only [Nat.testBit_mod_two_pow, Nat.testBit_or, high, Bool.true_or] at bit
  exact absurd bit (by decide)

theorem appendUnit_plain {value : Nat} (plain : SEMICOLON ∉ out) (other : value ≠ SEMICOLON.toNat)
    (appended : appendUnit out value = .ok name) : SEMICOLON ∉ name := by
  unfold appendUnit at appended
  split at appended
  next ascii =>
    refine append_plain plain (fun member => other ?_) appended
    rw [List.mem_singleton.mp member, UInt8.toNat_ofNat']
    omega
  next =>
    split at appended
    next =>
      refine append_plain plain (fun member => ?_) appended
      rcases List.mem_cons.mp member with same | member
      · exact marked_ne (by decide) _ same
      · exact marked_ne (by decide) _ (List.mem_singleton.mp member)
    next =>
      split at appended
      next =>
        refine append_plain plain (fun member => ?_) appended
        rcases List.mem_cons.mp member with same | member
        · exact marked_ne (by decide) _ same
        · rcases List.mem_cons.mp member with same | member
          · exact marked_ne (by decide) _ same
          · exact marked_ne (by decide) _ (List.mem_singleton.mp member)
      next =>
        cases appended
        exact plain

theorem copyName_plain {length position : Nat} (plain : SEMICOLON ∉ out)
    (copied : copyName sector length position out = .ok name) : SEMICOLON ∉ name := by
  induction length generalizing position out with
  | zero =>
    cases copied
    exact plain
  | succ length ih =>
    unfold copyName at copied
    split at copied
    next =>
      obtain ⟨value, -, copied⟩ := bind_eq_ok_iff.mp copied
      split at copied
      next =>
        cases copied
        exact plain
      next other =>
        obtain ⟨out', appended, copied⟩ := bind_eq_ok_iff.mp copied
        refine ih (append_plain plain (fun member => other ?_) appended) copied
        exact (List.mem_singleton.mp member).symm
    next =>
      cases copied
      exact plain

theorem copyJolietName_plain {units position : Nat} (plain : SEMICOLON ∉ out)
    (copied : copyJolietName sector units position out = .ok name) : SEMICOLON ∉ name := by
  induction units generalizing position out with
  | zero =>
    cases copied
    exact plain
  | succ units ih =>
    unfold copyJolietName at copied
    split at copied
    next =>
      obtain ⟨high, -, copied⟩ := bind_eq_ok_iff.mp copied
      obtain ⟨low, -, copied⟩ := bind_eq_ok_iff.mp copied
      dsimp only at copied
      split at copied
      next =>
        cases copied
        exact plain
      next other =>
        obtain ⟨out', appended, copied⟩ := bind_eq_ok_iff.mp copied
        exact ih (appendUnit_plain plain other appended) copied
    next =>
      cases copied
      exact plain

theorem trimmed_plain (plain : SEMICOLON ∉ out) (ended : trimmed out = .ok name) : SEMICOLON ∉ name := by
  obtain ⟨_, -, same⟩ := bind_eq_ok_iff.mp ended
  cases same
  intro member
  have inside := (List.takeWhile_prefix _).subset member
  split at inside
  next => exact plain ((List.dropLast_prefix _).subset inside)
  next => exact plain inside

theorem recordNameToUtf8_plain {position length : Nat}
    (named : recordNameToUtf8 joliet sector position length = .ok name) :
    SEMICOLON ∉ name := by
  unfold recordNameToUtf8 at named
  split at named
  next =>
    obtain ⟨out, copied, named⟩ := bind_eq_ok_iff.mp named
    exact trimmed_plain (copyJolietName_plain List.not_mem_nil copied) named
  next =>
    obtain ⟨out, copied, named⟩ := bind_eq_ok_iff.mp named
    exact trimmed_plain (copyName_plain List.not_mem_nil copied) named

theorem lowerChar_semicolon {value : UInt8} (same : lowerChar value = SEMICOLON) :
    value = SEMICOLON := by
  unfold lowerChar at same
  split at same
  next upper =>
    obtain ⟨least, most⟩ := upper
    rw [UInt8.le_iff_toNat_le] at least most
    have sum := congrArg UInt8.toNat same
    rw [UInt8.toNat_add] at sum
    change 65 ≤ value.toNat at least
    change value.toNat ≤ 90 at most
    change (value.toNat + 32) % 256 = 59 at sum
    omega
  next => exact same

theorem not_unmatched (bounded : Bounded sector start)
    (named : directoryRecordName joliet sector start = .ok name) :
    ¬stringsEqualCi name unmatched = true := by
  intro same
  have lower : name.map lowerChar = unmatched.map lowerChar := eq_of_beq same
  have sizes : name.length = 251 := by
    have lengths := congrArg List.length lower
    rwa [List.length_map, List.length_map, unmatched, List.length_replicate] at lengths
  obtain ⟨found, field, short⟩ := rockRidgeName_eq bounded
  unfold directoryRecordName at named
  rw [field, ok_bind] at named
  cases found with
  | some other =>
    cases named
    have fewer := short name rfl
    omega
  | none =>
    obtain ⟨length, -, named⟩ := bind_eq_ok_iff.mp named
    have plain := recordNameToUtf8_plain named
    cases name with
    | nil => cases sizes
    | cons first rest =>
      rw [unmatched, List.map_replicate, List.map_cons, List.replicate_succ] at lower
      exact plain (List.mem_cons.mpr (Or.inl (lowerChar_semicolon (List.cons.inj lower).1).symm))

theorem component_unmatched : Component unmatched where
  some := by
    rw [unmatched, List.replicate_succ]
    exact List.cons_ne_nil _ _
  plain member := absurd (List.eq_of_mem_replicate member) (by decide)
  fits := (List.length_replicate ..).le.trans (by decide)

end Unmatched

section Visits

variable {context : Context} {joliet : Bool} {items : List Item}

theorem names_of_safe {after : Option (Name × Record) → Run Record}
    (bounded : ∀ item ∈ items, Bounded item.1 item.2)
    (safe : Safe (visitAll (findVisitor joliet unmatched) after items none) fun _ => True) :
    ∀ item ∈ items, NameInside joliet item.1 item.2 ∧
      (findVisitor joliet unmatched).visit item.1 item.2 none = .ok (.inl none) := by
  induction items with
  | nil => exact nofun
  | cons item rest ih =>
    obtain ⟨here, later⟩ := List.forall_mem_cons.mp bounded
    rw [visitAll_cons _ _ rfl] at safe
    have given := @given_directoryRecordName item.1 item.2 joliet here
    by_cases inside : NameInside joliet item.1 item.2
    · have passed : (findVisitor joliet unmatched).visit item.1 item.2 none = .ok (.inl none) := by
        obtain ⟨name, named⟩ := given.gives inside
        dsimp only [findVisitor]
        rw [named, ok_bind, if_neg (not_unmatched here named)]
        rfl
      rw [passed] at safe
      exact List.forall_mem_cons.mpr ⟨⟨inside, passed⟩, ih later safe⟩
    · have outside : (findVisitor joliet unmatched).visit item.1 item.2 none = .error .outside := by
        dsimp only [findVisitor]
        rw [given.leaves inside]
        rfl
      rw [outside] at safe
      exact Stop.noConfusion safe

theorem links_of_safe {capacity : Nat} {after : List FileInfo × Option Name → Run (List FileInfo)}
    (bounded : ∀ item ∈ items, Bounded item.1 item.2)
    (names : ∀ item ∈ items, NameInside joliet item.1 item.2)
    {s : List FileInfo × Option Name} (room : s.1.length + items.length < capacity)
    (safe : Safe (visitAll (listVisitor joliet capacity) after items s) fun _ => True) :
    ∀ item ∈ items, LinkInside item.1 item.2 := by
  induction items generalizing s with
  | nil => exact nofun
  | cons item rest ih =>
    obtain ⟨here, later⟩ := List.forall_mem_cons.mp bounded
    obtain ⟨name, others⟩ := List.forall_mem_cons.mp names
    rw [List.length_cons] at room
    have more : (listVisitor joliet capacity).more s = true := decide_eq_true (by omega)
    rw [visitAll_cons _ _ more] at safe
    by_cases inside : LinkInside item.1 item.2
    · rw [visit_listed here name inside] at safe
      have longer := listed_length (entryOf joliet item) s
      exact List.forall_mem_cons.mpr ⟨inside, ih later others (by omega) safe⟩
    · have outside : (listVisitor joliet capacity).visit item.1 item.2 s = .error .outside := by
        dsimp only [listVisitor]
        rw [(given_parseRecord here).leaves inside]
        rfl
      rw [outside] at safe
      exact Stop.noConfusion safe

theorem sound_of_calls (calls : CallsEnd context) {path : Name} (terminated : 0 ∉ path)
    {directory : Record}
    (isDirectory : directory.isDirectory = true)
    (found : ∀ steps, 2 ^ 21 < steps → findRecord steps context path = .ok directory) :
    Sound context directory := by
  have looked : ∃ steps, Safe (walk (findVisitor context.joliet unmatched) (2 ^ 21 + (steps + 1)) context.device
      directory none) fun _ => True := by
    obtain ⟨enough, settled⟩ := calls (.resolve (path ++ SLASH :: unmatched)) (by
      rw [Call.path, List.mem_append, List.mem_cons]
      rintro (zero | zero | zero)
      · exact terminated zero
      · exact absurd zero (by decide)
      · exact absurd (List.eq_of_mem_replicate zero) (by decide))
    refine ⟨enough, ?_⟩
    have safe : Safe (findRecord (2 ^ 21 + (enough + 1)) context (path ++ SLASH :: unmatched) >>= fun _ => pure ())
        fun _ => True := settled _ (by omega)
    rw [safe_discard_iff, findRecord_append component_unmatched (found _ (by omega)), findInDirectory,
      demand_holds isDirectory, ok_bind] at safe
    exact safe
  obtain ⟨steps, safe⟩ := looked
  have visited := safe
  rw [walk_eq] at visited
  have names := names_of_safe (fun item member => bounded_of_mem member) visited
  refine ⟨fun wrapped => ?_, fun item member => ⟨(names item member).1, ?_⟩⟩
  · rw [walk_wrapped rfl (fun item member => (names item member).2) wrapped] at safe
    exact Stop.noConfusion safe
  · obtain ⟨enough, settled⟩ := calls
      (.listDirectory path ((itemsOf context.device directory).length + 1)) terminated
    have safe : Safe (iso9660ContextListDirectory (2 ^ 21 + (enough + 1)) context path
        ((itemsOf context.device directory).length + 1) >>= fun _ => pure ()) fun _ => True := settled _ (by omega)
    rw [safe_discard_iff, iso9660ContextListDirectory, demand_holds (Nat.succ_ne_zero _), ok_bind,
      found _ (by omega), ok_bind, demand_holds isDirectory, ok_bind, walk_eq] at safe
    exact links_of_safe (fun item member => bounded_of_mem member) (fun item member => (names item member).1)
      (by simp) safe item member

theorem Reached.path {record : Record} (calls : CallsEnd context) (reached : Reached context record) :
    ∃ path, 0 ∉ path ∧ ∀ steps, 2 ^ 21 < steps → findRecord steps context path = .ok record := by
  induction reached with
  | root => exact ⟨[], List.not_mem_nil, fun _ _ => findRecord_root⟩
  | @child directory record name _ isDirectory component terminated found ih =>
    obtain ⟨path, clean, leads⟩ := ih
    have sound := sound_of_calls calls clean isDirectory leads
    refine ⟨path ++ SLASH :: name, ?_, fun steps enough => ?_⟩
    · rw [List.mem_append, List.mem_cons]
      rintro (zero | zero | zero)
      · exact clean zero
      · exact absurd zero (by decide)
      · exact terminated zero
    · rw [findRecord_append component (leads steps enough), findInDirectory_eq sound enough isDirectory, found]
      rfl

theorem inside_of_callsEnd (calls : CallsEnd context) : VolumeInside context := by
  intro directory reached isDirectory
  obtain ⟨path, terminated, leads⟩ := reached.path calls
  exact sound_of_calls calls terminated isDirectory leads

end Visits

/-- Mounting a device and calls on the volume end and stay inside the buffers just if the records that can be reached
are read inside them, and the directories end. -/
theorem volume_safe_iff (device : Device) : ReaderEnds device ↔
      RootsInside device ∧ ∀ context, iso9660ContextCreate device = .ok context →
      VolumeInside context := by
  constructor
  · rintro ⟨create, calls⟩
    exact ⟨safe_create_iff.mp create, fun context mounted => inside_of_callsEnd (calls context mounted)⟩
  · rintro ⟨roots, inside⟩
    exact ⟨safe_create_iff.mpr roots, fun context mounted => callsEnd_of_inside (inside context mounted)⟩

/-- A volume descriptor whose root directory is the sector 20. -/
def rootSector : Memory := fun i =>
  [1, 0x43, 0x44, 0x30, 0x30, 0x31, 1].getD i <|
    if i = 129 then 8 else if i = 156 then 34 else if i = 158 then 20 else if i = 167 then 8 else if i = 181 then 2 else 0

/-- A directory with seven records for itself, and a last one that says that its name has 255 bytes. -/
def overlongSector : Memory := fun i =>
  if i < 1785 then if i % 255 = 0 then 255 else if i % 255 = 32 then 1 else 0
  else if i = 1785 then 34 else if i = 1817 then 255 else 0

def overlongDevice : Device where
  blockSize := 2048
  read n := if n = 16 then some rootSector else if n = 20 then some overlongSector else none

/-- The name of the last record is read behind the sector. -/
theorem reader_leaves : ¬∀ device, ReaderEnds device := by
  intro all
  have mounted : iso9660ContextCreate overlongDevice =
      .ok ⟨overlongDevice, ⟨[(20, 2048)], 20, 2048, 2, none, [], none⟩, false⟩ := rfl
  have sound := inside_of_callsEnd ((all overlongDevice).calls _ mounted) _ .root rfl
  have given : sectorOf overlongDevice 20 = some overlongSector := by
    refine (rfl : sectorOf overlongDevice 20 =
      some fun i => if 0 ≤ i ∧ i < 2048 then overlongSector (0 + (i - 0)) else 0).trans (congrArg some (funext fun i => ?_))
    change (if 0 ≤ i ∧ i < 2048 then overlongSector (0 + (i - 0)) else 0) = overlongSector i
    split
    next => rw [Nat.zero_add, Nat.sub_zero]
    next behind => rw [overlongSector, if_neg (by omega), if_neg (by omega), if_neg (by omega)]
  have member : (overlongSector, 1785) ∈ itemsOf overlongDevice ⟨[(20, 2048)], 20, 2048, 2, none, [], none⟩ :=
    mem_itemsFrom_first (by decide) given (by decide)
  have name := (sound.inside _ member).1 (by decide)
  have within (length position : Nat) (copied : CopiedInside overlongSector length position) :
      position + length ≤ 2048 ∨ length = 0 := by
    induction length generalizing position with
    | zero => exact Or.inr rfl
    | succ length ih =>
      obtain ⟨inside, last | more⟩ := copied
      · unfold overlongSector at last
        split_ifs at last <;> exact absurd last (by decide)
      · rcases ih _ more with fits | rfl
        · exact Or.inl (by omega)
        · exact Or.inl inside
  rcases within _ _ name with fits | none
  · exact absurd fits (by decide)
  · exact absurd none (by decide)

end AsasOs.Iso9660
