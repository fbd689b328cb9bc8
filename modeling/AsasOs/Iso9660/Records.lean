import AsasOs.Iso9660.Volume

/-!
# Records of ISO 9660 directories

Reading a sector is safe, and so are the reads inside a record. A name that is behind the record's header may be said
to go on behind the end of the sector, and the text of a symbolic link is put together in a buffer where the
separators are not counted. So these are what decides whether a record is read inside.

## Main results

- `readIsoSector_eq`: a sector is given, or not.
- `fields_eq`: the fields of a record are visited one after the other.
- `given_directoryRecordName`, `given_parseRecord`: when a record is read inside its buffers.
-/
namespace AsasOs.Iso9660

open Bytes Checked Optical

/-! ### Sectors -/

theorem readBytes_safe (device : Device) (byteOffset size : Nat) :
    Safe (readBytes device byteOffset size) fun _ => True := by
  unfold readBytes
  refine safe_bind safe_demand fun _ sized => ?_
  refine @safe_iterate _ _ _ (fun s => s.1 ≤ size) _ (fun s => size - s.1) ?_ _ _ (Nat.zero_le _) (by simp)
  rintro ⟨copied, out⟩ within
  unfold readBody
  dsimp only at within ⊢
  split
  next more =>
    have skip : (byteOffset + copied) % device.blockSize < device.blockSize := Nat.mod_lt _ (by omega)
    refine safe_bind safe_supplied fun block _ => ?_
    rw [access_inside (by omega), ok_bind, access_inside (by omega), ok_bind]
    exact safe_pure ⟨by dsimp only; omega, by dsimp only; omega⟩
  next => exact safe_pure trivial

def sectorOf (device : Device) (sector : Nat) : Option Memory := (readIsoSector device sector).toOption

theorem readIsoSector_eq (device : Device) (sector : Nat) :
    readIsoSector device sector = supplied (sectorOf device sector) :=
  eq_supplied (readBytes_safe device _ _)

section Peeks

variable {sector : Memory} {i width : Nat}

theorem peek_eq (inside : i < 2048) : peek sector i = .ok (sector i) := by
  rw [peek, access_inside (by omega)]
  rfl

theorem peek_outside (outside : ¬i < 2048) : peek sector i = .error .outside := by
  rw [peek, access, if_neg (by omega)]
  rfl

theorem peekWord_eq (inside : i + width ≤ 2048) :
    peekWord sector i width = .ok (wordAt sector i width) := by
  rw [peekWord, access_inside inside]
  rfl

theorem isField_eq {first second : UInt8} (inside : i + 2 ≤ 2048) :
    isField sector i first second = .ok (sector i == first && sector (i + 1) == second) := by
  rw [isField, peek_eq (by omega), ok_bind, peek_eq (by omega)]
  rfl

end Peeks

/-! ### Fields -/

/-- A record with its length, inside the sector. -/
structure Bounded (sector : Memory) (start : Nat) : Prop where
  inside : start + (sector start).toNat ≤ 2048
  header : 34 ≤ (sector start).toNat

/-- The fields from an offset on: their positions, lengths and versions. -/
def fieldsFrom (sector : Memory) (start : Nat) : Nat → Nat → List (Nat × Nat × UInt8)
  | 0, _ => []
  | more + 1, offset =>
    if offset + 4 ≤ (sector start).toNat then
      let length := (sector (start + offset + 2)).toNat
      if length < 4 ∨ offset + length > (sector start).toNat then []
      else (start + offset, length, sector (start + offset + 3)) :: fieldsFrom sector start more (offset + length)
    else []

def fieldsOf (sector : Memory) (start : Nat) : List (Nat × Nat × UInt8) :=
  fieldsFrom sector start 64
    (33 + (sector (start + 32)).toNat + if (sector (start + 32)).toNat % 2 = 0 then 1 else 0)

def visitFields {σ ρ : Type} (visit : σ → Nat → Nat → UInt8 → Run (σ ⊕ ρ)) (last : σ → ρ) :
    List (Nat × Nat × UInt8) → σ → Run ρ
  | [], s => .ok (last s)
  | field :: rest, s => visit s field.1 field.2.1 field.2.2 >>= Sum.elim (visitFields visit last rest) .ok

section Fields

variable {sector : Memory} {start : Nat}

theorem mem_fieldsFrom {more offset : Nat} {field : Nat × Nat × UInt8}
    (member : field ∈ fieldsFrom sector start more offset) :
    field.1 + field.2.1 ≤ start + (sector start).toNat ∧ 4 ≤ field.2.1 ∧ start + offset ≤ field.1 := by
  induction more generalizing offset with
  | zero => cases member
  | succ more ih =>
    unfold fieldsFrom at member
    split at member
    next =>
      dsimp only at member
      split at member
      next => cases member
      next fits =>
        rcases List.mem_cons.mp member with rfl | later
        · dsimp only
          omega
        · obtain ⟨inside, some, behind⟩ := ih later
          exact ⟨inside, some, by omega⟩
    next => cases member

theorem field_inside (bounded : Bounded sector start) {field : Nat × Nat × UInt8}
    (member : field ∈ fieldsOf sector start) :
    field.1 + field.2.1 ≤ 2048 ∧ 4 ≤ field.2.1 ∧ field.2.1 ≤ 222 := by
  obtain ⟨inside, some, behind⟩ := mem_fieldsFrom member
  have within := bounded.inside
  have byte := (sector start).toNat_lt
  omega

/-- The loop over the fields visits one after the other. -/
theorem fields_eq {σ ρ : Type} (bounded : Bounded sector start)
    (visit : σ → Nat → Nat → UInt8 → Run (σ ⊕ ρ))
    (last : σ → ρ) (init : σ) :
    fields sector start visit last init = visitFields visit last (fieldsOf sector start) init := by
  obtain ⟨inside, header⟩ := bounded
  have byte := (sector start).toNat_lt
  have rounds (more offset : Nat) (s : σ) (enough : (sector start).toNat < offset + 4 * more) (some : 0 < more) :
      iterate (fieldBody sector start (sector start).toNat visit last) more (offset, s) =
        visitFields visit last (fieldsFrom sector start more offset) s := by
    induction more generalizing offset s with
    | zero => omega
    | succ more ih =>
      rw [iterate_succ, fieldBody, fieldsFrom]
      dsimp only
      split
      next field =>
        rw [peek_eq (by omega), ok_bind, peek_eq (by omega), ok_bind]
        split
        next => rfl
        next fits =>
          rw [visitFields]
          dsimp only
          cases visit s (start + offset) (sector (start + offset + 2)).toNat (sector (start + offset + 3)) with
          | error stop => rfl
          | ok next =>
            cases next with
            | inl t => exact ih _ t (by omega) (by omega)
            | inr result => rfl
      next => rfl
  unfold fields
  rw [peek_eq (by omega), ok_bind, peek_eq (by omega), ok_bind]
  exact rounds 64 _ init (by omega) (by decide)

end Fields

/-! ### Names -/

def CopiedInside (sector : Memory) : Nat → Nat → Prop
  | 0, _ => True
  | length + 1, position =>
    position < 2048 ∧ (sector position = SEMICOLON ∨ CopiedInside sector length (position + 1))

def UnitsInside (sector : Memory) : Nat → Nat → Name → Prop
  | 0, _, _ => True
  | units + 1, position, out =>
    out.length + 1 < 256 → position + 1 < 2048 ∧
      ((sector position).toNat * 256 + (sector (position + 1)).toNat = SEMICOLON.toNat ∨
        ∀ out', appendUnit out ((sector position).toNat * 256 + (sector (position + 1)).toNat) =
        .ok out' →
          UnitsInside sector units (position + 2) out')

/-- A record has a name in a field, or what is copied of the one behind its header is in the sector. -/
def NameInside (joliet : Bool) (sector : Memory) (start : Nat) : Prop :=
  rockRidgeName sector start = .ok none →
    if joliet = true then UnitsInside sector ((sector (start + 32)).toNat / 2) (start + 33) []
    else CopiedInside sector (sector (start + 32)).toNat (start + 33)

section Names

variable {sector : Memory} {start : Nat} {joliet : Bool}

theorem rockRidgeName_eq (bounded : Bounded sector start) :
    ∃ found, rockRidgeName sector start = .ok found ∧ ∀ name, found = some name → name.length ≤ 250 := by
  have visits (rest : List (Nat × Nat × UInt8))
      (inside : ∀ field ∈ rest, field.1 + field.2.1 ≤ 2048 ∧ 4 ≤ field.2.1 ∧ field.2.1 ≤ 222) :
      ∃ found, visitFields (visitName sector) (fun _ => none) rest () = .ok found ∧
        ∀ name, found = some name → name.length ≤ 250 := by
    induction rest with
    | nil => exact ⟨none, rfl, nofun⟩
    | cons field rest ih =>
      obtain ⟨here, later⟩ := List.forall_mem_cons.mp inside
      rw [visitFields, visitName, isField_eq (by omega), ok_bind]
      split
      next =>
        have count : (window sector (field.1 + 5) (min (field.2.1 - 5) 255)).length ≤ 217 := by
          rw [window_length]
          omega
        dsimp only
        rw [access_inside (by omega), ok_bind, terminated_eq (by omega)]
        refine ⟨_, rfl, fun name same => ?_⟩
        split at same
        next =>
          cases same
          exact (List.takeWhile_prefix _).length_le.trans (by omega)
        next => cases same
      next => exact ih later
  have accepted : ¬sector start < 34 := by
    rw [UInt8.lt_iff_toNat_lt]
    exact Nat.not_lt.mpr bounded.header
  have inside := bounded.inside
  have header := bounded.header
  rw [rockRidgeName, peek_eq (by omega), ok_bind, if_neg accepted, fields_eq bounded]
  exact visits _ fun field member => field_inside bounded member

theorem given_copyName {length position : Nat} {out : Name} (room : out.length + length ≤ 255) :
    Given (copyName sector length position out) (CopiedInside sector length position) ∧
      ∀ name, copyName sector length position out = .ok name → name.length ≤ 255 := by
  induction length generalizing position out with
  | zero => exact ⟨.ok, fun name same => by cases same; omega⟩
  | succ length ih =>
    rw [copyName, if_pos (by omega)]
    by_cases inside : position < 2048
    · rw [peek_eq inside, ok_bind]
      by_cases last : sector position = SEMICOLON
      · rw [if_pos last]
        exact ⟨.anyway ⟨inside, Or.inl last⟩ ⟨out, rfl⟩,
          fun name same => by cases same; omega⟩
      · rw [if_neg last, append_eq (by simpa using by omega), ok_bind]
        obtain ⟨given, fits⟩ := @ih (position + 1) (out ++ [sector position]) (by simpa using by omega)
        exact ⟨given.congr (by rw [CopiedInside, and_iff_right inside, or_iff_right last]), fits⟩
    · rw [peek_outside inside]
      exact ⟨⟨fun all => absurd all.1 inside, fun _ => rfl⟩, by rintro _ ⟨⟩⟩

theorem given_copyJolietName {units position : Nat} {out : Name} (room : out.length < 256) :
    Given (copyJolietName sector units position out) (UnitsInside sector units position out) ∧
      ∀ name, copyJolietName sector units position out = .ok name → name.length ≤ 255 := by
  induction units generalizing position out with
  | zero => exact ⟨.ok, fun name same => by cases same; omega⟩
  | succ units ih =>
    rw [copyJolietName]
    by_cases more : out.length + 1 < 256
    · rw [if_pos more]
      by_cases inside : position + 1 < 2048
      · rw [peek_eq (by omega), ok_bind, peek_eq inside, ok_bind]
        dsimp only
        by_cases last : (sector position).toNat * 256 + (sector (position + 1)).toNat = SEMICOLON.toNat
        · rw [if_pos last]
          exact ⟨.anyway (fun _ => ⟨inside, Or.inl last⟩) ⟨out, rfl⟩,
            fun name same => by cases same; omega⟩
        · obtain ⟨out', appended, room'⟩ := @appendUnit_safe out
            ((sector position).toNat * 256 + (sector (position + 1)).toNat) more
          rw [if_neg last, appended, ok_bind]
          obtain ⟨given, fits⟩ := @ih (position + 2) out' room'
          refine ⟨given.congr ?_, fits⟩
          rw [UnitsInside, forall_prop_of_true more, and_iff_right inside, or_iff_right last, appended]
          exact ⟨fun all => all out' rfl, fun here other same => by cases same; exact here⟩
      · refine ⟨⟨fun all => absurd (all more).1 inside, fun _ => ?_⟩, fun name same => ?_⟩
        · by_cases first : position < 2048
          · rw [peek_eq first, ok_bind, peek_outside inside]
            rfl
          · rw [peek_outside first]
            rfl
        · by_cases first : position < 2048
          · rw [peek_eq first, ok_bind, peek_outside inside] at same
            cases same
          · rw [peek_outside first] at same
            cases same
    · rw [if_neg more]
      exact ⟨.anyway (fun less => absurd less more) ⟨out, rfl⟩,
        fun name same => by cases same; omega⟩

theorem trimmed_eq {out : Name} (fits : out.length ≤ 255) : ∃ name, trimmed out = .ok name := by
  have shorter : (if out.getLast? = some DOT then out.dropLast else out).length < 256 := by
    split
    next =>
      rw [List.length_dropLast]
      omega
    next => omega
  exact ⟨_, terminated_eq shorter⟩

/-- When the name of a record is read inside its buffers. -/
theorem given_directoryRecordName (bounded : Bounded sector start) :
    Given (directoryRecordName joliet sector start) (NameInside joliet sector start) := by
  obtain ⟨found, named, -⟩ := rockRidgeName_eq bounded
  have inside := bounded.inside
  have header := bounded.header
  unfold NameInside directoryRecordName
  rw [named, ok_bind]
  cases found with
  | some name => exact .anyway nofun ⟨name, rfl⟩
  | none =>
    dsimp only
    rw [peek_eq (by omega), ok_bind, recordNameToUtf8, forall_prop_of_true rfl]
    have byte := (sector (start + 32)).toNat_lt
    split
    next =>
      obtain ⟨given, fits⟩ := @given_copyJolietName sector ((sector (start + 32)).toNat / 2) (start + 33) [] (by simp)
      refine (given.bind fun out same => ?_).congr (and_iff_left fun _ _ => trivial).symm
      exact .anyway trivial (trimmed_eq (fits out same))
    next =>
      obtain ⟨given, fits⟩ := @given_copyName sector (sector (start + 32)).toNat (start + 33) [] (by simp; omega)
      refine (given.bind fun out same => ?_).congr (and_iff_left fun _ _ => trivial).symm
      exact .anyway trivial (trimmed_eq (fits out same))

end Names

/-! ### Symbolic links -/

/-- The bytes of a component that is the directory itself or the root, where the space that is left is not counted. -/
def Uncounted (flags : UInt8) : Prop := flags &&& 0x02 ≠ 0 ∨ flags &&& 0x04 = 0 ∧ flags &&& 0x08 ≠ 0

instance (flags : UInt8) : Decidable (Uncounted flags) := by
  unfold Uncounted
  infer_instance

/-- The length of the text after the separator in front of a component. -/
def separatedLength (count : Nat) : Nat := if count ≠ 0 ∧ count + 1 < 256 then count + 1 else count

/-- The length of the text after a component. -/
def grown (flags : UInt8) (length count : Nat) : Nat :=
  if Uncounted flags then separatedLength count + 1
  else if flags &&& 0x04 ≠ 0 then if separatedLength count + 2 < 256 then separatedLength count + 2 else separatedLength count
  else separatedLength count + min length (255 - separatedLength count)

/-- No component from an offset on, in a text with a number of bytes, takes the place of the terminator: one whose space
is not counted does so where the separator takes the last byte but one. -/
def TextFits (sector : Memory) (position length : Nat) : Nat → Nat → Nat → Prop
  | 0, _, _ => True
  | more + 1, offset, count =>
    offset + 2 ≤ length → count < 255 → offset + 2 + (sector (position + offset + 1)).toNat ≤ length →
      ¬(count = 254 ∧ Uncounted (sector (position + offset))) ∧
        TextFits sector position length more (offset + 2 + (sector (position + offset + 1)).toNat)
          (grown (sector (position + offset)) (sector (position + offset + 1)).toNat count)

/-- A field is not one of a symbolic link, or its text leaves room for the terminator. -/
def FieldInside (sector : Memory) (field : Nat × Nat × UInt8) : Prop :=
  field.2.2 = 1 → sector field.1 = 0x53 ∧ sector (field.1 + 1) = 0x4C → 7 ≤ field.2.1 →
    TextFits sector field.1 field.2.1 128 5 0

/-- The texts of symbolic links in a record leave room for their terminators. -/
def LinkInside (sector : Memory) (start : Nat) :
    Prop := ∀ field ∈ fieldsOf sector start, FieldInside sector field

section Links

variable {sector : Memory} {start position length : Nat} {out : Name} {record : Record}

theorem separatedLength_within {count : Nat} (room : count < 255) :
    separatedLength count ≤ 255 ∧ (separatedLength count = 255 ↔ count = 254) := by
  unfold separatedLength
  split <;> omega

theorem grown_within {flags : UInt8} {count : Nat} (room : count < 255) :
    grown flags length count ≤ 256 ∧
    (grown flags length count = 256 ↔ count = 254 ∧ Uncounted flags) := by
  obtain ⟨within, last⟩ := separatedLength_within room
  unfold grown
  split
  next uncounted =>
    rw [and_iff_left uncounted, ← last]
    omega
  next counted =>
    rw [iff_false_right fun both : count = 254 ∧ Uncounted flags => counted both.2]
    split
    next => split <;> omega
    next => omega

theorem separated_eq (room : out.length < 255) :
    ∃ out', separated out = .ok out' ∧ out'.length = separatedLength out.length := by
  unfold separated separatedLength
  by_cases none : out = []
  · rw [if_neg fun both => both.1 none, if_neg fun both => both.1 (List.length_eq_zero_iff.mpr none)]
    exact ⟨out, rfl, rfl⟩
  · rw [if_pos ⟨none, by omega⟩, if_pos ⟨fun empty => none (List.length_eq_zero_iff.mp empty), by omega⟩]
    exact ⟨_, append_eq (by simpa using by omega), by simp⟩

theorem symlinkComponent_eq {flags : UInt8} (inside : position + length ≤ 2048)
    (room : out.length < 255) :
    ∃ out', symlinkComponent sector position flags length out = .ok out' ∧
      out'.length = grown flags length out.length := by
  obtain ⟨out', same, size⟩ := separated_eq room
  have short := (separatedLength_within room).1
  rw [symlinkComponent, same, ok_bind, grown, ← size]
  rw [← size] at short
  split
  next dot =>
    have uncounted : Uncounted flags := Or.inl dot
    rw [if_pos uncounted]
    exact ⟨_, append_eq (by simpa using by omega), by simp⟩
  next notDot =>
    split
    next parent =>
      have counted : ¬Uncounted flags := fun uncounted => uncounted.elim notDot fun root => parent root.1
      rw [if_neg counted]
      split
      next => exact ⟨_, append_eq (by simpa using by omega), by simp⟩
      next => exact ⟨out', rfl, rfl⟩
    next notParent =>
      split
      next root =>
        have uncounted : Uncounted flags := Or.inr ⟨not_not.mp notParent, root⟩
        rw [if_pos uncounted]
        exact ⟨_, append_eq (by simpa using by omega), by simp⟩
      next notRoot =>
        have counted : ¬Uncounted flags := fun uncounted => uncounted.elim notDot fun root => notRoot root.2
        rw [if_neg counted]
        have count := window_length sector position (min length (255 - out'.length))
        dsimp only
        rw [access_inside (by omega), ok_bind]
        exact ⟨_, append_eq (by omega), by rw [List.length_append, count]⟩

theorem symlinkText_eq (inside : position + length ≤ 2048) (some : 5 ≤ length) (short : length ≤ 222) :
    ∃ out, symlinkText sector position length = .ok out ∧
      (TextFits sector position length 128 5 0 ↔ out.length < 256) := by
  have rounds (more offset : Nat) (out : Name) (fits : out.length < 256) (within : offset ≤ length)
      (enough : length < offset + 2 * more) :
      ∃ out', iterate (symlinkBody sector position length) more (offset, out) = .ok out' ∧
        (TextFits sector position length more offset out.length ↔ out'.length < 256) := by
    induction more generalizing offset out with
    | zero => omega
    | succ more ih =>
      rw [iterate_succ, symlinkBody, TextFits]
      dsimp only
      split
      next component =>
        rw [peek_eq (by omega), ok_bind, peek_eq (by omega), ok_bind, forall_prop_of_true component.1,
          forall_prop_of_true (by omega)]
        split
        next behind => exact ⟨out, rfl, iff_of_true (fun before => absurd before (by omega)) fits⟩
        next before =>
          obtain ⟨out', same, size⟩ := @symlinkComponent_eq sector (position + offset + 2)
            (sector (position + offset + 1)).toNat out (sector (position + offset)) (by omega) (by omega)
          obtain ⟨less, full⟩ := @grown_within (sector (position + offset + 1)).toNat (sector (position + offset))
            out.length (by omega)
          rw [forall_prop_of_true (by omega), ← full, same]
          rw [← size] at less ⊢
          by_cases last : out'.length = 256
          · obtain ⟨more, rfl⟩ : ∃ fewer, more = fewer + 1 := ⟨more - 1, by omega⟩
            refine ⟨out', ?_, iff_of_false (fun both => both.1 last) (by omega)⟩
            refine (iterate_succ _ more _).trans ?_
            rw [symlinkBody, if_neg fun both => absurd both.2 (by dsimp only; omega)]
            rfl
          · rw [and_iff_right last]
            exact ih _ out' (by omega) (by omega) (by omega)
      next done =>
        refine ⟨out, rfl, iff_of_true (fun first room => ?_) fits⟩
        exact absurd ⟨first, by omega⟩ done
  exact rounds 128 5 [] (by decide) some (by omega)

theorem given_rockRidgeParseSl (inside : position + length ≤ 2048) (short : length ≤ 222) :
    Given (rockRidgeParseSl sector position length record)
      (7 ≤ length → TextFits sector position length 128 5 0) := by
  unfold rockRidgeParseSl
  split
  next less => exact .anyway (fun enough => absurd enough (by omega)) ⟨record, rfl⟩
  next enough =>
    obtain ⟨out, text, fits⟩ := @symlinkText_eq sector position length inside (by omega) short
    rw [text, ok_bind, forall_prop_of_true (by omega), fits]
    by_cases room : out.length < 256
    · rw [terminated_eq room]
      exact .anyway room ⟨_, rfl⟩
    · refine ⟨fun fewer => absurd fewer room, fun _ => ?_⟩
      rw [terminated, access, if_neg (by omega)]
      rfl

theorem given_visitMetadata {field : Nat × Nat × UInt8}
    (inside : field.1 + field.2.1 ≤ 2048 ∧ 4 ≤ field.2.1 ∧ field.2.1 ≤ 222) :
    Given (visitMetadata sector record field.1 field.2.1 field.2.2) (FieldInside sector field) ∧
      ∀ next, visitMetadata sector record field.1 field.2.1 field.2.2 = .ok next →
      ∃ record, next = .inl record := by
  obtain ⟨within, some, short⟩ := inside
  have px : ∃ record', rockRidgeParsePx sector field.1 field.2.1 record = .ok record' := by
    unfold rockRidgeParsePx
    split
    next => exact ⟨record, rfl⟩
    next =>
      rw [peekWord_eq (by omega)]
      exact ⟨_, rfl⟩
  have tf : ∃ record', rockRidgeParseTf sector field.1 field.2.1 record = .ok record' := by
    unfold rockRidgeParseTf
    split
    next => exact ⟨record, rfl⟩
    next =>
      rw [peek_eq (by omega), ok_bind]
      split
      next => exact ⟨record, rfl⟩
      next =>
        rw [access_inside (by omega)]
        exact ⟨_, rfl⟩
  have parts : Given (parseField sector record field.1 field.2.1
      (field.2.2 == 1 && (sector field.1 == 0x50 && sector (field.1 + 1) == 0x58))
      (field.2.2 == 1 && (sector field.1 == 0x53 && sector (field.1 + 1) == 0x4C))
      (field.2.2 == 1 && (sector field.1 == 0x54 && sector (field.1 + 1) == 0x46))) (FieldInside sector field) := by
    unfold parseField
    simp only [Bool.and_eq_true, beq_iff_eq]
    split
    next isPx =>
      refine .anyway (fun _ isSl => ?_) px
      exact absurd (isPx.2.1.symm.trans isSl.1) (by decide)
    next =>
      split
      next isSl =>
        refine (given_rockRidgeParseSl within short).congr ?_
        rw [FieldInside, forall_prop_of_true isSl.1, forall_prop_of_true isSl.2]
      next notSl =>
        refine .anyway (fun version isSl => absurd ⟨version, isSl⟩ notSl) ?_
        split
        next => exact tf
        next => exact ⟨record, rfl⟩
  unfold visitMetadata
  rw [isField_eq (by omega), ok_bind, isField_eq (by omega), ok_bind, isField_eq (by omega), ok_bind]
  constructor
  · exact (parts.bind fun record _ => .ok).congr (and_iff_left fun _ _ => trivial).symm
  · intro next same
    obtain ⟨record', -, same⟩ := bind_eq_ok_iff.mp same
    cases same
    exact ⟨record', rfl⟩

/-- When a record is read inside its buffers. -/
theorem given_parseRecord (bounded : Bounded sector start) :
    Given (parseRecord sector start) (LinkInside sector start) := by
  have visits (rest : List (Nat × Nat × UInt8)) (record : Record)
      (inside : ∀ field ∈ rest, field.1 + field.2.1 ≤ 2048 ∧ 4 ≤ field.2.1 ∧ field.2.1 ≤ 222) :
      Given (visitFields (visitMetadata sector) id rest record) (∀ field ∈ rest, FieldInside sector field) := by
    induction rest generalizing record with
    | nil => exact .anyway nofun ⟨record, rfl⟩
    | cons field rest ih =>
      obtain ⟨here, later⟩ := List.forall_mem_cons.mp inside
      obtain ⟨given, always⟩ := @given_visitMetadata sector record field here
      rw [visitFields]
      refine (@Given.bind _ _ _ _ _ (fun _ => ∀ field ∈ rest, FieldInside sector field) given fun next same => ?_).congr ?_
      · obtain ⟨record', rfl⟩ := always next same
        exact ih record' later
      · rw [List.forall_mem_cons]
        refine and_congr_right fun first => ⟨fun all _ _ => all, fun all => ?_⟩
        obtain ⟨next, same⟩ := given.gives first
        exact all next same
  have accepted : ¬sector start < 34 := by
    rw [UInt8.lt_iff_toNat_lt]
    exact Nat.not_lt.mpr bounded.header
  have inside := bounded.inside
  have header := bounded.header
  unfold parseRecord
  rw [peek_eq (by omega), ok_bind, demand_holds accepted, ok_bind, peekWord_eq (by omega), ok_bind,
    peekWord_eq (by omega), ok_bind, peek_eq (by omega), ok_bind, fields_eq bounded]
  exact visits _ _ fun field member => field_inside bounded member

end Links

end AsasOs.Iso9660
