import AsasOs.Partition.Tables

/-!
# Changes of one entry

A create, delete or resize changes the bytes of one entry of the array and nothing else. So
the change of the sectors that hold the array is the change of the array itself, and the
number of entries in use goes up by one, down by one, or stays.
-/
namespace AsasOs.Partition

open Block Bytes

/-- One more when an entry is taken into use. -/
def GptOperation.creates : GptOperation → Nat
  | .create _ _ _ _ _ => 1
  | .delete | .resize _ _ => 0

/-- One less when an entry is given up. -/
def GptOperation.deletes : GptOperation → Nat
  | .delete => 1
  | .create _ _ _ _ _ | .resize _ _ => 0

section Entry

variable {header : GptHeader} {slot : Nat} {operation : GptOperation}
  {entries edited entry : List UInt8}

theorem putExtent_within {offset : Nat} (inside : offset + entry.length ≤ entries.length)
    (large : 128 ≤ entry.length) (startLba blockCount : UInt64) :
    putExtent (put entries offset entry) offset startLba blockCount =
      put entries offset (putExtent entry 0 startLba blockCount) := by
  have first : (put entry 32 (digits 8 startLba.toNat)).length = entry.length :=
    put_length (by rw [digits_length]; omega)
  simp only [putExtent, putLE, Nat.zero_add]
  rw [put_within inside (by rw [digits_length]; omega), put_within (by omega)
    (by rw [digits_length]; omega)]

theorem gptEdit_local (room : (slot + 1) * header.entrySize ≤ entries.length)
    (large : 128 ≤ header.entrySize) :
    gptEdit header slot operation entries = (gptEdit header 0 operation
        (slice entries (slot * header.entrySize) header.entrySize)).map
          (put entries (slot * header.entrySize)) := by
  rw [Nat.succ_mul] at room
  obtain ⟨entry, here⟩ : ∃ entry, slice entries (slot * header.entrySize) header.entrySize = entry := ⟨_, rfl⟩
  have whole : entry.length = header.entrySize := here ▸ slice_length room
  have back : put entries (slot * header.entrySize) entry = entries := by
    rw [← here, put_slice room]
  have inside : slot * header.entrySize + entry.length ≤ entries.length := by omega
  have zeros : (List.replicate header.entrySize (0 : UInt8)).length = entry.length := by
    rw [List.length_replicate, whole]
  have typeGuid : (gptEntry entries (slot * header.entrySize)).typeGuid =
      (gptEntry entry 0).typeGuid := by
    simp only [gptEntry, ← here]
    rw [slice_slice (by omega), Nat.add_zero]
  have cleared : put entry 0 (List.replicate header.entrySize 0) =
      List.replicate header.entrySize 0 := by
    rw [put, List.take_zero, List.nil_append, Nat.zero_add, zeros, List.drop_length, List.append_nil]
  cases operation with
  | create typeGuid' uniqueGuid name startLba blockCount =>
    cases typeGuid' with
    | none => rfl
    | some typeGuid' =>
      cases uniqueGuid with
      | none => rfl
      | some uniqueGuid =>
        simp only [gptEdit, here, Nat.zero_mul, typeGuid, cleared]
        split
        · rfl
        · -- each part of the new entry is put into the cleared one
          have lengthType := typeGuid'.2
          have lengthUnique := uniqueGuid.2
          have typed : (put (List.replicate header.entrySize 0) 0 typeGuid'.1).length =
              header.entrySize := by
            rw [put_length (by rw [lengthType, List.length_replicate]; omega), List.length_replicate]
          have identified : (put (put (List.replicate header.entrySize 0) 0 typeGuid'.1) 16
              uniqueGuid.1).length = header.entrySize := by
            rw [put_length (by omega), typed]
          have first := @put_within entries (List.replicate header.entrySize 0) typeGuid'.1
            (slot * header.entrySize) 0 (by omega) (by omega)
          rw [Nat.add_zero] at first
          rw [first, put_within (by omega) (by omega)]
          cases name with
          | none =>
            dsimp only
            rw [putExtent_within (by omega) (by omega)]
            rfl
          | some name =>
            have lengthName := name.2
            have named : (put (put (put (List.replicate header.entrySize 0) 0 typeGuid'.1) 16
                uniqueGuid.1) 56 name.1).length = header.entrySize := by
              rw [put_length (by omega), identified]
            dsimp only
            rw [put_within (by omega) (by omega), putExtent_within (by omega) (by omega)]
            rfl
  | delete =>
    simp only [gptEdit, here, Nat.zero_mul, typeGuid, cleared]
    split
    · rfl
    · rfl
  | resize startLba blockCount =>
    simp only [gptEdit, here, Nat.zero_mul, typeGuid]
    split
    · rfl
    · rw [Option.map_some, ← putExtent_within inside (by omega), back]

theorem gptEdit_entry_length (whole : entry.length = header.entrySize) (large : 128 ≤ header.entrySize)
    (done : gptEdit header 0 operation entry = some edited) :
    edited.length = header.entrySize := by
  rw [gptEdit_length (by omega) large done, whole]

inductive GuidsEdited (entry edited : List UInt8) : GptOperation → Prop
  | create {typeGuid uniqueGuid : Guid} {name : Option EntryName} {startLba blockCount : UInt64}
      (free : guidIsZero (slice entry 0 16) = true) (typed : guidIsZero typeGuid.1 = false)
      (type : slice edited 0 16 = typeGuid.1) (unique : slice edited 16 16 = uniqueGuid.1) :
      GuidsEdited entry edited
        (.create (some typeGuid) (some uniqueGuid) name startLba blockCount)
  | delete (used : guidIsZero (slice entry 0 16) = false)
      (free : guidIsZero (slice edited 0 16) = true) : GuidsEdited entry edited .delete
  | resize {startLba blockCount : UInt64} (used : guidIsZero (slice entry 0 16) = false)
      (type : slice edited 0 16 = slice entry 0 16)
      (unique : slice edited 16 16 = slice entry 16 16) :
      GuidsEdited entry edited (.resize startLba blockCount)

theorem gptEdit_guids (whole : entry.length = header.entrySize) (large : 128 ≤ header.entrySize)
    (done : gptEdit header 0 operation entry = some edited) :
    GuidsEdited entry edited operation := by
  have zeros : (List.replicate header.entrySize (0 : UInt8)).length = entry.length := by
    rw [List.length_replicate, whole]
  have cleared : put entry 0 (List.replicate header.entrySize 0) =
      List.replicate header.entrySize 0 := by
    rw [put, List.take_zero, List.nil_append, Nat.zero_add, zeros, List.drop_length, List.append_nil]
  -- the extent lies behind both GUIDs
  have extent (bytes : List UInt8) (startLba blockCount : UInt64)
      (length : bytes.length = header.entrySize) {start : Nat} (before : start + 16 ≤ 32) :
      slice (putExtent bytes 0 startLba blockCount) start 16 = slice bytes start 16 := by
    have first : (putLE bytes (0 + 32) 8 startLba.toNat).length = bytes.length :=
      putLE_length (by omega) _
    rw [putExtent, slice_putLE_other (by omega) (by omega), slice_putLE_other (by omega) (by omega)]
  cases operation with
  | create typeGuid uniqueGuid name startLba blockCount =>
    cases typeGuid with
    | none => cases done
    | some typeGuid =>
      cases uniqueGuid with
      | none => cases done
      | some uniqueGuid =>
        simp only [gptEdit, Nat.zero_mul, cleared] at done
        split at done
        · cases done
        · rename_i allowed
          simp only [Bool.or_eq_true, Bool.not_eq_true', not_or, Bool.not_eq_true,
            Bool.not_eq_false, gptEntry] at allowed
          obtain ⟨⟨⟨free, typed⟩, -⟩, -⟩ := allowed
          have lengthType := typeGuid.2
          have lengthUnique := uniqueGuid.2
          have first : (put (List.replicate header.entrySize 0) 0 typeGuid.1).length =
              header.entrySize := by
            rw [put_length (by rw [lengthType, List.length_replicate]; omega), List.length_replicate]
          have second : (put (put (List.replicate header.entrySize 0) 0 typeGuid.1) (0 + 16)
              uniqueGuid.1).length = header.entrySize := by
            rw [put_length (by omega), first]
          have storedType : slice (put (List.replicate header.entrySize 0) 0 typeGuid.1) 0 16 =
              typeGuid.1 := by
            have all := @slice_put (List.replicate header.entrySize 0) typeGuid.1 0
              (by rw [lengthType, List.length_replicate]; omega)
            rwa [lengthType] at all
          have storedUnique : slice (put (put (List.replicate header.entrySize 0) 0 typeGuid.1)
              (0 + 16) uniqueGuid.1) 16 16 = uniqueGuid.1 := by
            have all := @slice_put (put (List.replicate header.entrySize 0) 0 typeGuid.1)
              uniqueGuid.1 (0 + 16) (by omega)
            rwa [lengthUnique] at all
          cases done
          cases name with
          | none =>
            dsimp only
            refine .create free typed ?_ ?_
            · rw [extent _ _ _ second (by omega), slice_put_other (by omega) (by omega), storedType]
            · rw [extent _ _ _ second (by omega), storedUnique]
          | some name =>
            have lengthName := name.2
            have third : (put (put (put (List.replicate header.entrySize 0) 0 typeGuid.1) (0 + 16)
                uniqueGuid.1) (0 + 56) name.1).length = header.entrySize := by
              rw [put_length (by omega), second]
            dsimp only
            refine .create free typed ?_ ?_
            · rw [extent _ _ _ third (by omega), slice_put_other (by omega) (by omega),
                slice_put_other (by omega) (by omega), storedType]
            · rw [extent _ _ _ third (by omega), slice_put_other (by omega) (by omega), storedUnique]
  | delete =>
    simp only [gptEdit, Nat.zero_mul, cleared] at done
    split at done
    · cases done
    · rename_i used
      cases done
      refine .delete (Bool.eq_false_of_not_eq_true used) ?_
      simp [guidIsZero, slice, List.take_replicate]
  | resize startLba blockCount =>
    simp only [gptEdit, Nat.zero_mul] at done
    split at done
    · cases done
    · rename_i allowed
      cases done
      simp only [Bool.or_eq_true, not_or, Bool.not_eq_true] at allowed
      exact .resize allowed.1 (extent entry startLba blockCount whole (by omega))
        (extent entry startLba blockCount whole (by omega))

theorem gptEdit_typeGuid (whole : entry.length = header.entrySize) (large : 128 ≤ header.entrySize)
    (done : gptEdit header 0 operation entry = some edited) :
    (if guidIsZero (slice edited 0 16) then 0 else 1) + operation.deletes =
      (if guidIsZero (slice entry 0 16) then 0 else 1) + operation.creates := by
  cases gptEdit_guids whole large done with
  | create free typed type unique =>
    rw [type, typed, free]
    rfl
  | delete used free =>
    rw [used, free]
    rfl
  | resize used type unique =>
    rw [type]
    rfl

end Entry

/-! ### Changes of a table -/

section Table

variable {header : GptHeader} {slot : Nat} {operation : GptOperation}
  {entries edited table : List UInt8}

theorem entry_within {index : Nat} (below : index < header.entryCount) :
    index * header.entrySize + header.entrySize ≤ header.entriesBytes := by
  have room : (index + 1) * header.entrySize ≤ header.entriesBytes :=
    Nat.mul_le_mul_right _ below
  rwa [Nat.succ_mul] at room

theorem entries_apart {other : Nat} (apart : other ≠ slot) (size : Nat) :
    other * size + size ≤ slot * size ∨ slot * size + size ≤ other * size := by
  rcases Nat.lt_or_gt_of_ne apart with before | behind
  · have step : (other + 1) * size ≤ slot * size := Nat.mul_le_mul_right _ before
    rw [Nat.succ_mul] at step
    exact .inl step
  · have step : (slot + 1) * size ≤ other * size := Nat.mul_le_mul_right _ behind
    rw [Nat.succ_mul] at step
    exact .inr step

theorem gptEntriesValid_take (large : 128 ≤ header.entrySize) (entries : List UInt8) :
    gptEntriesValid header (entries.take header.entriesBytes) = gptEntriesValid header entries := by
  have same : ∀ index < header.entryCount,
      gptEntry (entries.take header.entriesBytes) (index * header.entrySize) =
        gptEntry entries (index * header.entrySize) := by
    intro index below
    have within := entry_within below
    simp only [gptEntry, getLE]
    rw [slice_take (by omega), slice_take (by omega), slice_take (by omega)]
  rw [Bool.eq_iff_iff]
  simp only [gptEntriesValid, List.all_eq_true, List.mem_range]
  apply forall₂_congr
  intro index below
  rw [same index below]
  apply Eq.congr_left
  congr 2
  rw [Bool.eq_iff_iff]
  simp only [List.all_eq_true, List.mem_range]
  apply forall₂_congr
  intro other earlier
  rw [same other (by omega)]

theorem gptEdited_take (inside : slot < header.entryCount) (large : 128 ≤ header.entrySize)
    (room : header.entriesBytes ≤ entries.length) :
    gptEdited header slot operation (entries.take header.entriesBytes) =
      (gptEdited header slot operation entries).map (·.take header.entriesBytes) := by
  have within := entry_within inside
  have short : (entries.take header.entriesBytes).length = header.entriesBytes :=
    List.length_take_of_le room
  have whole : (slice entries (slot * header.entrySize) header.entrySize).length =
      header.entrySize := slice_length (by omega)
  have left : gptEdit header slot operation (entries.take header.entriesBytes) = _ :=
    gptEdit_local (by rw [Nat.succ_mul]; omega) large
  have right : gptEdit header slot operation entries = _ :=
    gptEdit_local (by rw [Nat.succ_mul]; omega) large
  rw [gptEdited, gptEdited, left, right, slice_take within]
  cases done : gptEdit header 0 operation
      (slice entries (slot * header.entrySize) header.entrySize) with
  | none => rfl
  | some entry =>
    have length := gptEdit_entry_length whole large done
    rw [Option.map_some, Option.map_some, put_take (by omega) room, Option.filter_some,
      Option.filter_some, gptEntriesValid_take large]
    split
    · rfl
    · rfl

theorem countP_range_change {p q : Nat → Bool} {count : Nat} (inside : slot < count)
    (same : ∀ i, i ≠ slot → q i = p i) :
    (List.range count).countP q + (if p slot then 1 else 0) =
      (List.range count).countP p + (if q slot then 1 else 0) := by
  induction count with
  | zero => omega
  | succ count ih =>
    rw [List.range_succ, List.countP_append, List.countP_append, List.countP_singleton, List.countP_singleton]
    rcases Nat.lt_or_ge slot count with before | last
    · have rest := ih before
      rw [same count (by omega)]
      omega
    · have here : slot = count := by omega
      subst here
      have rest : (List.range slot).countP q = (List.range slot).countP p := by
        apply List.countP_congr
        intro i member
        rw [same i (Nat.ne_of_lt (List.mem_range.mp member))]
      omega

theorem gptEntries_length (header : GptHeader) (table : List UInt8) :
    (gptEntries header table).length = (List.range header.entryCount).countP fun index =>
      !guidIsZero (gptEntry table (index * header.entrySize)).typeGuid := by
  unfold gptEntries
  induction List.range header.entryCount with
  | nil => rfl
  | cons index rest ih =>
    rw [List.filterMap_cons, List.countP_cons]
    dsimp only at ih ⊢
    by_cases free : guidIsZero (gptEntry table (index * header.entrySize)).typeGuid = true
    · rw [if_pos free, free, ih]
      rfl
    · rw [if_neg free, List.length_cons, ih, (Bool.not_eq_true _).mp free]
      rfl

/-- A change that is accepted puts the changed entry in the place of the entry. -/
theorem gptEdited_put (inside : slot < header.entryCount) (large : 128 ≤ header.entrySize)
    (room : header.entriesBytes ≤ table.length)
    (done : gptEdited header slot operation table = some edited) :
    ∃ entry, edited = put table (slot * header.entrySize) entry ∧ entry.length = header.entrySize ∧
      (slice table (slot * header.entrySize) header.entrySize).length = header.entrySize ∧
      gptEdit header 0 operation (slice table (slot * header.entrySize) header.entrySize) =
      some entry := by
  have within := entry_within inside
  have changed := (Option.filter_eq_some_iff.mp done).1
  rw [gptEdit_local (by rw [Nat.succ_mul]; omega) large] at changed
  obtain ⟨entry, edit, rfl⟩ := Option.map_eq_some_iff.mp changed
  have part : (slice table (slot * header.entrySize) header.entrySize).length =
      header.entrySize := slice_length (by omega)
  exact ⟨entry, rfl, gptEdit_entry_length part large edit, part, edit⟩

theorem gptEdited_used (inside : slot < header.entryCount) (large : 128 ≤ header.entrySize)
    (whole : table.length = header.entriesBytes)
    (done : gptEdited header slot operation table = some edited) :
    (gptEntries header edited).length + operation.deletes =
      (gptEntries header table).length + operation.creates := by
  have within := entry_within inside
  obtain ⟨entry, rfl, length, part, edit⟩ := gptEdited_put inside large whole.ge done
  have types := gptEdit_typeGuid part large edit
  rw [slice_slice (by omega), Nat.add_zero] at types
  have here : slice (put table (slot * header.entrySize) entry) (slot * header.entrySize) 16 =
      slice entry 0 16 := by
    have all : slice (put table (slot * header.entrySize) entry) (slot * header.entrySize)
        entry.length = entry := slice_put (by omega)
    have part : slice (slice (put table (slot * header.entrySize) entry) (slot * header.entrySize)
        entry.length) 0 16 = _ := slice_slice (by omega)
    rw [all, Nat.add_zero] at part
    exact part.symm
  rw [gptEntries_length, gptEntries_length]
  have counted := @countP_range_change slot
    (fun index => !guidIsZero (gptEntry table (index * header.entrySize)).typeGuid)
    (fun index => !guidIsZero (gptEntry (put table (slot * header.entrySize) entry)
      (index * header.entrySize)).typeGuid) header.entryCount inside (by
      intro other apart
      have elsewhere := entries_apart apart header.entrySize
      simp only [gptEntry]
      rw [slice_put_other (by omega) (by omega)])
  simp only [gptEntry, here] at counted types
  cases before : guidIsZero (slice table (slot * header.entrySize) 16) <;>
    cases after : guidIsZero (slice entry 0 16) <;>
    simp_all [gptEntry] <;> omega

end Table

end AsasOs.Partition
