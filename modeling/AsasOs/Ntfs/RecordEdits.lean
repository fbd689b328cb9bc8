import AsasOs.Ntfs.FileRecords

/-!
# NTFS: records whose attributes are edited

Attributes are appended to a record and made longer or shorter in it, and those behind them move. A record stays a
row of attributes then, unless the padded length of what is appended does not fit in 32 bits: an attribute is made
that is too short for its value.

## Main results

- `Appended.wellFormed`: a record with another attribute at its end.
- `Resized.wellFormed`: a record in which an attribute has another length.
- `edit_keeps_iff`: when an edit leaves a well-formed record.
- `value_outgrows`: a value of almost 2 ^ 32 bytes in an attribute of eight.
-/
namespace AsasOs.Ntfs

open Bytes

/-! ### Rows of attributes -/

/-- The bytes of the attributes from a position to another, one attribute behind the other. -/
inductive Attributes (mft : Memory) : Nat → List (List UInt8) → Nat → Prop where
  | none (position : Nat) : Attributes mft position [] position
  | more {position stop : Nat} {rest : List (List UInt8)} (positive : 0 < attributeLength mft position)
      (aligned : attributeLength mft position % 8 = 0) (kind : attributeType mft position ≠ ATTR_END)
      (later : Attributes mft (position + attributeLength mft position) rest stop) :
      Attributes mft position (window mft position (attributeLength mft position) :: rest) stop

namespace Attributes

variable {mft mft' : Memory} {position middle stop : Nat} {row row' : List (List UInt8)}

theorem le (row : Attributes mft position row stop) : position ≤ stop := by
  induction row with
  | none => exact le_rfl
  | more _ _ _ _ ih => omega

theorem append (first : Attributes mft position row middle) (second : Attributes mft middle row' stop) :
    Attributes mft position (row ++ row') stop := by
  induction first with
  | none => exact second
  | more positive aligned kind _ ih => exact .more positive aligned kind (ih second)

theorem single (positive : 0 < attributeLength mft position)
    (aligned : attributeLength mft position % 8 = 0)
    (kind : attributeType mft position ≠ ATTR_END) : Attributes mft position
      [window mft position (attributeLength mft position)] (position + attributeLength mft position) :=
  .more positive aligned kind (.none _)

theorem member_le (attributes : Attributes mft position row stop) {bytes : List UInt8}
    (member : bytes ∈ row) : position + bytes.length ≤ stop := by
  induction attributes with
  | none => cases member
  | more _ _ _ later ih =>
    have behind := later.le
    rcases List.mem_cons.mp member with rfl | there
    · rwa [window_length]
    · have inside := ih there
      omega

theorem moved (attributes : Attributes mft position row stop) (position' : Nat)
    (same : ∀ k, position + k < stop → mft' (position' + k) = mft (position + k)) :
    Attributes mft' position' row (position' + (stop - position)) := by
  induction attributes generalizing position' with
  | none =>
    rw [Nat.sub_self]
    exact .none _
  | more positive aligned kind later ih =>
    rename_i position stop rest
    have behind := later.le
    have bytes : ∀ k < attributeLength mft position, mft' (position' + k) = mft (position + k) :=
      fun k below => same k (by omega)
    have length := attributeLength_local bytes (by omega)
    have type := attributeType_local bytes (by omega)
    have moved := ih (position' + attributeLength mft position) fun k below => by
      rw [Nat.add_assoc, Nat.add_assoc]
      exact same _ (by omega)
    have content : window mft position (attributeLength mft position) =
        window mft' position' (attributeLength mft' position') := by
      rw [length]
      exact List.map_congr_left fun k member => (bytes k (List.mem_range.mp member)).symm
    have target : position' + (stop - position) =
        position' + attributeLength mft position + (stop - (position + attributeLength mft position)) := by omega
    rw [content, target]
    rw [← length] at moved ⊢
    exact .more (by omega) (by omega) (by rwa [type]) moved

theorem kept (attributes : Attributes mft position row stop)
    (same : ∀ k, position ≤ k → k < stop → mft' k = mft k) : Attributes mft' position row stop := by
  have there := attributes.moved position fun k below => same (position + k) (by omega) below
  rwa [Nat.add_sub_cancel' attributes.le] at there

theorem split (whole : Attributes mft position row stop) (first : Attributes mft position row' middle)
    (inside : middle < stop) : 0 < attributeLength mft middle ∧ attributeLength mft middle % 8 = 0 ∧
      attributeType mft middle ≠ ATTR_END ∧
      ∃ after, row = row' ++ window mft middle (attributeLength mft middle) :: after ∧
        Attributes mft (middle + attributeLength mft middle) after stop := by
  induction first generalizing row with
  | none =>
    cases whole with
    | none => omega
    | more positive aligned kind later => exact ⟨positive, aligned, kind, _, rfl, later⟩
  | more positive _ _ later ih =>
    cases whole with
    | none =>
      have behind := later.le
      omega
    | more _ _ _ rest =>
      obtain ⟨positive', aligned', kind', after, same, there⟩ := ih rest inside
      exact ⟨positive', aligned', kind', after, by rw [same, List.cons_append], there⟩

end Attributes

/-- A record in a buffer of a size: its attributes fill what is used of it, up to the end mark. -/
structure WellFormedRecord (recordSize : Nat) (mft : Memory) (row : List (List UInt8)) : Prop where
  header : 48 ≤ attrOffset mft
  attributes : Attributes mft (attrOffset mft) row (usedSize mft - 8)
  ends : attributeType mft (usedSize mft - 8) = ATTR_END
  room : usedSize mft ≤ recordSize
  alloc : recordAllocSize mft = recordSize

/-! ### Attributes that are appended -/

/-- There is an attribute at a position that holds its content, and the end mark behind it. -/
structure Placed (mft : Memory) (position length type : Nat) (content : List UInt8) : Prop where
  sized : attributeLength mft position = length
  kind : attributeType mft position = type
  ends : attributeType mft (position + length) = ATTR_END
  content : ∃ offset, offset + content.length ≤ length ∧ window mft (position + offset) content.length = content

section Append

variable {record record' : Memory} {recordSize type id : Nat} {name : List Nat} {content : List UInt8}
  {row : List (List UInt8)}

theorem closeAppend_wordAt (record : Memory) (used id : Nat) {offset width : Nat}
    (behind : 42 ≤ offset) :
    wordAt (closeAppend record used id) offset width = wordAt record offset width :=
  wordAt_congr fun _ _ _ => closeAppend_other _ _ _ (by omega) (by omega)

theorem closeAppend_window (record : Memory) (used id : Nat) {offset width : Nat}
    (behind : 42 ≤ offset) :
    window (closeAppend record used id) offset width = window record offset width :=
  window_congr fun _ _ _ => closeAppend_other _ _ _ (by omega) (by omega)

theorem ntfsAlign8_le (value : Nat) : ntfsAlign8 value ≤ value + 7 := Nat.div_mul_le_self _ _

theorem ntfsAlign8_mod (value : Nat) : ntfsAlign8 value % 8 = 0 := Nat.mul_mod_left _ _

theorem residentPlaced
    (done : ntfsAppendResidentAttribute record recordSize type name content id = some record')
    (whole : ntfsAlign8 (residentOffset name + content.length) < 2 ^ 32) (kind : type < 2 ^ 32)
    (low : 56 ≤ usedSize record) :
    Placed record' (usedSize record - 8) (paddedLength (residentOffset name) content) type content := by
  have before : 24 ≤ residentOffset name := le_trans (by omega) (le_ntfsAlign8 _)
  have bounded : paddedLength (residentOffset name) content < 2 ^ 32 := Nat.mod_lt _ (by decide)
  have padded : residentOffset name + content.length ≤ paddedLength (residentOffset name) content := by
    rw [paddedLength, Nat.mod_eq_of_lt whole]
    exact le_ntfsAlign8 _
  unfold ntfsAppendResidentAttribute at done
  simp only at done
  split at done
  · cases done
  cases done
  unfold paddedLength residentOffset at *
  generalize ntfsAlign8 (16 + 8 + name.length * 2) = offset at *
  generalize ntfsAlign8 (offset + content.length) % 2 ^ 32 = length at *
  refine ⟨?_, ?_, ?_, offset, padded, ?_⟩
  · rw [attributeLength, closeAppend_wordAt _ _ _ (by omega)]
    repeat rw [wordAt_patch_other (Or.inl (by omega))]
    rw [wordAt_patch, Nat.mod_eq_of_lt (by omega)]
  · rw [attributeType, closeAppend_wordAt _ _ _ (by omega)]
    repeat rw [wordAt_patch_other (Or.inl (by omega))]
    rw [wordAt_patch, Nat.mod_eq_of_lt (by omega)]
  · rw [attributeType, closeAppend_wordAt _ _ _ (by omega), wordAt_patch]
    rfl
  · rw [closeAppend_window _ _ _ (by omega), window_patch_other (Or.inl (by omega)), window_patch]

theorem extentPlaced
    {lowestVcn clusterCount allocatedSize dataSize initializedSize flags compressionUnit : Nat}
    (done : ntfsAppendNonresidentExtent record recordSize type name content lowestVcn clusterCount allocatedSize dataSize
      initializedSize flags compressionUnit id = some record')
    (whole : ntfsAlign8 (extentOffset name + content.length) < 2 ^ 32) (kind : type < 2 ^ 32)
    (low : 56 ≤ usedSize record) :
    Placed record' (usedSize record - 8) (paddedLength (extentOffset name) content) type content := by
  have before : 64 ≤ extentOffset name := le_trans (by omega) (le_ntfsAlign8 _)
  have bounded : paddedLength (extentOffset name) content < 2 ^ 32 := Nat.mod_lt _ (by decide)
  have padded : extentOffset name + content.length ≤ paddedLength (extentOffset name) content := by
    rw [paddedLength, Nat.mod_eq_of_lt whole]
    exact le_ntfsAlign8 _
  unfold ntfsAppendNonresidentExtent at done
  simp only at done
  split at done
  · cases done
  cases done
  unfold paddedLength extentOffset at *
  generalize ntfsAlign8 (16 + 48 + name.length * 2) = offset at *
  generalize ntfsAlign8 (offset + content.length) % 2 ^ 32 = length at *
  refine ⟨?_, ?_, ?_, offset, padded, ?_⟩
  · rw [attributeLength, closeAppend_wordAt _ _ _ (by omega)]
    repeat rw [wordAt_patch_other (Or.inl (by omega))]
    rw [wordAt_patch, Nat.mod_eq_of_lt (by omega)]
  · rw [attributeType, closeAppend_wordAt _ _ _ (by omega)]
    repeat rw [wordAt_patch_other (Or.inl (by omega))]
    rw [wordAt_patch, Nat.mod_eq_of_lt (by omega)]
  · rw [attributeType, closeAppend_wordAt _ _ _ (by omega), wordAt_patch]
    rfl
  · rw [closeAppend_window _ _ _ (by omega), window_patch_other (Or.inl (by omega)), window_patch]

/-- Behind the last attribute there is another. -/
theorem Appended.wellFormed (wf : WellFormedRecord recordSize record row) {length : Nat}
    (appended : Appended record record' length) (room : usedSize record' ≤ recordSize)
    (placed : Placed record' (usedSize record - 8) length type content) (kind : type ≠ ATTR_END)
    (some_ : 0 < length) (aligned : length % 8 = 0) : ∃ bytes, content <:+: bytes ∧
      WellFormedRecord recordSize record' (row ++ [bytes]) := by
  have behind := wf.attributes.le
  have header := wf.header
  have fields : ∀ k, 20 ≤ k → k < 24 ∨ 28 ≤ k → k < 40 ∨ 42 ≤ k → k < usedSize record - 8 → record' k = record k :=
    fun k _ apart apart' below => appended.other k below apart apart'
  have start : attrOffset record' = attrOffset record :=
    wordAt_congr fun k _ _ => fields k (by omega) (by omega) (by omega) (by omega)
  have alloc : recordAllocSize record' = recordAllocSize record :=
    wordAt_congr fun k _ _ => fields k (by omega) (by omega) (by omega) (by omega)
  have stop : usedSize record' - 8 = usedSize record - 8 + length := by
    have used := appended.used
    omega
  have old := wf.attributes.kept fun k _ below => fields k (by omega) (by omega) (by omega) below
  have last := Attributes.single (by rwa [placed.sized]) (by rwa [placed.sized]) (by rwa [placed.kind])
  rw [placed.sized] at last
  refine ⟨window record' (usedSize record - 8) length, ?_,
    ⟨by rwa [start], ?_, by rw [stop, placed.ends], room, alloc.trans wf.alloc⟩⟩
  · obtain ⟨offset, inside, held⟩ := placed.content
    obtain ⟨rest, sum⟩ := Nat.exists_eq_add_of_le inside
    rw [sum, window_add, window_add, held]
    exact List.infix_append _ _ _
  · rw [start, stop]
    exact old.append last

end Append

/-! ### Attributes that get another length -/

section Resize

variable {mft mft' : Memory} {recordSize position newLength : Nat} {row before : List (List UInt8)}

theorem Resized.wellFormed (wf : WellFormedRecord recordSize mft row)
    (first : Attributes mft (attrOffset mft) before position) (inside : position < usedSize mft - 8)
    (resized : Resized mft mft' position newLength) (some_ : 0 < newLength)
    (aligned : newLength % 8 = 0) :
    ∃ old new after, row = before ++ old :: after ∧
    WellFormedRecord recordSize mft' (before ++ new :: after) := by
  obtain ⟨positive, whole, kind, after, same, later⟩ := wf.attributes.split first inside
  have low := wf.header.trans first.le
  have behind := later.le
  have header := wf.header
  have start : attrOffset mft' = attrOffset mft :=
    wordAt_congr fun k _ _ => resized.front k (by omega) (by omega)
  have alloc : recordAllocSize mft' = recordAllocSize mft :=
    wordAt_congr fun k _ _ => resized.front k (by omega) (by omega)
  have used := resized.used
  have ended := wf.attributes.le
  have type : attributeType mft' position = attributeType mft position :=
    attributeType_local (fun k (_ : k < 4) => resized.kept k (by omega) (by omega) (by omega)) le_rfl
  have front : Attributes mft' (attrOffset mft) before position :=
    first.kept fun k _ below => resized.front k below (by omega)
  have rest := later.moved (position + newLength) fun k below => resized.behind k (by omega)
  have here : Attributes mft' position [window mft' position newLength] (position + newLength) := by
    have one := @Attributes.single mft' position (by rwa [resized.length]) (by rwa [resized.length]) (by rwa [type])
    rwa [resized.length] at one
  have stop : usedSize mft' - 8 =
      position + newLength + (usedSize mft - 8 - (position + attributeLength mft position)) := by omega
  refine ⟨_, window mft' position newLength, after, same, by rwa [start], ?_, ?_, ?_, alloc.trans wf.alloc⟩
  · rw [start, stop]
    exact front.append (here.append rest)
  · rw [← wf.ends, stop]
    refine attributeType_local (fun k (_ : k < 4) => ?_) le_rfl
    rw [Nat.add_assoc (position + newLength), resized.behind _ (by omega)]
    congr 1
    omega
  · have room := resized.room
    rwa [wf.alloc] at room

end Resize

/-! ### Edits -/

/-- The calls that change the attributes of a record. -/
inductive RecordEdit where
  | appendResident (type : Nat) (name : List Nat) (value : List UInt8) (id : Nat)
  | appendExtent (type : Nat) (name : List Nat) (runlist : List UInt8)
      (lowestVcn clusterCount allocatedSize dataSize initializedSize flags compressionUnit id : Nat)
  | resize (position : Nat) (delta : Int)

namespace RecordEdit

variable {context : MftContext} {mft mft' : Memory} {row : List (List UInt8)} {edit : RecordEdit}

/-- The record behind an edit, if it succeeds. One that fails has changed nothing. -/
def run (context : MftContext) (mft : Memory) : RecordEdit → Option Memory
  | appendResident type name value id => ntfsAppendResidentAttribute mft context.mftRecordSize type name value id
  | appendExtent type name runlist lowestVcn clusterCount allocatedSize dataSize initializedSize flags unit id =>
    ntfsAppendNonresidentExtent mft context.mftRecordSize type name runlist lowestVcn clusterCount allocatedSize
      dataSize initializedSize flags unit id
  | resize position delta => ntfsResizeResidentAttribute mft position delta

/-- What the callers pass: a value of any length of 32 bits, runs that fit in a record, an attribute of the
record and a difference of lengths. -/
def Proper (context : MftContext) (mft : Memory) : RecordEdit → Prop
  | appendResident type name value _ => type < ATTR_END ∧ name.length < 256 ∧ value.length < 2 ^ 32
  | appendExtent type name runlist _ _ _ _ _ _ _ _ =>
    type < ATTR_END ∧ name.length < 256 ∧ runlist.length ≤ context.mftRecordSize
  | resize position delta => (∃ before, Attributes mft (attrOffset mft) before position) ∧
    position < usedSize mft - 8 ∧ delta % 8 = 0 ∧ -2 ^ 32 < delta ∧ delta < 2 ^ 32

/-- What has become of a row of attributes: another one that holds what was appended, or one in the place
of another. -/
def Leaves (mft : Memory) (row row' : List (List UInt8)) : RecordEdit → Prop
  | appendResident _ _ value _ => ∃ new, value <:+: new ∧ row' = row ++ [new]
  | appendExtent _ _ runlist _ _ _ _ _ _ _ _ => ∃ new, runlist <:+: new ∧ row' = row ++ [new]
  | resize position _ => ∃ before old new after, Attributes mft (attrOffset mft) before position ∧
    row = before ++ old :: after ∧ row' = before ++ new :: after

/-- An edit that succeeds leaves a well-formed record, and the other attributes alone. -/
def Keeps (context : MftContext) (mft : Memory) (row : List (List UInt8)) (edit : RecordEdit) : Prop :=
  ∀ mft', edit.run context mft = some mft' →
    ∃ row', WellFormedRecord context.mftRecordSize mft' row' ∧ edit.Leaves mft row row'

/-- A value is appended whose padded length wraps, so that there seems to be room for it. -/
def Wraps (context : MftContext) (mft : Memory) : RecordEdit → Prop
  | appendResident _ name value _ => 2 ^ 32 ≤ ntfsAlign8 (residentOffset name + value.length) ∧
    paddedLength (residentOffset name) value ≤ context.mftRecordSize - usedSize mft
  | _ => False

theorem resident_some {type id : Nat} {name : List Nat} {value : List UInt8}
    (wf : WellFormedRecord context.mftRecordSize mft row)
    (fits : paddedLength (residentOffset name) value ≤ context.mftRecordSize - usedSize mft) :
    ∃ mft', ntfsAppendResidentAttribute mft context.mftRecordSize type name value id = some mft' := by
  have order := wf.attributes.le
  have header := wf.header
  unfold paddedLength residentOffset at fits
  unfold ntfsAppendResidentAttribute
  simp only [sub32_eq wf.room context.recordSize_small]
  rw [if_neg]
  · exact ⟨_, rfl⟩
  · simp only [Bool.or_eq_true, decide_eq_true_eq]
    omega

theorem append_leaves {type length : Nat} {content : List UInt8}
    (wf : WellFormedRecord context.mftRecordSize mft row)
    (appended : Appended mft mft' length) (room : usedSize mft' ≤ context.mftRecordSize)
    (placed : Placed mft' (usedSize mft - 8) length type content) (kind : type < ATTR_END)
    (some_ : 0 < length) (aligned : length % 8 = 0) :
    ∃ row', WellFormedRecord context.mftRecordSize mft' row' ∧ ∃ new, content <:+: new ∧
    row' = row ++ [new] := by
  obtain ⟨new, holds, after⟩ := appended.wellFormed wf room placed kind.ne some_ aligned
  exact ⟨_, after, new, holds, rfl⟩

theorem keeps_resident {type id : Nat} {name : List Nat} {value : List UInt8}
    (wf : WellFormedRecord context.mftRecordSize mft row)
    (proper : (appendResident type name value id).Proper context mft) :
    (appendResident type name value id).Keeps context mft row ↔
      ¬(appendResident type name value id).Wraps context mft := by
  obtain ⟨kind, short, bounded⟩ := proper
  have largest : context.mftRecordSize ≤ 4096 := context.fits.2
  have header := wf.header
  have order := wf.attributes.le
  have start : residentOffset name ≤ _ := ntfsAlign8_le (16 + 8 + name.length * 2)
  have room := wf.room
  constructor
  · rintro keeps ⟨wraps, fits⟩
    obtain ⟨mft', done⟩ : ∃ mft', ntfsAppendResidentAttribute mft context.mftRecordSize type name value id =
        some mft' := resident_some wf fits
    obtain ⟨row', after, new, holds, rfl⟩ := keeps mft' done
    -- The attribute lies in the record, and the value does not.
    have inside := after.attributes.member_le (List.mem_append_right row (List.mem_singleton_self new))
    have held := holds.length_le
    have top := after.room
    have padded := ntfsAlign8_le (residentOffset name + value.length)
    omega
  · intro whole mft' done
    obtain ⟨appended, below⟩ := ntfsAppendResidentAttribute_spec done room context.recordSize_small
    have used := appended.used
    have small : ntfsAlign8 (residentOffset name + value.length) < 2 ^ 32 := by
      by_contra wraps
      exact whole ⟨by omega, by omega⟩
    have placed := residentPlaced done small (lt_trans kind (by decide)) (by omega)
    have padded := le_ntfsAlign8 (residentOffset name + value.length)
    have before : _ ≤ residentOffset name := le_ntfsAlign8 (16 + 8 + name.length * 2)
    have aligned := ntfsAlign8_mod (residentOffset name + value.length)
    exact append_leaves wf appended below placed kind (by rw [paddedLength, Nat.mod_eq_of_lt small]; omega)
      (by rw [paddedLength, Nat.mod_eq_of_lt small]; exact aligned)

theorem keeps_extent
    {type lowestVcn clusterCount allocatedSize dataSize initializedSize flags unit id : Nat}
    {name : List Nat} {runlist : List UInt8} (wf : WellFormedRecord context.mftRecordSize mft row)
    (proper : (appendExtent type name runlist lowestVcn clusterCount allocatedSize dataSize initializedSize flags unit
      id).Proper context mft) : (appendExtent type name runlist lowestVcn clusterCount allocatedSize dataSize
        initializedSize flags unit id).Keeps context mft row := by
  obtain ⟨kind, short, bounded⟩ := proper
  have largest : context.mftRecordSize ≤ 4096 := context.fits.2
  have header := wf.header
  have order := wf.attributes.le
  have start : extentOffset name ≤ _ := ntfsAlign8_le (16 + 48 + name.length * 2)
  have before : _ ≤ extentOffset name := le_ntfsAlign8 (16 + 48 + name.length * 2)
  have long := ntfsAlign8_le (extentOffset name + runlist.length)
  have padded := le_ntfsAlign8 (extentOffset name + runlist.length)
  have aligned := ntfsAlign8_mod (extentOffset name + runlist.length)
  have small : ntfsAlign8 (extentOffset name + runlist.length) < 2 ^ 32 := by omega
  intro mft' done
  obtain ⟨appended, below⟩ := ntfsAppendNonresidentExtent_spec done wf.room context.recordSize_small
  have placed := extentPlaced done small (lt_trans kind (by decide)) (by omega)
  exact append_leaves wf appended below placed kind (by rw [paddedLength, Nat.mod_eq_of_lt small]; omega)
    (by rw [paddedLength, Nat.mod_eq_of_lt small]; exact aligned)

theorem keeps_resize {position : Nat} {delta : Int} (wf : WellFormedRecord context.mftRecordSize mft row)
    (proper : (resize position delta).Proper context mft) :
    (resize position delta).Keeps context mft row := by
  obtain ⟨⟨before, first⟩, inside, whole, low, high⟩ := proper
  obtain ⟨positive, aligned, -, after, -, later⟩ := wf.attributes.split first inside
  have behind := later.le
  have front := wf.header.trans first.le
  have room := wf.room
  have small := context.recordSize_small
  intro mft' done
  obtain ⟨newLength, some_, bounded, difference⟩ : ∃ newLength : Nat, 0 < newLength ∧ newLength < 2 ^ 32 ∧
      delta = newLength - attributeLength mft position := by
    have old : attributeLength mft position < 2 ^ 32 := wordAt_lt mft (position + 4) 4
    change ntfsResizeResidentAttribute mft position delta = some mft' at done
    unfold ntfsResizeResidentAttribute at done
    simp only [wf.alloc, sub32_eq wf.room small] at done
    split_ifs at done with grows large shrinks short
    · exact ⟨attributeLength mft position + delta.toNat, by omega, by omega, by omega⟩
    · rw [Bool.or_eq_true, not_or, decide_eq_true_eq, decide_eq_true_eq] at short
      exact ⟨attributeLength mft position - (-delta).toNat, by omega, by omega, by omega⟩
    · exact ⟨attributeLength mft position, positive, old, by omega⟩
  subst difference
  have resized := ntfsResizeResidentAttribute_spec (by omega) (by omega) (by omega) (by rw [wf.alloc]; exact room)
    (by omega) bounded done
  obtain ⟨old, new, after, same, kept⟩ := resized.wellFormed wf first inside some_ (by omega)
  exact ⟨_, kept, before, old, new, after, first, same, rfl⟩

/-- Whatever is done to a record, it stays a row of attributes and the others stay what they are, if and only if no
value is appended whose padded length wraps to one for which there is room. -/
theorem edit_keeps_iff (wf : WellFormedRecord context.mftRecordSize mft row)
    (proper : edit.Proper context mft) :
    edit.Keeps context mft row ↔ ¬edit.Wraps context mft := by
  cases edit with
  | appendResident => exact keeps_resident wf proper
  | appendExtent => exact iff_of_true (keeps_extent wf proper) not_false
  | resize => exact iff_of_true (keeps_resize wf proper) not_false

/-! ### A value of almost 2 ^ 32 bytes -/

/-- A record without attributes. -/
def emptyRecord : Memory :=
  patch (patch (patch (patch (fun _ => 0) 20 (digits 2 48)) 24 (digits 4 56)) 28 (digits 4 1024)) 48 (digits 4 ATTR_END)

theorem emptyRecord_wellFormed : WellFormedRecord smallVolume.mftRecordSize emptyRecord [] where
  header := by decide
  attributes := .none 48
  ends := by decide
  room := by decide
  alloc := by decide

theorem edit_keeps_iff_small :
    (appendResident ATTR_FILE_NAME [] [1, 2, 3, 4, 5, 6, 7, 8] 1).Keeps smallVolume emptyRecord [] ↔
      ¬(appendResident ATTR_FILE_NAME [] [1, 2, 3, 4, 5, 6, 7, 8] 1).Wraps smallVolume emptyRecord :=
  edit_keeps_iff emptyRecord_wellFormed ⟨by decide, by decide, by decide⟩

/-- For a value of 2 ^ 32 - 16 bytes an attribute of eight bytes is made. -/
theorem value_outgrows : ∃ value : List UInt8, value.length = 2 ^ 32 - 16 ∧
    (appendResident ATTR_DATA [] value 2).Proper smallVolume emptyRecord ∧
    paddedLength (residentOffset []) value = 8 ∧
    ¬(appendResident ATTR_DATA [] value 2).Keeps smallVolume emptyRecord [] := by
  have long : (List.replicate (2 ^ 32 - 16) (0 : UInt8)).length = 2 ^ 32 - 16 := List.length_replicate
  refine ⟨List.replicate (2 ^ 32 - 16) 0, long, ?_⟩
  generalize List.replicate (2 ^ 32 - 16) (0 : UInt8) = value at long
  have proper : (appendResident ATTR_DATA [] value 2).Proper smallVolume emptyRecord :=
    ⟨by decide, by decide, by omega⟩
  have start : residentOffset [] = 24 := rfl
  have wraps : ntfsAlign8 (residentOffset [] + value.length) = 2 ^ 32 + 8 := by
    rw [start, long]
    rfl
  have padded : paddedLength (residentOffset []) value = 8 := by
    rw [paddedLength, wraps]
    rfl
  refine ⟨proper, padded, fun keeps => (keeps_resident emptyRecord_wellFormed proper).mp keeps ⟨by omega, ?_⟩⟩
  rw [padded]
  decide

end RecordEdit

end AsasOs.Ntfs
