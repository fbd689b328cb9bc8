import AsasOs.ExFat.Allocator
import AsasOs.Lib.Records
import Mathlib.Data.FinEnum

/-!
# exFAT: entry sets as records of slots

A directory is a list of slots of 32 bytes, and an entry set is a record of such slots:
the file entry, the stream entry and the entries with the name. The code that builds an
entry set, or changes its stream entry, stores a set that is decoded to the node that
one expects.

## Main results

- `setNode_built`: the node of a set that `build_entry_set` builds.
-/
namespace AsasOs.ExFat

open Block Bytes Records

variable {context : Context}

/-! ### Slots -/

abbrev Slot := List UInt8

def slotType (slot : Slot) : UInt8 := byteAt slot 0

/-- The number of entries of the set that begins with this one. -/
def announced (slot : Slot) : Nat := (byteAt slot 1).toNat + 1

def SetHead (slot : Slot) : Prop :=
  slotType slot = EXFAT_ENTRY_FILE ∧ 3 ≤ announced slot ∧ announced slot ≤ 19

instance (slot : Slot) : Decidable (SetHead slot) :=
  inferInstanceAs (Decidable (_ ∧ _ ∧ _))

structure WholeSet (record : List Slot) : Prop where
  sized : ∀ slot ∈ record, slot.length = 32
  head : ∃ head rest, record = head :: rest ∧ SetHead head ∧ rest.length + 1 = announced head
  secondary : ∀ slot ∈ record.tail, 0xC0 ≤ slotType slot

theorem WholeSet.parts {record : List Slot} (whole : WholeSet record) :
    ∃ head stream names, record = head :: stream :: names ∧ SetHead head ∧
      names.length + 2 = announced head := by
  obtain ⟨head, rest, rfl, first, count⟩ := whole.head
  cases rest with
  | nil =>
    have enough := first.2.1
    rw [← count] at enough
    exact absurd enough (by decide)
  | cons stream names => exact ⟨head, stream, names, rfl, first, count⟩

theorem WholeSet.length_le {record : List Slot} (whole : WholeSet record) : record.length ≤ 19 := by
  obtain ⟨head, rest, rfl, first, count⟩ := whole.head
  rw [List.length_cons, count]
  exact first.2.2

theorem secondary_used : ∀ type : UInt8, 0xC0 ≤ type → type &&& 0x80 ≠ 0 := by decide +kernel

theorem WholeSet.used {record : List Slot} (whole : WholeSet record) {slot : Slot}
    (member : slot ∈ record) : slotType slot &&& 0x80 ≠ 0 := by
  obtain ⟨head, rest, rfl, first, count⟩ := whole.head
  rcases List.mem_cons.mp member with rfl | later
  · rw [first.1]
    decide
  · exact secondary_used _ (whole.secondary slot later)

/-- The slots of a directory, as far as `visit_directory` and `find_free_entries` tell
them apart. -/
def entryFormat : Format Slot where
  ends slot := slotType slot = 0
  free slot := slotType slot &&& 0x80 = 0
  heads := SetHead
  record := WholeSet
  ends_free := by
    intro slot zero
    rw [zero]
    decide
  free_not_heads := by
    intro slot unused first
    rw [first.1] at unused
    exact absurd unused (by decide)
  record_some := by
    intro record whole
    obtain ⟨head, rest, rfl, _⟩ := whole.head
    exact List.cons_ne_nil head rest
  record_used := fun _ whole _ member => whole.used member

/-! ### The node of a set -/

def Node.placed (node : Node) (directory : Node) (offset : Nat) : Node :=
  { node with
    parentFirstCluster := directory.firstCluster
    parentNoFatChain := directory.noFatChain
    parentDataLength := directory.dataLength
    entryOffset := offset }

/-- The node of an entry set, wherever it lies. -/
def setNode (context : Context) (record : List Slot) : Option Node :=
  nodeOfSet context {} record.flatten (record.length * 32)

def storedName (stream : Slot) (names : List Slot) : List Nat :=
  ((names.filter fun entry => slotType entry == EXFAT_ENTRY_NAME).flatMap nameUnits).take
    (byteAt stream 3).toNat

/-- The node in the entries of a set. -/
def entryNode (head stream : Slot) (names : List Slot) : Node where
  attributes := getLE head 4 2
  noFatChain := byteAt stream 1 &&& EXFAT_STREAM_NO_FAT_CHAIN != 0
  name := storedName stream names
  validDataLength := getLE stream 8 8
  firstCluster := getLE stream 20 4
  dataLength := getLE stream 24 8
  entryCount := names.length + 2

/-- What `visit_directory` asks of a set. -/
structure EntriesValid (context : Context) (head stream : Slot) (names : List Slot) : Prop where
  type : slotType stream = EXFAT_ENTRY_STREAM
  checksum : entrySetChecksum (head :: stream :: names).flatten = getLE head 2 2
  named : (byteAt stream 3).toNat ≠ 0
  lengths : getLE stream 8 8 ≤ getLE stream 24 8
  stored : getLE stream 24 8 ≠ 0 → context.validCluster (getLE stream 20 4) = true
  spelled : (storedName stream names).length = (byteAt stream 3).toNat

section Fields

variable {head stream : Slot} {names record : List Slot}

theorem getLE_second (sized : head.length = 32) (sized' : stream.length = 32) (offset : Nat)
    {width : Nat} (inside : offset + width ≤ 32) :
    getLE (head :: stream :: names).flatten (32 + offset) width = getLE stream offset width := by
  rw [List.flatten_cons, List.flatten_cons, ← sized, getLE_append_right,
    getLE_append_left (by omega)]

theorem byteAt_second (sized : head.length = 32) (sized' : stream.length = 32) (offset : Nat)
    (inside : offset < 32) :
    byteAt (head :: stream :: names).flatten (32 + offset) = byteAt stream offset := by
  rw [List.flatten_cons, List.flatten_cons, ← sized, byteAt_append_right,
    byteAt_append_left (by omega)]

theorem slots_of_flatten (sized : ∀ slot ∈ record, slot.length = 32) :
    (List.range record.length).map (fun index => slice record.flatten (index * 32) 32) = record := by
  apply List.ext_getElem
  · simp
  · intro index low high
    rw [List.getElem_map, List.getElem_range, slice_flatten sized high]

theorem nodeOfSet_some {node directory : Node} {processed : Nat}
    (sized : ∀ slot ∈ head :: stream :: names, slot.length = 32) :
    nodeOfSet context directory (head :: stream :: names).flatten processed = some node ↔
      EntriesValid context head stream names ∧ node = (entryNode head stream names).placed directory
        (processed - (names.length + 2) * 32) := by
  have first := sized head List.mem_cons_self
  have second := sized stream (List.mem_cons_of_mem _ List.mem_cons_self)
  have count : (head :: stream :: names).flatten.length / 32 = names.length + 2 := by
    rw [flatten_length sized, Nat.mul_div_cancel _ (by decide)]
    rfl
  have slots := slots_of_flatten sized
  rw [show (head :: stream :: names).length = names.length + 2 from rfl] at slots
  have attributes : getLE (head :: stream :: names).flatten 4 2 = getLE head 4 2 :=
    getLE_append_left (by omega)
  have checksum : getLE (head :: stream :: names).flatten 2 2 = getLE head 2 2 :=
    getLE_append_left (by omega)
  have type : byteAt (head :: stream :: names).flatten 32 = byteAt stream 0 :=
    byteAt_second first second 0 (by decide)
  have flags : byteAt (head :: stream :: names).flatten 33 = byteAt stream 1 :=
    byteAt_second first second 1 (by decide)
  have length : byteAt (head :: stream :: names).flatten 35 = byteAt stream 3 :=
    byteAt_second first second 3 (by decide)
  have valid : getLE (head :: stream :: names).flatten 40 8 = getLE stream 8 8 :=
    getLE_second first second 8 (by decide)
  have cluster : getLE (head :: stream :: names).flatten 52 4 = getLE stream 20 4 :=
    getLE_second first second 20 (by decide)
  have data : getLE (head :: stream :: names).flatten 56 8 = getLE stream 24 8 :=
    getLE_second first second 24 (by decide)
  unfold nodeOfSet
  simp only [count, slots, attributes, checksum, type, flags, length, valid, cluster, data,
    List.drop_succ_cons, List.drop_zero]
  rw [Option.ite_none_right_eq_some]
  constructor
  · rintro ⟨⟨isStream, sum, named, lengths, stored, spelled⟩, same⟩
    refine ⟨⟨isStream, sum, named, by omega, ?_, spelled⟩, ?_⟩
    · intro some_data
      by_contra invalid
      exact stored ⟨some_data, invalid⟩
    · exact (Option.some.inj same).symm
  · rintro ⟨valid, rfl⟩
    refine ⟨⟨valid.type, valid.checksum, valid.named, Nat.not_lt.mpr valid.lengths, ?_, valid.spelled⟩, rfl⟩
    rintro ⟨some_data, invalid⟩
    exact invalid (valid.stored some_data)

theorem setNode_some {node : Node} (sized : ∀ slot ∈ head :: stream :: names, slot.length = 32) :
    setNode context (head :: stream :: names) = some node ↔
      EntriesValid context head stream names ∧ node = entryNode head stream names := by
  have whole : (head :: stream :: names).length * 32 - (names.length + 2) * 32 = 0 := Nat.sub_self _
  rw [setNode, nodeOfSet_some sized, whole]
  rfl

theorem nodeOfSet_placed {node directory : Node} {processed : Nat} (whole : WholeSet record)
    (stored : setNode context record = some node) :
    nodeOfSet context directory record.flatten processed =
      some (node.placed directory (processed - record.length * 32)) := by
  obtain ⟨head, stream, names, rfl, -, -⟩ := whole.parts
  obtain ⟨valid, rfl⟩ := (setNode_some whole.sized).mp stored
  exact (nodeOfSet_some whole.sized).mpr ⟨valid, rfl⟩

/-! ### The checksum -/

theorem entrySetChecksum_lt (set : List UInt8) : entrySetChecksum set < 2 ^ 16 :=
  UInt16.toNat_lt _

theorem entrySetChecksum_putLE {set : List UInt8} (fits : 4 ≤ set.length) (checksum : Nat) :
    entrySetChecksum (putLE set 2 2 checksum) = entrySetChecksum set := by
  have front : slice (putLE set 2 2 checksum) 0 2 = slice set 0 2 :=
    slice_putLE_other fits (Or.inl (Nat.le_refl 2))
  rw [slice, slice, List.drop_zero, List.drop_zero] at front
  have back : (putLE set 2 2 checksum).drop 4 = set.drop 4 := by
    apply List.ext_getElem?
    intro i
    rw [List.getElem?_drop, List.getElem?_drop, putLE, put_getElem? (by omega), digits_length,
      if_neg (by omega)]
  rw [entrySetChecksum, entrySetChecksum, front, back]

/-- The slots of a set with its checksum. -/
def stamped (head stream : Slot) (names : List Slot) : List Slot :=
  putLE head 2 2 (entrySetChecksum (head :: stream :: names).flatten) :: stream :: names

theorem withChecksum_flatten (sized : head.length = 32) :
    withChecksum (head :: stream :: names).flatten = (stamped head stream names).flatten := by
  rw [withChecksum, stamped, List.flatten_cons, List.flatten_cons, putLE, putLE,
    put_append_left (by rw [digits_length]; omega)]
  rfl

theorem checksum_stamped (sized : head.length = 32) :
    entrySetChecksum (stamped head stream names).flatten =
      getLE (putLE head 2 2 (entrySetChecksum (head :: stream :: names).flatten)) 2 2 := by
  have small := entrySetChecksum_lt (head :: stream :: names).flatten
  rw [← withChecksum_flatten sized, withChecksum, entrySetChecksum_putLE, getLE_putLE (by omega),
    show 256 ^ 2 = 2 ^ 16 from rfl, Nat.mod_eq_of_lt small]
  rw [List.flatten_cons, List.length_append]
  omega

theorem stamped_sized (sized : ∀ slot ∈ head :: stream :: names, slot.length = 32) :
    ∀ slot ∈ stamped head stream names, slot.length = 32 := by
  intro slot member
  rcases List.mem_cons.mp member with rfl | later
  · have first := sized head List.mem_cons_self
    rw [putLE_length (by omega), first]
  · exact sized slot (List.mem_cons_of_mem _ later)

theorem byteAt_stamp (sized : head.length = 32) (checksum : Nat) {offset : Nat}
    (apart : offset < 2 ∨ 4 ≤ offset) : byteAt (putLE head 2 2 checksum) offset =
    byteAt head offset := by
  rw [putLE, byteAt_put (by omega), digits_length, if_neg (by omega)]

theorem stamped_whole (sized : ∀ slot ∈ head :: stream :: names, slot.length = 32)
    (first : SetHead head) (count : names.length + 2 = announced head)
    (secondary : ∀ slot ∈ stream :: names, 0xC0 ≤ slotType slot) :
    WholeSet (stamped head stream names) := by
  have here := sized head List.mem_cons_self
  refine ⟨stamped_sized sized, ⟨_, _, rfl, ?_, ?_⟩, secondary⟩
  · rw [SetHead, slotType, announced, byteAt_stamp here _ (by decide), byteAt_stamp here _ (by decide)]
    exact first
  · rw [announced, byteAt_stamp here _ (by decide)]
    exact count

/-! ### A changed stream entry -/

/-- The set that `update_node_stream` writes. -/
def changedSet (set : List UInt8) (firstCluster dataLength validLength : Nat) (noFatChain : Bool) :
    List UInt8 :=
  withChecksum (putLE (putLE (putLE (put set 33 [streamFlags noFatChain]) 40 8 validLength)
    52 4 firstCluster) 56 8 dataLength)

theorem streamFlags_decoded (noFatChain : Bool) :
    (streamFlags noFatChain &&& EXFAT_STREAM_NO_FAT_CHAIN != 0) = noFatChain := by
  cases noFatChain <;> rfl

/-- A stream entry can hold these numbers. -/
structure StreamFits (context : Context) (firstCluster dataLength validLength : Nat) : Prop where
  cluster : firstCluster < 2 ^ 32
  data : dataLength < 2 ^ 64
  valid : validLength ≤ dataLength
  stored : dataLength ≠ 0 → context.validCluster firstCluster = true

end Fields

/-! ### A new set -/

section Build

variable {name : List Nat}

theorem nameEntry_length (name : List Nat) (index : Nat) : (nameEntry name index).length = 32 := by
  have body : ((List.range 15).flatMap fun character =>
      digits 2 (name.getD (index * 15 + character) 0)).length = 15 * 2 := by
    rw [List.flatMap_def, flatten_length, List.length_map, List.length_range]
    intro block member
    obtain ⟨character, -, rfl⟩ := List.mem_map.mp member
    exact digits_length _ _
  rw [nameEntry, List.length_cons, List.length_cons, body]

theorem nameUnits_nameEntry (small : ∀ unit ∈ name, unit < 2 ^ 16) (index : Nat) :
    nameUnits (nameEntry name index) =
      (List.range 15).map fun character => name.getD (index * 15 + character) 0 := by
  have sized : ∀ block ∈ (List.range 15).map (fun character =>
      digits 2 (name.getD (index * 15 + character) 0)), block.length = 2 := by
    intro block member
    obtain ⟨character, -, rfl⟩ := List.mem_map.mp member
    exact digits_length _ _
  apply List.map_congr_left
  intro character member
  have below : character < ((List.range 15).map fun character =>
      digits 2 (name.getD (index * 15 + character) 0)).length := by
    rw [List.length_map]
    simpa using member
  have part : slice (nameEntry name index) (2 + character * 2) 2 =
      digits 2 (name.getD (index * 15 + character) 0) := by
    have behind : slice ([EXFAT_ENTRY_NAME, 0] ++ ((List.range 15).map fun character =>
        digits 2 (name.getD (index * 15 + character) 0)).flatten)
          ([EXFAT_ENTRY_NAME, (0 : UInt8)].length + character * 2) 2 =
        slice ((List.range 15).map fun character =>
          digits 2 (name.getD (index * 15 + character) 0)).flatten (character * 2) 2 :=
      slice_append_right
    rw [slice_flatten sized below, List.getElem_map, List.getElem_range] at behind
    exact behind
  have unit : name.getD (index * 15 + character) 0 < 2 ^ 16 := by
    rw [List.getD_eq_getElem?_getD]
    cases found : name[index * 15 + character]? with
    | none => decide
    | some unit => exact small unit (List.mem_of_getElem? found)
  rw [getLE, part, value_digits, show 256 ^ 2 = 2 ^ 16 from rfl, Nat.mod_eq_of_lt unit]

theorem flatMap_rows (content : Nat → Nat) (rows width : Nat) : (List.range rows).flatMap (fun row =>
      (List.range width).map fun column => content (row * width + column)) =
        (List.range (rows * width)).map content := by
  induction rows with
  | zero => simp
  | succ rows ih =>
    rw [List.range_succ, List.flatMap_append, ih, Nat.succ_mul, List.range_add, List.map_append]
    simp [Function.comp_def]

theorem take_getD_range {count : Nat} (enough : name.length ≤ count) :
    ((List.range count).map fun i => name.getD i 0).take name.length = name := by
  apply List.ext_getElem
  · simp [enough]
  · intro i low high
    simp [high]

/-- The file entry that `build_entry_set` writes. -/
def builtHead (attributes entries : Nat) : Slot :=
  putLE (put (List.replicate 32 0) 0 [EXFAT_ENTRY_FILE, UInt8.ofNat (entries - 1)]) 4 2 attributes

/-- The stream entry that it writes. -/
def builtStream (context : Context) (name : List Nat) (firstCluster dataLength validLength : Nat)
    (noFatChain : Bool) : Slot :=
  putLE (putLE (putLE (putLE (put (List.replicate 32 0) 0
    [EXFAT_ENTRY_STREAM, streamFlags noFatChain, 0, UInt8.ofNat name.length])
      4 2 (nameHash context name)) 8 8 validLength) 20 4 firstCluster) 24 8 dataLength

theorem builtHead_length (attributes entries : Nat) : (builtHead attributes entries).length = 32 := by
  have zeros : (List.replicate 32 (0 : UInt8)).length = 32 := List.length_replicate
  have typed : (put (List.replicate 32 0) 0 [EXFAT_ENTRY_FILE, UInt8.ofNat (entries - 1)]).length =
      32 := by
    rw [put_length (by simp), zeros]
  rw [builtHead, putLE_length (by omega), typed]

theorem builtHead_spec {attributes entries : Nat} (small : attributes < 2 ^ 16)
    (few : 3 ≤ entries ∧ entries ≤ 19) :
    (builtHead attributes entries).length = 32 ∧ SetHead (builtHead attributes entries) ∧
      announced (builtHead attributes entries) = entries ∧
      getLE (builtHead attributes entries) 4 2 = attributes := by
  have zeros : (List.replicate 32 (0 : UInt8)).length = 32 := List.length_replicate
  have typed : (put (List.replicate 32 0) 0 [EXFAT_ENTRY_FILE, UInt8.ofNat (entries - 1)]).length =
      32 := by
    rw [put_length (by simp), zeros]
  have type : slotType (builtHead attributes entries) = EXFAT_ENTRY_FILE := by
    rw [slotType, builtHead, putLE, byteAt_put (by omega), digits_length, if_neg (by omega),
      byteAt_put (by omega), if_pos (by simp)]
    rfl
  have count : announced (builtHead attributes entries) = entries := by
    rw [announced, builtHead, putLE, byteAt_put (by omega), digits_length, if_neg (by omega),
      byteAt_put (by omega), if_pos (by simp)]
    change (UInt8.ofNat (entries - 1)).toNat + 1 = entries
    rw [UInt8.toNat_ofNat', Nat.mod_eq_of_lt (by omega)]
    omega
  refine ⟨builtHead_length attributes entries, ⟨type, ?_⟩, count, ?_⟩
  · rw [count]
    exact few
  · rw [builtHead, getLE_putLE (by omega), show 256 ^ 2 = 2 ^ 16 from rfl, Nat.mod_eq_of_lt small]

theorem builtStream_lengths (context : Context) (name : List Nat)
    (firstCluster validLength : Nat) (noFatChain : Bool) :
    (put (List.replicate 32 0) 0 [EXFAT_ENTRY_STREAM, streamFlags noFatChain, 0,
      UInt8.ofNat name.length]).length = 32 ∧
    (putLE (put (List.replicate 32 0) 0 [EXFAT_ENTRY_STREAM, streamFlags noFatChain, 0,
      UInt8.ofNat name.length]) 4 2 (nameHash context name)).length = 32 ∧
    (putLE (putLE (put (List.replicate 32 0) 0 [EXFAT_ENTRY_STREAM, streamFlags noFatChain, 0,
      UInt8.ofNat name.length]) 4 2 (nameHash context name)) 8 8 validLength).length = 32 ∧
    (putLE (putLE (putLE (put (List.replicate 32 0) 0 [EXFAT_ENTRY_STREAM,
      streamFlags noFatChain, 0, UInt8.ofNat name.length]) 4 2 (nameHash context name))
        8 8 validLength) 20 4 firstCluster).length = 32 := by
  have zeros : (List.replicate 32 (0 : UInt8)).length = 32 := List.length_replicate
  have typed : (put (List.replicate 32 0) 0 [EXFAT_ENTRY_STREAM, streamFlags noFatChain, 0,
      UInt8.ofNat name.length]).length = 32 := by
    rw [put_length (by simp), zeros]
  have hashed : (putLE (put (List.replicate 32 0) 0 [EXFAT_ENTRY_STREAM, streamFlags noFatChain, 0,
      UInt8.ofNat name.length]) 4 2 (nameHash context name)).length = 32 := by
    rw [putLE_length (by omega), typed]
  have valid : (putLE (putLE (put (List.replicate 32 0) 0 [EXFAT_ENTRY_STREAM,
      streamFlags noFatChain, 0, UInt8.ofNat name.length]) 4 2 (nameHash context name))
        8 8 validLength).length = 32 := by
    rw [putLE_length (by omega), hashed]
  have cluster : (putLE (putLE (putLE (put (List.replicate 32 0) 0 [EXFAT_ENTRY_STREAM,
      streamFlags noFatChain, 0, UInt8.ofNat name.length]) 4 2 (nameHash context name))
        8 8 validLength) 20 4 firstCluster).length = 32 := by
    rw [putLE_length (by omega), valid]
  exact ⟨typed, hashed, valid, cluster⟩

theorem builtStream_spec {firstCluster dataLength validLength : Nat}
    (fits : StreamFits context firstCluster dataLength validLength) (short : name.length ≤ 255)
    (noFatChain : Bool) :
    let stream := builtStream context name firstCluster dataLength validLength noFatChain
    stream.length = 32 ∧ slotType stream = EXFAT_ENTRY_STREAM ∧
      byteAt stream 1 = streamFlags noFatChain ∧ (byteAt stream 3).toNat = name.length ∧
      getLE stream 8 8 = validLength ∧ getLE stream 20 4 = firstCluster ∧
      getLE stream 24 8 = dataLength := by
  obtain ⟨typed, hashed, valid, cluster⟩ :=
    builtStream_lengths context name firstCluster validLength noFatChain
  have small := fits.cluster
  have small' := fits.data
  have small'' := fits.valid
  -- the first four bytes are stored first, and the other fields lie behind them
  have front : ∀ offset < 4, byteAt (builtStream context name firstCluster dataLength validLength
      noFatChain) offset = byteAt [EXFAT_ENTRY_STREAM, streamFlags noFatChain, 0,
        UInt8.ofNat name.length] offset := by
    intro offset low
    rw [builtStream, putLE, byteAt_put (by omega), digits_length, if_neg (by omega), putLE,
      byteAt_put (by omega), digits_length, if_neg (by omega), putLE, byteAt_put (by omega),
      digits_length, if_neg (by omega), putLE, byteAt_put (by omega), digits_length,
      if_neg (by omega), byteAt_put (by omega), if_pos (by simpa using low), Nat.sub_zero]
  refine ⟨?_, front 0 (by decide), front 1 (by decide), ?_, ?_, ?_, ?_⟩
  · rw [builtStream, putLE_length (by omega), cluster]
  · rw [front 3 (by decide)]
    change (UInt8.ofNat name.length).toNat = name.length
    rw [UInt8.toNat_ofNat', Nat.mod_eq_of_lt (by omega)]
  · rw [builtStream, putLE, getLE_put_other (by omega) (by omega), putLE,
      getLE_put_other (by omega) (by omega), getLE_putLE (by omega),
      show 256 ^ 8 = 2 ^ 64 from rfl, Nat.mod_eq_of_lt (by omega)]
  · rw [builtStream, putLE, getLE_put_other (by omega) (by omega), getLE_putLE (by omega),
      show 256 ^ 4 = 2 ^ 32 from rfl, Nat.mod_eq_of_lt small]
  · rw [builtStream, getLE_putLE (by omega), show 256 ^ 8 = 2 ^ 64 from rfl, Nat.mod_eq_of_lt small']

theorem builtStream_hash (firstCluster dataLength validLength : Nat) (noFatChain : Bool) :
    getLE (builtStream context name firstCluster dataLength validLength noFatChain) 4 2 =
      nameHash context name := by
  obtain ⟨typed, hashed, valid, cluster⟩ :=
    builtStream_lengths context name firstCluster validLength noFatChain
  have small : nameHash context name < 2 ^ 16 := UInt16.toNat_lt _
  rw [builtStream, putLE, getLE_put_other (by omega) (by omega), putLE,
    getLE_put_other (by omega) (by omega), putLE, getLE_put_other (by omega) (by omega),
    getLE_putLE (by omega), show 256 ^ 2 = 2 ^ 16 from rfl, Nat.mod_eq_of_lt small]

theorem buildEntrySet_form {attributes firstCluster dataLength validLength : Nat}
    {noFatChain : Bool} {set : List UInt8}
    (built : buildEntrySet context name attributes firstCluster dataLength validLength noFatChain =
      some set) :
    ¬(name.length = 0 ∨ name.length > 255 ∨ 2 + (name.length + 14) / 15 > 19) ∧
      set = (stamped (builtHead attributes (2 + (name.length + 14) / 15))
        (builtStream context name firstCluster dataLength validLength noFatChain)
        ((List.range ((name.length + 14) / 15)).map (nameEntry name))).flatten := by
  unfold buildEntrySet at built
  dsimp only at built
  rw [Option.ite_none_left_eq_some] at built
  obtain ⟨lengths, built⟩ := built
  refine ⟨lengths, ?_⟩
  rw [← withChecksum_flatten (builtHead_length _ _)]
  refine (Option.some.inj built).symm.trans ?_
  rw [List.flatten_cons, List.flatten_cons, List.flatMap_def, ← List.append_assoc]
  rfl

/-- The set that `build_entry_set` builds is decoded to the node that it is built for. -/
theorem setNode_built {attributes firstCluster dataLength validLength : Nat} {noFatChain : Bool}
    {set : List UInt8}
    (built : buildEntrySet context name attributes firstCluster dataLength validLength noFatChain = some set)
    (units : ∀ unit ∈ name, unit < 2 ^ 16) (small : attributes < 2 ^ 16)
    (fits : StreamFits context firstCluster dataLength validLength) :
    ∃ record, WholeSet record ∧ set = record.flatten ∧ setNode context record = some
      { attributes := attributes, firstCluster := firstCluster, dataLength := dataLength
        validDataLength := validLength, noFatChain := noFatChain, name := name
        entryCount := record.length } := by
  have enough : name.length ≤ (name.length + 14) / 15 * 15 := by omega
  obtain ⟨lengths, same⟩ := buildEntrySet_form built
  obtain ⟨headSized, first, count, attributesKept⟩ :=
    builtHead_spec small (show 3 ≤ 2 + (name.length + 14) / 15 ∧
      2 + (name.length + 14) / 15 ≤ 19 by omega)
  obtain ⟨streamSized, type, flags, length, valid, cluster, data⟩ :=
    builtStream_spec fits (show name.length ≤ 255 by omega) noFatChain
  generalize entries : (name.length + 14) / 15 = rows at *
  have allSized : ∀ slot ∈ builtHead attributes (2 + rows) ::
      builtStream context name firstCluster dataLength validLength noFatChain ::
      (List.range rows).map (nameEntry name), slot.length = 32 := by
    intro slot member
    rcases List.mem_cons.mp member with rfl | later
    · exact headSized
    · rcases List.mem_cons.mp later with rfl | named
      · exact streamSized
      · obtain ⟨index, -, rfl⟩ := List.mem_map.mp named
        exact nameEntry_length name index
  have spelled : storedName (builtStream context name firstCluster dataLength validLength noFatChain)
      ((List.range rows).map (nameEntry name)) = name := by
    have all : ((List.range rows).map (nameEntry name)).filter
        (fun entry => slotType entry == EXFAT_ENTRY_NAME) = (List.range rows).map (nameEntry name) := by
      refine List.filter_eq_self.mpr fun entry member => ?_
      obtain ⟨index, -, rfl⟩ := List.mem_map.mp member
      exact beq_iff_eq.mpr rfl
    rw [storedName, all, List.flatMap_map, length]
    simp only [nameUnits_nameEntry units]
    rw [flatMap_rows fun i => name.getD i 0]
    exact take_getD_range enough
  have whole := stamped_whole allSized first (by
    rw [count, List.length_map, List.length_range, Nat.add_comm]) fun slot member => by
      rcases List.mem_cons.mp member with rfl | named
      · rw [type]
        decide
      · obtain ⟨index, -, rfl⟩ := List.mem_map.mp named
        exact (by decide : (0xC0 : UInt8) ≤ EXFAT_ENTRY_NAME)
  refine ⟨_, whole, same, ?_⟩
  refine (setNode_some (stamped_sized allSized)).mpr ⟨?_, ?_⟩
  · refine ⟨type, checksum_stamped headSized, ?_, ?_, ?_, ?_⟩
    · omega
    · rw [valid, data]
      exact fits.valid
    · rw [data, cluster]
      exact fits.stored
    · rw [spelled, length]
  · have attributes' : getLE (putLE (builtHead attributes (2 + rows)) 2 2 (entrySetChecksum
        (builtHead attributes (2 + rows) ::
          builtStream context name firstCluster dataLength validLength noFatChain ::
          (List.range rows).map (nameEntry name)).flatten)) 4 2 = attributes := by
      rw [putLE, getLE_put_other (by omega) (by rw [digits_length]; omega), attributesKept]
    simp only [entryNode, attributes', flags, valid, cluster, data, spelled, streamFlags_decoded]
    rfl

end Build

end AsasOs.ExFat
