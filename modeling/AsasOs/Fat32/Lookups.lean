import AsasOs.Fat32.Association

/-!
# FAT32: two lookups of a name

`search_dir_chain` and `fat32_find_named_entry` look a name up in a directory. The second one
sees the first sixteen entries of every sector only. It starts over at entries that the first
one passes over, and when it has no room for the position of another long-name entry, so it
knows fewer long names.

## Main result

- `lookups_agree_iff`: when the two select the same entry.
-/
namespace AsasOs.Fat32

open Prog

/-! ### Selecting an entry -/

/-- The slots among some entries that a lookup sees. -/
def seenSlots (sees : Position → Bool) (entries : List (Position × Slot)) : List Slot :=
  (entries.filter fun entry => sees entry.1).map Prod.snd

/-- The first entry that a lookup sees and that has a property, with the number of entries
before it. The property may depend on the slots that were seen before; a lookup stops at the
first end mark that it sees. -/
def select (sees : Position → Bool) (p : List Slot → Slot → Bool) (before : List Slot) :
    List (Position × Slot) → Option (Nat × Position × Slot)
  | [] => none
  | entry :: rest =>
    if sees entry.1 then
      if entry.2.isEnd then none
      else if p before entry.2 then some (0, entry)
      else (select sees p (before ++ [entry.2]) rest).map fun later => (later.1 + 1, later.2)
    else (select sees p before rest).map fun later => (later.1 + 1, later.2)

/-- An entry that a lookup sees, before the first end mark that it sees, and that has a
property. -/
structure Candidate (sees : Position → Bool) (p : List Slot → Slot → Bool) (before : List Slot)
    (entries : List (Position × Slot)) (passed : List (Position × Slot)) (entry : Position × Slot) :
    Prop where
  place : ∃ behind, entries = passed ++ entry :: behind
  seen : sees entry.1 = true
  live : ∀ other ∈ passed ++ [entry], sees other.1 = true → other.2.isEnd = false
  named : p (before ++ seenSlots sees passed) entry.2 = true

section Select

variable {sees sees' : Position → Bool} {p q : List Slot → Slot → Bool} {before before' : List Slot}
  {entries passed rest : List (Position × Slot)} {first entry : Position × Slot}

theorem seenSlots_cons : seenSlots sees (first :: entries) =
    if sees first.1 then first.2 :: seenSlots sees entries else seenSlots sees entries := by
  unfold seenSlots
  rw [List.filter_cons]
  split <;> rfl

theorem candidate_head : Candidate sees p before (first :: rest) [] entry ↔
    entry = first ∧ sees first.1 = true ∧ first.2.isEnd = false ∧ p before first.2 = true := by
  constructor
  · rintro ⟨⟨behind, split⟩, seen, live, named⟩
    obtain ⟨rfl, -⟩ := List.cons.inj split
    exact ⟨rfl, seen, live _ List.mem_cons_self seen, by simpa [seenSlots] using named⟩
  · rintro ⟨rfl, seen, live, named⟩
    refine ⟨⟨rest, rfl⟩, seen, fun other member _ => ?_, by simpa [seenSlots] using named⟩
    rw [List.mem_singleton.mp member]
    exact live

theorem candidate_tail : Candidate sees p before (first :: rest) (first :: passed) entry ↔
    (sees first.1 = true → first.2.isEnd = false) ∧
      Candidate sees p (before ++ seenSlots sees [first]) rest passed entry := by
  have slots : before ++ seenSlots sees (first :: passed) =
      before ++ seenSlots sees [first] ++ seenSlots sees passed := by
    simp only [seenSlots_cons]
    split <;> simp [seenSlots]
  constructor
  · rintro ⟨⟨behind, split⟩, seen, live, named⟩
    rw [slots] at named
    exact ⟨live _ List.mem_cons_self, ⟨behind, (List.cons.inj split).2⟩, seen,
      fun other member => live other (List.mem_cons_of_mem _ member), named⟩
  · rintro ⟨used, ⟨behind, rfl⟩, seen, live, named⟩
    rw [← slots] at named
    refine ⟨⟨behind, rfl⟩, seen, fun other member => ?_, named⟩
    rcases List.mem_cons.mp member with rfl | later
    · exact used
    · exact live other later

theorem candidate_passed (candidate : Candidate sees p before (first :: rest) passed entry) :
    passed = [] ∨ ∃ later, passed = first :: later := by
  obtain ⟨behind, split⟩ := candidate.place
  cases passed with
  | nil => exact .inl rfl
  | cons head later =>
    obtain ⟨rfl, -⟩ := List.cons.inj split
    exact .inr ⟨later, rfl⟩

/-- What is selected is the first candidate; nothing is selected when there is none. -/
theorem select_spec (sees : Position → Bool) (p : List Slot → Slot → Bool)
    (entries : List (Position × Slot)) : ∀ before,
      (select sees p before entries = none ∧ ∀ passed entry, ¬Candidate sees p before entries passed entry) ∨
      ∃ passed entry, select sees p before entries = some (passed.length, entry) ∧
        Candidate sees p before entries passed entry ∧
        ∀ other entry', Candidate sees p before entries other entry' → passed.length ≤ other.length := by
  induction entries with
  | nil =>
    refine fun before => .inl ⟨rfl, fun passed entry candidate => ?_⟩
    obtain ⟨behind, split⟩ := candidate.place
    simp at split
  | cons first rest ih =>
    intro before
    -- the first entry is passed over
    have later (used : sees first.1 = true → first.2.isEnd = false)
        (other : ∀ entry, ¬Candidate sees p before (first :: rest) [] entry)
        (goes : select sees p before (first :: rest) =
          (select sees p (before ++ seenSlots sees [first]) rest).map fun later => (later.1 + 1, later.2)) :
        (select sees p before (first :: rest) = none ∧
            ∀ passed entry, ¬Candidate sees p before (first :: rest) passed entry) ∨
          ∃ passed entry, select sees p before (first :: rest) = some (passed.length, entry) ∧
            Candidate sees p before (first :: rest) passed entry ∧
            ∀ other entry', Candidate sees p before (first :: rest) other entry' →
              passed.length ≤ other.length := by
      rw [goes]
      obtain ⟨none_, no⟩ | ⟨passed, entry, found, candidate, least⟩ :=
        ih (before ++ seenSlots sees [first])
      · refine .inl ⟨by rw [none_]; rfl, fun passed entry candidate => ?_⟩
        obtain rfl | ⟨later, rfl⟩ := candidate_passed candidate
        · exact other entry candidate
        · exact no later entry (candidate_tail.mp candidate).2
      · refine .inr ⟨first :: passed, entry, by rw [found]; rfl,
          candidate_tail.mpr ⟨used, candidate⟩, fun passed' entry' candidate' => ?_⟩
        obtain rfl | ⟨later, rfl⟩ := candidate_passed candidate'
        · exact absurd candidate' (other entry')
        · exact Nat.succ_le_succ (least later entry' (candidate_tail.mp candidate').2)
    by_cases seen : sees first.1 = true
    · by_cases ends : first.2.isEnd = true
      · refine .inl ⟨by rw [select, if_pos seen, if_pos ends], fun passed entry candidate => ?_⟩
        obtain rfl | ⟨later, rfl⟩ := candidate_passed candidate
        · simp [(candidate_head.mp candidate).2.2.1] at ends
        · simp [(candidate_tail.mp candidate).1 seen] at ends
      · have used : first.2.isEnd = false := by simpa using ends
        by_cases named : p before first.2 = true
        · exact .inr ⟨[], first, by rw [select, if_pos seen, if_neg ends, if_pos named]; rfl,
            candidate_head.mpr ⟨rfl, seen, used, named⟩, fun _ _ _ => Nat.zero_le _⟩
        · refine later (fun _ => used) (fun entry candidate => named (candidate_head.mp candidate).2.2.2) ?_
          rw [select, if_pos seen, if_neg ends, if_neg named, seenSlots_cons, if_pos seen]
          rfl
    · refine later (fun here => absurd here seen)
        (fun entry candidate => seen (candidate_head.mp candidate).2.1) ?_
      rw [select, if_neg seen, seenSlots_cons, if_neg seen]
      exact congrArg (fun before => (select sees p before rest).map _) (List.append_nil before).symm

/-- Two lookups select the same entry exactly when each candidate of the one stands at or
behind a candidate of the other. -/
theorem select_eq_iff : select sees p before entries = select sees' q before' entries ↔
    (∀ passed entry, Candidate sees p before entries passed entry → ∃ passed' entry',
      passed'.length ≤ passed.length ∧ Candidate sees' q before' entries passed' entry') ∧
    (∀ passed entry, Candidate sees' q before' entries passed entry → ∃ passed' entry',
      passed'.length ≤ passed.length ∧ Candidate sees p before entries passed' entry') := by
  obtain ⟨none_, no⟩ | ⟨passed, entry, found, candidate, least⟩ := select_spec sees p entries before
  · obtain ⟨none', no'⟩ | ⟨passed', entry', found', candidate', -⟩ := select_spec sees' q entries before'
    · rw [none_, none']
      exact iff_of_true rfl ⟨fun passed entry here => absurd here (no passed entry),
        fun passed entry here => absurd here (no' passed entry)⟩
    · rw [none_, found']
      refine iff_of_false (Option.some_ne_none _).symm fun both => ?_
      obtain ⟨other, entry, -, here⟩ := both.2 passed' entry' candidate'
      exact no other entry here
  · obtain ⟨none', no'⟩ | ⟨passed', entry', found', candidate', least'⟩ := select_spec sees' q entries before'
    · rw [found, none']
      refine iff_of_false (Option.some_ne_none _) fun both => ?_
      obtain ⟨other, entry, -, here⟩ := both.1 passed entry candidate
      exact no' other entry here
    · rw [found, found']
      constructor
      · intro same
        obtain ⟨length, -⟩ := Prod.mk.inj (Option.some.inj same)
        exact ⟨fun other _ here => ⟨passed', entry', length ▸ least other _ here, candidate'⟩,
          fun other _ here => ⟨passed, entry, length.symm ▸ least' other _ here, candidate⟩⟩
      · rintro ⟨forth, back⟩
        obtain ⟨other, _, early, here⟩ := forth passed entry candidate
        obtain ⟨other', _, early', here'⟩ := back passed' entry' candidate'
        have length : passed.length = passed'.length :=
          Nat.le_antisymm ((least other' _ here').trans early') ((least' other _ here).trans early)
        obtain ⟨behind, split⟩ := candidate.place
        obtain ⟨behind', split'⟩ := candidate'.place
        have cut := List.append_inj (split.symm.trans split') length
        rw [length, (List.cons.inj cut.2).1]

end Select

/-! ### What the second lookup keeps -/

/-- The accumulator of `fat32_find_named_entry` and `lfn_count` behind an entry that is not
the one looked for. -/
def keep (state : Lfn × Nat) (slot : Slot) : Lfn × Nat :=
  if slot.isDeleted then (lfnReset, 0)
  else if slot.isLfn then
    if state.2 ≥ FAT32_MAX_LFN_ENTRIES then (lfnReset, 0)
    else
      match lfnAccept slot state.1 with
      | none => (lfnReset, 0)
      | some lfn => (lfn, state.2 + 1)
  else (lfnReset, 0)

def kept (before : List Slot) : Lfn × Nat := before.foldl keep (lfnReset, 0)

/-- Whether an entry has a name for `fat32_find_named_entry`. -/
def foundAs (name : Text) (before : List Slot) (slot : Slot) : Bool :=
  slot.isShort && slotMatches (kept before).1 slot name

theorem kept_snoc (before : List Slot) (slot : Slot) :
    kept (before ++ [slot]) = keep (kept before) slot := by
  simp [kept]

theorem find_first (name : Text) (before : List Slot) (entries : List (Position × Slot))
    (positions : List Position) (count : positions.length = (kept before).2) :
    (match visitAll (findVisit name) entries ((kept before).1, positions) with
      | .inr found => found.map Located.entry
      | .inl _ => none) = firstEntry (foundAs name) before (entries.map Prod.snd) := by
  induction entries generalizing before positions with
  | nil => rfl
  | cons entry rest ih =>
    obtain ⟨position, slot⟩ := entry
    have next := ih (before ++ [slot])
    rw [kept_snoc] at next
    simp only [visitAll, findVisit, List.map_cons, firstEntry]
    by_cases ends : slot.isEnd = true
    · simp [ends]
    by_cases deleted : slot.isDeleted = true
    · simp only [keep, deleted, if_true] at next
      simpa [ends, deleted, foundAs, Slot.isShort] using next [] rfl
    by_cases long : slot.isLfn = true
    · by_cases full : (kept before).2 ≥ FAT32_MAX_LFN_ENTRIES
      · simp only [keep, deleted, long, full, if_true] at next
        simpa [ends, deleted, long, foundAs, Slot.isShort, count, full] using next [] rfl
      · simp only [keep, deleted, long, full, if_true] at next
        cases accepted : lfnAccept slot (kept before).1 with
        | none =>
          simp only [accepted] at next
          simpa [ends, deleted, long, foundAs, Slot.isShort, count, full, accepted] using next [] rfl
        | some lfn =>
          simp only [accepted] at next
          simpa [ends, deleted, long, foundAs, Slot.isShort, count, full, accepted] using
            next (positions ++ [position]) (by simp [count])
    simp only [keep, deleted, long] at next
    by_cases label : slot.has FAT32_ATTR_VOLUME_ID = true
    · simpa [ends, deleted, long, label, foundAs, Slot.isShort] using next [] rfl
    by_cases named : slotMatches (kept before).1 slot name = true
    · simp [ends, deleted, long, label, named, foundAs, Slot.isShort]
    · simpa [ends, deleted, long, label, named, foundAs, Slot.isShort] using next [] rfl

section Kept

variable {first slot : Slot} {before rest trail : List Slot} {name : Text}

theorem keep_flagged {state : Lfn × Nat} (piece : first.isPiece = true) (mark : first.flagged = true)
    (room : state.2 < FAT32_MAX_LFN_ENTRIES) :
    keep state first = (⟨storePiece (fun _ => 0xFFFF) first, first.lfnChecksum, true⟩, state.2 + 1) := by
  obtain ⟨used, long, -⟩ := isPiece_iff.mp piece
  simp [keep, used, long, Nat.not_le.mpr room, accept_flagged piece mark]

theorem keep_continues {lfn : Lfn} {count : Nat} (goes : Continues lfn.checksum slot)
    (valid : lfn.valid = true) (room : count < FAT32_MAX_LFN_ENTRIES) :
    keep (lfn, count) slot = ({ lfn with name := storePiece lfn.name slot }, count + 1) := by
  obtain ⟨piece, mark, sum⟩ := goes
  obtain ⟨used, long, -⟩ := isPiece_iff.mp piece
  simp [keep, used, long, Nat.not_le.mpr room, accept_unflagged piece mark, valid, sum]

theorem kept_trail (rest : List Slot) (piece : first.isPiece = true) (mark : first.flagged = true)
    (goes : ∀ entry ∈ trail, Continues first.lfnChecksum entry)
    (room : (kept rest).2 + trail.length < FAT32_MAX_LFN_ENTRIES) :
    kept (rest ++ first :: trail) =
      (⟨assemble (first :: trail), first.lfnChecksum, true⟩, (kept rest).2 + trail.length + 1) := by
  induction trail using List.reverseRecOn with
  | nil =>
    rw [kept_snoc, keep_flagged piece mark (by simpa using room)]
    rfl
  | append_singleton trail entry ih =>
    rw [List.length_append, List.length_singleton] at room
    have earlier := ih (fun other member => goes other (List.mem_append_left _ member)) (by omega)
    have here : Continues first.lfnChecksum entry := goes entry (by simp)
    have cut : rest ++ first :: (trail ++ [entry]) = (rest ++ first :: trail) ++ [entry] := by simp
    rw [cut, kept_snoc, earlier, keep_continues here rfl (by omega)]
    simp [assemble, Nat.add_assoc]

theorem kept_valid (valid : (kept before).1.valid = true) :
    ∃ rest first trail, before = rest ++ first :: trail ∧ first.isPiece = true ∧
      first.flagged = true ∧ (∀ entry ∈ trail, Continues first.lfnChecksum entry) ∧
      (kept rest).2 + trail.length < FAT32_MAX_LFN_ENTRIES := by
  induction before using List.reverseRecOn with
  | nil => cases valid
  | append_singleton before entry ih =>
    rw [kept_snoc] at valid
    by_cases deleted : entry.isDeleted = true
    · simp [keep, deleted, lfnReset] at valid
    by_cases long : entry.isLfn = true
    swap
    · simp [keep, deleted, long, lfnReset] at valid
    by_cases full : (kept before).2 ≥ FAT32_MAX_LFN_ENTRIES
    · simp [keep, deleted, long, full, lfnReset] at valid
    by_cases piece : entry.isPiece = true
    swap
    · have other : lfnAccept entry (kept before).1 = none :=
        accept_other (by simpa using deleted) long (by simpa using piece)
      simp [keep, deleted, long, full, other, lfnReset] at valid
    by_cases mark : entry.flagged = true
    · exact ⟨before, entry, [], rfl, piece, mark, by simp, by simpa using full⟩
    · -- the piece goes on with what was kept before it
      have unmarked : entry.flagged = false := by simpa using mark
      by_cases goes : (kept before).1.valid = true ∧ entry.lfnChecksum = (kept before).1.checksum
      swap
      · simp [keep, deleted, long, full, accept_unflagged piece unmarked, goes, lfnReset] at valid
      obtain ⟨rest, first, trail, rfl, piece', mark', all, room⟩ := ih goes.1
      have held := kept_trail rest piece' mark' all room
      rw [held] at goes full
      refine ⟨rest, first, trail ++ [entry], by simp, piece', mark', fun other member => ?_, ?_⟩
      · rcases List.mem_append.mp member with old | new
        · exact all other old
        · rw [List.mem_singleton.mp new]
          exact ⟨piece, unmarked, goes.2⟩
      · rw [List.length_append, List.length_singleton]
        omega

/-- An entry has a name by a long name whose pieces stand right before it, and there is room
for the positions of the long-name entries kept with them. -/
def Unbroken (name : Text) (before : List Slot) (slot : Slot) : Prop :=
  ∃ rest first trail, before = rest ++ first :: trail ∧ first.isPiece = true ∧
    first.flagged = true ∧ first.lfnChecksum = fat32ShortChecksum slot.name ∧
    (∀ entry ∈ trail, Continues first.lfnChecksum entry) ∧
    (kept rest).2 + trail.length < FAT32_MAX_LFN_ENTRIES ∧
    utf8NameMatches (utf16NameToUtf8 (assemble (first :: trail))) name = true

theorem foundAs_iff : foundAs name before slot = true ↔
    slot.isShort = true ∧ (Unbroken name before slot ∨ entryMatches slot name = true) := by
  simp only [foundAs, slotMatches, Bool.and_eq_true, Bool.or_eq_true, Option.any_eq_true]
  refine and_congr_right fun _ => or_congr_left ⟨?_, ?_⟩
  · rintro ⟨long, taken, named⟩
    obtain ⟨valid, sum, rfl⟩ := longNameOf_iff.mp taken
    obtain ⟨rest, first, trail, rfl, piece, mark, goes, room⟩ := kept_valid valid
    rw [kept_trail rest piece mark goes room] at sum named
    exact ⟨rest, first, trail, rfl, piece, mark, sum, goes, room, named⟩
  · rintro ⟨rest, first, trail, rfl, piece, mark, sum, goes, room, named⟩
    have held := kept_trail rest piece mark goes room
    exact ⟨_, longNameOf_iff.mpr ⟨by rw [held], by rw [held]; exact sum, rfl⟩, by rw [held]; exact named⟩

/-- An entry has a name by a long name among whose pieces other entries may stand: deleted
ones and volume labels. -/
def LongNamed (name : Text) (before : List Slot) (slot : Slot) : Prop :=
  ∃ rest first trail, before = rest ++ first :: trail ∧ first.isPiece = true ∧
    first.flagged = true ∧ first.lfnChecksum = fat32ShortChecksum slot.name ∧
    (∀ entry ∈ trail, searchPasses entry = true ∨ Continues first.lfnChecksum entry) ∧
    utf8NameMatches (utf16NameToUtf8 (assemble (first :: trail.filter fun entry =>
      !searchPasses entry))) name = true

theorem answersTo_iff : answersTo name before slot = true ↔
    slot.isShort = true ∧ (LongNamed name before slot ∨ entryMatches slot name = true) := by
  simp only [answersTo, slotMatches, Bool.and_eq_true, Bool.or_eq_true, Option.any_eq_true]
  refine and_congr_right fun _ => or_congr_left ⟨?_, ?_⟩
  · rintro ⟨long, taken, named⟩
    obtain ⟨valid, sum, rfl⟩ := longNameOf_iff.mp taken
    obtain ⟨rest, first, trail, rfl, piece, mark, goes⟩ := accumulated_valid searchPassing valid
    rw [accumulated_trail rest searchPassing piece mark goes] at sum named
    exact ⟨rest, first, trail, rfl, piece, mark, sum, goes, named⟩
  · rintro ⟨rest, first, trail, rfl, piece, mark, sum, goes, named⟩
    have held := accumulated_trail rest searchPassing piece mark goes
    exact ⟨_, longNameOf_iff.mpr ⟨by rw [held], by rw [held]; exact sum, rfl⟩, by rw [held]; exact named⟩

theorem Unbroken.longNamed (unbroken : Unbroken name before slot) : LongNamed name before slot := by
  obtain ⟨rest, first, trail, split, piece, mark, sum, goes, -, named⟩ := unbroken
  have all : (trail.filter fun entry => !searchPasses entry) = trail :=
    List.filter_eq_self.mpr fun entry member => by
      simp [searchPassing.piece entry (goes entry member).1]
  exact ⟨rest, first, trail, split, piece, mark, sum, fun entry member => .inr (goes entry member),
    by rwa [all]⟩

end Kept

/-! ### Agreement -/

/-- Every entry that has a name only by a long name with other entries among its pieces, or
without room for their positions, stands behind an entry that has the name otherwise. -/
def FirstUnbroken (name : Text) (slots : List Slot) : Prop :=
  ∀ before slot behind, slots = before ++ slot :: behind →
    (∀ entry ∈ before ++ [slot], entry.isEnd = false) → slot.isShort = true →
    LongNamed name before slot → ¬Unbroken name before slot → entryMatches slot name = false →
    ∃ before' slot' behind', before = before' ++ slot' :: behind' ∧ slot'.isShort = true ∧
      (Unbroken name before' slot' ∨ entryMatches slot' name = true)

/-- The first sixteen entries of a sector. -/
def inFirstSixteen (position : Position) : Bool := decide (position.offset < 512)

/-- What `search_dir_chain` selects in a directory. -/
def searchSelects (context : Context) (reads : Nat → Option (List UInt8)) (dirCluster : Nat)
    (name : Text) : Option (Nat × Position × Slot) :=
  select (fun _ => true) (answersTo name) [] (dirEntries context reads context.entriesPerSector dirCluster)

/-- What `fat32_find_named_entry` selects in the same directory. -/
def findSelects (context : Context) (reads : Nat → Option (List UInt8)) (dirCluster : Nat)
    (name : Text) : Option (Nat × Position × Slot) :=
  select inFirstSixteen (foundAs name) [] (dirEntries context reads context.entriesPerSector dirCluster)

/-- An entry before the end that has a name for `search_dir_chain`. -/
structure Answering (name : Text) (entries passed : List (Position × Slot))
    (entry : Position × Slot) : Prop where
  place : ∃ behind, entries = passed ++ entry :: behind
  live : ∀ other ∈ passed ++ [entry], other.2.isEnd = false
  short : entry.2.isShort = true
  named : LongNamed name (passed.map Prod.snd) entry.2 ∨ entryMatches entry.2 name = true

/-- An entry that has a name among the first sixteen entries of every sector, in front of the
first end mark among these. -/
structure Finding (name : Text) (entries passed : List (Position × Slot))
    (entry : Position × Slot) : Prop where
  place : ∃ behind, entries = passed ++ entry :: behind
  seen : entry.1.offset < 512
  live : ∀ other ∈ passed ++ [entry], other.1.offset < 512 → other.2.isEnd = false
  short : entry.2.isShort = true
  named : Unbroken name (seenSlots inFirstSixteen passed) entry.2 ∨ entryMatches entry.2 name = true

/-- Whatever has the name for the first lookup is, or stands behind, something that has it for
the second one, and the other way around. -/
structure FirstFound (name : Text) (entries : List (Position × Slot)) : Prop where
  found : ∀ passed entry, Answering name entries passed entry →
    ∃ passed' entry', passed'.length ≤ passed.length ∧ Finding name entries passed' entry'
  answers : ∀ passed entry, Finding name entries passed entry →
    ∃ passed' entry', passed'.length ≤ passed.length ∧ Answering name entries passed' entry'

section Programs

variable {context : Context} {reads : Nat → Option (List UInt8)} {count : Nat} {name : Text}
  {entries passed : List (Position × Slot)} {entry : Position × Slot}

theorem answering_iff : Answering name entries passed entry ↔
    Candidate (fun _ => true) (answersTo name) [] entries passed entry := by
  have all : seenSlots (fun _ => true) passed = passed.map Prod.snd := by
    unfold seenSlots
    rw [List.filter_true]
  constructor
  · rintro ⟨place, live, short, named⟩
    refine ⟨place, rfl, fun other member _ => live other member, answersTo_iff.mpr ⟨short, ?_⟩⟩
    rwa [all]
  · rintro ⟨place, -, live, named⟩
    obtain ⟨short, named⟩ := answersTo_iff.mp named
    rw [all] at named
    exact ⟨place, fun other member => live other member rfl, short, named⟩

theorem finding_iff : Finding name entries passed entry ↔
    Candidate inFirstSixteen (foundAs name) [] entries passed entry := by
  have sees {position : Position} : inFirstSixteen position = true ↔ position.offset < 512 :=
    decide_eq_true_iff
  constructor
  · rintro ⟨place, seen, live, short, named⟩
    exact ⟨place, sees.mpr seen, fun other member here => live other member (sees.mp here),
      foundAs_iff.mpr ⟨short, named⟩⟩
  · rintro ⟨place, seen, live, named⟩
    obtain ⟨short, named⟩ := foundAs_iff.mp named
    exact ⟨place, sees.mp seen, fun other member here => live other member (sees.mpr here), short, named⟩

theorem selections_agree_iff (dirCluster : Nat) :
    searchSelects context reads dirCluster name = findSelects context reads dirCluster name ↔
      FirstFound name (dirEntries context reads context.entriesPerSector dirCluster) := by
  unfold searchSelects findSelects
  rw [select_eq_iff]
  simp only [← answering_iff, ← finding_iff]
  exact ⟨fun both => ⟨both.1, both.2⟩, fun both => ⟨both.found, both.answers⟩⟩

/-! ### The programs -/

theorem select_entry (sees : Position → Bool) (p : List Slot → Slot → Bool)
    (entries : List (Position × Slot)) : ∀ before,
      (select sees p before entries).map (·.2.2) = firstEntry p before (seenSlots sees entries) := by
  induction entries with
  | nil => exact fun _ => rfl
  | cons entry rest ih =>
    intro before
    rw [select, seenSlots_cons]
    split_ifs with seen ends named
    · rw [firstEntry, if_pos ends]
      rfl
    · rw [firstEntry, if_neg ends, if_pos named]
      rfl
    · rw [firstEntry, if_neg ends, if_neg named, ← ih, Option.map_map]
      rfl
    · rw [← ih, Option.map_map]
      rfl

theorem sectorEntries_seen (enough : 16 ≤ count) (lba : Nat) (sector : List UInt8) :
    (sectorEntries count lba sector).filter (fun entry => inFirstSixteen entry.1) =
      sectorEntries 16 lba sector := by
  obtain ⟨more, rfl⟩ := Nat.exists_eq_add_of_le enough
  unfold sectorEntries
  rw [List.range_add, List.map_append, List.filter_append, List.filter_eq_self.mpr,
    List.filter_eq_nil_iff.mpr, List.append_nil]
  · intro entry member
    simp only [List.map_map, List.mem_map] at member
    obtain ⟨e, -, rfl⟩ := member
    simp only [Function.comp_apply, inFirstSixteen, decide_eq_true_eq]
    omega
  · intro entry member
    obtain ⟨e, below, rfl⟩ := List.mem_map.mp member
    have small := List.mem_range.mp below
    simp only [inFirstSixteen, decide_eq_true_eq]
    omega

theorem clusterEntries_seen (enough : 16 ≤ count) (cluster : Nat) (sectors : List Nat) :
    clusterEntries context reads 16 cluster sectors =
      ((clusterEntries context reads count cluster sectors).1.filter fun entry => inFirstSixteen entry.1,
        (clusterEntries context reads count cluster sectors).2) := by
  induction sectors with
  | nil => rfl
  | cons s rest ih =>
    simp only [clusterEntries]
    cases reads (context.clusterSector cluster s) with
    | none => rfl
    | some sector => simp only [ih, List.filter_append, sectorEntries_seen enough]

theorem chainEntries_seen (enough : 16 ≤ count) (hops : Nat) : ∀ current,
    chainEntries context reads 16 hops current =
      (chainEntries context reads count hops current).filter fun entry => inFirstSixteen entry.1 := by
  induction hops with
  | zero => exact fun _ => rfl
  | succ hops ih =>
    intro current
    simp only [chainEntries, clusterEntries_seen enough]
    split_ifs
    · cases linkOf context reads current with
      | none => rfl
      | some next => simp only [ih, List.filter_append]
    · rfl
    · rfl

theorem entriesPerSector_enough (accepted : context.accepted = true) :
    16 ≤ context.entriesPerSector := by
  simp only [Context.accepted, Bool.and_eq_true, Bool.or_eq_true, beq_iff_eq] at accepted
  have sizes := accepted.1.1.1.1.1
  unfold Context.entriesPerSector Context.sectorSize
  split_ifs <;> omega

theorem searchDirChain_selects (dirCluster : Nat) (name : Text) :
    eval (answer reads) (searchDirChain context dirCluster name).run =
      (searchSelects context reads dirCluster name).map (·.2.2) := by
  have all : seenSlots (fun _ => true) (dirEntries context reads context.entriesPerSector dirCluster) =
      (dirEntries context reads context.entriesPerSector dirCluster).map Prod.snd := by
    unfold seenSlots
    rw [List.filter_true]
  rw [searchSelects, select_entry, searchDirChain_eval, all]
  exact search_first name [] _

theorem findNamedEntry_selects (accepted : context.accepted = true) (dirCluster : Nat) (name : Text) :
    (eval (answer reads) (fat32FindNamedEntry context dirCluster name).run).map Located.entry =
      (findSelects context reads dirCluster name).map (·.2.2) := by
  have seen : seenSlots inFirstSixteen (dirEntries context reads context.entriesPerSector dirCluster) =
      (dirEntries context reads 16 dirCluster).map Prod.snd :=
    congrArg (List.map Prod.snd) (chainEntries_seen (entriesPerSector_enough accepted) _ _).symm
  rw [findSelects, select_entry, findNamedEntry_eval, seen]
  have found := find_first name [] (dirEntries context reads 16 dirCluster) [] rfl
  have start : (kept []).1 = lfnReset := rfl
  rw [start] at found
  rw [← found]
  cases visitAll (findVisit name) (dirEntries context reads 16 dirCluster) (lfnReset, []) <;> rfl

end Programs

/-- With sixteen entries in a sector, both lookups see all of them, and what is left is that no
entry with the name only by a long name with other entries among its pieces comes first. -/
theorem firstFound_iff {name : Text} {entries : List (Position × Slot)}
    (small : ∀ entry ∈ entries, entry.1.offset < 512) :
    FirstFound name entries ↔ FirstUnbroken name (entries.map Prod.snd) := by
  have all {passed behind : List (Position × Slot)} {entry : Position × Slot}
      (split : entries = passed ++ entry :: behind) :
      seenSlots inFirstSixteen passed = passed.map Prod.snd := by
    have seen : ∀ other ∈ passed, inFirstSixteen other.1 = true := fun other member =>
      decide_eq_true (small other (split ▸ List.mem_append_left _ member))
    unfold seenSlots
    rw [List.filter_eq_self.mpr seen]
  constructor
  · intro first before slot behind split used short long broken other
    obtain ⟨passed, tail, cut, rfl, rest⟩ := List.map_eq_append_iff.mp split
    obtain ⟨entry, behind, rfl, rfl, rfl⟩ := List.map_eq_cons_iff.mp rest
    obtain ⟨passed', entry', early, finding⟩ := first.found passed entry ⟨⟨behind, cut⟩, by
      intro other member
      refine used other.2 ?_
      rw [← List.map_singleton, ← List.map_append]
      exact List.mem_map_of_mem member, short, .inl long⟩
    obtain ⟨behind', cut'⟩ := finding.place
    have named := finding.named
    rw [all cut'] at named
    obtain ⟨more, rfl⟩ := List.prefix_of_prefix_length_le ⟨_, cut'.symm⟩ ⟨_, cut.symm⟩ early
    rw [cut, List.append_assoc] at cut'
    have later := List.append_cancel_left cut'
    cases more with
    | nil =>
      obtain ⟨rfl, -⟩ := List.cons.inj later
      rw [List.append_nil] at broken
      simp [broken, other] at named
    | cons head more =>
      obtain ⟨rfl, -⟩ := List.cons.inj later
      exact ⟨_, _, more.map Prod.snd, by simp, finding.short, named⟩
  · intro first
    refine ⟨fun passed entry answering => ?_, fun passed entry finding => ?_⟩
    · obtain ⟨⟨behind, cut⟩, live, short, named⟩ := answering
      by_cases found : Unbroken name (passed.map Prod.snd) entry.2 ∨ entryMatches entry.2 name = true
      · refine ⟨passed, entry, le_rfl, ⟨behind, cut⟩, small entry (by simp [cut]),
          fun other member _ => live other member, short, ?_⟩
        rwa [all cut]
      · obtain ⟨broken, other⟩ := not_or.mp found
        have long := named.resolve_right other
        obtain ⟨before', slot', behind', split, short', named'⟩ :=
          first (passed.map Prod.snd) entry.2 (behind.map Prod.snd) (by simp [cut]) (by
            intro slot member
            rw [← List.map_singleton, ← List.map_append] at member
            obtain ⟨other, inside, rfl⟩ := List.mem_map.mp member
            exact live other inside) short long broken (by simpa using other)
        obtain ⟨passed', tail, rfl, rfl, rest⟩ := List.map_eq_append_iff.mp split
        obtain ⟨entry', more, rfl, rfl, rfl⟩ := List.map_eq_cons_iff.mp rest
        have cut' : entries = passed' ++ entry' :: (more ++ entry :: behind) := by simp [cut]
        refine ⟨passed', entry', by simp, ⟨_, cut'⟩, small entry' (by simp [cut']),
          fun other member _ => live other ?_, short', ?_⟩
        · rcases List.mem_append.mp member with early | here
          · simp [early]
          · simp [List.mem_singleton.mp here]
        · rwa [all cut']
    · obtain ⟨⟨behind, cut⟩, seen, live, short, named⟩ := finding
      rw [all cut] at named
      refine ⟨passed, entry, le_rfl, ⟨behind, cut⟩, fun other member => live other member ?_, short,
        named.imp_left Unbroken.longNamed⟩
      refine small other ?_
      rw [cut]
      rcases List.mem_append.mp member with early | here
      · exact List.mem_append_left _ early
      · exact List.mem_append_right _ (by simp [List.mem_singleton.mp here])

/-- What the two lookups return is what they select, and they select the same entry exactly
when whatever has the name for the one stands at or behind what has it for the other. With
sectors of 512 bytes this says that no entry with the name only by a long name with other
entries among its pieces comes first. -/
theorem lookups_agree_iff {context : Context} (accepted : context.accepted = true)
    (reads : Nat → Option (List UInt8)) (dirCluster : Nat) (name : Text) :
    (eval (answer reads) (searchDirChain context dirCluster name).run =
        (searchSelects context reads dirCluster name).map (·.2.2) ∧
      (eval (answer reads) (fat32FindNamedEntry context dirCluster name).run).map Located.entry =
        (findSelects context reads dirCluster name).map (·.2.2)) ∧
    (searchSelects context reads dirCluster name = findSelects context reads dirCluster name ↔
      FirstFound name (dirEntries context reads context.entriesPerSector dirCluster)) ∧
    (context.sectorSize = 512 →
      (FirstFound name (dirEntries context reads context.entriesPerSector dirCluster) ↔
        FirstUnbroken name (dirSlots context reads dirCluster))) := by
  refine ⟨⟨searchDirChain_selects _ _, findNamedEntry_selects accepted _ _⟩,
    selections_agree_iff dirCluster, fun small => firstFound_iff fun entry member => ?_⟩
  have sixteen : context.entriesPerSector = 16 := by rw [Context.entriesPerSector, small]
  rw [sixteen, dirEntries, chainEntries_seen (le_refl 16)] at member
  simpa [inFirstSixteen] using (List.mem_filter.mp member).2

/-- A volume with sectors of 1024 bytes. -/
def wideVolume : Context where
  device := { smallDisk with logicalBlockSize := 1024 }
  bpb := { smallVolume.bpb with bytesPerSector := 1024 }

/-- The entry of the file `A`. -/
def fileA : Slot := padded 11 [0x41] ++ List.replicate 21 0

/-- A directory with the file `A` behind some deleted entries. -/
def behindDeleted (count : Nat) : Nat → Option (List UInt8) := fun _ =>
  some ((List.replicate count (List.replicate 32 0xE5)).flatten ++ fileA ++ List.replicate 480 0)

/-- On a volume with sectors of 1024 bytes both lookups find a file in the sixteenth entry of
its directory, so that whatever has the name for the one is there for the other. -/
theorem lookups_agree_wide : wideVolume.accepted = true ∧ wideVolume.sectorSize = 1024 ∧
    FirstFound [0x41] (dirEntries wideVolume (behindDeleted 15) wideVolume.entriesPerSector 2) := by
  have accepted : wideVolume.accepted = true := by decide
  refine ⟨accepted, by decide, ?_⟩
  exact (lookups_agree_iff accepted (behindDeleted 15) 2 [0x41]).2.1.mp (by decide +kernel)

/-- In a directory with a deleted entry between a piece and a file, the file is found under the
name of the piece by the first lookup, and not by the second one. Nor does that find a file in
the seventeenth entry of a sector. -/
theorem lookups_differ : (∃ reads, eval (answer reads) (searchDirChain smallVolume 2 [0x61]).run ≠
      (eval (answer reads) (fat32FindNamedEntry smallVolume 2 [0x61]).run).map Located.entry) ∧
    smallVolume.accepted = true ∧
    ∃ reads, eval (answer reads) (searchDirChain wideVolume 2 [0x41]).run ≠
      (eval (answer reads) (fat32FindNamedEntry wideVolume 2 [0x41]).run).map Located.entry := by
  let sector := (staleDirectory ++ List.replicate 13 (List.replicate 32 0)).flatten
  exact ⟨⟨fun _ => some sector, by decide +kernel⟩, smallVolume_accepted,
    behindDeleted 16, by decide +kernel⟩

end AsasOs.Fat32
