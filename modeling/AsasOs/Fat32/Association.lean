import AsasOs.Fat32.Walks
import Mathlib.Data.List.Induction

/-!
# FAT32: which long name an entry has

Both `search_dir_chain` and `list_dir_chain` carry an accumulator over the entries of a
directory and take what it holds for the long name of the next short entry. Some entries
they pass over without touching the accumulator, and it accepts entries in any order, so
the name can come from entries that do not stand right before the short one.
-/
namespace AsasOs.Fat32

open Bytes

/-! ### The entries of a long name -/

namespace Slot

/-- The number of a long-name entry in its name. -/
def ordinal (slot : Slot) : Nat := slot.order.toNat % 32

/-- The mark of the entry that is stored first. -/
def flagged (slot : Slot) : Bool := slot.order &&& 0x40 != 0

/-- A long-name entry that is in use and well formed. -/
def isPiece (slot : Slot) : Bool :=
  !slot.isDeleted && slot.isLfn && decide (1 ≤ slot.ordinal) && decide (slot.ordinal ≤ 20) &&
    slot.lfnType == 0 && getLE slot 26 2 == 0

/-- An entry of a file or a directory. -/
def isShort (slot : Slot) : Bool :=
  !slot.isEnd && !slot.isDeleted && !slot.isLfn && !slot.has FAT32_ATTR_VOLUME_ID

end Slot

/-- The units of a name whose pieces are stored in the order `n`, `n - 1`, ..., 1. -/
def runUnits (run : List Slot) (index : Nat) : Nat :=
  if index < 255 ∧ index / 13 < run.length then
    (run.getD (run.length - 1 - index / 13) []).lfnUnit (index % 13)
  else 0xFFFF

/-- The pieces of the long name of a short entry: the ordinals count down to 1, and the
first piece has the mark. -/
structure CompleteRun (run : List Slot) (short : Slot) : Prop where
  pieces : ∀ entry ∈ run, entry.isPiece = true ∧ entry.lfnChecksum = fat32ShortChecksum short.name
  ordinals : ∀ i, (h : i < run.length) → run[i].ordinal = run.length - i
  flags : run.map Slot.flagged = true :: List.replicate (run.length - 1) false

def Spells (before : List Slot) (short : Slot) (name : Text) : Prop :=
  ∃ rest run, before = rest ++ run ∧ CompleteRun run short ∧ name = utf16NameToUtf8 (runUnits run)

/-! ### The accumulator along a directory -/

/-- The accumulator behind an entry at which the walk goes on; entries that are passed over
leave it as it is. -/
def accumulate (passed : Slot → Bool) (lfn : Lfn) (slot : Slot) : Lfn :=
  if passed slot then lfn else if slot.isLfn then (lfnAccept slot lfn).getD lfnReset else lfnReset

/-- The entries that `search_dir_chain` passes over. -/
def searchPasses (slot : Slot) : Bool :=
  slot.isDeleted || (!slot.isLfn && slot.has FAT32_ATTR_VOLUME_ID)

/-- The entries that `list_dir_chain` passes over. -/
def listPasses (slot : Slot) : Bool :=
  slot.isDeleted || (!slot.isLfn && (slot.has FAT32_ATTR_VOLUME_ID || byteAt slot 0 == 0x2E))

/-- The accumulator with which a walk comes to the entry behind some others. -/
def accumulated (passed : Slot → Bool) (before : List Slot) : Lfn :=
  before.foldl (accumulate passed) lfnReset

/-! ### What the accumulator holds -/

def storePiece (name : Nat → Nat) (piece : Slot) (index : Nat) : Nat :=
  if (piece.ordinal - 1) * 13 ≤ index ∧ index < (piece.ordinal - 1) * 13 + 13 ∧ index < 255 then
    piece.lfnUnit (index - (piece.ordinal - 1) * 13)
  else name index

/-- The name that pieces make in any order. -/
def assemble (pieces : List Slot) : Nat → Nat := pieces.foldl storePiece fun _ => 0xFFFF

/-- A piece that goes on with a name. -/
def Continues (checksum : UInt8) (entry : Slot) : Prop :=
  entry.isPiece = true ∧ entry.flagged = false ∧ entry.lfnChecksum = checksum

section Accumulator

variable {passed : Slot → Bool} {entry first short : Slot} {before rest trail run : List Slot}
  {lfn : Lfn} {checksum : UInt8} {name : Text}

theorem isPiece_iff : entry.isPiece = true ↔ entry.isDeleted = false ∧ entry.isLfn = true ∧
    1 ≤ entry.ordinal ∧ entry.ordinal ≤ 20 ∧ entry.lfnType = 0 ∧ getLE entry 26 2 = 0 := by
  simp [Slot.isPiece, and_assoc]

theorem accept_flagged (piece : entry.isPiece = true) (mark : entry.flagged = true) :
    lfnAccept entry lfn =
      some ⟨storePiece (fun _ => 0xFFFF) entry, entry.lfnChecksum, true⟩ := by
  obtain ⟨-, -, low, high, type, cluster⟩ := isPiece_iff.mp piece
  have flag : entry.order &&& 0x40 ≠ 0 := by simpa [Slot.flagged] using mark
  have number : entry.order.toNat % 32 = entry.ordinal := rfl
  simp only [lfnAccept, number, if_pos flag]
  rw [if_neg (by simp [type, cluster]; omega)]
  rfl

theorem accept_unflagged (piece : entry.isPiece = true) (mark : entry.flagged = false) :
    lfnAccept entry lfn =
      if lfn.valid = true ∧ entry.lfnChecksum = lfn.checksum then
        some { lfn with name := storePiece lfn.name entry }
      else none := by
  obtain ⟨-, -, low, high, type, cluster⟩ := isPiece_iff.mp piece
  have flag : entry.order &&& 0x40 = 0 := by simpa [Slot.flagged] using mark
  have number : entry.order.toNat % 32 = entry.ordinal := rfl
  simp only [lfnAccept, number, flag]
  rw [if_neg (by simp [type, cluster]; omega)]
  obtain ⟨name, sum, _ | _⟩ := lfn
  · simp
  · by_cases same : entry.lfnChecksum = sum
    · simp [same]
      rfl
    · simp [same]

theorem accept_other (used : entry.isDeleted = false) (long : entry.isLfn = true)
    (other : entry.isPiece = false) : lfnAccept entry lfn = none := by
  have number : entry.order.toNat % 32 = entry.ordinal := rfl
  simp only [lfnAccept, number]
  rw [if_pos]
  by_contra fine
  simp only [not_or, not_not, Nat.not_lt] at fine
  have piece : entry.isPiece = true :=
    isPiece_iff.mpr ⟨used, long, by omega, by omega, fine.2.2.1, fine.2.2.2⟩
  rw [piece] at other
  cases other

/-- A walk passes over deleted entries and over none that is a piece. -/
structure Passing (passed : Slot → Bool) : Prop where
  deleted : ∀ entry, entry.isDeleted = true → passed entry = true
  piece : ∀ entry, entry.isPiece = true → passed entry = false

theorem searchPassing : Passing searchPasses where
  deleted entry deleted := by simp [searchPasses, deleted]
  piece entry piece := by
    obtain ⟨used, long, -⟩ := isPiece_iff.mp piece
    simp [searchPasses, used, long]

theorem listPassing : Passing listPasses where
  deleted entry deleted := by simp [listPasses, deleted]
  piece entry piece := by
    obtain ⟨used, long, -⟩ := isPiece_iff.mp piece
    simp [listPasses, used, long]

theorem accumulated_trail (rest : List Slot) (passing : Passing passed) (piece : first.isPiece = true)
    (mark : first.flagged = true) (goes : ∀ entry ∈ trail,
      passed entry = true ∨ Continues first.lfnChecksum entry) :
    accumulated passed (rest ++ first :: trail) =
      ⟨assemble (first :: trail.filter fun entry => !passed entry), first.lfnChecksum, true⟩ := by
  rw [accumulated, List.foldl_append, List.foldl_cons]
  generalize rest.foldl (accumulate passed) lfnReset = lfn
  have start : accumulate passed lfn first =
      ⟨storePiece (fun _ => 0xFFFF) first, first.lfnChecksum, true⟩ := by
    rw [accumulate, passing.piece first piece, if_neg Bool.false_ne_true,
      if_pos (isPiece_iff.mp piece).2.1, accept_flagged piece mark, Option.getD_some]
  rw [start, assemble, List.foldl_cons]
  generalize storePiece (fun _ => 0xFFFF) first = name
  -- every entry of the trail either leaves the accumulator as it is or adds its piece
  induction trail generalizing name with
  | nil => rfl
  | cons entry trail ih =>
    have later := ih fun other member => goes other (List.mem_cons_of_mem _ member)
    rw [List.foldl_cons]
    rcases goes entry List.mem_cons_self with skipped | ⟨piece', mark', sum⟩
    · rw [List.filter_cons_of_neg (by simp [skipped]), accumulate, if_pos skipped]
      exact later name
    · have seen := passing.piece entry piece'
      rw [List.filter_cons_of_pos (by simp [seen]), List.foldl_cons, accumulate, seen,
        if_neg Bool.false_ne_true, if_pos (isPiece_iff.mp piece').2.1, accept_unflagged piece' mark',
        if_pos ⟨rfl, sum⟩, Option.getD_some]
      exact later (storePiece name entry)

theorem accumulated_valid (passing : Passing passed) (valid : (accumulated passed before).valid = true) :
    ∃ rest first trail, before = rest ++ first :: trail ∧ first.isPiece = true ∧ first.flagged = true ∧
      ∀ entry ∈ trail, passed entry = true ∨ Continues first.lfnChecksum entry := by
  induction before using List.reverseRecOn with
  | nil => cases valid
  | append_singleton before entry ih =>
    rw [accumulated, List.foldl_append, List.foldl_cons, List.foldl_nil] at valid
    change (accumulate passed (accumulated passed before) entry).valid = true at valid
    -- the entry is the next one of the trail that leads to it
    have extend (held : (accumulated passed before).valid = true)
        (goes : passed entry = true ∨ Continues (accumulated passed before).checksum entry) :
        ∃ rest first trail, before ++ [entry] = rest ++ first :: trail ∧ first.isPiece = true ∧
          first.flagged = true ∧
          ∀ entry ∈ trail, passed entry = true ∨ Continues first.lfnChecksum entry := by
      obtain ⟨rest, first, trail, rfl, piece, mark, all⟩ := ih held
      rw [accumulated_trail _ passing piece mark all] at goes
      refine ⟨rest, first, trail ++ [entry], by simp, piece, mark, fun other member => ?_⟩
      rcases List.mem_append.mp member with old | new
      · exact all other old
      · exact List.mem_singleton.mp new ▸ goes
    by_cases skipped : passed entry = true
    · rw [accumulate, if_pos skipped] at valid
      exact extend valid (.inl skipped)
    rw [accumulate, if_neg skipped] at valid
    have used : entry.isDeleted = false := by
      by_contra deleted
      exact skipped (passing.deleted entry (by simpa using deleted))
    by_cases long : entry.isLfn = true
    · rw [if_pos long] at valid
      by_cases piece : entry.isPiece = true
      · by_cases mark : entry.flagged = true
        · exact ⟨before, entry, [], rfl, piece, mark, by simp⟩
        · have unmarked : entry.flagged = false := by simpa using mark
          rw [accept_unflagged piece unmarked] at valid
          split at valid
          · rename_i goes
            exact extend goes.1 (.inr ⟨piece, unmarked, goes.2⟩)
          · cases valid
      · rw [accept_other used long (by simpa using piece)] at valid
        cases valid
    · rw [if_neg long] at valid
      cases valid

theorem foldl_runUnits (ordinals : ∀ i, (h : i < run.length) → run[i].ordinal = run.length - i)
    (name : Nat → Nat) (index : Nat) :
    run.foldl storePiece name index = if index < 255 ∧ index / 13 < run.length then
        (run.getD (run.length - 1 - index / 13) []).lfnUnit (index % 13)
      else name index := by
  induction run generalizing name with
  | nil => simp
  | cons piece rest ih =>
    have first : piece.ordinal = rest.length + 1 := ordinals 0 (by simp)
    have later : ∀ i, (h : i < rest.length) → rest[i].ordinal = rest.length - i := by
      intro i below
      have here := ordinals (i + 1) (by simpa using below)
      simpa using here
    rw [List.foldl_cons, ih later, storePiece, first]
    simp only [List.length_cons, Nat.add_sub_cancel]
    by_cases low : index < 255 ∧ index / 13 < rest.length
    · rw [if_pos low, if_pos ⟨low.1, by omega⟩]
      have behind : rest.length - index / 13 = (rest.length - 1 - index / 13) + 1 := by omega
      rw [behind, List.getD_cons_succ]
    · rw [if_neg low]
      by_cases here : index < 255 ∧ index / 13 = rest.length
      · rw [if_pos (by omega), if_pos (by omega), here.2, Nat.sub_self, List.getD_cons_zero]
        congr 1
        omega
      · rw [if_neg (by omega), if_neg (by omega)]

theorem assemble_eq (ordinals : ∀ i, (h : i < run.length) → run[i].ordinal = run.length - i) :
    assemble run = runUnits run :=
  funext fun index => foldl_runUnits ordinals _ index

theorem longNameOf_iff : longNameOf lfn short = some name ↔ lfn.valid = true ∧
    lfn.checksum = fat32ShortChecksum short.name ∧ name = utf16NameToUtf8 lfn.name := by
  simp only [longNameOf, Bool.and_eq_true, beq_iff_eq, Option.ite_none_right_eq_some,
    Option.some.injEq, and_assoc, eq_comm (a := name)]

end Accumulator

/-! ### Where the code is right -/

/-- No entry of a run is passed over, and the ordinals count down to 1. -/
def CountsDown (passed : Slot → Bool) (run : List Slot) : Prop :=
  (∀ entry ∈ run, passed entry = false) ∧ ∀ i, (h : i < run.length) → run[i].ordinal = run.length - i

/-- Where a piece with the mark and the checksum of a short entry is followed up to that
entry by other pieces with the checksum and by entries that are passed over, there are none
of the latter, and the pieces count down to 1. -/
def Uninterrupted (passed : Slot → Bool) (before : List Slot) (short : Slot) : Prop :=
  ∀ rest first trail, before = rest ++ first :: trail → first.isPiece = true →
    first.flagged = true → first.lfnChecksum = fat32ShortChecksum short.name →
    (∀ entry ∈ trail, passed entry = true ∨ Continues first.lfnChecksum entry) →
    CountsDown passed (first :: trail)

section Association

variable {passed : Slot → Bool} {first short : Slot} {before rest trail run : List Slot} {name : Text}

theorem CompleteRun.split (complete : CompleteRun run short) :
    ∃ first trail, run = first :: trail ∧ first.isPiece = true ∧ first.flagged = true ∧
      first.lfnChecksum = fat32ShortChecksum short.name ∧
      ∀ entry ∈ trail, Continues first.lfnChecksum entry := by
  obtain ⟨pieces, -, flags⟩ := complete
  match run, flags with
  | first :: trail, flags =>
    simp only [List.map_cons, List.length_cons, Nat.add_sub_cancel, List.cons.injEq] at flags
    obtain ⟨piece, sum⟩ := pieces first List.mem_cons_self
    refine ⟨first, trail, rfl, piece, flags.1, sum, fun entry member => ?_⟩
    obtain ⟨piece', sum'⟩ := pieces entry (List.mem_cons_of_mem _ member)
    have mark : entry.flagged ∈ trail.map Slot.flagged := List.mem_map_of_mem member
    rw [flags.2] at mark
    exact ⟨piece', List.eq_of_mem_replicate mark, sum'.trans sum.symm⟩

theorem longNameOf_of_spells (passing : Passing passed) (spells : Spells before short name) :
    longNameOf (accumulated passed before) short = some name := by
  obtain ⟨rest, run, rfl, complete, rfl⟩ := spells
  obtain ⟨first, trail, rfl, piece, mark, sum, goes⟩ := complete.split
  have seen : ∀ entry ∈ trail, passed entry = false := fun entry member =>
    passing.piece entry (goes entry member).1
  have kept : (trail.filter fun entry => !passed entry) = trail :=
    List.filter_eq_self.mpr fun entry member => by simp [seen entry member]
  rw [accumulated_trail _ passing piece mark fun entry member => .inr (goes entry member), kept,
    assemble_eq complete.ordinals]
  exact longNameOf_iff.mpr ⟨rfl, sum, rfl⟩

theorem trail_unique (passing : Passing passed) {rest' trail' : List Slot} {first' : Slot}
    (same : rest ++ first :: trail = rest' ++ first' :: trail') (piece : first.isPiece = true)
    (mark : first.flagged = true) (piece' : first'.isPiece = true) (mark' : first'.flagged = true)
    (goes : ∀ entry ∈ trail, passed entry = true ∨ entry.flagged = false)
    (goes' : ∀ entry ∈ trail', passed entry = true ∨ entry.flagged = false) :
    first :: trail = first' :: trail' := by
  have apart : ∀ {first : Slot} {trail : List Slot}, first.isPiece = true → first.flagged = true →
      (∀ entry ∈ trail, passed entry = true ∨ entry.flagged = false) → first ∉ trail := by
    intro first trail piece mark goes member
    rcases goes first member with skipped | unmarked
    · rw [passing.piece first piece] at skipped
      cases skipped
    · rw [mark] at unmarked
      cases unmarked
  obtain ⟨more, -, cut⟩ | ⟨more, -, cut⟩ := List.append_eq_append_iff.mp same
  · cases more with
    | nil => exact cut
    | cons head more =>
      obtain ⟨-, rfl⟩ := List.cons.inj cut
      exact absurd (by simp) (apart piece' mark' goes)
  · cases more with
    | nil => exact cut.symm
    | cons head more =>
      obtain ⟨-, rfl⟩ := List.cons.inj cut
      exact absurd (by simp) (apart piece mark goes')

theorem association_iff (passing : Passing passed) :
    (∀ name, longNameOf (accumulated passed before) short = some name ↔ Spells before short name) ↔
      Uninterrupted passed before short := by
  constructor
  · intro right rest first trail split piece mark sum goes
    subst split
    have held := accumulated_trail rest passing piece mark goes
    obtain ⟨rest', run, cut, complete, -⟩ := (right _).mp (longNameOf_iff.mpr ⟨by rw [held],
      by rw [held]; exact sum, rfl⟩)
    obtain ⟨first', trail', rfl, piece', mark', -, goes'⟩ := complete.split
    have same : first :: trail = first' :: trail' :=
      trail_unique passing cut piece mark piece' mark'
        (fun entry member => (goes entry member).imp_right fun goes => goes.2.1)
        (fun entry member => .inr (goes' entry member).2.1)
    rw [same]
    exact ⟨fun entry member => passing.piece entry (complete.pieces entry member).1, complete.ordinals⟩
  · intro uninterrupted name
    refine ⟨fun taken => ?_, longNameOf_of_spells passing⟩
    obtain ⟨valid, sum, rfl⟩ := longNameOf_iff.mp taken
    obtain ⟨rest, first, trail, rfl, piece, mark, goes⟩ := accumulated_valid passing valid
    have held := accumulated_trail rest passing piece mark goes
    rw [held] at sum
    obtain ⟨seen, ordinals⟩ := uninterrupted rest first trail rfl piece mark sum goes
    have all : ∀ entry ∈ trail, Continues first.lfnChecksum entry := fun entry member =>
      (goes entry member).resolve_left (by simp [seen entry (List.mem_cons_of_mem _ member)])
    have kept : (trail.filter fun entry => !passed entry) = trail :=
      List.filter_eq_self.mpr fun entry member => by
        simp [seen entry (List.mem_cons_of_mem _ member)]
    refine ⟨rest, first :: trail, rfl, ⟨fun entry member => ?_, ordinals, ?_⟩, ?_⟩
    · rcases List.mem_cons.mp member with rfl | later
      · exact ⟨piece, sum⟩
      · exact ⟨(all entry later).1, (all entry later).2.2.trans sum⟩
    · simp only [List.map_cons, mark, List.length_cons, Nat.add_sub_cancel, List.cons.injEq, true_and]
      exact List.eq_replicate_iff.mpr ⟨by simp, by
        intro flag member
        obtain ⟨entry, inside, rfl⟩ := List.mem_map.mp member
        exact (all entry inside).2.1⟩
    · rw [held, kept, assemble_eq ordinals]

end Association

/-! ### What is found and what is listed -/

/-- The first entry of a directory with a property, which may depend on those before it. -/
def firstEntry (p : List Slot → Slot → Bool) (before : List Slot) : List Slot → Option Slot
  | [] => none
  | slot :: rest =>
    if slot.isEnd then none
    else if p before slot then some slot
    else firstEntry p (before ++ [slot]) rest

/-- Whether a short entry has a name, by its long name or its short one. -/
def answersTo (component : Text) (before : List Slot) (slot : Slot) : Bool :=
  slot.isShort && slotMatches (accumulated searchPasses before) slot component

def isListed (slot : Slot) : Bool := slot.isShort && byteAt slot 0 != 0x2E

/-- What a directory reports of its entries. -/
def reported (before : List Slot) : List Slot → List FileInfo
  | [] => []
  | slot :: rest =>
    if slot.isEnd then []
    else if isListed slot then
      fileInfo (accumulated listPasses before) slot :: reported (before ++ [slot]) rest
    else reported (before ++ [slot]) rest

theorem accumulated_snoc (passed : Slot → Bool) (before : List Slot) (slot : Slot) :
    accumulated passed (before ++ [slot]) = accumulate passed (accumulated passed before) slot := by
  simp [accumulated]

theorem search_first (component : Text) (before : List Slot) (entries : List (Position × Slot)) :
    (match visitAll (searchVisit component) entries (accumulated searchPasses before) with
      | .inr found => found
      | .inl _ => none) = firstEntry (answersTo component) before (entries.map Prod.snd) := by
  induction entries generalizing before with
  | nil => rfl
  | cons entry rest ih =>
    obtain ⟨position, slot⟩ := entry
    have next := ih (before ++ [slot])
    rw [accumulated_snoc] at next
    simp only [visitAll, searchVisit, List.map_cons, firstEntry]
    by_cases ends : slot.isEnd = true
    · simp [ends]
    by_cases deleted : slot.isDeleted = true
    · simpa [ends, deleted, answersTo, Slot.isShort, accumulate, searchPasses] using next
    by_cases long : slot.isLfn = true
    · simpa [ends, deleted, long, answersTo, Slot.isShort, accumulate, searchPasses] using next
    by_cases label : slot.has FAT32_ATTR_VOLUME_ID = true
    · simpa [ends, deleted, long, label, answersTo, Slot.isShort, accumulate, searchPasses] using next
    by_cases named : slotMatches (accumulated searchPasses before) slot component = true
    · simp [ends, deleted, long, label, named, answersTo, Slot.isShort]
    · simpa [ends, deleted, long, label, named, answersTo, Slot.isShort, accumulate, searchPasses]
        using next

theorem list_reported {capacity : Nat} (before : List Slot) (entries : List (Position × Slot))
    (out : List FileInfo) (room : out.length < capacity) :
    (match visitAll (listVisit capacity) entries (accumulated listPasses before, out) with
      | .inr listing => listing.entries
      | .inl (_, entries) => entries) =
        (out ++ reported before (entries.map Prod.snd)).take capacity := by
  induction entries generalizing before out with
  | nil => simp [visitAll, reported, List.take_of_length_le room.le]
  | cons entry rest ih =>
    obtain ⟨position, slot⟩ := entry
    have next := ih (before ++ [slot]) out room
    rw [accumulated_snoc] at next
    simp only [visitAll, listVisit, List.map_cons, reported]
    by_cases ends : slot.isEnd = true
    · simp [ends, List.take_of_length_le room.le]
    by_cases deleted : slot.isDeleted = true
    · simpa [ends, deleted, isListed, Slot.isShort, accumulate, listPasses] using next
    by_cases long : slot.isLfn = true
    · simpa [ends, deleted, long, isListed, Slot.isShort, accumulate, listPasses] using next
    by_cases label : slot.has FAT32_ATTR_VOLUME_ID = true
    · simpa [ends, deleted, long, label, isListed, Slot.isShort, accumulate, listPasses] using next
    by_cases dot : byteAt slot 0 = 0x2E
    · simpa [ends, deleted, long, label, dot, isListed, Slot.isShort, accumulate, listPasses]
        using next
    by_cases full : out.length + 1 < capacity
    · have more := ih (before ++ [slot]) (out ++ [fileInfo (accumulated listPasses before) slot])
        (by simpa using full)
      rw [accumulated_snoc] at more
      simpa [ends, deleted, long, label, dot, isListed, Slot.isShort, accumulate, listPasses,
        Nat.not_le.mpr full] using more
    · -- the list is full with this entry
      have last : capacity = out.length + 1 := by omega
      simp [ends, deleted, long, label, dot, isListed, Slot.isShort, last, List.take_append,
        List.take_of_length_le (Nat.le_succ out.length)]

/-! ### The association -/

/-- The entries of a directory, as `search_dir_chain` and `list_dir_chain` read them. -/
def dirSlots (context : Context) (reads : Nat → Option (List UInt8)) (dirCluster : Nat) : List Slot :=
  (dirEntries context reads context.entriesPerSector dirCluster).map Prod.snd

/-- What `search_dir_chain` matches and `list_dir_chain` reports is decided by the long names
that their accumulators give the short entries of the directory. These names are those that
the pieces right before an entry spell exactly when no run for that entry is interrupted. -/
theorem longName_association_iff (context : Context) (reads : Nat → Option (List UInt8))
    (dirCluster : Nat) :
    (∀ component, Prog.eval (answer reads) (searchDirChain context dirCluster component).run =
      firstEntry (answersTo component) [] (dirSlots context reads dirCluster)) ∧
    (∀ capacity, Prog.eval (answer reads) (listDirChain context dirCluster capacity) =
      (reported [] (dirSlots context reads dirCluster)).take capacity) ∧
    ∀ before short, ((∀ name, longNameOf (accumulated searchPasses before) short = some name ↔
          Spells before short name) ↔ Uninterrupted searchPasses before short) ∧
      ((∀ name, longNameOf (accumulated listPasses before) short = some name ↔
          Spells before short name) ↔ Uninterrupted listPasses before short) := by
  refine ⟨fun component => ?_, fun capacity => ?_, fun before short =>
    ⟨association_iff searchPassing, association_iff listPassing⟩⟩
  · rw [searchDirChain_eval]
    exact search_first component [] _
  · rcases Nat.eq_zero_or_pos capacity with rfl | some_
    · simp [listDirChain]
    · rw [listDirChain_eval _ _ _ _ some_]
      exact list_reported [] _ [] some_

/-- A directory with a piece that spells `a`, a deleted entry and the file `B`, whose
checksum the piece has. -/
def staleDirectory : List Slot :=
  let file := put (List.replicate 32 0) 0 (padded 11 [0x42])
  [fat32BuildLfnEntry [0x61] 1 1 (fat32ShortChecksum (padded 11 [0x42])), put file 0 [0xE5], file]

/-- The file is found and listed under a name that no run right before it spells. -/
theorem stale_name_taken : firstEntry (answersTo [0x61]) [] staleDirectory = staleDirectory.getLast? ∧
      (reported [] staleDirectory).map FileInfo.name = [[0x61]] ∧
      ∀ name, ¬Spells (staleDirectory.take 2) (staleDirectory.getD 2 []) name := by
  refine ⟨by decide +kernel, by decide +kernel, ?_⟩
  rintro name ⟨rest, run, split, complete, -⟩
  obtain ⟨first, trail, rfl, -⟩ := complete.split
  -- the last entry of a run is a piece, and the last one here is deleted
  have last : (staleDirectory.take 2).getLast? = (first :: trail).getLast? := by
    rw [split, List.getLast?_append_of_ne_nil _ (List.cons_ne_nil _ _)]
  have deleted : (staleDirectory.take 2).getLast?.map Slot.isPiece = some false := by decide +kernel
  rw [last, List.getLast?_eq_some_getLast (List.cons_ne_nil first trail), Option.map_some,
    (complete.pieces _ (List.getLast_mem _)).1] at deleted
  cases deleted

end AsasOs.Fat32
