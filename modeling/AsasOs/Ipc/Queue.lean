import AsasOs.Lib.Ring

/-!
# The message queue

All processes share one ring of message slots. A sender takes the first free slot at
or behind the tail; a receiver takes the first message addressed to it, looking from
the head, and frees its slot wherever it lies. Both functions run under one lock, so
their calls follow one another. Their slot searches have no bound of their own: `none`
stands for a search that never ends.

The module translates the functions and shows what each does to the list of waiting
messages in receiving order.
-/
namespace AsasOs.Ipc

/-- `IPC_QUEUE_CAPACITY` -/
abbrev queueCapacity : Nat := 32

instance : NeZero queueCapacity := ⟨by decide⟩

/-- `ASAS_IPC_MESSAGE_SIZE` -/
abbrev messageSize : Nat := 64

structure Message where
  senderPid : UInt32
  receiverPid : UInt32
  length : UInt32
  data : Fin messageSize → UInt8

structure State where
  queue : Fin queueCapacity → Message
  queueUsed : Fin queueCapacity → Bool
  queueHead : Fin queueCapacity
  queueTail : Fin queueCapacity
  queueCount : UInt32

/-- Initialization clears the flags; the slots keep what they hold. -/
def ipcInitialize (s : State) : State :=
  { s with queueUsed := fun _ => false, queueHead := 0, queueTail := 0, queueCount := 0 }

/-- The message that a send stores over the old contents of its slot: bytes past the
length are left as they are. -/
def Message.fill (old : Message) (senderPid receiverPid : UInt32) (data : Nat → UInt8)
    (length : UInt32) : Message where
  senderPid := senderPid
  receiverPid := receiverPid
  length := length
  data index := if index.val < length.toNat then data index.val else old.data index

def ipcSend (s : State) (senderPid receiverPid : UInt32) (data : Nat → UInt8) (length : UInt32) :
    Option (Bool × State) :=
  if length > 64 then some (false, s)
  else if s.queueCount ≥ 32 then some (false, s)
  else
    (Ring.seek (fun slot => !s.queueUsed slot) queueCapacity s.queueTail).map fun tail =>
      (true, { s with
        queueUsed := Function.update s.queueUsed tail true
        queueTail := Ring.slot tail 1
        queueCount := s.queueCount + 1
        queue := Function.update s.queue tail
          ((s.queue tail).fill senderPid receiverPid data length) })

def State.addressed (s : State) (receiverPid : UInt32) (slot : Fin queueCapacity) : Bool :=
  s.queueUsed slot && (s.queue slot).receiverPid == receiverPid

def ipcReceive (s : State) (receiverPid : UInt32) : Option (Option Message × State) :=
  match (Ring.round s.queueHead).find? (s.addressed receiverPid) with
  | none => some (none, s)
  | some slot =>
    let freed : State := { s with
      queueUsed := Function.update s.queueUsed slot false
      queueCount := s.queueCount - 1 }
    if freed.queueCount = 0 then
      some (some (s.queue slot), { freed with queueHead := 0, queueTail := 0 })
    else
      (Ring.seek freed.queueUsed queueCapacity s.queueHead).map fun head =>
        (some (s.queue slot), { freed with queueHead := head })

/-! ### The waiting messages -/

/-- The messages in the queue, in the order in which a receiver looks at them. -/
def State.waiting (s : State) : List Message :=
  ((Ring.round s.queueHead).filter s.queueUsed).map s.queue

/-- How many slots are marked as used. -/
def State.occupied (s : State) : Nat :=
  (List.finRange queueCapacity).countP s.queueUsed

/-- The counter agrees with the slots. -/
def State.Counted (s : State) : Prop :=
  s.queueCount.toNat = s.waiting.length

theorem occupied_eq (s : State) : s.occupied = s.waiting.length := by
  rw [State.occupied, State.waiting, List.length_map, ← List.countP_eq_length_filter]
  exact ((Ring.round_perm s.queueHead).countP_eq s.queueUsed).symm

variable {s : State}

theorem free_of_counted (counted : s.Counted) (room : ¬s.queueCount ≥ 32) :
    ∃ slot, Ring.seek (fun slot => !s.queueUsed slot) queueCapacity s.queueTail = some slot := by
  cases found : Ring.seek (fun slot => !s.queueUsed slot) queueCapacity s.queueTail with
  | some slot => exact ⟨slot, rfl⟩
  | none =>
    -- the search fails on a full ring only, and then the counter says so
    have full := Ring.seek_eq_none.mp found
    have all : (Ring.round s.queueHead).filter s.queueUsed = Ring.round s.queueHead :=
      List.filter_eq_self.mpr fun slot _ => by simpa using full slot
    have count : s.queueCount.toNat = queueCapacity := by
      rw [counted, State.waiting, List.length_map, all, Ring.round_length]
    exact absurd (UInt32.le_iff_toNat_le.mpr (by rw [count]; exact le_rfl)) room

theorem used_of_waiting (some_waiting : s.waiting ≠ []) (start : Fin queueCapacity) :
    ∃ slot, Ring.seek s.queueUsed queueCapacity start = some slot := by
  cases found : Ring.seek s.queueUsed queueCapacity start with
  | some slot => exact ⟨slot, rfl⟩
  | none =>
    refine absurd ?_ some_waiting
    have empty := Ring.seek_eq_none.mp found
    rw [State.waiting, List.filter_eq_nil_iff.mpr fun slot _ => by
      rw [empty slot]; exact Bool.false_ne_true]
    rfl

/-! ### What a send does -/

/-- A message as its sender and its receiver see it: the bytes up to its length. -/
structure Letter where
  senderPid : UInt32
  receiverPid : UInt32
  length : UInt32
  bytes : List UInt8
  deriving DecidableEq

def Message.letter (m : Message) : Letter :=
  ⟨m.senderPid, m.receiverPid, m.length, (List.ofFn m.data).take m.length.toNat⟩

/-- The letter that the arguments of a send describe. -/
def sentLetter (senderPid receiverPid : UInt32) (data : Nat → UInt8) (length : UInt32) : Letter :=
  ⟨senderPid, receiverPid, length, (List.range length.toNat).map data⟩

theorem fill_letter (old : Message) (senderPid receiverPid : UInt32) (data : Nat → UInt8)
    {length : UInt32} (fits : ¬length > 64) :
    (old.fill senderPid receiverPid data length).letter = sentLetter senderPid receiverPid data length := by
  have bound : length.toNat ≤ 64 := UInt32.le_iff_toNat_le.mp (UInt32.not_lt.mp fits)
  have bytes : (List.ofFn (old.fill senderPid receiverPid data length).data).take length.toNat =
      (List.range length.toNat).map data := by
    apply List.ext_getElem
    · rw [List.length_take, List.length_ofFn, List.length_map, List.length_range]
      exact min_eq_left bound
    · intro i inside _
      rw [List.length_take] at inside
      rw [List.getElem_take, List.getElem_ofFn, List.getElem_map, List.getElem_range]
      exact if_pos (lt_of_lt_of_le inside (min_le_left _ _))
  exact congrArg (Letter.mk senderPid receiverPid length) bytes

/-- The state with a message stored in the slot `tail`. -/
def State.put (s : State) (tail : Fin queueCapacity) (m : Message) : State :=
  { s with
    queueUsed := Function.update s.queueUsed tail true
    queueTail := Ring.slot tail 1
    queueCount := s.queueCount + 1
    queue := Function.update s.queue tail m }

theorem map_update_absent {slots : List (Fin queueCapacity)} {j : Fin queueCapacity}
    (absent : j ∉ slots) (queue : Fin queueCapacity → Message) (m : Message) :
    slots.map (Function.update queue j m) = slots.map queue :=
  List.map_congr_left fun i member =>
    Function.update_of_ne (fun same : i = j => absent (same ▸ member)) _ _

theorem waiting_put {tail : Fin queueCapacity} {front back : List (Fin queueCapacity)}
    (cut : Ring.round s.queueHead = front ++ tail :: back) (m : Message) :
    (s.put tail m).waiting =
      (front.filter s.queueUsed).map s.queue ++ m :: (back.filter s.queueUsed).map s.queue := by
  have distinct := Ring.round_nodup s.queueHead
  rw [cut, List.nodup_append, List.nodup_cons] at distinct
  obtain ⟨-, ⟨behind, -⟩, apart⟩ := distinct
  have before : tail ∉ front := fun member => apart tail member tail List.mem_cons_self rfl
  simp only [State.waiting, State.put]
  rw [Ring.filter_mark cut, List.map_append, List.map_cons, Function.update_self,
    map_update_absent (fun member => before (List.mem_of_mem_filter member)),
    map_update_absent (fun member => behind (List.mem_of_mem_filter member))]

theorem waiting_free {slot : Fin queueCapacity} {front back : List (Fin queueCapacity)}
    (cut : Ring.round s.queueHead = front ++ slot :: back) (free : s.queueUsed slot = false) :
    s.waiting = (front.filter s.queueUsed).map s.queue ++ (back.filter s.queueUsed).map s.queue := by
  have skipped : ¬s.queueUsed slot = true := by
    rw [free]
    exact Bool.false_ne_true
  rw [State.waiting, cut, List.filter_append, List.filter_cons_of_neg skipped, List.map_append]

theorem ipcSend_refused {senderPid receiverPid : UInt32} {data : Nat → UInt8} {length : UInt32}
    (refused : length > 64 ∨ s.queueCount ≥ 32) :
    ipcSend s senderPid receiverPid data length = some (false, s) := by
  unfold ipcSend
  by_cases long : length > 64
  · rw [if_pos long]
  · rw [if_neg long, if_pos (refused.resolve_left long)]

/-- What an accepted send leaves: its letter waits in the first free slot at or behind
the tail, between the messages before that slot and those behind it. -/
structure Accepted (s s' : State) (letter : Letter) (tail : Fin queueCapacity)
    (before behind : List Message) : Prop where
  free : s.queueUsed tail = false
  first : ∀ i, Ring.offset s.queueTail i < Ring.offset s.queueTail tail → s.queueUsed i = true
  old : s.waiting = before ++ behind
  new : ∃ m, m.letter = letter ∧ s'.waiting = before ++ m :: behind
  behind_slot : ∀ m ∈ behind, ∃ i, s.queueUsed i = true ∧ s.queue i = m ∧
    Ring.offset s.queueHead tail ≤ Ring.offset s.queueHead i
  counted : s'.Counted

theorem ipcSend_accepted (counted : s.Counted) (senderPid receiverPid : UInt32)
    (data : Nat → UInt8) {length : UInt32} (fits : ¬length > 64) (room : ¬s.queueCount ≥ 32) :
    ∃ s' tail before behind, ipcSend s senderPid receiverPid data length = some (true, s') ∧
      Accepted s s' (sentLetter senderPid receiverPid data length) tail before behind := by
  obtain ⟨tail, found⟩ := free_of_counted counted room
  have free : s.queueUsed tail = false := by simpa using (Ring.seek_cut found).1
  obtain ⟨front, back, cut⟩ := List.append_of_mem (Ring.mem_round s.queueHead tail)
  let m := (s.queue tail).fill senderPid receiverPid data length
  have sent : ipcSend s senderPid receiverPid data length = some (true, s.put tail m) := by
    rw [ipcSend, if_neg fits, if_neg room, found]
    rfl
  refine ⟨s.put tail m, tail, _, _, sent, free, fun i closer => ?_, waiting_free cut free,
    ⟨m, fill_letter _ _ _ _ fits, waiting_put cut m⟩, fun b member => ?_, ?_⟩
  · simpa using Ring.seek_closest found closer
  · obtain ⟨i, kept, rfl⟩ := List.mem_map.mp member
    obtain ⟨inside, used⟩ := List.mem_filter.mp kept
    refine ⟨i, used, rfl, Nat.le_of_not_lt fun closer => ?_⟩
    -- a slot of the back half is not in the front half
    have distinct := Ring.round_nodup s.queueHead
    rw [cut, List.nodup_append] at distinct
    exact distinct.2.2 i ((Ring.mem_front cut).mpr closer) i (List.mem_cons_of_mem _ inside) rfl
  · -- the counter is below the capacity, so it does not wrap
    have below : s.queueCount.toNat < 32 := UInt32.lt_iff_toNat_lt.mp (UInt32.not_le.mp room)
    have count := counted
    rw [State.Counted, waiting_free cut free, List.length_append] at count
    rw [State.Counted, waiting_put cut m, List.length_append, List.length_cons, State.put,
      UInt32.toNat_add, ← Nat.add_assoc, ← count]
    exact Nat.mod_eq_of_lt (by change s.queueCount.toNat + 1 < 2 ^ 32; omega)

/-! ### What a receive does -/

theorem ipcReceive_nothing {receiverPid : UInt32}
    (nothing : ∀ m ∈ s.waiting, m.receiverPid ≠ receiverPid) :
    ipcReceive s receiverPid = some (none, s) := by
  have missed : (Ring.round s.queueHead).find? (s.addressed receiverPid) = none := by
    rw [List.find?_eq_none]
    intro slot member hit
    obtain ⟨used, meant⟩ := Bool.and_eq_true_iff.mp hit
    exact nothing _ (List.mem_map_of_mem (List.mem_filter.mpr ⟨member, used⟩)) (eq_of_beq meant)
  rw [ipcReceive, missed]

theorem ipcReceive_first (counted : s.Counted) {receiverPid : UInt32}
    (waits : ∃ m ∈ s.waiting, m.receiverPid = receiverPid) :
    ∃ s' m before behind, ipcReceive s receiverPid = some (some m, s') ∧
      m.receiverPid = receiverPid ∧ s.waiting = before ++ m :: behind ∧
      (∀ b ∈ before, b.receiverPid ≠ receiverPid) ∧ s'.waiting = before ++ behind ∧
      s'.Counted := by
  cases found : (Ring.round s.queueHead).find? (s.addressed receiverPid) with
  | none =>
    obtain ⟨m, member, meant⟩ := waits
    obtain ⟨slot, kept, rfl⟩ := List.mem_map.mp member
    obtain ⟨inside, used⟩ := List.mem_filter.mp kept
    refine absurd ?_ (List.find?_eq_none.mp found slot inside)
    exact Bool.and_eq_true_iff.mpr ⟨used, beq_iff_eq.mpr meant⟩
  | some slot =>
    obtain ⟨hit, front, back, cut, passed⟩ := List.find?_eq_some_iff_append.mp found
    obtain ⟨used, meant⟩ := Bool.and_eq_true_iff.mp hit
    have old : s.waiting = (front.filter s.queueUsed).map s.queue ++
        s.queue slot :: (back.filter s.queueUsed).map s.queue := by
      rw [State.waiting, cut, List.filter_append, List.filter_cons_of_pos used, List.map_append,
        List.map_cons]
    let freed : State := { s with
      queueUsed := Function.update s.queueUsed slot false
      queueCount := s.queueCount - 1 }
    have left : freed.waiting =
        (front.filter s.queueUsed).map s.queue ++ (back.filter s.queueUsed).map s.queue := by
      rw [State.waiting, Ring.filter_clear cut, List.map_append]
    have fewer : freed.queueCount.toNat = freed.waiting.length := by
      have count := counted
      rw [State.Counted, old, List.length_append, List.length_cons] at count
      have positive : (1 : UInt32) ≤ s.queueCount :=
        UInt32.le_iff_toNat_le.mpr (by change 1 ≤ s.queueCount.toNat; omega)
      rw [left, List.length_append]
      change (s.queueCount - 1).toNat = _
      rw [UInt32.toNat_sub_of_le _ _ positive, count]
      change _ - 1 = _
      omega
    have unlike : ∀ b ∈ (front.filter s.queueUsed).map s.queue, b.receiverPid ≠ receiverPid := by
      intro b member same
      obtain ⟨i, kept, rfl⟩ := List.mem_map.mp member
      obtain ⟨inside, marked⟩ := List.mem_filter.mp kept
      have skipped := passed i inside
      rw [State.addressed, marked, same, beq_self_eq_true] at skipped
      exact absurd skipped (by decide)
    by_cases last : freed.queueCount = 0
    · -- the last message goes and the ring starts over
      have none_left : freed.waiting = [] := by
        rw [← List.length_eq_zero_iff, ← fewer, last]
        rfl
      have restarted : State.waiting { freed with queueHead := 0, queueTail := 0 } = [] := by
        rw [State.waiting, List.map_eq_nil_iff, List.filter_eq_nil_iff]
        rw [State.waiting, List.map_eq_nil_iff, List.filter_eq_nil_iff] at none_left
        exact fun i _ => none_left i (Ring.mem_round _ i)
      refine ⟨{ freed with queueHead := 0, queueTail := 0 }, s.queue slot, _, _, ?_,
        eq_of_beq meant, old, unlike, ?_, ?_⟩
      · rw [ipcReceive, found]
        exact if_pos last
      · rw [restarted, ← left, none_left]
      · rw [State.Counted, restarted, last]
        rfl
    · have some_left : freed.waiting ≠ [] := by
        intro none_left
        rw [none_left] at fewer
        exact last (UInt32.toNat_inj.mp fewer)
      obtain ⟨head, moved⟩ := used_of_waiting some_left s.queueHead
      have same : State.waiting { freed with queueHead := head } = freed.waiting := by
        rw [State.waiting, State.waiting, Ring.filter_round_seek moved]
      refine ⟨{ freed with queueHead := head }, s.queue slot, _, _, ?_, eq_of_beq meant, old, unlike, ?_, ?_⟩
      · rw [ipcReceive, found]
        refine (if_neg last).trans ?_
        rw [moved]
        rfl
      · rw [same, left]
      · rw [State.Counted, same]
        exact fewer

end AsasOs.Ipc
