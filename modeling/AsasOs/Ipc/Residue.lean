import AsasOs.Ipc.Order

/-!
# What a message structure holds

A send writes the bytes of its letter over what its slot held, and a receive hands out the
whole slot. The bytes behind the length are those of earlier letters in the slot.

## Main result

- `ipc_residue`: two messages that stem from the same send are alike up to the length, and
  alike as a whole exactly if their slots held the same behind it.
-/
namespace AsasOs.Ipc

/-- The letters that have been stored in each slot, the last one first. -/
abbrev SlotLog := Fin queueCapacity → List Letter

/-- The states of the queue, with the letters of every slot since the initialization. -/
inductive History (boot : State) : State → SlotLog → Prop
  | start : History boot (ipcInitialize boot) fun _ => []
  | sent {s s' : State} {log : SlotLog} {senderPid receiverPid length : UInt32} {data : Nat → UInt8}
      {slot : Fin queueCapacity} (before : History boot s log)
      (free : Ring.seek (fun slot => !s.queueUsed slot) queueCapacity s.queueTail = some slot)
      (accepted : ipcSend s senderPid receiverPid data length = some (true, s')) :
      History boot s' (Function.update log slot (sentLetter senderPid receiverPid data length :: log slot))
  | refused {s s' : State} {log : SlotLog} {senderPid receiverPid length : UInt32} {data : Nat → UInt8}
      (before : History boot s log) (refused : ipcSend s senderPid receiverPid data length = some (false, s')) :
      History boot s' log
  | received {s s' : State} {log : SlotLog} {receiverPid : UInt32} {message : Option Message}
      (before : History boot s log) (taken : ipcReceive s receiverPid = some (message, s')) : History boot s' log

/-- The byte at an index of a slot: that of the last letter that is long enough, or the first one of all. -/
def residue (initial : UInt8) (index : Nat) : List Letter → UInt8
  | [] => initial
  | letter :: earlier => if index < letter.length.toNat then letter.bytes.getD index 0 else residue initial index earlier

theorem residue_sent (initial : UInt8) (index : Nat) (senderPid receiverPid : UInt32)
    (data : Nat → UInt8)
    (length : UInt32) (earlier : List Letter) :
    residue initial index (sentLetter senderPid receiverPid data length :: earlier) =
      if index < length.toNat then data index else residue initial index earlier := by
  show (if index < length.toNat then ((List.range length.toNat).map data).getD index 0 else _) = _
  split
  next inside =>
    rw [List.getD_eq_getElem?_getD, List.getElem?_map, List.getElem?_range inside]
    rfl
  next => rfl

/-- A slot holds the header of the last letter stored in it, and at each index the byte of the last one that is
long enough. -/
structure Holds (boot s : State) (log : SlotLog) : Prop where
  header : ∀ slot letter earlier, log slot = letter :: earlier →
    (s.queue slot).senderPid = letter.senderPid ∧ (s.queue slot).receiverPid = letter.receiverPid ∧
      (s.queue slot).length = letter.length
  data : ∀ slot index, (s.queue slot).data index = residue ((boot.queue slot).data index) index (log slot)
  stored : ∀ slot, s.queueUsed slot = true → log slot ≠ []

section Steps

variable {boot s s' : State} {log : SlotLog} {senderPid receiverPid length : UInt32} {data : Nat → UInt8}

theorem Holds.sent (holds : Holds boot s log) {slot : Fin queueCapacity}
    (free : Ring.seek (fun slot => !s.queueUsed slot) queueCapacity s.queueTail = some slot)
    (accepted : ipcSend s senderPid receiverPid data length = some (true, s')) :
    Holds boot s' (Function.update log slot (sentLetter senderPid receiverPid data length :: log slot)) := by
  unfold ipcSend at accepted
  split at accepted
  · cases accepted
  split at accepted
  · cases accepted
  rw [free] at accepted
  cases accepted
  refine ⟨fun other letter earlier logged => ?_, fun other index => ?_, fun other used => ?_⟩
  · dsimp only
    by_cases here : other = slot
    · rw [here, Function.update_self] at logged ⊢
      obtain ⟨rfl, -⟩ := List.cons.inj logged
      exact ⟨rfl, rfl, rfl⟩
    · rw [Function.update_of_ne here] at logged ⊢
      exact holds.header other letter earlier logged
  · dsimp only
    by_cases here : other = slot
    · rw [here, Function.update_self, Function.update_self, residue_sent, ← holds.data slot index]
      rfl
    · rw [Function.update_of_ne here, Function.update_of_ne here]
      exact holds.data other index
  · dsimp only at used
    by_cases here : other = slot
    · rw [here, Function.update_self]
      exact List.cons_ne_nil _ _
    · rw [Function.update_of_ne here] at used ⊢
      exact holds.stored other used

theorem ipcReceive_frame {message : Option Message}
    (taken : ipcReceive s receiverPid = some (message, s')) :
    s'.queue = s.queue ∧ (∀ slot, s'.queueUsed slot = true → s.queueUsed slot = true) ∧
      ∀ m, message = some m → ∃ slot, (Ring.round s.queueHead).find? (s.addressed receiverPid) =
      some slot ∧
        m = s.queue slot := by
  have fewer : ∀ cleared slot, Function.update s.queueUsed cleared false slot = true → s.queueUsed slot = true := by
    intro cleared slot used
    by_cases here : slot = cleared
    · rw [here, Function.update_self] at used
      exact absurd used Bool.false_ne_true
    · rwa [Function.update_of_ne here] at used
  unfold ipcReceive at taken
  split at taken
  next =>
    cases taken
    exact ⟨rfl, fun _ used => used, by rintro _ ⟨⟩⟩
  next slot found =>
    dsimp only at taken
    split at taken
    next =>
      cases taken
      exact ⟨rfl, fewer slot, fun m handed => ⟨slot, found, (Option.some.inj handed).symm⟩⟩
    next =>
      obtain ⟨head, -, same⟩ := Option.map_eq_some_iff.mp taken
      cases same
      exact ⟨rfl, fewer slot, fun m handed => ⟨slot, found, (Option.some.inj handed).symm⟩⟩

theorem ipcSend_false (refused : ipcSend s senderPid receiverPid data length = some (false, s')) :
    s' = s := by
  unfold ipcSend at refused
  split at refused
  · cases refused
    rfl
  split at refused
  · cases refused
    rfl
  · obtain ⟨_, -, same⟩ := Option.map_eq_some_iff.mp refused
    cases same

theorem History.holds (history : History boot s log) : Holds boot s log := by
  induction history with
  | start => exact ⟨nofun, fun _ _ => rfl, nofun⟩
  | sent before free accepted ih => exact ih.sent free accepted
  | refused before refused ih => exact ipcSend_false refused ▸ ih
  | received before taken ih =>
    obtain ⟨same, used, -⟩ := ipcReceive_frame taken
    exact ⟨fun slot => same ▸ ih.header slot, fun slot => same ▸ ih.data slot, fun slot marked =>
      ih.stored slot (used slot marked)⟩

theorem History.received_message (history : History boot s log) {m : Message} {slot : Fin queueCapacity}
    {letter : Letter} {earlier : List Letter} (received : ipcReceive s receiverPid = some (some m, s'))
    (matched : (Ring.round s.queueHead).find? (s.addressed receiverPid) = some slot)
    (logged : log slot = letter :: earlier) :
    m.senderPid = letter.senderPid ∧ m.receiverPid = letter.receiverPid ∧ m.length = letter.length ∧
      ∀ index, m.data index = residue ((boot.queue slot).data index) index (letter :: earlier) := by
  obtain ⟨-, -, handed⟩ := ipcReceive_frame received
  obtain ⟨slot', found, rfl⟩ := handed m rfl
  rw [matched] at found
  cases found
  obtain ⟨sender, receiver, length⟩ := history.holds.header slot letter earlier logged
  refine ⟨sender, receiver, length, fun index => ?_⟩
  rw [← logged]
  exact history.holds.data slot index

end Steps

/-- **Residue**: two messages, of any two histories, that stem from the same letter have the same header and the
same bytes up to the length. They are the same as a whole exactly if what earlier letters left behind the length is
the same in both slots. -/
theorem ipc_residue {boot boot' s s' t t' : State} {log log' : SlotLog} {receiverPid : UInt32}
    {m m' : Message}
    {slot slot' : Fin queueCapacity} {letter : Letter} {earlier earlier' : List Letter}
    (history : History boot s log) (history' : History boot' s' log')
    (received : ipcReceive s receiverPid = some (some m, t))
    (received' : ipcReceive s' receiverPid = some (some m', t'))
    (matched : (Ring.round s.queueHead).find? (s.addressed receiverPid) = some slot)
    (matched' : (Ring.round s'.queueHead).find? (s'.addressed receiverPid) = some slot')
    (logged : log slot = letter :: earlier) (logged' : log' slot' = letter :: earlier') :
    m.senderPid = m'.senderPid ∧ m.receiverPid = m'.receiverPid ∧ m.length = m'.length ∧
      (∀ index : Fin messageSize, index.val < m.length.toNat → m.data index = m'.data index) ∧
      (m = m' ↔ ∀ index : Fin messageSize, m.length.toNat ≤ index.val →
        residue ((boot.queue slot).data index) index earlier =
          residue ((boot'.queue slot').data index) index earlier') := by
  obtain ⟨sender, receiver, length, bytes⟩ := history.received_message received matched logged
  obtain ⟨sender', receiver', length', bytes'⟩ := history'.received_message received' matched' logged'
  rw [length]
  have front : ∀ index : Fin messageSize, index.val < letter.length.toNat → m.data index = m'.data index := by
    intro index inside
    rw [bytes, bytes', residue, residue, if_pos inside, if_pos inside]
  have behind : ∀ index : Fin messageSize, letter.length.toNat ≤ index.val →
      m.data index = residue ((boot.queue slot).data index) index earlier ∧
        m'.data index = residue ((boot'.queue slot').data index) index earlier' := by
    intro index outside
    rw [bytes, bytes', residue, residue, if_neg (Nat.not_lt.mpr outside), if_neg (Nat.not_lt.mpr outside)]
    exact ⟨rfl, rfl⟩
  refine ⟨sender.trans sender'.symm, receiver.trans receiver'.symm, length'.symm, front, ?_, fun same => ?_⟩
  · rintro rfl index outside
    exact (behind index outside).1.symm.trans (behind index outside).2
  · have data : m.data = m'.data := by
      funext index
      rcases Nat.lt_or_ge index.val letter.length.toNat with inside | outside
      · exact front index inside
      · rw [(behind index outside).1, (behind index outside).2, same index outside]
    cases m
    cases m'
    rw [Message.mk.injEq]
    exact ⟨sender.trans sender'.symm, receiver.trans receiver'.symm, length.trans length'.symm, data⟩

/-- A call, with the letters of every slot. -/
def advance (known : State × SlotLog) : Call → Option (State × SlotLog)
  | .send senderPid receiverPid data length =>
    match Ring.seek (fun slot => !known.1.queueUsed slot) queueCapacity known.1.queueTail,
      ipcSend known.1 senderPid receiverPid data length with
    | some slot, some (true, s) =>
      some (s, Function.update known.2 slot (sentLetter senderPid receiverPid data length :: known.2 slot))
    | _, some (false, s) => some (s, known.2)
    | _, _ => none
  | .receive receiverPid => (ipcReceive known.1 receiverPid).map fun result => (result.2, known.2)

theorem advance_history {boot : State} {known known' : State × SlotLog} {call : Call}
    (history : History boot known.1 known.2) (done : advance known call = some known') :
    History boot known'.1 known'.2 := by
  cases call with
  | send senderPid receiverPid data length =>
    rw [advance] at done
    split at done
    next free accepted =>
      cases done
      exact history.sent free accepted
    next refused =>
      cases done
      exact history.refused refused
    next => cases done
  | receive receiverPid =>
    obtain ⟨⟨message, s⟩, taken, rfl⟩ := Option.map_eq_some_iff.mp done
    exact history.received taken

theorem calls_history {boot : State} (calls : List Call) : ∀ {known known' : State × SlotLog},
    History boot known.1 known.2 → calls.foldlM advance known = some known' →
    History boot known'.1 known'.2 := by
  induction calls with
  | nil =>
    intro known known' history done
    cases done
    exact history
  | cons call rest ih =>
    intro known known' history done
    rw [List.foldlM_cons] at done
    obtain ⟨between, first, later⟩ := Option.bind_eq_some_iff.mp done
    exact ih (advance_history history first) later

def after (calls : List Call) : Option (State × SlotLog) :=
  calls.foldlM advance (ipcInitialize zeroed, fun _ => [])

theorem after_history {calls : List Call} {known : State × SlotLog} (done : after calls = some known) :
    History zeroed known.1 known.2 := calls_history calls .start done

/-- What a receive by process 2 finds after some calls: its slot, the letter, and the last byte of the message. -/
def received (calls : List Call) : Option (Fin queueCapacity × Option Letter × UInt8) := do
  let known ← after calls
  let slot ← (Ring.round known.1.queueHead).find? (known.1.addressed 2)
  let result ← ipcReceive known.1 2
  let message ← result.1
  return (slot, (known.2 slot).head?, message.data 63)

theorem received_history {calls : List Call} {slot : Fin queueCapacity} {letter : Letter} {byte : UInt8}
    (seen : received calls = some (slot, some letter, byte)) :
    ∃ s t log m earlier, History zeroed s log ∧ ipcReceive s 2 = some (some m, t) ∧
      (Ring.round s.queueHead).find? (s.addressed 2) = some slot ∧ log slot = letter :: earlier ∧
      m.data 63 = byte := by
  obtain ⟨⟨s, log⟩, done, seen⟩ := Option.bind_eq_some_iff.mp seen
  obtain ⟨place, matched, seen⟩ := Option.bind_eq_some_iff.mp seen
  obtain ⟨⟨message, t⟩, taken, seen⟩ := Option.bind_eq_some_iff.mp seen
  obtain ⟨m, rfl, seen⟩ := Option.bind_eq_some_iff.mp seen
  obtain ⟨rfl, rest⟩ := Prod.mk.inj (Option.some.inj seen)
  obtain ⟨head, last⟩ := Prod.mk.inj rest
  obtain ⟨earlier, logged⟩ := List.head?_eq_some_iff.mp head
  exact ⟨s, t, log, m, earlier, after_history done, taken, matched, logged, last⟩

/-- Four bytes for process 2. -/
def shortCall : Call := .send 1 2 (fun _ => 7) 4

/-- The same after 64 bytes from process 5 to process 6, which has received them. -/
def longCalls : List Call := [.send 5 6 (fun _ => 0xAA) 64, .receive 6, shortCall]

theorem shortCall_received :
    received [shortCall] = some (0, some ⟨1, 2, 4, [7, 7, 7, 7]⟩, 0) := by decide

theorem longCalls_received :
    received longCalls = some (0, some ⟨1, 2, 4, [7, 7, 7, 7]⟩, 0xAA) := by decide

/-- Process 2 finds a byte behind its four that process 5 has sent to process 6. -/
theorem ipc_residue_seen :
    ¬∀ (boot s s' t t' : State) (log log' : SlotLog) (receiverPid : UInt32) (m m' : Message)
      (slot slot' : Fin queueCapacity) (letter : Letter) (earlier earlier' : List Letter),
      History boot s log → History boot s' log' → ipcReceive s receiverPid = some (some m, t) →
      ipcReceive s' receiverPid = some (some m', t') →
      (Ring.round s.queueHead).find? (s.addressed receiverPid) = some slot →
      (Ring.round s'.queueHead).find? (s'.addressed receiverPid) = some slot' →
      log slot = letter :: earlier → log' slot' = letter :: earlier' → m = m' := by
  intro always
  obtain ⟨s, t, log, m, earlier, history, taken, matched, logged, last⟩ := received_history shortCall_received
  obtain ⟨s', t', log', m', earlier', history', taken', matched', logged', last'⟩ :=
    received_history longCalls_received
  have same := always zeroed s s' t t' log log' 2 m m' 0 0 _ earlier earlier' history history' taken taken' matched
    matched' logged logged'
  rw [same, last'] at last
  exact absurd last (by decide)

/-- The four bytes are the same with and without earlier traffic. -/
theorem ipc_residue_short : ∃ s s' t t' m m', ipcReceive s 2 = some (some m, t) ∧
    ipcReceive s' 2 = some (some m', t') ∧
    m.length = m'.length ∧ ∀ index : Fin messageSize, index.val < m.length.toNat →
    m.data index = m'.data index := by
  obtain ⟨s, t, log, m, earlier, history, taken, matched, logged, -⟩ := received_history shortCall_received
  obtain ⟨s', t', log', m', earlier', history', taken', matched', logged', -⟩ := received_history longCalls_received
  obtain ⟨-, -, length, bytes, -⟩ := ipc_residue history history' taken taken' matched matched' logged logged'
  exact ⟨s, s', t, t', m, m', taken, taken', length, bytes⟩

end AsasOs.Ipc
