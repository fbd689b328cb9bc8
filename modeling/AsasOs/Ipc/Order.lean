import AsasOs.Ipc.Conservation

/-!
# Order of messages

The receiving order is the ring order of the slots. A slot that was freed out of order
lies between older messages, and once the tail has gone round a send may take it: its
message is then received before older ones behind it. Where no send does this to a
message for the same receiver, every receiver gets its letters in the order of their
sends.
-/
namespace AsasOs.Ipc

/-- The free slot that a send takes lies behind every waiting message for `receiverPid`. -/
def State.KeepsOrder (s : State) (receiverPid : UInt32) : Prop :=
  ∀ i j, s.queueUsed i = true → (s.queue i).receiverPid = receiverPid → s.queueUsed j = false →
    (∀ k, Ring.offset s.queueTail k < Ring.offset s.queueTail j → s.queueUsed k = true) →
    Ring.offset s.queueHead i < Ring.offset s.queueHead j

def Call.InOrder (s : State) : Call → Prop
  | .send _ receiverPid _ length => ¬length > 64 → ¬s.queueCount ≥ 32 → s.KeepsOrder receiverPid
  | .receive _ => True

/-- Every call of the run finds its condition met. -/
def InOrder (s : State) : List Call → Prop
  | [] => True
  | call :: rest => call.InOrder s ∧
    match step s call with
    | none => True
    | some done => InOrder done.2 rest

/-- The letters accepted for a receiver, in the order of their sends. -/
def acceptedFor (receiverPid : UInt32) (events : List Event) : List Letter :=
  (acceptedLetters events).filter (·.receiverPid == receiverPid)

/-- The letters that a process received, in the order of its calls. -/
def deliveredTo (receiverPid : UInt32) (events : List Event) : List Letter :=
  ((deliveredLetters events).filter (·.1 == receiverPid)).map Prod.snd

/-- The letters that wait for a receiver, in receiving order. -/
def State.lettersFor (s : State) (receiverPid : UInt32) : List Letter :=
  s.letters.filter (·.receiverPid == receiverPid)

theorem acceptedFor_cons (r : UInt32) (event : Event) (events : List Event) :
    acceptedFor r (event :: events) = acceptedFor r [event] ++ acceptedFor r events := by
  rw [acceptedFor, acceptedLetters_cons, List.filter_append]
  rfl

theorem deliveredTo_cons (r : UInt32) (event : Event) (events : List Event) :
    deliveredTo r (event :: events) = deliveredTo r [event] ++ deliveredTo r events := by
  rw [deliveredTo, deliveredLetters_cons, List.filter_append, List.map_append]
  rfl

theorem lettersFor_append {s : State} {r : UInt32} {front back : List Message}
    (parts : s.waiting = front ++ back) :
    s.lettersFor r = (front.map Message.letter).filter (·.receiverPid == r) ++
      (back.map Message.letter).filter (·.receiverPid == r) := by
  rw [State.lettersFor, State.letters, parts, List.map_append, List.filter_append]

theorem filter_unlike {r : UInt32} {messages : List Message}
    (unlike : ∀ m ∈ messages, m.receiverPid ≠ r) :
    (messages.map Message.letter).filter (·.receiverPid == r) = [] := by
  rw [List.filter_eq_nil_iff]
  intro letter member meant
  obtain ⟨m, inside, rfl⟩ := List.mem_map.mp member
  exact unlike m inside (eq_of_beq meant)

theorem Accepted.appends {s s' : State} {letter : Letter} {tail : Fin queueCapacity}
    {before behind : List Message} (put : Accepted s s' letter tail before behind)
    (keeps : s.KeepsOrder letter.receiverPid) (r : UInt32) :
    s'.lettersFor r = s.lettersFor r ++ [letter].filter (·.receiverPid == r) := by
  obtain ⟨m, rfl, new⟩ := put.new
  have split : s'.waiting = before ++ ([m] ++ behind) := new
  rw [lettersFor_append split, lettersFor_append put.old, List.map_append, List.filter_append]
  by_cases meant : m.receiverPid = r
  · -- the slots behind the new one hold nothing for this receiver
    have nothing : (behind.map Message.letter).filter (·.receiverPid == r) = [] := by
      refine filter_unlike fun b member same => ?_
      obtain ⟨i, used, rfl, later⟩ := put.behind_slot b member
      have closer := keeps i tail used (same.trans meant.symm) put.free put.first
      exact absurd closer (Nat.not_lt.mpr later)
    rw [nothing, List.append_nil, List.append_nil]
    rfl
  · have other : [m.letter].filter (·.receiverPid == r) = [] :=
      filter_unlike fun b member => by
        rw [List.mem_singleton.mp member]
        exact meant
    rw [List.map_singleton, other, List.nil_append, List.append_nil]

theorem Step.in_order {s s' : State} {event : Event} (taken : Step s event s')
    (keeps : ∀ letter, event = .accepted letter → s.KeepsOrder letter.receiverPid) (r : UInt32) :
    deliveredTo r [event] ++ s'.lettersFor r = s.lettersFor r ++ acceptedFor r [event] := by
  cases taken with
  | accepted put => exact put.appends (keeps _ rfl) r
  | refused => exact (List.append_nil _).symm
  | @delivered _ m before behind receiverPid meant old unlike new still =>
    have split : s.waiting = before ++ ([m] ++ behind) := old
    rw [lettersFor_append new, lettersFor_append split, List.map_append, List.filter_append]
    change _ = _ ++ []
    rw [List.append_nil]
    subst meant
    by_cases mine : m.receiverPid = r
    · -- it was the first letter for this receiver
      subst mine
      have got : deliveredTo m.receiverPid [.delivered m.receiverPid m.letter] = [m.letter] := by
        rw [deliveredTo, List.filter_eq_self.mpr fun d member => by
          rw [List.mem_singleton.mp member]
          exact beq_self_eq_true _]
        rfl
      have first : ([m].map Message.letter).filter (·.receiverPid == m.receiverPid) = [m.letter] :=
        List.filter_eq_self.mpr fun letter member => by
          rw [List.mem_singleton.mp member]
          exact beq_self_eq_true _
      rw [filter_unlike unlike, got, first, List.nil_append, List.nil_append]
    · have got : deliveredTo r [.delivered m.receiverPid m.letter] = [] := by
        rw [deliveredTo, List.map_eq_nil_iff, List.filter_eq_nil_iff]
        intro d member
        rw [List.mem_singleton.mp member]
        exact fun same => mine (eq_of_beq same)
      have other : ([m].map Message.letter).filter (·.receiverPid == r) = [] :=
        filter_unlike fun b member => by
          rw [List.mem_singleton.mp member]
          exact mine
      rw [got, other, List.nil_append, List.nil_append]
  | nothing _ => exact (List.append_nil _).symm

theorem Call.InOrder.keeps {s s' : State} {call : Call} {event : Event} (counted : s.Counted)
    (inOrder : call.InOrder s) (stepped : step s call = some (event, s')) :
    ∀ letter, event = .accepted letter → s.KeepsOrder letter.receiverPid := by
  rintro letter rfl
  cases call with
  | send senderPid receiverPid data length =>
    by_cases refused : length > 64 ∨ s.queueCount ≥ 32
    · rw [step, ipcSend_refused refused] at stepped
      cases stepped
    · obtain ⟨fits, room⟩ := not_or.mp refused
      obtain ⟨_, _, _, _, sent, -⟩ := ipcSend_accepted counted senderPid receiverPid data fits room
      rw [step, sent] at stepped
      obtain ⟨rfl, -⟩ := Prod.mk.inj (Option.some.inj stepped) |>.imp (Event.accepted.inj) id
      exact inOrder fits room
  | receive receiverPid =>
    rw [step] at stepped
    cases received : ipcReceive s receiverPid with
    | none => rw [received] at stepped; cases stepped
    | some result =>
      rw [received] at stepped
      obtain ⟨got, s₁⟩ := result
      cases got <;> cases stepped

theorem run_in_order {s : State} (counted : s.Counted) {calls : List Call} (inOrder : InOrder s calls)
    {events : List Event} {s' : State} (ran : run s calls = some (events, s')) (r : UInt32) :
    deliveredTo r events ++ s'.lettersFor r = s.lettersFor r ++ acceptedFor r events := by
  induction calls generalizing s events with
  | nil =>
    obtain ⟨rfl, rfl⟩ := Prod.mk.inj (Option.some.inj ran)
    exact (List.append_nil _).symm
  | cons call rest ih =>
    obtain ⟨event, s₁, now, taken⟩ := step_ends counted call
    rw [run, now, Option.bind_some, Option.map_eq_some_iff] at ran
    obtain ⟨⟨later, s₂⟩, ran, same⟩ := ran
    obtain ⟨rfl, rfl⟩ := Prod.mk.inj same
    have step := taken.in_order (inOrder.1.keeps counted now) r
    obtain ⟨first, onward⟩ := inOrder
    rw [now] at onward
    have tail := ih (taken.counted counted) onward ran
    rw [deliveredTo_cons, acceptedFor_cons, List.append_assoc, tail, ← List.append_assoc, step,
      List.append_assoc]

/-- **Order**: in a run whose accepted sends all take a slot behind the waiting messages
of their receiver, every receiver gets its letters in the order of their sends. -/
theorem ipc_order (boot : State) (calls : List Call) (inOrder : InOrder (ipcInitialize boot) calls)
    (events : List Event) (s : State) (ran : run (ipcInitialize boot) calls = some (events, s))
    (receiverPid : UInt32) :
    deliveredTo receiverPid events <+: acceptedFor receiverPid events := by
  have all := run_in_order (initialized_counted boot) inOrder ran receiverPid
  have before : (ipcInitialize boot).lettersFor receiverPid = [] := by
    rw [State.lettersFor, initialized_letters]
    rfl
  rw [before, List.nil_append] at all
  exact ⟨_, all⟩

instance (s : State) (receiverPid : UInt32) : Decidable (s.KeepsOrder receiverPid) :=
  inferInstanceAs (Decidable (∀ _ _, _ → _ → _ → _ → _))

instance (s : State) : (call : Call) → Decidable (call.InOrder s)
  | .send _ receiverPid _ length =>
    inferInstanceAs (Decidable (¬length > 64 → ¬s.queueCount ≥ 32 → s.KeepsOrder receiverPid))
  | .receive _ => isTrue trivial

instance decideInOrder (s : State) : (calls : List Call) → Decidable (InOrder s calls)
  | [] => isTrue trivial
  | call :: rest =>
    match stepped : step s call with
    | none => decidable_of_iff (call.InOrder s) (by rw [InOrder, stepped, and_true])
    | some done =>
      have := decideInOrder done.2 rest
      decidable_of_iff (call.InOrder s ∧ InOrder done.2 rest) (by rw [InOrder, stepped])

/-- A queue before its initialization. -/
def zeroed : State where
  queue _ := ⟨0, 0, 0, fun _ => 0⟩
  queueUsed _ := false
  queueHead := 0
  queueTail := 0
  queueCount := 0

/-- One message to process 2 and one to process 3, which receives it; then 31 numbered
messages to process 4, the last of which takes the slot that process 3 freed; then a
receive by process 4. -/
def wrappedCalls : List Call :=
  [.send 1 2 (fun _ => 0) 1, .send 1 3 (fun _ => 0) 1, .receive 3] ++
    (List.range 31).map (fun k => .send 1 4 (fun _ => UInt8.ofNat k) 1) ++ [.receive 4]

/-- The last message sent to process 4 is the first that it receives. -/
theorem ipc_out_of_order :
    ¬∀ (boot : State) (calls : List Call) (events : List Event) (s : State) (receiverPid : UInt32),
      run (ipcInitialize boot) calls = some (events, s) →
        deliveredTo receiverPid events <+: acceptedFor receiverPid events := by
  intro always
  have seen : (run (ipcInitialize zeroed) wrappedCalls).map
      (fun result => (deliveredTo 4 result.1, (acceptedFor 4 result.1).head?)) =
        some ([⟨1, 4, 1, [30]⟩], some ⟨1, 4, 1, [0]⟩) := by decide +kernel
  obtain ⟨⟨events, s⟩, ran, same⟩ := Option.map_eq_some_iff.mp seen
  obtain ⟨got, sent⟩ := Prod.mk.inj same
  obtain ⟨rest, whole⟩ := always zeroed wrappedCalls events s 4 ran
  rw [got] at whole
  rw [← whole] at sent
  exact absurd (Option.some.inj sent) (by decide)

/-- Two messages to one process, both received. -/
def twoCalls : List Call :=
  [.send 1 2 (fun _ => 7) 1, .send 1 2 (fun _ => 8) 1, .receive 2, .receive 2]

theorem ipc_order_two : ∃ events s, run (ipcInitialize zeroed) twoCalls = some (events, s) ∧
      deliveredTo 2 events <+: acceptedFor 2 events := by
  obtain ⟨events, s, ran, -⟩ := run_ends (initialized_counted zeroed) twoCalls
  exact ⟨events, s, ran, ipc_order zeroed twoCalls (by decide +kernel) events s ran 2⟩

end AsasOs.Ipc
