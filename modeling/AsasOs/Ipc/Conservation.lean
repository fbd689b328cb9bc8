import AsasOs.Ipc.Queue

/-!
# Conservation of messages

A run is any sequence of calls, by any processes, from the initialized queue. The
events record what the callers see: the letters that were accepted and the letters
that were handed out. In every state of every run the accepted letters are, with their
multiplicities, the delivered ones and the waiting ones.
-/
namespace AsasOs.Ipc

inductive Call where
  | send (senderPid receiverPid : UInt32) (data : Nat → UInt8) (length : UInt32)
  | receive (receiverPid : UInt32)

inductive Event where
  | accepted (letter : Letter)
  | refused
  | delivered (receiverPid : UInt32) (letter : Letter)
  | nothing (receiverPid : UInt32)

/-- One call; `none` when a slot search never ends. -/
def step (s : State) : Call → Option (Event × State)
  | .send senderPid receiverPid data length =>
    (ipcSend s senderPid receiverPid data length).map fun result =>
      (if result.1 then .accepted (sentLetter senderPid receiverPid data length) else .refused, result.2)
  | .receive receiverPid =>
    (ipcReceive s receiverPid).map fun result =>
      (match result.1 with
        | some m => .delivered receiverPid m.letter
        | none => .nothing receiverPid,
        result.2)

def run (s : State) : List Call → Option (List Event × State)
  | [] => some ([], s)
  | call :: rest =>
    (step s call).bind fun done =>
      (run done.2 rest).map fun result => (done.1 :: result.1, result.2)

def Event.acceptedLetter : Event → Option Letter
  | .accepted letter => some letter
  | _ => none

def Event.deliveredLetter : Event → Option (UInt32 × Letter)
  | .delivered receiverPid letter => some (receiverPid, letter)
  | _ => none

/-- The letters that were accepted, in the order of their sends. -/
def acceptedLetters (events : List Event) : List Letter :=
  events.filterMap Event.acceptedLetter

/-- The letters that were handed out, each with the process it went to. -/
def deliveredLetters (events : List Event) : List (UInt32 × Letter) :=
  events.filterMap Event.deliveredLetter

def State.letters (s : State) : List Letter :=
  s.waiting.map Message.letter

/-- What one call does to a queue whose counter is right. -/
inductive Step (s : State) : Event → State → Prop
  | accepted {s' : State} {letter : Letter} {tail : Fin queueCapacity}
      {before behind : List Message} (put : Accepted s s' letter tail before behind) :
      Step s (.accepted letter) s'
  | refused : Step s .refused s
  | delivered {s' : State} {m : Message} {before behind : List Message} {receiverPid : UInt32}
      (meant : m.receiverPid = receiverPid) (old : s.waiting = before ++ m :: behind)
      (unlike : ∀ b ∈ before, b.receiverPid ≠ receiverPid) (new : s'.waiting = before ++ behind)
      (counted : s'.Counted) : Step s (.delivered receiverPid m.letter) s'
  | nothing {receiverPid : UInt32} (none_waits : ∀ m ∈ s.waiting, m.receiverPid ≠ receiverPid) :
      Step s (.nothing receiverPid) s

theorem step_ends {s : State} (counted : s.Counted) (call : Call) :
    ∃ event s', step s call = some (event, s') ∧ Step s event s' := by
  cases call with
  | send senderPid receiverPid data length =>
    by_cases refused : length > 64 ∨ s.queueCount ≥ 32
    · refine ⟨.refused, s, ?_, .refused⟩
      rw [step, ipcSend_refused refused]
      rfl
    · obtain ⟨fits, room⟩ := not_or.mp refused
      obtain ⟨s', tail, before, behind, sent, put⟩ :=
        ipcSend_accepted counted senderPid receiverPid data fits room
      refine ⟨_, s', ?_, .accepted put⟩
      rw [step, sent]
      rfl
  | receive receiverPid =>
    by_cases waits : ∃ m ∈ s.waiting, m.receiverPid = receiverPid
    · obtain ⟨s', m, before, behind, received, meant, old, unlike, new, still⟩ :=
        ipcReceive_first counted waits
      refine ⟨_, s', ?_, .delivered meant old unlike new still⟩
      rw [step, received]
      rfl
    · have none_waits : ∀ m ∈ s.waiting, m.receiverPid ≠ receiverPid :=
        fun m member meant => waits ⟨m, member, meant⟩
      refine ⟨_, s, ?_, .nothing none_waits⟩
      rw [step, ipcReceive_nothing none_waits]
      rfl

theorem Step.counted {s s' : State} {event : Event} (taken : Step s event s')
    (counted : s.Counted) : s'.Counted := by
  cases taken with
  | accepted put => exact put.counted
  | refused => exact counted
  | delivered _ _ _ _ still => exact still
  | nothing _ => exact counted

theorem Step.conserves {s s' : State} {event : Event} (taken : Step s event s') :
    (acceptedLetters [event] ++ s.letters).Perm ((deliveredLetters [event]).map Prod.snd ++ s'.letters) := by
  cases taken with
  | @accepted _ _ _ before behind put =>
    obtain ⟨m, rfl, new⟩ := put.new
    rw [State.letters, State.letters, put.old, new, List.map_append, List.map_append, List.map_cons]
    change (m.letter :: (before.map Message.letter ++ behind.map Message.letter)).Perm
      (before.map Message.letter ++ m.letter :: behind.map Message.letter)
    exact List.perm_middle.symm
  | refused => exact List.Perm.refl _
  | delivered meant old unlike new still =>
    rw [State.letters, State.letters, old, new, List.map_append, List.map_append, List.map_cons]
    exact List.perm_middle
  | nothing _ => exact List.Perm.refl _

theorem Step.addressed {s s' : State} {event : Event} (taken : Step s event s') :
    ∀ d ∈ deliveredLetters [event], d.2.receiverPid = d.1 := by
  cases taken with
  | delivered meant =>
    intro d member
    rw [List.mem_singleton.mp member]
    exact meant
  | _ => exact fun d member => nomatch member

/-- What holds after a run from `s`. -/
structure Conserved (s : State) (events : List Event) (s' : State) : Prop where
  counted : s'.Counted
  balance : (acceptedLetters events ++ s.letters).Perm
    ((deliveredLetters events).map Prod.snd ++ s'.letters)
  addressed : ∀ d ∈ deliveredLetters events, d.2.receiverPid = d.1

theorem Conserved.refl {s : State} (counted : s.Counted) : Conserved s [] s :=
  ⟨counted, List.Perm.refl _, fun _ member => nomatch member⟩

theorem acceptedLetters_cons (event : Event) (events : List Event) :
    acceptedLetters (event :: events) = acceptedLetters [event] ++ acceptedLetters events :=
  List.filterMap_append (l := [event])

theorem deliveredLetters_cons (event : Event) (events : List Event) :
    deliveredLetters (event :: events) = deliveredLetters [event] ++ deliveredLetters events :=
  List.filterMap_append (l := [event])

theorem Conserved.cons {s s₁ s' : State} {event : Event} {events : List Event}
    (taken : Step s event s₁) (rest : Conserved s₁ events s') :
    Conserved s (event :: events) s' := by
  refine ⟨rest.counted, ?_, ?_⟩
  · rw [acceptedLetters_cons, deliveredLetters_cons, List.map_append, List.append_assoc, List.append_assoc]
    refine (List.perm_append_comm_assoc _ _ _).trans ?_
    refine (taken.conserves.append_left _).trans ?_
    refine (List.perm_append_comm_assoc _ _ _).trans ?_
    exact rest.balance.append_left _
  · rw [deliveredLetters_cons]
    intro d member
    rcases List.mem_append.mp member with now | later
    · exact taken.addressed d now
    · exact rest.addressed d later

theorem run_ends {s : State} (counted : s.Counted) (calls : List Call) :
    ∃ events s', run s calls = some (events, s') ∧ Conserved s events s' := by
  induction calls generalizing s with
  | nil => exact ⟨[], s, rfl, .refl counted⟩
  | cons call rest ih =>
    obtain ⟨event, s₁, now, taken⟩ := step_ends counted call
    obtain ⟨events, s', later, conserved⟩ := ih (taken.counted counted)
    refine ⟨event :: events, s', ?_, .cons taken conserved⟩
    rw [run, now, Option.bind_some, later]
    rfl

theorem initialized_waiting (boot : State) : (ipcInitialize boot).waiting = [] := by
  rw [State.waiting, List.map_eq_nil_iff, List.filter_eq_nil_iff]
  exact fun _ _ => Bool.false_ne_true

theorem initialized_counted (boot : State) : (ipcInitialize boot).Counted := by
  rw [State.Counted, initialized_waiting]
  rfl

theorem initialized_letters (boot : State) : (ipcInitialize boot).letters = [] := by
  rw [State.letters, initialized_waiting]
  rfl

theorem ipcSend_fails {s : State} (counted : s.Counted) (senderPid receiverPid : UInt32)
    (data : Nat → UInt8) (length : UInt32) :
    ∃ ok s', ipcSend s senderPid receiverPid data length = some (ok, s') ∧
      (ok = false ↔ length > 64 ∨ s.occupied = queueCapacity) := by
  have full : s.queueCount ≥ 32 ↔ s.occupied = queueCapacity := by
    have bound : s.occupied ≤ queueCapacity :=
      List.countP_le_length.trans (List.length_finRange).le
    rw [occupied_eq, ← counted] at bound ⊢
    exact UInt32.le_iff_toNat_le.trans ⟨fun many => le_antisymm bound many, fun same => same.ge⟩
  by_cases refused : length > 64 ∨ s.queueCount ≥ 32
  · exact ⟨false, s, ipcSend_refused refused, ⟨fun _ => refused.imp id full.mp, fun _ => rfl⟩⟩
  · obtain ⟨fits, room⟩ := not_or.mp refused
    obtain ⟨s', _, _, _, sent, -⟩ := ipcSend_accepted counted senderPid receiverPid data fits room
    refine ⟨true, s', sent, ⟨nofun, fun failed => ?_⟩⟩
    exact absurd (failed.imp id full.mpr) refused

theorem ipcReceive_fails {s : State} (counted : s.Counted) (receiverPid : UInt32) :
    ∃ got s', ipcReceive s receiverPid = some (got, s') ∧
      (got = none ↔ ∀ letter ∈ s.letters, letter.receiverPid ≠ receiverPid) := by
  by_cases waits : ∃ m ∈ s.waiting, m.receiverPid = receiverPid
  · obtain ⟨s', m, _, _, received, -⟩ := ipcReceive_first counted waits
    obtain ⟨first, member, meant⟩ := waits
    refine ⟨_, s', received, ⟨nofun, fun nothing => ?_⟩⟩
    exact absurd meant (nothing first.letter (List.mem_map_of_mem member))
  · have none_waits : ∀ m ∈ s.waiting, m.receiverPid ≠ receiverPid :=
      fun m member meant => waits ⟨m, member, meant⟩
    refine ⟨none, s, ipcReceive_nothing none_waits, ⟨fun _ letter member => ?_, fun _ => rfl⟩⟩
    obtain ⟨m, inside, rfl⟩ := List.mem_map.mp member
    exact none_waits m inside

/-- **Conservation**: every run of calls from the initialized queue ends, its slot
searches included, in a state whose counter is the number of occupied slots. The
accepted letters are the delivered and the waiting ones, each delivered letter went to
its receiver, a further send fails exactly when its length is refused or the queue is
full, and a further receive fails exactly when nothing waits for its caller. -/
theorem ipc_conservation (boot : State) (calls : List Call) :
    ∃ events s, run (ipcInitialize boot) calls = some (events, s) ∧ s.queueCount.toNat = s.occupied ∧
      (acceptedLetters events).Perm ((deliveredLetters events).map Prod.snd ++ s.letters) ∧
      (∀ d ∈ deliveredLetters events, d.2.receiverPid = d.1) ∧
      (∀ senderPid receiverPid data length, ∃ ok s',
        ipcSend s senderPid receiverPid data length = some (ok, s') ∧
          (ok = false ↔ length > 64 ∨ s.occupied = queueCapacity)) ∧
      (∀ receiverPid, ∃ got s', ipcReceive s receiverPid = some (got, s') ∧
        (got = none ↔ ∀ letter ∈ s.letters, letter.receiverPid ≠ receiverPid)) := by
  obtain ⟨events, s, ran, conserved⟩ := run_ends (initialized_counted boot) calls
  have balance := conserved.balance
  rw [initialized_letters, List.append_nil] at balance
  exact ⟨events, s, ran, conserved.counted.trans (occupied_eq s).symm, balance,
    conserved.addressed, ipcSend_fails conserved.counted, ipcReceive_fails conserved.counted⟩

end AsasOs.Ipc
