import AsasOs.Lib.FreeRunning
import AsasOs.Lib.Outcomes

/-!
# The receive queue

The buffers of the receive queue of `virtio_net.c`. The driver posts them in the available ring, the device takes them
from there and returns them in the used ring, and the driver posts again what it has looked at. A buffer that is
returned with no more than a header is not posted again.

## Model

- `taken` and `held` belong to the device: its counter for the available ring, and the buffers that it has.
- A round of the loop in `poll_receive` is a step, so the device may return buffers while the driver polls. What is done
  with a frame does not touch the queue.

## Main results

- `step_conserved_iff`: what a step preserves.
- `queue_conserved_iff`: in a run no buffer is lost or doubled just if none is polled with no more than a header.
-/
namespace AsasOs.Net

open FreeRunning Checked

def VIRTIO_NET_RX_BUFFER_COUNT : UInt16 := 8

/-- `sizeof(VIRTIO_NET_HEADER)` -/
def VIRTIO_NET_HEADER_SIZE : UInt32 := 10

/-- A queue, with the counters `rx_available->index`, `rx_used->index` and `rx_used_index`. -/
structure Queue where
  availableRing : Nat → UInt16
  availableIndex : UInt16
  usedRing : Nat → UInt32 × UInt32
  usedIndex : UInt16
  rxUsedIndex : UInt16
  taken : UInt16
  held : List UInt16

def recycleReceiveBuffer (size : Nat) (s : Queue) (descriptor : UInt16) : Queue :=
  { s with
    availableRing := Function.update s.availableRing (s.availableIndex.toNat % size) descriptor
    availableIndex := s.availableIndex + 1 }

def buffers : List UInt16 := [0, 1, 2, 3, 4, 5, 6, 7]

def postReceiveBuffers (size : Nat) (s : Queue) : Queue := buffers.foldl (recycleReceiveBuffer size) s

/-- `bind_queue`, with a counter of the device, and the buffers that are posted first. -/
def boundQueue (size : Nat) (used : UInt16) : Queue :=
  postReceiveBuffers size ⟨fun _ => 0, 0, fun _ => (0, 0), used, used, 0, []⟩

/-- A round of the loop in `poll_receive`. -/
def pollRound (size : Nat) (s : Queue) : Queue :=
  let element := s.usedRing (s.rxUsedIndex.toNat % size)
  let descriptor := element.1.toUInt16
  let s :=
    if descriptor < VIRTIO_NET_RX_BUFFER_COUNT ∧ element.2 > VIRTIO_NET_HEADER_SIZE then
      recycleReceiveBuffer size s descriptor
    else s
  { s with rxUsedIndex := s.rxUsedIndex + 1 }

inductive QueueEvent
  | take
  | complete (descriptor : UInt16) (length : UInt32)
  | poll

def queueStep (size : Nat) (s : Queue) : QueueEvent → Option Queue
  | .take =>
    if s.taken ≠ s.availableIndex then
      some { s with taken := s.taken + 1, held := s.availableRing (s.taken.toNat % size) :: s.held }
    else none
  | .complete descriptor length =>
    if descriptor ∈ s.held then
      some
        { s with
          usedRing := Function.update s.usedRing (s.usedIndex.toNat % size) (descriptor.toUInt32, length)
          usedIndex := s.usedIndex + 1
          held := s.held.erase descriptor }
    else none
  | .poll => if s.usedIndex ≠ s.rxUsedIndex then some (pollRound size s) else none

/-! ### Buffers -/

/-- The buffers that are posted and not yet taken. -/
def Queue.available (size : Nat) (s : Queue) :
    List UInt16 := pending s.availableRing size s.taken s.availableIndex

/-- The buffers that are returned and not yet polled. -/
def Queue.returned (size : Nat) (s : Queue) : List UInt16 :=
  (pending s.usedRing size s.rxUsedIndex s.usedIndex).map fun element => element.1.toUInt16

/-- Each buffer is posted, held by the device or returned, and is so once. Where the driver has polled all that were
returned, they are posted again. -/
def Conserved (size : Nat) (s : Queue) :
    Prop := (s.available size ++ s.held ++ s.returned size).Perm buffers

/-- What is polled next has more than a header. -/
def Long (size : Nat) (s : Queue) : QueueEvent → Prop
  | .poll => s.usedIndex ≠ s.rxUsedIndex → VIRTIO_NET_HEADER_SIZE < (s.usedRing (s.rxUsedIndex.toNat % size)).2
  | _ => True

section Steps

variable {size : Nat} {s s' : Queue} {event : QueueEvent}

theorem Conserved.total (conserved : Conserved size s) :
    (s.available size).length + s.held.length + (s.returned size).length = 8 := by
  have total := conserved.length_eq
  rwa [List.length_append, List.length_append] at total

theorem recycle_available (divides : size ∣ 2 ^ 16) (small : size < 2 ^ 16) (descriptor : UInt16)
    (room : (s.available size).length < size) :
    (recycleReceiveBuffer size s descriptor).available size = s.available size ++ [descriptor] :=
  pending_push divides small descriptor room

/-- A step that is taken keeps the buffers, unless one is polled with no more than a header. -/
theorem step_conserved_iff (enough : 8 ≤ size) (divides : size ∣ 2 ^ 16) (small : size < 2 ^ 16)
    (conserved : Conserved size s) (step : queueStep size s event = some s') :
    Conserved size s' ↔ Long size s event := by
  have total := conserved.total
  cases event with
  | take =>
    dsimp only [queueStep] at step
    obtain ⟨more, same⟩ := Option.ite_none_right_eq_some.mp step
    cases same
    have first : s.available size = s.availableRing (s.taken.toNat % size) ::
        pending s.availableRing size (s.taken + 1) s.availableIndex := pending_pop more
    refine iff_of_true ?_ trivial
    unfold Conserved at conserved
    rw [first] at conserved
    refine List.Perm.trans ?_ conserved
    -- The buffer moves from the ring to the device.
    exact List.Perm.append_right _ List.perm_middle
  | complete descriptor length =>
    dsimp only [queueStep] at step
    obtain ⟨member, same⟩ := Option.ite_none_right_eq_some.mp step
    cases same
    refine iff_of_true ?_ trivial
    have some := List.length_pos_of_mem member
    have room : (pending s.usedRing size s.rxUsedIndex s.usedIndex).length < size := by
      rw [Queue.returned, List.length_map] at total
      omega
    unfold Conserved Queue.returned at conserved ⊢
    dsimp only
    rw [pending_push divides small _ room, List.map_append, List.map_singleton, UInt16.toUInt16_toUInt32]
    refine List.Perm.trans ?_ conserved
    rw [List.append_assoc, List.append_assoc, ← List.append_assoc (s.held.erase descriptor)]
    refine List.Perm.append_left _ ((List.perm_append_singleton _ _).trans ?_)
    exact List.Perm.append_right _ (List.perm_cons_erase member).symm
  | poll =>
    dsimp only [queueStep] at step
    obtain ⟨more, same⟩ := Option.ite_none_right_eq_some.mp step
    cases same
    have first : s.returned size = (s.usedRing (s.rxUsedIndex.toNat % size)).1.toUInt16 ::
        (pending s.usedRing size (s.rxUsedIndex + 1) s.usedIndex).map fun element => element.1.toUInt16 := by
      rw [Queue.returned, pending_pop more.symm, List.map_cons]
    have below : ∀ descriptor ∈ buffers, descriptor < VIRTIO_NET_RX_BUFFER_COUNT := fun _ member =>
      of_decide_eq_true (List.all_eq_true.mp (by decide : buffers.all (· < VIRTIO_NET_RX_BUFFER_COUNT)) _ member)
    have here : (s.usedRing (s.rxUsedIndex.toNat % size)).1.toUInt16 ∈ s.returned size := by
      rw [first]
      exact List.mem_cons_self ..
    have posted := below _ (conserved.mem_iff.mp (List.mem_append_right _ here))
    have polls : Long size s .poll ↔ VIRTIO_NET_HEADER_SIZE < (s.usedRing (s.rxUsedIndex.toNat % size)).2 :=
      forall_prop_of_true more
    rw [polls, pollRound]
    by_cases long : (s.usedRing (s.rxUsedIndex.toNat % size)).2 > VIRTIO_NET_HEADER_SIZE
    · rw [if_pos ⟨posted, long⟩]
      refine iff_of_true ?_ long
      have room : (s.available size).length < size := by
        rw [first, List.length_cons] at total
        omega
      unfold Conserved at conserved
      rw [first] at conserved
      change ((recycleReceiveBuffer size s (s.usedRing (s.rxUsedIndex.toNat % size)).1.toUInt16).available size ++
        s.held ++ (pending s.usedRing size (s.rxUsedIndex + 1) s.usedIndex).map fun element => element.1.toUInt16).Perm
          buffers
      rw [recycle_available divides small _ room]
      refine List.Perm.trans ?_ conserved
      rw [List.append_assoc, List.append_assoc, List.append_assoc, List.singleton_append]
      exact List.Perm.append_left _ List.perm_middle.symm
    · rw [if_neg fun both => long both.2]
      refine iff_of_false (fun kept => ?_) long
      have fewer := kept.total
      rw [first, List.length_cons] at total
      change (s.available size).length + s.held.length + ((pending s.usedRing size (s.rxUsedIndex + 1) s.usedIndex).map
        fun element => element.1.toUInt16).length = 8 at fewer
      rw [List.length_map] at fewer total
      omega

theorem post_available (divides : size ∣ 2 ^ 16) (small : size < 2 ^ 16)
    (descriptors : List UInt16) (s : Queue)
    (room : (s.available size).length + descriptors.length ≤ size) :
    (descriptors.foldl (recycleReceiveBuffer size) s).available size = s.available size ++ descriptors ∧
      (descriptors.foldl (recycleReceiveBuffer size) s).held = s.held ∧
        (descriptors.foldl (recycleReceiveBuffer size) s).returned size = s.returned size := by
  induction descriptors generalizing s with
  | nil => exact ⟨(List.append_nil _).symm, rfl, rfl⟩
  | cons descriptor rest ih =>
    rw [List.length_cons] at room
    have here := @recycle_available size s divides small descriptor (by omega)
    obtain ⟨available, held, returned⟩ := ih (recycleReceiveBuffer size s descriptor) (by
      rw [here, List.length_append, List.length_singleton]
      omega)
    refine ⟨?_, held, returned⟩
    rw [List.foldl_cons, available, here, List.append_assoc]
    rfl

theorem boundQueue_conserved (enough : 8 ≤ size) (divides : size ∣ 2 ^ 16) (small : size < 2 ^ 16)
    (used : UInt16) :
    Conserved size (boundQueue size used) := by
  have none : Queue.available size ⟨fun _ => 0, 0, fun _ => (0, 0), used, used, 0, []⟩ = [] := pending_self 0
  obtain ⟨available, held, returned⟩ := post_available divides small buffers
    ⟨fun _ => 0, 0, fun _ => (0, 0), used, used, 0, []⟩ (by rw [none]; exact enough)
  unfold Conserved boundQueue postReceiveBuffers
  rw [available, held, returned, none, Queue.returned, pending_self, List.map_nil]
  exact List.Perm.refl _

end Steps

/-- In a run each buffer is posted, held or returned, and is so once, just if no buffer is polled with no more than a
header. -/
theorem queue_conserved_iff {size : Nat} (enough : 8 ≤ size) (divides : size ∣ 2 ^ 16)
    (small : size < 2 ^ 16)
    (used : UInt16) (events : List QueueEvent) :
    Along (fun s event => ∀ s', queueStep size s event = some s' → Conserved size s') (queueStep size) events
        (boundQueue size used) ↔
      Along (Long size) (queueStep size) events (boundQueue size used) := by
  have runs (events : List QueueEvent) (s : Queue) (conserved : Conserved size s) :
      Along (fun s event => ∀ s', queueStep size s event = some s' → Conserved size s') (queueStep size) events s ↔
        Along (Long size) (queueStep size) events s := by
    induction events generalizing s with
    | nil => exact Iff.rfl
    | cons event rest ih =>
      unfold Along
      cases stepped : queueStep size s event with
      | none =>
        -- Nothing is polled where the step is not taken.
        refine iff_of_true ⟨nofun, nofun⟩ ⟨?_, nofun⟩
        cases event with
        | poll => exact fun more => absurd (if_pos more) (by dsimp only [queueStep] at stepped; rw [stepped]; exact nofun)
        | take => trivial
        | complete descriptor length => trivial
      | some s' =>
        have here := step_conserved_iff enough divides small conserved stepped
        constructor
        · rintro ⟨kept, later⟩
          have conserved' := kept s' rfl
          exact ⟨here.mp conserved', fun t same => by cases same; exact (ih s' conserved').mp (later s' rfl)⟩
        · rintro ⟨long, later⟩
          have conserved' := here.mpr long
          exact ⟨fun t same => by cases same; exact conserved',
            fun t same => by cases same; exact (ih s' conserved').mpr (later s' rfl)⟩
  exact runs events _ (boundQueue_conserved enough divides small used)

theorem queue_conserved_iff_round :
    Along (fun s event => ∀ s', queueStep 256 s event = some s' → Conserved 256 s') (queueStep 256)
      [.take, .complete 0 64, .poll] (boundQueue 256 0xFFFF) :=
  (queue_conserved_iff (by decide) (by decide) (by decide) 0xFFFF [.take, .complete 0 64, .poll]).mpr
    ⟨trivial, fun _ taken => by
      cases taken
      exact ⟨trivial, fun _ completed => by
        cases completed
        exact ⟨fun _ => by decide, fun _ _ => trivial⟩⟩⟩

/-- A buffer that is returned with a header alone is lost. -/
theorem queue_loses : ¬∀ (size : Nat) (used : UInt16) (events : List QueueEvent), 8 ≤ size →
    size ∣ 2 ^ 16 → size < 2 ^ 16 →
    Along (fun s event => ∀ s', queueStep size s event = some s' → Conserved size s') (queueStep size) events
      (boundQueue size used) := by
  intro all
  have kept := all 256 0 [.take, .complete 0 10, .poll] (by decide) (by decide) (by decide)
  have lost := ((kept.2 _ rfl).2 _ rfl).1 _ rfl
  exact absurd lost.total (by decide)

end AsasOs.Net
