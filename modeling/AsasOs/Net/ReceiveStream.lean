import AsasOs.Net.Driver
import Mathlib.Data.List.Infix
import Mathlib.Logic.Relation

/-!
# The received stream

The bytes of a segment go to the beginning of the output, whatever the segment's place in the stream. So the output
is always a piece of the stream, and it is its beginning as long as every segment begins where the stream does.

## Main results

- `step_holds`: what a step preserves.
- `stream_kept`: what is in the output, in every run of segments of the peer.
- `stream_lost`: two segments in order are enough.
-/
namespace AsasOs.Net

open Bytes Checked

/-- What happens to the connections: a frame arrives, or the owner of a connection sets its output. -/
inductive Event where
  | frame (frame : Memory) (length : Nat)
  | setOutput (index : Nat) (output : Option Memory) (outputCapacity : Nat)

inductive Step (s : Driver) : Event → Driver → Prop
  | frame {steps length : Nat} {transmitted : Bool} {frame : Memory} {s' : Driver}
      (handled : handleIpv4Frame steps transmitted s frame length = .ok s') : Step s (.frame frame length) s'
  | setOutput (index : Nat) (output : Option Memory) (outputCapacity : Nat) :
      Step s (.setOutput index output outputCapacity)
        { s with tcpConnections := s.tcpConnections.modify index (tcpConnectionSetOutput · output outputCapacity) }

def receivedSegment (frame : Memory) (length : Nat) : Option Segment :=
  let ipv4 := rest frame 14
  let headerLength := (ipv4 0).toNat % 2 ^ 4 * 4
  if 34 ≤ length ∧ (ipv4 0).toNat / 2 ^ 4 = 4 ∧ 20 ≤ headerLength ∧ 14 + headerLength + 8 ≤ length ∧
      ipv4 9 = IPV4_PROTOCOL_TCP then tcpSegment frame length headerLength
  else none

/-- A segment has data for a connection. -/
def Delivers (s : Driver) (index : Nat) (segment : Segment) : Prop :=
  tcpConnectionFind s.tcpConnections segment.sourcePort segment.destinationPort = some index ∧
    ¬segment.flags &&& 0x12 = 0x12 ∧ segment.payload.length ≠ 0

/-- A segment arrives that has data for a connection. -/
def Event.Carries (s : Driver) (index : Nat) (segment : Segment) : Event → Prop
  | .frame bytes length => receivedSegment bytes length = some segment ∧ Delivers s index segment
  | .setOutput _ _ _ => False

/-- The data of a segment are those of the stream at a place, which its sequence number says: the stream begins behind
the first number of the peer. -/
structure CarriesAt (first : Nat) (stream : List UInt8) (segment : Segment) (place : Nat) : Prop where
  sequence : segment.sequence = (first + 1 + place) % 2 ^ 32
  payload : segment.payload <+: stream.drop place

/-- All data that arrive for a connection are those of the stream at some place. -/
def FromPeer (index first : Nat) (stream : List UInt8) (s : Driver) (event : Event) : Prop :=
  ∀ segment, event.Carries s index segment → ∃ place, CarriesAt first stream segment place

/-- All data that arrive for a connection are those at the beginning of the stream. -/
def FromBeginning (index first : Nat) (stream : List UInt8) (s : Driver) (event : Event) : Prop :=
  ∀ segment, event.Carries s index segment → CarriesAt first stream segment 0

/-- The bytes that are in the output of a connection, and those that are kept for it, have a property. -/
structure Connection.Holds (P : List UInt8 → Prop) (connection : Connection) : Prop where
  output : ∀ buffer, connection.output = some buffer → P (window buffer 0 connection.outputSize)
  deferred : P (window connection.deferredPayload 0 connection.deferredPayloadSize)

def Holds (P : List UInt8 → Prop) (index : Nat) (s : Driver) : Prop :=
  ∀ connection, s.tcpConnections[index]? = some connection → connection.Holds P

/-- The bytes in the output of a connection have a property. -/
def Shows (P : List UInt8 → Prop) (index : Nat) (s : Driver) : Prop :=
  ∀ connection, s.tcpConnections[index]? = some connection →
    ∀ buffer, connection.output = some buffer → P (window buffer 0 connection.outputSize)

/-- The output is the beginning of the stream. -/
def Beginning (index : Nat) (stream : List UInt8) (s : Driver) : Prop := Shows (· <+: stream) index s

/-- A property that stays with the bytes when some at the end are left out. -/
structure Cuttable (P : List UInt8 → Prop) : Prop where
  empty : P []
  cut : ∀ bytes count, P bytes → P (bytes.take count)

theorem cuttable_beginning (stream : List UInt8) : Cuttable (· <+: stream) where
  empty := List.nil_prefix
  cut _ count part := (List.take_prefix count _).trans part

theorem cuttable_piece (stream : List UInt8) : Cuttable fun bytes => ∃ place, bytes <+: stream.drop place where
  empty := ⟨0, List.nil_prefix⟩
  cut := by
    rintro bytes count ⟨place, part⟩
    exact ⟨place, (List.take_prefix count _).trans part⟩

section Connections

variable {connection : Connection} {payload : List UInt8} {buffer : Memory} {output : Option Memory}
  {outputCapacity : Nat} {P : List UInt8 → Prop}

theorem window_min (content : Memory) (size count : Nat) :
    window content 0 (min size count) = (window content 0 size).take count := by
  simp only [window, ← List.map_take, List.take_range, Nat.min_comm]

theorem take_min (payload : List UInt8) (count : Nat) :
    payload.take (min payload.length count) = payload.take count := by
  rw [Nat.min_comm, ← List.take_take, List.take_length]

/-- Setting an output puts the bytes there that were kept. -/
theorem setOutput_window :
    ∃ buffer', (tcpConnectionSetOutput connection (some buffer) outputCapacity).output =
      some buffer' ∧
    window buffer' 0 (tcpConnectionSetOutput connection (some buffer) outputCapacity).outputSize =
      (window connection.deferredPayload 0 connection.deferredPayloadSize).take outputCapacity := by
  unfold tcpConnectionSetOutput
  dsimp only
  split
  next copies =>
    have copied := window_patch buffer 0
      (window connection.deferredPayload 0 (min connection.deferredPayloadSize outputCapacity))
    rw [window_length] at copied
    exact ⟨_, rfl, copied.trans (window_min _ _ _)⟩
  next nothing =>
    refine ⟨buffer, rfl, ?_⟩
    rw [← window_min, show min connection.deferredPayloadSize outputCapacity = 0 by omega]
    rfl

theorem storePayload_window (held : connection.output = some buffer)
    (room : connection.outputCapacity ≠ 0) :
    ∃ buffer', (tcpConnectionStorePayload connection payload).output = some buffer' ∧
      window buffer' 0 (tcpConnectionStorePayload connection payload).outputSize =
        payload.take connection.outputCapacity := by
  unfold tcpConnectionStorePayload Connection.keep
  dsimp only
  rw [held]
  simp only [if_pos room]
  have copied := window_patch buffer 0 (payload.take (min payload.length connection.outputCapacity))
  rw [List.length_take, Nat.min_eq_left (Nat.min_le_left _ _)] at copied
  exact ⟨_, rfl, copied.trans (take_min payload _)⟩

/-- Without room in an output the bytes are kept. -/
theorem keep_deferred (room : connection.output = none ∨ connection.outputCapacity = 0) :
    connection.keep payload = { connection with
      deferredPayload := patch connection.deferredPayload 0 (payload.take TCP_DEFERRED_PAYLOAD_SIZE)
      deferredPayloadSize := min payload.length TCP_DEFERRED_PAYLOAD_SIZE } := by
  unfold Connection.keep
  dsimp only
  rw [take_min payload TCP_DEFERRED_PAYLOAD_SIZE]
  cases held : connection.output with
  | none => rfl
  | some buffer =>
    have none_ : connection.outputCapacity = 0 := room.resolve_left (by rw [held]; exact Option.some_ne_none _)
    dsimp only
    rw [if_neg (not_not.mpr none_)]

theorem storePayload_deferred (room : connection.output = none ∨ connection.outputCapacity = 0) :
    (tcpConnectionStorePayload connection payload).output = connection.output ∧
      (tcpConnectionStorePayload connection payload).outputSize = connection.outputSize ∧
      window (tcpConnectionStorePayload connection payload).deferredPayload 0
          (tcpConnectionStorePayload connection payload).deferredPayloadSize =
        payload.take TCP_DEFERRED_PAYLOAD_SIZE := by
  have copied := window_patch connection.deferredPayload 0
    (payload.take (min payload.length TCP_DEFERRED_PAYLOAD_SIZE))
  rw [List.length_take, Nat.min_eq_left (Nat.min_le_left _ _), take_min] at copied
  rw [tcpConnectionStorePayload, keep_deferred room]
  exact ⟨rfl, rfl, copied⟩

theorem setOutput_holds (cuttable : Cuttable P) (before : connection.Holds P) :
    (tcpConnectionSetOutput connection output outputCapacity).Holds P := by
  have kept : window (tcpConnectionSetOutput connection output outputCapacity).deferredPayload 0
      (tcpConnectionSetOutput connection output outputCapacity).deferredPayloadSize =
        window connection.deferredPayload 0 connection.deferredPayloadSize := by
    unfold tcpConnectionSetOutput
    split
    · dsimp only
      split
      · rfl
      · rfl
    · rfl
  refine ⟨fun buffer here => ?_, kept ▸ before.deferred⟩
  cases output with
  | none => cases here
  | some given =>
    obtain ⟨buffer', same, bytes⟩ := @setOutput_window connection given outputCapacity
    rw [same] at here
    cases here
    rw [bytes]
    exact cuttable.cut _ _ before.deferred

theorem storePayload_holds (cuttable : Cuttable P) (before : connection.Holds P) (data : P payload) :
    (tcpConnectionStorePayload connection payload).Holds P := by
  by_cases room : connection.output = none ∨ connection.outputCapacity = 0
  · obtain ⟨output, size, bytes⟩ := @storePayload_deferred connection payload room
    refine ⟨fun buffer here => ?_, bytes ▸ cuttable.cut _ _ data⟩
    rw [output] at here
    rw [size]
    exact before.output buffer here
  · obtain ⟨given, room⟩ := not_or.mp room
    obtain ⟨buffer, held⟩ := Option.ne_none_iff_exists'.mp given
    obtain ⟨buffer', same, bytes⟩ := @storePayload_window connection payload buffer held room
    refine ⟨fun other here => ?_, ?_⟩
    · rw [same] at here
      cases here
      rw [bytes]
      exact cuttable.cut _ _ data
    · unfold tcpConnectionStorePayload Connection.keep
      rw [held]
      simp only [if_pos room]
      exact before.deferred

end Connections

section Frames

variable {index first : Nat} {stream : List UInt8} {s s' : Driver} {segment : Segment} {transmitted : Bool}
  {P : List UInt8 → Prop}

theorem sendEthernetFrame_connections (built : List UInt8 × Nat) :
    (sendEthernetFrame transmitted s built).2.tcpConnections = s.tcpConnections := by
  unfold sendEthernetFrame
  split
  · rfl
  · rfl

theorem handleHttpServerTcp_connections :
    (handleHttpServerTcp transmitted s segment).tcpConnections = s.tcpConnections := by
  unfold handleHttpServerTcp
  split
  next => rfl
  next =>
    dsimp only
    split
    next => exact sendEthernetFrame_connections _
    next =>
      split
      next =>
        split
        next => exact sendEthernetFrame_connections _
        next => exact sendEthernetFrame_connections _
      next => rfl

theorem packet_connections {run : Run VirtioNet} (handled : (run >>= fun net => pure { s with net }) = .ok s') :
    s'.tcpConnections = s.tcpConnections := by
  cases run with
  | error stop => cases handled
  | ok net =>
    cases handled
    rfl

theorem handleIpv4Frame_connections {steps length : Nat} {frame : Memory}
    (handled : handleIpv4Frame steps transmitted s frame length = .ok s') :
    s'.tcpConnections = match receivedSegment frame length with
      | some segment => (handleTcp transmitted s segment).tcpConnections
      | none => s.tcpConnections := by
  unfold handleIpv4Frame at handled
  unfold receivedSegment
  dsimp only at handled ⊢
  split at handled
  next short =>
    cases handled
    rw [if_neg (by omega)]
  next =>
    split at handled
    next other =>
      cases handled
      rw [if_neg]
      rintro ⟨-, four, -, -, tcp⟩
      rcases other with version | ⟨-, -, protocol⟩
      · exact version four
      · exact protocol tcp
    next version =>
      split at handled
      next short =>
        cases handled
        rw [if_neg (by omega)]
      next long =>
        split at handled
        next udp =>
          rw [if_neg (fun both => absurd (udp.symm.trans both.2.2.2.2) (by decide))]
          unfold handleUdp at handled
          dsimp only at handled
          split at handled
          next => exact packet_connections handled
          next =>
            split at handled
            next => exact packet_connections handled
            next =>
              cases handled
              rfl
        next =>
          split at handled
          next tcp =>
            rw [if_pos ⟨by omega, by omega, by omega, by omega, tcp⟩]
            cases found : tcpSegment frame length ((rest frame 14 0).toNat % 2 ^ 4 * 4) with
            | some segment =>
              simp only [found] at handled ⊢
              cases handled
              rfl
            | none =>
              simp only [found] at handled ⊢
              cases handled
              rfl
          next other =>
            cases handled
            rw [if_neg (fun both => other both.2.2.2.2)]
            unfold handleIcmp
            dsimp only
            split
            next => rfl
            next => rfl

/-- Data that are delivered go to the connection, and nothing else is changed. -/
theorem handleTcp_delivered (delivers : Delivers s index segment) :
    (handleTcp transmitted s segment).tcpConnections =
      s.tcpConnections.modify index (tcpConnectionStorePayload · segment.payload) := by
  obtain ⟨found, data, some⟩ := delivers
  have same := @handleHttpServerTcp_connections s segment transmitted
  unfold handleTcp
  dsimp only
  rw [same, found]
  dsimp only
  rw [if_neg data, if_pos some]

/-- What has a property when a connection is changed: that connection, if the property is kept. -/
theorem modify_holds {other : Nat} {f : Connection → Connection} (before : Holds P index s)
    (changed : s'.tcpConnections = s.tcpConnections.modify other f)
    (kept : ∀ connection : Connection, other = index → connection.Holds P → (f connection).Holds P) :
    Holds P index s' := by
  intro connection here
  rw [changed, List.getElem?_modify, Option.map_eq_map, Option.map_eq_some_iff] at here
  obtain ⟨old, there, rfl⟩ := here
  split
  next mine => exact kept old mine (before old there)
  next => exact before old there

theorem handleTcp_holds (cuttable : Cuttable P) (before : Holds P index s)
    (data : Delivers s index segment → P segment.payload) :
    Holds P index (handleTcp transmitted s segment) := by
  have same := @handleHttpServerTcp_connections s segment transmitted
  cases found : tcpConnectionFind s.tcpConnections segment.sourcePort segment.destinationPort with
  | none =>
    unfold handleTcp
    dsimp only
    rw [same, found]
    intro connection here
    rw [same] at here
    exact before connection here
  | some other =>
    by_cases acknowledges : segment.flags &&& 0x12 = 0x12
    · unfold handleTcp
      dsimp only
      rw [same, found]
      dsimp only
      rw [if_pos acknowledges]
      exact modify_holds before rfl fun _ _ held => ⟨held.output, held.deferred⟩
    · by_cases some : segment.payload.length ≠ 0
      · refine modify_holds before (handleTcp_delivered ⟨found, acknowledges, some⟩) ?_
        rintro connection rfl held
        exact storePayload_holds cuttable held (data ⟨found, acknowledges, some⟩)
      · unfold handleTcp
        dsimp only
        rw [same, found]
        dsimp only
        rw [if_neg acknowledges, if_neg some]
        intro connection here
        rw [same] at here
        exact before connection here

/-- A step keeps a property of the bytes of a connection, if the data that arrive for it have the property. -/
theorem step_holds {event : Event} (cuttable : Cuttable P) (before : Holds P index s)
    (step : Step s event s')
    (data : ∀ segment, event.Carries s index segment → P segment.payload) : Holds P index s' := by
  cases step with
  | frame handled =>
    rename_i steps length transmitted frame
    have connections := handleIpv4Frame_connections handled
    cases received : receivedSegment frame length with
    | none =>
      rw [received] at connections
      intro connection here
      rw [connections] at here
      exact before connection here
    | some segment =>
      rw [received] at connections
      have held := @handleTcp_holds index _ segment transmitted P cuttable before
        fun delivers => data segment ⟨received, delivers⟩
      intro connection here
      rw [connections] at here
      exact held connection here
  | setOutput other output outputCapacity =>
    exact modify_holds before rfl fun _ _ held => setOutput_holds cuttable held

/-- The steps of the peer, and of the owner of the connection. -/
def Peer (data : Driver → Event → Prop) (s t : Driver) : Prop := ∃ event, data s event ∧ Step s event t

theorem run_holds {data : Driver → Event → Prop} (cuttable : Cuttable P) (before : Holds P index s)
    (property : ∀ s event segment, data s event → event.Carries s index segment → P segment.payload)
    (run : Relation.ReflTransGen (Peer data) s s') : Holds P index s' := by
  induction run with
  | refl => exact before
  | tail _ last ih =>
    obtain ⟨event, carried, step⟩ := last
    exact step_holds cuttable ih step fun segment carries => property _ event segment carried carries

theorem allocated_holds {port : Nat} (cuttable : Cuttable P)
    (allocated : tcpConnectionAllocate s port = some (index, s')) : Holds P index s' := by
  obtain ⟨slot, -, same⟩ := Option.map_eq_some_iff.mp allocated
  obtain ⟨rfl, rfl⟩ := Prod.mk.inj same
  intro connection here
  rw [List.getElem?_modify, Option.map_eq_map, Option.map_eq_some_iff] at here
  obtain ⟨old, -, rfl⟩ := here
  rw [if_pos rfl]
  refine ⟨fun buffer none_ => ?_, cuttable.empty⟩
  cases none_

theorem handleIpv4Frame_segment {frame : Memory} {length : Nat}
    (received : receivedSegment frame length = some segment)
    (steps : Nat) (transmitted : Bool) (s : Driver) :
    handleIpv4Frame steps transmitted s frame length = .ok (handleTcp transmitted s segment) := by
  unfold receivedSegment at received
  dsimp only at received
  split at received
  next passes =>
    obtain ⟨long, four, header, room, tcp⟩ := passes
    unfold handleIpv4Frame
    dsimp only
    rw [if_neg (by omega), four, tcp, if_neg (by decide), if_neg (by omega), if_neg (by decide), if_pos rfl, received]
    rfl
  next => cases received

/-- What is in the output behind data that arrive while there is an output with room. -/
theorem delivered_shows {event : Event} {connection : Connection}
    (carries : event.Carries s index segment)
    (step : Step s event s') (here : s.tcpConnections[index]? = some connection)
    (given : connection.output.isSome) (room : connection.outputCapacity ≠ 0) :
    Shows P index s' ↔ P (segment.payload.take connection.outputCapacity) := by
  cases step with
  | setOutput => cases carries
  | frame handled =>
    obtain ⟨received, delivers⟩ := carries
    have connections := handleIpv4Frame_connections handled
    rw [received] at connections
    dsimp only at connections
    rw [handleTcp_delivered delivers] at connections
    obtain ⟨buffer, held⟩ := Option.isSome_iff_exists.mp given
    obtain ⟨buffer', same, bytes⟩ := @storePayload_window connection segment.payload buffer held room
    unfold Shows
    simp only [connections, List.getElem?_modify, here, if_true, Option.map_eq_map, Option.map_some,
      Option.some.injEq, forall_eq', same, bytes]

/-- What is in an output that is set behind data that arrived without one. -/
theorem deferred_shows {event : Event} {connection : Connection} {t : Driver} {buffer : Memory}
    {outputCapacity : Nat} (carries : event.Carries s index segment) (step : Step s event s')
    (here : s.tcpConnections[index]? = some connection) (none_ : connection.output = none)
    (sets : Step s' (.setOutput index (some buffer) outputCapacity) t) :
    Shows P index t ↔ P ((segment.payload.take TCP_DEFERRED_PAYLOAD_SIZE).take outputCapacity) := by
  cases step with
  | setOutput => cases carries
  | frame handled =>
    obtain ⟨received, delivers⟩ := carries
    have connections := handleIpv4Frame_connections handled
    rw [received] at connections
    dsimp only at connections
    rw [handleTcp_delivered delivers] at connections
    cases sets
    obtain ⟨-, -, kept⟩ := @storePayload_deferred connection segment.payload (.inl none_)
    obtain ⟨buffer', same, bytes⟩ := @setOutput_window (tcpConnectionStorePayload connection segment.payload) buffer
      outputCapacity
    unfold Shows
    simp only [connections, List.getElem?_modify, here, if_true, Option.map_eq_map, Option.map_some,
      Option.some.injEq, forall_eq', same, bytes, kept]

/-- From a new connection on, and in every run of segments of the peer: the output is a piece of the stream. It is the
beginning of the stream if all data come from there. Data that arrive while there is an output with room make it the
beginning of the stream if and only if what has room is that beginning, and so do data that arrive before, when the
output is set. -/
theorem stream_kept {start : Driver} {port : Nat}
    (allocated : tcpConnectionAllocate s port = some (index, start)) :
    (∀ t, Relation.ReflTransGen (Peer (FromPeer index first stream)) start t →
      Shows (fun bytes => ∃ place, bytes <+: stream.drop place) index t) ∧
    (∀ t, Relation.ReflTransGen (Peer (FromBeginning index first stream)) start t → Beginning index stream t) ∧
    ∀ t event u segment connection, Relation.ReflTransGen (Peer (FromPeer index first stream)) start t →
      event.Carries t index segment → Step t event u → t.tcpConnections[index]? = some connection →
      (connection.output.isSome → connection.outputCapacity ≠ 0 →
        (Beginning index stream u ↔ segment.payload.take connection.outputCapacity <+: stream)) ∧
      (connection.output = none → ∀ buffer outputCapacity w,
        Step u (.setOutput index (some buffer) outputCapacity) w →
        (Beginning index stream w ↔
          (segment.payload.take TCP_DEFERRED_PAYLOAD_SIZE).take outputCapacity <+: stream)) := by
  refine ⟨fun t run => ?_, fun t run => ?_, fun t event u segment connection _ carries step here => ⟨?_, ?_⟩⟩
  · have held := run_holds (cuttable_piece stream) (allocated_holds (cuttable_piece stream) allocated) ?_ run
    · exact fun connection here => (held connection here).output
    · intro t event segment peer carries
      obtain ⟨place, carried⟩ := peer segment carries
      exact ⟨place, carried.payload⟩
  · have held := run_holds (cuttable_beginning stream) (allocated_holds (cuttable_beginning stream) allocated) ?_ run
    · exact fun connection here => (held connection here).output
    · intro t event segment peer carries
      exact (peer segment carries).payload
  · exact delivered_shows carries step here
  · intro none_ buffer outputCapacity w sets
    exact deferred_shows carries step here none_ sets

end Frames

/-! ### Two segments in order -/

/-- A segment of a peer at port 80 for the first connection. -/
def peerSegment (flags : UInt8) (sequence : Nat) (payload : List UInt8) : Segment where
  clientMac := ⟨(0, 0, 0), (0, 0, 0)⟩
  sourceIp := ⟨0, 0, 0, 0⟩
  targetIp := ⟨0, 0, 0, 0⟩
  sourcePort := TCP_HTTP_DESTINATION_PORT
  destinationPort := TCP_HTTP_SOURCE_PORT
  sequence
  flags
  payload

/-- The frame of such a segment, with at most one byte of data. -/
def peerFrame (flags sequence : UInt8) (payload : List UInt8) : Memory
  | 12 => 0x08 | 14 => 0x45 | 17 => 40 + UInt8.ofNat payload.length | 23 => 6
  | 35 => 80 | 36 => 0xC0 | 37 => 1 | 41 => sequence | 46 => 0x50 | 47 => flags | 54 => byteAt payload 0
  | _ => 0

def emptyConnection : Connection where
  active := false
  sourcePort := 0
  destinationPort := 0
  peerSequence := 0
  synAckReceived := false
  responseReceived := false
  output := none
  outputCapacity := 0
  outputSize := 0
  deferredPayload := fun _ => 0
  deferredPayloadSize := 0

def quietDriver : Driver where
  net := quietNet
  tcpConnections := List.replicate TCP_CONNECTION_CAPACITY emptyConnection
  nextTcpSourcePort := TCP_HTTP_SOURCE_PORT
  httpServerActive := false
  httpServerRequestReceived := false
  httpServerResponseSent := false
  pendingIpv4Target := gatewayIp
  pendingIcmpReplyReceived := false
  sent := []

def opened : Driver :=
  { quietDriver with
    tcpConnections := quietDriver.tcpConnections.modify 0 (·.renewed TCP_HTTP_SOURCE_PORT TCP_HTTP_DESTINATION_PORT)
    nextTcpSourcePort := TCP_HTTP_SOURCE_PORT + 1 }

/-- The connection has an output of 16 bytes. -/
def configured : Driver :=
  { opened with tcpConnections := opened.tcpConnections.modify 0 (tcpConnectionSetOutput · (some fun _ => 0) 16) }

def connected : Driver := handleTcp false configured (peerSegment 0x12 0 [])

theorem frame_peer {data : Driver → Event → Prop} {s : Driver} {segment : Segment} {frame : Memory}
    {length : Nat}
    (received : receivedSegment frame length = some segment) (carried : data s (.frame frame length)) :
    Peer data s (handleTcp false s segment) :=
  ⟨.frame frame length, carried, .frame (handleIpv4Frame_segment received 0 false s)⟩

theorem carries_eq {s : Driver} {index : Nat} {segment other : Segment} {frame : Memory} {length : Nat}
    (received : receivedSegment frame length = some segment)
    (carries : (Event.frame frame length).Carries s index other) : other = segment :=
  (Option.some.inj (received.symm.trans carries.1)).symm

theorem answer_received : receivedSegment (peerFrame 0x12 0 []) 60 =
    some (peerSegment 0x12 0 []) := by decide +kernel

theorem first_received : receivedSegment (peerFrame 0x18 1 [0x61]) 60 =
    some (peerSegment 0x18 1 [0x61]) := by
  decide +kernel

theorem second_received : receivedSegment (peerFrame 0x18 2 [0x62]) 60 =
    some (peerSegment 0x18 2 [0x62]) := by
  decide +kernel

theorem first_carriesAt : CarriesAt 0 [0x61, 0x62] (peerSegment 0x18 1 [0x61]) 0 := ⟨rfl, by decide⟩

theorem second_carriesAt : CarriesAt 0 [0x61, 0x62] (peerSegment 0x18 2 [0x62]) 1 := ⟨rfl, by decide⟩

/-- The output is set, and the peer answers and sends its first byte. -/
theorem opened_run {data : Driver → Event → Prop}
    (carried : ∀ s event, (∀ segment, event.Carries s 0 segment → CarriesAt 0 [0x61, 0x62] segment 0) → data s event) :
    Relation.ReflTransGen (Peer data) opened (handleTcp false connected (peerSegment 0x18 1 [0x61])) := by
  have sets : Peer data opened configured := by
    refine ⟨.setOutput 0 (some fun _ => 0) 16, carried _ _ ?_, .setOutput _ _ _⟩
    rintro _ ⟨⟩
  have answers : Peer data configured connected := by
    refine frame_peer answer_received (carried _ _ fun segment carries => ?_)
    obtain rfl := carries_eq answer_received carries
    exact absurd rfl carries.2.2.1
  have sends : Peer data connected (handleTcp false connected (peerSegment 0x18 1 [0x61])) := by
    refine frame_peer first_received (carried _ _ fun segment carries => ?_)
    obtain rfl := carries_eq first_received carries
    exact first_carriesAt
  exact ((Relation.ReflTransGen.single sets).tail answers).tail sends

/-- Behind the first byte of `ab` the output is the beginning of the stream. -/
theorem stream_kept_opened :
    Beginning 0 [0x61, 0x62] (handleTcp false connected (peerSegment 0x18 1 [0x61])) := by
  have allocated : tcpConnectionAllocate quietDriver TCP_HTTP_DESTINATION_PORT = some (0, opened) := rfl
  exact (@stream_kept _ 0 [0x61, 0x62] _ _ _ allocated).2.1 _ (opened_run fun _ _ carried => carried)

/-- The bytes `ab` in two segments leave `b` in the output. -/
theorem stream_lost : ¬∀ (s start : Driver) (index port first : Nat) (stream : List UInt8),
    tcpConnectionAllocate s port = some (index, start) →
    ∀ t, Relation.ReflTransGen (Peer (FromPeer index first stream)) start t →
    Beginning index stream t := by
  intro all
  have run : Relation.ReflTransGen (Peer (FromPeer 0 0 [0x61, 0x62])) opened
      (handleTcp false connected (peerSegment 0x18 1 [0x61])) :=
    opened_run fun _ _ carried segment carries => ⟨0, carried segment carries⟩
  have sends : Peer (FromPeer 0 0 [0x61, 0x62]) (handleTcp false connected (peerSegment 0x18 1 [0x61]))
      (handleTcp false (handleTcp false connected (peerSegment 0x18 1 [0x61])) (peerSegment 0x18 2 [0x62])) := by
    refine frame_peer second_received fun segment carries => ?_
    obtain rfl := carries_eq second_received carries
    exact ⟨1, second_carriesAt⟩
  have lost := all quietDriver opened 0 80 0 [0x61, 0x62] rfl _ (run.tail sends)
  have output : ((handleTcp false (handleTcp false connected (peerSegment 0x18 1 [0x61]))
      (peerSegment 0x18 2 [0x62])).tcpConnections[0]?).map (fun connection =>
        connection.output.map fun buffer => window buffer 0 connection.outputSize) = some (some [0x62]) := by
    decide +kernel
  obtain ⟨connection, here, output⟩ := Option.map_eq_some_iff.mp output
  obtain ⟨buffer, held, bytes⟩ := Option.map_eq_some_iff.mp output
  have beginning := lost connection here buffer held
  rw [bytes] at beginning
  exact absurd beginning (by decide)

end AsasOs.Net
