import AsasOs.Lib.Bytes
import AsasOs.Lib.Checked
import AsasOs.Lib.OnesComplement

/-!
# The network driver

What `virtio_net.c` makes of the frames that it receives, and the TCP segments that it builds. DHCP and
DNS packets are read with checked accesses and in loops that may run out of steps; their offsets have
32 bits.

## Model

- A frame is a memory and a length. The payload of a packet is the part of the memory behind the headers.
- The buffer that a connection has for its output is a memory of its own.
- Whether the device takes a frame is an input of each call that sends one.
-/
namespace AsasOs.Net

open Bytes Checked

def ETHERTYPE_IPV4 : Nat := 0x0800
def IPV4_PROTOCOL_ICMP : UInt8 := 1
def IPV4_PROTOCOL_UDP : UInt8 := 17
def IPV4_PROTOCOL_TCP : UInt8 := 6
def VIRTIO_NET_FRAME_SIZE : Nat := 1514
def DHCP_CLIENT_PORT : Nat := 68
def DHCP_SERVER_PORT : Nat := 67
def DHCP_XID : Nat := 0x41534153
def DNS_CLIENT_PORT : Nat := 49152
def DNS_SERVER_PORT : Nat := 53
def DNS_QUERY_ID : Nat := 0x4153
def TCP_HTTP_SOURCE_PORT : Nat := 49153
def TCP_HTTP_DESTINATION_PORT : Nat := 80
def TCP_SERVER_SEQUENCE_NUMBER : Nat := 0x48545450
def TCP_CONNECTION_CAPACITY : Nat := 4
def TCP_DEFERRED_PAYLOAD_SIZE : Nat := 512

abbrev Memory := Nat → UInt8

/-- An IPv4 address. -/
structure Ip where
  first : UInt8
  second : UInt8
  third : UInt8
  fourth : UInt8
  deriving DecidableEq

def Ip.bytes (ip : Ip) : List UInt8 := [ip.first, ip.second, ip.third, ip.fourth]

def ipAt (memory : Memory) (offset : Nat) : Ip :=
  ⟨memory offset, memory (offset + 1), memory (offset + 2), memory (offset + 3)⟩

/-- An Ethernet address. -/
structure Mac where
  vendor : UInt8 × UInt8 × UInt8
  device : UInt8 × UInt8 × UInt8
  deriving DecidableEq

def Mac.bytes (mac : Mac) : List UInt8 :=
  [mac.vendor.1, mac.vendor.2.1, mac.vendor.2.2, mac.device.1, mac.device.2.1, mac.device.2.2]

def macAt (memory : Memory) (offset : Nat) : Mac where
  vendor := (memory offset, memory (offset + 1), memory (offset + 2))
  device := (memory (offset + 3), memory (offset + 4), memory (offset + 5))

/-- `ASAS_GATEWAY_IP0` to `ASAS_GATEWAY_IP3` -/
def gatewayIp : Ip := ⟨10, 0, 2, 2⟩

def fallbackMac : Mac := ⟨(0x52, 0x54, 0x00), (0x12, 0x34, 0x56)⟩

/-! ### Byte order -/

/-- `write_be16` -/
def be16 (value : Nat) : List UInt8 := [UInt8.ofNat (value / 2 ^ 8), UInt8.ofNat value]

/-- `write_be32` -/
def be32 (value : Nat) : List UInt8 :=
  [UInt8.ofNat (value / 2 ^ 24), UInt8.ofNat (value / 2 ^ 16), UInt8.ofNat (value / 2 ^ 8), UInt8.ofNat value]

def readBe16 (bytes : Memory) (offset : Nat) :
    Nat := (bytes offset).toNat * 2 ^ 8 + (bytes (offset + 1)).toNat

def readBe32 (bytes : Memory) (offset : Nat) : Nat :=
  (bytes offset).toNat * 2 ^ 24 + (bytes (offset + 1)).toNat * 2 ^ 16 + (bytes (offset + 2)).toNat * 2 ^ 8 +
    (bytes (offset + 3)).toNat

/-! ### Checksums -/

/-- The loop over the words, and the byte that is left. -/
def sumWords : List UInt8 → Nat → Nat
  | high :: low :: rest, sum => sumWords rest ((sum + (high.toNat * 2 ^ 8 + low.toNat)) % 2 ^ 32)
  | [last], sum => (sum + last.toNat * 2 ^ 8) % 2 ^ 32
  | [], sum => sum

/-- The loop `while ((sum >> 16) != 0)`, and the complement. -/
def complementOfSum (sum : Nat) : Nat := 2 ^ 16 - 1 - OnesComplement.fold (2 ^ 16) sum

def internetChecksum (bytes : List UInt8) : Nat := complementOfSum (sumWords bytes 0)

/-- `tcp_checksum`, where the words of the two addresses are added in turn. -/
def tcpChecksum (sourceIp destinationIp : Ip) (tcp : List UInt8) : Nat :=
  let addresses := sumWords [sourceIp.first, sourceIp.second, destinationIp.first, destinationIp.second,
    sourceIp.third, sourceIp.fourth, destinationIp.third, destinationIp.fourth] 0
  complementOfSum (sumWords tcp ((addresses + IPV4_PROTOCOL_TCP.toNat + tcp.length) % 2 ^ 32))

/-! ### The state -/

/-- What these functions use of `ASAS_VIRTIO_NET`. -/
structure VirtioNet where
  mac : Mac
  hasMac : Bool
  ip : Ip
  dhcpServerIp : Ip
  dhcpOfferReceived : Bool
  dhcpAckReceived : Bool
  dnsResponseReceived : Bool
  dnsARecordReceived : Bool
  dnsResolvedIp : Ip
  icmpReplyReceived : Bool
  tcpSynAckReceived : Bool
  tcpPeerSequence : Nat
  httpResponseReceived : Bool
  deriving DecidableEq

/-- The device before anything is received. -/
def quietNet : VirtioNet where
  mac := fallbackMac
  hasMac := false
  ip := ⟨0, 0, 0, 0⟩
  dhcpServerIp := ⟨0, 0, 0, 0⟩
  dhcpOfferReceived := false
  dhcpAckReceived := false
  dnsResponseReceived := false
  dnsARecordReceived := false
  dnsResolvedIp := ⟨0, 0, 0, 0⟩
  icmpReplyReceived := false
  tcpSynAckReceived := false
  tcpPeerSequence := 0
  httpResponseReceived := false

/-- `ASAS_TCP_CONNECTION`. The output is what the buffer of the caller holds, if there is one. -/
structure Connection where
  active : Bool
  sourcePort : Nat
  destinationPort : Nat
  peerSequence : Nat
  synAckReceived : Bool
  responseReceived : Bool
  output : Option Memory
  outputCapacity : Nat
  outputSize : Nat
  deferredPayload : Memory
  deferredPayloadSize : Nat

/-- The state of the module, with the frames that the device has taken. -/
structure Driver where
  net : VirtioNet
  tcpConnections : List Connection
  nextTcpSourcePort : Nat
  httpServerActive : Bool
  httpServerRequestReceived : Bool
  httpServerResponseSent : Bool
  pendingIpv4Target : Ip
  pendingIcmpReplyReceived : Bool
  sent : List (List UInt8)

/-! ### Connections -/

/-- A slot of the table for a new connection. Deferred bytes of earlier connections stay in it. -/
def Connection.renewed (connection : Connection) (sourcePort destinationPort : Nat) : Connection :=
  { connection with
    active := true
    sourcePort, destinationPort
    peerSequence := 0
    synAckReceived := false
    responseReceived := false
    output := none
    outputCapacity := 0
    outputSize := 0
    deferredPayloadSize := 0 }

/-- `tcp_connection_allocate`, with the index of the slot. -/
def tcpConnectionAllocate (s : Driver) (destinationPort : Nat) : Option (Nat × Driver) :=
  (s.tcpConnections.findIdx? fun connection => !connection.active).map fun index =>
    let next := (s.nextTcpSourcePort + 1) % 2 ^ 16
    (index, { s with
      tcpConnections := s.tcpConnections.modify index (·.renewed s.nextTcpSourcePort destinationPort)
      nextTcpSourcePort := if next < TCP_HTTP_SOURCE_PORT then TCP_HTTP_SOURCE_PORT else next })

/-- `tcp_connection_find`. The ports are those of a segment, seen from the peer. -/
def tcpConnectionFind (connections : List Connection) (sourcePort destinationPort : Nat) : Option Nat :=
  connections.findIdx? fun connection =>
    connection.active && connection.destinationPort == sourcePort && connection.sourcePort == destinationPort

/-- `tcp_connection_set_output`, with a buffer and what it holds, or with none. -/
def tcpConnectionSetOutput (connection : Connection) (output : Option Memory)
    (outputCapacity : Nat) : Connection :=
  let cleared := { connection with output, outputCapacity, outputSize := 0 }
  match output with
  | some buffer =>
    if connection.deferredPayloadSize ≠ 0 ∧ outputCapacity ≠ 0 then
      let copyLength := min connection.deferredPayloadSize outputCapacity
      { cleared with
        output := some (patch buffer 0 (window connection.deferredPayload 0 copyLength))
        outputSize := copyLength }
    else cleared
  | none => cleared

/-- What `tcp_connection_store_payload` does with the bytes. -/
def Connection.keep (connection : Connection) (payload : List UInt8) : Connection :=
  let deferred :=
    let copyLength := min payload.length TCP_DEFERRED_PAYLOAD_SIZE
    { connection with
      deferredPayload := patch connection.deferredPayload 0 (payload.take copyLength)
      deferredPayloadSize := copyLength }
  match connection.output with
  | some buffer =>
    if connection.outputCapacity ≠ 0 then
      let copyLength := min payload.length connection.outputCapacity
      { connection with output := some (patch buffer 0 (payload.take copyLength)), outputSize := copyLength }
    else deferred
  | none => deferred

def tcpConnectionStorePayload (connection : Connection) (payload : List UInt8) : Connection :=
  { connection.keep payload with responseReceived := true }

/-! ### DHCP -/

/-- Where the walk over the options is, and what it has found. -/
structure Options where
  index : Nat
  messageType : UInt8
  serverIp : Ip

/-- The loop over the options in `handle_dhcp_packet`. -/
def optionBody (payload : Memory) (length : Nat) (s : Options) : Run (Options ⊕ Options) :=
  if s.index < length then do
    access length s.index 1
    let option := payload s.index
    let index := (s.index + 1) % 2 ^ 32
    if option = 0 then pure (.inl { s with index })
    else if option = 255 ∨ index ≥ length then pure (.inr s)
    else do
      access length index 1
      let optionLength := (payload index).toNat
      let index := (index + 1) % 2 ^ 32
      let next := (index + optionLength) % 2 ^ 32
      if next > length then pure (.inr s)
      else if option = 53 ∧ optionLength = 1 then do
        access length index 1
        pure (.inl { s with index := next, messageType := payload index })
      else if option = 54 ∧ optionLength = 4 then do
        access length index 4
        pure (.inl { s with index := next, serverIp := ipAt payload index })
      else pure (.inl { s with index := next })
  else pure (.inr s)

def handleDhcpPacket (steps : Nat) (net : VirtioNet) (payload : Memory) (length : Nat) : Run VirtioNet :=
  if length < 244 then pure net
  else do
    access length 0 1
    access length 4 4
    access length 236 4
    if payload 0 ≠ 2 ∨ readBe32 payload 4 ≠ DHCP_XID ∨ payload 236 ≠ 0x63 ∨ payload 237 ≠ 0x82 ∨
        payload 238 ≠ 0x53 ∨ payload 239 ≠ 0x63 then pure net
    else do
      let options ← iterate (optionBody payload length) steps ⟨240, 0, ⟨0, 0, 0, 0⟩⟩
      access length 16 4
      let net' := { net with ip := ipAt payload 16, dhcpServerIp := options.serverIp }
      if options.messageType = 2 then pure { net' with dhcpOfferReceived := true }
      else if options.messageType = 5 then pure { net' with dhcpAckReceived := true }
      else pure net

/-! ### DNS -/

/-- The loop of `skip_dns_name`. -/
def labelBody (payload : Memory) (length offset : Nat) : Run (Nat ⊕ Nat) :=
  if offset < length then do
    access length offset 1
    let labelLength := payload offset
    let offset := (offset + 1) % 2 ^ 32
    if labelLength = 0 then pure (.inr offset)
    else if labelLength &&& 0xC0 = 0xC0 then
      pure (.inr (if (offset + 1) % 2 ^ 32 ≤ length then (offset + 1) % 2 ^ 32 else length))
    else pure (.inl ((offset + labelLength.toNat) % 2 ^ 32))
  else pure (.inr length)

def skipDnsName (steps : Nat) (payload : Memory) (length offset : Nat) : Run Nat :=
  iterate (labelBody payload length) steps offset

/-- The loop over the questions: how many there are left, and the offset. There is no result where the function
returns. -/
def questionBody (steps : Nat) (payload : Memory) (length : Nat) (s : Nat × Nat) :
    Run ((Nat × Nat) ⊕ Option Nat) :=
  if s.1 ≠ 0 ∧ s.2 < length then do
    let offset ← skipDnsName steps payload length s.2
    if (offset + 4) % 2 ^ 32 > length then pure (.inr none)
    else pure (.inl (s.1 - 1, (offset + 4) % 2 ^ 32))
  else pure (.inr (some s.2))

/-- The loop over the answers: an index, and the offset. The result is the address that is found. -/
def answerBody (steps : Nat) (payload : Memory) (length answerCount : Nat) (s : Nat × Nat) :
    Run ((Nat × Nat) ⊕ Option Ip) :=
  if s.1 < answerCount ∧ s.2 < length then do
    let offset ← skipDnsName steps payload length s.2
    if (offset + 10) % 2 ^ 32 > length then pure (.inr none)
    else do
      access length offset 4
      access length (offset + 8) 2
      let type := readBe16 payload offset
      let dnsClass := readBe16 payload (offset + 2)
      let dataLength := readBe16 payload (offset + 8)
      let offset := (offset + 10) % 2 ^ 32
      let next := (offset + dataLength) % 2 ^ 32
      if next > length then pure (.inr none)
      else if type = 1 ∧ dnsClass = 1 ∧ dataLength = 4 then do
        access length offset 4
        pure (.inr (some (ipAt payload offset)))
      else pure (.inl (s.1 + 1, next))
  else pure (.inr none)

def handleDnsPacket (steps : Nat) (net : VirtioNet) (payload : Memory) (length : Nat) : Run VirtioNet :=
  if length < 12 then pure net
  else do
    access length 0 2
    if readBe16 payload 0 ≠ DNS_QUERY_ID then pure net
    else do
      access length 4 4
      let questionCount := readBe16 payload 4
      let answerCount := readBe16 payload 6
      match ← iterate (questionBody steps payload length) steps (questionCount, 12) with
      | none => pure net
      | some offset => do
        match ← iterate (answerBody steps payload length answerCount) steps (0, offset) with
        | none => pure net
        | some ip => pure { net with dnsResolvedIp := ip, dnsARecordReceived := true }

/-! ### TCP -/

/-- The bytes of the IPv4 header that `build_tcp_segment` writes. -/
def ipv4Header (sourceIp targetIp : Ip) (length checksum : Nat) : List UInt8 :=
  [0x45, 0] ++ be16 length ++ be16 0x5443 ++ be16 0 ++ [64, IPV4_PROTOCOL_TCP] ++ be16 checksum ++
    sourceIp.bytes ++ targetIp.bytes

def tcpHeader (sourcePort destinationPort sequence acknowledgment : Nat) (flags : UInt8)
    (checksum : Nat) :
    List UInt8 :=
  be16 sourcePort ++ be16 destinationPort ++ be32 sequence ++ be32 acknowledgment ++ [0x50, flags] ++ be16 64240 ++
    be16 checksum ++ be16 0

/-- The bytes of a payload argument, which may be null. -/
def payloadBytes : Option Memory → Nat → List UInt8
  | some bytes, length => window bytes 0 length
  | none, _ => []

/-- `build_tcp_segment`: the frame, and the length to send. The frame is zero behind the payload. The checksums are
those of headers whose checksums are zero. -/
def buildTcpSegment (net : VirtioNet) (targetIp : Ip)
    (nextHopMac : Mac) (sourcePort destinationPort sequence
    acknowledgment : Nat) (flags : UInt8) (payload : Option Memory) (payloadLength :
    Nat) : List UInt8 × Nat :=
  let source := if net.hasMac then net.mac else fallbackMac
  let tcpLength := (20 + payloadLength) % 2 ^ 16
  let ipv4Length := (20 + tcpLength) % 2 ^ 16
  let ipv4 := ipv4Header net.ip targetIp ipv4Length
  let tcp := fun checksum => tcpHeader sourcePort destinationPort sequence acknowledgment flags checksum ++
    payloadBytes payload payloadLength
  let segment := window (byteAt (tcp 0)) 0 tcpLength
  (nextHopMac.bytes ++ source.bytes ++ be16 ETHERTYPE_IPV4 ++ ipv4 (internetChecksum (ipv4 0)) ++
      tcp (tcpChecksum net.ip targetIp segment),
    if 14 + ipv4Length < 60 then 60 else 14 + ipv4Length)

/-- `send_ethernet_frame`: whether the frame was sent. The device takes the frame in any case, and may not say so in time. -/
def sendEthernetFrame (transmitted : Bool) (s : Driver) (built : List UInt8 × Nat) : Bool × Driver :=
  if built.2 = 0 ∨ built.2 > VIRTIO_NET_FRAME_SIZE then (false, s)
  else (transmitted, { s with sent := s.sent ++ [window (byteAt built.1) 0 built.2] })

/-- What the functions for TCP take from a frame. -/
structure Segment where
  clientMac : Mac
  sourceIp : Ip
  targetIp : Ip
  sourcePort : Nat
  destinationPort : Nat
  sequence : Nat
  flags : UInt8
  payload : List UInt8
  deriving DecidableEq

def response : List UInt8 :=
  ("HTTP/1.0 200 OK\r\nContent-Length: 14\r\n\r\nAsas http ok\r\n".toList).map fun letter => UInt8.ofNat letter.toNat

def handleHttpServerTcp (transmitted : Bool) (s : Driver) (segment : Segment) : Driver :=
  if s.httpServerActive = false ∨ segment.targetIp ≠ s.net.ip ∨
      segment.destinationPort ≠ TCP_HTTP_DESTINATION_PORT then s
  else
    let build := buildTcpSegment s.net segment.sourceIp segment.clientMac TCP_HTTP_DESTINATION_PORT segment.sourcePort
    if segment.flags &&& 0x02 ≠ 0 ∧ segment.flags &&& 0x10 = 0 then
      let built := build TCP_SERVER_SEQUENCE_NUMBER ((segment.sequence + 1) % 2 ^ 32) 0x12 none 0
      (sendEthernetFrame transmitted s built).2
    else if segment.payload.length ≠ 0 then
      let built := build (TCP_SERVER_SEQUENCE_NUMBER + 1) ((segment.sequence + segment.payload.length) % 2 ^ 32) 0x18
        (some (byteAt response)) response.length
      let (sent, s) := sendEthernetFrame transmitted { s with httpServerRequestReceived := true } built
      if sent then { s with httpServerResponseSent := true } else s
    else s

/-- What `handle_ipv4_frame` does with a TCP segment. -/
def handleTcp (transmitted : Bool) (s : Driver) (segment : Segment) : Driver :=
  let s := handleHttpServerTcp transmitted s segment
  match tcpConnectionFind s.tcpConnections segment.sourcePort segment.destinationPort with
  | some index =>
    if segment.flags &&& 0x12 = 0x12 then
      { s with
        tcpConnections := s.tcpConnections.modify index fun connection =>
          { connection with peerSequence := segment.sequence, synAckReceived := true }
        net := { s.net with tcpPeerSequence := segment.sequence, tcpSynAckReceived := true } }
    else if segment.payload.length ≠ 0 then
      { s with
        tcpConnections := s.tcpConnections.modify index (tcpConnectionStorePayload · segment.payload)
        net := { s.net with httpResponseReceived := true } }
    else s
  | none => s

/-- The segment in a frame, behind an IPv4 header of a length. There is none where the function returns. -/
def tcpSegment (frame : Memory) (length headerLength : Nat) : Option Segment :=
  let ipv4 := rest frame 14
  let tcp := rest ipv4 headerLength
  let totalLength := readBe16 ipv4 2
  let tcpHeaderLength := (tcp 12).toNat / 2 ^ 4 * 4
  if length < 14 + totalLength ∨ totalLength < headerLength + 20 then none
  else if tcpHeaderLength < 20 ∨ totalLength < headerLength + tcpHeaderLength then none
  else
    some
      { clientMac := macAt frame 6
        sourceIp := ipAt ipv4 12
        targetIp := ipAt ipv4 16
        sourcePort := readBe16 tcp 0
        destinationPort := readBe16 tcp 2
        sequence := readBe32 tcp 4
        flags := tcp 13
        payload := window tcp tcpHeaderLength (totalLength - headerLength - tcpHeaderLength) }

/-- What `handle_ipv4_frame` does with a UDP packet behind an IPv4 header. -/
def handleUdp (steps : Nat) (s : Driver) (udp : Memory) (length headerLength : Nat) : Run Driver :=
  let sourcePort := readBe16 udp 0
  let destinationPort := readBe16 udp 2
  let udpLength := readBe16 udp 4
  if sourcePort = DHCP_SERVER_PORT ∧ destinationPort = DHCP_CLIENT_PORT ∧ udpLength ≥ 8 ∧
      length ≥ 14 + headerLength + udpLength then do
    let net ← handleDhcpPacket steps s.net (rest udp 8) (udpLength - 8)
    pure { s with net }
  else if sourcePort = DNS_SERVER_PORT ∧ destinationPort = DNS_CLIENT_PORT ∧ udpLength ≥ 20 ∧
      length ≥ 14 + headerLength + udpLength ∧ readBe16 udp 8 = DNS_QUERY_ID then do
    let net ← handleDnsPacket steps { s.net with dnsResponseReceived := true } (rest udp 8) (udpLength - 8)
    pure { s with net }
  else pure s

/-- What `handle_ipv4_frame` does with an ICMP packet. -/
def handleIcmp (s : Driver) (ipv4 : Memory) (headerLength : Nat) : Driver :=
  let icmp := rest ipv4 headerLength
  if ipAt ipv4 12 = s.pendingIpv4Target ∧ ipAt ipv4 16 = s.net.ip ∧ icmp 0 = 0 ∧ readBe16 icmp 4 = 0x4153 then
    { s with
      pendingIcmpReplyReceived := true
      net := { s.net with icmpReplyReceived := ipAt ipv4 12 = gatewayIp || s.net.icmpReplyReceived } }
  else s

def handleIpv4Frame (steps : Nat) (transmitted : Bool) (s : Driver) (frame : Memory)
    (length : Nat) : Run Driver :=
  let ipv4 := rest frame 14
  let headerLength := (ipv4 0).toNat % 2 ^ 4 * 4
  if length < 34 then pure s
  else if (ipv4 0).toNat / 2 ^ 4 ≠ 4 ∨
      (ipv4 9 ≠ IPV4_PROTOCOL_ICMP ∧ ipv4 9 ≠ IPV4_PROTOCOL_UDP ∧ ipv4 9 ≠ IPV4_PROTOCOL_TCP) then pure s
  else if headerLength < 20 ∨ length < 14 + headerLength + 8 then pure s
  else if ipv4 9 = IPV4_PROTOCOL_UDP then handleUdp steps s (rest ipv4 headerLength) length headerLength
  else if ipv4 9 = IPV4_PROTOCOL_TCP then
    match tcpSegment frame length headerLength with
    | some segment => pure (handleTcp transmitted s segment)
    | none => pure s
  else pure (handleIcmp s ipv4 headerLength)

end AsasOs.Net
