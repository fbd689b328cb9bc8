import AsasOs.Net.Packets
import AsasOs.Net.ReceiveStream

/-!
# Frames that are read within their length

`poll_receive` hands a frame with the length that the device has reported to the functions for its protocol. Behind that
length the buffer has what is left of an earlier frame.

## Model

- Each read of the frame is checked against the reported length, in the order of the source. What a frame has for a
  connection, or for a packet with a length of its own, is checked where it is handed on.

## Main results

- `readIpv4Frame_eq`: inside, the checks change nothing.
- `received_inside_iff`: a frame is read within its length just if its TCP header goes up to the flags.
-/
namespace AsasOs.Net

open Bytes Checked

def ETHERTYPE_ARP : Nat := 0x0806

/-- What `handle_arp_frame` takes from a reply. -/
structure ArpReply where
  mac : Mac
  gateway : Bool
  deriving DecidableEq

/-- `handle_arp_frame` -/
def readArpFrame (s : Driver) (frame : Memory) (length : Nat) : Run (Option ArpReply) :=
  let arp := rest frame 14
  if length < 42 then pure none
  else do
    access length 14 8
    if readBe16 arp 0 ≠ 1 ∨ readBe16 arp 2 ≠ ETHERTYPE_IPV4 ∨ arp 4 ≠ 6 ∨ arp 5 ≠ 4 ∨ readBe16 arp 6 ≠ 2 then pure none
    else do
      access length (14 + 14) 4
      access length (14 + 24) 4
      if ipAt arp 14 ≠ s.pendingIpv4Target ∨ ipAt arp 24 ≠ s.net.ip then pure none
      else do
        access length (14 + 8) 6
        pure (some ⟨macAt arp 8, ipAt arp 14 = gatewayIp⟩)

/-- The UDP packets in `handle_ipv4_frame`. -/
def readUdp (steps : Nat) (s : Driver) (udp : Memory) (length headerLength : Nat) : Run Driver := do
  access length (14 + headerLength) 6
  let sourcePort := readBe16 udp 0
  let destinationPort := readBe16 udp 2
  let udpLength := readBe16 udp 4
  if sourcePort = DHCP_SERVER_PORT ∧ destinationPort = DHCP_CLIENT_PORT ∧ udpLength ≥ 8 ∧
      length ≥ 14 + headerLength + udpLength then do
    access length (14 + headerLength + 8) (udpLength - 8)
    let net ← handleDhcpPacket steps s.net (rest udp 8) (udpLength - 8)
    pure { s with net }
  else if sourcePort = DNS_SERVER_PORT ∧ destinationPort = DNS_CLIENT_PORT ∧ udpLength ≥ 20 ∧
      length ≥ 14 + headerLength + udpLength then do
    access length (14 + headerLength + 8) 2
    if readBe16 udp 8 = DNS_QUERY_ID then do
      access length (14 + headerLength + 8) (udpLength - 8)
      let net ← handleDnsPacket steps { s.net with dnsResponseReceived := true } (rest udp 8) (udpLength - 8)
      pure { s with net }
    else pure s
  else pure s

/-- The TCP segments in `handle_ipv4_frame`, with what `handle_http_server_tcp` reads for its reply. -/
def readTcp (transmitted : Bool) (s : Driver) (frame : Memory) (length headerLength : Nat) : Run Driver := do
  let ipv4 := rest frame 14
  let tcp := rest ipv4 headerLength
  access length (14 + 2) 2
  access length (14 + headerLength) 4
  access length (14 + headerLength + 13) 1
  let totalLength := readBe16 ipv4 2
  if length < 14 + totalLength ∨ totalLength < headerLength + 20 then pure s
  else do
    access length (14 + headerLength + 12) 1
    let tcpHeaderLength := (tcp 12).toNat / 2 ^ 4 * 4
    if tcpHeaderLength < 20 ∨ totalLength < headerLength + tcpHeaderLength then pure s
    else do
      access length (14 + headerLength + 4) 4
      access length (14 + 12) 8
      access length 6 6
      access length (14 + headerLength + tcpHeaderLength) (totalLength - headerLength - tcpHeaderLength)
      match tcpSegment frame length headerLength with
      | some segment => pure (handleTcp transmitted s segment)
      | none => pure s

/-- The replies in `handle_ipv4_frame`. -/
def readIcmp (s : Driver) (ipv4 : Memory) (length headerLength : Nat) : Run Driver := do
  access length (14 + 12) 8
  access length (14 + headerLength) 6
  pure (handleIcmp s ipv4 headerLength)

/-- `handle_ipv4_frame`, where each read is checked. -/
def readIpv4Frame (steps : Nat) (transmitted : Bool) (s : Driver) (frame : Memory) (length : Nat) :
    Run Driver :=
  let ipv4 := rest frame 14
  let headerLength := (ipv4 0).toNat % 2 ^ 4 * 4
  if length < 34 then pure s
  else do
    access length 14 1
    access length (14 + 9) 1
    if (ipv4 0).toNat / 2 ^ 4 ≠ 4 ∨
        (ipv4 9 ≠ IPV4_PROTOCOL_ICMP ∧ ipv4 9 ≠ IPV4_PROTOCOL_UDP ∧ ipv4 9 ≠ IPV4_PROTOCOL_TCP) then pure s
    else if headerLength < 20 ∨ length < 14 + headerLength + 8 then pure s
    else if ipv4 9 = IPV4_PROTOCOL_UDP then readUdp steps s (rest ipv4 headerLength) length headerLength
    else if ipv4 9 = IPV4_PROTOCOL_TCP then readTcp transmitted s frame length headerLength
    else readIcmp s ipv4 length headerLength

/-- A frame in `poll_receive`, without its result. -/
def receiveFrame (steps : Nat) (transmitted : Bool) (s : Driver) (frame : Memory) (length : Nat) :
    Run Unit :=
  if length ≥ 14 then do
    access length 12 2
    if readBe16 frame 12 = ETHERTYPE_ARP then readArpFrame s frame length >>= fun _ => pure ()
    else if readBe16 frame 12 = ETHERTYPE_IPV4 then
      readIpv4Frame steps transmitted s frame length >>= fun _ => pure ()
    else pure ()
  else pure ()

/-- An IPv4 frame with a TCP header that ends in front of the flags. -/
def ShortTcp (frame : Memory) (length : Nat) : Prop :=
  let ipv4 := rest frame 14
  let headerLength := (ipv4 0).toNat % 2 ^ 4 * 4
  34 ≤ length ∧ (ipv4 0).toNat / 2 ^ 4 = 4 ∧ ipv4 9 = IPV4_PROTOCOL_TCP ∧ 20 ≤ headerLength ∧
    14 + headerLength + 8 ≤ length ∧ length < 14 + headerLength + 14

section Frames

variable {steps length headerLength : Nat} {transmitted : Bool} {s : Driver} {frame : Memory}

theorem readUdp_eq {udp : Memory} (room : 14 + headerLength + 8 ≤ length) :
    readUdp steps s udp length headerLength = handleUdp steps s udp length headerLength := by
  unfold readUdp handleUdp
  rw [access_inside (by omega), ok_bind]
  dsimp only
  split
  next dhcp => rw [access_inside (by omega), ok_bind]
  next =>
    by_cases dns : readBe16 udp 0 = DNS_SERVER_PORT ∧ readBe16 udp 2 = DNS_CLIENT_PORT ∧ readBe16 udp 4 ≥ 20 ∧
        length ≥ 14 + headerLength + readBe16 udp 4
    · rw [if_pos dns, access_inside (by omega), ok_bind]
      by_cases query : readBe16 udp 8 = DNS_QUERY_ID
      · rw [if_pos query, if_pos ⟨dns.1, dns.2.1, dns.2.2.1, dns.2.2.2, query⟩, access_inside (by omega), ok_bind]
      · rw [if_neg query, if_neg fun all => query all.2.2.2.2]
    · rw [if_neg dns, if_neg fun all => dns ⟨all.1, all.2.1, all.2.2.1, all.2.2.2.1⟩]

theorem readTcp_eq (header : 20 ≤ headerLength) (room : 14 + headerLength + 14 ≤ length) :
    readTcp transmitted s frame length headerLength = match tcpSegment frame length headerLength with
      | some segment => pure (handleTcp transmitted s segment)
      | none => pure s := by
  unfold readTcp tcpSegment
  dsimp only
  rw [access_inside (by omega), ok_bind, access_inside (by omega), ok_bind, access_inside (by omega), ok_bind]
  split
  next => rfl
  next total =>
    rw [access_inside (by omega), ok_bind]
    split
    next => rfl
    next size =>
      rw [access_inside (by omega), ok_bind, access_inside (by omega), ok_bind, access_inside (by omega), ok_bind,
        access_inside (by omega), ok_bind]

/-- Where the TCP header goes up to the flags, the checks change nothing. -/
theorem readIpv4Frame_eq (whole : ¬ShortTcp frame length) :
    readIpv4Frame steps transmitted s frame length = handleIpv4Frame steps transmitted s frame length := by
  unfold readIpv4Frame handleIpv4Frame
  dsimp only
  split
  next => rfl
  next long =>
    rw [access_inside (by omega), ok_bind, access_inside (by omega), ok_bind]
    split
    next => rfl
    next version =>
      split
      next => rfl
      next header =>
        split
        next => exact readUdp_eq (by omega)
        next =>
          split
          next tcp =>
            refine readTcp_eq (by omega) (Nat.le_of_not_lt fun cut => whole ⟨by omega, ?_, tcp, by omega, by omega, cut⟩)
            exact Classical.byContradiction fun other => version (Or.inl other)
          next =>
            rw [readIcmp, access_inside (by omega), ok_bind, access_inside (by omega), ok_bind]

theorem readArpFrame_safe : Safe (readArpFrame s frame length) fun _ => True := by
  unfold readArpFrame
  dsimp only
  split
  next => trivial
  next long =>
    rw [access_inside (by omega), ok_bind]
    split
    next => trivial
    next =>
      rw [access_inside (by omega), ok_bind, access_inside (by omega), ok_bind]
      split
      next => trivial
      next =>
        rw [access_inside (by omega), ok_bind]
        trivial

theorem handleIpv4Frame_safe (enough : 2 ^ 16 ≤ steps) :
    Safe (handleIpv4Frame steps transmitted s frame length) fun _ => True := by
  have udp (payload : Memory) (headerLength : Nat) :
      Safe (handleUdp steps s payload length headerLength) fun _ => True := by
    have word := readBe16_lt payload 4
    unfold handleUdp
    dsimp only
    split
    next => exact safe_bind (handleDhcpPacket_safe (by omega) (by omega) _) fun _ _ => trivial
    next =>
      split
      next => exact safe_bind (handleDnsPacket_safe (by omega) (by omega) _) fun _ _ => trivial
      next => trivial
  unfold handleIpv4Frame
  dsimp only
  split
  next => trivial
  next =>
    split
    next => trivial
    next =>
      split
      next => trivial
      next =>
        split
        next => exact udp _ _
        next =>
          split
          next =>
            split
            next => trivial
            next => trivial
          next => trivial

theorem readIpv4Frame_short (short : ShortTcp frame length) :
    readIpv4Frame steps transmitted s frame length = .error .outside := by
  obtain ⟨long, four, tcp, header, room, cut⟩ := short
  unfold readIpv4Frame
  dsimp only
  rw [if_neg (by omega), access_inside (by omega), ok_bind, access_inside (by omega), ok_bind,
    if_neg (by rw [four, tcp]; decide), if_neg (by omega), if_neg (by rw [tcp]; decide), if_pos tcp, readTcp]
  dsimp only
  rw [access_inside (by omega), ok_bind, access_inside (by omega), ok_bind, access, if_neg (by omega)]
  rfl

theorem safe_receiveFrame_iff (long : 14 ≤ length) (ipv4 : readBe16 frame 12 = ETHERTYPE_IPV4) :
    Safe (receiveFrame steps transmitted s frame length) (fun _ => True) ↔
      Safe (readIpv4Frame steps transmitted s frame length) fun _ => True := by
  unfold receiveFrame
  rw [if_pos long, access_inside (by omega), ok_bind, if_neg (by rw [ipv4]; decide), if_pos ipv4]
  exact safe_discard_iff

end Frames

/-- Whatever a frame has, it is read within its length, and the reading ends, just if it is no IPv4 frame with a TCP
header that ends in front of the flags. -/
theorem received_inside_iff (transmitted : Bool) (s : Driver) (frame : Memory) (length : Nat) :
    (∃ enough, ∀ steps ≥ enough, Safe (receiveFrame steps transmitted s frame length) fun _ => True) ↔
      ¬(readBe16 frame 12 = ETHERTYPE_IPV4 ∧ ShortTcp frame length) := by
  constructor
  · rintro ⟨enough, inside⟩ ⟨ipv4, short⟩
    have long := short.1
    have safe := (safe_receiveFrame_iff (by omega) ipv4).mp (inside enough (Nat.le_refl _))
    rw [readIpv4Frame_short short] at safe
    exact Stop.noConfusion safe
  · intro whole
    refine ⟨2 ^ 16, fun steps enough => ?_⟩
    by_cases ipv4 : 14 ≤ length ∧ readBe16 frame 12 = ETHERTYPE_IPV4
    · rw [safe_receiveFrame_iff ipv4.1 ipv4.2, readIpv4Frame_eq fun short => whole ⟨ipv4.2, short⟩]
      exact handleIpv4Frame_safe enough
    · unfold receiveFrame
      split
      next long =>
        rw [access_inside (by omega), ok_bind, if_neg fun other => ipv4 ⟨long, other⟩]
        split
        next => exact safe_bind readArpFrame_safe fun _ _ => trivial
        next => trivial
      next => trivial

/-- A TCP header of which eight bytes have been received. -/
def cutFrame : Memory
  | 12 => 0x08 | 14 => 0x45 | 23 => 6 | _ => 0

theorem received_outside : ¬∀ (transmitted : Bool) (s : Driver) (frame : Memory) (length : Nat),
    ∃ enough, ∀ steps ≥ enough, Safe (receiveFrame steps transmitted s frame length) fun _ => True := by
  intro all
  obtain ⟨enough, inside⟩ := all false quietDriver cutFrame 42
  have short : ShortTcp cutFrame 42 := by
    unfold ShortTcp
    decide
  have safe := (safe_receiveFrame_iff (by decide) (by decide)).mp (inside enough (Nat.le_refl _))
  rw [readIpv4Frame_short short] at safe
  exact Stop.noConfusion safe

end AsasOs.Net
