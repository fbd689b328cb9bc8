import AsasOs.Net.Driver

/-!
# TCP frames

A frame that is built carries checksums that hold, and what is taken from it on receipt is what went into it.

## Main results

- `internetChecksum_verifies`, `tcpChecksum_verifies`: the checksums of the headers.
- `buildTcpSegment_received`: the frame round trip.
-/
namespace AsasOs.Net

open Bytes Checked OnesComplement

/-! ### Checksums -/

theorem sumWords_eq (bytes : List UInt8) (sum : Nat) (small : sum + wordSum bytes < 2 ^ 32) :
    sumWords bytes sum = sum + wordSum bytes := by
  induction bytes using wordSum.induct generalizing sum with
  | case1 high low rest ih =>
    rw [wordSum] at small ⊢
    rw [← Nat.add_assoc] at small ⊢
    rw [sumWords, Nat.mod_eq_of_lt (Nat.lt_of_le_of_lt (Nat.le_add_right _ _) small), ih _ small]
  | case2 last =>
    rw [wordSum] at small ⊢
    rw [sumWords, Nat.mod_eq_of_lt small]
  | case3 => rfl

theorem complementOfSum_lt (sum : Nat) : complementOfSum sum < 2 ^ 16 := by
  unfold complementOfSum
  omega

theorem complementOfSum_complete (sum : Nat) : complementOfSum (sum + complementOfSum sum) = 0 := by
  rw [complementOfSum, complementOfSum, fold_complete (by decide), Nat.sub_self]

theorem wordSum_ipv4Header (sourceIp targetIp : Ip) (length : Nat) {checksum : Nat}
    (word : checksum < 2 ^ 16) :
    wordSum (ipv4Header sourceIp targetIp length checksum) =
      wordSum (ipv4Header sourceIp targetIp length 0) + checksum := by
  simp [ipv4Header, be16, Ip.bytes, wordSum]
  omega

theorem wordSum_tcpHeader (sourcePort destinationPort sequence acknowledgment : Nat)
    (flags : UInt8) {checksum : Nat}
    (word : checksum < 2 ^ 16) :
    wordSum (tcpHeader sourcePort destinationPort sequence acknowledgment flags checksum) =
      wordSum (tcpHeader sourcePort destinationPort sequence acknowledgment flags 0) + checksum := by
  simp [tcpHeader, be16, be32, wordSum]
  omega

/-- The checksum of the IPv4 header holds. -/
theorem internetChecksum_verifies (sourceIp targetIp : Ip) (length : Nat) :
    internetChecksum (ipv4Header sourceIp targetIp length (internetChecksum (ipv4Header sourceIp targetIp length 0))) =
      0 := by
  have sum (checksum : Nat) : sumWords (ipv4Header sourceIp targetIp length checksum) 0 =
      wordSum (ipv4Header sourceIp targetIp length checksum) := by
    have bound := wordSum_le (ipv4Header sourceIp targetIp length checksum)
    have twenty : (ipv4Header sourceIp targetIp length checksum).length = 20 := rfl
    rw [twenty] at bound
    rw [sumWords_eq _ _ (by omega), Nat.zero_add]
  have word : internetChecksum (ipv4Header sourceIp targetIp length 0) < 2 ^ 16 := complementOfSum_lt _
  rw [internetChecksum, sum, wordSum_ipv4Header sourceIp targetIp length word, internetChecksum, sum]
  exact complementOfSum_complete _

/-- The checksum of the TCP segment holds, with the addresses, the protocol and the length of the segment. -/
theorem tcpChecksum_verifies (sourceIp targetIp : Ip)
    (sourcePort destinationPort sequence acknowledgment : Nat)
    (flags : UInt8) {data : List UInt8} (short : data.length ≤ 1460) :
    let tcp := fun checksum => tcpHeader sourcePort destinationPort sequence acknowledgment flags checksum ++ data
    tcpChecksum sourceIp targetIp (tcp (tcpChecksum sourceIp targetIp (tcp 0))) = 0 := by
  intro tcp
  have twenty (checksum : Nat) :
      (tcpHeader sourcePort destinationPort sequence acknowledgment flags checksum).length = 20 := rfl
  have size (checksum : Nat) : (tcp checksum).length = 20 + data.length := by rw [List.length_append, twenty]
  have parts (checksum : Nat) : wordSum (tcp checksum) =
      wordSum (tcpHeader sourcePort destinationPort sequence acknowledgment flags checksum) + wordSum data :=
    wordSum_append (by rw [twenty])
  -- What the checksum starts from.
  obtain ⟨start, small, whole⟩ : ∃ start < 2 ^ 20, ∀ checksum, tcpChecksum sourceIp targetIp (tcp checksum) =
      complementOfSum (start + wordSum (tcp checksum)) := by
    let addresses := [sourceIp.first, sourceIp.second, targetIp.first, targetIp.second, sourceIp.third,
      sourceIp.fourth, targetIp.third, targetIp.fourth]
    have bound := wordSum_le addresses
    have eight : addresses.length = 8 := rfl
    rw [eight] at bound
    have small : wordSum addresses + 6 + (20 + data.length) < 2 ^ 20 := by omega
    refine ⟨wordSum addresses + 6 + (20 + data.length), small, fun checksum => ?_⟩
    have bound := wordSum_le (tcp checksum)
    rw [size] at bound
    have fits := Nat.mul_le_mul_left (2 ^ 16 - 1) (show (20 + data.length + 1) / 2 ≤ 741 by omega)
    change complementOfSum (sumWords (tcp checksum)
      ((sumWords addresses 0 + 6 + (tcp checksum).length) % 2 ^ 32)) = _
    rw [sumWords_eq addresses 0 (by omega), size, Nat.zero_add, Nat.mod_eq_of_lt (by omega), sumWords_eq _ _ (by omega)]
  have word : tcpChecksum sourceIp targetIp (tcp 0) < 2 ^ 16 := complementOfSum_lt _
  rw [whole, parts, wordSum_tcpHeader sourcePort destinationPort sequence acknowledgment flags word, whole 0, parts]
  rw [Nat.add_right_comm, ← Nat.add_assoc]
  exact complementOfSum_complete _

/-! ### The frame -/

theorem readBe16_be16 {memory : Memory} {offset value : Nat} (word : value < 2 ^ 16)
    (bytes : window memory offset 2 = be16 value) : readBe16 memory offset = value := by
  have high : memory offset = UInt8.ofNat (value / 2 ^ 8) := congrArg (byteAt · 0) bytes
  have low : memory (offset + 1) = UInt8.ofNat value := congrArg (byteAt · 1) bytes
  rw [readBe16, high, low, UInt8.toNat_ofNat', UInt8.toNat_ofNat']
  omega

theorem readBe32_be32 {memory : Memory} {offset value : Nat} (word : value < 2 ^ 32)
    (bytes : window memory offset 4 = be32 value) : readBe32 memory offset = value := by
  have first : memory offset = UInt8.ofNat (value / 2 ^ 24) := congrArg (byteAt · 0) bytes
  have second : memory (offset + 1) = UInt8.ofNat (value / 2 ^ 16) := congrArg (byteAt · 1) bytes
  have third : memory (offset + 2) = UInt8.ofNat (value / 2 ^ 8) := congrArg (byteAt · 2) bytes
  have fourth : memory (offset + 3) = UInt8.ofNat value := congrArg (byteAt · 3) bytes
  rw [readBe32, first, second, third, fourth, UInt8.toNat_ofNat', UInt8.toNat_ofNat', UInt8.toNat_ofNat',
    UInt8.toNat_ofNat']
  omega

theorem window_part (before part after : List UInt8) :
    window (byteAt (before ++ (part ++ after))) before.length part.length = part := by
  have behind : slice (before ++ (part ++ after)) (before.length + 0) part.length = slice (part ++ after) 0 part.length :=
    slice_append_right
  have first : slice (part ++ after) 0 part.length = slice part 0 part.length := slice_append_left (by omega)
  rw [Nat.add_zero, first, slice_whole, slice_eq_window (by simp only [List.length_append]; omega)] at behind
  exact behind

section Frame

variable {net : VirtioNet} {targetIp : Ip} {nextHopMac : Mac} {sourcePort destinationPort : UInt16}
  {sequence acknowledgment : UInt32} {flags : UInt8} {payload : Option Memory} {payloadLength : Nat}

theorem buildTcpSegment_parts (short : payloadLength ≤ 1460)
    (pointer : payload.isSome ∨ payloadLength = 0) :
    let data := payloadBytes payload payloadLength
    let ipv4 := ipv4Header net.ip targetIp (40 + payloadLength)
    let tcp := fun checksum => tcpHeader sourcePort.toNat destinationPort.toNat sequence.toNat acknowledgment.toNat flags
      checksum ++ data
    buildTcpSegment net targetIp nextHopMac sourcePort.toNat destinationPort.toNat sequence.toNat acknowledgment.toNat
        flags payload payloadLength =
      (nextHopMac.bytes ++ (if net.hasMac then net.mac else fallbackMac).bytes ++ be16 ETHERTYPE_IPV4 ++
        ipv4 (internetChecksum (ipv4 0)) ++ tcp (tcpChecksum net.ip targetIp (tcp 0)), max 60 (54 + payloadLength)) := by
  intro data ipv4 tcp
  have tcpLength : (20 + payloadLength) % 2 ^ 16 = 20 + payloadLength := Nat.mod_eq_of_lt (by omega)
  have ipv4Length : (20 + (20 + payloadLength)) % 2 ^ 16 = 40 + payloadLength := by omega
  have size : data.length = payloadLength := by
    cases payload with
    | some bytes => exact window_length _ _ _
    | none => exact (pointer.resolve_left Bool.false_ne_true).symm
  have whole : window (byteAt (tcp 0)) 0 (20 + payloadLength) = tcp 0 := by
    have all := window_part [] (tcp 0) []
    have length : (tcp 0).length = 20 + payloadLength := by
      rw [List.length_append, size]
      rfl
    rw [List.append_nil, length] at all
    exact all
  unfold buildTcpSegment
  dsimp only
  rw [tcpLength, ipv4Length]
  refine Prod.ext ?_ ?_
  · dsimp only
    rw [show window (byteAt (tcpHeader _ _ _ _ _ 0 ++ data)) 0 (20 + payloadLength) = tcp 0 from whole]
  · dsimp only
    split
    next small => rw [Nat.max_eq_left (by omega)]
    next large => rw [Nat.max_eq_right (by omega)]; omega

theorem tcpSegment_frame (source : Mac) (checksum tcpChecksum size : Nat) {data : List UInt8}
    (short : data.length ≤ 1460) (padded : 54 + data.length ≤ size) :
    tcpSegment (byteAt (nextHopMac.bytes ++ source.bytes ++ be16 ETHERTYPE_IPV4 ++
        ipv4Header net.ip targetIp (40 + data.length) checksum ++
        (tcpHeader sourcePort.toNat destinationPort.toNat sequence.toNat acknowledgment.toNat flags tcpChecksum ++
          data))) size 20 =
      some
        { clientMac := source, sourceIp := net.ip, targetIp, sourcePort := sourcePort.toNat
          destinationPort := destinationPort.toNat, sequence := sequence.toNat, flags, payload := data } := by
  let before := nextHopMac.bytes ++ source.bytes ++ be16 ETHERTYPE_IPV4 ++
    ipv4Header net.ip targetIp (40 + data.length) checksum
  let header := tcpHeader sourcePort.toNat destinationPort.toNat sequence.toNat acknowledgment.toNat flags tcpChecksum
  let frame := byteAt (before ++ (header ++ data))
  have total : readBe16 (rest frame 14) 2 = 40 + data.length := readBe16_be16 (by omega) rfl
  have first : readBe16 (rest (rest frame 14) 20) 0 = sourcePort.toNat := readBe16_be16 sourcePort.toNat_lt rfl
  have second : readBe16 (rest (rest frame 14) 20) 2 = destinationPort.toNat :=
    readBe16_be16 destinationPort.toNat_lt rfl
  have third : readBe32 (rest (rest frame 14) 20) 4 = sequence.toNat := readBe32_be32 sequence.toNat_lt rfl
  have behind : window (rest (rest frame 14) 20) 20 data.length = data := by
    have all := window_part (before ++ header) data []
    rw [List.append_nil, List.append_assoc] at all
    rw [window_rest, window_rest]
    exact all
  have offset : rest (rest frame 14) 20 12 = 0x50 := rfl
  have headerLength : (rest (rest frame 14) 20 12).toNat / 2 ^ 4 * 4 = 20 := by
    rw [offset]
    rfl
  change tcpSegment frame size 20 = _
  unfold tcpSegment
  dsimp only
  rw [total, headerLength, if_neg (by omega), if_neg (by omega), first, second, third,
    show 40 + data.length - 20 - 20 = data.length by omega, behind]
  rfl

/-- The checksums of a frame hold, and what is taken from it on receipt is what it was built from. -/
theorem buildTcpSegment_received {net : VirtioNet} {targetIp : Ip} (short : payloadLength ≤ 1460)
    (pointer : payload.isSome ∨ payloadLength = 0) :
    let built := buildTcpSegment net targetIp nextHopMac sourcePort.toNat destinationPort.toNat sequence.toNat
      acknowledgment.toNat flags payload payloadLength
    let ipv4 := rest (byteAt built.1) 14
    internetChecksum (window ipv4 0 20) = 0 ∧
      tcpChecksum (ipAt ipv4 12) (ipAt ipv4 16) (window ipv4 20 (readBe16 ipv4 2 - 20)) = 0 ∧
      ∀ steps transmitted s, handleIpv4Frame steps transmitted s (byteAt built.1) built.2 =
        .ok (handleTcp transmitted s
          { clientMac := if net.hasMac then net.mac else fallbackMac, sourceIp := net.ip, targetIp
            sourcePort := sourcePort.toNat, destinationPort := destinationPort.toNat, sequence := sequence.toNat, flags
            payload := payloadBytes payload payloadLength }) := by
  intro built ipv4
  have size : (payloadBytes payload payloadLength).length = payloadLength := by
    cases payload with
    | some bytes => exact window_length _ _ _
    | none => exact (pointer.resolve_left Bool.false_ne_true).symm
  have parts := @buildTcpSegment_parts net targetIp nextHopMac sourcePort destinationPort sequence acknowledgment flags
    payload payloadLength short pointer
  have header := internetChecksum_verifies net.ip targetIp (40 + payloadLength)
  have segment := @tcpChecksum_verifies net.ip targetIp sourcePort.toNat destinationPort.toNat sequence.toNat
    acknowledgment.toNat flags (payloadBytes payload payloadLength) (by omega)
  dsimp only at parts segment
  -- The checksums play no part in what follows.
  generalize internetChecksum (ipv4Header net.ip targetIp (40 + payloadLength) 0) = checksum at parts header
  generalize tcpChecksum net.ip targetIp (_ ++ payloadBytes payload payloadLength) = last at parts segment
  let before := nextHopMac.bytes ++ (if net.hasMac then net.mac else fallbackMac).bytes ++ be16 ETHERTYPE_IPV4
  let first := ipv4Header net.ip targetIp (40 + payloadLength) checksum
  let tcp := tcpHeader sourcePort.toNat destinationPort.toNat sequence.toNat acknowledgment.toNat flags last ++
    payloadBytes payload payloadLength
  have frame : built.1 = before ++ first ++ tcp := congrArg Prod.fst parts
  have length : built.2 = max 60 (54 + payloadLength) := congrArg Prod.snd parts
  have tcpSize : tcp.length = 20 + payloadLength := by
    rw [List.length_append, size]
    rfl
  have total : readBe16 ipv4 2 = 40 + payloadLength := by
    change readBe16 (rest (byteAt built.1) 14) 2 = _
    rw [frame]
    exact readBe16_be16 (by omega) rfl
  have addresses : ipAt ipv4 12 = net.ip ∧ ipAt ipv4 16 = targetIp := by
    change ipAt (rest (byteAt built.1) 14) 12 = _ ∧ ipAt (rest (byteAt built.1) 14) 16 = _
    rw [frame]
    exact ⟨rfl, rfl⟩
  have headerWindow : window ipv4 0 20 = first := by
    have part := window_part before first tcp
    rw [← List.append_assoc, ← frame] at part
    exact part
  have tcpWindow : window ipv4 20 (20 + payloadLength) = tcp := by
    have part := window_part (before ++ first) tcp []
    rw [List.append_nil, ← frame, tcpSize] at part
    rw [window_rest]
    exact part
  refine ⟨?_, ?_, fun steps transmitted s => ?_⟩
  · rw [headerWindow]
    exact header
  · rw [addresses.1, addresses.2, total, show 40 + payloadLength - 20 = 20 + payloadLength by omega, tcpWindow]
    exact segment
  · have found := @tcpSegment_frame net targetIp nextHopMac sourcePort destinationPort sequence acknowledgment flags
      (if net.hasMac then net.mac else fallbackMac) checksum last built.2 (payloadBytes payload payloadLength) (by omega)
      (by omega)
    rw [size] at found
    change tcpSegment (byteAt (before ++ first ++ tcp)) built.2 20 = _ at found
    rw [← frame] at found
    have version : rest (byteAt built.1) 14 0 = 0x45 := by rw [frame]; rfl
    have protocol : rest (byteAt built.1) 14 9 = IPV4_PROTOCOL_TCP := by rw [frame]; rfl
    have headerLength : (rest (byteAt built.1) 14 0).toNat % 2 ^ 4 * 4 = 20 := by
      rw [version]
      rfl
    have four : (rest (byteAt built.1) 14 0).toNat / 2 ^ 4 = 4 := by
      rw [version]
      rfl
    unfold handleIpv4Frame
    dsimp only
    rw [headerLength, if_neg (by omega), four, protocol, if_neg (by decide), if_neg (by omega), if_neg (by decide),
      if_pos rfl, found]
    rfl

end Frame

/-- A frame with three bytes, which is padded. -/
theorem buildTcpSegment_received_short :
    let built := buildTcpSegment quietNet gatewayIp fallbackMac (49153 : UInt16).toNat (80 : UInt16).toNat
      (7 : UInt32).toNat (9 : UInt32).toNat 0x18 (some (byteAt [0x47, 0x45, 0x54])) 3
    let ipv4 := rest (byteAt built.1) 14
    internetChecksum (window ipv4 0 20) = 0 ∧
      tcpChecksum (ipAt ipv4 12) (ipAt ipv4 16) (window ipv4 20 (readBe16 ipv4 2 - 20)) = 0 ∧
      ∀ steps transmitted s, handleIpv4Frame steps transmitted s (byteAt built.1) built.2 =
        .ok (handleTcp transmitted s
          { clientMac := if quietNet.hasMac then quietNet.mac else fallbackMac, sourceIp := quietNet.ip
            targetIp := gatewayIp, sourcePort := (49153 : UInt16).toNat, destinationPort := (80 : UInt16).toNat
            sequence := (7 : UInt32).toNat, flags := 0x18
            payload := payloadBytes (some (byteAt [0x47, 0x45, 0x54])) 3 }) :=
  buildTcpSegment_received (by decide) (Or.inl rfl)

end AsasOs.Net
