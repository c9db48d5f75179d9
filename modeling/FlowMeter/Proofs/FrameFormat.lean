import FlowMeter.Frame.Classified
/-!
# The format of frames

A frame is laid out from the fields of its headers, one behind the other, and from the octets that nobody looks into (`Laid`).
Every frame that is classified is laid out so, and its classification gives back the fields that were chosen
(`Classified.ofFrame?_octets`); the frames that are not classified are those that end before a header they need (`CutShort`).
-/
namespace FlowMeter

namespace Header

/-! The headers as they stand in a frame, numbers in network order. -/

def Ethernet.octets (h : Ethernet) : Octets := h.dst.toList ++ (h.src.toList ++ Octets.bigEndian 2 h.etherType.toNat)

def Ipv4.octets (h : Ipv4) : Octets :=
  [h.versionIhl] ++ ([h.serviceType] ++ (Octets.bigEndian 2 h.totalLength.toNat ++
    (Octets.bigEndian 2 h.identification.toNat ++ (Octets.bigEndian 2 h.fragment.toNat ++ ([h.timeToLive] ++ ([h.protocol] ++
      (Octets.bigEndian 2 h.checksum.toNat ++ (h.src.toList ++ h.dst.toList))))))))

def Ipv6.octets (h : Ipv6) : Octets :=
  Octets.bigEndian 4 h.versionClassLabel.toNat ++ (Octets.bigEndian 2 h.payloadLength.toNat ++ ([h.nextHeader] ++
    ([h.hopLimit] ++ (h.src.toList ++ h.dst.toList))))

def Tcp.octets (h : Tcp) : Octets :=
  Octets.bigEndian 2 h.srcPort.toNat ++ (Octets.bigEndian 2 h.dstPort.toNat ++ (Octets.bigEndian 4 h.sequence.toNat ++
    (Octets.bigEndian 4 h.acknowledged.toNat ++ ([h.dataOffset] ++ ([h.control] ++ (Octets.bigEndian 2 h.window.toNat ++
      (Octets.bigEndian 2 h.checksum.toNat ++ Octets.bigEndian 2 h.urgent.toNat)))))))

def Udp.octets (h : Udp) : Octets :=
  Octets.bigEndian 2 h.srcPort.toNat ++ (Octets.bigEndian 2 h.dstPort.toNat ++ (Octets.bigEndian 2 h.length.toNat ++
    Octets.bigEndian 2 h.checksum.toNat))

def Sctp.octets (h : Sctp) : Octets :=
  Octets.bigEndian 2 h.srcPort.toNat ++ (Octets.bigEndian 2 h.dstPort.toNat ++ (Octets.bigEndian 4 h.verificationTag.toNat ++
    Octets.bigEndian 4 h.checksum.toNat))

def Icmp.octets (h : Icmp) : Octets :=
  [h.type] ++ ([h.code] ++ (Octets.bigEndian 2 h.checksum.toNat ++ Octets.bigEndian 4 h.rest.toNat))

theorem Ipv4.encode_eq (h : Ipv4) : layout.encode h = h.octets := rfl
theorem Ipv6.encode_eq (h : Ipv6) : layout.encode h = h.octets := rfl

theorem Ethernet.length_octets (h : Ethernet) : h.octets.length = 14 := layout.length_encode h
theorem Ipv4.length_octets (h : Ipv4) : h.octets.length = 20 := layout.length_encode h
theorem Ipv6.length_octets (h : Ipv6) : h.octets.length = 40 := layout.length_encode h
theorem Tcp.length_octets (h : Tcp) : h.octets.length = 20 := layout.length_encode h
theorem Udp.length_octets (h : Udp) : h.octets.length = 8 := layout.length_encode h

theorem Ethernet.not_ipv4 (h : Ethernet) (htype : h.etherType = 0x86dd) : ¬ h.etherType = 0x0800 := by
  rw [htype]
  decide

/-- Octets of options behind the fixed part, as the low four bits of the first octet count them in words; there are none when they
count less than the fixed part has. -/
def Ipv4.optionLength (h : Ipv4) : Nat := 4 * (h.versionIhl.toNat % 16 - 5)

theorem Ipv4.announcedLength_eq (h : Ipv4) : h.announcedLength = 4 * (h.versionIhl.toNat % 16) := by
  have hnibble : (h.versionIhl &&& 0x0f).toNat = h.versionIhl.toNat % 16 := by
    rw [UInt8.toNat_and]
    exact Nat.and_two_pow_sub_one_eq_mod _ 4
  rw [announcedLength, hnibble, Nat.mul_comm]

theorem Ipv4.transportOffset_eq (h : Ipv4) : h.transportOffset = 20 + h.optionLength := by
  unfold transportOffset optionLength
  rw [announcedLength_eq, size_layout]
  omega

end Header

/-- A string that is long enough starts with a value. -/
theorem Layout.exists_encode_append {α : Type} (A : Layout α) {s : Octets} (h : A.size ≤ s.length) :
    ∃ a, s = A.encode a ++ s.drop A.size := by
  have hlength : (s.take A.size).length = A.size := by
    rw [List.length_take]
    omega
  refine ⟨A.decode (s.take A.size), ?_⟩
  rw [A.encode_decode _ hlength, List.take_append_drop]

/-- Nothing is read from behind the value. -/
theorem Layout.readAt?_take {α : Type} (A : Layout α) (s : Octets) {offset n : Nat} (h : offset + A.size ≤ n) :
    A.readAt? (s.take n) offset = A.readAt? s offset := by
  have hfits : offset + A.size ≤ (s.take n).length ↔ offset + A.size ≤ s.length := by
    rw [List.length_take]
    omega
  have hsame : ((s.take n).drop offset).take A.size = (s.drop offset).take A.size := by
    rw [List.drop_take, List.take_take, Nat.min_eq_left (by omega)]
  unfold readAt?
  simp only [hfits, hsame]

namespace Format

/-- A transport header, with the protocol that it belongs to. -/
inductive Segment where
  | tcp (h : Header.Tcp)
  | udp (h : Header.Udp)
  | sctp (h : Header.Sctp)
  | icmp (h : Header.Icmp)
  | icmpv6 (h : Header.Icmp)

/-- How long the header of a protocol is, if its headers are known. -/
def headerLength? (protocol : UInt8) : Option Nat :=
  if protocol = 6 then some 20
  else if protocol = 17 then some 8
  else if protocol = 132 then some 12
  else if protocol = 1 ∨ protocol = 58 then some 8
  else none

namespace Segment

def protocol : Segment → UInt8
  | tcp _ => 6
  | udp _ => 17
  | sctp _ => 132
  | icmp _ => 1
  | icmpv6 _ => 58

def octets : Segment → Octets
  | tcp h => h.octets
  | udp h => h.octets
  | sctp h => h.octets
  | icmp h | icmpv6 h => h.octets

/-- What the header tells, zero where its protocol has no such field. -/
def facts (direction : Direction) : Segment → Transport
  | tcp h =>
    { srcPort := h.srcPort, dstPort := h.dstPort, signal := ControlBits.signal h.control h.sequence direction }
  | udp h => { srcPort := h.srcPort, dstPort := h.dstPort }
  | sctp h => { srcPort := h.srcPort, dstPort := h.dstPort }
  | icmp h | icmpv6 h => { icmpType := h.type, icmpCode := h.code }

end Segment

/-- What stands behind the fixed part of a network header, with so many octets of options announced: a whole transport header and
whatever follows, or octets in which the protocol has no header or no room for it. -/
inductive Body (options : Nat) where
  | whole (before : Octets) (fills : before.length = options) (segment : Segment) (trailing : Octets)
  | bare (protocol : UInt8) (octets : Octets) (short : ∀ n ∈ headerLength? protocol, octets.length < options + n)

namespace Body

variable {options : Nat}

def protocol : Body options → UInt8
  | whole _ _ segment _ => segment.protocol
  | bare protocol _ _ => protocol

def octets : Body options → Octets
  | whole before _ segment trailing => before ++ segment.octets ++ trailing
  | bare _ octets _ => octets

def facts (direction : Direction) : Body options → Transport
  | whole _ _ segment _ => segment.facts direction
  | bare _ _ _ => {}

end Body

/-- What stands behind the link header. -/
inductive Network where
  | ipv4 (h : Header.Ipv4) (body : Body h.optionLength) (agrees : h.protocol = body.protocol)
  | ipv6 (h : Header.Ipv6) (body : Body 0) (agrees : h.nextHeader = body.protocol)
  | other (etherType : UInt16) (not4 : etherType ≠ 0x0800) (not6 : etherType ≠ 0x86dd) (octets : Octets)

namespace Network

def etherType : Network → UInt16
  | ipv4 .. => 0x0800
  | ipv6 .. => 0x86dd
  | other etherType _ _ _ => etherType

def octets : Network → Octets
  | ipv4 h body _ => h.octets ++ body.octets
  | ipv6 h body _ => h.octets ++ body.octets
  | other _ _ _ octets => octets

def srcIp : Network → Ip
  | ipv4 h _ _ => Ip.ofIpv4 h.src
  | ipv6 h _ _ => h.src
  | other .. => Vector.replicate 16 0

def dstIp : Network → Ip
  | ipv4 h _ _ => Ip.ofIpv4 h.dst
  | ipv6 h _ _ => h.dst
  | other .. => Vector.replicate 16 0

def protocol : Network → UInt8
  | ipv4 _ body _ => body.protocol
  | ipv6 _ body _ => body.protocol
  | other .. => 0

/-- What the transport header tells, if there is one. -/
def facts (direction : Direction) : Network → Transport
  | ipv4 _ body _ => body.facts direction
  | ipv6 _ body _ => body.facts direction
  | other .. => {}

end Network

/-- A frame laid out from its fields. -/
structure Laid where
  dst : Mac
  src : Mac
  network : Network

namespace Laid

def link (l : Laid) : Header.Ethernet where
  dst := l.dst
  src := l.src
  etherType := l.network.etherType

def octets (l : Laid) : Octets := l.link.octets ++ l.network.octets

/-- The flow of the frame, with the fields that the frame was laid out from. -/
def classified (l : Laid) (direction : Direction) (interface : UInt32) : Classified where
  id :=
    { etherType := l.network.etherType
      direction := direction.code
      srcMac := l.src
      dstMac := l.dst
      srcIp := l.network.srcIp
      dstIp := l.network.dstIp
      srcPort := (l.network.facts direction).srcPort
      dstPort := (l.network.facts direction).dstPort
      protocol := l.network.protocol
      icmpType := (l.network.facts direction).icmpType
      icmpCode := (l.network.facts direction).icmpCode
      interface }
  signal := (l.network.facts direction).signal

end Laid

/-- The frame ends before its link header does, or before the network header that its type announces. -/
def CutShort (frame : Octets) : Prop :=
  frame.length < 14 ∨ (frame.drop 12).take 2 = [0x08, 0x00] ∧ frame.length < 34 ∨
    (frame.drop 12).take 2 = [0x86, 0xdd] ∧ frame.length < 54

end Format

open Format (Segment Body Laid headerLength? CutShort)

namespace Transport

theorem ofFrame?_segment (before trailing : Octets) (s : Segment) (direction : Direction) :
    ofFrame? (before ++ s.octets ++ trailing) before.length direction s.protocol = some (s.facts direction) := by
  cases s with
  | tcp h => exact congrArg (Option.map (ofTcp · direction)) (Header.Tcp.layout.readAt?_append h before trailing)
  | udp h => exact congrArg (Option.map ofUdp) (Header.Udp.layout.readAt?_append h before trailing)
  | sctp h => exact congrArg (Option.map ofSctp) (Header.Sctp.layout.readAt?_append h before trailing)
  | icmp h => exact congrArg (Option.map ofIcmp) (Header.Icmp.layout.readAt?_append h before trailing)
  | icmpv6 h => exact congrArg (Option.map ofIcmp) (Header.Icmp.layout.readAt?_append h before trailing)

/-- Something is read just where the protocol has a header and there is room for it. -/
theorem ofFrame?_isSome_iff (frame : Octets) (offset : Nat) (direction : Direction) (protocol : UInt8) :
    (ofFrame? frame offset direction protocol).isSome ↔ ∃ n ∈ headerLength? protocol, offset + n ≤ frame.length := by
  unfold ofFrame? headerLength? Protocol.tcp Protocol.udp Protocol.sctp Protocol.icmp Protocol.icmpv6
  split
  · simp [Layout.readAt?_isSome_iff, Header.Tcp.size_layout]
  · split
    · simp [Layout.readAt?_isSome_iff, Header.Udp.size_layout]
    · split
      · simp [Layout.readAt?_isSome_iff, Header.Sctp.size_layout]
      · split
        · simp [Layout.readAt?_isSome_iff, Header.Icmp.size_layout]
        · simp

/-- Where a protocol has no header, or no room for it, nothing is known. -/
theorem ofFrame_short {frame : Octets} {offset : Nat} {protocol : UInt8}
    (h : ∀ n ∈ headerLength? protocol, frame.length < offset + n) (direction : Direction) :
    ofFrame frame offset direction protocol = {} := by
  have hnone : ofFrame? frame offset direction protocol = none := by
    rw [← Option.not_isSome_iff_eq_none, ofFrame?_isSome_iff]
    rintro ⟨n, hn, hle⟩
    have := h n hn
    omega
  rw [ofFrame, hnone]
  rfl

theorem ofFrame_body {options : Nat} (front : Octets) (body : Body options) (direction : Direction) :
    ofFrame (front ++ body.octets) (front.length + options) direction body.protocol = body.facts direction := by
  cases body with
  | whole before fills segment trailing =>
    have hfront : front ++ (before ++ segment.octets ++ trailing) = (front ++ before) ++ segment.octets ++ trailing := by
      simp only [List.append_assoc]
    unfold ofFrame
    simp only [Body.octets, Body.protocol, Body.facts]
    rw [hfront, ← fills, ← List.length_append, ofFrame?_segment]
    rfl
  | bare protocol octets short =>
    refine ofFrame_short (fun n hn => ?_) direction
    have := short n hn
    simp only [Body.octets, List.length_append]
    omega

end Transport

namespace Format

theorem headerLength?_cases {protocol : UInt8} {n : Nat} (h : n ∈ headerLength? protocol) :
    protocol = 6 ∧ n = 20 ∨ protocol = 17 ∧ n = 8 ∨ protocol = 132 ∧ n = 12 ∨ protocol = 1 ∧ n = 8 ∨
      protocol = 58 ∧ n = 8 := by
  unfold headerLength? at h
  grind

/-- Where there is room for its header, a protocol has one, whatever stands there. -/
theorem Segment.exists_of_room {protocol : UInt8} {n : Nat} (hn : n ∈ headerLength? protocol) {s : Octets}
    (h : n ≤ s.length) :
    ∃ (segment : Segment) (trailing : Octets), segment.protocol = protocol ∧ s = segment.octets ++ trailing := by
  rcases headerLength?_cases hn with ⟨rfl, rfl⟩ | ⟨rfl, rfl⟩ | ⟨rfl, rfl⟩ | ⟨rfl, rfl⟩ | ⟨rfl, rfl⟩
  · obtain ⟨header, hs⟩ := Header.Tcp.layout.exists_encode_append h
    exact ⟨.tcp header, _, rfl, hs⟩
  · obtain ⟨header, hs⟩ := Header.Udp.layout.exists_encode_append h
    exact ⟨.udp header, _, rfl, hs⟩
  · obtain ⟨header, hs⟩ := Header.Sctp.layout.exists_encode_append h
    exact ⟨.sctp header, _, rfl, hs⟩
  · obtain ⟨header, hs⟩ := Header.Icmp.layout.exists_encode_append h
    exact ⟨.icmp header, _, rfl, hs⟩
  · obtain ⟨header, hs⟩ := Header.Icmp.layout.exists_encode_append h
    exact ⟨.icmpv6 header, _, rfl, hs⟩

/-- Every string stands behind a network header, whatever it announces. -/
theorem Body.exists_of_octets (options : Nat) (protocol : UInt8) (octets : Octets) :
    ∃ body : Body options, body.protocol = protocol ∧ body.octets = octets := by
  by_cases hroom : ∃ n ∈ headerLength? protocol, options + n ≤ octets.length
  · obtain ⟨n, hn, hle⟩ := hroom
    have hfills : (octets.take options).length = options := by
      rw [List.length_take]
      omega
    have hrest : n ≤ (octets.drop options).length := by
      rw [List.length_drop]
      omega
    obtain ⟨segment, trailing, hprotocol, hoctets⟩ := Segment.exists_of_room hn hrest
    refine ⟨.whole (octets.take options) hfills segment trailing, hprotocol, ?_⟩
    rw [Body.octets, List.append_assoc, ← hoctets, List.take_append_drop]
  · exact ⟨.bare protocol octets fun n hn => Nat.lt_of_not_le fun hle => hroom ⟨n, hn, hle⟩, rfl, rfl⟩

theorem take_etherType (link : Header.Ethernet) (rest : Octets) :
    ((link.octets ++ rest).drop 12).take 2 = Octets.bigEndian 2 link.etherType.toNat := by
  have hoctets : link.octets ++ rest =
      (link.dst.toList ++ link.src.toList) ++ (Octets.bigEndian 2 link.etherType.toNat ++ rest) := by
    simp only [Header.Ethernet.octets, List.append_assoc]
  have hmacs : (link.dst.toList ++ link.src.toList).length = 12 := by simp
  rw [hoctets, List.drop_left' hmacs, List.take_left' (Octets.length_bigEndian ..)]

theorem bigEndian_eq_ipv4_iff (t : UInt16) : Octets.bigEndian 2 t.toNat = [0x08, 0x00] ↔ t = 0x0800 :=
  ⟨fun h => Layout.be16.encode_injective (h.trans rfl), fun h => h ▸ rfl⟩

theorem bigEndian_eq_ipv6_iff (t : UInt16) : Octets.bigEndian 2 t.toNat = [0x86, 0xdd] ↔ t = 0x86dd :=
  ⟨fun h => Layout.be16.encode_injective (h.trans rfl), fun h => h ▸ rfl⟩

theorem exists_link {frame : Octets} (h : 14 ≤ frame.length) :
    ∃ (link : Header.Ethernet) (rest : Octets), frame = link.octets ++ rest := by
  obtain ⟨link, hframe⟩ := Header.Ethernet.layout.exists_encode_append h
  exact ⟨link, _, hframe⟩

theorem cutShort_append_iff (link : Header.Ethernet) (rest : Octets) :
    CutShort (link.octets ++ rest) ↔
      link.etherType = 0x0800 ∧ rest.length < 20 ∨ link.etherType = 0x86dd ∧ rest.length < 40 := by
  unfold CutShort
  have h14 : ¬ 14 + rest.length < 14 := by omega
  have h34 : 14 + rest.length < 34 ↔ rest.length < 20 := by omega
  have h54 : 14 + rest.length < 54 ↔ rest.length < 40 := by omega
  rw [take_etherType, bigEndian_eq_ipv4_iff, bigEndian_eq_ipv6_iff, List.length_append, link.length_octets, h34, h54]
  simp only [h14, false_or]

/-- Every frame that is not cut short is laid out from some fields. -/
theorem Laid.exists_of_octets {frame : Octets} (h : ¬ CutShort frame) : ∃ l : Laid, l.octets = frame := by
  have hlink : 14 ≤ frame.length := Nat.le_of_not_lt fun hlt => h (Or.inl hlt)
  obtain ⟨⟨dst, src, etherType⟩, rest, rfl⟩ := exists_link hlink
  rw [cutShort_append_iff, not_or] at h
  obtain ⟨h4, h6⟩ := h
  by_cases ht4 : etherType = 0x0800
  · subst ht4
    have hle : 20 ≤ rest.length := Nat.le_of_not_lt fun hlt => h4 ⟨rfl, hlt⟩
    obtain ⟨h, hrest⟩ := Header.Ipv4.layout.exists_encode_append hle
    obtain ⟨body, hprotocol, hbody⟩ := Body.exists_of_octets h.optionLength h.protocol (rest.drop 20)
    refine ⟨⟨dst, src, .ipv4 h body hprotocol.symm⟩, congrArg (Header.Ethernet.octets _ ++ ·) ?_⟩
    rw [Network.octets, hbody]
    exact hrest.symm
  · by_cases ht6 : etherType = 0x86dd
    · subst ht6
      have hle : 40 ≤ rest.length := Nat.le_of_not_lt fun hlt => h6 ⟨rfl, hlt⟩
      obtain ⟨h, hrest⟩ := Header.Ipv6.layout.exists_encode_append hle
      obtain ⟨body, hprotocol, hbody⟩ := Body.exists_of_octets 0 h.nextHeader (rest.drop 40)
      refine ⟨⟨dst, src, .ipv6 h body hprotocol.symm⟩, congrArg (Header.Ethernet.octets _ ++ ·) ?_⟩
      rw [Network.octets, hbody]
      exact hrest.symm
    · exact ⟨⟨dst, src, .other etherType ht4 ht6 rest⟩, rfl⟩

end Format

namespace Classified

variable (link : Header.Ethernet) (direction : Direction) (interface : UInt32)

/-- The link header decides which header is read next. -/
theorem ofFrame?_append (rest : Octets) :
    ofFrame? (link.octets ++ rest) direction interface =
      if link.etherType = 0x0800 then
        (Header.Ipv4.layout.readAt? (link.octets ++ rest) 14).map fun h =>
          (ofLink link direction interface).withNetwork (Ip.ofIpv4 h.src) (Ip.ofIpv4 h.dst) h.protocol
            (Transport.ofFrame (link.octets ++ rest) (14 + h.transportOffset) direction h.protocol)
      else if link.etherType = 0x86dd then
        (Header.Ipv6.layout.readAt? (link.octets ++ rest) 14).map fun h =>
          (ofLink link direction interface).withNetwork h.src h.dst h.nextHeader
            (Transport.ofFrame (link.octets ++ rest) (14 + 40) direction h.nextHeader)
      else some (ofLink link direction interface) := by
  have hread : Header.Ethernet.layout.readAt? (link.octets ++ rest) 0 = some link :=
    Header.Ethernet.layout.readAt?_append link [] rest
  unfold ofFrame?
  rw [hread]
  simp only [Option.bind_eq_bind, Option.bind_some, Option.map_eq_bind]
  rfl

theorem ofFrame?_ipv4 (htype : link.etherType = 0x0800) (h : Header.Ipv4) (body : Body h.optionLength)
    (agrees : h.protocol = body.protocol) :
    ofFrame? (link.octets ++ (h.octets ++ body.octets)) direction interface =
      some ((ofLink link direction interface).withNetwork (Ip.ofIpv4 h.src) (Ip.ofIpv4 h.dst) body.protocol
        (body.facts direction)) := by
  have hnetwork := Header.Ipv4.layout.readAt?_append h link.octets body.octets
  have htransport := Transport.ofFrame_body (link.octets ++ h.octets) body direction
  rw [link.length_octets, List.append_assoc, Header.Ipv4.encode_eq] at hnetwork
  rw [List.length_append, link.length_octets, h.length_octets, List.append_assoc, Nat.add_assoc, ← h.transportOffset_eq]
    at htransport
  rw [ofFrame?_append, if_pos htype, hnetwork, Option.map_some, agrees, htransport]

theorem ofFrame?_ipv6 (htype : link.etherType = 0x86dd) (h : Header.Ipv6) (body : Body 0)
    (agrees : h.nextHeader = body.protocol) :
    ofFrame? (link.octets ++ (h.octets ++ body.octets)) direction interface =
      some ((ofLink link direction interface).withNetwork h.src h.dst body.protocol (body.facts direction)) := by
  have hnetwork := Header.Ipv6.layout.readAt?_append h link.octets body.octets
  have htransport := Transport.ofFrame_body (link.octets ++ h.octets) body direction
  rw [link.length_octets, List.append_assoc, Header.Ipv6.encode_eq] at hnetwork
  rw [List.length_append, link.length_octets, h.length_octets, List.append_assoc, Nat.add_zero] at htransport
  rw [ofFrame?_append, if_neg (link.not_ipv4 htype), if_pos htype, hnetwork, Option.map_some, agrees, htransport]

/-- **A frame is classified by the fields it was laid out from.** -/
theorem ofFrame?_octets (l : Laid) :
    ofFrame? l.octets direction interface = some (l.classified direction interface) := by
  obtain ⟨dst, src, network⟩ := l
  cases network with
  | ipv4 h body agrees => exact ofFrame?_ipv4 ⟨dst, src, 0x0800⟩ direction interface rfl h body agrees
  | ipv6 h body agrees => exact ofFrame?_ipv6 ⟨dst, src, 0x86dd⟩ direction interface rfl h body agrees
  | other etherType not4 not6 octets =>
    refine (ofFrame?_append ⟨dst, src, etherType⟩ direction interface octets).trans ?_
    rw [if_neg not4, if_neg not6]
    rfl

theorem ofFrame?_cutShort {frame : Octets} (h : CutShort frame) : ofFrame? frame direction interface = none := by
  by_cases hlink : frame.length < 14
  · unfold ofFrame?
    rw [(Header.Ethernet.layout.readAt?_eq_none_iff frame 0).2 (by rw [Header.Ethernet.size_layout]; omega)]
    rfl
  · obtain ⟨link, rest, rfl⟩ := Format.exists_link (Nat.le_of_not_lt hlink)
    have hlength : (link.octets ++ rest).length = 14 + rest.length := by rw [List.length_append, link.length_octets]
    rw [ofFrame?_append]
    rcases (Format.cutShort_append_iff link rest).1 h with ⟨htype, hlt⟩ | ⟨htype, hlt⟩
    · rw [if_pos htype, (Header.Ipv4.layout.readAt?_eq_none_iff ..).2]
      · rfl
      · rw [hlength, Header.Ipv4.size_layout]
        omega
    · rw [if_neg (link.not_ipv4 htype), if_pos htype, (Header.Ipv6.layout.readAt?_eq_none_iff ..).2]
      · rfl
      · rw [hlength, Header.Ipv6.size_layout]
        omega

/-- **Frames are read as they are written.**  A frame is not classified just if it ends before its link header does or before the
network header that its type announces.  Every other frame is laid out from fields in the one format, and whatever fields a frame
is laid out from, its classification has these fields: addresses, ports, message type and code, what the control bits and the
sequence number of a segment tell, the direction and the interface that were given, and zero for all that the frame does not
carry. -/
theorem ofFrame?_exact (frame : Octets) :
    (ofFrame? frame direction interface = none ↔ CutShort frame) ∧
      ∀ c, ofFrame? frame direction interface = some c ↔
        ∃ l : Laid, l.octets = frame ∧ l.classified direction interface = c := by
  by_cases h : CutShort frame
  · have hnone := ofFrame?_cutShort direction interface h
    refine ⟨⟨fun _ => h, fun _ => hnone⟩, fun c => ⟨fun hc => ?_, ?_⟩⟩
    · rw [hnone] at hc
      cases hc
    · rintro ⟨l, rfl, -⟩
      rw [ofFrame?_octets] at hnone
      cases hnone
  · obtain ⟨l, rfl⟩ := Format.Laid.exists_of_octets h
    have hsome := ofFrame?_octets direction interface l
    refine ⟨⟨fun hnone => ?_, fun hshort => absurd hshort h⟩, fun c => ⟨fun hc => ?_, ?_⟩⟩
    · rw [hsome] at hnone
      cases hnone
    · exact ⟨l, rfl, Option.some.inj (hsome.symm.trans hc)⟩
    · rintro ⟨l', hoctets, rfl⟩
      rw [← hoctets, ofFrame?_octets]

end Classified
end FlowMeter
