import FlowMeter.Proofs.ShardChanges
/-!
# What frames tell of connections

A frame tells of its connection by a segment of TCP over IP, or not at all.  Its direction stands in the identity of its flow and
decides what a bare acknowledgement means, and nothing else (`Packet.exists_segment`).  A signal has one flag at most; the flag of an
answered request always establishes a connection, and only an acknowledgement may do so besides (`Signal.Sound`).
-/
namespace FlowMeter

namespace ControlBits

/-- The flag of a segment stands in the rules. -/
theorem flag_cases (control : UInt8) : flag control = 0 ∨ flag control ∈ rules.map Prod.snd := by
  unfold flag
  cases h : rules.find? fun rule => control &&& rule.1 = rule.1 with
  | none => exact .inl rfl
  | some rule => exact .inr (List.mem_map_of_mem (List.mem_of_find?_eq_some h))

end ControlBits

namespace Signal

open ControlBits (ackFlag synAckFlag)

/-- The flags are known ones, a connection is established by an acknowledgement, and by every answered request. -/
structure Sound (s : Signal) : Prop where
  known : s.flags &&& 0x7ff = s.flags
  acknowledged : s.handshake = true → s.flags = synAckFlag ∨ s.flags = ackFlag
  answered : s.flags &&& synAckFlag ≠ 0 → s.handshake = true

/-- What a segment with these control bits and this sequence number tells, if there is one. -/
def ofSegment? (segment : Option (UInt8 × UInt32)) (direction : Direction) : Signal :=
  match segment with
  | some (control, sequence) => ControlBits.signal control sequence direction
  | none => {}

theorem sound_ofSegment? (segment : Option (UInt8 × UInt32)) (direction : Direction) : (ofSegment? segment direction).Sound := by
  cases segment with
  | none => exact ⟨UInt16.zero_and, fun h => (by cases h), fun h => (h UInt16.zero_and).elim⟩
  | some s =>
    obtain ⟨control, sequence⟩ := s
    have hrules : (ControlBits.rules.map Prod.snd).all
        (fun f => f &&& 0x7ff = f ∧ (f &&& synAckFlag ≠ 0 → f = synAckFlag)) = true := by decide
    have hflag : ControlBits.flag control &&& 0x7ff = ControlBits.flag control ∧
        (ControlBits.flag control &&& synAckFlag ≠ 0 → ControlBits.flag control = synAckFlag) := by
      rcases ControlBits.flag_cases control with h | h
      · rw [h]
        decide
      · exact of_decide_eq_true (List.all_eq_true.1 hrules _ h)
    refine ⟨hflag.1, fun h => ?_, fun h => ?_⟩
    · exact (of_decide_eq_true h).imp_right And.left
    · exact decide_eq_true (.inl (hflag.2 h))

theorem flags_ofSegment? (segment : Option (UInt8 × UInt32)) (d d' : Direction) :
    (ofSegment? segment d).flags = (ofSegment? segment d').flags := by
  cases segment <;> rfl

/-- **What establishes a connection on the way out does so on the way in.** -/
theorem handshake_ingress {segment : Option (UInt8 × UInt32)} (h : (ofSegment? segment .egress).handshake = true) :
    (ofSegment? segment .ingress).handshake = true := by
  cases segment with
  | none => cases h
  | some s =>
    rcases of_decide_eq_true h with hanswer | ⟨-, hin, -⟩
    · exact decide_eq_true (.inl hanswer)
    · cases hin

end Signal

/-- The identity of the same flow in a direction. -/
def Flow.Id.toward (id : Flow.Id) (direction : Direction) : Flow.Id := { id with direction := direction.code }

/-- Packets of the flow are segments of TCP, over one of the two versions of IP. -/
structure Flow.Id.Segmented (id : Flow.Id) : Prop where
  protocol : id.protocol = Protocol.tcp
  etherType : id.etherType = EtherType.ipv4 ∨ id.etherType = EtherType.ipv6

/-- Of the facts of a transport header, only the signal of a segment depends on the direction. -/
theorem Transport.exists_segment (frame : Octets) (offset : Nat) (protocol : UInt8) :
    ∃ (t : Transport) (segment : Option (UInt8 × UInt32)), (segment.isSome = true → protocol = Protocol.tcp) ∧
      ∀ direction, ofFrame frame offset direction protocol = { t with signal := Signal.ofSegment? segment direction } := by
  unfold ofFrame ofFrame?
  by_cases htcp : protocol = Protocol.tcp
  · cases hread : Header.Tcp.layout.readAt? frame offset with
    | none => exact ⟨{}, none, fun _ => htcp, fun _ => by rw [if_pos htcp]; rfl⟩
    | some h =>
      exact ⟨{ srcPort := h.srcPort, dstPort := h.dstPort }, some (h.control, h.sequence), fun _ => htcp,
        fun _ => by rw [if_pos htcp]; rfl⟩
  · -- no other header is read with the direction, or has a signal
    refine ⟨(ofFrame? frame offset .ingress protocol).getD {}, none, fun h => (by cases h), fun direction => ?_⟩
    unfold ofFrame?
    rw [if_neg htcp, if_neg htcp]
    split
    · cases Header.Udp.layout.readAt? frame offset <;> rfl
    · split
      · cases Header.Sctp.layout.readAt? frame offset <;> rfl
      · split
        · cases Header.Icmp.layout.readAt? frame offset <;> rfl
        · rfl

/-- The direction of a frame is in its flow's identity and in the signal of its segment, and nowhere else. -/
theorem Classified.exists_segment (frame : Octets) (interface : UInt32) :
    (∀ direction, ofFrame? frame direction interface = none) ∨
      ∃ (id : Flow.Id) (segment : Option (UInt8 × UInt32)), (segment.isSome = true → id.Segmented) ∧
        ∀ direction, ofFrame? frame direction interface =
          some { id := id.toward direction, signal := Signal.ofSegment? segment direction } := by
  unfold ofFrame?
  cases Header.Ethernet.layout.readAt? frame 0 with
  | none => exact .inl fun _ => rfl
  | some link =>
    simp only [Option.bind_eq_bind, Option.bind_some]
    by_cases h4 : link.etherType = EtherType.ipv4
    · simp only [if_pos h4]
      cases Header.Ipv4.layout.readAt? frame Header.Ethernet.layout.size with
      | none => exact .inl fun _ => rfl
      | some h =>
        obtain ⟨t, segment, hsegment, ht⟩ :=
          Transport.exists_segment frame (Header.Ethernet.layout.size + h.transportOffset) h.protocol
        refine .inr ⟨((ofLink link .ingress interface).withNetwork (Ip.ofIpv4 h.src) (Ip.ofIpv4 h.dst) h.protocol t).id, segment,
          fun hs => ⟨hsegment hs, .inl h4⟩, fun direction => ?_⟩
        simp only [Option.bind_some, ht]
        rfl
    · simp only [if_neg h4]
      by_cases h6 : link.etherType = EtherType.ipv6
      · simp only [if_pos h6]
        cases Header.Ipv6.layout.readAt? frame Header.Ethernet.layout.size with
        | none => exact .inl fun _ => rfl
        | some h =>
          obtain ⟨t, segment, hsegment, ht⟩ :=
            Transport.exists_segment frame (Header.Ethernet.layout.size + Header.Ipv6.layout.size) h.nextHeader
          refine .inr ⟨((ofLink link .ingress interface).withNetwork h.src h.dst h.nextHeader t).id, segment,
            fun hs => ⟨hsegment hs, .inr h6⟩, fun direction => ?_⟩
          simp only [Option.bind_some, ht]
          rfl
      · simp only [if_neg h6]
        exact .inr ⟨(ofLink link .ingress interface).id, none, fun h => (by cases h), fun _ => rfl⟩

namespace Packet

/-- The packet as it would be in a direction. -/
def toward (p : Packet) (direction : Direction) : Packet := { p with direction }

/-- **What is observed of a packet, in whatever direction.** -/
theorem exists_segment (p : Packet) :
    (∀ direction time, (p.toward direction).observed? time = none) ∨
      ∃ (id : Flow.Id) (segment : Option (UInt8 × UInt32)), (segment.isSome = true → id.Segmented) ∧
        ∀ direction time, (p.toward direction).observed? time =
          some (id.toward direction,
            { size := p.length
              time
              flags := (Signal.ofSegment? segment direction).flags
              handshake := (Signal.ofSegment? segment direction).handshake }) := by
  rcases Classified.exists_segment p.frame p.interface with hnone | ⟨id, segment, hsegment, hframe⟩
  · refine .inl fun direction time => ?_
    show (Classified.ofFrame? p.frame direction p.interface).map _ = none
    rw [hnone]
    rfl
  · refine .inr ⟨id, segment, hsegment, fun direction time => ?_⟩
    show (Classified.ofFrame? p.frame direction p.interface).map _ = _
    rw [hframe]
    rfl

end Packet
end FlowMeter
