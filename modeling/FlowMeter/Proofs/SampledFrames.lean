import FlowMeter.Frame.Sample
import Mathlib.Data.Option.Basic
/-!
# Which frames are sampled

A sample is taken by a walk over the headers of its own.  It comes to the same as the classification of the frame
(`Sample.ofFrame?_iff_classified`): both walks end at a whole datagram header (`Datagram`), and where the frame cuts that header
short, the classification goes on with port zero, which no sample is taken of.
-/
namespace FlowMeter

/-- The frame holds the whole header of a datagram to the port, behind the options of its network header. -/
structure Datagram (frame : Octets) (port : UInt16) (link : Header.Ethernet) (network : Header.Ipv4) (header : Header.Udp) :
    Prop where
  hasLink : Header.Ethernet.layout.readAt? frame 0 = some link
  isIpv4 : link.etherType = EtherType.ipv4
  hasNetwork : Header.Ipv4.layout.readAt? frame Header.Ethernet.layout.size = some network
  isUdp : network.protocol = Protocol.udp
  hasHeader : Header.Udp.layout.readAt? frame (Header.Ethernet.layout.size + network.transportOffset) = some header
  goesTo : header.dstPort = port

namespace Transport

/-- **A port that is not zero comes from a whole header.** -/
theorem dstPort_ofFrame_udp_iff (frame : Octets) (offset : Nat) (direction : Direction) {port : UInt16} (hport : port ≠ 0) :
    (ofFrame frame offset direction Protocol.udp).dstPort = port ↔
      ∃ header, Header.Udp.layout.readAt? frame offset = some header ∧ header.dstPort = port := by
  have hread : ofFrame frame offset direction Protocol.udp =
      ((Header.Udp.layout.readAt? frame offset).map ofUdp).getD {} := rfl
  rw [hread]
  cases Header.Udp.layout.readAt? frame offset with
  | none => simp [Ne.symm hport]
  | some header => simp [ofUdp]

end Transport

namespace Classified

variable {frame : Octets} {direction : Direction} {interface : UInt32}

theorem eq_of_ofFrame?_ipv4 {c : Classified} (h : ofFrame? frame direction interface = some c)
    (htype : c.id.etherType = EtherType.ipv4) :
    ∃ link network, Header.Ethernet.layout.readAt? frame 0 = some link ∧ link.etherType = EtherType.ipv4 ∧
      Header.Ipv4.layout.readAt? frame Header.Ethernet.layout.size = some network ∧
      c = (ofLink link direction interface).withNetwork (Ip.ofIpv4 network.src) (Ip.ofIpv4 network.dst) network.protocol
        (Transport.ofFrame frame (Header.Ethernet.layout.size + network.transportOffset) direction network.protocol) := by
  unfold ofFrame? at h
  obtain ⟨link, hlink, h⟩ := Option.bind_eq_some_iff.1 h
  dsimp only at h
  split at h
  · rename_i hipv4
    obtain ⟨network, hnetwork, h⟩ := Option.bind_eq_some_iff.1 h
    exact ⟨link, network, hlink, hipv4, hnetwork, (Option.some.inj h).symm⟩
  -- the type of the frame is that of its link header
  · rename_i hother
    split at h
    · obtain ⟨network, -, h⟩ := Option.bind_eq_some_iff.1 h
      cases h
      exact absurd htype hother
    · cases h
      exact absurd htype hother

theorem ofFrame?_of_ipv4 {link : Header.Ethernet} {network : Header.Ipv4}
    (hlink : Header.Ethernet.layout.readAt? frame 0 = some link) (htype : link.etherType = EtherType.ipv4)
    (hnetwork : Header.Ipv4.layout.readAt? frame Header.Ethernet.layout.size = some network) :
    ofFrame? frame direction interface =
      some ((ofLink link direction interface).withNetwork (Ip.ofIpv4 network.src) (Ip.ofIpv4 network.dst) network.protocol
        (Transport.ofFrame frame (Header.Ethernet.layout.size + network.transportOffset) direction network.protocol)) := by
  unfold ofFrame?
  simp [hlink, htype, hnetwork]

/-- **A frame is classified as a datagram to a port just if it holds the header of one.** -/
theorem ofFrame?_datagram_iff {port : UInt16} (hport : port ≠ 0) :
    (∃ c, ofFrame? frame direction interface = some c ∧ c.id.etherType = EtherType.ipv4 ∧ c.id.protocol = Protocol.udp ∧
        c.id.dstPort = port) ↔
      ∃ link network header, Datagram frame port link network header := by
  constructor
  · rintro ⟨c, hc, htype, hprotocol, hdst⟩
    obtain ⟨link, network, hlink, hipv4, hnetwork, rfl⟩ := eq_of_ofFrame?_ipv4 hc htype
    have hprotocol : network.protocol = Protocol.udp := hprotocol
    have hdst : (Transport.ofFrame frame (Header.Ethernet.layout.size + network.transportOffset) direction
      network.protocol).dstPort = port := hdst
    rw [hprotocol, Transport.dstPort_ofFrame_udp_iff _ _ _ hport] at hdst
    obtain ⟨header, hheader, hdst⟩ := hdst
    exact ⟨link, network, header, hlink, hipv4, hnetwork, hprotocol, hheader, hdst⟩
  · rintro ⟨link, network, header, h⟩
    refine ⟨_, ofFrame?_of_ipv4 h.hasLink h.isIpv4 h.hasNetwork, h.isIpv4, h.isUdp, ?_⟩
    have hdst := (Transport.dstPort_ofFrame_udp_iff frame _ direction hport).2 ⟨header, h.hasHeader, h.goesTo⟩
    rw [← h.isUdp] at hdst
    exact hdst

end Classified

namespace Sample

variable {frame : Octets} {interface : UInt32}

/-- **A sample is taken of just the frames that hold the header of a datagram to its port.** -/
theorem ofFrame?_eq_some_iff (m : Sample) :
    ofFrame? frame interface = some m ↔
      (∃ link network header, Datagram frame port link network header) ∧ m = ⟨interface, UInt32.ofNat frame.length⟩ := by
  constructor
  · intro h
    unfold ofFrame? at h
    obtain ⟨link, hlink, h⟩ := Option.bind_eq_some_iff.1 h
    obtain ⟨network, hnetwork, h⟩ := Option.bind_eq_some_iff.1 h
    obtain ⟨_, hguard, h⟩ := Option.bind_eq_some_iff.1 h
    obtain ⟨header, hheader, h⟩ := Option.bind_eq_some_iff.1 h
    obtain ⟨_, hport, h⟩ := Option.bind_eq_some_iff.1 h
    obtain ⟨htype, hprotocol⟩ := (Option.guard_eq_some' _).1 hguard
    have hport := (Option.guard_eq_some' _).1 hport
    exact ⟨⟨link, network, header, hlink, htype, hnetwork, hprotocol, hheader, hport⟩, (Option.some.inj h).symm⟩
  · rintro ⟨⟨link, network, header, h⟩, rfl⟩
    have hguard := (Option.guard_eq_some' ()).2 (And.intro h.isIpv4 h.isUdp)
    have hport := (Option.guard_eq_some' ()).2 h.goesTo
    unfold ofFrame?
    simp [h.hasLink, h.hasNetwork, hguard, h.hasHeader, hport]

/-- Of a classified frame, the classification says whether a sample is taken. -/
theorem ofFrame?_eq_some_iff_of_classified {direction : Direction} {c : Classified}
    (h : Classified.ofFrame? frame direction interface = some c) (m : Sample) :
    ofFrame? frame interface = some m ↔
      (c.id.etherType = EtherType.ipv4 ∧ c.id.protocol = Protocol.udp ∧ c.id.dstPort = port) ∧
        m = ⟨interface, UInt32.ofNat frame.length⟩ := by
  rw [ofFrame?_eq_some_iff, ← Classified.ofFrame?_datagram_iff (by decide : port ≠ 0), h]
  simp only [Option.some.injEq, exists_eq_left']

/-- **Sampling and classification agree.**  Whatever the frame, as long as its length is a number of thirty-two bits, a sample is
taken of it just if it is classified as a datagram of version 4 to port 53, in either direction, and the sample has the interface
of the frame and its length. -/
theorem ofFrame?_iff_classified (frame : Octets) (hlength : frame.length < UInt32.size) (direction : Direction)
    (interface : UInt32) :
    ((ofFrame? frame interface).isSome ↔
        ∃ c, Classified.ofFrame? frame direction interface = some c ∧ c.id.etherType = 0x0800 ∧ c.id.protocol = 17 ∧
          c.id.dstPort = 53) ∧
      ∀ m, ofFrame? frame interface = some m → m.interface = interface ∧ m.length.toNat = frame.length := by
  have hclassified : (∃ c, Classified.ofFrame? frame direction interface = some c ∧ c.id.etherType = 0x0800 ∧
      c.id.protocol = 17 ∧ c.id.dstPort = 53) ↔ ∃ link network header, Datagram frame port link network header :=
    Classified.ofFrame?_datagram_iff (by decide)
  constructor
  · rw [hclassified, Option.isSome_iff_exists]
    constructor
    · rintro ⟨m, hm⟩
      exact ((ofFrame?_eq_some_iff m).1 hm).1
    · intro hdatagram
      exact ⟨_, (ofFrame?_eq_some_iff _).2 ⟨hdatagram, rfl⟩⟩
  · intro m hm
    obtain ⟨-, rfl⟩ := (ofFrame?_eq_some_iff m).1 hm
    exact ⟨rfl, UInt32.toNat_ofNat_of_lt' hlength⟩

/-- Four octets of options stand before the datagram's header, of which the shorter frame lacks the last octet. -/
theorem ofFrame?_iff_classified_options :
    let frame := Header.Ethernet.layout.encode
        { dst := Vector.replicate 6 0, src := Vector.replicate 6 0, etherType := 0x0800 } ++
      Header.Ipv4.layout.encode
        { versionIhl := 0x46, serviceType := 0, totalLength := 32, identification := 0, fragment := 0, timeToLive := 64
          protocol := 17, checksum := 0, src := #v[10, 0, 0, 1], dst := #v[10, 0, 0, 2] } ++
      [0, 0, 0, 0] ++ Header.Udp.layout.encode { srcPort := 40000, dstPort := 53, length := 8, checksum := 0 }
    frame.length < UInt32.size ∧ (frame.take 45).length < UInt32.size ∧
      (∃ c, Classified.ofFrame? frame .ingress 3 = some c ∧ c.id.etherType = 0x0800 ∧ c.id.protocol = 17 ∧
        c.id.dstPort = 53) ∧
      (ofFrame? frame 3).isSome ∧
      ¬ ∃ c, Classified.ofFrame? (frame.take 45) .ingress 3 = some c ∧ c.id.etherType = 0x0800 ∧ c.id.protocol = 17 ∧
        c.id.dstPort = 53 := by
  intro frame
  have hlength : frame.length < UInt32.size := by decide
  have hshort : (frame.take 45).length < UInt32.size := by decide
  have hsampled : (ofFrame? frame 3).isSome := by decide
  have hnone : ¬ (ofFrame? (frame.take 45) 3).isSome := by decide
  refine ⟨hlength, hshort, (ofFrame?_iff_classified frame hlength .ingress 3).1.1 hsampled, hsampled, fun hc => hnone ?_⟩
  exact (ofFrame?_iff_classified (frame.take 45) hshort .ingress 3).1.2 hc

end Sample
end FlowMeter
