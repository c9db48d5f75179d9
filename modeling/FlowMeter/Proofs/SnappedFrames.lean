import FlowMeter.Proofs.Destinations
import FlowMeter.Proofs.FrameFormat
import FlowMeter.System.Capture
/-!
# Frames that were cut behind their headers

No header that counts ends behind the ninety-fourth octet of a frame, however long its options are, so the flow of a frame is that
of any copy of so many octets (`Classified.ofFrame?_take`).  A meter that takes the copies of a packet socket goes through the same
as one that takes the whole frames (`MeterRun.SameFate`).
-/
namespace FlowMeter

namespace Transport

theorem ofFrame_take (frame : Octets) {offset n : Nat} (h : offset + 20 ≤ n) (direction : Direction) (protocol : UInt8) :
    ofFrame (frame.take n) offset direction protocol = ofFrame frame offset direction protocol := by
  have hread : ∀ {α : Type} (A : Layout α), A.size ≤ 20 → A.readAt? (frame.take n) offset = A.readAt? frame offset := by
    intro α A hA
    exact A.readAt?_take frame (by omega)
  unfold ofFrame ofFrame?
  rw [hread Header.Tcp.layout (by decide), hread Header.Udp.layout (by decide), hread Header.Sctp.layout (by decide),
    hread Header.Icmp.layout (by decide)]

end Transport

theorem Header.Ipv4.transportOffset_le (h : Header.Ipv4) : h.transportOffset ≤ 60 := by
  rw [transportOffset_eq, optionLength]
  omega

/-- **What counts in a frame stands in its first ninety-four octets.** -/
theorem Classified.ofFrame?_take (frame : Octets) {n : Nat} (hn : 94 ≤ n) (direction : Direction) (interface : UInt32) :
    ofFrame? (frame.take n) direction interface = ofFrame? frame direction interface := by
  have hlink : Header.Ethernet.layout.readAt? (frame.take n) 0 = Header.Ethernet.layout.readAt? frame 0 :=
    Layout.readAt?_take _ frame (by rw [Header.Ethernet.size_layout]; omega)
  have hipv4 : Header.Ipv4.layout.readAt? (frame.take n) 14 = Header.Ipv4.layout.readAt? frame 14 :=
    Layout.readAt?_take _ frame (by rw [Header.Ipv4.size_layout]; omega)
  have hipv6 : Header.Ipv6.layout.readAt? (frame.take n) 14 = Header.Ipv6.layout.readAt? frame 14 :=
    Layout.readAt?_take _ frame (by rw [Header.Ipv6.size_layout]; omega)
  -- the transport header starts at most sixty octets behind the link header
  have hbehind4 : ∀ h : Header.Ipv4, Transport.ofFrame (frame.take n) (14 + h.transportOffset) direction h.protocol =
      Transport.ofFrame frame (14 + h.transportOffset) direction h.protocol := by
    intro h
    have := h.transportOffset_le
    exact Transport.ofFrame_take frame (by omega) direction h.protocol
  have hbehind6 : ∀ protocol, Transport.ofFrame (frame.take n) (14 + 40) direction protocol =
      Transport.ofFrame frame (14 + 40) direction protocol := fun protocol =>
    Transport.ofFrame_take frame (by omega) direction protocol
  unfold ofFrame?
  simp only [Header.Ethernet.size_layout, Header.Ipv6.size_layout, hlink, hipv4, hipv6, hbehind4, hbehind6]

/-- A meter makes no difference between a packet and a shorter copy of it. -/
theorem Meter.process_take (m : Meter) (clock : Clock) (q : Overflow.Queue) (refusal : Option Refusal) (p : Packet) {n : Nat}
    (hn : 94 ≤ n) : m.process clock q refusal { p with frame := p.frame.take n } = m.process clock q refusal p := by
  unfold process take
  rw [Classified.ofFrame?_take p.frame hn]

/-- What a meter behind a packet socket goes through: frames on the wire, with the kind that the system gives them, and whatever
else is done with the meter and its queue. -/
inductive WireStep where
  | frame (octets : Octets) (kind : UInt8) (clock : Clock) (refusal : Option Refusal)
  | evict
  | drain
  | close

namespace WireStep

/-- The step of a meter that gets its packets so. -/
def toMeter (packet : Octets → UInt8 → Packet) : WireStep → MeterStep
  | frame octets kind clock refusal => .process clock refusal (packet octets kind)
  | evict => .evict
  | drain => .drain
  | close => .close

end WireStep

namespace MeterRun

/-- Both runs have come to the same, packet by packet. -/
structure SameFate (t u : MeterRun) : Prop where
  meter : t.meter = u.meter
  queue : t.queue = u.queue
  outcomes : t.outcomes.map Prod.snd = u.outcomes.map Prod.snd
  evicted : t.evicted = u.evicted
  drained : t.drained = u.drained

namespace SameFate

variable {t u : MeterRun}

theorem refl (t : MeterRun) : SameFate t t := ⟨rfl, rfl, rfl, rfl, rfl⟩

theorem step {packet packet' : Octets → UInt8 → Packet} (h : SameFate t u)
    (halike : ∀ octets kind (m : Meter) clock q refusal,
      m.process clock q refusal (packet octets kind) = m.process clock q refusal (packet' octets kind)) (s : WireStep) :
    SameFate (t.step (s.toMeter packet)) (u.step (s.toMeter packet')) := by
  obtain ⟨hmeter, hqueue, houtcomes, hevicted, hdrained⟩ := h
  cases s with
  | frame octets kind clock refusal =>
    have hprocess : t.meter.process clock t.queue refusal (packet octets kind) =
        u.meter.process clock u.queue refusal (packet' octets kind) := by rw [halike, hmeter, hqueue]
    refine ⟨congrArg Meter.Processed.meter hprocess, congrArg Meter.Processed.queue hprocess, ?_, hevicted, hdrained⟩
    simp only [WireStep.toMeter, MeterRun.step, List.map_append, List.map_singleton, houtcomes, hprocess]
  | evict =>
    refine ⟨?_, hqueue, houtcomes, ?_, hdrained⟩
    · simp only [WireStep.toMeter, MeterRun.step, hmeter]
    · simp only [WireStep.toMeter, MeterRun.step, hmeter, hevicted]
  | drain =>
    refine ⟨hmeter, ?_, houtcomes, hevicted, ?_⟩
    · simp only [WireStep.toMeter, MeterRun.step, hqueue]
    · simp only [WireStep.toMeter, MeterRun.step, hqueue, hdrained]
  | close =>
    refine ⟨hmeter, ?_, houtcomes, hevicted, hdrained⟩
    simp only [WireStep.toMeter, MeterRun.step, hqueue]

theorem follow {packet packet' : Octets → UInt8 → Packet}
    (halike : ∀ octets kind (m : Meter) clock q refusal,
      m.process clock q refusal (packet octets kind) = m.process clock q refusal (packet' octets kind)) :
    ∀ (steps : List WireStep) {t u : MeterRun}, SameFate t u →
      SameFate (t.follow (steps.map (WireStep.toMeter packet))) (u.follow (steps.map (WireStep.toMeter packet')))
  | [], _, _, h => h
  | s :: steps, _, _, h => follow halike steps (h.step halike s)

end SameFate

/-- **Cutting frames changes no flow.**  A frame and its first octets, ninety-four or more, have the same flow and tell the same of
its connection, or are both discarded.  So a meter that takes the copies of a packet socket, with the length on the wire, comes to
the same as one that takes the whole frames: with the same random numbers, times, refusals and queue every packet has the same
outcome, and the flows that are kept or evicted and the records that wait or were drained are the same. -/
theorem snapping_keeps_fate {n : Nat} (hn : 94 ≤ n) :
    (∀ frame direction interface,
      Classified.ofFrame? (frame.take n) direction interface = Classified.ofFrame? frame direction interface) ∧
    ∀ (index : UInt32) (t : MeterRun) (steps : List WireStep),
      SameFate (t.follow (steps.map (WireStep.toMeter (System.Capture.packet index))))
        (t.follow (steps.map (WireStep.toMeter fun frame kind => { System.Capture.packet index frame kind with frame }))) := by
  refine ⟨fun frame => Classified.ofFrame?_take frame hn, fun index t steps => ?_⟩
  refine SameFate.follow (fun frame kind m clock q refusal => ?_) steps (.refl t)
  have hsnap : 94 ≤ System.Capture.snapLength := by decide
  exact m.process_take clock q refusal { System.Capture.packet index frame kind with frame } hsnap

/-- A segment behind all the options there can be, which ends with the ninety-fourth octet of its frame: one octet less, and its
ports are lost. -/
theorem snapping_keeps_fate_longest_header :
    let link : Octets := List.replicate 12 2 ++ [0x08, 0x00]
    let network : Octets := [0x4f] ++ List.replicate 8 0 ++ [6] ++ List.replicate 10 1 ++ List.replicate 40 7
    let segment : Octets := [1, 187, 200, 1] ++ List.replicate 9 0 ++ [0x12] ++ List.replicate 6 0
    let frame : Octets := link ++ network ++ segment ++ List.replicate 300 9
    let run (packet : Octets → UInt8 → Packet) : MeterRun :=
      ({ meter := .ofSettings {} [], queue := .ofSlots 1 } : MeterRun).follow
        ([WireStep.frame frame 4 { now := 5 } none, .frame frame 0 { now := 6 } (some .noMemory), .evict].map
          (WireStep.toMeter packet))
    94 ≤ 94 ∧
      Classified.ofFrame? (frame.take 94) .egress 3 = Classified.ofFrame? frame .egress 3 ∧
      Classified.ofFrame? (frame.take 93) .egress 3 ≠ Classified.ofFrame? frame .egress 3 ∧
      SameFate (run (System.Capture.packet 3)) (run fun frame kind => { System.Capture.packet 3 frame kind with frame }) ∧
      (run (System.Capture.packet 3)).evicted.map (fun e => (e.1.srcPort, e.2.bytes)) = [(443, 394)] ∧
      (run (System.Capture.packet 3)).queue.records.map (fun r => r.metrics.bytes) = [394] := by
  intro link network segment frame run
  obtain ⟨hparse, hrun⟩ := snapping_keeps_fate (Nat.le_refl 94)
  refine ⟨Nat.le_refl 94, hparse frame .egress 3, ?_, hrun 3 _ _, ?_, ?_⟩
  · decide +kernel
  · decide +kernel
  · decide +kernel

end MeterRun
end FlowMeter
