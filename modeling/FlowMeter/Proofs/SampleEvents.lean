import FlowMeter.Kernel.Classifier
import FlowMeter.Kernel.SampleReader
import FlowMeter.Proofs.SampledFrames
/-!
# Sampled packets from the kernel to their reader

A sample goes out with a word of flags, of which the upper half asks for octets of the packet (`Sample.flags`), and the kernel puts
them behind the sample (`Kernel.output`).  The reader finds both again, whatever stands behind them and wherever the event is cut
off, as long as the sample is whole (`Classifier.sample_tells`).
-/
namespace FlowMeter

namespace Sample

/-- The flags that a sample goes out with; their lower half names the buffer. -/
def flags (m : Sample) (buffer : UInt32) : UInt64 := m.length.toUInt64 <<< 32 ||| buffer.toUInt64

/-- **The upper half of the flags is the length of the packet.** -/
theorem flags_shiftRight (m : Sample) (buffer : UInt32) : m.flags buffer >>> 32 = m.length.toUInt64 := by
  have hlength := m.length.toNat_lt
  have hbuffer := buffer.toNat_lt
  have hlow : buffer.toNat >>> 32 = 0 := by
    rw [Nat.shiftRight_eq_div_pow]
    exact Nat.div_eq_of_lt hbuffer
  have hhigh : (m.length.toNat <<< 32 % 2 ^ 64) >>> 32 = m.length.toNat := by
    rw [Nat.shiftLeft_eq, Nat.mod_eq_of_lt (by omega), Nat.shiftRight_eq_div_pow]
    exact Nat.mul_div_cancel _ (by decide)
  refine UInt64.toNat_inj.1 ?_
  rw [flags, UInt64.toNat_shiftRight, UInt64.toNat_or, UInt64.toNat_shiftLeft, UInt32.toNat_toUInt64, UInt32.toNat_toUInt64]
  show (m.length.toNat <<< 32 % 2 ^ 64 ||| buffer.toNat) >>> 32 = _
  rw [Nat.shiftRight_or_distrib, hhigh, hlow, Nat.or_zero]

theorem length_toOctets (m : Sample) : m.toOctets.length = 8 := layout.length_encode m

theorem ofOctets?_isSome_iff (s : Octets) : (ofOctets? s).isSome ↔ 8 ≤ s.length := by
  have := layout.readAt?_isSome_iff s 0
  rwa [Nat.zero_add, size_layout] at this

/-- What follows a sample is counted up to the length that it announces. -/
theorem captured?_toOctets_append (m : Sample) (behind : Octets) :
    captured? (m.toOctets ++ behind) = some (m, min behind.length m.length.toNat) := by
  have hread : ofOctets? (m.toOctets ++ behind) = some m := Layout.read?_encode_append layout m behind
  rw [captured?, hread, Option.map_some, List.length_append, length_toOctets, size_layout, Nat.add_sub_cancel_left]

theorem captured?_eq_none {s : Octets} (h : s.length < 8) : captured? s = none := by
  have hread : ofOctets? s = none := by
    rw [← Option.not_isSome_iff_eq_none, ofOctets?_isSome_iff]
    omega
  rw [captured?, hread, Option.map_none]

/-- **Only a whole sample is taken off the length of an event.** -/
theorem le_length_of_captured? {s : Octets} {m : Sample} {captured : Nat} (h : captured? s = some (m, captured)) :
    captured + 8 ≤ s.length ∧ captured ≤ m.length.toNat := by
  obtain ⟨m', hread, hm⟩ := Option.map_eq_some_iff.1 h
  have hwhole := (ofOctets?_isSome_iff s).1 (Option.isSome_of_eq_some hread)
  cases hm
  rw [size_layout]
  omega

/-- **The length in a sample is that of the packet.** -/
theorem length_of_ofFrame? {frame : Octets} {interface : UInt32} {m : Sample} (hlength : frame.length < UInt32.size)
    (h : ofFrame? frame interface = some m) : m.interface = interface ∧ m.length.toNat = frame.length := by
  obtain ⟨-, rfl⟩ := (ofFrame?_eq_some_iff m).1 h
  exact ⟨rfl, UInt32.toNat_ofNat_of_lt' hlength⟩

end Sample

theorem Notice.text_sampled (m : Sample) (captured : Nat) : (sampled m captured).text =
    s!"dns packet if_index={m.interface} len={m.length.toNat} captured={captured}" := rfl

namespace Kernel

/-- What the kernel puts into a buffer: the data, and behind it as much of the packet as the upper half of the flags asks for. -/
def output (flags : UInt64) (data packet : Octets) : Octets := data ++ packet.take (flags >>> 32).toNat

/-- The octets of an event are what the kernel puts out for its sample. -/
theorem SampleEvent.toOctets_eq_output (e : SampleEvent) (buffer : UInt32) :
    e.toOctets = output (e.sample.flags buffer) e.sample.toOctets e.packet := by
  rw [toOctets, output, Sample.flags_shiftRight, UInt32.toNat_toUInt64]

namespace SampleReader

theorem event_of_short {s : Octets} (h : s.length < 8) : event s = [] := by rw [event, Sample.captured?_eq_none h]; rfl

theorem event_append (m : Sample) (behind : Octets) :
    event (m.toOctets ++ behind) = [.sampled m (min behind.length m.length.toNat)] := by
  rw [event, Sample.captured?_toOctets_append]
  rfl

/-- **An event that is cut off behind its sample** tells how much of the packet is left. -/
theorem event_take (m : Sample) (behind : Octets) {n : Nat} (hn : 8 ≤ n) :
    event ((m.toOctets ++ behind).take n) = [.sampled m (min (min (n - 8) behind.length) m.length.toNat)] := by
  rw [List.take_append, List.take_of_length_le (by rw [Sample.length_toOctets]; exact hn), event_append, List.length_take,
    Sample.length_toOctets]

end SampleReader

/-- **A sample tells its reader about the packet.**  No event goes out for a frame that no sample is taken of.  Otherwise one does,
with the image of the sample and behind it the whole frame, if its length is a number of thirty-two bits.  Whatever stands behind
the event, its reader tells the interface and the length, and that all of the frame was captured; if the event is cut off, as
much as is left; and nothing if the sample is not whole.  Of no event more is told than stands behind its sample. -/
theorem Classifier.sample_tells (k : Classifier) (p : Packet) (hlength : p.frame.length < UInt32.size) (buffer : UInt32) :
    (Sample.ofFrame? p.frame p.interface = none → k.sample p = k) ∧
    (∀ m, Sample.ofFrame? p.frame p.interface = some m → ∃ e : SampleEvent,
      k.sample p = { k with events := k.events ++ [e] } ∧
      e.toOctets = output (m.flags buffer) m.toOctets p.frame ∧ e.toOctets = m.toOctets ++ p.frame ∧
      m.interface = p.interface ∧ m.length.toNat = p.frame.length ∧
      (∀ padding, SampleReader.event (e.toOctets ++ padding) = [.sampled m p.frame.length]) ∧
      (∀ n, 8 ≤ n → SampleReader.event (e.toOctets.take n) = [.sampled m (min (n - 8) p.frame.length)]) ∧
      (∀ n < 8, SampleReader.event (e.toOctets.take n) = []) ∧
      ∀ captured, (Notice.sampled m captured).text =
        s!"dns packet if_index={p.interface} len={p.frame.length} captured={captured}") ∧
    ∀ s m captured, Sample.captured? s = some (m, captured) → captured + 8 ≤ s.length ∧ captured ≤ m.length.toNat := by
  refine ⟨fun hnone => ?_, fun m hm => ?_, fun _ _ _ => Sample.le_length_of_captured?⟩
  · simp only [sample, hnone]
  · obtain ⟨hinterface, hframe⟩ := Sample.length_of_ofFrame? hlength hm
    have hsample : k.sample p = { k with events := k.events ++ [⟨m, p.frame⟩] } := by simp only [sample, hm]
    have hwhole : SampleEvent.toOctets ⟨m, p.frame⟩ = m.toOctets ++ p.frame := by
      rw [SampleEvent.toOctets, hframe, List.take_length]
    have houtput := SampleEvent.toOctets_eq_output ⟨m, p.frame⟩ buffer
    refine ⟨⟨m, p.frame⟩, hsample, houtput, hwhole, hinterface, hframe, fun padding => ?_, fun n hn => ?_, fun n hn => ?_,
      fun captured => ?_⟩
    · rw [hwhole, List.append_assoc, SampleReader.event_append, List.length_append, hframe, Nat.min_eq_right (by omega)]
    · rw [hwhole, SampleReader.event_take m p.frame hn, hframe, Nat.min_assoc, Nat.min_self]
    · exact SampleReader.event_of_short (by rw [List.length_take]; omega)
    · rw [Notice.text_sampled, hinterface, hframe]

/-- A name query behind four octets of options: its event with padding, cut off behind the network header, and cut off in the
sample. -/
theorem Classifier.sample_tells_options :
    let frame := Header.Ethernet.layout.encode
        { dst := Vector.replicate 6 0, src := Vector.replicate 6 0, etherType := 0x0800 } ++
      Header.Ipv4.layout.encode
        { versionIhl := 0x46, serviceType := 0, totalLength := 32, identification := 0, fragment := 0, timeToLive := 64
          protocol := 17, checksum := 0, src := #v[10, 0, 0, 1], dst := #v[10, 0, 0, 2] } ++
      [0, 0, 0, 0] ++ Header.Udp.layout.encode { srcPort := 40000, dstPort := 53, length := 8, checksum := 0 }
    let p : Packet := { frame, length := 46, interface := 3, direction := .egress }
    let m : Sample := { interface := 3, length := 46 }
    frame.length < UInt32.size ∧ Sample.ofFrame? p.frame p.interface = some m ∧
      ∃ e : SampleEvent, (Classifier.sample default p).events = [e] ∧ e.toOctets = m.toOctets ++ frame ∧
        SampleReader.event (e.toOctets ++ [0, 0]) = [.sampled m 46] ∧
        SampleReader.event (e.toOctets.take 42) = [.sampled m 34] ∧ SampleReader.event (e.toOctets.take 7) = [] := by
  intro frame p m
  have hlength : p.frame.length < UInt32.size := by decide
  have hsampled : Sample.ofFrame? p.frame p.interface = some m := by decide
  obtain ⟨e, hsample, -, hwhole, -, -, hpadded, hcut, hshort, -⟩ := (Classifier.sample_tells default p hlength 0).2.1 m hsampled
  refine ⟨hlength, hsampled, e, by rw [hsample]; rfl, hwhole, hpadded [0, 0], ?_, hshort 7 (by decide)⟩
  rw [hcut 42 (by decide)]
  rfl

end Kernel
end FlowMeter
