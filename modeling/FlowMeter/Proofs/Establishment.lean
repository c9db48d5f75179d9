import FlowMeter.Frame.Recipe
import FlowMeter.Proofs.OutletRuns
import FlowMeter.Proofs.Signals
/-!
# Flags and connections

The flags of a flow and the time at which its connection was established fit its protocol and each other (`Flow.Coherent`).  A
packet brings that about by itself, and it holds on when packets are counted and when partial views are put together, whichever
of them come first (`MeterBank.coherent_throughout`).
-/
namespace FlowMeter

open ControlBits (ackFlag synAckFlag)

namespace Flow

theorem or_and_distrib (a b f : UInt16) : (a ||| b) &&& f = (a &&& f) ||| (b &&& f) := by
  rw [← UInt16.toBitVec_inj]
  exact BitVec.and_or_distrib_right

/-- Flags put together have those that one of them has. -/
theorem or_and_ne_zero_iff (a b f : UInt16) : (a ||| b) &&& f ≠ 0 ↔ a &&& f ≠ 0 ∨ b &&& f ≠ 0 := by
  rw [or_and_distrib, Ne, UInt16.or_eq_zero_iff, not_and_or]

theorem earlier_eq_zero_iff (a b : UInt64) : earlier a b = 0 ↔ a = 0 ∧ b = 0 := by
  have hz : ∀ x : UInt64, x = 0 ↔ x.toNat = 0 := fun x => by rw [← UInt64.toNat_inj]; rfl
  rw [hz, hz, hz, toNat_earlier]
  split
  · omega
  · split <;> omega

/-- Metrics whose flags are known ones, and have a connection only if they are those of TCP over IP.  An established connection
shows an acknowledgement, and an answered request shows an established connection. -/
structure Coherent (id : Id) (m : Metrics) : Prop where
  known : m.flags &&& 0x7ff = m.flags
  unsegmented : id.protocol ≠ Protocol.tcp ∨ id.etherType ≠ EtherType.ipv4 ∧ id.etherType ≠ EtherType.ipv6 →
    m.flags = 0 ∧ m.handshake = 0
  acknowledged : m.handshake ≠ 0 → m.flags &&& synAckFlag ≠ 0 ∨ m.flags &&& ackFlag ≠ 0
  answered : m.flags &&& synAckFlag ≠ 0 → m.handshake ≠ 0

namespace Coherent

variable {id : Id} {m n : Metrics}

/-- Only the flags count, and whether a connection was established. -/
theorem of_eq (h : Coherent id m) (hflags : n.flags = m.flags) (hhandshake : n.handshake = 0 ↔ m.handshake = 0) :
    Coherent id n where
  known := by rw [hflags, h.known]
  unsegmented hid := by
    rw [hflags, hhandshake]
    exact h.unsegmented hid
  acknowledged hn := by
    rw [hflags]
    exact h.acknowledged (mt hhandshake.2 hn)
  answered hn := by
    rw [hflags] at hn
    exact mt hhandshake.1 (h.answered hn)

theorem merge (hm : Coherent id m) (hn : Coherent id n) : Coherent id (m.merge n) where
  known := by
    show (m.flags ||| n.flags) &&& 0x7ff = m.flags ||| n.flags
    rw [or_and_distrib, hm.known, hn.known]
  unsegmented hid := by
    obtain ⟨hflags, hhandshake⟩ := hm.unsegmented hid
    obtain ⟨hflags', hhandshake'⟩ := hn.unsegmented hid
    exact ⟨UInt16.or_eq_zero_iff.2 ⟨hflags, hflags'⟩, (earlier_eq_zero_iff _ _).2 ⟨hhandshake, hhandshake'⟩⟩
  acknowledged h := by
    have hone : m.handshake ≠ 0 ∨ n.handshake ≠ 0 := not_and_or.1 (mt (earlier_eq_zero_iff _ _).2 h)
    show (m.flags ||| n.flags) &&& synAckFlag ≠ 0 ∨ (m.flags ||| n.flags) &&& ackFlag ≠ 0
    rw [or_and_ne_zero_iff, or_and_ne_zero_iff]
    rcases hone with h | h
    · exact (hm.acknowledged h).imp .inl .inl
    · exact (hn.acknowledged h).imp .inr .inr
  answered h := by
    refine mt (earlier_eq_zero_iff _ _).1 (not_and_or.2 ?_)
    exact ((or_and_ne_zero_iff _ _ _).1 h).imp hm.answered hn.answered

theorem mergeable : Mergeable Coherent := fun _ _ _ => .merge

/-- **One packet is coherent.** -/
theorem ofFirst {p : Packet} {now : UInt64} {o : Observation} (hnow : now ≠ 0) (h : p.observed? now = some (id, o)) :
    Coherent id (.ofFirst o) := by
  rcases p.exists_segment with hnone | ⟨id₀, segment, hsegment, hsome⟩
  · cases h.symm.trans (hnone p.direction now)
  · cases h.symm.trans (hsome p.direction now)
    have hsound := Signal.sound_ofSegment? segment p.direction
    have hhandshake : ∀ handshake : Bool, (if handshake then now else 0) ≠ 0 ↔ handshake = true := by
      intro handshake
      cases handshake
      · exact ⟨fun h => absurd rfl h, fun h => by cases h⟩
      · exact ⟨fun _ => rfl, fun _ => hnow⟩
    refine ⟨hsound.known, fun hid => ?_, fun h => ?_, fun h => (hhandshake _).2 (hsound.answered h)⟩
    · have hnone : segment = none := by
        cases hs : segment with
        | none => rfl
        | some s =>
          have hid₀ := hsegment (hs ▸ rfl)
          rcases hid with hprotocol | ⟨h4, h6⟩
          · exact absurd hid₀.protocol hprotocol
          · exact (hid₀.etherType.elim h4 h6).elim
      rw [hnone]
      exact ⟨rfl, rfl⟩
    · refine (hsound.acknowledged ((hhandshake _).1 h)).imp (fun hflags => ?_) fun hflags => ?_
      · show (Signal.ofSegment? segment p.direction).flags &&& synAckFlag ≠ 0
        rw [hflags]
        decide
      · show (Signal.ofSegment? segment p.direction).flags &&& ackFlag ≠ 0
        rw [hflags]
        decide

/-- Counting a packet keeps what putting it in as a flow of its own would. -/
theorem add {o : Observation} (hm : Coherent id m) (ho : Coherent id (.ofFirst o)) (htime : o.time ≠ 0) :
    Coherent id (m.add o) := by
  refine (hm.merge ho).of_eq rfl ?_
  show (if o.handshake ∧ m.handshake = 0 then o.time else m.handshake) = 0 ↔
    earlier m.handshake (if o.handshake then o.time else 0) = 0
  rw [earlier_eq_zero_iff]
  cases o.handshake <;> by_cases hm : m.handshake = 0 <;> simp [hm, htime]

end Coherent

theorem sustained_coherent : Sustained (fun _ _ => True) fun _ => Coherent where
  first hnow hp errno := by
    have h := Coherent.ofFirst hnow hp
    exact h.of_eq rfl Iff.rfl
  add hnow hp hm := by
    have ho := Coherent.ofFirst hnow hp
    obtain ⟨c, -, he⟩ := Option.map_eq_some_iff.1 hp
    cases he
    exact hm.add ho hnow
  later _ h := h

end Flow

namespace MeterBank

/-- **Flags and connections fit each other throughout**, as long as no clock of a meter shows zero. -/
theorem coherent_throughout (settings : List (MeterSettings × List UInt32)) (slots : Nat) (steps : List BankStep)
    (hclock : ∀ i < settings.length, 0 ∉ BankStep.timesAt i steps) :
    Throughout Flow.Coherent ((start settings slots).follow steps) := by
  have hticks : Ticks (fun _ _ => True) (fun _ => 0) (start settings slots).meters.length steps := by
    intro i hi
    rw [length_meters_start] at hi
    exact ⟨List.pairwise_of_forall fun _ _ => trivial, fun now hnow => ⟨ne_of_mem_of_not_mem hnow (hclock i hi), trivial⟩⟩
  obtain ⟨since, h⟩ := (Holds.start settings slots _).follow Flow.sustained_coherent steps hticks
  refine .of_parts Flow.Coherent.mergeable fun e he => ?_
  obtain ⟨-, hcoherent⟩ := h.parts e he
  exact hcoherent

/-- An answered request is kept and then taken out, a bare acknowledgement finds no room in the same shard and waits as a record,
and another shard keeps a datagram. -/
theorem coherent_throughout_three_packets :
    let packet (ingredient : Frame.Ingredient) : Packet :=
      { frame := (Frame.Recipe.add { src := #v[10, 0, 0, 1], dst := #v[10, 0, 0, 2] } ingredient).frame
        length := 60, interface := 1, direction := .ingress }
    let settings : List (MeterSettings × List UInt32) := [({ capacity := 1 }, []), ({ capacity := 1 }, [])]
    let steps : List BankStep :=
      [.process 0 ⟨7, 0⟩ none (packet (.tcp 80 999 55 0x12)), .process 1 ⟨3, 0⟩ none (packet (.udp 53 999)),
        .process 0 ⟨9, 0⟩ none (packet (.tcp 999 80 1 0x10)), .evict 0]
    let t := (start settings 4).follow steps
    (∀ i < settings.length, 0 ∉ BankStep.timesAt i steps) ∧
      t.parts.map (fun e => (e.2.flags, e.2.handshake)) = [(0, 0), (synAckFlag, 7), (ackFlag, 9)] ∧
      Throughout Flow.Coherent t := by
  intro packet settings steps t
  have hclock : ∀ i < settings.length, 0 ∉ BankStep.timesAt i steps := by decide +kernel
  exact ⟨hclock, by decide +kernel, coherent_throughout settings 4 steps hclock⟩

end MeterBank
end FlowMeter
