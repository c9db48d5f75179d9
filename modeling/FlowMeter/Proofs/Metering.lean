import FlowMeter.Meter
import FlowMeter.Proofs.Delivery
/-!
# What one packet adds

A packet that a meter takes either is in the shard with all of its volume, and its outcome is settled, or it leaves the shard
as it was and its record carries its volume (`Meter.take_cases`).  A record is in the queue after it was sent, or it is lost
(`Meter.submit_cases`).
-/
namespace FlowMeter

open FlowMeter.Flow (weigh AllDatable Metrics.volume)

/-- What the packet adds to a flow, if it belongs to it. -/
def Packet.share (p : Packet) (id : Flow.Id) : Flow.Volume :=
  match Classified.ofFrame? p.frame p.direction p.interface with
  | some c => if c.id = id then { packets := 1, bytes := p.length, flags := c.signal.flags } else 0
  | none => 0

/-- All that the packet tells is on the record. -/
def Flow.Record.Carries (r : Flow.Record) (p : Packet) : Prop :=
  ∀ id, (if r.id = id then r.metrics.volume else 0) = p.share id

namespace MeterSettings

def inSample (s : MeterSettings) (draws : List UInt32) (n : Nat) : Bool :=
  s.sampling = 0 ∨ s.samples (draws.getD n 0)

/-- The random numbers that are left after so many packets. -/
def drawsAfter (s : MeterSettings) (draws : List UInt32) (n : Nat) : List UInt32 :=
  if s.sampling = 0 then draws else draws.drop n

theorem draw_drawsAfter (s : MeterSettings) (draws : List UInt32) (n : Nat) :
    s.draw (s.drawsAfter draws n) = (s.inSample draws n, s.drawsAfter draws (n + 1)) := by
  simp only [draw, drawsAfter, inSample]
  by_cases h : s.sampling = 0
  · simp only [h, if_true, true_or, decide_true]
  · simp only [h, if_false, false_or, Bool.decide_eq_true, List.headD_eq_head?_getD, List.head?_drop,
      List.getD_eq_getElem?_getD, List.tail_drop]

end MeterSettings

namespace Shard

variable (s : Shard) (id : Flow.Id) (o : Flow.Observation)

/-- Where a value is placed for a packet, the weight of its flow grows by the packet's. -/
theorem weigh_place_observation {f : Option Flow.Metrics → Flow.Metrics}
    (hf : f (s.flows.get? id) = ((s.flows.get? id).map fun m => m.add o).getD (.ofFirst o)) (id' : Flow.Id) :
    weigh Metrics.volume id' (Table.place id f s.flows.entries) =
      weigh Metrics.volume id' s.snapshot + if id = id' then (Flow.Metrics.ofFirst o).volume else 0 := by
  refine Flow.weigh_place id' s.flows.entries (fun v hv => ?_) (fun hn => ?_)
  · have hv' : s.flows.get? id = some v := hv
    rw [hv'] at hf
    rw [hf]
    exact Flow.Metrics.volume_add v o
  · have hn' : s.flows.get? id = none := hn
    rw [hn'] at hf
    rw [hf]
    rfl

theorem datable_place_observation {boot : WallTime} {f : Option Flow.Metrics → Flow.Metrics}
    (hf : f (s.flows.get? id) = ((s.flows.get? id).map fun m => m.add o).getD (.ofFirst o))
    (hs : AllDatable boot s.snapshot) (ho : Datable boot o.time) :
    AllDatable boot (Table.place id f s.flows.entries) := by
  refine Flow.forall_place (P := fun _ => Flow.Metrics.Datable boot) s.flows.entries hs ?_
  show (f (s.flows.get? id)).Datable boot
  rw [hf]
  cases hv : s.flows.get? id with
  | none => exact Flow.Metrics.datable_ofFirst ho
  | some v => exact (hs _ (Table.mem_of_find_eq_some hv)).add ho

/-- **A shard that nothing outside refuses takes a packet in, or is left as it was.** -/
theorem apply_cases :
    (∃ applied f, (applied = .updated ∨ applied = .inserted) ∧
      f (s.flows.get? id) = ((s.flows.get? id).map fun m => m.add o).getD (.ofFirst o) ∧
      s.apply none id o = ({ s with flows := s.flows.upsert id f }, applied)) ∨
    ∃ r, s.apply none id o = (s, .overflow r (refusedRecord id o r)) := by
  cases h : s.flows.get? id with
  | some m =>
    have hc : s.flows.contains id = true := by simp [Table.contains, h]
    refine .inl ⟨.updated, fun _ => m.add o, .inl rfl, rfl, ?_⟩
    simp only [apply, h, writeUnless, write, hc, true_or, if_true]
    rfl
  | none =>
    have hc : s.flows.contains id = false := by simp [Table.contains, h]
    by_cases hroom : s.size < s.capacity
    · refine .inl ⟨.inserted, fun _ => .ofFirst o, .inr rfl, rfl, ?_⟩
      simp only [apply, h, writeUnless, write, hroom, or_true, if_true]
      rfl
    · refine .inr ⟨Refusal.full, ?_⟩
      simp [apply, h, writeUnless, write, hc, hroom]

end Shard

/-- The outcome, as far as it does not depend on the overflow queue. -/
def Sighting.settled? : Sighting → Option Outcome
  | .skipped => some .skipped
  | .discarded => some .discarded
  | .counted .updated => some .updated
  | .counted .inserted => some .inserted
  | .counted (.updateRefused r) => some (.updateRefused r)
  | .counted (.overflow ..) => none

def Outcome.isLost : Outcome → Bool
  | .overflowLost .. => true
  | _ => false

/-- The outcome of a packet that does or does not count: it is skipped just if it does not, and its flow is never kept without
it. -/
structure Outcome.Fits (o : Outcome) (counts : Bool) : Prop where
  skipped : o = .skipped ↔ counts = false
  updated : ∀ r, o ≠ .updateRefused r

/-- What a packet of the sample adds to a flow, unless it was lost. -/
def Outcome.credit (o : Outcome) (counts : Bool) (p : Packet) (id : Flow.Id) : Flow.Volume :=
  if counts ∧ ¬ o.isLost then p.share id else 0

namespace Meter

/-- **What a packet changes in a meter.** -/
theorem take_cases (m : Meter) {draws : List UInt32} {n : Nat} (hd : m.draws = m.settings.drawsAfter draws n)
    (clock : Clock) (p : Packet) {m' : Meter} {clock' : Clock} {sighting : Sighting}
    (h : m.take clock none p = (m', clock', sighting)) :
    m'.settings = m.settings ∧ m'.draws = m.settings.drawsAfter draws (n + 1) ∧ clock'.now = clock.now ∧
      ((∃ o, sighting.settled? = some o ∧ o.Fits (m.settings.inSample draws n) ∧
          (∀ id, weigh Metrics.volume id m'.shard.snapshot =
            weigh Metrics.volume id m.shard.snapshot + o.credit (m.settings.inSample draws n) p id) ∧
          ∀ boot, Datable boot clock.now → AllDatable boot m.shard.snapshot → AllDatable boot m'.shard.snapshot) ∨
        ∃ r record, sighting = .counted (.overflow r record) ∧ m.settings.inSample draws n = true ∧ m'.shard = m.shard ∧
          record.Carries p ∧ ∀ boot, Datable boot clock.now → record.metrics.Datable boot) := by
  rw [take, hd, MeterSettings.draw_drawsAfter] at h
  simp only at h
  cases hs : m.settings.inSample draws n with
  | false =>
    rw [hs] at h
    cases h
    exact ⟨rfl, rfl, rfl, .inl ⟨.skipped, rfl, ⟨by simp, by simp⟩, fun id => by simp [Outcome.credit], fun _ _ h => h⟩⟩
  | true =>
    rw [hs, if_pos rfl] at h
    cases hc : Classified.ofFrame? p.frame p.direction p.interface with
    | none =>
      rw [hc] at h
      cases h
      refine ⟨rfl, rfl, rfl, .inl ⟨.discarded, rfl, ⟨by simp, by simp⟩, fun id => ?_, fun _ _ h => h⟩⟩
      simp [Outcome.credit, Packet.share, hc]
    | some c =>
      rw [hc] at h
      simp only [Clock.read] at h
      rcases m.shard.apply_cases c.id
          { size := p.length, time := clock.now, flags := c.signal.flags, handshake := c.signal.handshake } with
        ⟨applied, f, happlied, hf, heq⟩ | ⟨r, heq⟩
      · rw [heq] at h
        cases h
        have hdatable : ∀ boot, Datable boot clock.now → AllDatable boot m.shard.snapshot →
            AllDatable boot (Table.place c.id f m.shard.flows.entries) := fun boot hnow hshard =>
          m.shard.datable_place_observation c.id _ hf hshard hnow
        refine ⟨rfl, rfl, rfl, .inl ?_⟩
        rcases happlied with rfl | rfl
        · refine ⟨.updated, rfl, ⟨by simp, by simp⟩, fun id => ?_, hdatable⟩
          exact (m.shard.weigh_place_observation c.id _ hf id).trans (by simp [Outcome.credit, Packet.share, hc]; rfl)
        · refine ⟨.inserted, rfl, ⟨by simp, by simp⟩, fun id => ?_, hdatable⟩
          exact (m.shard.weigh_place_observation c.id _ hf id).trans (by simp [Outcome.credit, Packet.share, hc]; rfl)
      · rw [heq] at h
        cases h
        refine ⟨rfl, rfl, rfl, .inr ⟨r, _, rfl, rfl, rfl, fun id => ?_, fun boot hnow => ⟨hnow, hnow⟩⟩⟩
        simp only [Packet.share, hc]
        rfl

theorem submit_settled {sighting : Sighting} {o : Outcome} (h : sighting.settled? = some o) (q : Overflow.Queue) :
    submit q sighting = (q, o) := by
  rcases sighting with _ | _ | (_ | _ | _ | _) <;> cases h <;> rfl

/-- **A record that is sent waits in the queue, or is lost.** -/
theorem submit_cases (q : Overflow.Queue) (r : Refusal) (record : Flow.Record) :
    (∃ q', submit q (.counted (.overflow r record)) = (q', .overflowed r record) ∧ q'.records = q.records ++ [record]) ∨
      ∃ f, submit q (.counted (.overflow r record)) = (q, .overflowLost r f) := by
  cases h : q.submit record with
  | ok q' => exact .inl ⟨q', by simp only [submit, h], Overflow.Queue.records_of_submit h⟩
  | error f => exact .inr ⟨f, by simp only [submit, h]⟩

end Meter
end FlowMeter
