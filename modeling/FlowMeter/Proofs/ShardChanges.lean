import FlowMeter.Proofs.Metering
/-!
# What one packet changes in a shard

Whether a packet's flow is kept and whether the write is refused decides all: `Shard.apply_eq` says it in one equation, for
refusals from outside and for a shard that is full.  `Meter.take_eq` says the same of a meter.
-/
namespace FlowMeter

namespace Packet

variable {p : Packet} {time : UInt64} {id : Flow.Id} {o : Flow.Observation}

def flow? (p : Packet) : Option Flow.Id := (Classified.ofFrame? p.frame p.direction p.interface).map Classified.id

/-- What the packet tells of its flow when it is counted at a time. -/
def observed? (p : Packet) (time : UInt64) : Option (Flow.Id × Flow.Observation) :=
  (Classified.ofFrame? p.frame p.direction p.interface).map fun c =>
    (c.id, { size := p.length, time, flags := c.signal.flags, handshake := c.signal.handshake })

theorem map_fst_observed? (p : Packet) (time : UInt64) : (p.observed? time).map Prod.fst = p.flow? := by
  rw [observed?, flow?, Option.map_map]
  rfl

theorem flow?_of_observed? (h : p.observed? time = some (id, o)) : p.flow? = some id := by
  rw [← map_fst_observed? p time, h]
  rfl

theorem flow?_of_observed?_eq_none (h : p.observed? time = none) : p.flow? = none := by
  rw [← map_fst_observed? p time, h]
  rfl

/-- **A packet adds to its own flow only, and as much at any time.** -/
theorem share_of_observed? (h : p.observed? time = some (id, o)) (id' : Flow.Id) :
    p.share id' = if id = id' then (Flow.Metrics.ofFirst o).volume else 0 := by
  obtain ⟨c, hc, he⟩ := Option.map_eq_some_iff.1 h
  cases he
  simp only [share, hc]
  rfl

theorem share_of_flow?_eq_none (h : p.flow? = none) (id : Flow.Id) : p.share id = 0 := by
  rw [flow?, Option.map_eq_none_iff] at h
  simp only [share, h]

end Packet

namespace Shard

/-- The shard when it has counted a packet. -/
def counted (s : Shard) (id : Flow.Id) (o : Flow.Observation) : Shard :=
  { s with flows := s.flows.insert id (((s.flows.get? id).map fun m => m.add o).getD (.ofFirst o)) }

/-- Why a packet of the flow cannot be written, if it cannot. -/
def refuses? (s : Shard) (refusal : Option Refusal) (id : Flow.Id) : Option Refusal :=
  match refusal with
  | some r => some r
  | none => if s.flows.contains id ∨ s.size < s.capacity then none else some .full

/-- **What becomes of one packet.** -/
theorem apply_eq (s : Shard) (refusal : Option Refusal) (id : Flow.Id) (o : Flow.Observation) :
    s.apply refusal id o =
      match s.refuses? refusal id with
      | none => (s.counted id o, if s.flows.contains id then .updated else .inserted)
      | some r => (s, if s.flows.contains id then .updateRefused r else .overflow r (refusedRecord id o r)) := by
  cases hg : s.flows.get? id with
  | some m =>
    have hc : s.flows.contains id = true := by simp [Table.contains, hg]
    cases refusal with
    | some r => simp only [apply, hg, writeUnless, refuses?, hc, if_true]
    | none => simp only [apply, hg, writeUnless, write, refuses?, hc, true_or, if_true, counted, Option.map_some,
        Option.getD_some]
  | none =>
    have hc : s.flows.contains id = false := by simp [Table.contains, hg]
    cases refusal with
    | some r => simp only [apply, hg, writeUnless, refuses?, hc, Bool.false_eq_true, if_false]
    | none =>
      by_cases hroom : s.size < s.capacity
      · simp only [apply, hg, writeUnless, write, refuses?, hc, Bool.false_eq_true, false_or, hroom, if_true, if_false,
          counted, Option.map_none, Option.getD_none]
      · simp only [apply, hg, writeUnless, write, refuses?, hc, Bool.false_eq_true, false_or, hroom, if_false]

theorem get?_counted (s : Shard) (id id' : Flow.Id) (o : Flow.Observation) :
    (s.counted id o).flows.get? id' =
      if id' = id then some (((s.flows.get? id).map fun m => m.add o).getD (.ofFirst o)) else s.flows.get? id' :=
  Table.get?_upsert ..

/-- **A flow that a shard keeps has the packets of its own more, and no others.** -/
theorem get?_apply_of_resident {s : Shard} {id : Flow.Id} {m : Flow.Metrics} (h : s.flows.get? id = some m) (id' : Flow.Id)
    (o : Flow.Observation) : (s.apply none id' o).1.flows.get? id = some (if id' = id then m.add o else m) := by
  rw [apply_eq]
  by_cases hid : id' = id
  · subst hid
    have hcontains : s.flows.contains id' = true := by rw [Table.contains, h, Option.isSome_some]
    simp only [refuses?, hcontains, true_or, if_true, get?_counted, h]
    rfl
  · rw [if_neg hid]
    split
    · rw [get?_counted, if_neg (Ne.symm hid), h]
    · exact h

theorem capacity_apply (s : Shard) (refusal : Option Refusal) (id : Flow.Id) (o : Flow.Observation) :
    (s.apply refusal id o).1.capacity = s.capacity := by
  rw [apply_eq]
  split <;> rfl

end Shard

namespace Meter

/-- **What becomes of one packet in a meter.** -/
theorem take_eq (m : Meter) (clock : Clock) (refusal : Option Refusal) (p : Packet) :
    m.take clock refusal p =
      if (m.settings.draw m.draws).1 then
        match p.observed? clock.now with
        | none => ({ m with draws := (m.settings.draw m.draws).2 }, clock, .discarded)
        | some (id, o) =>
          ({ m with draws := (m.settings.draw m.draws).2, shard := (m.shard.apply refusal id o).1 }, clock.read.2,
            .counted (m.shard.apply refusal id o).2)
      else ({ m with draws := (m.settings.draw m.draws).2 }, clock, .skipped) := by
  rw [take, Packet.observed?]
  cases Classified.ofFrame? p.frame p.direction p.interface <;> rfl

theorem settings_take (m : Meter) (clock : Clock) (refusal : Option Refusal) (p : Packet) :
    (m.take clock refusal p).1.settings = m.settings := by
  rw [take_eq]
  split
  · split <;> rfl
  · rfl

end Meter
end FlowMeter
