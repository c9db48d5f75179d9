import FlowMeter.Proofs.Destinations
import Mathlib.Data.List.Induction
/-!
# Where overflow records come from

Metrics that a meter keeps have no error number.  A record of its queue is all that one packet says, stamped with the error
number of the write that was refused (`MeterRun.Spills`), and after any run every record goes back to a packet of the run
(`MeterRun.Stems`, `MeterRun.Clean.follow`).
-/
namespace FlowMeter

theorem Refusal.toNat_stamp (r : Refusal) : r.stamp.toNat = min r.errno.toNat 255 := by
  unfold stamp
  exact UInt8.toNat_ofNat_of_lt' (by show min r.errno.toNat 255 < 256; omega)

/-- A write that a shard refuses to one packet of a flow it refuses to any. -/
theorem Shard.writeUnless_of_refuses? {s : Shard} {refusal : Option Refusal} {id : Flow.Id} {r : Refusal}
    (h : s.refuses? refusal id = some r) (m : Flow.Metrics) : s.writeUnless refusal id m = .error r := by
  unfold refuses? at h
  unfold writeUnless
  cases refusal with
  | some r' =>
    cases h
    rfl
  | none =>
    unfold write
    by_cases hroom : s.flows.contains id ∨ s.size < s.capacity
    · rw [if_pos hroom] at h
      cases h
    · rw [if_neg hroom] at h ⊢
      cases h
      rfl

theorem Shard.positive_of_refuses? {s : Shard} {refusal : Option Refusal} {id : Flow.Id} {r : Refusal}
    (hrefusal : ∀ r ∈ refusal, 0 < r.errno) (h : s.refuses? refusal id = some r) : 0 < r.errno := by
  unfold refuses? at h
  cases refusal with
  | some r' =>
    cases h
    exact hrefusal r rfl
  | none =>
    by_cases hroom : s.flows.contains id ∨ s.size < s.capacity
    · rw [if_pos hroom] at h
      cases h
    · rw [if_neg hroom] at h
      cases h
      decide

/-- **The record of a packet that overflowed is all that the packet says.** -/
theorem Meter.record_of_overflowed {m : Meter} {clock : Clock} {q : Overflow.Queue} {refusal : Option Refusal} {p : Packet}
    {r : Refusal} {record : Flow.Record} (h : (m.process clock q refusal p).outcome = .overflowed r record) :
    ∃ id o, p.observed? clock.now = some (id, o) ∧ m.shard.refuses? refusal id = some r ∧
      record = Shard.refusedRecord id o r := by
  unfold process at h
  rw [take_eq] at h
  cases hdraw : (m.settings.draw m.draws).1 with
  | false =>
    rw [hdraw] at h
    cases h
  | true =>
    rw [hdraw] at h
    cases hp : p.observed? clock.now with
    | none =>
      rw [hp] at h
      cases h
    | some e =>
      obtain ⟨id, o⟩ := e
      refine ⟨id, o, rfl, ?_⟩
      simp only [hp, if_true, Shard.apply_eq] at h
      cases hr : m.shard.refuses? refusal id with
      | none =>
        rw [hr] at h
        by_cases hc : m.shard.flows.contains id
        · simp only [hc, submit, if_true] at h
          cases h
        · simp only [hc, submit, if_false, Bool.false_eq_true] at h
          cases h
      | some r' =>
        rw [hr] at h
        by_cases hc : m.shard.flows.contains id
        · simp only [hc, submit, if_true] at h
          cases h
        · simp only [hc, submit, if_false, Bool.false_eq_true] at h
          cases hs : q.submit (Shard.refusedRecord id o r') with
          | error f =>
            rw [hs] at h
            cases h
          | ok q' =>
            rw [hs] at h
            cases h
            exact ⟨rfl, rfl⟩

/-- Why a step of a meter is told to refuse a write. -/
def MeterStep.refusal? : MeterStep → Option Refusal
  | .process _ refusal _ => refusal
  | _ => none

namespace MeterRun

/-- The packet's flow is not kept, a write of it is refused, and the record is that of the packet alone. -/
structure Spills (t : MeterRun) (clock : Clock) (refusal : Option Refusal) (p : Packet) (r : Refusal) (record : Flow.Record) :
    Prop where
  flow : p.flow? = some record.id
  absent : t.meter.shard.flows.get? record.id = none
  refused : ∀ m, t.meter.shard.writeUnless refusal record.id m = .error r
  positive : 0 < r.errno
  errno : record.metrics.errno.toNat = min r.errno.toNat 255
  packets : record.metrics.packets = 1
  bytes : record.metrics.bytes = p.length
  start : record.metrics.start = clock.now
  stop : record.metrics.stop = clock.now
  handshake : record.metrics.handshake = 0 ∨ record.metrics.handshake = clock.now

/-- The record is that of a packet of the run. -/
def Stems (start : MeterRun) (steps : List MeterStep) (record : Flow.Record) : Prop :=
  ∃ before clock refusal p after r, steps = before ++ .process clock refusal p :: after ∧
    (start.follow before).Spills clock refusal p r record

/-- What a run has done to a meter and its queue. -/
structure Clean (start : MeterRun) (steps : List MeterStep) (t : MeterRun) : Prop where
  kept : ∀ e ∈ t.evicted ++ t.meter.shard.snapshot, e.2.errno = 0
  stems : ∀ record ∈ t.drained ++ t.queue.records, Stems start steps record

variable {start t : MeterRun} {steps : List MeterStep} {record : Flow.Record}

theorem Spills.errno_ne_zero {clock : Clock} {refusal : Option Refusal} {p : Packet} {r : Refusal}
    (h : t.Spills clock refusal p r record) : record.metrics.errno ≠ 0 := by
  intro hz
  have herrno := h.errno
  have hpositive := h.positive
  rw [hz] at herrno
  have hzero : (0 : UInt8).toNat = 0 := rfl
  omega

theorem Stems.errno_ne_zero (h : Stems start steps record) : record.metrics.errno ≠ 0 := by
  obtain ⟨before, clock, refusal, p, after, r, -, hspills⟩ := h
  exact hspills.errno_ne_zero

theorem Stems.later (h : Stems start steps record) (more : List MeterStep) : Stems start (steps ++ more) record := by
  obtain ⟨before, clock, refusal, p, after, r, rfl, hspills⟩ := h
  refine ⟨before, clock, refusal, p, after ++ more, r, ?_, hspills⟩
  rw [List.append_assoc, List.cons_append]

theorem spills_of_overflowed {clock : Clock} {refusal : Option Refusal} {p : Packet} {r : Refusal}
    (hrefusal : ∀ r ∈ refusal, 0 < r.errno)
    (h : (t.meter.process clock t.queue refusal p).outcome = .overflowed r record) : t.Spills clock refusal p r record := by
  have htells := t.meter.process_tells clock t.queue refusal p
  rw [h] at htells
  obtain ⟨-, hflow, habsent, -⟩ := htells
  obtain ⟨id, o, hp, hr, rfl⟩ := Meter.record_of_overflowed h
  obtain ⟨c, -, he⟩ := Option.map_eq_some_iff.1 hp
  cases he
  refine ⟨hflow, habsent, Shard.writeUnless_of_refuses? hr, Shard.positive_of_refuses? hrefusal hr, r.toNat_stamp,
    rfl, rfl, rfl, rfl, ?_⟩
  show (if c.signal.handshake then clock.now else 0) = 0 ∨ (if c.signal.handshake then clock.now else 0) = clock.now
  by_cases hh : c.signal.handshake
  · exact .inr (if_pos hh)
  · exact .inl (if_neg hh)

/-- **Counting leaves no error number.** -/
theorem unmarked_of_tells {o : Outcome} {p : Packet} {time : UInt64} {s s' : Shard} {q q' : Overflow.Queue}
    (h : o.Tells p time s s' q q') (hs : ∀ e ∈ s.snapshot, e.2.errno = 0) : ∀ e ∈ s'.snapshot, e.2.errno = 0 := by
  -- the entry that differs takes its number from the old one, or has none
  cases o with
  | updated =>
    obtain ⟨-, id, ob, m, -, hm, hd⟩ := h
    have hzero : (m.add ob).errno = 0 := hs _ ((s.flows.get?_eq_some_iff id m).1 hm)
    exact hd.forall_entries (P := fun _ m => m.errno = 0) hzero hs
  | inserted =>
    obtain ⟨-, id, ob, -, -, hd⟩ := h
    exact hd.forall_entries (P := fun _ m => m.errno = 0) rfl hs
  | skipped | discarded | updateRefused | overflowed | overflowLost =>
    obtain ⟨rfl, -⟩ := h
    exact hs

theorem follow_concat (t : MeterRun) (steps : List MeterStep) (s : MeterStep) :
    t.follow (steps ++ [s]) = (t.follow steps).step s := by
  unfold follow
  rw [List.foldl_append]
  rfl

namespace Clean

theorem process (h : Clean start steps (start.follow steps)) {clock : Clock} {refusal : Option Refusal} (p : Packet)
    (hrefusal : ∀ r ∈ refusal, 0 < r.errno) :
    Clean start (steps ++ [.process clock refusal p]) ((start.follow steps).step (.process clock refusal p)) := by
  generalize ht : start.follow steps = t at h
  have htells := t.meter.process_tells clock t.queue refusal p
  obtain ⟨-, hrecords⟩ := records_of_tells htells
  unfold step
  constructor
  · intro e he
    rcases List.mem_append.1 he with hevicted | hkept
    · exact h.kept e (List.mem_append_left _ hevicted)
    · exact unmarked_of_tells htells (fun e he => h.kept e (List.mem_append_right _ he)) e hkept
  · intro record hmem
    rcases List.mem_append.1 hmem with hdrained | hqueue
    · exact (h.stems record (List.mem_append_left _ hdrained)).later _
    · rw [hrecords] at hqueue
      rcases List.mem_append.1 hqueue with hwaits | hnew
      · exact (h.stems record (List.mem_append_right _ hwaits)).later _
      · cases ho : (t.meter.process clock t.queue refusal p).outcome with
        | overflowed r record' =>
          rw [ho] at hnew
          obtain rfl := List.mem_singleton.1 hnew
          refine ⟨steps, clock, refusal, p, [], r, rfl, ?_⟩
          rw [ht]
          exact spills_of_overflowed hrefusal ho
        | _ =>
          rw [ho] at hnew
          cases hnew

theorem step (h : Clean start steps (start.follow steps)) (s : MeterStep) (hs : ∀ r ∈ s.refusal?, 0 < r.errno) :
    Clean start (steps ++ [s]) (start.follow (steps ++ [s])) := by
  rw [follow_concat]
  have hstems := fun record hmem => (h.stems record hmem).later [s]
  cases s with
  | process clock refusal p => exact h.process p hs
  | evict =>
    refine ⟨fun e he => ?_, hstems⟩
    rcases List.mem_append.1 he with hevicted | hkept
    · exact h.kept e hevicted
    · cases hkept
  | drain =>
    refine ⟨h.kept, fun record hmem => ?_⟩
    rcases List.mem_append.1 hmem with hdrained | hqueue
    · exact hstems record hdrained
    · cases hqueue
  | close =>
    refine ⟨h.kept, fun record hmem => ?_⟩
    rcases List.mem_append.1 hmem with hdrained | hqueue
    · exact hstems record (List.mem_append_left _ hdrained)
    · cases hqueue

theorem follow (h : Clean start [] start) (steps : List MeterStep) (hsteps : ∀ s ∈ steps, ∀ r ∈ s.refusal?, 0 < r.errno) :
    Clean start steps (start.follow steps) := by
  induction steps using List.reverseRecOn with
  | nil => exact h
  | append_singleton steps s ih =>
    exact (ih fun s' hs' => hsteps s' (List.mem_append_left _ hs')).step s
      (hsteps s (List.mem_append_right _ List.mem_cons_self))

end Clean
end MeterRun
end FlowMeter
