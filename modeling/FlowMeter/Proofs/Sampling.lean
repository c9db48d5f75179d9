import FlowMeter.Proofs.Destinations
/-!
# Sampling is a filter

A meter that samples does with its packets what one that does not would do with those whose random numbers count, and nothing with
the others but to use their numbers up (`MeterRun.sampling_filters`).  The clock is read once for each packet that is neither skipped
nor discarded (`Meter.reads_process`).
-/
namespace FlowMeter

namespace Meter

theorem submit_counted_ne (q : Overflow.Queue) (applied : Applied) :
    ¬ ((submit q (.counted applied)).2 = .skipped ∨ (submit q (.counted applied)).2 = .discarded) := by
  cases applied with
  | updated | inserted | updateRefused => simp [submit]
  | overflow r record =>
    simp only [submit]
    split <;> simp

/-- **The clock is read once for each packet that is neither skipped nor discarded, and for no other.** -/
theorem reads_process (m : Meter) (clock : Clock) (q : Overflow.Queue) (refusal : Option Refusal) (p : Packet) :
    let r := m.process clock q refusal p
    r.clock.reads = clock.reads + if r.outcome = .skipped ∨ r.outcome = .discarded then 0 else 1 := by
  rw [process, take_eq]
  cases (m.settings.draw m.draws).1 with
  | false => rfl
  | true =>
    cases p.observed? clock.now with
    | none => rfl
    | some e => exact congrArg (clock.reads + ·) (if_neg (submit_counted_ne q _)).symm

variable {m : Meter} {draw : UInt32} {draws : List UInt32}

/-- A packet whose number does not count uses it up. -/
theorem process_skipped (hsampling : m.settings.sampling ≠ 0) (hdraws : m.draws = draw :: draws)
    (hdraw : draw % m.settings.sampling ≠ 0) (clock : Clock) (q : Overflow.Queue) (refusal : Option Refusal) (p : Packet) :
    m.process clock q refusal p = { meter := { m with draws }, clock, queue := q, outcome := .skipped } := by
  have hcounts : m.settings.draw m.draws = (false, draws) := by
    rw [MeterSettings.draw, if_neg hsampling, hdraws]
    exact Prod.ext (decide_eq_false hdraw) rfl
  rw [process, take_eq, hcounts]
  rfl

/-- The meter without sampling, and with random numbers that it has no use for. -/
def unsampled (m : Meter) (idle : List UInt32) : Meter :=
  { m with settings := { m.settings with sampling := 0 }, draws := idle }

/-- A packet whose number counts does what it would do without sampling. -/
theorem process_counted (hsampling : m.settings.sampling ≠ 0) (hdraws : m.draws = draw :: draws)
    (hdraw : draw % m.settings.sampling = 0) (idle : List UInt32) (clock : Clock) (q : Overflow.Queue) (refusal : Option Refusal)
    (p : Packet) :
    m.process clock q refusal p =
      { (m.unsampled idle).process clock q refusal p with
        meter := { m with draws, shard := ((m.unsampled idle).process clock q refusal p).meter.shard } } ∧
    ((m.unsampled idle).process clock q refusal p).meter =
      { m.unsampled idle with shard := ((m.unsampled idle).process clock q refusal p).meter.shard } := by
  have hcounts : m.settings.draw m.draws = (true, draws) := by
    rw [MeterSettings.draw, if_neg hsampling, hdraws]
    exact Prod.ext (decide_eq_true hdraw) rfl
  have hplain : (m.unsampled idle).settings.draw (m.unsampled idle).draws = (true, idle) := if_pos rfl
  rw [process, process, take_eq, take_eq, hcounts, hplain]
  cases p.observed? clock.now <;> exact ⟨rfl, rfl⟩

end Meter

/-- What is done with a meter that samples: each packet comes with the random number that is used for it. -/
inductive SampledStep where
  | process (draw : UInt32) (clock : Clock) (refusal : Option Refusal) (p : Packet)
  | evict
  | drain
  | close
  deriving Repr

namespace SampledStep

/-- What is done, whatever the number. -/
def toMeter : SampledStep → MeterStep
  | process _ clock refusal p => .process clock refusal p
  | evict => .evict
  | drain => .drain
  | close => .close

def draw? : SampledStep → Option UInt32
  | process draw _ _ _ => some draw
  | _ => none

/-- The numbers of the packets, one after another. -/
def draws (steps : List SampledStep) : List UInt32 := steps.filterMap draw?

/-- The number of the packet is a multiple, if it is a packet. -/
def counts (n : UInt32) (s : SampledStep) : Bool := s.draw?.all fun draw => draw % n = 0

/-- What is done, whatever the numbers. -/
def plain (steps : List SampledStep) : List MeterStep := steps.map toMeter

/-- What is left when the packets are gone whose numbers are no multiples. -/
def sampled (n : UInt32) (steps : List SampledStep) : List MeterStep := plain (steps.filter (counts n))

section

variable {n draw : UInt32} (clock : Clock) (refusal : Option Refusal) (p : Packet) (steps : List SampledStep)

theorem sampled_process (hdraw : draw % n = 0) :
    sampled n (process draw clock refusal p :: steps) = .process clock refusal p :: sampled n steps := by
  have hcounts : counts n (process draw clock refusal p) = true := decide_eq_true hdraw
  rw [sampled, List.filter_cons_of_pos hcounts]
  rfl

theorem sampled_process_of_ne (hdraw : draw % n ≠ 0) :
    sampled n (process draw clock refusal p :: steps) = sampled n steps := by
  have hcounts : counts n (process draw clock refusal p) = false := decide_eq_false hdraw
  rw [sampled, List.filter_cons_of_neg (Bool.eq_false_iff.1 hcounts)]
  rfl

end

end SampledStep

/-- A packet comes to a meter. -/
structure MeterCall where
  before : Meter
  clock : Clock
  packet : Packet
  result : Meter.Processed

namespace MeterRun

/-- The packets of a run as they come to the meter. -/
def calls (t : MeterRun) : List MeterStep → List MeterCall
  | [] => []
  | .process clock refusal p :: steps =>
    { before := t.meter, clock, packet := p, result := t.meter.process clock t.queue refusal p } ::
      (t.step (.process clock refusal p)).calls steps
  | s :: steps => (t.step s).calls steps

/-- The outcomes of a run are those of its calls. -/
theorem outcomes_follow : ∀ (steps : List MeterStep) (t : MeterRun),
    (t.follow steps).outcomes = t.outcomes ++ (t.calls steps).map fun c => (c.packet, c.result.outcome)
  | [], t => (List.append_nil _).symm
  | .process clock refusal p :: steps, t => by
    have hrest := outcomes_follow steps (t.step (.process clock refusal p))
    rw [step, List.append_assoc] at hrest
    exact hrest
  | .evict :: steps, t => outcomes_follow steps (t.step .evict)
  | .drain :: steps, t => outcomes_follow steps (t.step .drain)
  | .close :: steps, t => outcomes_follow steps (t.step .close)

theorem reads_calls : ∀ (steps : List MeterStep) (t : MeterRun), ∀ c ∈ t.calls steps,
    c.result.clock.reads =
      c.clock.reads + if c.result.outcome = .skipped ∨ c.result.outcome = .discarded then 0 else 1
  | [], _ => fun _ hc => by cases hc
  | .process clock refusal p :: steps, t =>
    List.forall_mem_cons.2 ⟨t.meter.reads_process clock t.queue refusal p, reads_calls steps (t.step (.process clock refusal p))⟩
  | .evict :: steps, t => reads_calls steps (t.step .evict)
  | .drain :: steps, t => reads_calls steps (t.step .drain)
  | .close :: steps, t => reads_calls steps (t.step .close)

/-- The second run is the first one without sampling: of the meters, only the settings and the random numbers differ. -/
structure Sifts (s : MeterSettings) (draws idle : List UInt32) (t u : MeterRun) : Prop where
  settings : t.meter.settings = s
  draws : t.meter.draws = draws
  meter : u.meter = t.meter.unsampled idle
  queue : u.queue = t.queue
  evicted : u.evicted = t.evicted
  drained : u.drained = t.drained

namespace Sifts

variable {s : MeterSettings} {draw : UInt32} {draws idle : List UInt32} {t u : MeterRun}

theorem skip (h : Sifts s (draw :: draws) idle t u) (hsampling : s.sampling ≠ 0) (hdraw : draw % s.sampling ≠ 0) (clock : Clock)
    (refusal : Option Refusal) (p : Packet) : Sifts s draws idle (t.step (.process clock refusal p)) u := by
  obtain ⟨rfl, hdraws, hmeter, hqueue, hevicted, hdrained⟩ := h
  rw [step, Meter.process_skipped hsampling hdraws hdraw]
  exact ⟨rfl, rfl, hmeter, hqueue, hevicted, hdrained⟩

theorem count (h : Sifts s (draw :: draws) idle t u) (hsampling : s.sampling ≠ 0) (hdraw : draw % s.sampling = 0) (clock : Clock)
    (refusal : Option Refusal) (p : Packet) :
    (u.meter.process clock u.queue refusal p).outcome = (t.meter.process clock t.queue refusal p).outcome ∧
      Sifts s draws idle (t.step (.process clock refusal p)) (u.step (.process clock refusal p)) := by
  obtain ⟨rfl, hdraws, hmeter, hqueue, hevicted, hdrained⟩ := h
  obtain ⟨ht, hu⟩ := Meter.process_counted hsampling hdraws hdraw idle clock t.queue refusal p
  rw [step, step, hmeter, hqueue, ht]
  exact ⟨rfl, rfl, rfl, hu, rfl, hevicted, hdrained⟩

theorem evict (h : Sifts s draws idle t u) : Sifts s draws idle (t.step .evict) (u.step .evict) := by
  obtain ⟨rfl, rfl, hmeter, hqueue, hevicted, hdrained⟩ := h
  unfold step
  rw [hmeter, hevicted]
  exact ⟨rfl, rfl, rfl, hqueue, rfl, hdrained⟩

theorem drain (h : Sifts s draws idle t u) : Sifts s draws idle (t.step .drain) (u.step .drain) := by
  obtain ⟨rfl, rfl, hmeter, hqueue, hevicted, hdrained⟩ := h
  unfold step
  rw [hqueue, hdrained]
  exact ⟨rfl, rfl, hmeter, rfl, hevicted, rfl⟩

theorem close (h : Sifts s draws idle t u) : Sifts s draws idle (t.step .close) (u.step .close) := by
  obtain ⟨rfl, rfl, hmeter, hqueue, hevicted, hdrained⟩ := h
  unfold step
  rw [hqueue]
  exact ⟨rfl, rfl, hmeter, rfl, hevicted, hdrained⟩

end Sifts

/-- From the first run to the second, only the packets are missing whose random numbers do not count. -/
structure Sifted (s : MeterSettings) (steps : List SampledStep) (more idle : List UInt32) (t u : MeterRun) : Prop where
  /-- The runs end alike, when all numbers of the packets are used up. -/
  ending : Sifts s more idle (t.follow (SampledStep.plain steps)) (u.follow (SampledStep.sampled s.sampling steps))
  /-- Each packet uses its number up, and is skipped if it does not count. -/
  drawn : List.Forall₂
    (fun draw c => c.before.draws = draw :: c.result.meter.draws ∧ (draw % s.sampling ≠ 0 → c.result.outcome = .skipped))
    (SampledStep.draws steps) (t.calls (SampledStep.plain steps))
  /-- The other packets come out as in the second run. -/
  outcomes :
    (((SampledStep.draws steps).zip (t.calls (SampledStep.plain steps))).filter fun e => e.1 % s.sampling = 0).map
        (fun e => (e.2.packet, e.2.result.outcome)) =
      (u.calls (SampledStep.sampled s.sampling steps)).map fun c => (c.packet, c.result.outcome)

open SampledStep (sampled) in
/-- **Step by step, the packets that do not count leave no trace.** -/
theorem Sifts.follow {s : MeterSettings} {more idle : List UInt32} (hsampling : s.sampling ≠ 0) :
    ∀ (steps : List SampledStep) {t u : MeterRun},
      Sifts s (SampledStep.draws steps ++ more) idle t u → Sifted s steps more idle t u
  | [], _, _, h => ⟨h, .nil, rfl⟩
  | .process draw clock refusal p :: steps, t, u, h => by
    by_cases hdraw : draw % s.sampling = 0
    · obtain ⟨houtcome, hstep⟩ := h.count hsampling hdraw clock refusal p
      obtain ⟨hending, hdrawn, houtcomes⟩ := follow hsampling steps hstep
      have hused := h.draws.trans (congrArg (draw :: ·) hstep.draws.symm)
      have hfilter := SampledStep.sampled_process clock refusal p steps hdraw
      refine ⟨by rw [hfilter]; exact hending, .cons ⟨hused, fun hne => absurd hdraw hne⟩ hdrawn, ?_⟩
      rw [hfilter]
      show ((List.filter _ ((draw, _) :: List.zip _ _)).map _ : List (Packet × Outcome)) =
        (p, (u.meter.process clock u.queue refusal p).outcome) :: List.map _ _
      rw [List.filter_cons_of_pos (by simpa using hdraw), List.map_cons, houtcome]
      exact congrArg _ houtcomes
    · have hstep := h.skip hsampling hdraw clock refusal p
      obtain ⟨hending, hdrawn, houtcomes⟩ := follow hsampling steps hstep
      have hused := h.draws.trans (congrArg (draw :: ·) hstep.draws.symm)
      have hskipped : (t.meter.process clock t.queue refusal p).outcome = .skipped := by
        obtain ⟨rfl, hdraws, -⟩ := h
        rw [Meter.process_skipped hsampling hdraws hdraw]
      have hfilter := SampledStep.sampled_process_of_ne clock refusal p steps hdraw
      refine ⟨by rw [hfilter]; exact hending, .cons ⟨hused, fun _ => hskipped⟩ hdrawn, ?_⟩
      rw [hfilter]
      show ((List.filter _ ((draw, _) :: List.zip _ _)).map _ : List (Packet × Outcome)) = _
      rw [List.filter_cons_of_neg (by simpa using hdraw)]
      exact houtcomes
  | .evict :: steps, _, _, h => by
    obtain ⟨hending, hdrawn, houtcomes⟩ := follow hsampling steps h.evict
    exact ⟨hending, hdrawn, houtcomes⟩
  | .drain :: steps, _, _, h => by
    obtain ⟨hending, hdrawn, houtcomes⟩ := follow hsampling steps h.drain
    exact ⟨hending, hdrawn, houtcomes⟩
  | .close :: steps, _, _, h => by
    obtain ⟨hending, hdrawn, houtcomes⟩ := follow hsampling steps h.close
    exact ⟨hending, hdrawn, houtcomes⟩

/-- **Sampling is a filter on the packets.**  A meter that samples ends as one that does not, to which only the packets with
multiples have come, and each packet uses one random number and is skipped or has the outcome that it has there.  In both runs the
clock is read once for every packet that is neither skipped nor discarded. -/
theorem sampling_filters (m : Meter) (hsampling : m.settings.sampling ≠ 0) (q : Overflow.Queue) (steps : List SampledStep)
    (more idle : List UInt32) :
    let t : MeterRun := { meter := { m with draws := SampledStep.draws steps ++ more }, queue := q }
    let u : MeterRun := { meter := m.unsampled idle, queue := q }
    Sifted m.settings steps more idle t u ∧
      ∀ c ∈ t.calls (SampledStep.plain steps) ++ u.calls (SampledStep.sampled m.settings.sampling steps),
        c.result.clock.reads = c.clock.reads + if c.result.outcome = .skipped ∨ c.result.outcome = .discarded then 0 else 1 := by
  intro t u
  have hsifts : Sifts m.settings (SampledStep.draws steps ++ more) idle t u := ⟨rfl, rfl, rfl, rfl, rfl, rfl⟩
  refine ⟨hsifts.follow hsampling steps, fun c hc => ?_⟩
  rcases List.mem_append.1 hc with hc | hc
  · exact reads_calls _ t c hc
  · exact reads_calls _ u c hc

/-- One packet in three counts, about: the first is skipped, the second is kept and taken out, the third is cut short and the fourth is
kept.  Of the last two, for whose flow there is no room, one is skipped and one overflows. -/
theorem sampling_filters_one_in_three :
    let p (octet : UInt8) : Packet := { frame := List.replicate 14 octet, length := 60, interface := 1, direction := .ingress }
    let short : Packet := { frame := [1, 2, 3], length := 60, interface := 1, direction := .egress }
    let m := Meter.ofSettings { sampling := 3, capacity := 1 } []
    let steps : List SampledStep :=
      [.process 7 ⟨4, 0⟩ none (p 6), .process 9 ⟨5, 0⟩ none (p 6), .evict, .process 12 ⟨6, 0⟩ none short,
        .process 3 ⟨7, 0⟩ none (p 6), .process 1 ⟨8, 0⟩ none (p 7), .process 0 ⟨9, 0⟩ none (p 7)]
    let t : MeterRun := { meter := { m with draws := SampledStep.draws steps ++ [5] }, queue := .ofSlots 2 }
    let u : MeterRun := { meter := m.unsampled [], queue := .ofSlots 2 }
    m.settings.sampling ≠ 0 ∧
      (t.follow (SampledStep.plain steps)).outcomes.map (fun e => e.2.isKept) = [false, true, false, true, false, false] ∧
      (u.follow (SampledStep.sampled 3 steps)).queue.records.length = 1 ∧
      Sifted m.settings steps [5] [] t u ∧
      ∀ c ∈ t.calls (SampledStep.plain steps) ++ u.calls (SampledStep.sampled m.settings.sampling steps),
        c.result.clock.reads = c.clock.reads + if c.result.outcome = .skipped ∨ c.result.outcome = .discarded then 0 else 1 := by
  intro p short m steps t u
  have hsampling : m.settings.sampling ≠ 0 := by decide
  exact ⟨hsampling, by decide +kernel, by decide +kernel, sampling_filters m hsampling (.ofSlots 2) steps [5] []⟩

end MeterRun
end FlowMeter
