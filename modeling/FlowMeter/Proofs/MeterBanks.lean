import FlowMeter.Proofs.SpilledRecords
/-!
# Meters on one queue

Any number of meters count packets, each in a shard of its own, and leave their overflow records in one queue (`MeterBank`).  What
the first packet of a flow brings about and every later one keeps holds of all metrics that the meters keep, have given up or have
left as records (`MeterBank.Holds.follow`).
-/
namespace FlowMeter

/-- What is done with the meters and their queue: a packet comes to one meter, the flows of one are taken out, or the oldest record
or all of them, or the reader goes. -/
inductive BankStep where
  | process (meter : Nat) (clock : Clock) (refusal : Option Refusal) (p : Packet)
  | evict (meter : Nat)
  | receive
  | drain
  | close
  deriving Repr

namespace BankStep

/-- The time at which a packet comes to the meter. -/
def timeAt? (i : Nat) : BankStep → Option UInt64
  | process j clock _ _ => if j = i then some clock.now else none
  | _ => none

/-- The times at which packets come to the meter, one after another. -/
def timesAt (i : Nat) (steps : List BankStep) : List UInt64 := steps.filterMap (timeAt? i)

theorem timesAt_process (i j : Nat) (clock : Clock) (refusal : Option Refusal) (p : Packet) (steps : List BankStep) :
    timesAt i (process j clock refusal p :: steps) = if j = i then clock.now :: timesAt i steps else timesAt i steps := by
  unfold timesAt
  by_cases h : j = i
  · have htime : (process j clock refusal p).timeAt? i = some clock.now := if_pos h
    rw [if_pos h, List.filterMap_cons_some htime]
  · have htime : (process j clock refusal p).timeAt? i = none := if_neg h
    rw [if_neg h, List.filterMap_cons_none htime]

end BankStep

structure MeterBank where
  meters : List Meter
  queue : Overflow.Queue
  /-- What became of the packets, oldest first. -/
  outcomes : List Outcome := []
  /-- The snapshots that were taken, oldest first. -/
  views : List Flow.Snapshot := []
  received : List Flow.Record := []

/-- A property of a flow's metrics at a time, of which later times are related to earlier ones: the first packet of the flow brings
it about, whatever error number is stamped on it, and it holds on with every packet more. -/
structure Sustained (R : UInt64 → UInt64 → Prop) (Q : UInt64 → Flow.Id → Flow.Metrics → Prop) : Prop where
  first : ∀ {p : Packet} {now id o}, now ≠ 0 → p.observed? now = some (id, o) →
    ∀ errno, Q now id { Flow.Metrics.ofFirst o with errno }
  add : ∀ {p : Packet} {now id o m}, now ≠ 0 → p.observed? now = some (id, o) → Q now id m → Q now id (m.add o)
  later : ∀ {s t id m}, R s t → Q s id m → Q t id m

variable {R : UInt64 → UInt64 → Prop} {Q : UInt64 → Flow.Id → Flow.Metrics → Prop}

/-- **One packet keeps the property**, in the shard and on the record that it may leave. -/
theorem Meter.process_sustains (hQ : Sustained R Q) {m : Meter} {clock : Clock} {before : UInt64} (q : Overflow.Queue)
    (refusal : Option Refusal) (p : Packet) (hnow : clock.now ≠ 0) (hR : R before clock.now)
    (hm : ∀ e ∈ m.shard.snapshot, Q before e.1 e.2) :
    (∀ e ∈ (m.process clock q refusal p).meter.shard.snapshot, Q clock.now e.1 e.2) ∧
      ∀ record ∈ (m.process clock q refusal p).outcome.record?, Q clock.now record.id record.metrics := by
  have htells := m.process_tells clock q refusal p
  have hlater : ∀ e ∈ m.shard.snapshot, Q clock.now e.1 e.2 := fun e he => hQ.later hR (hm e he)
  cases ho : (m.process clock q refusal p).outcome with
  | updated =>
    rw [ho] at htells
    obtain ⟨-, id, o, v, hp, hv, hdiffers⟩ := htells
    have hkept := hlater (id, v) ((m.shard.flows.get?_eq_some_iff id v).1 hv)
    exact ⟨hdiffers.forall_entries (hQ.add hnow hp hkept) hlater, fun _ h => by cases h⟩
  | inserted =>
    rw [ho] at htells
    obtain ⟨-, id, o, hp, -, hdiffers⟩ := htells
    exact ⟨hdiffers.forall_entries (hQ.first hnow hp 0) hlater, fun _ h => by cases h⟩
  | overflowed r record =>
    rw [ho] at htells
    obtain ⟨hshard, -⟩ := htells
    obtain ⟨id, o, hp, -, rfl⟩ := Meter.record_of_overflowed ho
    rw [hshard]
    refine ⟨hlater, fun record hrecord => ?_⟩
    obtain rfl := Option.some.inj hrecord
    exact hQ.first hnow hp r.stamp
  | skipped | discarded | updateRefused | overflowLost =>
    rw [ho] at htells
    obtain ⟨hshard, -⟩ := htells
    rw [hshard]
    exact ⟨hlater, fun _ h => by cases h⟩

namespace MeterBank

/-- New meters, each with its settings and random numbers, and an empty queue. -/
def start (settings : List (MeterSettings × List UInt32)) (slots : Nat) : MeterBank where
  meters := settings.map fun s => Meter.ofSettings s.1 s.2
  queue := .ofSlots slots

def step (t : MeterBank) : BankStep → MeterBank
  | .process i clock refusal p =>
    match t.meters[i]? with
    | some m =>
      let r := m.process clock t.queue refusal p
      { t with meters := t.meters.set i r.meter, queue := r.queue, outcomes := t.outcomes ++ [r.outcome] }
    | none => t
  | .evict i =>
    match t.meters[i]? with
    | some m => { t with meters := t.meters.set i m.emptied, views := t.views ++ [m.shard.snapshot] }
    | none => t
  | .receive =>
    match t.queue.next? with
    | some (record, queue) => { t with queue, received := t.received ++ [record] }
    | none => t
  | .drain => { t with queue := t.queue.drained, received := t.received ++ t.queue.records }
  | .close => { t with queue := t.queue.close }

def follow (t : MeterBank) (steps : List BankStep) : MeterBank := steps.foldl step t

section

variable {t : MeterBank} {i : Nat}

theorem step_process {m : Meter} (h : t.meters[i]? = some m) (clock : Clock) (refusal : Option Refusal) (p : Packet) :
    t.step (.process i clock refusal p) =
      { t with
        meters := t.meters.set i (m.process clock t.queue refusal p).meter
        queue := (m.process clock t.queue refusal p).queue
        outcomes := t.outcomes ++ [(m.process clock t.queue refusal p).outcome] } := by
  simp only [step, h]

theorem step_process_none (h : t.meters[i]? = none) (clock : Clock) (refusal : Option Refusal) (p : Packet) :
    t.step (.process i clock refusal p) = t := by
  simp only [step, h]

theorem step_evict {m : Meter} (h : t.meters[i]? = some m) :
    t.step (.evict i) = { t with meters := t.meters.set i m.emptied, views := t.views ++ [m.shard.snapshot] } := by
  simp only [step, h]

theorem step_evict_none (h : t.meters[i]? = none) : t.step (.evict i) = t := by
  simp only [step, h]

theorem step_receive {record : Flow.Record} {queue : Overflow.Queue} (h : t.queue.next? = some (record, queue)) :
    t.step .receive = { t with queue, received := t.received ++ [record] } := by
  simp only [step, h]

theorem step_receive_none (h : t.queue.next? = none) : t.step .receive = t := by
  simp only [step, h]

end

/-- All that has left the shards: the snapshots, and the records that were received or wait. -/
def departed (t : MeterBank) : Flow.Snapshot := t.views.flatten ++ (t.received ++ t.queue.records).map Flow.Record.entry

/-- All that the meters have made of their packets, as far as it was not lost. -/
def parts (t : MeterBank) : Flow.Snapshot := t.meters.flatMap (fun m => m.shard.snapshot) ++ t.departed

/-- The property holds of what each meter keeps, at the time of the last packet that came to it, and of all that has left the
shards, at some time. -/
structure Holds (Q : UInt64 → Flow.Id → Flow.Metrics → Prop) (since : Nat → UInt64) (t : MeterBank) : Prop where
  kept : ∀ {i m}, t.meters[i]? = some m → ∀ e ∈ m.shard.snapshot, Q (since i) e.1 e.2
  departed : ∀ e ∈ t.departed, ∃ time, Q time e.1 e.2

/-- No packet comes to one of so many meters at time zero, or at a time that is not related to that of the one before. -/
def Ticks (R : UInt64 → UInt64 → Prop) (since : Nat → UInt64) (meters : Nat) (steps : List BankStep) : Prop :=
  ∀ i < meters, (BankStep.timesAt i steps).Pairwise R ∧ ∀ time ∈ BankStep.timesAt i steps, time ≠ 0 ∧ R (since i) time

variable {since : Nat → UInt64} {t : MeterBank}

theorem Ticks.process {meters i : Nat} {clock : Clock} {refusal : Option Refusal} {p : Packet} {steps : List BankStep}
    (h : Ticks R since meters (.process i clock refusal p :: steps)) (hi : i < meters) :
    clock.now ≠ 0 ∧ R (since i) clock.now ∧ Ticks R (Function.update since i clock.now) meters steps := by
  obtain ⟨hsorted, hfits⟩ := h i hi
  rw [BankStep.timesAt_process, if_pos rfl] at hsorted hfits
  obtain ⟨hnow, hR⟩ := hfits clock.now List.mem_cons_self
  rw [List.pairwise_cons] at hsorted
  refine ⟨hnow, hR, fun j hj => ?_⟩
  by_cases hij : j = i
  · subst hij
    rw [Function.update_self]
    exact ⟨hsorted.2, fun time ht => ⟨(hfits time (List.mem_cons_of_mem _ ht)).1, hsorted.1 time ht⟩⟩
  · have hother := h j hj
    rw [BankStep.timesAt_process, if_neg (Ne.symm hij)] at hother
    rw [Function.update_of_ne hij]
    exact hother

theorem Ticks.other {meters : Nat} {s : BankStep} {steps : List BankStep} (h : Ticks R since meters (s :: steps))
    (hs : ∀ i < meters, s.timeAt? i = none) : Ticks R since meters steps := by
  intro i hi
  have htimes := h i hi
  unfold BankStep.timesAt at htimes
  rw [List.filterMap_cons_none (hs i hi)] at htimes
  exact htimes

theorem length_meters_start (settings : List (MeterSettings × List UInt32)) (slots : Nat) :
    (start settings slots).meters.length = settings.length := List.length_map _

/-- The clocks of new meters may show any time first, but must not go back from then on. -/
theorem ticks_start {settings : List (MeterSettings × List UInt32)} {steps : List BankStep} (slots : Nat)
    (hclock : ∀ i < settings.length, (BankStep.timesAt i steps).Pairwise (· ≤ ·) ∧ 0 ∉ BankStep.timesAt i steps) :
    Ticks (· ≤ ·) (fun _ => 0) (start settings slots).meters.length steps := by
  intro i hi
  rw [length_meters_start] at hi
  obtain ⟨hsorted, hzero⟩ := hclock i hi
  exact ⟨hsorted, fun now hnow => ⟨ne_of_mem_of_not_mem hnow hzero, UInt64.zero_le⟩⟩

/-- No meter comes or goes. -/
theorem length_meters_step (t : MeterBank) (s : BankStep) : (t.step s).meters.length = t.meters.length := by
  cases s with
  | process i clock refusal p =>
    cases hm : t.meters[i]? with
    | none => rw [step_process_none hm]
    | some m => rw [step_process hm, List.length_set]
  | evict i =>
    cases hm : t.meters[i]? with
    | none => rw [step_evict_none hm]
    | some m => rw [step_evict hm, List.length_set]
  | receive =>
    cases hnext : t.queue.next? with
    | none => rw [step_receive_none hnext]
    | some next => rw [step_receive hnext]
  | drain | close => rfl

theorem mem_departed {t : MeterBank} {e : Flow.Id × Flow.Metrics} :
    e ∈ t.departed ↔ e ∈ t.views.flatten ∨ e ∈ (t.received ++ t.queue.records).map Flow.Record.entry := List.mem_append

namespace Holds

theorem start (settings : List (MeterSettings × List UInt32)) (slots : Nat) (since : Nat → UInt64) :
    Holds Q since (MeterBank.start settings slots) where
  kept hm e he := by
    obtain ⟨s, -, rfl⟩ := List.mem_map.1 (List.mem_of_getElem? hm)
    cases he
  departed e he := by cases he

theorem process (hQ : Sustained R Q) (h : Holds Q since t) {i : Nat} {m : Meter} (hm : t.meters[i]? = some m) {clock : Clock}
    (refusal : Option Refusal) (p : Packet) (hnow : clock.now ≠ 0) (hR : R (since i) clock.now) :
    Holds Q (Function.update since i clock.now) (t.step (.process i clock refusal p)) := by
  obtain ⟨hkept, hrecord⟩ := m.process_sustains hQ t.queue refusal p hnow hR (h.kept hm)
  obtain ⟨-, hrecords⟩ := MeterRun.records_of_tells (m.process_tells clock t.queue refusal p)
  rw [step_process hm]
  refine ⟨fun {j m'} hj => ?_, fun e he => ?_⟩
  · rcases getElem?_set_cases hj with ⟨rfl, rfl⟩ | ⟨hij, hj⟩
    · rw [Function.update_self]
      exact hkept
    · rw [Function.update_of_ne (Ne.symm hij)]
      exact h.kept hj
  · rcases mem_departed.1 he with hview | hleft
    · exact h.departed e (mem_departed.2 (.inl hview))
    · rw [hrecords, ← List.append_assoc, List.map_append, List.mem_append] at hleft
      rcases hleft with hleft | hnew
      · exact h.departed e (mem_departed.2 (.inr hleft))
      · obtain ⟨record, hmem, rfl⟩ := List.mem_map.1 hnew
        exact ⟨clock.now, hrecord record (Option.mem_toList.1 hmem)⟩

theorem evict (h : Holds Q since t) (i : Nat) : Holds Q since (t.step (.evict i)) := by
  cases hm : t.meters[i]? with
  | none => rwa [step_evict_none hm]
  | some m =>
    rw [step_evict hm]
    refine ⟨fun {j m'} hj => ?_, fun e he => ?_⟩
    · rcases getElem?_set_cases hj with ⟨rfl, rfl⟩ | ⟨-, hj⟩
      · intro e he
        cases he
      · exact h.kept hj
    · rcases mem_departed.1 he with hview | hleft
      · rw [List.flatten_append, List.flatten_singleton, List.mem_append] at hview
        rcases hview with hview | hnew
        · exact h.departed e (mem_departed.2 (.inl hview))
        · exact ⟨since i, h.kept hm e hnew⟩
      · exact h.departed e (mem_departed.2 (.inr hleft))

/-- Records that were there before are no news. -/
theorem leave (h : Holds Q since t) {queue : Overflow.Queue} {received : List Flow.Record}
    (hleft : ∀ record ∈ received ++ queue.records, record ∈ t.received ++ t.queue.records) :
    Holds Q since { t with queue, received } where
  kept := h.kept
  departed e he := by
    rcases mem_departed.1 he with hview | hrecord
    · exact h.departed e (mem_departed.2 (.inl hview))
    · obtain ⟨record, hmem, rfl⟩ := List.mem_map.1 hrecord
      exact h.departed _ (mem_departed.2 (.inr (List.mem_map_of_mem (hleft record hmem))))

theorem receive (h : Holds Q since t) : Holds Q since (t.step .receive) := by
  cases hnext : t.queue.next? with
  | none => rwa [step_receive_none hnext]
  | some next =>
    obtain ⟨record, queue⟩ := next
    rw [step_receive hnext]
    refine h.leave fun record' hmem => ?_
    rwa [Overflow.Queue.records_of_next? hnext, List.append_cons]

theorem drain (h : Holds Q since t) : Holds Q since (t.step .drain) := by
  refine h.leave fun record hmem => ?_
  have hempty : t.queue.drained.records = [] := rfl
  rwa [hempty, List.append_nil] at hmem

theorem close (h : Holds Q since t) : Holds Q since (t.step .close) := by
  refine h.leave fun record hmem => ?_
  have hempty : t.queue.close.records = [] := rfl
  rw [hempty, List.append_nil] at hmem
  exact List.mem_append_left _ hmem

/-- **One step keeps the property**, at the last times of the meters as they are then. -/
theorem step (hQ : Sustained R Q) (h : Holds Q since t) {s : BankStep} {steps : List BankStep}
    (hticks : Ticks R since t.meters.length (s :: steps)) :
    ∃ since', Holds Q since' (t.step s) ∧ Ticks R since' (t.step s).meters.length steps := by
  rw [length_meters_step]
  cases s with
  | process i clock refusal p =>
    cases hm : t.meters[i]? with
    | none =>
      rw [step_process_none hm]
      exact ⟨since, h, hticks.other fun j hj =>
        if_neg (Nat.ne_of_gt (Nat.lt_of_lt_of_le hj (List.getElem?_eq_none_iff.1 hm)))⟩
    | some m =>
      obtain ⟨hi, -⟩ := List.getElem?_eq_some_iff.1 hm
      obtain ⟨hnow, hR, hrest⟩ := hticks.process hi
      exact ⟨_, h.process hQ hm refusal p hnow hR, hrest⟩
  | evict i => exact ⟨since, h.evict i, hticks.other fun _ _ => rfl⟩
  | receive => exact ⟨since, h.receive, hticks.other fun _ _ => rfl⟩
  | drain => exact ⟨since, h.drain, hticks.other fun _ _ => rfl⟩
  | close => exact ⟨since, h.close, hticks.other fun _ _ => rfl⟩

/-- **What packets bring about and keep holds after every run.** -/
theorem follow (hQ : Sustained R Q) : ∀ (steps : List BankStep) {since : Nat → UInt64} {t : MeterBank}, Holds Q since t →
    Ticks R since t.meters.length steps → ∃ since, Holds Q since (t.follow steps)
  | [], since, _, h, _ => ⟨since, h⟩
  | _ :: steps, _, _, h, hticks => by
    obtain ⟨since', h', hrest⟩ := h.step hQ hticks
    exact follow hQ steps h' hrest

/-- All parts have the property, each at some time. -/
theorem parts (h : Holds Q since t) : ∀ e ∈ t.parts, ∃ time, Q time e.1 e.2 := by
  intro e he
  rcases List.mem_append.1 he with hkept | hdeparted
  · obtain ⟨m, hm, he⟩ := List.mem_flatMap.1 hkept
    obtain ⟨i, hi⟩ := List.mem_iff_getElem?.1 hm
    exact ⟨since i, h.kept hi e he⟩
  · exact h.departed e hdeparted

end Holds
end MeterBank
end FlowMeter
