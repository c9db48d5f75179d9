import FlowMeter.Proofs.ShardChanges
/-!
# Where packets end

Every packet that a meter takes ends in one place, which its outcome names: in the entry of its own flow, as a record at the end
of the queue, or nowhere (`Outcome.Tells`, `Meter.process_tells`).  Over a run with evictions, drains and refusals the flows
count the packets that were kept and the records are those of the packets that overflowed (`MeterRun.Balanced`).
-/
namespace FlowMeter

open FlowMeter.Flow (weigh Metrics.volume)

/-- The two shards differ in the entry of one flow, which has these metrics in the second. -/
structure Shard.DiffersAt (s s' : Shard) (id : Flow.Id) (m : Flow.Metrics) : Prop where
  capacity : s'.capacity = s.capacity
  entry : s'.flows.get? id = some m
  others : ∀ id', id' ≠ id → s'.flows.get? id' = s.flows.get? id'

/-- What holds of all entries and of the one that differs holds of all entries afterwards. -/
theorem Shard.DiffersAt.forall_entries {s s' : Shard} {id : Flow.Id} {m : Flow.Metrics} (h : s.DiffersAt s' id m)
    {P : Flow.Id → Flow.Metrics → Prop} (hm : P id m) (hs : ∀ e ∈ s.snapshot, P e.1 e.2) : ∀ e ∈ s'.snapshot, P e.1 e.2 := by
  rintro ⟨id', m'⟩ he
  have hget := (s'.flows.get?_eq_some_iff id' m').2 he
  by_cases hid : id' = id
  · subst hid
    rw [h.entry] at hget
    cases hget
    exact hm
  · rw [h.others id' hid] at hget
    exact hs _ ((s.flows.get?_eq_some_iff id' m').1 hget)

theorem Shard.differsAt_counted (s : Shard) (id : Flow.Id) (o : Flow.Observation) :
    s.DiffersAt (s.counted id o) id (((s.flows.get? id).map fun m => m.add o).getD (.ofFirst o)) where
  capacity := rfl
  entry := by rw [get?_counted, if_pos rfl]
  others id' h := by rw [get?_counted, if_neg h]

/-- What an outcome tells of the flows that are kept and of the records that wait. -/
def Outcome.Tells (p : Packet) (time : UInt64) (s s' : Shard) (q q' : Overflow.Queue) : Outcome → Prop
  | .skipped | .discarded | .updateRefused _ | .overflowLost _ _ => s' = s ∧ q' = q
  | .updated => q' = q ∧ ∃ id o m, p.observed? time = some (id, o) ∧ s.flows.get? id = some m ∧ s.DiffersAt s' id (m.add o)
  | .inserted =>
    q' = q ∧ ∃ id o, p.observed? time = some (id, o) ∧ s.flows.get? id = none ∧ s.DiffersAt s' id (.ofFirst o)
  | .overflowed _ record =>
    s' = s ∧ p.flow? = some record.id ∧ s.flows.get? record.id = none ∧
      q' = { q with waiting := q.waiting ++ [record.toOctets] }

def Outcome.isKept : Outcome → Bool
  | .updated | .inserted => true
  | _ => false

def Outcome.record? : Outcome → Option Flow.Record
  | .overflowed _ record => some record
  | _ => none

/-- **Where a packet ends.** -/
theorem Meter.process_tells (m : Meter) (clock : Clock) (q : Overflow.Queue) (refusal : Option Refusal) (p : Packet) :
    (m.process clock q refusal p).outcome.Tells p clock.now m.shard (m.process clock q refusal p).meter.shard q
      (m.process clock q refusal p).queue := by
  rw [process, take_eq]
  cases (m.settings.draw m.draws).1 with
  | false => exact ⟨rfl, rfl⟩
  | true =>
    cases hp : p.observed? clock.now with
    | none => exact ⟨rfl, rfl⟩
    | some e =>
      obtain ⟨id, o⟩ := e
      simp only [if_true, Shard.apply_eq]
      have hdiffers := m.shard.differsAt_counted id o
      cases hr : m.shard.refuses? refusal id with
      | none =>
        cases hg : m.shard.flows.get? id with
        | some v =>
          rw [hg] at hdiffers
          simp only [Table.contains, hg, Option.isSome_some, if_true, submit]
          exact ⟨rfl, id, o, v, hp, hg, hdiffers⟩
        | none =>
          rw [hg] at hdiffers
          simp only [Table.contains, hg, Option.isSome_none, Bool.false_eq_true, if_false, submit]
          exact ⟨rfl, id, o, hp, hg, hdiffers⟩
      | some r =>
        cases hg : m.shard.flows.get? id with
        | some v =>
          simp only [Table.contains, hg, Option.isSome_some, if_true, submit]
          exact ⟨rfl, rfl⟩
        | none =>
          simp only [Table.contains, hg, Option.isSome_none, Bool.false_eq_true, if_false, submit]
          cases hs : q.submit (Shard.refusedRecord id o r) with
          | error f => exact ⟨rfl, rfl⟩
          | ok q' => exact ⟨rfl, Packet.flow?_of_observed? hp, hg, Overflow.Queue.eq_of_submit hs⟩

/-- What is done with a meter and its queue: a packet is processed, all flows or all records are taken out, or the reader goes. -/
inductive MeterStep where
  | process (clock : Clock) (refusal : Option Refusal) (p : Packet)
  | evict
  | drain
  | close
  deriving Repr

/-- A meter with its queue, and all that has come of its packets. -/
structure MeterRun where
  meter : Meter
  queue : Overflow.Queue
  /-- Every packet with its outcome, oldest first. -/
  outcomes : List (Packet × Outcome) := []
  evicted : Flow.Snapshot := []
  drained : List Flow.Record := []

namespace MeterRun

def step (t : MeterRun) : MeterStep → MeterRun
  | .process clock refusal p =>
    let r := t.meter.process clock t.queue refusal p
    { t with meter := r.meter, queue := r.queue, outcomes := t.outcomes ++ [(p, r.outcome)] }
  | .evict => { t with meter := t.meter.emptied, evicted := t.evicted ++ t.meter.shard.snapshot }
  | .drain => { t with queue := t.queue.drained, drained := t.drained ++ t.queue.records }
  | .close => { t with queue := t.queue.close }

def follow (t : MeterRun) (steps : List MeterStep) : MeterRun := steps.foldl step t

def kept (t : MeterRun) (id : Flow.Id) : Nat := t.outcomes.countP fun e => e.2.isKept ∧ e.1.flow? = some id

/-- What has been taken out of a flow, and what it still has. -/
def volume (t : MeterRun) (id : Flow.Id) : Flow.Volume :=
  weigh Metrics.volume id t.evicted + weigh Metrics.volume id t.meter.shard.snapshot

/-- The records that packets have left, oldest first. -/
def spilled (t : MeterRun) : List Flow.Record := t.outcomes.filterMap fun e => e.2.record?

/-- The flows have the packets that were kept since the start, and as long as somebody reads, every record that was left since
has been drained or waits. -/
structure Balanced (start t : MeterRun) : Prop where
  flows : ∀ id, (t.volume id).packets = (start.volume id).packets + UInt32.ofNat (t.kept id)
  records : t.queue.closed = false → t.drained ++ t.queue.records = start.drained ++ start.queue.records ++ t.spilled

variable {start t : MeterRun}

theorem kept_append (t : MeterRun) (p : Packet) (o : Outcome) (id : Flow.Id) :
    ({ t with outcomes := t.outcomes ++ [(p, o)] } : MeterRun).kept id =
      t.kept id + if o.isKept ∧ p.flow? = some id then 1 else 0 := by
  rw [kept, List.countP_append, List.countP_singleton, kept]
  simp

theorem spilled_append (t : MeterRun) (p : Packet) (o : Outcome) :
    ({ t with outcomes := t.outcomes ++ [(p, o)] } : MeterRun).spilled = t.spilled ++ o.record?.toList := by
  rw [spilled, List.filterMap_append, spilled]
  cases h : o.record? <;> simp [h]

/-- **The packets of every flow are as many as the outcome tells.** -/
theorem packets_of_tells {o : Outcome} {p : Packet} {time : UInt64} {s s' : Shard} {q q' : Overflow.Queue}
    (h : o.Tells p time s s' q q') (id : Flow.Id) :
    (weigh Metrics.volume id s'.snapshot).packets =
      (weigh Metrics.volume id s.snapshot).packets + UInt32.ofNat (if o.isKept ∧ p.flow? = some id then 1 else 0) := by
  -- the entry of the packet's own flow has one packet more, and no other entry is touched
  have hkept : ∀ {id₀ : Flow.Id} {m : Flow.Metrics}, p.flow? = some id₀ → s.DiffersAt s' id₀ m →
      m.packets = ((s.flows.get? id₀).map Flow.Metrics.packets).getD 0 + 1 → o.isKept = true →
      (weigh Metrics.volume id s'.snapshot).packets =
        (weigh Metrics.volume id s.snapshot).packets +
          UInt32.ofNat (if o.isKept ∧ p.flow? = some id then 1 else 0) := by
    intro id₀ m hp hdiffers hm ho
    rw [Shard.snapshot, Shard.snapshot, Flow.weigh_of_nodup _ _ _ s'.flows.distinct, Flow.weigh_of_nodup _ _ _ s.flows.distinct,
      ho, hp]
    show (((s'.flows.get? id).map Metrics.volume).getD 0).packets = (((s.flows.get? id).map Metrics.volume).getD 0).packets + _
    by_cases hid : id = id₀
    · subst hid
      rw [hdiffers.entry, if_pos ⟨rfl, rfl⟩]
      show m.packets = _
      rw [hm]
      cases s.flows.get? id <;> rfl
    · rw [hdiffers.others id hid, if_neg fun h => hid (Option.some.inj h.2).symm]
      exact (UInt32.add_zero _).symm
  cases o with
  | updated =>
    obtain ⟨-, id₀, ob, m, hp, hm, hdiffers⟩ := h
    exact hkept (Packet.flow?_of_observed? hp) hdiffers (by rw [hm]; rfl) rfl
  | inserted =>
    obtain ⟨-, id₀, ob, hp, hm, hdiffers⟩ := h
    exact hkept (Packet.flow?_of_observed? hp) hdiffers (by rw [hm]; rfl) rfl
  | skipped | discarded | updateRefused | overflowed | overflowLost =>
    obtain ⟨rfl, -⟩ := h
    exact (UInt32.add_zero _).symm

/-- **The queue has one record more just if the outcome tells of one.** -/
theorem records_of_tells {o : Outcome} {p : Packet} {time : UInt64} {s s' : Shard} {q q' : Overflow.Queue}
    (h : o.Tells p time s s' q q') : q'.closed = q.closed ∧ q'.records = q.records ++ o.record?.toList := by
  cases o with
  | overflowed r record =>
    obtain ⟨-, -, -, rfl⟩ := h
    refine ⟨rfl, ?_⟩
    rw [Overflow.Queue.records, List.filterMap_append, List.filterMap_cons_some record.ofOctets?_toOctets]
    rfl
  | updated | inserted =>
    obtain ⟨rfl, -⟩ := h
    exact ⟨rfl, (List.append_nil _).symm⟩
  | skipped | discarded | updateRefused | overflowLost =>
    obtain ⟨-, rfl⟩ := h
    exact ⟨rfl, (List.append_nil _).symm⟩

namespace Balanced

theorem refl (t : MeterRun) (hkept : t.outcomes = []) : Balanced t t where
  flows id := by
    rw [kept, hkept]
    exact (UInt32.add_zero _).symm
  records _ := by
    rw [spilled, hkept]
    exact (List.append_nil _).symm

theorem process (h : Balanced start t) (clock : Clock) (refusal : Option Refusal) (p : Packet) :
    Balanced start (t.step (.process clock refusal p)) := by
  have htells := t.meter.process_tells clock t.queue refusal p
  obtain ⟨hclosed, hrecords⟩ := records_of_tells htells
  rw [step]
  generalize t.meter.process clock t.queue refusal p = r at htells hclosed hrecords
  constructor
  · intro id
    show (weigh Metrics.volume id t.evicted).packets + (weigh Metrics.volume id r.meter.shard.snapshot).packets =
      (start.volume id).packets +
        UInt32.ofNat (({ t with outcomes := t.outcomes ++ [(p, r.outcome)] } : MeterRun).kept id)
    rw [packets_of_tells htells id, kept_append, UInt32.ofNat_add, ← UInt32.add_assoc, ← UInt32.add_assoc, ← h.flows id]
    rfl
  · intro hopen
    show t.drained ++ r.queue.records =
      start.drained ++ start.queue.records ++ ({ t with outcomes := t.outcomes ++ [(p, r.outcome)] } : MeterRun).spilled
    rw [hrecords, spilled_append, ← List.append_assoc, ← List.append_assoc, h.records (hclosed.symm.trans hopen)]

theorem evict (h : Balanced start t) : Balanced start (t.step .evict) where
  flows id := by
    refine Eq.trans ?_ (h.flows id)
    show (weigh Metrics.volume id (t.evicted ++ t.meter.shard.snapshot) + weigh Metrics.volume id []).packets = _
    rw [Flow.weigh_append, Flow.weigh_nil, add_zero]
    rfl
  records := h.records

theorem drain (h : Balanced start t) : Balanced start (t.step .drain) where
  flows := h.flows
  records hopen := (List.append_nil _).trans (h.records hopen)

theorem close (h : Balanced start t) : Balanced start (t.step .close) where
  flows := h.flows
  records hopen := by cases hopen

theorem follow : ∀ (steps : List MeterStep) {t : MeterRun}, Balanced start t → Balanced start (t.follow steps)
  | [], _, h => h
  | .process clock refusal p :: steps, _, h => follow steps (h.process clock refusal p)
  | .evict :: steps, _, h => follow steps h.evict
  | .drain :: steps, _, h => follow steps h.drain
  | .close :: steps, _, h => follow steps h.close

end Balanced

/-- **Every packet ends in one place, and its outcome tells which.**  After any run, whatever refuses a write, the next packet
changes nothing but the place that its outcome names.  The packets that were kept are those of the flows that were evicted or
are kept still, up to what was kept at the start, and while somebody reads, the records of the packets that overflowed have
been drained or wait, in their order. -/
theorem ends_in_one_place (m : Meter) (q : Overflow.Queue) (steps : List MeterStep) :
    let t := ({ meter := m, queue := q } : MeterRun).follow steps
    (∀ clock refusal p, (t.meter.process clock t.queue refusal p).outcome.Tells p clock.now t.meter.shard
      (t.meter.process clock t.queue refusal p).meter.shard t.queue (t.meter.process clock t.queue refusal p).queue) ∧
    (∀ id, (weigh Metrics.volume id m.shard.snapshot).packets + UInt32.ofNat (t.kept id) =
      (weigh Metrics.volume id t.evicted).packets + (weigh Metrics.volume id t.meter.shard.snapshot).packets) ∧
    (t.queue.closed = false → q.records ++ t.spilled = t.drained ++ t.queue.records ∧
      q.records.length + t.outcomes.countP (fun e => e.2.record?.isSome) = t.drained.length + t.queue.records.length) := by
  intro t
  have hbalanced : Balanced { meter := m, queue := q } t := (Balanced.refl _ rfl).follow steps
  refine ⟨fun clock refusal p => t.meter.process_tells clock t.queue refusal p, fun id => ?_, fun hopen => ?_⟩
  · refine Eq.trans ?_ (hbalanced.flows id).symm
    show _ = (0 + weigh Metrics.volume id m.shard.snapshot).packets + _
    rw [zero_add]
  · have hrecords : t.drained ++ t.queue.records = q.records ++ t.spilled := hbalanced.records hopen
    refine ⟨hrecords.symm, ?_⟩
    rw [← List.length_append, hrecords, List.length_append, spilled, List.length_filterMap_eq_countP]

/-- A shard with room for one flow refuses an update and another flow, the queue with room for one record loses the next one, and
after an eviction the other flow is kept. -/
theorem ends_in_one_place_full :
    let p : Packet := { frame := List.replicate 14 6, length := 60, interface := 1, direction := .ingress }
    let p' : Packet := { frame := List.replicate 14 7, length := 80, interface := 1, direction := .egress }
    let t := ({ meter := .ofSettings { capacity := 1 } [], queue := .ofSlots 1 } : MeterRun).follow
      [.process { now := 5 } none p, .process { now := 6 } (some .busy) p, .process { now := 7 } none p',
        .process { now := 8 } none p', .drain, .process { now := 9 } none p, .evict, .process { now := 10 } none p']
    t.queue.closed = false ∧ t.outcomes.map (fun e => e.2.isKept) = [true, false, false, false, true, true] ∧
      0 + t.outcomes.countP (fun e => e.2.record?.isSome) = t.drained.length + t.queue.records.length ∧
      t.drained.length + t.queue.records.length = 1 := by
  intro p p' t
  have hopen : t.queue.closed = false := by decide +kernel
  obtain ⟨-, -, hrecords⟩ := ends_in_one_place (.ofSettings { capacity := 1 } []) (.ofSlots 1)
    [.process { now := 5 } none p, .process { now := 6 } (some .busy) p, .process { now := 7 } none p',
      .process { now := 8 } none p', .drain, .process { now := 9 } none p, .evict, .process { now := 10 } none p']
  exact ⟨hopen, by decide +kernel, (hrecords hopen).2, by decide +kernel⟩

end MeterRun
end FlowMeter
