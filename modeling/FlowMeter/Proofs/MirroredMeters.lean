import FlowMeter.Proofs.Destinations
import FlowMeter.Proofs.Signals
/-!
# Meters of the same packets in two directions

One meter takes packets that come in, and another takes the same packets as they go out.  Their shards keep the same flows in the same
order, with nothing else in the identities than the direction, and nothing else in the metrics than the time at which a connection was
established (`Flow.Mirrors`).  A packet finds the same place in both, or no place for the same reason (`Meter.process_mirrors`).
-/
namespace FlowMeter

namespace Table

variable {κ ν : Type} [DecidableEq κ] {E : κ × ν → κ × ν → Prop} {k k' : κ}

/-- Where related entries have the two keys together, looking one up in the first table finds what looking the other up in the second
does. -/
theorem rel_find (hkeys : ∀ e e', E e e' → (e.1 = k ↔ e'.1 = k')) {l l' : List (κ × ν)} (h : List.Forall₂ E l l') :
    Option.Rel (fun v v' => E (k, v) (k', v')) (find k l) (find k' l') := by
  induction h with
  | nil => exact .none
  | @cons e e' _ _ he _ ih =>
    rw [find, find]
    by_cases hk : e.1 = k
    · have hk' := (hkeys e e' he).1 hk
      rw [if_pos hk, if_pos hk']
      subst hk hk'
      exact .some he
    · rw [if_neg hk, if_neg (mt (hkeys e e' he).2 hk)]
      exact ih

/-- Related values at the two keys keep the entries related. -/
theorem forall₂_place (hkeys : ∀ e e', E e e' → (e.1 = k ↔ e'.1 = k')) {v v' : ν} (hv : E (k, v) (k', v'))
    {l l' : List (κ × ν)} (h : List.Forall₂ E l l') :
    List.Forall₂ E (place k (fun _ => v) l) (place k' (fun _ => v') l') := by
  induction h with
  | nil => exact .cons hv .nil
  | @cons e e' _ _ he hrest ih =>
    rw [place, place]
    by_cases hk : e.1 = k
    · rw [if_pos hk, if_pos ((hkeys e e' he).1 hk)]
      exact .cons hv hrest
    · rw [if_neg hk, if_neg (mt (hkeys e e' he).2 hk)]
      exact .cons he ih

end Table

namespace Flow

/-- What a packet tells of its flow as it comes in, and as it goes out: what establishes a connection then does so before. -/
structure Observation.Mirrors (o o' : Observation) : Prop where
  size : o'.size = o.size
  time : o'.time = o.time
  flags : o'.flags = o.flags
  handshake : o'.handshake = true → o.handshake = true

/-- The two metrics differ only in the time at which a connection was established: there is one in the first if there is one in the
second, and it is not later. -/
structure Metrics.Mirrors (m m' : Metrics) : Prop where
  packets : m'.packets = m.packets
  bytes : m'.bytes = m.bytes
  start : m'.start = m.start
  stop : m'.stop = m.stop
  flags : m'.flags = m.flags
  errno : m'.errno = m.errno
  handshake : m'.handshake ≠ 0 → m.handshake ≠ 0 ∧ m.handshake ≤ m'.handshake

/-- One flow of packets that come in, and the same of packets that go out. -/
structure Mirrors (e e' : Id × Metrics) : Prop where
  ingress : e.1.direction = Direction.ingress.code
  egress : e'.1 = e.1.toward .egress
  metrics : e.2.Mirrors e'.2

theorem Mirrors.key_iff (id : Id) (e e' : Id × Metrics) (h : Mirrors e e') : e.1 = id.toward .ingress ↔ e'.1 = id.toward .egress := by
  obtain ⟨k, m⟩ := e
  obtain ⟨k', m'⟩ := e'
  obtain ⟨hingress, hegress, -⟩ := h
  rw [hegress]
  constructor
  · rintro rfl
    rfl
  · intro heq
    have hback := congrArg (Id.toward · .ingress) heq
    have hk : k.toward .ingress = k := by
      rw [Id.toward, ← hingress]
    exact hk.symm.trans hback

namespace Metrics.Mirrors

variable {m m' : Metrics} {o o' : Observation}

theorem ofFirst (ho : o.Mirrors o') (htime : o.time ≠ 0) (errno : UInt8) :
    Mirrors { Metrics.ofFirst o with errno } { Metrics.ofFirst o' with errno } where
  packets := rfl
  bytes := ho.size
  start := ho.time
  stop := ho.time
  flags := ho.flags
  errno := rfl
  handshake h := by
    have hhandshake' : o'.handshake = true := Classical.byContradiction fun hne => h (if_neg hne)
    have hhandshake := ho.handshake hhandshake'
    show (if o.handshake then o.time else 0) ≠ 0 ∧
      (if o.handshake then o.time else 0) ≤ if o'.handshake then o'.time else 0
    rw [if_pos hhandshake, if_pos hhandshake', ho.time]
    exact ⟨htime, UInt64.le_refl _⟩

/-- One packet more keeps the two together, as long as no connection was established after it. -/
theorem add (h : m.Mirrors m') (ho : o.Mirrors o') (htime : o.time ≠ 0) (hpast : m.handshake ≤ o.time) :
    (m.add o).Mirrors (m'.add o') where
  packets := by rw [Metrics.add, Metrics.add, h.packets]
  bytes := by rw [Metrics.add, Metrics.add, h.bytes, ho.size]
  start := by rw [Metrics.add, Metrics.add, h.start, ho.time]
  stop := ho.time
  flags := by rw [Metrics.add, Metrics.add, h.flags, ho.flags]
  errno := h.errno
  handshake hne := by
    show (if o.handshake ∧ m.handshake = 0 then o.time else m.handshake) ≠ 0 ∧
      (if o.handshake ∧ m.handshake = 0 then o.time else m.handshake) ≤
        if o'.handshake ∧ m'.handshake = 0 then o'.time else m'.handshake
    have hne' : (if o'.handshake ∧ m'.handshake = 0 then o'.time else m'.handshake) ≠ 0 := hne
    rw [ho.time] at hne' ⊢
    by_cases hnew' : o'.handshake ∧ m'.handshake = 0
    · -- the packet establishes the connection as it goes out, so it does or it was established before as it came in
      rw [if_pos hnew']
      by_cases hnew : o.handshake ∧ m.handshake = 0
      · rw [if_pos hnew]
        exact ⟨htime, UInt64.le_refl _⟩
      · rw [if_neg hnew]
        exact ⟨fun hzero => hnew ⟨ho.handshake hnew'.1, hzero⟩, hpast⟩
    · rw [if_neg hnew'] at hne' ⊢
      obtain ⟨hestablished, hle⟩ := h.handshake hne'
      rw [if_neg fun hnew => hestablished hnew.2]
      exact ⟨hestablished, hle⟩

end Metrics.Mirrors
/-- The same flows in the same order. -/
def Snapshot.Mirrors : Snapshot → Snapshot → Prop := List.Forall₂ Flow.Mirrors

end Flow

/-- The two shards have as much room and keep the same flows. -/
structure Shard.Mirrors (s s' : Shard) : Prop where
  capacity : s'.capacity = s.capacity
  flows : Flow.Snapshot.Mirrors s.snapshot s'.snapshot

/-- What becomes of a packet, but for the direction of the record that it may leave. -/
def Applied.Mirrors : Applied → Applied → Prop
  | .overflow r record, .overflow r' record' => r' = r ∧ Flow.Mirrors record.entry record'.entry
  | a, a' => a' = a

def Outcome.Mirrors : Outcome → Outcome → Prop
  | .overflowed r record, .overflowed r' record' => r' = r ∧ Flow.Mirrors record.entry record'.entry
  | o, o' => o' = o

/-- The records of the same flows wait in two queues of the same size. -/
structure Overflow.Queue.Mirrors (q q' : Queue) : Prop where
  slots : q'.slots = q.slots
  closed : q'.closed = q.closed
  waiting : List.Forall₂
    (fun image image' => ∃ record record' : Flow.Record,
      image = record.toOctets ∧ image' = record'.toOctets ∧ Flow.Mirrors record.entry record'.entry) q.waiting q'.waiting

/-- The meters have the same settings and random numbers, and their shards keep the same flows. -/
structure Meter.Mirrors (m m' : Meter) : Prop where
  settings : m'.settings = m.settings
  draws : m'.draws = m.draws
  shard : m.shard.Mirrors m'.shard

variable {id : Flow.Id} {o o' : Flow.Observation}

namespace Shard.Mirrors

variable {s s' : Shard} {refusal : Option Refusal}

theorem find (h : s.Mirrors s') (id : Flow.Id) :
    Option.Rel (fun m m' => Flow.Mirrors (id.toward .ingress, m) (id.toward .egress, m'))
      (s.flows.get? (id.toward .ingress)) (s'.flows.get? (id.toward .egress)) :=
  Table.rel_find (Flow.Mirrors.key_iff id) h.flows

theorem contains_eq (h : s.Mirrors s') (id : Flow.Id) :
    s'.flows.contains (id.toward .egress) = s.flows.contains (id.toward .ingress) := by
  have hfind := h.find id
  unfold Table.contains
  generalize s.flows.get? (id.toward .ingress) = found at hfind
  generalize s'.flows.get? (id.toward .egress) = found' at hfind
  cases hfind <;> rfl

theorem refuses?_eq (h : s.Mirrors s') (refusal : Option Refusal) (id : Flow.Id) :
    s'.refuses? refusal (id.toward .egress) = s.refuses? refusal (id.toward .ingress) := by
  have hsize : s'.size = s.size := h.flows.length_eq.symm
  unfold refuses?
  rw [h.contains_eq, hsize, h.capacity]

/-- A packet that is counted in both shards is counted in the same flow. -/
theorem counted (h : s.Mirrors s') (ho : o.Mirrors o') (htime : o.time ≠ 0)
    (hpast : ∀ e ∈ s.snapshot, e.2.handshake ≤ o.time) :
    (s.counted (id.toward .ingress) o).Mirrors (s'.counted (id.toward .egress) o') := by
  refine ⟨h.capacity, Table.forall₂_place (Flow.Mirrors.key_iff id) ?_ h.flows⟩
  refine ⟨rfl, rfl, ?_⟩
  have hfind := h.find id
  cases hg : s.flows.get? (id.toward .ingress) with
  | none =>
    rw [hg] at hfind
    generalize s'.flows.get? (id.toward .egress) = found' at hfind
    cases hfind
    exact .ofFirst ho htime 0
  | some m =>
    rw [hg] at hfind
    generalize s'.flows.get? (id.toward .egress) = found' at hfind
    cases hfind with
    | some hm => exact hm.metrics.add ho htime (hpast _ ((s.flows.get?_eq_some_iff _ m).1 hg))

/-- **A packet finds the same place in both shards, or none for the same reason.** -/
theorem apply (h : s.Mirrors s') (ho : o.Mirrors o') (htime : o.time ≠ 0)
    (hpast : ∀ e ∈ s.snapshot, e.2.handshake ≤ o.time) (refusal : Option Refusal) (id : Flow.Id) :
    (s.apply refusal (id.toward .ingress) o).1.Mirrors (s'.apply refusal (id.toward .egress) o').1 ∧
      (s.apply refusal (id.toward .ingress) o).2.Mirrors (s'.apply refusal (id.toward .egress) o').2 := by
  rw [apply_eq, apply_eq, h.refuses?_eq, h.contains_eq]
  cases s.refuses? refusal (id.toward .ingress) with
  | none =>
    refine ⟨h.counted ho htime hpast, ?_⟩
    cases s.flows.contains (id.toward .ingress) <;> rfl
  | some r =>
    refine ⟨h, ?_⟩
    cases s.flows.contains (id.toward .ingress) with
    | true => rfl
    | false => exact ⟨rfl, rfl, rfl, .ofFirst ho htime r.stamp⟩

end Shard.Mirrors

/-- **What is observed of a packet as it comes in and as it goes out.** -/
theorem Packet.observed?_mirrors (p : Packet) (time : UInt64) :
    ((p.toward .ingress).observed? time = none ∧ (p.toward .egress).observed? time = none) ∨
      ∃ (id : Flow.Id) (o o' : Flow.Observation), (p.toward .ingress).observed? time = some (id.toward .ingress, o) ∧
        (p.toward .egress).observed? time = some (id.toward .egress, o') ∧ o.Mirrors o' ∧ o.time = time := by
  rcases p.exists_segment with hnone | ⟨id, segment, -, hsome⟩
  · exact .inl ⟨hnone .ingress time, hnone .egress time⟩
  · refine .inr ⟨id, _, _, hsome .ingress time, hsome .egress time, ⟨rfl, rfl, ?_, ?_⟩, rfl⟩
    · exact Signal.flags_ofSegment? segment .egress .ingress
    · exact Signal.handshake_ingress

namespace Overflow.Queue.Mirrors

variable {q q' : Queue}

theorem records (h : q.Mirrors q') : List.Forall₂ (fun r r' => Flow.Mirrors r.entry r'.entry) q.records q'.records := by
  refine List.rel_filterMap ?_ h.waiting
  rintro image image' ⟨record, record', rfl, rfl, hrecord⟩
  rw [record.ofOctets?_toOctets, record'.ofOctets?_toOctets]
  exact .some hrecord

/-- A record waits in both queues, or is lost for the same reason. -/
theorem submit (h : q.Mirrors q') {record record' : Flow.Record} (hrecord : Flow.Mirrors record.entry record'.entry) :
    (∃ f, q.submit record = .error f ∧ q'.submit record' = .error f) ∨
      ∃ next next', q.submit record = .ok next ∧ q'.submit record' = .ok next' ∧ next.Mirrors next' := by
  unfold Queue.submit
  rw [h.closed, h.slots, h.waiting.length_eq]
  cases q.closed with
  | true => exact .inl ⟨.closed, rfl, rfl⟩
  | false =>
    by_cases hroom : q'.waiting.length < q.slots
    · simp only [Bool.false_eq_true, if_false, if_pos hroom]
      refine .inr ⟨_, _, rfl, rfl, rfl, rfl, ?_⟩
      exact List.rel_append h.waiting (.cons ⟨record, record', rfl, rfl, hrecord⟩ .nil)
    · simp only [Bool.false_eq_true, if_false, if_neg hroom]
      exact .inl ⟨.full, rfl, rfl⟩

/-- Both queues have an oldest record, or none. -/
theorem next (h : q.Mirrors q') :
    (q.next? = none ∧ q'.next? = none) ∨
      ∃ record record' next next', q.next? = some (record, next) ∧ q'.next? = some (record', next') ∧
        Flow.Mirrors record.entry record'.entry ∧ next.Mirrors next' := by
  obtain ⟨slots, waiting, closed⟩ := q
  obtain ⟨slots', waiting', closed'⟩ := q'
  obtain ⟨hslots, hclosed, hwaiting⟩ := h
  cases hwaiting with
  | nil => exact .inl ⟨rfl, rfl⟩
  | @cons image image' rest rest' himage hrest =>
    obtain ⟨record, record', rfl, rfl, hrecord⟩ := himage
    refine .inr ⟨record, record', ⟨slots, rest, closed⟩, ⟨slots', rest', closed'⟩, ?_, ?_, hrecord, hslots, hclosed, hrest⟩
    · rw [next?, nextOf?, record.ofOctets?_toOctets, Option.map_some]
    · rw [next?, nextOf?, record'.ofOctets?_toOctets, Option.map_some]

end Overflow.Queue.Mirrors

namespace Meter

variable {m m' : Meter} {q q' : Overflow.Queue}

/-- What the shards make of a packet goes the same way in both queues. -/
theorem submit_mirrors (hq : q.Mirrors q') : ∀ {applied applied' : Applied}, applied.Mirrors applied' →
    (submit q (.counted applied)).1.Mirrors (submit q' (.counted applied')).1 ∧
      (submit q (.counted applied)).2.Mirrors (submit q' (.counted applied')).2
  | .updated, _, rfl | .inserted, _, rfl | .updateRefused _, _, rfl => ⟨hq, rfl⟩
  | .overflow r record, .overflow _ record', ⟨rfl, hrecord⟩ => by
    rcases hq.submit hrecord with ⟨f, hlost, hlost'⟩ | ⟨next, next', hsent, hsent', hnext⟩
    · simp only [submit, hlost, hlost']
      exact ⟨hq, rfl⟩
    · simp only [submit, hsent, hsent']
      exact ⟨hnext, rfl, hrecord⟩

/-- **A packet finds the same place as it comes in and as it goes out.** -/
theorem process_mirrors (hm : m.Mirrors m') (hq : q.Mirrors q') {clock : Clock} (hnow : clock.now ≠ 0)
    (hpast : ∀ e ∈ m.shard.snapshot, e.2.handshake ≤ clock.now) (refusal : Option Refusal) (p : Packet) :
    let r := m.process clock q refusal (p.toward .ingress)
    let r' := m'.process clock q' refusal (p.toward .egress)
    r.meter.Mirrors r'.meter ∧ r.queue.Mirrors r'.queue ∧ r.outcome.Mirrors r'.outcome := by
  rw [process, process, take_eq, take_eq, hm.settings, hm.draws]
  cases (m.settings.draw m.draws).1 with
  | false => exact ⟨⟨rfl, rfl, hm.shard⟩, hq, rfl⟩
  | true =>
    rcases p.observed?_mirrors clock.now with ⟨hin, hout⟩ | ⟨id, o, o', hin, hout, ho, htime⟩
    · simp only [hin, hout, if_true]
      exact ⟨⟨rfl, rfl, hm.shard⟩, hq, rfl⟩
    · simp only [hin, hout, if_true]
      rw [← htime] at hnow hpast
      obtain ⟨hshard, happlied⟩ := hm.shard.apply ho hnow hpast refusal id
      exact ⟨⟨rfl, rfl, hshard⟩, submit_mirrors hq happlied⟩

end Meter
end FlowMeter
