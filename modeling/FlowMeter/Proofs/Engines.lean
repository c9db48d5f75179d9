import FlowMeter.Kernel.Classifier
/-!
# One engine, twice

A worker's meter and the kernel's classifier are written apart: one keeps metrics in a shard and copies them out and in, the
other changes them in place and writes them back.  On the same packets, with the same refusals, they keep the same flows and
send the same images on their way (`run_alike`).  One packet is `Alike.meet`.
-/
namespace FlowMeter

/-- A packet, and the world in which it meets an engine. -/
structure Encounter where
  packet : Packet
  time : UInt64
  /-- Something other than lack of room refuses the write to the map. -/
  refusal : Option Refusal := none
  /-- The ring as readers and other processors have left it. -/
  ring : Kernel.Ring
  /-- The queue as readers and other workers have left it. -/
  queue : Overflow.Queue

namespace Encounter

/-- What the classifier becomes on the only processor, and the images that it puts into the ring. -/
def inKernel (e : Encounter) (k : Kernel.Classifier) : Kernel.Classifier × List Octets :=
  let after := ({ k with ring := e.ring }.observe 0 e.time e.refusal e.packet).1
  (after, after.ring.entries.drop e.ring.entries.length)

/-- What the meter becomes, and the images that it puts into the queue. -/
def onHost (e : Encounter) (m : Meter) : Meter × List Octets :=
  let after := m.process { now := e.time } e.queue e.refusal e.packet
  (after.meter, after.queue.waiting.drop e.queue.waiting.length)

/-- Both engines fare alike: only flows that are not kept are refused, with a small error number, and ring and queue take a
record or refuse it together. -/
structure Fair (e : Encounter) (m : Meter) : Prop where
  errno : ∀ r, e.refusal = some r → 1 ≤ r.errno ∧ r.errno ≤ 255
  fresh : ∀ r c, e.refusal = some r →
    Classified.ofFrame? e.packet.frame e.packet.direction e.packet.interface = some c → m.shard.flows.get? c.id = none
  submission : ∀ record, (e.ring.push? record).isSome = (e.queue.submit record).isOk

end Encounter

/-- An engine's state after a run, and all images that it has sent. -/
def runEngine {σ : Type} (meet : Encounter → σ → σ × List Octets) : σ → List Encounter → σ × List Octets
  | s, [] => (s, [])
  | s, e :: rest => ((runEngine meet (meet e s).1 rest).1, (meet e s).2 ++ (runEngine meet (meet e s).1 rest).2)

/-- All encounters of the run are fair when their turn comes. -/
def FairRun (m : Meter) : List Encounter → Prop
  | [] => True
  | e :: rest => e.Fair m ∧ FairRun (e.onHost m).1 rest

/-- A classifier on one processor that has not seen a packet. -/
def Kernel.Classifier.ofSettings (settings : MeterSettings) (draws : List UInt32) : Kernel.Classifier where
  settings
  map := { cpus := 1, capacity := settings.capacity.toNat }
  ring := { slots := 0 }
  draws

/-- The two engines stand at the same point: every flow has the same metrics in both. -/
structure Alike (k : Kernel.Classifier) (m : Meter) : Prop where
  sampling : k.settings.sampling = m.settings.sampling
  draws : k.draws = m.draws
  cpus : k.map.cpus = 1
  capacity : k.map.capacity = m.shard.capacity
  size : k.map.size = m.shard.size
  rows : ∀ id, k.map.rows.get? id = (m.shard.flows.get? id).map fun v => [v]

theorem MeterSettings.draw_congr {s t : MeterSettings} (h : s.sampling = t.sampling) (draws : List UInt32) :
    s.draw draws = t.draw draws := by
  simp only [MeterSettings.draw, MeterSettings.samples, h]

theorem Refusal.stamp_eq {r : Refusal} (h : 1 ≤ r.errno ∧ r.errno ≤ 255) : Kernel.Classifier.stamp r = r.stamp := by
  obtain ⟨n, hn⟩ := Int.eq_ofNat_of_zero_le (a := r.errno) (by omega)
  have hle : n ≤ 255 := by omega
  rw [Kernel.Classifier.stamp, Refusal.stamp, hn]
  congr 1
  show ((n : Int) % 256).toNat = min ((n : Int).toNat) 255
  omega

namespace Alike

variable {k : Kernel.Classifier} {m : Meter}

theorem lookup (h : Alike k m) (id : Flow.Id) : k.map.lookup 0 id = m.shard.flows.get? id := by
  rw [Kernel.FlowMap.lookup, h.rows]
  cases m.shard.flows.get? id <;> rfl

theorem contains (h : Alike k m) (id : Flow.Id) : k.map.rows.contains id = m.shard.flows.contains id := by
  rw [Table.contains, Table.contains, h.rows]
  cases m.shard.flows.get? id <;> rfl

theorem put (h : Alike k m) (id : Flow.Id) (v : Flow.Metrics) :
    Alike { k with map := k.map.put 0 id v }
      { m with shard := { m.shard with flows := m.shard.flows.insert id v } } where
  sampling := h.sampling
  draws := h.draws
  cpus := h.cpus
  capacity := h.capacity
  size := by
    have hs : k.map.rows.size = m.shard.flows.size := h.size
    show (k.map.rows.upsert id _).size = (m.shard.flows.upsert id _).size
    rw [Table.size_upsert, Table.size_upsert, h.contains, hs]
  rows id' := by
    show (k.map.rows.upsert id _).get? id' = ((m.shard.flows.upsert id _).get? id').map _
    rw [Table.get?_upsert, Table.get?_upsert, h.rows id, h.rows id']
    split
    · cases m.shard.flows.get? id with
      | none => simp [Kernel.FlowMap.blankRow, h.cpus]
      | some u => rfl
    · rfl

/-- What is found of the flow on one side is found on the other, and the packet changes both alike. -/
theorem update (h : Alike k m) {id : Flow.Id} {v : Flow.Metrics} (hv : m.shard.flows.get? id = some v)
    (o : Flow.Observation) :
    let changed := { k with map := k.map.put 0 id (v.add o) }
    Alike (changed.update 0 none id (v.add o)).1 { m with shard := (m.shard.apply none id o).1 } ∧
      (changed.update 0 none id (v.add o)).1.ring = k.ring ∧ (m.shard.apply none id o).2 = .updated := by
  have hk : (k.map.put 0 id (v.add o)).rows.contains id = true := k.map.contains_put ..
  have hm : m.shard.flows.contains id = true := by simp [Table.contains, hv]
  have hput := h.put id (v.add o)
  simp only [Kernel.Classifier.update, Kernel.FlowMap.insert, hk, true_or, if_true, Kernel.FlowMap.put_put,
    Shard.apply, hv, Shard.writeUnless, Shard.write, hm, and_true]
  exact hput

/-- Neither side keeps the flow: both do from now on, or both send the same record away. -/
theorem create (h : Alike k m) {id : Flow.Id} (hv : m.shard.flows.get? id = none) (refusal : Option Refusal)
    (hr : ∀ r, refusal = some r → 1 ≤ r.errno ∧ r.errno ≤ 255) (o : Flow.Observation) (q : Overflow.Queue)
    (hq : ∀ record, (k.ring.push? record).isSome = (q.submit record).isOk) :
    Alike (k.create 0 refusal id o).1 { m with shard := (m.shard.apply refusal id o).1 } ∧
      (k.create 0 refusal id o).1.ring.entries.drop k.ring.entries.length =
        (Meter.submit q (.counted (m.shard.apply refusal id o).2)).1.waiting.drop q.waiting.length := by
  have hc : m.shard.flows.contains id = false := by simp [Table.contains, hv]
  -- a refusal, wherever it comes from, sends the same record to the ring and to the queue
  have hrefused : ∀ r, 1 ≤ r.errno ∧ r.errno ≤ 255 → k.map.insert 0 refusal id (.ofFirst o) = .error r →
      m.shard.writeUnless refusal id (.ofFirst o) = .error r →
      Alike (k.create 0 refusal id o).1 { m with shard := (m.shard.apply refusal id o).1 } ∧
        (k.create 0 refusal id o).1.ring.entries.drop k.ring.entries.length =
          (Meter.submit q (.counted (m.shard.apply refusal id o).2)).1.waiting.drop q.waiting.length := by
    intro r hle hk hm
    have hrec : Kernel.Classifier.refusedRecord id o r = Shard.refusedRecord id o r := by
      rw [Kernel.Classifier.refusedRecord, Shard.refusedRecord, Refusal.stamp_eq hle]
    have hsub := hq (Shard.refusedRecord id o r)
    simp only [Kernel.Classifier.create, hk, Shard.apply, hv, hm, hrec, Meter.submit]
    cases hp : k.ring.push? (Shard.refusedRecord id o r) with
    | none =>
      rw [hp] at hsub
      cases hs : q.submit (Shard.refusedRecord id o r) with
      | error f => exact ⟨h, by simp⟩
      | ok q' => rw [hs] at hsub; cases hsub
    | some ring =>
      rw [hp] at hsub
      cases hs : q.submit (Shard.refusedRecord id o r) with
      | error f => rw [hs] at hsub; cases hsub
      | ok q' =>
        refine ⟨⟨h.sampling, h.draws, h.cpus, h.capacity, h.size, h.rows⟩, ?_⟩
        rw [Kernel.Ring.entries_of_push? hp, Overflow.Queue.waiting_of_submit hs, List.drop_left, List.drop_left]
  cases refusal with
  | some r => exact hrefused r (hr r rfl) rfl rfl
  | none =>
    by_cases hroom : m.shard.size < m.shard.capacity
    · have hroom' : k.map.size < k.map.capacity := by rw [h.size, h.capacity]; exact hroom
      have hput := h.put id (.ofFirst o)
      simp only [Kernel.Classifier.create, Kernel.FlowMap.insert, hroom', or_true, if_true, Shard.apply, hv,
        Shard.writeUnless, Shard.write, hroom, Meter.submit, List.drop_length, and_true]
      exact hput
    · have hroom' : ¬ k.map.size < k.map.capacity := by rw [h.size, h.capacity]; exact hroom
      refine hrefused Refusal.full (by decide) ?_ ?_
      · simp [Kernel.FlowMap.insert, h.contains, hc, hroom']
      · simp [Shard.writeUnless, Shard.write, hc, hroom]

/-- **A fair encounter leaves the engines alike, and they send the same images.** -/
theorem meet (h : Alike k m) {e : Encounter} (he : e.Fair m) :
    Alike (e.inKernel k).1 (e.onHost m).1 ∧ (e.inKernel k).2 = (e.onHost m).2 := by
  have hd : k.settings.draw k.draws = m.settings.draw m.draws := by
    rw [MeterSettings.draw_congr h.sampling, h.draws]
  simp only [Encounter.inKernel, Encounter.onHost, Kernel.Classifier.observe, Kernel.Classifier.arrive, Meter.process,
    Meter.take, hd]
  -- both engines are looked at after the draw, with the ring as it was found
  have hdrawn : Alike { k with ring := e.ring, draws := (m.settings.draw m.draws).2 }
      { m with draws := (m.settings.draw m.draws).2 } :=
    ⟨h.sampling, rfl, h.cpus, h.capacity, h.size, h.rows⟩
  cases (m.settings.draw m.draws).1 with
  | false => exact ⟨hdrawn, by simp [Meter.submit]⟩
  | true =>
    simp only [if_true]
    cases hc : Classified.ofFrame? e.packet.frame e.packet.direction e.packet.interface with
    | none => exact ⟨hdrawn, by simp [Meter.submit]⟩
    | some c =>
      simp only [hdrawn.lookup, Clock.read]
      generalize Flow.Observation.mk e.packet.length e.time c.signal.flags c.signal.handshake = o
      cases hv : m.shard.flows.get? c.id with
      | some v =>
        have hnone : e.refusal = none := by
          cases hr : e.refusal with
          | none => rfl
          | some r => rw [he.fresh r c hr hc] at hv; cases hv
        obtain ⟨ha, hring, happlied⟩ := hdrawn.update hv o
        simp only [hnone, Kernel.Classifier.write, hring, happlied, Meter.submit, List.drop_length, and_true]
        exact ha
      | none =>
        exact hdrawn.create hv e.refusal he.errno o e.queue he.submission

end Alike

theorem Alike.run : ∀ (es : List Encounter) {k : Kernel.Classifier} {m : Meter}, Alike k m → FairRun m es →
    Alike (runEngine Encounter.inKernel k es).1 (runEngine Encounter.onHost m es).1 ∧
      (runEngine Encounter.inKernel k es).2 = (runEngine Encounter.onHost m es).2
  | [], _, _, h, _ => ⟨h, rfl⟩
  | e :: es, k, m, h, hf => by
    obtain ⟨hnext, hout⟩ := h.meet hf.1
    obtain ⟨ha, hrest⟩ := Alike.run es hnext hf.2
    exact ⟨ha, by rw [runEngine, runEngine, hout, hrest]⟩

/-- **The host's engine does what the kernel's does.**  From the same empty state, over every run in which writes are refused
only to flows that are not kept and ring and queue fare alike, both engines keep the same metrics for every flow and send
the same images in the same order. -/
theorem runEngine_agree (settings : MeterSettings) (draws : List UInt32) (es : List Encounter)
    (hes : FairRun (Meter.ofSettings settings draws) es) :
    (∀ id, (runEngine Encounter.inKernel (.ofSettings settings draws) es).1.map.lookup 0 id =
      (runEngine Encounter.onHost (.ofSettings settings draws) es).1.shard.flows.get? id) ∧
    (runEngine Encounter.inKernel (.ofSettings settings draws) es).2 =
      (runEngine Encounter.onHost (.ofSettings settings draws) es).2 := by
  have hstart : Alike (.ofSettings settings draws) (Meter.ofSettings settings draws) :=
    ⟨rfl, rfl, rfl, rfl, rfl, fun _ => rfl⟩
  obtain ⟨ha, hout⟩ := Alike.run es hstart hes
  exact ⟨ha.lookup, hout⟩

/-- A flow that is refused memory once leaves one record on either side, and is kept from then on. -/
theorem runEngine_agree_refused_once :
    let p : Packet := { frame := List.replicate 14 6, length := 60, interface := 1, direction := .ingress }
    let es : List Encounter :=
      [{ packet := p, time := 5, refusal := some .noMemory, ring := { slots := 1 }, queue := .ofSlots 1 },
        { packet := p, time := 6, ring := { slots := 1 }, queue := .ofSlots 1 },
        { packet := p, time := 7, ring := { slots := 1 }, queue := .ofSlots 1 }]
    FairRun (Meter.ofSettings {} []) es ∧
      (runEngine Encounter.inKernel (.ofSettings {} []) es).2 = (runEngine Encounter.onHost (.ofSettings {} []) es).2 ∧
      (runEngine Encounter.onHost (.ofSettings {} []) es).2.length = 1 := by
  intro p es
  have hfair : FairRun (Meter.ofSettings {} []) es := by
    refine ⟨⟨?_, fun _ _ _ _ => rfl, fun _ => rfl⟩, ⟨?_, ?_, fun _ => rfl⟩, ⟨?_, ?_, fun _ => rfl⟩, trivial⟩
    · rintro r hr
      cases hr
      decide
    all_goals
      intros
      contradiction
  exact ⟨hfair, (runEngine_agree {} [] es hfair).2, by decide +kernel⟩

end FlowMeter
