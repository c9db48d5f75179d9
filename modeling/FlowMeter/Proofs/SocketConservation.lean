import FlowMeter.Proofs.SocketCalls
/-!
# Nothing accepted is lost or counted twice

Whatever the workers and the loop of a socket run do, and in whatever order, no step fails, and a run that is over has
exported, for every flow, exactly what the packets accepted for it add up to.
-/
namespace FlowMeter.Agent.SocketSystem

open FlowMeter.Flow (weigh Metrics.volume)

variable {s : MeterSettings} {draws : Nat → List UInt32} {boot : WallTime} {ns : List Notice} {t : SocketSystem}

/-- Every outcome fits its packet. -/
def Fits (s : MeterSettings) (draws : Nat → List UInt32) (t : SocketSystem) : Prop :=
  ∀ (i : Nat) (l : Ledger), t.ledgers[i]? = some l → ∀ (n : Nat) (o : Outcome), l.outcomes[n]? = some o →
    o.Fits (s.inSample (draws i) n)

namespace Books

theorem exists_worker (h : Books s draws boot ns t) {i : Nat} {l : Ledger} (hl : t.ledgers[i]? = some l) :
    ∃ w, t.run.pool.workers[i]? = some w ∧ WorkerBooks s (draws i) boot w l := by
  have hlt : i < t.run.pool.workers.length := h.ledgers ▸ (List.getElem?_eq_some_iff.1 hl).1
  exact ⟨_, List.getElem?_eq_getElem hlt, h.workers i _ l (List.getElem?_eq_getElem hlt) hl⟩

theorem fits (h : Books s draws boot ns t) : Fits s draws t := by
  intro i l hl
  obtain ⟨w, -, hbooks⟩ := h.exists_worker hl
  exact hbooks.outcomes

theorem exhausted (h : Books s draws boot ns t) (hended : t.stage = .ended) : t.Exhausted where
  workers w hw := by
    obtain ⟨i, hi⟩ := List.mem_iff_getElem?.1 hw
    have := h.stage i w hi
    rwa [hended] at this
  queue := (h.ended hended).1
  outlet := (h.ended hended).2

/-- **At the end, the outcome of every accepted packet is known.** -/
theorem handled_all (h : Books s draws boot ns t) (hended : t.stage = .ended) {i : Nat} {l : Ledger}
    (hl : t.ledgers[i]? = some l) : l.outcomes.length = l.accepted.length := by
  obtain ⟨w, hw, hbooks⟩ := h.exists_worker hl
  have hdone := (h.exhausted hended).workers w (List.mem_of_getElem? hw)
  have hzero : w.inHand = 0 := by rw [Pool.Worker.inHand, hdone.emptied.condition]
  have hhandled := hbooks.handled
  have hwaiting := hbooks.waiting
  rw [hzero, Nat.add_zero] at hhandled hwaiting
  rw [hdone.emptied.inbox] at hwaiting
  exact Nat.le_antisymm hhandled (List.drop_eq_nil_iff.1 hwaiting)

theorem stored_of_ended (h : Books s draws boot ns t) (hended : t.stage = .ended) (id : Flow.Id) : t.stored id = 0 := by
  obtain ⟨hworkers, hqueue, hheld⟩ := h.exhausted hended
  have hload : (t.run.pool.workers.map (Pool.Worker.load id)).sum = 0 := by
    refine List.sum_eq_zero fun v hv => ?_
    obtain ⟨w, hw, rfl⟩ := List.mem_map.1 hv
    rw [Pool.Worker.load, (hworkers w hw).emptied.shard, (hworkers w hw).replies]
    exact add_zero _
  rw [stored, hload, hheld, Overflow.Queue.records, hqueue, hended]
  show (0 : Flow.Volume) + 0 + 0 + 0 = 0
  simp only [add_zero]

end Books

/-- **A socket run loses nothing that it accepted, and counts nothing twice.**  With no deduper, and as long as the clock
shows times that can be dated and no worker dies, no succession of steps fails and every outcome fits its packet, from every
point there is a way to the end, and at the end nothing is left and the exported records of each flow are together what its
packets add up to, those of the sample whose records were not lost. -/
theorem conserves {s : Settings} (hs : s.dedup = .off) {x : Surroundings} (interface : UInt32) (workers room : Nat)
    (draws : Nat → List UInt32) (hnow : Datable (Run.outlet s x).place.boot x.monotonic) (choices : List Choice)
    (hchoices : ∀ c ∈ choices, c.Sound (Run.outlet s x).place.boot) :
    ∃ ns t, (start s x interface workers room draws).follow choices = ⟨ns, .ok t⟩ ∧ Fits s.meter draws t ∧
      (∃ ns' t', Leads (Run.outlet s x).place.boot t ns' t' ∧ t'.stage = .ended) ∧
      (t.stage = .ended → t.Exhausted ∧ (∀ l ∈ t.ledgers, l.outcomes.length = l.accepted.length) ∧
        ∀ id, weigh Metrics.volume id (exportedFlows ns) = t.total s.meter draws id) := by
  obtain ⟨ns, t, hfollow, hbooks⟩ := (Books.start hs interface workers room draws hnow).follow choices hchoices
  rw [List.nil_append] at hbooks
  refine ⟨ns, t, hfollow, hbooks.fits, exists_ended hbooks, fun hended => ⟨hbooks.exhausted hended, fun l hl => ?_, fun id => ?_⟩⟩
  · obtain ⟨i, hi⟩ := List.mem_iff_getElem?.1 hl
    exact hbooks.handled_all hended hi
  · rw [← hbooks.balance id, hbooks.stored_of_ended hended id, add_zero]

/-- A worker with room for one flow stands still with the record of another one in its hands, the record goes into the backlog
and out at once, and a packet still waits when the run is asked to end. -/
theorem conserves_stalled_overflow :
    let p : Packet := { frame := List.replicate 14 6, length := 60, interface := 1, direction := .ingress }
    let q : Packet := { frame := List.replicate 14 7, length := 80, interface := 1, direction := .ingress }
    let s : Settings := { meter := { capacity := 1 } }
    let x : Surroundings := { interfaces := [], wall := .epoch, monotonic := 5, cpus := 1, objects := fun _ => none }
    let choices : List Choice :=
      [.dispatch p .proceeds, .dispatch q .stalls, .work 0, .work 0, .pass 9, .resume 0, .receive, .dispatch p .proceeds,
        .empty true, .proceed, .proceed, .work 0, .work 0, .proceed, .proceed]
    (s.dedup = .off ∧ Datable (Run.outlet s x).place.boot x.monotonic ∧
        ∀ c ∈ choices, c.Sound (Run.outlet s x).place.boot) ∧
      ∃ ns t, (start s x 1 1 2 fun _ => []).follow choices = ⟨ns, .ok t⟩ ∧ t.stage = .ended ∧ t.Exhausted ∧
        ∀ id, weigh Metrics.volume id (exportedFlows ns) = t.total s.meter (fun _ => []) id := by
  intro p q s x choices
  have hnow : Datable (Run.outlet s x).place.boot x.monotonic := by decide +kernel
  have hsound : ∀ c ∈ choices, c.Sound (Run.outlet s x).place.boot := by
    have hpass : Datable (Run.outlet s x).place.boot 9 := by decide +kernel
    simp [choices, Choice.Sound, hpass]
  obtain ⟨ns, t, hfollow, -, -, hend⟩ := conserves rfl 1 1 2 (fun _ => []) hnow choices hsound
  have hstage : ((start s x 1 1 2 fun _ => []).follow choices).outcome.toOption.map stage = some .ended := by decide +kernel
  rw [hfollow] at hstage
  have hended : t.stage = .ended := Option.some.inj hstage
  obtain ⟨hexhausted, -, hweigh⟩ := hend hended
  exact ⟨⟨rfl, hnow, hsound⟩, ns, t, hfollow, hended, hexhausted, hweigh⟩

end FlowMeter.Agent.SocketSystem
