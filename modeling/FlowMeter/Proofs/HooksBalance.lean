import FlowMeter.Proofs.MapBooks
import Mathlib.Tactic.Abel
/-!
# The books of a run on hooks

`HooksSystem.Books` is what holds after every admitted step: the map agrees with the walk over it, and for every flow what was
exported and what is held are together what the packets add up to.  Each step keeps it (`Books.step`).
-/
namespace FlowMeter

open FlowMeter.Flow (weigh AllDatable Metrics.volume)

namespace Kernel.Forwarder

/-- **A step of the ring's reader loses nothing, as long as somebody receives.** -/
theorem step_cases {f : Forwarder} (h : f.deserted = false) :
    f.step.1.inFlight = f.inFlight ∧ f.step.1.deserted = false ∧ exportedFlows f.step.2 = [] := by
  rw [step]
  split
  · exact ⟨rfl, h, rfl⟩
  · cases hh : f.holding with
    | some r =>
      simp only [put, h, Bool.false_eq_true, if_false]
      split
      · refine ⟨?_, rfl, rfl⟩
        simp only [inFlight, hh, Option.toList_some, Option.toList_none, List.append_assoc, List.nil_append]
      · exact ⟨rfl, h, rfl⟩
    | none =>
      simp only [take]
      cases hring : f.ring with
      | nil => exact ⟨rfl, h, rfl⟩
      | cons entry rest =>
        simp only
        cases hr : Flow.Record.ofOctets? entry with
        | some r =>
          refine ⟨?_, h, rfl⟩
          simp only [inFlight, hh, hring, List.filterMap_cons_some hr, Option.toList_some, Option.toList_none,
            List.nil_append, List.singleton_append]
        | none =>
          refine ⟨?_, h, rfl⟩
          simp only [inFlight, hring, List.filterMap_cons_none hr]

theorem inFlight_of_receive? {f f' : Forwarder} {r : Flow.Record} (h : f.receive? = some (r, f')) :
    f.inFlight = r :: f'.inFlight ∧ f'.deserted = f.deserted := by
  rw [receive?] at h
  split at h
  · cases h
  · rename_i r' rest hchannel
    cases h
    exact ⟨by simp only [inFlight, hchannel, List.cons_append], rfl⟩

end Kernel.Forwarder

namespace Agent.HooksSystem

/-- The books of a run with all of its notices. -/
structure Books (s : MeterSettings) (draws : List UInt32) (boot : WallTime) (notices : List Notice) (t : HooksSystem) : Prop where
  settings : t.kernel.settings = s
  drawn : t.draws = s.drawsAfter draws t.seen.length
  map : MapBooks boot t.run.loaded.flows t.tally t.walk
  forwarded : t.run.forwarder.deserted = false
  inFlight : AllDatable boot (t.run.forwarder.inFlight.map Flow.Record.entry)
  outlet : t.run.outlet.Plain boot
  balance : ∀ id, weigh Metrics.volume id (exportedFlows notices) + t.held id = t.total s draws id

/-- A step that does not fail, and after which the books hold. -/
def Kept (s : MeterSettings) (draws : List UInt32) (boot : WallTime) (ns : List Notice) (r : Logged Failure HooksSystem) : Prop :=
  ∃ ns' t', r = ⟨ns', .ok t'⟩ ∧ Books s draws boot (ns ++ ns') t'

namespace Books

variable {s : MeterSettings} {draws : List UInt32} {boot : WallTime} {ns : List Notice} {t : HooksSystem}

theorem kept (h : Books s draws boot ns t) : Kept s draws boot ns (pure t) :=
  ⟨[], t, rfl, by rwa [List.append_nil]⟩

theorem forward (h : Books s draws boot ns t) : Kept s draws boot ns (t.step .forward) := by
  obtain ⟨hflight, hdeserted, hnotices⟩ := Kernel.Forwarder.step_cases h.forwarded
  refine ⟨t.run.forwarder.step.2, { t with run := { t.run with forwarder := t.run.forwarder.step.1 } }, ?_, ?_⟩
  · simp only [step, HooksRun.forward, Logged.tell, Logged.ok_bind, pure, Logged.succeed, List.append_nil]
  · refine ⟨h.settings, h.drawn, h.map, hdeserted, ?_, h.outlet, fun id => ?_⟩
    · show AllDatable boot (t.run.forwarder.step.1.inFlight.map Flow.Record.entry)
      rw [hflight]
      exact h.inFlight
    · rw [exportedFlows_append, hnotices, List.append_nil]
      have hheld : held { t with run := { t.run with forwarder := t.run.forwarder.step.1 } } id = t.held id := by
        simp only [held, hflight]
      rw [hheld]
      exact h.balance id

theorem receive (h : Books s draws boot ns t) : Kept s draws boot ns (t.step .receive) := by
  cases hnext : t.run.forwarder.receive? with
  | none =>
    have : t.step .receive = pure t := by
      simp only [step, HooksRun.receive, hnext]
      rfl
    rw [this]
    exact h.kept
  | some next =>
    obtain ⟨r, f⟩ := next
    obtain ⟨hflight, hdeserted⟩ := Kernel.Forwarder.inFlight_of_receive? hnext
    have hall := h.inFlight
    rw [hflight, List.map_cons] at hall
    have hr : r.metrics.Datable boot := hall r.entry List.mem_cons_self
    obtain ⟨ns', o, haccount, ho, hbalance⟩ := Outlet.account_balance h.outlet Flow.additive_volume t.run.now hr
    refine ⟨ns', { t with run := { t.run with forwarder := f, outlet := o } }, ?_, ?_⟩
    · simp only [step, HooksRun.receive, hnext, haccount, Logged.ok_bind, pure, Logged.succeed, List.append_nil]
    · refine ⟨h.settings, h.drawn, h.map, hdeserted.trans h.forwarded,
        fun e he => hall e (List.mem_cons_of_mem _ he), ho, fun id => ?_⟩
      have htotal := h.balance id
      rw [exportedFlows_append, Flow.weigh_append]
      refine Eq.trans ?_ htotal
      simp only [held, hflight, Flow.weigh_records_cons]
      calc
        _ = weigh Metrics.volume id (exportedFlows ns) + weigh Flow.rowVolume id t.run.loaded.flows.entries +
              weigh Flow.rowVolume id t.walk.gone + weigh Metrics.volume id (f.inFlight.map Flow.Record.entry) +
              (weigh Metrics.volume id (exportedFlows ns') + weigh Metrics.volume id o.held) := by
          abel
        _ = _ := by
          rw [hbalance id]
          abel

theorem total_seen (h : Books s draws boot ns t) (p : Packet) (id : Flow.Id) (t' : HooksSystem)
    (hseen : t'.seen = t.seen ++ [p]) :
    t'.total s draws id = t.total s draws id + if (t.kernel.flowOf? p).isSome then p.share id else 0 := by
  have hsample : (t.kernel.settings.draw t.kernel.draws).1 = s.inSample draws t.seen.length := by
    have hdrawn : t.kernel.draws = s.drawsAfter draws t.seen.length := h.drawn
    rw [h.settings, hdrawn, MeterSettings.draw_drawsAfter]
  rw [total, hseen, List.mapIdx_concat, List.sum_append, List.sum_singleton, total, Kernel.Classifier.flowOf?, hsample]
  congr 1
  cases s.inSample draws t.seen.length with
  | false => rfl
  | true =>
    rw [if_pos rfl, if_pos rfl, Packet.share]
    cases Classified.ofFrame? p.frame p.direction p.interface <;> rfl

theorem drawn_seen (h : Books s draws boot ns t) (p : Packet) :
    (t.kernel.settings.draw t.kernel.draws).2 = s.drawsAfter draws (t.seen ++ [p]).length := by
  have hdrawn : t.kernel.draws = s.drawsAfter draws t.seen.length := h.drawn
  rw [h.settings, hdrawn, MeterSettings.draw_drawsAfter, List.length_append, List.length_singleton]

section

variable {cpu : Nat} {now : UInt64} {p : Packet} {c : Classified}

theorem overlook (h : Books s draws boot ns t) (hnone : t.kernel.flowOf? p = none) :
    Books s draws boot ns { t with draws := (t.kernel.settings.draw t.kernel.draws).2, seen := t.seen ++ [p] } := by
  refine ⟨h.settings, h.drawn_seen p, h.map, h.forwarded, h.inFlight, h.outlet, fun id => ?_⟩
  rw [h.total_seen p id _ rfl, hnone, Option.isSome_none, if_neg (by simp), add_zero]
  exact h.balance id

/-- **A packet that is counted in its slot is held in the map.** -/
theorem count (h : Books s draws boot ns t) (hc : t.kernel.flowOf? p = some c) (hcpu : cpu < t.run.loaded.flows.cpus)
    (hnow : Datable boot now) (hid : c.id ∉ t.walk.pending.map Prod.fst) :
    Books s draws boot ns
      { t with
        run := withFlows t.run (t.run.loaded.flows.put cpu c.id
          (t.run.loaded.flows.counted cpu c.id (Kernel.Classifier.observation p c now)))
        draws := (t.kernel.settings.draw t.kernel.draws).2
        seen := t.seen ++ [p]
        tally := bump t.tally c.id cpu } := by
  have hslot := Kernel.FlowMap.slotBooks_counted hcpu (h.map.rows c.id) (h.map.absent c.id)
    (o := Kernel.Classifier.observation p c now) hnow
  have hweigh := Kernel.FlowMap.weigh_put hcpu (h.map.length c.id)
    (Kernel.FlowMap.volume_counted t.run.loaded.flows cpu c.id (Kernel.Classifier.observation p c now))
  refine ⟨h.settings, h.drawn_seen p, h.map.put hslot hid, h.forwarded, h.inFlight, h.outlet, fun id => ?_⟩
  rw [h.total_seen p id _ rfl, hc, Option.isSome_some, if_pos rfl, Kernel.Classifier.share_of_flowOf? hc now, ← h.balance id]
  simp only [held, withFlows, hweigh id]
  abel

/-- **A packet whose record goes into the ring is held on its way.** -/
theorem spill (h : Books s draws boot ns t) (hc : t.kernel.flowOf? p = some c) (hnow : Datable boot now) (r : Refusal) :
    Books s draws boot ns
      { t with
        run := withRing t.run (t.run.forwarder.ring ++
          [(Kernel.Classifier.refusedRecord c.id (Kernel.Classifier.observation p c now) r).toOctets])
        draws := (t.kernel.settings.draw t.kernel.draws).2
        seen := t.seen ++ [p] } := by
  have hvolume : (Kernel.Classifier.refusedRecord c.id (Kernel.Classifier.observation p c now) r).metrics.volume =
      (Flow.Metrics.ofFirst (Kernel.Classifier.observation p c now)).volume := rfl
  have hid : (Kernel.Classifier.refusedRecord c.id (Kernel.Classifier.observation p c now) r).id = c.id := rfl
  have hdatable : (Kernel.Classifier.refusedRecord c.id (Kernel.Classifier.observation p c now) r).metrics.Datable boot :=
    ⟨hnow, hnow⟩
  generalize Kernel.Classifier.refusedRecord c.id (Kernel.Classifier.observation p c now) r = record at hvolume hid hdatable ⊢
  have hflight : (withRing t.run (t.run.forwarder.ring ++ [record.toOctets])).forwarder.inFlight =
      t.run.forwarder.inFlight ++ [record] := by
    simp only [Kernel.Forwarder.inFlight, withRing, List.filterMap_append, List.append_assoc,
      List.filterMap_cons_some (Flow.Record.ofOctets?_toOctets _), List.filterMap_nil]
  refine ⟨h.settings, h.drawn_seen p, h.map, h.forwarded, ?_, h.outlet, fun id => ?_⟩
  · show AllDatable boot
      ((withRing t.run (t.run.forwarder.ring ++ [record.toOctets])).forwarder.inFlight.map Flow.Record.entry)
    rw [hflight, List.map_append]
    refine h.inFlight.append fun e he => ?_
    obtain rfl := List.mem_singleton.1 he
    exact hdatable
  · rw [h.total_seen p id _ rfl, hc, Option.isSome_some, if_pos rfl, Kernel.Classifier.share_of_flowOf? hc now, ← h.balance id]
    simp only [held, hflight, List.map_append, Flow.weigh_append, Flow.weigh_records_cons, List.map_nil, Flow.weigh_nil,
      hvolume, hid]
    simp only [withRing]
    abel

end

/-- **A packet is counted in its slot, or its record goes into the ring.** -/
theorem observe (h : Books s draws boot ns t) {cpu : Nat} {now : UInt64} {refusal : Option Refusal} {p : Packet}
    (hadmits : t.Admits (.observe cpu now refusal p)) : Books s draws boot ns (t.observe cpu now refusal p) := by
  obtain ⟨hcpu, hnow, hflow⟩ := hadmits
  rw [h.outlet.place] at hnow
  rcases t.kernel.observe_cases cpu now refusal p with ⟨hnone, hobserve⟩ | ⟨c, hc, hobserve | ⟨hspills, r, hobserve⟩⟩
  · have hobs : t.observe cpu now refusal p =
        { t with draws := (t.kernel.settings.draw t.kernel.draws).2, seen := t.seen ++ [p] } := by
      simp only [HooksSystem.observe, hobserve, hnone]
      rfl
    rw [hobs]
    exact h.overlook hnone
  · have hobs : t.observe cpu now refusal p =
        { t with
          run := withFlows t.run (t.run.loaded.flows.put cpu c.id
            (t.run.loaded.flows.counted cpu c.id (Kernel.Classifier.observation p c now)))
          draws := (t.kernel.settings.draw t.kernel.draws).2
          seen := t.seen ++ [p]
          tally := bump t.tally c.id cpu } := by
      simp only [HooksSystem.observe, hobserve, hc, Kernel.FlowMap.contains_put, if_true]
      rfl
    rw [hobs]
    exact h.count hc hcpu hnow (hflow c hc).1
  -- the ring has room, so the record is not lost; nobody has a slot for the flow, so no tally moves
  · have hroom := (hflow c hc).2 hspills
    have hnone := Kernel.FlowMap.lookup_eq_none hcpu (h.map.length c.id) hspills.1
    have hobs : t.observe cpu now refusal p =
        { t with
          run := withRing t.run (t.run.forwarder.ring ++
            [(Kernel.Classifier.refusedRecord c.id (Kernel.Classifier.observation p c now) r).toOctets])
          draws := (t.kernel.settings.draw t.kernel.draws).2
          seen := t.seen ++ [p] } := by
      have hcontains : t.kernel.map.rows.contains c.id = false := congrArg Option.isSome hnone
      rw [Kernel.Ring.push?, if_pos (show t.kernel.ring.entries.length < t.kernel.ring.slots from hroom)] at hobserve
      simp only [HooksSystem.observe, hobserve, hc, hcontains, Bool.false_eq_true, if_false]
      rfl
    rw [hobs]
    exact h.spill hc hnow r

theorem read (h : Books s draws boot ns t) {id : Flow.Id} (hadmits : t.Admits (.read id)) :
    Books s draws boot ns (t.read id) := by
  rw [HooksSystem.read]
  split
  · rename_i rows row hwalk hrow
    have hmap := h.map
    have hbalance := h.balance
    rw [hwalk] at hmap
    simp only [held, hwalk] at hbalance
    split
    · exact h
    · rename_i hnew
      exact ⟨h.settings, h.drawn, hmap.read hrow hnew hadmits, h.forwarded, h.inFlight, h.outlet, hbalance⟩
  · exact h

/-- **A flow that is removed is held outside.** -/
theorem remove (h : Books s draws boot ns t) {gone left : List Row} {row : Row} (hwalk : t.walk = .removing gone (row :: left)) :
    Books s draws boot ns
      { t with
        run := withFlows t.run (t.run.loaded.flows.delete row.1)
        walk := .removing (gone ++ [row]) left
        tally := fun id cpu => if id = row.1 then 0 else t.tally id cpu } := by
  have hmap := h.map
  rw [hwalk] at hmap
  refine ⟨h.settings, h.drawn, hmap.remove, h.forwarded, h.inFlight, h.outlet, fun id => ?_⟩
  refine Eq.trans ?_ (h.balance id)
  simp only [held, withFlows, hwalk, Walk.gone, Flow.weigh_append, Flow.weigh_cons, Flow.weigh_nil, hmap.weigh_delete id]
  abel

/-- **All that was removed goes out together.** -/
theorem deliver (h : Books s draws boot ns t) {gone : List Row} (hwalk : t.walk = .removing gone []) :
    Kept s draws boot ns (t.step .proceed) := by
  have hmap := h.map
  rw [hwalk] at hmap
  have hgone : ∀ e ∈ gone, Readable boot e.2 := hmap.gone
  obtain ⟨ns', o, hevict, ho, hheld, hexported⟩ :=
    Outlet.evict_balance h.outlet Flow.additive_volume t.run.now (datable_splitRows hgone)
  refine ⟨ns', { t with run := { t.run with outlet := o }, walk := .resting }, ?_, ?_⟩
  · simp only [step, proceed, hwalk, hevict, Logged.ok_bind, pure, Logged.succeed, List.append_nil]
  · refine ⟨h.settings, h.drawn, hmap.rest, h.forwarded, h.inFlight, ho, fun id => ?_⟩
    -- idle slots are left out of the views, and nothing is lost with them
    have hsplit := Flow.weigh_splitRows id fun e he => (hgone e he).shows
    refine Eq.trans ?_ (h.balance id)
    simp only [exportedFlows_append, Flow.weigh_append, hexported, hsplit, held, hwalk, Walk.gone, hheld, Flow.weigh_nil]
    abel

theorem proceed (h : Books s draws boot ns t) : Kept s draws boot ns (t.step .proceed) := by
  cases hwalk : t.walk with
  | resting =>
    have hstep : t.step .proceed = pure t := by simp only [step, HooksSystem.proceed, hwalk]
    rw [hstep]
    exact h.kept
  | reading rows =>
    have hmap := h.map
    have hbalance := h.balance
    rw [hwalk] at hmap
    simp only [held, hwalk] at hbalance
    simp only [step, HooksSystem.proceed, hwalk]
    exact kept ⟨h.settings, h.drawn, hmap.turn, h.forwarded, h.inFlight, h.outlet, hbalance⟩
  | removing gone left =>
    cases left with
    | cons row left =>
      have hkept := (h.remove hwalk).kept
      simp only [step, HooksSystem.proceed, hwalk]
      exact hkept
    | nil => exact h.deliver hwalk

theorem walk (h : Books s draws boot ns t) : Kept s draws boot ns (t.step .walk) := by
  by_cases hwalk : t.walk = .resting
  · have hmap := h.map
    have hbalance := h.balance
    rw [hwalk] at hmap
    simp only [held, hwalk] at hbalance
    simp only [step, if_pos hwalk]
    exact kept ⟨h.settings, h.drawn, hmap.begin, h.forwarded, h.inFlight, h.outlet, hbalance⟩
  · simp only [step, if_neg hwalk]
    exact h.kept

/-- **No admitted step fails, and the books hold after it.** -/
theorem step (h : Books s draws boot ns t) (c : Choice) (hc : t.Admits c) : Kept s draws boot ns (t.step c) := by
  cases c with
  | pass now => exact kept ⟨h.settings, h.drawn, h.map, h.forwarded, h.inFlight, h.outlet, h.balance⟩
  | observe cpu now refusal p => exact (h.observe hc).kept
  | forward => exact h.forward
  | receive => exact h.receive
  | walk => exact h.walk
  | read id => exact (h.read hc).kept
  | proceed => exact h.proceed

/-- **Nor does any succession of admitted steps.** -/
theorem follow : ∀ (choices : List Choice) {ns : List Notice} {t : HooksSystem}, Books s draws boot ns t →
    t.AdmitsAll choices → Kept s draws boot ns (t.follow choices)
  | [], _, _, h, _ => h.kept
  | c :: rest, ns, t, h, ⟨hc, hrest⟩ => by
    obtain ⟨ns', t', hstep, h'⟩ := h.step c hc
    obtain ⟨ns'', t'', hfollow, h''⟩ := follow rest h' (hrest t' (by rw [hstep]))
    refine ⟨ns' ++ ns'', t'', ?_, by rwa [← List.append_assoc]⟩
    simp only [HooksSystem.follow, hstep, Logged.ok_bind, hfollow]

/-- The books of a run that starts with nothing in the map. -/
theorem start {s : Settings} (hs : s.dedup = .off) (x : Surroundings) (l : Kernel.Loaded) (buffers slots : Nat)
    (draws : List UInt32) :
    Books (HooksSystem.start s x l buffers slots draws).kernel.settings draws (Run.outlet s x).place.boot []
      (HooksSystem.start s x l buffers slots draws) where
  settings := rfl
  drawn := (ite_self _).symm
  map := .emptied _ l.flows
  forwarded := rfl
  inFlight e he := by cases he
  outlet := Run.plain_outlet hs x
  balance id := by
    show (0 : Flow.Volume) + (0 + 0 + 0 + 0) = 0
    simp only [add_zero]

end Books
end Agent.HooksSystem
end FlowMeter
