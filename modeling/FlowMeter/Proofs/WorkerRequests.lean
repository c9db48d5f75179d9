import FlowMeter.Proofs.ShardContents
import FlowMeter.Proofs.WorkerStages
/-!
# A worker with a request and without one

A worker that is not asked keeps its flows, and counts the packets that wait (`Worker.Spared`).  A worker that is asked goes on
like the one that is not, until it comes to the request; then nothing is left of what it kept (`Worker.Asks`).
-/
namespace FlowMeter

open FlowMeter.Flow (observed partOf)

/-- What a flow has of one packet more, if the packet is in the sample. -/
theorem Meter.get?_take {m : Meter} {id : Flow.Id} {a : Flow.Metrics} (h : m.shard.flows.get? id = some a) (clock : Clock)
    (p : Packet) :
    (m.take clock none p).1.shard.flows.get? id =
      some ((partOf id (observed (if (m.settings.draw m.draws).1 then [(p, clock.now)] else []))).foldl Flow.Metrics.add a) := by
  rw [take_eq]
  cases (m.settings.draw m.draws).1 with
  | false => exact h
  | true =>
    rw [if_pos rfl, if_pos rfl]
    cases ho : p.observed? clock.now with
    | none => simpa [observed, ho, partOf] using h
    | some e =>
      have := Shard.get?_apply_of_resident h e.1 e.2
      by_cases he : e.1 = id <;> simpa [observed, ho, partOf, he] using this

namespace Pool.Worker

/-- What a worker kept, it keeps later, and in each flow there are more only the packets that waited and that it has handled
since.  It has handled all of those in order that do not wait any more, if it counts all packets and has not stopped. -/
structure Keeps (w w' : Worker) : Prop where
  settings : w'.meter.settings = w.meter.settings
  flows : ∃ handled : List (Packet × UInt64),
    (handled.map Prod.fst ++ w'.inbox.filterMap Message.packet?).Sublist (w.inbox.filterMap Message.packet?) ∧
      (w.meter.settings.sampling = 0 → w'.condition ≠ .stopped →
        handled.map Prod.fst ++ w'.inbox.filterMap Message.packet? = w.inbox.filterMap Message.packet?) ∧
      ∀ id m, w.meter.shard.flows.get? id = some m →
        w'.meter.shard.flows.get? id = some ((partOf id (observed handled)).foldl Flow.Metrics.add m)

theorem Keeps.refl (w : Worker) : w.Keeps w := ⟨rfl, [], List.Sublist.refl _, fun _ _ => rfl, fun _ _ h => h⟩

theorem meter_meet (w : Worker) (sh : Shared) (p : Packet) (fate : Fate) :
    (w.meet sh p fate).1.meter = (w.meter.take sh.clock none p).1 := by
  cases fate <;> rfl

/-- **A worker that is not asked keeps its flows.** -/
theorem Keeps.work {w w' : Worker} (h : w.Keeps w') (hask : .evict ∉ w'.inbox) (sh : Shared) : w.Keeps (w'.work sh).1 := by
  obtain ⟨hsettings, handled, hpackets, hall, hresident⟩ := h
  rcases w'.work_cases sh with ⟨p, fate, rest, hc, hi, hwork⟩ | ⟨rest, -, hi, -, -⟩ | ⟨hwork, -⟩
  · rw [hwork]
    rw [hi] at hpackets hall
    refine ⟨by rw [meter_meet, Meter.settings_take, hsettings],
      handled ++ if (w'.meter.settings.draw w'.meter.draws).1 then [(p, sh.clock.now)] else [], ?_, fun hs hcondition => ?_,
      fun id m hm => ?_⟩
    · have hrest := (inbox_meet_suffix { w' with inbox := rest } sh p fate).sublist.filterMap Message.packet?
      refine List.Sublist.trans ?_ hpackets
      rw [List.map_append, List.append_assoc]
      refine List.Sublist.append (List.Sublist.refl _) ?_
      split
      · exact hrest.cons_cons p
      · exact hrest.cons p
    · have hdraw : (w'.meter.settings.draw w'.meter.draws).1 = true := by rw [hsettings, MeterSettings.draw, if_pos hs]
      have hfate : fate ≠ .dies := by
        rintro rfl
        exact hcondition rfl
      rw [inbox_meet _ sh p hfate, hdraw, if_pos rfl, List.map_append, List.append_assoc]
      exact hall hs (by simp [hc])
    · rw [meter_meet, Meter.get?_take (hresident id m hm), Flow.observed_append, Flow.partOf_append, List.foldl_append]
  · exact absurd (hi ▸ List.mem_cons_self) hask
  · rw [hwork]
    exact ⟨hsettings, handled, hpackets, hall, hresident⟩

theorem Keeps.resume {w w' : Worker} (h : w.Keeps w') (sh : Shared) : w.Keeps (w'.resume sh).1 := by
  rcases w'.resume_cases sh with ⟨_, hc, hw⟩ | hw
  · rw [hw]
    obtain ⟨hsettings, handled, hpackets, hall, hresident⟩ := h
    exact ⟨hsettings, handled, hpackets, fun hs _ => hall hs (by simp [hc]), hresident⟩
  · rw [hw]
    exact h

/-- A worker that is not asked, and keeps what another one kept. -/
structure Spared (w₀ w : Worker) : Prop where
  keeps : w₀.Keeps w
  unasked : .evict ∉ w.inbox

theorem Spared.work {w₀ w : Worker} (h : w₀.Spared w) (sh : Shared) : w₀.Spared (w.work sh).1 :=
  ⟨h.keeps.work h.unasked sh, fun hmem => h.unasked ((w.inbox_work_suffix sh).subset hmem)⟩

theorem Spared.resume {w₀ w : Worker} (h : w₀.Spared w) (sh : Shared) : w₀.Spared (w.resume sh).1 := by
  refine ⟨h.keeps.resume sh, ?_⟩
  rcases w.resume_cases sh with ⟨_, -, hw⟩ | hw <;> rw [hw] <;> exact h.unasked

/-- A worker with a request for its flows, and the same worker without it. -/
inductive Asks (w w' : Worker) : Prop
  | pending (h : w' = { w with inbox := w.inbox ++ [.evict] })
  /-- The request has been answered, and nothing is left. -/
  | answered (idle : w.condition = .working ∧ w.inbox = []) (condition : w'.condition = .working) (inbox : w'.inbox = [])
      (shard : w'.meter.shard.snapshot = [])
  | stopped (h : w.condition = .stopped) (h' : w'.condition = .stopped)

/-- **A request at the end of the inbox changes nothing until the worker comes to it.** -/
theorem Asks.work {w w' : Worker} (h : w.Asks w') (sh : Shared) :
    (w.work sh).1.Asks (w'.work sh).1 ∧ (w'.work sh).2 = (w.work sh).2 := by
  cases h with
  | stopped h h' =>
    rw [(Resting.of_stopped h).work, (Resting.of_stopped h').work]
    exact ⟨.stopped h h', rfl⟩
  | answered idle condition inbox shard =>
    rw [Resting.work fun _ => idle.2, Resting.work fun _ => inbox]
    exact ⟨.answered idle condition inbox shard, rfl⟩
  | pending h =>
    subst h
    obtain ⟨meter, inbox, condition, replies⟩ := w
    rcases condition with _ | sighting | _
    · rcases inbox with _ | ⟨⟨p, fate⟩ | _, rest⟩
      · exact ⟨.answered ⟨rfl, rfl⟩ rfl rfl rfl, rfl⟩
      · cases fate with
        | proceeds => exact ⟨.pending rfl, rfl⟩
        | stalls => exact ⟨.pending rfl, rfl⟩
        | dies => exact ⟨.stopped rfl rfl, rfl⟩
      · exact ⟨.pending rfl, rfl⟩
    · exact ⟨.pending rfl, rfl⟩
    · exact ⟨.pending rfl, rfl⟩

theorem Asks.resume {w w' : Worker} (h : w.Asks w') (sh : Shared) :
    (w.resume sh).1.Asks (w'.resume sh).1 ∧ (w'.resume sh).2 = (w.resume sh).2 := by
  cases h with
  | stopped h h' =>
    simp only [Worker.resume, h, h']
    exact ⟨.stopped h h', trivial⟩
  | answered idle condition inbox shard =>
    simp only [Worker.resume, idle.1, condition]
    exact ⟨.answered idle condition inbox shard, trivial⟩
  | pending h =>
    subst h
    obtain ⟨meter, inbox, condition, replies⟩ := w
    rcases condition with _ | sighting | _ <;> exact ⟨.pending rfl, rfl⟩

/-- **A worker that was asked has lost its flows when it comes to the end of its inbox.** -/
theorem Asks.snapshot_eq_nil {w w' : Worker} (h : w.Asks w') (hcondition : w'.condition = .working) (hinbox : w'.inbox = []) :
    w'.meter.shard.snapshot = [] := by
  cases h with
  | stopped _ h' =>
    rw [h'] at hcondition
    cases hcondition
  | answered _ _ _ shard => exact shard
  | pending h =>
    subst h
    simp at hinbox

end Pool.Worker
end FlowMeter
