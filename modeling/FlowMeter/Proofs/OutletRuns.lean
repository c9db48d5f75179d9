import FlowMeter.Proofs.MeterBanks
import FlowMeter.Proofs.Releases
/-!
# What holds of all that an outlet shows

A property of a flow's metrics that holds on when partial views are put together, and that holds of all that comes in, holds of
all that an outlet keeps and of all that it shows (`Agent.Outlet.yields_follow`).  Every flow that it shows has the times of its
metrics on the wall clock.  Behind meters, it is enough that the property holds of what they have made of their packets
(`MeterBank.Throughout.of_parts`).
-/
namespace FlowMeter

namespace Export

variable {P : Flow.Id → Flow.Metrics → Prop}

/-- A report that is shown is the one that was released, perhaps marked as a duplicate. -/
theorem Exporter.eq_of_shows? {x : Exporter} {r shown : Report} (h : x.shows? r = some shown) :
    shown = { r with duplicate := shown.duplicate } := by
  unfold shows? at h
  cases hd : x.dedup with
  | none =>
    rw [hd] at h
    cases h
    rfl
  | some d =>
    simp only [hd, Dedup.keep?] at h
    split at h
    · split at h <;> cases h
      rfl
    · cases h
      rfl

/-- **A batch has what all that went into it has.** -/
theorem Backlog.forall_combined (hP : Flow.Mergeable P) {b : Backlog} {snapshot : Flow.Merged}
    (hb : ∀ e ∈ b.flows.entries, P e.1 e.2) (hs : ∀ e ∈ snapshot.entries, P e.1 e.2) :
    ∀ e ∈ (b.combined snapshot).entries, P e.1 e.2 := by
  refine Flow.Merged.forall_ofShards hP ?_
  rw [List.flatten_cons, List.flatten_singleton]
  exact List.forall_mem_append.2 ⟨hs, hb⟩

end Export

namespace Agent

/-- What an outlet is given: a record, or the partial views of all shards. -/
inductive OutletStep where
  | record (now : UInt64) (r : Flow.Record)
  | views (now : UInt64) (shards : List Flow.Snapshot)

/-- The flows that come in with a step. -/
def OutletStep.given : OutletStep → Flow.Snapshot
  | record _ r => [r.entry]
  | views _ shards => shards.flatten

namespace Outlet

def step (o : Outlet) : OutletStep → Logged Failure Outlet
  | .record now r => o.account now r
  | .views now shards => o.evict now shards

def follow (o : Outlet) : List OutletStep → Logged Failure Outlet
  | [] => pure o
  | s :: rest => do (← o.step s).follow rest

variable {P : Flow.Id → Flow.Metrics → Prop} {boot : WallTime} {o : Outlet}

/-- The property holds of all that the outlet keeps. -/
structure Holds (P : Flow.Id → Flow.Metrics → Prop) (boot : WallTime) (o : Outlet) : Prop where
  place : o.place.boot = boot
  held : ∀ e ∈ o.held, P e.1 e.2

/-- The property holds of all that is shown, whether the calls succeed or not, and of all that is kept after them if they do.
What is shown is dated. -/
structure Yields (P : Flow.Id → Flow.Metrics → Prop) (boot : WallTime) (run : Logged Failure Outlet) : Prop where
  shown : ∀ r ∈ shownReports run.notices, P r.id r.metrics ∧ r.Dated boot
  left : ∀ o, run.outcome = .ok o → Holds P boot o

namespace Yields

theorem pure (h : Holds P boot o) : Yields P boot (Logged.succeed o) where
  shown _ hr := by cases hr
  left o' ho := by
    cases ho
    exact h

theorem andThen {run : Logged Failure Outlet} {f : Outlet → Logged Failure Outlet} (h : Yields P boot run)
    (hf : ∀ o, Holds P boot o → Yields P boot (f o)) : Yields P boot (run.andThen f) := by
  obtain ⟨notices, e | o⟩ := run
  · exact ⟨h.shown, fun _ ho => by cases ho⟩
  · have hrest := hf o (h.left o rfl)
    refine ⟨fun r hr => ?_, hrest.left⟩
    have hboth : r ∈ shownReports (notices ++ (f o).notices) := hr
    rw [shownReports_append, List.mem_append] at hboth
    rcases hboth with hfirst | hsecond
    · exact h.shown r hfirst
    · exact hrest.shown r hsecond

/-- A call that fails and shows nothing. -/
theorem fail {notices : List Notice} {e : Failure} (h : shownReports notices = []) : Yields P boot ⟨notices, .error e⟩ where
  shown r hr := by
    rw [h] at hr
    cases hr
  left _ ho := by cases ho

/-- A batch is released, and the backlog is left with what has the property. -/
theorem release (h : Holds P boot o) {notices : List Notice} {x : Export.Exporter} {batch : List Export.Report}
    {flows : Flow.Snapshot} (hheld : ∀ e ∈ x.backlog.flows.entries, P e.1 e.2)
    (hbatch : batch.map (fun r => (r.id, r.metrics)) = flows) (hflows : ∀ e ∈ flows, P e.1 e.2)
    (hdated : ∀ r ∈ batch, r.Dated o.place.boot) (hshown : shownReports notices = batch.filterMap x.shows?) :
    Yields P boot ⟨notices, .ok { o with exporter := x }⟩ where
  shown r hr := by
    rw [hshown] at hr
    obtain ⟨released, hmem, hshows⟩ := List.mem_filterMap.1 hr
    have hP := hflows (released.id, released.metrics) (hbatch ▸ List.mem_map_of_mem hmem)
    have hd := hdated released hmem
    rw [Export.Exporter.eq_of_shows? hshows]
    exact ⟨hP, h.place ▸ hd.start, h.place ▸ hd.stop⟩
  left o' ho := by
    cases ho
    exact ⟨h.place, hheld⟩

end Yields

section

variable (hP : Flow.Mergeable P)
include hP

theorem yields_account (h : Holds P boot o) (now : UInt64) {r : Flow.Record} (hr : P r.id r.metrics) :
    Yields P boot (o.account now r) := by
  cases hcall : o.exporter.account o.place ⟨now.toNat⟩ r with
  | mk notices outcome =>
    unfold account
    rw [hcall]
    cases outcome with
    | error e => exact .fail (Export.Exporter.shownReports_of_account hcall)
    | ok out =>
      obtain ⟨given, hgiven, -, hshown⟩ := Export.Exporter.eq_of_account hcall
      have hadd : ∀ e ∈ (o.exporter.backlog.add r).flows.entries, P e.1 e.2 := Flow.Merged.forall_add hP h.held r.id hr
      rw [Logged.mapError_ok, Logged.ok_bind]
      show Yields P boot ⟨notices ++ [], .ok { o with exporter := out.1 }⟩
      rw [List.append_nil]
      rcases Export.Backlog.eq_of_account hgiven with ⟨rfl, hbacklog⟩ | ⟨batch, rfl, hbacklog, hbatch, hdated⟩
      · exact .release h (by rwa [hbacklog]) rfl (fun _ h => by cases h) (fun _ h => by cases h) hshown
      · refine .release h (by rw [hbacklog]; exact fun _ h => by cases h) hbatch ?_ hdated hshown
        exact Export.Backlog.forall_combined hP hadd fun _ h => by cases h

theorem yields_evict (h : Holds P boot o) (now : UInt64) {shards : List Flow.Snapshot}
    (hs : ∀ e ∈ shards.flatten, P e.1 e.2) : Yields P boot (o.evict now shards) := by
  cases hcall : o.exporter.evict o.place ⟨now.toNat⟩ (Flow.Merged.ofShards shards) with
  | mk notices outcome =>
    unfold evict
    rw [hcall]
    cases outcome with
    | error e => exact .fail (Export.Exporter.shownReports_of_evict hcall)
    | ok out =>
      obtain ⟨batch, hreports, -, hshown⟩ := Export.Exporter.eq_of_evict hcall
      obtain ⟨hbacklog, hbatch, hdated⟩ := Export.Backlog.eq_of_evict hreports
      rw [Logged.mapError_ok, Logged.ok_bind]
      show Yields P boot ⟨notices ++ [], .ok { o with exporter := out.1 }⟩
      rw [List.append_nil]
      refine .release h (by rw [hbacklog]; exact fun _ h => by cases h) hbatch ?_ hdated hshown
      exact Export.Backlog.forall_combined hP h.held (Flow.Merged.forall_ofShards hP hs)

theorem yields_step (h : Holds P boot o) {s : OutletStep} (hs : ∀ e ∈ s.given, P e.1 e.2) : Yields P boot (o.step s) := by
  cases s with
  | record now r => exact yields_account hP h now (hs r.entry List.mem_cons_self)
  | views now shards => exact yields_evict hP h now hs

/-- **What holds of all that comes in holds of all that is kept and shown**, also of what is shown before a call fails. -/
theorem yields_follow : ∀ (steps : List OutletStep) {o : Outlet}, Holds P boot o →
    (∀ s ∈ steps, ∀ e ∈ s.given, P e.1 e.2) → Yields P boot (o.follow steps)
  | [], _, h, _ => .pure h
  | s :: steps, _, h, hs =>
    (yields_step hP h (hs s List.mem_cons_self)).andThen fun _ h' =>
      yields_follow steps h' fun s' hs' => hs s' (List.mem_cons_of_mem _ hs')

end

end Outlet
end Agent

namespace MeterBank

variable {P : Flow.Id → Flow.Metrics → Prop} {t : MeterBank}

/-- Metrics of a flow that come of the parts, put together in any order and any number of times. -/
inductive Made (t : MeterBank) : Flow.Id → Flow.Metrics → Prop where
  | part {id : Flow.Id} {m : Flow.Metrics} : (id, m) ∈ t.parts → Made t id m
  | merged {id : Flow.Id} {m : Flow.Metrics} (shards : List Flow.Snapshot) : (∀ e ∈ shards.flatten, Made t e.1 e.2) →
      (id, m) ∈ (Flow.Merged.ofShards shards).entries → Made t id m

/-- The property holds of all metrics that the meters keep, have given up or have left as records, of all that is made of them,
and of all that an outlet keeps or shows of that, if it kept nothing at first. -/
structure Throughout (P : Flow.Id → Flow.Metrics → Prop) (t : MeterBank) : Prop where
  parts : ∀ e ∈ t.parts, P e.1 e.2
  made : ∀ id m, t.Made id m → P id m
  outlet : ∀ (o : Agent.Outlet) (steps : List Agent.OutletStep), o.held = [] →
    (∀ s ∈ steps, ∀ e ∈ s.given, t.Made e.1 e.2) → Agent.Outlet.Yields P o.place.boot (o.follow steps)

/-- **What holds of all parts and holds on when parts are put together holds throughout.** -/
theorem Throughout.of_parts (hP : Flow.Mergeable P) (h : ∀ e ∈ t.parts, P e.1 e.2) : Throughout P t := by
  have hmade : ∀ id m, t.Made id m → P id m := by
    intro id m hm
    induction hm with
    | part he => exact h _ he
    | merged shards _ he ih => exact Flow.Merged.forall_ofShards hP ih _ he
  refine ⟨h, hmade, fun o steps hheld hgiven => ?_⟩
  refine Agent.Outlet.yields_follow hP steps ⟨rfl, fun e he => ?_⟩ fun s hs e he => hmade _ _ (hgiven s hs e he)
  rw [hheld] at he
  cases he

end MeterBank
end FlowMeter
