import FlowMeter.Agent.Run
import FlowMeter.Proofs.Weight
/-!
# What the outlet lets out

With no deduper and times that have their place on the wall clock, the outlet never fails, and what it is given is either told
as exported or still in its backlog (`Outlet.account_balance`, `Outlet.evict_balance`).  Only an eviction is sure to leave
nothing behind.
-/
namespace FlowMeter

/-- The monotonic time has its place on the wall clock. -/
def Datable (boot : WallTime) (t : UInt64) : Prop := ∃ u, boot.ofMonotonic t = .ok u

theorem datable_iff (boot : WallTime) (t : UInt64) : (boot.ofMonotonic t).isOk = true ↔ Datable boot t := by
  rw [Datable]
  cases boot.ofMonotonic t with
  | ok u => exact ⟨fun _ => ⟨u, rfl⟩, fun _ => rfl⟩
  | error e => exact ⟨fun h => (by cases h), fun ⟨_, h⟩ => (by cases h)⟩

instance (boot : WallTime) (t : UInt64) : Decidable (Datable boot t) := decidable_of_iff _ (datable_iff boot t)

/-- The flow that a notice shows. -/
def Notice.flow? : Notice → Option (Flow.Id × Flow.Metrics)
  | .exported r => some (r.id, r.metrics)
  | _ => none

/-- All that was exported, in the order in which it was told. -/
def exportedFlows (notices : List Notice) : Flow.Snapshot := notices.filterMap Notice.flow?

theorem exportedFlows_append (s t : List Notice) : exportedFlows (s ++ t) = exportedFlows s ++ exportedFlows t :=
  List.filterMap_append ..

theorem exportedFlows_reports : ∀ reports : List Export.Report,
    exportedFlows (reports.map .exported) = reports.map fun r => (r.id, r.metrics)
  | [] => rfl
  | _ :: rest => congrArg (_ :: ·) (exportedFlows_reports rest)

namespace Flow.Metrics

/-- The first and the last packet have their times on the wall clock. -/
def Datable (boot : WallTime) (m : Metrics) : Prop := FlowMeter.Datable boot m.start ∧ FlowMeter.Datable boot m.stop

variable {boot : WallTime}

theorem Datable.merge {m n : Metrics} (hm : m.Datable boot) (hn : n.Datable boot) : (m.merge n).Datable boot := by
  constructor
  · show FlowMeter.Datable boot (earlier m.start n.start)
    rcases earlier_eq_or m.start n.start with h | h <;> rw [h]
    exacts [hm.1, hn.1]
  · show FlowMeter.Datable boot (max m.stop n.stop)
    rcases max_eq_or m.stop n.stop with h | h <;> rw [h]
    exacts [hm.2, hn.2]

theorem mergeable_datable (boot : WallTime) : Mergeable fun _ m => m.Datable boot := fun _ _ _ => .merge

theorem Datable.add {m : Metrics} {o : Observation} (hm : m.Datable boot) (ho : FlowMeter.Datable boot o.time) :
    (m.add o).Datable boot := by
  refine ⟨?_, ho⟩
  simp only [Metrics.add]
  split
  · exact ho
  · exact hm.1

theorem datable_ofFirst {o : Observation} (ho : FlowMeter.Datable boot o.time) : (ofFirst o).Datable boot := ⟨ho, ho⟩

end Flow.Metrics

/-- A record as an entry of a partial view. -/
def Flow.Record.entry (r : Flow.Record) : Flow.Id × Flow.Metrics := (r.id, r.metrics)

theorem Flow.weigh_records_cons {M : Type} [AddCommMonoid M] (w : Flow.Metrics → M) (id : Flow.Id) (r : Flow.Record)
    (records : List Flow.Record) :
    Flow.weigh w id ((r :: records).map Flow.Record.entry) =
      (if r.id = id then w r.metrics else 0) + Flow.weigh w id (records.map Flow.Record.entry) :=
  Flow.weigh_cons ..

/-- Every entry has its times on the wall clock. -/
def Flow.AllDatable (boot : WallTime) (s : Flow.Snapshot) : Prop := ∀ e ∈ s, e.2.Datable boot

theorem Flow.AllDatable.append {boot : WallTime} {s t : Flow.Snapshot} (hs : Flow.AllDatable boot s)
    (ht : Flow.AllDatable boot t) : Flow.AllDatable boot (s ++ t) := fun e he =>
  (List.mem_append.1 he).elim (hs e) (ht e)

open FlowMeter.Flow (weigh Additive AllDatable)

namespace Export

variable {M : Type} [AddCommMonoid M] {w : Flow.Metrics → M}

theorem Report.ofFlow_datable {boot : WallTime} {m : Flow.Metrics} (hm : m.Datable boot) (interface : String)
    (id : Flow.Id) : ∃ r, Report.ofFlow boot interface id m = .ok r ∧ (r.id, r.metrics) = (id, m) := by
  obtain ⟨⟨start, hstart⟩, ⟨stop, hstop⟩⟩ := hm
  refine ⟨{ id, metrics := m, interface, start, stop }, ?_, rfl⟩
  rw [Report.ofFlow, hstart, hstop]
  rfl

theorem mapM_ofFlow (place : Place) : ∀ (s : Flow.Snapshot), AllDatable place.boot s →
    ∃ reports, (s.mapM fun (id, m) => Report.ofFlow place.boot (place.name id.interface) id m) = .ok reports ∧
      reports.map (fun r => (r.id, r.metrics)) = s
  | [], _ => ⟨[], rfl, rfl⟩
  | (id, m) :: s, h => by
    obtain ⟨r, hr, hid⟩ := Report.ofFlow_datable (h _ List.mem_cons_self) (place.name id.interface) id
    obtain ⟨reports, hreports, hs⟩ := mapM_ofFlow place s fun e he => h e (List.mem_cons_of_mem _ he)
    refine ⟨r :: reports, ?_, ?_⟩
    · rw [List.mapM_cons, hreports]
      show (Report.ofFlow place.boot (place.name id.interface) id m >>= _) = _
      rw [hr]
      rfl
    · rw [List.map_cons, hid, hs]

namespace Backlog

theorem weigh_add (hw : Additive w) (id : Flow.Id) (b : Backlog) (r : Flow.Record) :
    weigh w id (b.add r).flows.entries = weigh w id b.flows.entries + if r.id = id then w r.metrics else 0 :=
  Flow.Merged.weigh_add hw ..

theorem weigh_combined (hw : Additive w) (id : Flow.Id) (b : Backlog) (snapshot : Flow.Merged) :
    weigh w id (b.combined snapshot).entries = weigh w id snapshot.entries + weigh w id b.flows.entries := by
  rw [combined, Flow.Merged.weigh_ofShards hw]
  simp

theorem evict_eq_ok {b : Backlog} {place : Place} {snapshot : Flow.Merged}
    (h : AllDatable place.boot (b.combined snapshot).entries) :
    ∃ reports, b.evict place snapshot = .ok (b.emptied, reports) ∧
      reports.map (fun r => (r.id, r.metrics)) = (b.combined snapshot).entries := by
  obtain ⟨reports, hreports, hmap⟩ := mapM_ofFlow place _ h
  exact ⟨reports, by rw [evict, Backlog.reports, hreports]; rfl, hmap⟩

theorem evict_datable (b : Backlog) (place : Place) (snapshot : Flow.Merged)
    (hb : AllDatable place.boot b.flows.entries) (hs : AllDatable place.boot snapshot.entries) :
    ∃ reports, b.evict place snapshot = .ok (b.emptied, reports) ∧
      reports.map (fun r => (r.id, r.metrics)) = (b.combined snapshot).entries := by
  refine evict_eq_ok (Flow.Merged.forall_ofShards (Flow.Metrics.mergeable_datable place.boot) ?_)
  rw [List.flatten_cons, List.flatten_cons, List.flatten_nil, List.append_nil]
  exact hs.append hb

end Backlog

theorem Exporter.release_plain (backlog : Backlog) (now : Instant) (reports : List Report) :
    Exporter.release { backlog, dedup := none } now reports =
      ⟨reports.map .exported, .ok ({ backlog, dedup := none }, reports)⟩ := by
  show Logged.mk ([] ++ (reports.map .exported ++ [])) _ = _
  rw [List.nil_append, List.append_nil]
  rfl

end Export

namespace Agent.Outlet

open Export (Backlog Exporter)

/-- What has not been exported yet. -/
def held (o : Outlet) : Flow.Snapshot := o.exporter.backlog.flows.entries

/-- No deduper is in the way, and all that the outlet holds can be dated. -/
structure Plain (boot : WallTime) (o : Outlet) : Prop where
  dedup : o.exporter.dedup = none
  place : o.place.boot = boot
  datable : AllDatable boot o.held

variable {boot : WallTime} {o : Outlet} {M : Type} [AddCommMonoid M] {w : Flow.Metrics → M}

/-- **An eviction exports all that the shards and the backlog hold.** -/
theorem evict_balance (ho : o.Plain boot) (hw : Additive w) (now : UInt64) {shards : List Flow.Snapshot}
    (hs : AllDatable boot shards.flatten) :
    ∃ notices o', o.evict now shards = ⟨notices, .ok o'⟩ ∧ o'.Plain boot ∧ o'.held = [] ∧
      ∀ id, weigh w id (exportedFlows notices) = weigh w id shards.flatten + weigh w id o.held := by
  obtain ⟨⟨backlog, _⟩, place⟩ := o
  obtain ⟨rfl, rfl, hh⟩ := ho
  have hm : AllDatable place.boot (Flow.Merged.ofShards shards).entries :=
    Flow.Merged.forall_ofShards (Flow.Metrics.mergeable_datable place.boot) hs
  obtain ⟨reports, hevict, hreports⟩ := backlog.evict_datable place _ hh hm
  refine ⟨reports.map .exported, ⟨⟨backlog.emptied, none⟩, place⟩, ?_, ⟨rfl, rfl, fun e he => by cases he⟩, rfl,
    fun id => ?_⟩
  · rw [evict, Exporter.evict, hevict]
    simp only [Logged.ofExcept, Logged.ok_bind, Exporter.release_plain, Logged.mapError_ok, List.nil_append, pure,
      Logged.succeed, List.append_nil]
  · rw [exportedFlows_reports, hreports, Backlog.weigh_combined hw, Flow.Merged.weigh_ofShards hw]
    rfl

/-- **A record that is accounted is exported, or waits in the backlog.** -/
theorem account_balance (ho : o.Plain boot) (hw : Additive w) (now : UInt64) {r : Flow.Record}
    (hr : r.metrics.Datable boot) :
    ∃ notices o', o.account now r = ⟨notices, .ok o'⟩ ∧ o'.Plain boot ∧
      ∀ id, weigh w id (exportedFlows notices) + weigh w id o'.held =
        weigh w id o.held + if r.id = id then w r.metrics else 0 := by
  obtain ⟨⟨backlog, _⟩, place⟩ := o
  obtain ⟨rfl, rfl, hh⟩ := ho
  have hadd : AllDatable place.boot (backlog.add r).flows.entries :=
    Flow.Merged.forall_add (Flow.Metrics.mergeable_datable place.boot) hh r.id hr
  have hweigh := fun id => Backlog.weigh_add hw id backlog r
  by_cases hfull : (backlog.add r).full
  · obtain ⟨reports, hevict, hreports⟩ := (backlog.add r).evict_datable place ∅ hadd fun e he => by cases he
    refine ⟨.backlogFull (backlog.add r).size :: reports.map .exported, ⟨⟨(backlog.add r).emptied, none⟩, place⟩, ?_,
      ⟨rfl, rfl, fun e he => by cases he⟩, fun id => ?_⟩
    · rw [account, Exporter.account, Backlog.account]
      simp only [hfull, if_true, hevict, Logged.ofExcept, Logged.tell, Logged.ok_bind, pure, Logged.succeed,
        Exporter.release_plain, Logged.mapError_ok, List.append_nil, List.singleton_append]
    · refine Eq.trans ?_ (hweigh id)
      show weigh w id (exportedFlows (reports.map .exported)) + 0 = _
      rw [exportedFlows_reports, hreports, Backlog.weigh_combined hw, add_zero]
      exact zero_add _
  · refine ⟨[], ⟨⟨backlog.add r, none⟩, place⟩, ?_, ⟨rfl, rfl, hadd⟩, fun id => ?_⟩
    · rw [account, Exporter.account, Backlog.account]
      simp only [hfull, Bool.false_eq_true, if_false, pure, Logged.succeed, Logged.ok_bind, Logged.mapError_ok,
        List.nil_append]
    · exact (zero_add _).trans (hweigh id)

theorem accountAll_balance (hw : Additive w) (now : UInt64) : ∀ (records : List Flow.Record) {o : Outlet}, o.Plain boot →
    (∀ r ∈ records, r.metrics.Datable boot) →
    ∃ notices o', o.accountAll now records = ⟨notices, .ok o'⟩ ∧ o'.Plain boot ∧
      ∀ id, weigh w id (exportedFlows notices) + weigh w id o'.held =
        weigh w id o.held + weigh w id (records.map Flow.Record.entry)
  | [], o, ho, _ => ⟨[], o, rfl, ho, fun id => by simp [exportedFlows]⟩
  | r :: rest, o, ho, hr => by
    obtain ⟨ns, o', haccount, ho', hbalance⟩ := account_balance ho hw now (hr r List.mem_cons_self)
    obtain ⟨ns', o'', hrest, ho'', hbalance'⟩ :=
      accountAll_balance hw now rest ho' fun r hr' => hr r (List.mem_cons_of_mem _ hr')
    refine ⟨ns ++ ns', o'', by rw [accountAll, haccount, Logged.ok_bind, hrest], ho'', fun id => ?_⟩
    rw [exportedFlows_append, Flow.weigh_append, add_assoc, hbalance', Flow.weigh_records_cons, ← add_assoc, hbalance id,
      add_assoc]

end Agent.Outlet

theorem Agent.Run.plain_outlet {s : Settings} (hs : s.dedup = .off) (x : Surroundings) :
    (outlet s x).Plain (outlet s x).place.boot where
  dedup := by simp only [outlet, Export.Exporter.ofSettings, hs]
  place := rfl
  datable e he := by cases he

end FlowMeter
