import FlowMeter.Proofs.MergedParts
/-!
# What goes into a batch of exported flows

A backlog is given overflow records, and is evicted together with the partial views of the shards.  Each batch that it gives up
is told with the views and the records that went into it, a parcel; it shows just those, and every record that came in is in one
parcel or waits (`Intake.Sound`, kept by each step in `Intake.Sound.step`).
-/
namespace FlowMeter.Export

/-- A batch of exported flows with what went into it. -/
structure Parcel where
  views : List Flow.Snapshot
  records : List Flow.Record
  reports : List Report

/-- All that went in, in the order in which it is put together. -/
def Parcel.parts (parcel : Parcel) : Flow.Snapshot := parcel.views.flatten ++ parcel.records.map Flow.Record.entry

/-- The parcel shows each flow that went into it once, with all that went in of it. -/
structure Parcel.Exact (parcel : Parcel) : Prop where
  once : (parcel.reports.map Report.id).Nodup
  flows : ∀ id, id ∈ parcel.reports.map Report.id ↔ id ∈ parcel.parts.map Prod.fst
  metrics : ∀ report ∈ parcel.reports, report.metrics = Flow.together report.id parcel.parts

inductive IntakeStep where
  | record (r : Flow.Record)
  /-- The partial views of the shards, which are exported with all that waits. -/
  | views (shards : List Flow.Snapshot)

namespace IntakeStep

def record? : IntakeStep → Option Flow.Record
  | record r => some r
  | views _ => none

def views? : IntakeStep → Option (List Flow.Snapshot)
  | record _ => none
  | views shards => some shards

end IntakeStep

structure Intake where
  backlog : Backlog
  /-- The records since the last parcel, oldest first. -/
  waiting : List Flow.Record := []
  /-- Oldest first. -/
  parcels : List Parcel := []

namespace Intake

def step (place : Place) (t : Intake) : IntakeStep → Logged TimeFault Intake
  | .record r => do
    let (backlog, reports) ← t.backlog.account place r
    match reports with
    | none => return { t with backlog, waiting := t.waiting ++ [r] }
    | some reports =>
      return { backlog, parcels := t.parcels ++ [{ views := [], records := t.waiting ++ [r], reports }] }
  | .views shards => do
    let (backlog, reports) ← Logged.ofExcept (t.backlog.evict place (Flow.Merged.ofShards shards))
    return { backlog, parcels := t.parcels ++ [{ views := shards, records := t.waiting, reports }] }

def follow (place : Place) (t : Intake) : List IntakeStep → Logged TimeFault Intake
  | [] => pure t
  | step :: rest => do (← t.step place step).follow place rest

/-- The records that have come in. -/
def records (t : Intake) : List Flow.Record := t.parcels.flatMap Parcel.records ++ t.waiting

/-- The backlog is what waits, the parcels are what went into them, and all that went in was given. -/
structure Sound (given : List IntakeStep) (t : Intake) : Prop where
  flows : ∀ id, id ∈ t.backlog.flows.keys ↔ id ∈ (t.waiting.map Flow.Record.entry).map Prod.fst
  holds : ∀ id, t.backlog.flows.entry id = Flow.together id (t.waiting.map Flow.Record.entry)
  exact : ∀ parcel ∈ t.parcels, parcel.Exact
  records : t.records = given.filterMap IntakeStep.record?
  views : ∀ parcel ∈ t.parcels, parcel.views = [] ∨ parcel.views ∈ given.filterMap IntakeStep.views?

variable {place : Place} {given : List IntakeStep} {t : Intake}

/-- A parcel that is just what the views and the waiting records make together. -/
theorem exact_of_combined {b : Backlog} {snapshot : Flow.Merged} {parcel : Parcel}
    (hreports : parcel.reports.map (fun r => (r.id, r.metrics)) = (b.combined snapshot).entries)
    (hkeys : ∀ id, id ∈ snapshot.keys ↔ id ∈ parcel.views.flatten.map Prod.fst)
    (hentry : ∀ id, snapshot.entry id = Flow.together id parcel.views.flatten)
    (hflows : ∀ id, id ∈ b.flows.keys ↔ id ∈ (parcel.records.map Flow.Record.entry).map Prod.fst)
    (hholds : ∀ id, b.flows.entry id = Flow.together id (parcel.records.map Flow.Record.entry)) : parcel.Exact := by
  obtain ⟨honce, hids⟩ := Backlog.once_of_combined hreports
  refine ⟨honce, fun id => ?_, fun report hreport => ?_⟩
  · unfold Parcel.parts
    rw [hids, List.map_append, List.mem_append, hkeys, hflows]
    exact or_comm
  · have hmem : (report.id, report.metrics) ∈ (b.combined snapshot).entries := by
      rw [← hreports]
      exact List.mem_map_of_mem (f := fun r : Report => (r.id, r.metrics)) hreport
    unfold Parcel.parts
    rw [← Flow.Merged.entry_of_mem hmem, Backlog.entry_combined, hentry, hholds, Flow.together_append]

namespace Sound

theorem start (limit : Nat) : Sound [] { backlog := { limit } } where
  flows _ := Iff.rfl
  holds _ := rfl
  exact parcel h := by cases h
  records := rfl
  views parcel h := by cases h

theorem add (h : Sound given t) (r : Flow.Record) :
    (∀ id, id ∈ (t.backlog.add r).flows.keys ↔ id ∈ ((t.waiting ++ [r]).map Flow.Record.entry).map Prod.fst) ∧
      ∀ id, (t.backlog.add r).flows.entry id = Flow.together id ((t.waiting ++ [r]).map Flow.Record.entry) := by
  constructor
  · intro id
    rw [List.map_append, List.map_append, List.mem_append, ← h.flows]
    refine (Flow.Merged.mem_keys_add t.backlog.flows r.id r.metrics id).trans (or_congr_right ?_)
    exact List.mem_singleton.symm
  · intro id
    rw [Backlog.entry_add, h.holds, ← Flow.together_append, List.map_append]
    rfl

/-- **One parcel more, made of all that waited and perhaps of views.** -/
theorem give (h : Sound given t) {s : IntakeStep} {backlog : Backlog} {parcel : Parcel}
    (hempty : backlog.flows = ∅) (hexact : parcel.Exact) (hrecords : parcel.records = t.waiting ++ s.record?.toList)
    (hviews : parcel.views = [] ∨ s.views? = some parcel.views) :
    Sound (given ++ [s]) { backlog, parcels := t.parcels ++ [parcel] } where
  flows id := by
    show id ∈ Table.keys backlog.flows ↔ _
    rw [hempty]
    exact Iff.rfl
  holds id := by
    show Flow.Merged.entry backlog.flows id = _
    rw [hempty]
    rfl
  exact parcel' hmem := by
    rcases List.mem_append.1 hmem with hold | hnew
    · exact h.exact parcel' hold
    · obtain rfl := List.mem_singleton.1 hnew
      exact hexact
  records := by
    have hbefore := h.records
    unfold Intake.records at hbefore ⊢
    rw [List.filterMap_append, ← hbefore, List.flatMap_append, List.flatMap_singleton, hrecords, List.append_nil,
      ← List.append_assoc]
    cases s <;> rfl
  views parcel' hmem := by
    rw [List.filterMap_append]
    rcases List.mem_append.1 hmem with hold | hnew
    · exact (h.views parcel' hold).imp_right (List.mem_append_left _)
    · obtain rfl := List.mem_singleton.1 hnew
      refine hviews.imp_right fun hs => List.mem_append_right _ ?_
      rw [List.filterMap_cons_some hs]
      exact List.mem_cons_self

theorem step (h : Sound given t) {s : IntakeStep} {t' : Intake} (hstep : (t.step place s).outcome = .ok t') :
    Sound (given ++ [s]) t' := by
  cases s with
  | record r =>
    obtain ⟨hflows, hholds⟩ := h.add r
    obtain ⟨⟨backlog, reports⟩, haccount, hrest⟩ := Logged.andThen_eq_ok_iff.1 hstep
    rcases Backlog.eq_of_account haccount with ⟨rfl, rfl⟩ | ⟨reports, rfl, rfl, hreports, -⟩
    · cases hrest
      refine ⟨hflows, hholds, h.exact, ?_, fun parcel hmem => ?_⟩
      · have hbefore := h.records
        unfold Intake.records at hbefore ⊢
        rw [List.filterMap_append, ← hbefore, List.append_assoc]
        rfl
      · rw [List.filterMap_append]
        exact (h.views parcel hmem).imp_right (List.mem_append_left _)
    · cases hrest
      refine h.give rfl ?_ rfl (.inl rfl)
      exact exact_of_combined hreports (fun id => Iff.rfl) (fun id => rfl) hflows hholds
  | views shards =>
    obtain ⟨⟨backlog, reports⟩, hevict, hrest⟩ := Logged.andThen_eq_ok_iff.1 hstep
    obtain ⟨rfl, hreports, -⟩ := Backlog.eq_of_evict hevict
    cases hrest
    refine h.give rfl ?_ (List.append_nil _).symm (.inr rfl)
    exact exact_of_combined hreports (fun id => Flow.Merged.mem_keys_ofShards id shards)
      (Flow.Merged.entry_ofShards shards) h.flows h.holds

theorem follow : ∀ (steps : List IntakeStep) {given : List IntakeStep} {t t' : Intake}, Sound given t →
    (t.follow place steps).outcome = .ok t' → Sound (given ++ steps) t'
  | [], given, t, _, h, hfollow => by
    cases hfollow
    rwa [List.append_nil]
  | s :: steps, given, t, t', h, hfollow => by
    obtain ⟨t₁, hstep, hrest⟩ := Logged.andThen_eq_ok_iff.1 hfollow
    have hall := follow steps (h.step hstep) hrest
    rwa [List.append_assoc, List.singleton_append] at hall

end Sound

end Intake
end FlowMeter.Export
