import FlowMeter.Proofs.Parcels
import FlowMeter.Proofs.SpilledRecords
/-!
# Which exported flows have an error number

Metrics that were kept in a shard have no error number, and overflow records have one.  So an exported flow has one just if a
record of it went into its parcel, and then the number of one of those (`MeterRun.errno_marks_overflow`).
-/
namespace FlowMeter

namespace Export

namespace IntakeStep

/-- Records have error numbers, and what was kept in a shard has none. -/
def Marked : IntakeStep → Prop
  | record r => r.metrics.errno ≠ 0
  | views shards => ∀ e ∈ shards.flatten, e.2.errno = 0

instance : ∀ s : IntakeStep, Decidable s.Marked
  | record r => inferInstanceAs (Decidable (r.metrics.errno ≠ 0))
  | views shards => inferInstanceAs (Decidable (∀ e ∈ shards.flatten, e.2.errno = 0))

end IntakeStep

namespace Intake

/-- **A flow of a parcel is marked by its records, and by nothing else.** -/
theorem errno_of_exact {parcel : Parcel} {report : Report} (hexact : parcel.Exact) (hreport : report ∈ parcel.reports)
    (hviews : ∀ e ∈ parcel.views.flatten, e.2.errno = 0) (hrecords : ∀ r ∈ parcel.records, r.metrics.errno ≠ 0) :
    (report.metrics.errno ≠ 0 ↔ ∃ r ∈ parcel.records, r.id = report.id) ∧
      (report.metrics.errno ≠ 0 → ∃ r ∈ parcel.records, r.id = report.id ∧ r.metrics.errno = report.metrics.errno) := by
  have hmetrics := hexact.metrics report hreport
  -- a part that has an error number is a record
  have hrecord : ∀ e ∈ parcel.parts, e.2.errno ≠ 0 → ∃ r ∈ parcel.records, r.entry = e := by
    intro e he hne
    rcases List.mem_append.1 he with hview | hrecord
    · exact absurd (hviews e hview) hne
    · exact List.mem_map.1 hrecord
  have hmarked : report.metrics.errno ≠ 0 →
      ∃ r ∈ parcel.records, r.id = report.id ∧ r.metrics.errno = report.metrics.errno := by
    intro hne
    rcases Flow.errno_together_cases report.id parcel.parts with ⟨hzero, -⟩ | ⟨-, e, he, hid, hmark⟩
    · exact absurd (hmetrics ▸ hzero) hne
    · rw [← hmetrics] at hmark
      obtain ⟨r, hr, rfl⟩ := hrecord e he (hmark ▸ hne)
      exact ⟨r, hr, hid, hmark⟩
  refine ⟨⟨fun hne => ?_, ?_⟩, hmarked⟩
  · obtain ⟨r, hr, hid, -⟩ := hmarked hne
    exact ⟨r, hr, hid⟩
  · rintro ⟨r, hr, hid⟩ hzero
    have hpart : r.entry ∈ parcel.parts := List.mem_append_right _ (List.mem_map_of_mem hr)
    rcases Flow.errno_together_cases report.id parcel.parts with ⟨-, hall⟩ | ⟨hne, -⟩
    · exact hrecords r hr (hall r.entry hpart hid)
    · exact hne (hmetrics ▸ hzero)

end Intake
end Export

open Export (Intake IntakeStep Parcel)

/-- **Error numbers mark the flows that went through overflow, and only those.**  In a run whose refusals have positive error
numbers, no metrics that a meter keeps or gives up have one, and every record that left is that of a packet whose write was
refused, with the number of the refusal or 255 if that is less.  Of a backlog that is given such records and views, each parcel
shows just the flows that went into it, and a flow has an error number just if a record of it went in, namely that of one. -/
theorem MeterRun.errno_marks_overflow (settings : MeterSettings) (draws : List UInt32) (slots : Nat) (steps : List MeterStep)
    (hsteps : ∀ s ∈ steps, ∀ r ∈ s.refusal?, 0 < r.errno) :
    let start : MeterRun := { meter := .ofSettings settings draws, queue := .ofSlots slots }
    let t := start.follow steps
    (∀ e ∈ t.evicted ++ t.meter.shard.snapshot, e.2.errno = 0) ∧
    (∀ record ∈ t.drained ++ t.queue.records, record.metrics.errno ≠ 0 ∧ Stems start steps record) ∧
    ∀ (limit : Nat) (place : Export.Place) (intake : List IntakeStep), (∀ s ∈ intake, s.Marked) →
      ∀ u, (({ backlog := { limit } } : Intake).follow place intake).outcome = .ok u →
        u.parcels.flatMap Parcel.records ++ u.waiting = intake.filterMap IntakeStep.record? ∧
        ∀ parcel ∈ u.parcels, parcel.Exact ∧ ∀ report ∈ parcel.reports,
          (report.metrics.errno ≠ 0 ↔ ∃ r ∈ parcel.records, r.id = report.id) ∧
          (report.metrics.errno ≠ 0 → ∃ r ∈ parcel.records, r.id = report.id ∧ r.metrics.errno = report.metrics.errno) := by
  intro start t
  have hclean : Clean start steps t := by
    refine Clean.follow ⟨fun e he => ?_, fun record hmem => ?_⟩ steps hsteps
    · cases he
    · cases hmem
  refine ⟨hclean.kept, fun record hmem => ⟨(hclean.stems record hmem).errno_ne_zero, hclean.stems record hmem⟩,
    fun limit place intake hintake u hfollow => ?_⟩
  have hsound : Intake.Sound intake u := (Intake.Sound.start limit).follow intake hfollow
  refine ⟨hsound.records, fun parcel hparcel => ⟨hsound.exact parcel hparcel, fun report hreport => ?_⟩⟩
  refine Intake.errno_of_exact (hsound.exact parcel hparcel) hreport ?_ ?_
  · rcases hsound.views parcel hparcel with hnone | hgiven
    · rw [hnone]
      intro e he
      cases he
    · obtain ⟨s, hs, hviews⟩ := List.mem_filterMap.1 hgiven
      cases s with
      | record r => cases hviews
      | views shards =>
        cases hviews
        exact hintake _ hs
  · intro r hr
    have hmem : r ∈ intake.filterMap IntakeStep.record? := by
      rw [← hsound.records]
      exact List.mem_append_left _ (List.mem_flatMap.2 ⟨parcel, hparcel, hr⟩)
    obtain ⟨s, hs, hrecord⟩ := List.mem_filterMap.1 hmem
    cases s with
    | record r' =>
      cases hrecord
      exact hintake _ hs
    | views shards => cases hrecord

/-- A shard with room for one flow refuses the next packet with the error number 300, and one of a third flow because it is full.
The two records and the evicted flow are exported together, and a second packet of the first flow without records. -/
theorem MeterRun.errno_marks_overflow_two_refusals :
    let p (octet : UInt8) : Packet :=
      { frame := List.replicate 14 octet, length := 60, interface := 1, direction := .ingress }
    let steps : List MeterStep :=
      [.process { now := 5 } none (p 6), .process { now := 6 } (some ⟨300⟩) (p 7), .process { now := 7 } none (p 8), .evict]
    let start : MeterRun := { meter := .ofSettings { capacity := 1 } [], queue := .ofSlots 4 }
    let t := start.follow steps
    let intake : List IntakeStep := t.queue.records.map .record ++ [.views [t.evicted], .views [t.evicted]]
    (∀ s ∈ steps, ∀ r ∈ s.refusal?, 0 < r.errno) ∧
      (∀ e ∈ t.evicted, e.2.errno = 0) ∧ t.queue.records.map (fun r => r.metrics.errno) = [255, 7] ∧
      (∀ record ∈ t.queue.records, Stems start steps record) ∧ (∀ s ∈ intake, s.Marked) ∧
      ∃ u, (({ backlog := { limit := 9 } } : Intake).follow { name := toString, boot := .epoch } intake).outcome = .ok u ∧
        u.parcels.map (fun b => b.reports.map fun r => r.metrics.errno) = [[0, 255, 7], [0]] ∧
        ∀ parcel ∈ u.parcels, ∀ report ∈ parcel.reports,
          (report.metrics.errno ≠ 0 ↔ ∃ r ∈ parcel.records, r.id = report.id) := by
  intro p steps start t intake
  have hsteps : ∀ s ∈ steps, ∀ r ∈ s.refusal?, 0 < r.errno := by decide +kernel
  obtain ⟨hkept, hrecords, hmarks⟩ := errno_marks_overflow { capacity := 1 } [] 4 steps hsteps
  have hintake : ∀ s ∈ intake, s.Marked := by decide +kernel
  have hshown : (({ backlog := { limit := 9 } } : Intake).follow { name := toString, boot := .epoch } intake).outcome.toOption.map
      (fun u => u.parcels.map fun b => b.reports.map fun r => r.metrics.errno) = some [[0, 255, 7], [0]] := by
    decide +kernel
  refine ⟨hsteps, fun e he => hkept e (List.mem_append_left _ he), by decide +kernel,
    fun record hr => (hrecords record (List.mem_append_right _ hr)).2, hintake, ?_⟩
  cases hu : (({ backlog := { limit := 9 } } : Intake).follow { name := toString, boot := .epoch } intake).outcome with
  | error e =>
    rw [hu] at hshown
    cases hshown
  | ok u =>
    rw [hu] at hshown
    obtain ⟨-, hparcels⟩ := hmarks 9 { name := toString, boot := .epoch } intake hintake u hu
    exact ⟨u, rfl, Option.some.inj hshown, fun parcel hparcel report hreport => ((hparcels parcel hparcel).2 report hreport).1⟩

end FlowMeter
