import FlowMeter.Proofs.Ownership
import FlowMeter.Proofs.TimeFaults
/-!
# Runs of the deduper side by side

The owners that a batch leaves behind are those of its first reports, flow by flow (`Dedup.get?_noted`), and they decide about all
of its reports (`Dedup.round_eq`).  So a run does not depend on what becomes of the duplicates (`Dedup.marking_eq_dropping`), nor
what it says of some flows on the reports of the others (`Dedup.flows_independent`).
-/
namespace FlowMeter.Export

def Report.unmarked (r : Report) : Report := { r with duplicate := false }

/-- The reports of some flows. -/
def Batch.only (keys : Flow.Id → Bool) (b : Batch) : Batch := (b.1, b.2.filter fun r => keys (Dedup.key r.id))

namespace Dedup

/-- The owners after reports that come together, all to be remembered until the same instant. -/
def noted (expires : Instant) (owners : Table Flow.Id Owner) (reports : List Report) : Table Flow.Id Owner :=
  reports.foldl (fun owners r => owners.upsert (key r.id) (renewed r.id expires)) owners

/-- The deduper after a batch that it can answer. -/
def heard (d : Dedup) (b : Batch) : Dedup :=
  { d with owners := noted ⟨b.1.nanos + d.expiry.toNanos⟩ (d.sweep b.1).owners b.2 }

/-- What is left of reports, judged by the owners that there are afterwards. -/
def judged (d : Dedup) (reports : List Report) : List Report := reports.filterMap fun r => d.keep? r (d.isDuplicate r.id)

/-- The deduper after a batch, and what is left of the batch.  A batch that cannot be answered has still made the deduper forget
the expired owners. -/
def round (d : Dedup) (b : Batch) : Dedup × Except TimeFault (List Report) :=
  match d.pass b.1 b.2 with
  | .ok (d', kept) => (d', .ok kept)
  | .error e => (d.sweep b.1, .error e)

/-- The deduper after batches, whether or not each of them could be answered. -/
def run (d : Dedup) (batches : List Batch) : Dedup := batches.foldl (fun d b => (d.round b).1) d

def withMark (d : Dedup) (mark : Bool) : Dedup := { d with mark }

/-- Owners of flows that are seen at the time can be remembered for as long as they are to be. -/
def InTime (d : Dedup) (now : Instant) : Prop := ∃ expires, now.later d.expiry = .ok expires

/-- **After a batch, whoever owned a flow that it shows still does, for longer, and else the first to show it does.** -/
theorem get?_noted (expires : Instant) (k : Flow.Id) : ∀ (reports : List Report) (owners : Table Flow.Id Owner),
    (noted expires owners reports).get? k =
      match reports.find? fun r => key r.id = k with
      | some r => some (renewed r.id expires (owners.get? k))
      | none => owners.get? k
  | [], _ => rfl
  | r :: rest, owners => by
    have hrest := get?_noted expires k rest (owners.upsert (key r.id) (renewed r.id expires))
    rw [Table.get?_upsert] at hrest
    by_cases hr : key r.id = k
    · rw [List.find?_cons_of_pos (by simpa using hr)]
      rw [if_pos hr.symm, hr] at hrest
      -- once the flow has an owner, the other reports of the batch only renew it
      show (noted expires (owners.upsert (key r.id) (renewed r.id expires)) rest).get? k = some (renewed r.id expires (owners.get? k))
      rw [hr, hrest]
      cases rest.find? fun r => key r.id = k with
      | none => rfl
      | some s => cases owners.get? k <;> rfl
    · rw [List.find?_cons_of_neg (by simpa using hr)]
      rw [if_neg (Ne.symm hr)] at hrest
      exact hrest

section

variable {d : Dedup} {now : Instant}

theorem InTime.later_eq (h : d.InTime now) : now.later d.expiry = .ok ⟨now.nanos + d.expiry.toNanos⟩ := by
  obtain ⟨expires, h⟩ := h
  rw [h, eq_of_later h]

theorem later_eq_of_not_inTime (h : ¬ d.InTime now) : now.later d.expiry = .error .instant := by
  cases hlater : now.later d.expiry with
  | ok expires => exact absurd ⟨expires, hlater⟩ h
  | error e =>
    rw [Instant.later_eq] at hlater
    split at hlater
    · cases hlater
    · exact hlater.symm

theorem exists_passAll {expires : Instant} (h : now.later d.expiry = .ok expires) (reports : List Report) :
    ∃ kept, passAll now d reports = .ok ({ d with owners := noted expires d.owners reports }, kept) := by
  induction reports generalizing d with
  | nil => exact ⟨[], rfl⟩
  | cons r rest ih =>
    have hsee : d.see now r.id = .ok { d with owners := d.owners.upsert (key r.id) (renewed r.id expires) } := by
      rw [see, h]
      rfl
    obtain ⟨kept, hrest⟩ := ih (d := { d with owners := d.owners.upsert (key r.id) (renewed r.id expires) }) h
    rw [passAll, hsee]
    show ∃ kept, (passAll now _ rest >>= _) = _
    rw [hrest]
    exact ⟨_, rfl⟩

/-- **A batch is judged by the owners that it leaves behind.** -/
theorem pass_eq {b : Batch} (h : b.2 = [] ∨ d.InTime b.1) : d.pass b.1 b.2 = .ok (d.heard b, (d.heard b).judged b.2) := by
  obtain ⟨kept, hpass⟩ : ∃ kept, d.pass b.1 b.2 = .ok (d.heard b, kept) := by
    rcases h with h | h
    · refine ⟨[], ?_⟩
      unfold heard
      rw [h]
      rfl
    · exact exists_passAll (d := d.sweep b.1) h.later_eq b.2
  have hkept : kept = (d.heard b).judged b.2 := (kept_of_passAll b.2 hpass).2.2
  rw [hpass, hkept]

theorem round_eq {b : Batch} (h : b.2 = [] ∨ d.InTime b.1) : d.round b = (d.heard b, .ok ((d.heard b).judged b.2)) := by
  unfold round
  rw [pass_eq h]

theorem round_late {b : Batch} (hne : b.2 ≠ []) (h : ¬ d.InTime b.1) : d.round b = (d.sweep b.1, .error .instant) := by
  obtain ⟨r, rest, hreports⟩ := List.exists_cons_of_ne_nil hne
  have hpass : d.pass b.1 b.2 = .error .instant := by
    rw [hreports]
    exact passAll_eq_error (d := d.sweep b.1) (later_eq_of_not_inTime h) r rest
  unfold round
  rw [hpass]

theorem expiry_round (d : Dedup) (b : Batch) : (d.round b).1.expiry = d.expiry := by
  by_cases h : b.2 = [] ∨ d.InTime b.1
  · rw [round_eq h]
    rfl
  · rw [not_or] at h
    rw [round_late h.1 h.2]
    rfl

theorem expiry_run (batches : List Batch) : ∀ d : Dedup, (d.run batches).expiry = d.expiry := by
  induction batches with
  | nil => exact fun _ => rfl
  | cons b rest ih => exact fun d => (ih (d.round b).1).trans (d.expiry_round b)

end

/-! What becomes of duplicates -/

/-- **What is done with duplicates makes no difference to the owners.** -/
theorem round_withMark (d : Dedup) (mark : Bool) (b : Batch) : ((d.withMark mark).round b).1 = (d.round b).1.withMark mark := by
  by_cases h : b.2 = [] ∨ d.InTime b.1
  · rw [round_eq h, round_eq (d := d.withMark mark) h]
    rfl
  · rw [not_or] at h
    rw [round_late h.1 h.2, round_late (d := d.withMark mark) h.1 h.2]
    rfl

theorem run_withMark (mark : Bool) (batches : List Batch) :
    ∀ d : Dedup, (d.withMark mark).run batches = (d.run batches).withMark mark := by
  induction batches with
  | nil => exact fun _ => rfl
  | cons b rest ih =>
    intro d
    show ((d.withMark mark).round b).1.run rest = ((d.round b).1.run rest).withMark mark
    rw [round_withMark, ih]

theorem judged_marking {d : Dedup} (hmark : d.mark = true) {reports : List Report} (hfresh : ∀ r ∈ reports, r.duplicate = false) :
    d.judged reports = reports.map fun r => { r with duplicate := d.isDuplicate r.id } := by
  unfold judged
  rw [← List.filterMap_eq_map]
  refine List.filterMap_congr fun r hr => ?_
  show d.keep? r (d.isDuplicate r.id) = some { r with duplicate := d.isDuplicate r.id }
  unfold keep?
  rw [hmark]
  cases d.isDuplicate r.id with
  | true => rfl
  | false =>
    show some r = some { r with duplicate := false }
    rw [← hfresh r hr]

theorem judged_dropping {d : Dedup} (hmark : d.mark = false) (reports : List Report) :
    d.judged reports = reports.filter fun r => !d.isDuplicate r.id := by
  unfold judged
  rw [← List.filterMap_eq_filter]
  refine List.filterMap_congr fun r _ => ?_
  show d.keep? r (d.isDuplicate r.id) = if !d.isDuplicate r.id then some r else none
  unfold keep?
  rw [hmark]
  cases d.isDuplicate r.id <;> rfl

/-- **Marking and dropping duplicates are the same decision.**  After any run, at any times, a batch that can be answered leaves the
same owners behind in both ways.  Marked, all of its reports come out in their order and but for the marks as they arrived, and
just those have a mark whose flow another interface owns; the reports without one are what comes out if duplicates are dropped. -/
theorem marking_eq_dropping (d : Dedup) (before : List Batch) (b : Batch)
    (hfits : b.2 ≠ [] → ∃ expires, b.1.later d.expiry = .ok expires) (hfresh : ∀ r ∈ b.2, r.duplicate = false) :
    let marking := ((d.withMark true).run before).round b
    let dropping := ((d.withMark false).run before).round b
    marking.1.owners = dropping.1.owners ∧
      ∃ kept, marking.2 = .ok kept ∧ kept.map Report.unmarked = b.2 ∧
        (∀ r ∈ kept, r.duplicate = marking.1.isDuplicate r.id) ∧
        dropping.2 = .ok (kept.filter fun r => !r.duplicate) := by
  intro marking dropping
  have hb : b.2 = [] ∨ (d.run before).InTime b.1 := by
    unfold InTime
    rw [expiry_run]
    exact or_iff_not_imp_left.2 hfits
  let after := (d.run before).heard b
  have hround : ∀ mark, ((d.withMark mark).run before).round b = (after.withMark mark, .ok ((after.withMark mark).judged b.2)) := by
    intro mark
    rw [run_withMark]
    exact round_eq hb
  have hmarking : marking = _ := hround true
  have hdropping : dropping = _ := hround false
  rw [judged_marking rfl hfresh] at hmarking
  rw [judged_dropping rfl] at hdropping
  -- a report that is not a duplicate comes out as it arrived
  have hsame : ∀ r ∈ b.2, ({ r with duplicate := false } : Report) = r := fun r hr => by rw [← hfresh r hr]
  rw [hmarking, hdropping]
  refine ⟨rfl, _, rfl, ?_, ?_, congrArg Except.ok ?_⟩
  · rw [List.map_map]
    exact (List.map_congr_left hsame).trans (List.map_id b.2)
  · intro r hr
    obtain ⟨r, -, rfl⟩ := List.mem_map.1 hr
    rfl
  · rw [List.filter_map]
    refine (List.map_id _).symm.trans (List.map_congr_left fun r hr => ?_)
    obtain ⟨hr, hnot⟩ := List.mem_filter.1 hr
    have hnot : (after.withMark true).isDuplicate r.id = false := (Bool.not_eq_true' _).mp hnot
    show r = { r with duplicate := (after.withMark true).isDuplicate r.id }
    rw [hnot, hsame r hr]

/-- Time goes back between two batches, and with it the time at which the owner expires; so the next batch finds none, and the
flow goes over to the interface that reported duplicates before. -/
theorem marking_eq_dropping_back_in_time :
    let report (interface : UInt32) : Report := { (default : Report) with id := { interface } }
    let d : Dedup := { expiry := .ofNanos 10, mark := false }
    let before : List Batch := [(⟨50⟩, [report 2, report 3]), (⟨20⟩, [report 3])]
    let b : Batch := (⟨61⟩, [report 3, report 2])
    ((b.2 ≠ [] → ∃ expires, b.1.later d.expiry = .ok expires) ∧ ∀ r ∈ b.2, r.duplicate = false) ∧
      ((d.withMark true).run before).owners.get? (key (report 2).id) = some { interface := 2, expires := ⟨30⟩ } ∧
      ∃ kept, (((d.withMark true).run before).round b).2 = .ok kept ∧ kept.map Report.duplicate = [false, true] ∧
        kept.map Report.unmarked = b.2 ∧ (((d.withMark false).run before).round b).2 = .ok (kept.filter fun r => !r.duplicate) := by
  intro report d before b
  have hfits : b.2 ≠ [] → ∃ expires, b.1.later d.expiry = .ok expires := fun _ => ⟨⟨71⟩, by decide +kernel⟩
  have hfresh : ∀ r ∈ b.2, r.duplicate = false := by decide +kernel
  obtain ⟨-, kept, hkept, harrived, hmarks, hdropping⟩ := marking_eq_dropping d before b hfits hfresh
  refine ⟨⟨hfits, hfresh⟩, by decide +kernel, kept, hkept, ?_, harrived, hdropping⟩
  have hround : (((d.withMark true).run before).round b).2 = .ok [report 3, { report 2 with duplicate := true }] := by
    decide +kernel
  obtain rfl := Except.ok.inj (hkept.symm.trans hround)
  rfl

/-! What the flows of a run have to do with each other -/

theorem filter_keep? (d : Dedup) (keys : Flow.Id → Bool) (r : Report) (duplicate : Bool) :
    (d.keep? r duplicate).filter (fun s => keys (key s.id)) = if keys (key r.id) then d.keep? r duplicate else none := by
  have hid : ∀ s, d.keep? r duplicate = some s → s.id = r.id := by
    intro s hs
    unfold keep? at hs
    split at hs
    · split at hs
      · cases hs
        rfl
      · cases hs
    · cases hs
      rfl
  cases hs : d.keep? r duplicate with
  | none => simp
  | some s => simp [Option.filter, hid s hs]

/-- The dedupers know the same of some flows. -/
structure AgreeOn (keys : Flow.Id → Bool) (d d' : Dedup) : Prop where
  expiry_eq : d'.expiry = d.expiry
  mark_eq : d'.mark = d.mark
  owners_eq : ∀ k, keys k = true → d'.owners.get? k = d.owners.get? k

namespace AgreeOn

variable {keys : Flow.Id → Bool} {d d' : Dedup}

theorem refl (keys : Flow.Id → Bool) (d : Dedup) : AgreeOn keys d d := ⟨rfl, rfl, fun _ _ => rfl⟩

theorem sweep (h : AgreeOn keys d d') (now : Instant) : AgreeOn keys (d.sweep now) (d'.sweep now) where
  expiry_eq := h.expiry_eq
  mark_eq := h.mark_eq
  owners_eq k hk := by
    unfold Dedup.sweep
    rw [Table.get?_filter, Table.get?_filter, h.owners_eq k hk]

theorem heard (h : AgreeOn keys d d') (b : Batch) : AgreeOn keys (d.heard b) (d'.heard (b.only keys)) where
  expiry_eq := h.expiry_eq
  mark_eq := h.mark_eq
  owners_eq k hk := by
    -- the first report of a flow that is asked for is not taken away
    have hfirst : ((b.only keys).2.find? fun r => key r.id = k) = b.2.find? fun r => key r.id = k := by
      unfold Batch.only
      rw [List.find?_filter]
      refine congrArg (List.find? · b.2) (funext fun r => ?_)
      by_cases hr : key r.id = k
      · simp [hr, hk]
      · simp [hr]
    have hswept : (d'.sweep b.1).owners.get? k = (d.sweep b.1).owners.get? k := (h.sweep b.1).owners_eq k hk
    show (noted ⟨b.1.nanos + d'.expiry.toNanos⟩ (d'.sweep b.1).owners (b.only keys).2).get? k =
      (noted ⟨b.1.nanos + d.expiry.toNanos⟩ (d.sweep b.1).owners b.2).get? k
    rw [get?_noted, get?_noted, hfirst, hswept, h.expiry_eq]

theorem judged (h : AgreeOn keys d d') (reports : List Report) :
    d'.judged (reports.filter fun r => keys (key r.id)) = (d.judged reports).filter fun r => keys (key r.id) := by
  unfold Dedup.judged
  rw [List.filterMap_filter, List.filter_filterMap]
  refine List.filterMap_congr fun r _ => ?_
  rw [filter_keep?]
  refine ite_congr rfl (fun hr => ?_) fun _ => rfl
  unfold keep? isDuplicate
  rw [h.mark_eq, h.owners_eq _ hr]

/-- **A batch keeps the agreement, and is answered alike if any of its reports is asked for.** -/
theorem round (h : AgreeOn keys d d') (b : Batch) :
    AgreeOn keys (d.round b).1 (d'.round (b.only keys)).1 ∧
      ((b.only keys).2 ≠ [] → (d'.round (b.only keys)).2 = (d.round b).2.map (List.filter fun r => keys (key r.id))) := by
  have hsame : d'.InTime b.1 ↔ d.InTime b.1 := by
    unfold InTime
    rw [h.expiry_eq]
  by_cases hb : b.2 = [] ∨ d.InTime b.1
  · have honly : (b.only keys).2 = [] ∨ d'.InTime (b.only keys).1 :=
      hb.imp (fun hnil => by unfold Batch.only; rw [hnil]; rfl) hsame.2
    rw [round_eq hb, round_eq honly]
    exact ⟨h.heard b, fun _ => congrArg Except.ok ((h.heard b).judged b.2)⟩
  · rw [not_or] at hb
    rw [round_late hb.1 hb.2]
    by_cases hnone : (b.only keys).2 = []
    · -- the reports that make the batch fail are taken away
      rw [round_eq (.inl hnone)]
      unfold Dedup.heard
      rw [hnone]
      exact ⟨h.sweep b.1, fun hne => absurd rfl hne⟩
    · rw [round_late hnone fun hin => hb.2 (hsame.1 hin)]
      exact ⟨h.sweep b.1, fun _ => rfl⟩

theorem run (batches : List Batch) :
    ∀ {d d' : Dedup}, AgreeOn keys d d' → AgreeOn keys (d.run batches) (d'.run (batches.map (Batch.only keys))) := by
  induction batches with
  | nil => exact id
  | cons b rest ih => exact fun h => ih (h.round b).1

end AgreeOn

/-- **Flows do not interfere in the deduper.**  After any run, at any times, and whether or not its batches could be answered: with
the reports of the other flows left out everywhere, a flow has the same owner after the next batch, and if it has reports there,
the same is left of them, or they are refused as before.  So it is for all other flows with the reports of one left out. -/
theorem flows_independent (d : Dedup) (before : List Batch) (b : Batch) (k : Flow.Id) :
    let whole := (d.run before).round b
    let alone := (d.run (before.map (Batch.only (· = k)))).round (b.only (· = k))
    let others := (d.run (before.map (Batch.only (· ≠ k)))).round (b.only (· ≠ k))
    (alone.1.owners.get? k = whole.1.owners.get? k ∧
        ((b.only (· = k)).2 ≠ [] → alone.2 = whole.2.map (List.filter fun r => key r.id = k))) ∧
      (∀ k', k' ≠ k → others.1.owners.get? k' = whole.1.owners.get? k') ∧
        ((b.only (· ≠ k)).2 ≠ [] → others.2 = whole.2.map (List.filter fun r => key r.id ≠ k)) := by
  intro whole alone others
  obtain ⟨halone, hkept⟩ := ((AgreeOn.refl (· = k) d).run before).round b
  obtain ⟨hothers, hrest⟩ := ((AgreeOn.refl (· ≠ k) d).run before).round b
  exact ⟨⟨halone.owners_eq k (decide_eq_true rfl), hkept⟩, fun k' hk' => hothers.owners_eq k' (decide_eq_true hk'), hrest⟩

/-- A batch shows only one of two flows and cannot be answered; then time goes back. -/
theorem flows_independent_refused_batch :
    let report (port : UInt16) (interface : UInt32) : Report := { (default : Report) with id := { srcPort := port, interface } }
    let d : Dedup := { expiry := .ofSecs 4611686018427387904, mark := false }
    let before : List Batch := [(⟨5⟩, [report 1 2, report 7 2]), (⟨4611686018427387904 * second⟩, [report 7 3])]
    let b : Batch := (⟨3⟩, [report 7 3, report 1 3, report 1 2])
    let k := key (report 1 2).id
    let whole := (d.run before).round b
    let alone := (d.run (before.map (Batch.only (· = k)))).round (b.only (· = k))
    let others := (d.run (before.map (Batch.only (· ≠ k)))).round (b.only (· ≠ k))
    (((d.run (before.take 1)).round (⟨4611686018427387904 * second⟩, [report 7 3])).2 = .error .instant ∧
        (b.only (· = k)).2 ≠ [] ∧ (b.only (· ≠ k)).2 ≠ [] ∧ key (report 7 2).id ≠ k) ∧
      whole.2 = .ok [report 1 2] ∧ alone.2 = .ok [report 1 2] ∧ others.2 = .ok [] ∧
      others.1.owners.get? (key (report 7 2).id) = whole.1.owners.get? (key (report 7 2).id) := by
  intro report d before b k whole alone others
  have hrefused : ((d.run (before.take 1)).round (⟨4611686018427387904 * second⟩, [report 7 3])).2 = .error .instant := by
    decide +kernel
  have hwhole : whole.2 = .ok [report 1 2] := by decide +kernel
  have hone : (b.only (· = k)).2 ≠ [] := by decide +kernel
  have hrest : (b.only (· ≠ k)).2 ≠ [] := by decide +kernel
  have hk : key (report 7 2).id ≠ k := by decide +kernel
  obtain ⟨⟨-, halone⟩, howners, hothers⟩ := flows_independent d before b k
  refine ⟨⟨hrefused, hone, hrest, hk⟩, hwhole, ?_, ?_, howners _ hk⟩
  · rw [halone hone, hwhole]
    exact congrArg Except.ok (by decide +kernel)
  · rw [hothers hrest, hwhole]
    exact congrArg Except.ok (by decide +kernel)

end Dedup
end FlowMeter.Export
