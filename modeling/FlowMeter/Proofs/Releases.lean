import FlowMeter.Proofs.Parcels
/-!
# What leaves the outlet, and what the deduper drops

Every parcel goes through the deduper as it is given up.  What is told as exported are the reports of the parcels but for those
whose flows another interface owns once the parcel has gone out (`Export.Exporter.shows?`).  `Agent.Outlet.Shipped` is the whole
account of an outlet, kept by each of its calls.
-/
namespace FlowMeter

def Notice.report? : Notice → Option Export.Report
  | .exported r => some r
  | _ => none

/-- The reports that were told as exported. -/
def shownReports (notices : List Notice) : List Export.Report := notices.filterMap Notice.report?

theorem shownReports_append (s t : List Notice) : shownReports (s ++ t) = shownReports s ++ shownReports t :=
  List.filterMap_append ..

theorem exportedFlows_eq_map_shown : ∀ notices : List Notice,
    exportedFlows notices = (shownReports notices).map fun r => (r.id, r.metrics)
  | [] => rfl
  | n :: rest => by
    have hrest := exportedFlows_eq_map_shown rest
    unfold exportedFlows shownReports at *
    cases n with
    | exported r => exact congrArg ((r.id, r.metrics) :: ·) hrest
    | _ => exact hrest

theorem shownReports_eq_nil {notices : List Notice} (h : exportedFlows notices = []) : shownReports notices = [] := by
  rw [exportedFlows_eq_map_shown] at h
  exact List.map_eq_nil_iff.1 h

theorem shownReports_exported : ∀ reports : List Export.Report, shownReports (reports.map .exported) = reports
  | [] => rfl
  | r :: rest => congrArg (r :: ·) (shownReports_exported rest)

namespace Export

namespace Dedup

variable {d d' : Dedup} {now : Instant} {id : Flow.Id}

/-- The flow has an owner. -/
def Owned (d : Dedup) (id : Flow.Id) : Prop := ∃ o, d.owners.get? (key id) = some o

/-- **Once a flow has an owner, other reports of a period do not change whose duplicates there are.** -/
theorem isDuplicate_of_see (h : d.see now id = .ok d') :
    d'.mark = d.mark ∧ d'.Owned id ∧ ∀ k, d.Owned k → d'.Owned k ∧ d'.isDuplicate k = d.isDuplicate k := by
  unfold see at h
  cases hlater : now.later d.expiry with
  | error e =>
    rw [hlater] at h
    cases h
  | ok expires =>
    rw [hlater] at h
    obtain rfl := Except.ok.inj h
    refine ⟨rfl, ⟨_, (Table.get?_upsert ..).trans (if_pos rfl)⟩, fun k ⟨o, ho⟩ => ?_⟩
    unfold Owned isDuplicate
    rw [Table.get?_upsert]
    by_cases hk : key k = key id
    · rw [if_pos hk, ← hk, ho]
      exact ⟨⟨_, rfl⟩, rfl⟩
    · rw [if_neg hk, ho]
      exact ⟨⟨o, rfl⟩, rfl⟩

/-- What is told of a sweep shows nothing. -/
theorem shownReports_sweepNotices (d : Dedup) (now : Instant) : shownReports (d.sweepNotices now) = [] := by
  simp only [sweepNotices]
  split <;> rfl

/-- **What is left of a batch can be read off the deduper as it is afterwards.** -/
theorem kept_of_passAll : ∀ (reports : List Report) {d d' : Dedup} {kept : List Report},
    passAll now d reports = .ok (d', kept) →
    d'.mark = d.mark ∧ (∀ k, d.Owned k → d'.Owned k ∧ d'.isDuplicate k = d.isDuplicate k) ∧
      kept = reports.filterMap fun r => d'.keep? r (d'.isDuplicate r.id)
  | [], d, d', kept, h => by
    cases h
    exact ⟨rfl, fun k hk => ⟨hk, rfl⟩, rfl⟩
  | r :: rest, d, d', kept, h => by
    rw [passAll] at h
    cases hsee : d.see now r.id with
    | error e =>
      rw [hsee] at h
      cases h
    | ok d₁ =>
      rw [hsee] at h
      have hall : (passAll now d₁ rest >>= fun out =>
          Except.ok (out.1, (d₁.keep? r (d₁.isDuplicate r.id)).toList ++ out.2)) = .ok (d', kept) := h
      cases hrest : passAll now d₁ rest with
      | error e =>
        rw [hrest] at hall
        cases hall
      | ok out =>
        rw [hrest] at hall
        obtain ⟨rfl, rfl⟩ := Prod.mk.inj (Except.ok.inj hall)
        obtain ⟨hmark, howned, hothers⟩ := kept_of_passAll rest hrest
        obtain ⟨hmark₁, hown, howned₁⟩ := isDuplicate_of_see hsee
        refine ⟨hmark.trans hmark₁, fun k hk => ?_, ?_⟩
        · obtain ⟨hk₁, hsame₁⟩ := howned₁ k hk
          obtain ⟨hk₂, hsame₂⟩ := howned k hk₁
          exact ⟨hk₂, hsame₂.trans hsame₁⟩
        · have hfirst : d₁.keep? r (d₁.isDuplicate r.id) = out.1.keep? r (out.1.isDuplicate r.id) := by
            rw [(howned r.id hown).2]
            unfold keep?
            rw [hmark]
          rw [hfirst, hothers, List.filterMap_cons]
          cases out.1.keep? r (out.1.isDuplicate r.id) <;> rfl

end Dedup

/-- The backlog shows nothing by itself. -/
theorem Backlog.shownReports_account (b : Backlog) (place : Place) (r : Flow.Record) :
    shownReports (b.account place r).notices = [] := by
  unfold account
  by_cases hfull : (b.add r).full
  · simp only [hfull, if_true]
    cases (b.add r).evict place ∅ <;> rfl
  · simp only [hfull, Bool.false_eq_true, if_false]
    rfl

namespace Exporter

/-- Whether duplicates are marked, if there is a deduper. -/
def marks? (x : Exporter) : Option Bool := x.dedup.map Dedup.mark

/-- What an exporter shows of a report that has just gone through it. -/
def shows? (x : Exporter) (r : Report) : Option Report :=
  match x.dedup with
  | none => some r
  | some d => d.keep? r (d.isDuplicate r.id)

/-- The deduper drops the reports of the flow, which another interface owns. -/
def Drops (x : Exporter) (id : Flow.Id) : Prop := ∃ d, x.dedup = some d ∧ d.mark = false ∧ d.isDuplicate id = true

variable {x x' : Exporter} {place : Place} {now : Instant} {notices : List Notice} {kept : List Report}

/-- **A report is shown with all of its numbers, or dropped as a duplicate.** -/
theorem shows?_cases (x : Exporter) (r : Report) :
    (∃ shown, x.shows? r = some shown ∧ shown.id = r.id ∧ shown.metrics = r.metrics) ∨ x.Drops r.id := by
  unfold shows?
  cases hd : x.dedup with
  | none => exact .inl ⟨r, rfl, rfl, rfl⟩
  | some d =>
    cases hdup : d.isDuplicate r.id with
    | false => exact .inl ⟨r, by simp only [hdup, Dedup.keep?, Bool.false_eq_true, if_false], rfl, rfl⟩
    | true =>
      cases hmark : d.mark with
      | true => exact .inl ⟨{ r with duplicate := true }, by simp only [hdup, Dedup.keep?, hmark, if_true], rfl, rfl⟩
      | false => exact .inr ⟨d, hd, hmark, hdup⟩

theorem Drops.marks? {id : Flow.Id} (h : x.Drops id) : x.marks? = some false := by
  obtain ⟨d, hd, hmark, -⟩ := h
  unfold Exporter.marks?
  rw [hd, ← hmark]
  rfl

theorem of_marks?_ofSettings {s : Settings} (h : (ofSettings s).marks? = some false) :
    s.dedup = .firstCome ∧ s.dedupMark = false := by
  unfold Exporter.marks? ofSettings at h
  cases hdedup : s.dedup with
  | off =>
    rw [hdedup] at h
    cases h
  | firstCome =>
    rw [hdedup] at h
    exact ⟨rfl, Option.some.inj h⟩

theorem release_of_dedup {d : Dedup} (hd : x.dedup = some d) (now : Instant) (reports : List Report) :
    x.release now reports = (d.passLogged now reports >>= fun out =>
      ⟨out.2.map .exported, .ok ({ x with dedup := some out.1 }, out.2)⟩) := by
  unfold release
  rw [hd]
  refine congrArg (Logged.andThen _) (funext fun out => ?_)
  show Logged.mk ([] ++ (out.2.map .exported ++ [])) _ = _
  rw [List.nil_append, List.append_nil]
  rfl

theorem eq_of_release {reports : List Report} (h : x.release now reports = ⟨notices, .ok (x', kept)⟩) :
    x'.backlog = x.backlog ∧ x'.marks? = x.marks? ∧ shownReports notices = reports.filterMap x'.shows? := by
  cases hd : x.dedup with
  | none =>
    obtain ⟨backlog, dedup⟩ := x
    obtain rfl : dedup = none := hd
    rw [release_plain] at h
    cases h
    refine ⟨rfl, rfl, ?_⟩
    rw [shownReports_exported]
    exact List.filterMap_some.symm
  | some d =>
    rw [release_of_dedup hd] at h
    obtain ⟨first, ⟨d', left⟩, second, hpass, hrest, rfl⟩ := Logged.eq_of_andThen_eq_ok h
    cases hrest
    unfold Dedup.passLogged at hpass
    obtain ⟨swept, _, passed, hsweep, hkept, rfl⟩ := Logged.eq_of_andThen_eq_ok hpass
    cases hsweep
    obtain ⟨rfl, hpassed⟩ := Logged.eq_of_ofExcept_eq_ok hkept
    obtain ⟨hmark, -, hkept⟩ := Dedup.kept_of_passAll reports hpassed
    refine ⟨rfl, ?_, ?_⟩
    · unfold marks?
      rw [hd]
      exact congrArg some hmark
    · rw [shownReports_append, shownReports_exported, List.append_nil, d.shownReports_sweepNotices, List.nil_append]
      exact hkept

/-- **What an account call shows comes from the batch that it makes the backlog give up.** -/
theorem eq_of_account {r : Flow.Record} (h : x.account place now r = ⟨notices, .ok (x', kept)⟩) :
    ∃ given, (x.backlog.account place r).outcome = .ok (x'.backlog, given) ∧ x'.marks? = x.marks? ∧
      shownReports notices = (given.getD []).filterMap x'.shows? := by
  unfold account at h
  obtain ⟨first, ⟨backlog, given⟩, second, hfirst, hsecond, rfl⟩ := Logged.eq_of_andThen_eq_ok h
  have hquiet : shownReports first = [] := by
    have h := x.backlog.shownReports_account place r
    rwa [hfirst] at h
  refine ⟨given, ?_⟩
  rw [hfirst, shownReports_append, hquiet, List.nil_append]
  cases given with
  | none =>
    cases hsecond
    exact ⟨rfl, rfl, rfl⟩
  | some reports =>
    obtain ⟨hbacklog, hmarks, hshown⟩ := eq_of_release hsecond
    exact ⟨by rw [hbacklog], hmarks, hshown⟩

theorem eq_of_evict {snapshot : Flow.Merged} (h : x.evict place now snapshot = ⟨notices, .ok (x', kept)⟩) :
    ∃ reports, x.backlog.evict place snapshot = .ok (x'.backlog, reports) ∧ x'.marks? = x.marks? ∧
      shownReports notices = reports.filterMap x'.shows? := by
  unfold evict at h
  obtain ⟨first, ⟨backlog, reports⟩, second, hfirst, hsecond, rfl⟩ := Logged.eq_of_andThen_eq_ok h
  obtain ⟨rfl, hevict⟩ := Logged.eq_of_ofExcept_eq_ok hfirst
  obtain ⟨hbacklog, hmarks, hshown⟩ := eq_of_release hsecond
  refine ⟨reports, ?_, hmarks, ?_⟩
  · rw [hevict, hbacklog]
  · rw [List.nil_append]
    exact hshown

/-- **A call that fails shows nothing.** -/
theorem shownReports_of_release {reports : List Report} {e : TimeFault} (h : x.release now reports = ⟨notices, .error e⟩) :
    shownReports notices = [] := by
  cases hd : x.dedup with
  | none =>
    obtain ⟨backlog, dedup⟩ := x
    obtain rfl : dedup = none := hd
    rw [release_plain] at h
    cases h
  | some d =>
    rw [release_of_dedup hd] at h
    rcases Logged.eq_of_andThen_eq_error h with hpass | ⟨_, _, _, -, hrest, -⟩
    · unfold Dedup.passLogged at hpass
      rcases Logged.eq_of_andThen_eq_error hpass with hsweep | ⟨swept, _, passed, hsweep, hfailed, rfl⟩
      · cases hsweep
      · cases hsweep
        rw [(Logged.eq_of_ofExcept_eq_error hfailed).1, List.append_nil, d.shownReports_sweepNotices]
    · cases hrest

theorem shownReports_of_account {r : Flow.Record} {e : TimeFault} (h : x.account place now r = ⟨notices, .error e⟩) :
    shownReports notices = [] := by
  have hquiet := x.backlog.shownReports_account place r
  unfold account at h
  rcases Logged.eq_of_andThen_eq_error h with hfirst | ⟨first, ⟨backlog, given⟩, second, hfirst, hsecond, rfl⟩
  · rwa [hfirst] at hquiet
  · rw [hfirst] at hquiet
    rw [shownReports_append, hquiet, List.nil_append]
    cases given with
    | none => cases hsecond
    | some reports => exact shownReports_of_release hsecond

theorem shownReports_of_evict {snapshot : Flow.Merged} {e : TimeFault}
    (h : x.evict place now snapshot = ⟨notices, .error e⟩) : shownReports notices = [] := by
  unfold evict at h
  rcases Logged.eq_of_andThen_eq_error h with hfirst | ⟨first, ⟨backlog, reports⟩, second, hfirst, hsecond, rfl⟩
  · rw [(Logged.eq_of_ofExcept_eq_error hfirst).1]
    rfl
  · rw [(Logged.eq_of_ofExcept_eq_ok hfirst).1, List.nil_append]
    exact shownReports_of_release hsecond

end Exporter

/-- A parcel, and the exporter once it has gone out. -/
structure Release where
  parcel : Parcel
  exporter : Exporter

def Release.shown (r : Release) : List Report := r.parcel.reports.filterMap r.exporter.shows?

end Export

namespace Agent.Outlet

open Export (Intake IntakeStep Release)

/-- All that an outlet was given and has shown: its records are in parcels or wait in the backlog, and the reports of the parcels
were shown but for those that the deduper dropped. -/
structure Shipped (marks : Option Bool) (o : Outlet) (notices : List Notice) (u : Intake) (releases : List Release) : Prop where
  mode : o.exporter.marks? = marks
  backlog : u.backlog = o.exporter.backlog
  sound : ∃ given, Intake.Sound given u
  parcels : u.parcels = releases.map Release.parcel
  modes : ∀ release ∈ releases, release.exporter.marks? = marks
  shown : shownReports notices = releases.flatMap Release.shown

variable {marks : Option Bool} {o o' : Outlet} {notices more : List Notice} {u u' : Intake} {releases : List Release} {now : UInt64}

namespace Shipped

theorem start {limit : Nat} (hmarks : o.exporter.marks? = marks) (hbacklog : o.exporter.backlog = { limit }) :
    Shipped marks o [] { backlog := { limit } } [] where
  mode := hmarks
  backlog := hbacklog.symm
  sound := ⟨[], .start limit⟩
  parcels := rfl
  modes _ h := by cases h
  shown := rfl

theorem quiet (h : Shipped marks o notices u releases) (hmore : shownReports more = []) :
    Shipped marks o (notices ++ more) u releases where
  mode := h.mode
  backlog := h.backlog
  sound := h.sound
  parcels := h.parcels
  modes := h.modes
  shown := by rw [shownReports_append, hmore, List.append_nil, h.shown]

theorem give (h : Shipped marks o notices u releases) {r : Release} (hexporter : r.exporter = o'.exporter)
    (hmarks : o'.exporter.marks? = o.exporter.marks?) (hbacklog : u'.backlog = o'.exporter.backlog)
    (hsound : ∃ given, Intake.Sound given u') (hparcels : u'.parcels = u.parcels ++ [r.parcel])
    (hshown : shownReports more = r.shown) : Shipped marks o' (notices ++ more) u' (releases ++ [r]) where
  mode := hmarks.trans h.mode
  backlog := hbacklog
  sound := hsound
  parcels := by rw [hparcels, h.parcels, List.map_append, List.map_singleton]
  modes release hrelease := by
    rcases List.mem_append.1 hrelease with hold | hnew
    · exact h.modes release hold
    · obtain rfl := List.mem_singleton.1 hnew
      rw [hexporter, hmarks, h.mode]
  shown := by rw [shownReports_append, h.shown, hshown, List.flatMap_append, List.flatMap_singleton]

theorem account (h : Shipped marks o notices u releases) {r : Flow.Record} (haccount : o.account now r = ⟨more, .ok o'⟩) :
    ∃ u' releases', Shipped marks o' (notices ++ more) u' releases' ∧ u'.records = u.records ++ [r] := by
  unfold Outlet.account at haccount
  obtain ⟨first, ⟨x, kept⟩, second, hfirst, hsecond, rfl⟩ := Logged.eq_of_andThen_eq_ok haccount
  cases hsecond
  obtain ⟨given, hgiven, hmarks, hshown⟩ := Export.Exporter.eq_of_account (Logged.eq_of_mapError_eq_ok hfirst)
  obtain ⟨steps, hsound⟩ := h.sound
  rw [← h.backlog] at hgiven
  rw [List.append_nil]
  -- what the same call does to the intake tells what went into the parcel, if there is one
  have hintake : ∀ u', (u.step o.place (.record r)).outcome = .ok u' →
      (∃ steps, Intake.Sound steps u') ∧ u'.records = u.records ++ [r] := by
    intro u' hu'
    have hsound' := hsound.step hu'
    refine ⟨⟨_, hsound'⟩, ?_⟩
    rw [hsound'.records, hsound.records, List.filterMap_append]
    rfl
  cases given with
  | none =>
    obtain ⟨hsound', hrecords⟩ := hintake _ (Logged.andThen_eq_ok_iff.2 ⟨(x.backlog, none), hgiven, rfl⟩)
    exact ⟨_, releases, ⟨hmarks.trans h.mode, rfl, hsound', h.parcels, h.modes, (h.quiet hshown).shown⟩, hrecords⟩
  | some reports =>
    obtain ⟨hsound', hrecords⟩ := hintake _ (Logged.andThen_eq_ok_iff.2 ⟨(x.backlog, some reports), hgiven, rfl⟩)
    exact ⟨_, _, h.give (r := ⟨⟨[], u.waiting ++ [r], reports⟩, x⟩) rfl hmarks rfl hsound' rfl hshown, hrecords⟩

theorem evict (h : Shipped marks o notices u releases) {shards : List Flow.Snapshot}
    (hevict : o.evict now shards = ⟨more, .ok o'⟩) :
    ∃ u' releases', Shipped marks o' (notices ++ more) u' releases' ∧ u'.records = u.records ∧ u'.waiting = [] := by
  unfold Outlet.evict at hevict
  obtain ⟨first, ⟨x, kept⟩, second, hfirst, hsecond, rfl⟩ := Logged.eq_of_andThen_eq_ok hevict
  cases hsecond
  obtain ⟨reports, hreports, hmarks, hshown⟩ := Export.Exporter.eq_of_evict (Logged.eq_of_mapError_eq_ok hfirst)
  obtain ⟨steps, hsound⟩ := h.sound
  rw [← h.backlog] at hreports
  rw [List.append_nil]
  have hsound' := hsound.step (s := .views shards) (Logged.andThen_eq_ok_iff.2 ⟨(x.backlog, reports), hreports, rfl⟩)
  refine ⟨_, _, h.give (r := ⟨⟨shards, u.waiting, reports⟩, x⟩) rfl hmarks rfl ⟨_, hsound'⟩ rfl hshown, ?_, rfl⟩
  rw [hsound'.records, hsound.records, List.filterMap_append]
  exact List.append_nil _

/-- **Every record that does not wait is in a parcel, and what the parcel shows of its flow was shown, or dropped.** -/
theorem shown_or_dropped (h : Shipped marks o notices u releases) (hwaiting : u.waiting = []) {r : Flow.Record}
    (hr : r ∈ u.records) :
    ∃ release ∈ releases, r ∈ release.parcel.records ∧ release.parcel.Exact ∧
      ∃ report ∈ release.parcel.reports, report.id = r.id ∧
        ((∃ shown ∈ release.shown, shown.id = r.id ∧ shown.metrics = report.metrics) ∨
          (marks = some false ∧ release.exporter.Drops r.id)) := by
  obtain ⟨steps, hsound⟩ := h.sound
  unfold Intake.records at hr
  rw [hwaiting, List.append_nil, h.parcels] at hr
  obtain ⟨parcel, hparcel, hmem⟩ := List.mem_flatMap.1 hr
  obtain ⟨release, hrelease, rfl⟩ := List.mem_map.1 hparcel
  have hexact : release.parcel.Exact := hsound.exact release.parcel (h.parcels ▸ hparcel)
  have hpart : r.id ∈ release.parcel.parts.map Prod.fst := by
    unfold Export.Parcel.parts
    rw [List.map_append, List.mem_append, List.map_map]
    exact .inr (List.mem_map_of_mem (f := Prod.fst ∘ Flow.Record.entry) hmem)
  obtain ⟨report, hreport, hid⟩ := List.mem_map.1 ((hexact.flows r.id).2 hpart)
  refine ⟨release, hrelease, hmem, hexact, report, hreport, hid, ?_⟩
  rcases release.exporter.shows?_cases report with ⟨shown, hshown, hshownid, hmetrics⟩ | hdrops
  · exact .inl ⟨shown, List.mem_filterMap.2 ⟨report, hreport, hshown⟩, hshownid.trans hid, hmetrics⟩
  · exact .inr ⟨(h.modes release hrelease).symm.trans hdrops.marks?, hid ▸ hdrops⟩

end Shipped
end Agent.Outlet
end FlowMeter
