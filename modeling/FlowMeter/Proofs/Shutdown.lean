import FlowMeter.Proofs.HooksBalance
import FlowMeter.Proofs.Releases
/-!
# Leaving the loop of a run on hooks

Entries come into the ring, its reader takes steps, and the loop receives records and empties the map when it is due, in any order,
until it is told to leave (`LoopStep.leave`).  Then it receives record after record until none waits in the channel, and empties
the map once more (`LoopStep.proceed`), while the reader goes on.  All that was in the channel goes out
(`LoopRun.channel_ships`); what was in the ring or in the reader's hands may stay behind (`LoopRun.ring_and_duplicate_stay`).
-/
namespace FlowMeter

open Export (Release)
open FlowMeter.Flow (Record)

namespace Kernel.Forwarder

variable {f : Forwarder}

theorem inFlight_arrive (f : Forwarder) (entries : List Octets) :
    (f.arrive entries).inFlight = f.inFlight ++ entries.filterMap Record.ofOctets? := by
  unfold arrive inFlight
  rw [List.filterMap_append, List.append_assoc, List.append_assoc]

theorem channel_prefix_step (h : f.deserted = false) : f.channel <+: f.step.1.channel := by
  unfold step
  split
  · exact List.prefix_rfl
  · cases f.holding with
    | some r =>
      simp only [put, h, Bool.false_eq_true, if_false]
      split
      · exact List.prefix_append ..
      · exact List.prefix_rfl
    | none =>
      simp only [take]
      cases f.ring with
      | nil => exact List.prefix_rfl
      | cons entry rest =>
        simp only
        cases Record.ofOctets? entry <;> exact List.prefix_rfl

end Kernel.Forwarder

/-- Nothing is exported while the map is read. -/
theorem Kernel.FlowMap.shownReports_evict (m : FlowMap) (faults : ReadFaults) : shownReports (m.evict faults).2.notices = [] := by
  unfold evict
  split
  · refine List.filterMap_eq_nil_iff.2 fun n hn => ?_
    obtain ⟨_, -, rfl⟩ := List.mem_map.1 hn
    rfl
  · rfl

namespace Agent

namespace HooksRun

variable {a a' : HooksRun} {notices : List Notice}

theorem eq_of_receive (h : a.receive = ⟨notices, .ok a'⟩) :
    (a.forwarder.receive? = none ∧ notices = [] ∧ a' = a) ∨
      ∃ r forwarder outlet, a.forwarder.receive? = some (r, forwarder) ∧ a.outlet.account a.now r = ⟨notices, .ok outlet⟩ ∧
        a' = { a with forwarder, outlet } := by
  unfold receive at h
  cases hnext : a.forwarder.receive? with
  | none =>
    rw [hnext] at h
    cases h
    exact .inl ⟨rfl, rfl, rfl⟩
  | some next =>
    obtain ⟨r, forwarder⟩ := next
    rw [hnext] at h
    obtain ⟨first, outlet, second, haccount, hrest, rfl⟩ := Logged.eq_of_andThen_eq_ok h
    cases hrest
    rw [List.append_nil]
    exact .inr ⟨r, forwarder, outlet, rfl, haccount, rfl⟩

/-- **The outlet is emptied with what was in the map.** -/
theorem eq_of_flush (h : a.flush = ⟨notices, .ok a'⟩) :
    ∃ told shards more, a.outlet.evict a.now shards = ⟨more, .ok a'.outlet⟩ ∧ shownReports told = [] ∧ notices = told ++ more ∧
      a'.forwarder = a.forwarder := by
  unfold flush at h
  obtain ⟨told, ⟨emptied, shards⟩, second, hempty, hrest, rfl⟩ := Logged.eq_of_andThen_eq_ok h
  obtain ⟨more, outlet, third, hevict, hlast, rfl⟩ := Logged.eq_of_andThen_eq_ok hrest
  cases hlast
  unfold empty at hempty
  obtain ⟨told, read, fourth, hread, hkept, rfl⟩ := Logged.eq_of_andThen_eq_ok hempty
  cases hkept
  have hquiet : shownReports told = [] := by
    rw [show told = ((a.loaded.evict a.faults).2.mapError Failure.kernel).notices from (congrArg Logged.notices hread).symm]
    exact Kernel.FlowMap.shownReports_evict a.loaded.flows a.faults
  rw [List.append_nil, List.append_nil]
  exact ⟨told, shards, more, hevict, hquiet, rfl, rfl⟩

end HooksRun

/-- How far the loop has come, with the ring's reader as it was when the loop was told to leave. -/
inductive LoopStage where
  | looping
  | draining (left : Kernel.Forwarder)
  | flushing (left : Kernel.Forwarder)
  | returned (left : Kernel.Forwarder)

/-- The ring's reader as it was when the loop was told to leave, once all is over. -/
def LoopStage.left? : LoopStage → Option Kernel.Forwarder
  | .returned left => some left
  | _ => none

/-- What was in the channel when the loop was told to leave has been accounted, as far as it does not wait any more. -/
def LoopStage.Drained (late channel : List Record) : LoopStage → Prop
  | .looping => late = []
  | .draining left => left.channel <+: late ++ channel
  | .flushing left | .returned left => left.channel <+: late

inductive LoopStep where
  | spill (entries : List Octets)
  | count (row : Row)
  | pass (now : UInt64)
  | forward
  | receive
  | due
  | leave
  /-- The loop has been told to leave, and does what there is to do next. -/
  | proceed

structure LoopRun where
  run : HooksRun
  stage : LoopStage := .looping
  /-- The records that came into the ring, oldest first. -/
  spilled : List Record := []
  /-- The records that were accounted until the loop was told to leave. -/
  early : List Record := []
  /-- The records that were accounted since then. -/
  late : List Record := []

namespace LoopRun

/-- A launched run, with nothing in the map. -/
def start (s : Settings) (x : Surroundings) (l : Kernel.Loaded) (buffers : Nat) : LoopRun where
  run := (HooksSystem.start s x l buffers 0 []).run

def receive (t : LoopRun) : Logged Failure LoopRun := do
  let run ← t.run.receive
  let records := (t.run.forwarder.receive?.map Prod.fst).toList
  match t.stage with
  | .looping => return { t with run, early := t.early ++ records }
  | _ => return { t with run, late := t.late ++ records }

def step (t : LoopRun) : LoopStep → Logged Failure LoopRun
  | .spill entries =>
    pure
      { t with
        run := { t.run with forwarder := t.run.forwarder.arrive entries }
        spilled := t.spilled ++ entries.filterMap Record.ofOctets? }
  | .count row => pure { t with run := t.run.count row }
  | .pass now => pure { t with run := { t.run with now } }
  | .forward => do
    let run ← t.run.forward
    return { t with run }
  | .receive =>
    match t.stage with
    | .looping => t.receive
    | _ => pure t
  | .due =>
    match t.stage with
    | .looping => do
      let run ← t.run.due
      return { t with run }
    | _ => pure t
  | .leave =>
    match t.stage with
    | .looping => do
      Logged.tell [.exiting]
      return { t with stage := .draining t.run.forwarder }
    | _ => pure t
  | .proceed =>
    match t.stage with
    | .draining left => if t.run.forwarder.channel = [] then pure { t with stage := .flushing left } else t.receive
    | .flushing left => do
      let run ← t.run.flush
      return { t with run, stage := .returned left }
    | _ => pure t

def follow (t : LoopRun) : List LoopStep → Logged Failure LoopRun
  | [] => pure t
  | c :: rest => do (← t.step c).follow rest

/-- What holds of a run and of all that it has told, at every point. -/
structure Kept (marks : Option Bool) (notices : List Notice) (t : LoopRun) : Prop where
  forwarded : t.run.forwarder.deserted = false
  passed : t.early ++ t.late ++ t.run.forwarder.inFlight = t.spilled
  drained : t.stage.Drained t.late t.run.forwarder.channel
  shipped : ∃ u releases, Outlet.Shipped marks t.run.outlet notices u releases ∧ u.records = t.early ++ t.late ∧
    ∀ left, t.stage = .returned left → u.waiting = []

namespace Kept

variable {marks : Option Bool} {notices more : List Notice} {t t' : LoopRun} {run : HooksRun} {left : Kernel.Forwarder}

theorem start (s : Settings) (x : Surroundings) (l : Kernel.Loaded) (buffers : Nat) :
    Kept (Export.Exporter.ofSettings s).marks? [] (start s x l buffers) where
  forwarded := rfl
  passed := rfl
  drained := rfl
  shipped := ⟨_, [], .start rfl rfl, rfl, fun _ h => by cases h⟩

theorem same (h : Kept marks notices t) (hsame : pure t = (⟨more, .ok t'⟩ : Logged Failure LoopRun)) :
    Kept marks (notices ++ more) t' := by
  cases hsame
  rwa [List.append_nil]

theorem forward (h : Kept marks notices t) (hstep : t.step .forward = ⟨more, .ok t'⟩) : Kept marks (notices ++ more) t' := by
  have hforward : t.step .forward =
      ⟨t.run.forwarder.step.2, .ok { t with run := { t.run with forwarder := t.run.forwarder.step.1 } }⟩ := by
    simp only [LoopRun.step, HooksRun.forward, Logged.tell, Logged.ok_bind, pure, Logged.succeed, List.append_nil]
  rw [hforward] at hstep
  cases hstep
  obtain ⟨hflight, hdeserted, hquiet⟩ := Kernel.Forwarder.step_cases h.forwarded
  obtain ⟨u, releases, hshipped, hrest⟩ := h.shipped
  refine ⟨hdeserted, ?_, ?_, u, releases, hshipped.quiet (shownReports_eq_nil hquiet), hrest⟩
  · show t.early ++ t.late ++ t.run.forwarder.step.1.inFlight = t.spilled
    rw [hflight]
    exact h.passed
  · have hdrained := h.drained
    cases hstage : t.stage with
    | draining left =>
      rw [hstage] at hdrained
      have hbefore : left.channel <+: t.late ++ t.run.forwarder.channel := hdrained
      exact hbefore.trans ((List.prefix_append_right_inj t.late).2 (Kernel.Forwarder.channel_prefix_step h.forwarded))
    | _ =>
      rw [hstage] at hdrained
      exact hdrained

/-- What is received is the oldest record of the channel, and goes to the outlet. -/
theorem received (h : Kept marks notices t) (hreceive : t.run.receive = ⟨more, .ok run⟩) :
    let records := (t.run.forwarder.receive?.map Prod.fst).toList
    run.forwarder.deserted = false ∧ t.run.forwarder.channel = records ++ run.forwarder.channel ∧
      t.run.forwarder.inFlight = records ++ run.forwarder.inFlight ∧
      ∃ u releases, Outlet.Shipped marks run.outlet (notices ++ more) u releases ∧
        u.records = t.early ++ t.late ++ records := by
  obtain ⟨u, releases, hshipped, hrecords, -⟩ := h.shipped
  rcases HooksRun.eq_of_receive hreceive with ⟨hnone, rfl, rfl⟩ | ⟨r, f, outlet, hsome, haccount, rfl⟩
  · rw [hnone]
    exact ⟨h.forwarded, rfl, rfl, u, releases, hshipped.quiet rfl, by rw [hrecords]; exact (List.append_nil _).symm⟩
  · rw [hsome]
    obtain ⟨hflight, hdeserted⟩ := Kernel.Forwarder.inFlight_of_receive? hsome
    obtain ⟨u', releases', hshipped', hrecords'⟩ := hshipped.account haccount
    refine ⟨hdeserted.trans h.forwarded, ?_, hflight, u', releases', hshipped', by rw [hrecords', hrecords]; rfl⟩
    unfold Kernel.Forwarder.receive? at hsome
    cases hchannel : t.run.forwarder.channel with
    | nil =>
      rw [hchannel] at hsome
      cases hsome
    | cons r' rest =>
      rw [hchannel] at hsome
      cases hsome
      rfl

/-- **One record more, while the loop goes on and after it was told to leave.** -/
theorem receive (h : Kept marks notices t) (hstage : t.stage = .looping ∨ ∃ left, t.stage = .draining left)
    (hreceive : t.receive = ⟨more, .ok t'⟩) : Kept marks (notices ++ more) t' := by
  unfold LoopRun.receive at hreceive
  obtain ⟨first, run, second, hrun, hrest, rfl⟩ := Logged.eq_of_andThen_eq_ok hreceive
  obtain ⟨hdeserted, hchannel, hflight, u, releases, hshipped, hrecords⟩ := h.received hrun
  have hpassed := h.passed
  have hdrained := h.drained
  rw [hflight] at hpassed
  rcases hstage with hlooping | ⟨left, hdraining⟩
  · simp only [hlooping] at hrest
    cases hrest
    have hlate : t.late = [] := by
      rw [hlooping] at hdrained
      exact hdrained
    rw [hlate, List.append_nil] at hpassed hrecords
    rw [List.append_nil]
    refine ⟨hdeserted, ?_, hlate, u, releases, hshipped, ?_, fun _ hreturned => by cases hreturned⟩
    · show _ ++ t.late ++ _ = _
      rw [hlate, List.append_nil, List.append_assoc]
      exact hpassed
    · show _ = _ ++ t.late
      rw [hlate, List.append_nil]
      exact hrecords
  · simp only [hdraining] at hrest
    cases hrest
    rw [List.append_nil]
    refine ⟨hdeserted, ?_, ?_, u, releases, hshipped, ?_, fun _ hreturned => by cases hreturned⟩
    · show t.early ++ (t.late ++ _) ++ run.forwarder.inFlight = _
      rw [← List.append_assoc, List.append_assoc]
      exact hpassed
    · show left.channel <+: t.late ++ _ ++ run.forwarder.channel
      rw [List.append_assoc, ← hchannel]
      rw [hdraining] at hdrained
      exact hdrained
    · rw [hrecords, List.append_assoc]

/-- **The map is emptied into the outlet, and the outlet with it.** -/
theorem flush (h : Kept marks notices t) {a : HooksRun} (hforwarder : a.forwarder = t.run.forwarder)
    (houtlet : a.outlet = t.run.outlet) (hflush : a.flush = ⟨more, .ok run⟩) :
    run.forwarder = t.run.forwarder ∧
      ∃ u releases, Outlet.Shipped marks run.outlet (notices ++ more) u releases ∧ u.records = t.early ++ t.late ∧
        u.waiting = [] := by
  obtain ⟨u, releases, hshipped, hrecords, -⟩ := h.shipped
  obtain ⟨told, shards, last, hevict, hquiet, rfl, hsame⟩ := HooksRun.eq_of_flush hflush
  rw [houtlet] at hevict
  obtain ⟨u', releases', hshipped', hrecords', hwaiting⟩ := (hshipped.quiet hquiet).evict hevict
  rw [List.append_assoc] at hshipped'
  exact ⟨hsame.trans hforwarder, u', releases', hshipped', hrecords'.trans hrecords, hwaiting⟩

theorem due (h : Kept marks notices t) (hstage : t.stage = .looping) (hdue : t.run.due = ⟨more, .ok run⟩) :
    Kept marks (notices ++ more) { t with run } := by
  unfold HooksRun.due at hdue
  obtain ⟨hsame, u, releases, hshipped, hrecords, hwaiting⟩ := h.flush (a := { t.run with now := t.run.timetable.next t.run.now }) rfl rfl hdue
  have hdrained := h.drained
  rw [hstage] at hdrained
  refine ⟨?_, ?_, ?_, u, releases, hshipped, hrecords, fun _ _ => hwaiting⟩
  · exact (congrArg Kernel.Forwarder.deserted hsame).trans h.forwarded
  · show _ ++ run.forwarder.inFlight = _
    rw [hsame]
    exact h.passed
  · rw [hstage]
    exact hdrained

theorem leave (h : Kept marks notices t) (hstage : t.stage = .looping) :
    Kept marks (notices ++ [.exiting]) { t with stage := .draining t.run.forwarder } := by
  obtain ⟨u, releases, hshipped, hrecords, -⟩ := h.shipped
  refine ⟨h.forwarded, h.passed, ?_, u, releases, hshipped.quiet rfl, hrecords, fun _ hreturned => by cases hreturned⟩
  have hlate := h.drained
  rw [hstage] at hlate
  show t.run.forwarder.channel <+: t.late ++ t.run.forwarder.channel
  rw [show t.late = [] from hlate]
  exact List.prefix_rfl

/-- **A run that leaves the loop goes on until nothing waits in the channel, and then empties the map.** -/
theorem proceed (h : Kept marks notices t) (hstep : t.step .proceed = ⟨more, .ok t'⟩) : Kept marks (notices ++ more) t' := by
  have hdrained := h.drained
  unfold LoopRun.step at hstep
  cases hstage : t.stage with
  | looping =>
    simp only [hstage] at hstep
    exact h.same hstep
  | returned left =>
    simp only [hstage] at hstep
    exact h.same hstep
  | draining left =>
    simp only [hstage] at hstep
    by_cases hempty : t.run.forwarder.channel = []
    · rw [if_pos hempty] at hstep
      cases hstep
      obtain ⟨u, releases, hshipped, hrecords, -⟩ := h.shipped
      rw [hstage, hempty] at hdrained
      rw [List.append_nil]
      refine ⟨h.forwarded, h.passed, ?_, u, releases, hshipped, hrecords, fun _ hreturned => by cases hreturned⟩
      have hall : left.channel <+: t.late ++ [] := hdrained
      rwa [List.append_nil] at hall
    · rw [if_neg hempty] at hstep
      exact h.receive (.inr ⟨left, hstage⟩) hstep
  | flushing left =>
    simp only [hstage] at hstep
    obtain ⟨first, run, second, hflush, hrest, rfl⟩ := Logged.eq_of_andThen_eq_ok hstep
    cases hrest
    obtain ⟨hsame, u, releases, hshipped, hrecords, hwaiting⟩ := h.flush rfl rfl hflush
    rw [List.append_nil]
    rw [hstage] at hdrained
    refine ⟨?_, ?_, hdrained, u, releases, hshipped, hrecords, fun _ _ => hwaiting⟩
    · exact (congrArg Kernel.Forwarder.deserted hsame).trans h.forwarded
    · show _ ++ run.forwarder.inFlight = _
      rw [hsame]
      exact h.passed

theorem step (h : Kept marks notices t) {c : LoopStep} (hstep : t.step c = ⟨more, .ok t'⟩) : Kept marks (notices ++ more) t' := by
  cases c with
  | spill entries =>
    cases hstep
    obtain ⟨u, releases, hshipped⟩ := h.shipped
    rw [List.append_nil]
    refine ⟨h.forwarded, ?_, h.drained, u, releases, hshipped⟩
    show _ ++ (t.run.forwarder.arrive entries).inFlight = t.spilled ++ _
    rw [Kernel.Forwarder.inFlight_arrive, ← List.append_assoc, h.passed]
  | count row =>
    cases hstep
    rw [List.append_nil]
    exact ⟨h.forwarded, h.passed, h.drained, h.shipped⟩
  | pass now =>
    cases hstep
    rw [List.append_nil]
    exact ⟨h.forwarded, h.passed, h.drained, h.shipped⟩
  | forward => exact h.forward hstep
  | receive =>
    unfold LoopRun.step at hstep
    cases hstage : t.stage with
    | looping =>
      simp only [hstage] at hstep
      exact h.receive (.inl hstage) hstep
    | _ =>
      simp only [hstage] at hstep
      exact h.same hstep
  | due =>
    unfold LoopRun.step at hstep
    cases hstage : t.stage with
    | looping =>
      simp only [hstage] at hstep
      obtain ⟨first, run, second, hdue, hrest, rfl⟩ := Logged.eq_of_andThen_eq_ok hstep
      cases hrest
      rw [List.append_nil, ← hstage]
      exact h.due hstage hdue
    | _ =>
      simp only [hstage] at hstep
      exact h.same hstep
  | leave =>
    unfold LoopRun.step at hstep
    cases hstage : t.stage with
    | looping =>
      simp only [hstage] at hstep
      cases hstep
      exact h.leave hstage
    | _ =>
      simp only [hstage] at hstep
      exact h.same hstep
  | proceed => exact h.proceed hstep

theorem follow : ∀ (steps : List LoopStep) {notices more : List Notice} {t t' : LoopRun}, Kept marks notices t →
    t.follow steps = ⟨more, .ok t'⟩ → Kept marks (notices ++ more) t'
  | [], notices, more, t, t', h, hfollow => by
    cases hfollow
    rwa [List.append_nil]
  | c :: steps, notices, more, t, t', h, hfollow => by
    obtain ⟨first, t₁, second, hstep, hrest, rfl⟩ := Logged.eq_of_andThen_eq_ok hfollow
    have hall := follow steps (h.step hstep) hrest
    rwa [List.append_assoc] at hall


end Kept

/-- **All that was in the channel goes out.**  When a run has left the loop and come to its end, the records that waited in the
channel as it left were the first to be accounted since then, in their order, and every record that came into the ring was
accounted or is still on its way.  The records that were accounted are in one parcel each, which shows the whole of their flow,
and this was exported; or the deduper dropped it, as another interface owns the flow and duplicates are not marked. -/
theorem channel_ships (s : Settings) (x : Surroundings) (l : Kernel.Loaded) (buffers : Nat) (steps : List LoopStep)
    {notices : List Notice} {t : LoopRun} {left : Kernel.Forwarder}
    (hfollow : (start s x l buffers).follow steps = ⟨notices, .ok t⟩) (hreturned : t.stage = .returned left) :
    left.channel <+: t.late ∧ t.early ++ t.late ++ t.run.forwarder.inFlight = t.spilled ∧
      ∃ releases : List Release, shownReports notices = releases.flatMap Release.shown ∧
        releases.flatMap (fun release => release.parcel.records) = t.early ++ t.late ∧
        ∀ r ∈ t.early ++ t.late, ∃ release ∈ releases, r ∈ release.parcel.records ∧ release.parcel.Exact ∧
          ∃ report ∈ release.parcel.reports, report.id = r.id ∧
            ((∃ shown ∈ release.shown, shown.id = r.id ∧ shown.metrics = report.metrics) ∨
              (s.dedup = .firstCome ∧ s.dedupMark = false ∧ release.exporter.Drops r.id)) := by
  have hkept := (Kept.start s x l buffers).follow steps hfollow
  rw [List.nil_append] at hkept
  obtain ⟨u, releases, hshipped, hrecords, hwaiting⟩ := hkept.shipped
  have hdrained := hkept.drained
  rw [hreturned] at hdrained
  refine ⟨hdrained, hkept.passed, releases, hshipped.shown, ?_, fun r hr => ?_⟩
  · unfold Export.Intake.records at hrecords
    rw [hwaiting left hreturned, List.append_nil, hshipped.parcels, List.flatMap_map] at hrecords
    exact hrecords
  · rw [← hrecords] at hr
    obtain ⟨release, hrelease, hmem, hexact, report, hreport, hid, hcases⟩ :=
      hshipped.shown_or_dropped (hwaiting left hreturned) hr
    refine ⟨release, hrelease, hmem, hexact, report, hreport, hid, hcases.imp_right fun ⟨hmarks, hdrops⟩ => ?_⟩
    obtain ⟨hdedup, hmark⟩ := Export.Exporter.of_marks?_ofSettings hmarks
    exact ⟨hdedup, hmark, hdrops⟩

/-- A run that is known to have come to its end, by what can be read off it. -/
theorem exists_returned {α : Type} {outcome : Logged Failure LoopRun} {read : Kernel.Forwarder → LoopRun → α} {a : α}
    (h : outcome.outcome.toOption.bind (fun t => t.stage.left?.map fun left => read left t) = some a) :
    ∃ notices t left, outcome = ⟨notices, .ok t⟩ ∧ t.stage = .returned left ∧ read left t = a := by
  obtain ⟨notices, e | t⟩ := outcome
  · cases h
  · obtain ⟨left, hleft, hread⟩ := Option.map_eq_some_iff.1 h
    refine ⟨notices, t, left, rfl, ?_, hread⟩
    cases hstage : t.stage with
    | returned left' =>
      rw [hstage] at hleft
      cases hleft
      rfl
    | _ =>
      rw [hstage] at hleft
      cases hleft

/-- A record is received, another one waits in the channel when the loop is told to leave, and a third one comes up while the
channel is emptied. -/
theorem channel_ships_late_record :
    let r (octet : UInt8) : Record := { id := { protocol := octet }, metrics := { packets := 1, bytes := 60 } }
    let x : Surroundings := { interfaces := [], wall := .epoch, monotonic := 5, cpus := 1, objects := fun _ => none }
    let l : Kernel.Loaded :=
      { sampling := 0, trace := false, maps := [], free := [], programs := [], flows := { cpus := 1, capacity := 9 } }
    let steps : List LoopStep :=
      [.spill [(r 1).toOctets, (r 2).toOctets], .forward, .forward, .receive, .forward, .forward, .leave,
        .spill [(r 3).toOctets], .forward, .proceed, .forward, .proceed, .proceed, .proceed]
    ∃ notices t left, (start {} x l 0).follow steps = ⟨notices, .ok t⟩ ∧ t.stage = .returned left ∧
      left.channel = [r 2] ∧ t.early = [r 1] ∧ t.late = [r 2, r 3] ∧ left.channel <+: t.late ∧
      ∃ shown ∈ shownReports notices, shown.id = (r 2).id := by
  intro r x l steps
  have hread : ((start {} x l 0).follow steps).outcome.toOption.bind
      (fun t => t.stage.left?.map fun left => (left.channel, t.early, t.late)) = some ([r 2], [r 1], [r 2, r 3]) := by
    decide +kernel
  obtain ⟨notices, t, left, hfollow, hreturned, hends⟩ := exists_returned hread
  obtain ⟨hchannel, hrest⟩ := Prod.mk.inj hends
  obtain ⟨hearly, hlate⟩ := Prod.mk.inj hrest
  obtain ⟨hbegins, -, releases, hshown, -, hships⟩ := channel_ships {} x l 0 steps hfollow hreturned
  refine ⟨notices, t, left, hfollow, hreturned, hchannel, hearly, hlate, hbegins, ?_⟩
  have hmem : r 2 ∈ t.early ++ t.late := by
    rw [hearly, hlate]
    decide +kernel
  obtain ⟨release, hrelease, -, -, report, -, -, ⟨shown, hmem, hid, -⟩ | ⟨hdedup, -⟩⟩ := hships (r 2) hmem
  · rw [hshown]
    exact ⟨shown, List.mem_flatMap.2 ⟨release, hrelease, hmem⟩, hid⟩
  · cases hdedup

/-- One record in the reader's hands and one in the ring stay behind; and of a record that waits in the channel nothing is
exported, as the deduper has seen its flow on another interface. -/
theorem ring_and_duplicate_stay :
    let r (interface : UInt32) : Record := { id := { interface }, metrics := { packets := 1, bytes := 60 } }
    let x : Surroundings := { interfaces := [], wall := .epoch, monotonic := 5, cpus := 1, objects := fun _ => none }
    let l : Kernel.Loaded :=
      { sampling := 0, trace := false, maps := [], free := [], programs := [], flows := { cpus := 1, capacity := 9 } }
    let behind : List LoopStep := [.spill [(r 3).toOctets, (r 4).toOctets], .forward, .leave, .proceed, .proceed]
    let twice : List LoopStep :=
      [.count ((r 3).id, [(r 3).metrics]), .due, .spill [(r 4).toOctets], .forward, .forward, .leave, .proceed, .proceed,
        .proceed]
    (∃ notices t left, (start {} x l 0).follow behind = ⟨notices, .ok t⟩ ∧ t.stage = .returned left ∧
      left.inFlight = [r 3, r 4] ∧ t.early ++ t.late = [] ∧ exportedFlows notices = []) ∧
    ∃ notices t left, (start { dedup := .firstCome } x l 0).follow twice = ⟨notices, .ok t⟩ ∧ t.stage = .returned left ∧
      left.channel = [r 4] ∧ t.late = [r 4] ∧ exportedFlows notices = [(r 3).entry] := by
  intro r x l behind twice
  constructor
  · have hread : ((start {} x l 0).follow behind).outcome.toOption.bind
        (fun t => t.stage.left?.map fun left => (left.inFlight, t.early ++ t.late)) = some ([r 3, r 4], []) := by
      decide +kernel
    have hexported : exportedFlows ((start {} x l 0).follow behind).notices = [] := by
      decide +kernel
    obtain ⟨notices, t, left, hfollow, hreturned, hends⟩ := exists_returned hread
    obtain ⟨hflight, haccounted⟩ := Prod.mk.inj hends
    rw [hfollow] at hexported
    exact ⟨notices, t, left, hfollow, hreturned, hflight, haccounted, hexported⟩
  · have hread : ((start { dedup := .firstCome } x l 0).follow twice).outcome.toOption.bind
        (fun t => t.stage.left?.map fun left => (left.channel, t.late)) = some ([r 4], [r 4]) := by
      decide +kernel
    have hexported : exportedFlows ((start { dedup := .firstCome } x l 0).follow twice).notices = [(r 3).entry] := by
      decide +kernel
    obtain ⟨notices, t, left, hfollow, hreturned, hends⟩ := exists_returned hread
    obtain ⟨hchannel, hlate⟩ := Prod.mk.inj hends
    rw [hfollow] at hexported
    exact ⟨notices, t, left, hfollow, hreturned, hchannel, hlate, hexported⟩

theorem follow_proceeds : ∀ (records : List Record) {t : LoopRun} {left : Kernel.Forwarder}, t.stage = .draining left →
    t.run.forwarder.channel = records →
    t.follow (List.replicate (records.length + 2) .proceed) = do
      let outlet ← t.run.outlet.accountAll t.run.now records
      let run ← HooksRun.flush { t.run with forwarder := { t.run.forwarder with channel := [] }, outlet }
      return { t with run, stage := .returned left, late := t.late ++ records }
  | [], t, left, hstage, hchannel => by
    have hdrained : t.step .proceed = pure { t with stage := .flushing left } := by
      rw [step, hstage]
      exact if_pos hchannel
    have hsame : ({ t.run with forwarder := { t.run.forwarder with channel := [] } } : HooksRun) = t.run := by
      rw [← hchannel]
    show (t.step .proceed >>= fun t => t.follow [.proceed]) = _
    rw [hdrained, pure_bind, follow, step, bind_assoc, Outlet.accountAll, pure_bind, hsame, List.append_nil]
    rfl
  | r :: rest, t, left, hstage, hchannel => by
    have hnext : t.run.forwarder.receive? = some (r, { t.run.forwarder with channel := rest }) := by
      rw [Kernel.Forwarder.receive?, hchannel]
    have hreceived : t.step .proceed = do
        let outlet ← t.run.outlet.account t.run.now r
        return { t with
          run := { t.run with forwarder := { t.run.forwarder with channel := rest }, outlet }
          late := t.late ++ [r] } := by
      rw [step, hstage]
      simp only [hchannel, List.cons_ne_nil, if_false, receive, HooksRun.receive, hnext, hstage, bind_assoc, pure_bind]
      rfl
    show (t.step .proceed >>= fun t => t.follow (List.replicate (rest.length + 2) .proceed)) = _
    rw [hreceived, bind_assoc, Outlet.accountAll, bind_assoc]
    refine congrArg (_ >>= ·) (funext fun outlet => ?_)
    have hrest := follow_proceeds rest (t := { t with
      run := { t.run with forwarder := { t.run.forwarder with channel := rest }, outlet }
      late := t.late ++ [r] }) hstage rfl
    rw [List.append_assoc] at hrest
    exact hrest

/-- **Leaving the loop with nothing in between is the end of a run.** -/
theorem follow_leave {t : LoopRun} (hstage : t.stage = .looping) :
    t.follow (.leave :: List.replicate (t.run.forwarder.channel.length + 2) .proceed) = do
      let run ← t.run.finish
      return { t with run, stage := .returned t.run.forwarder, late := t.late ++ t.run.forwarder.channel } := by
  have hleft : t.step .leave = do
      Logged.tell [.exiting]
      return { t with stage := .draining t.run.forwarder } := by
    rw [step, hstage]
  rw [follow, hleft, bind_assoc, HooksRun.finish, bind_assoc]
  refine congrArg (_ >>= ·) (funext fun _ => ?_)
  have hproceeds := follow_proceeds t.run.forwarder.channel (t := { t with stage := .draining t.run.forwarder }) rfl rfl
  rw [pure_bind, Kernel.Forwarder.drain, bind_assoc]
  exact hproceeds

end LoopRun
end Agent
end FlowMeter
