import FlowMeter.CommandLine.AgentOptions
import FlowMeter.Proofs.Releases
/-!
# Times that do not fit

Two sums of times depend on the options of a run: two periods, which are computed even when nobody asks for them
(`CommandLine.AgentOptions.settingsOf_eq_error_iff`), and the time at which the owner of a flow expires, which is computed with
each report that comes to the deduper.  `Export.Ends` says how a call of the exporter ends, and a run fails with the first call
that does.
-/
namespace FlowMeter

theorem Duration.twice_ofSecs (n : UInt64) :
    (ofSecs n).twice = if n.toNat < 2 ^ 63 then .ok (ofSecs (2 * n)) else .error .scaled := by
  have hnanos : 2 * (ofSecs n).toNanos = 2 * n.toNat * second := by
    show 2 * (n.toNat * second + 0) = _
    rw [Nat.add_zero, Nat.mul_assoc]
  have htotal : 2 * n.toNat * second / second = 2 * n.toNat := Nat.mul_div_cancel _ (by decide)
  unfold twice
  simp only [hnanos, htotal]
  by_cases hn : n.toNat < 2 ^ 63
  · have hfits : 2 * n.toNat < UInt64.size := by
      unfold UInt64.size
      omega
    have hsecs : UInt64.ofNat (2 * n.toNat) = 2 * n := by
      rw [← UInt64.toNat_inj, UInt64.toNat_ofNat_of_lt' hfits, UInt64.toNat_mul]
      exact (Nat.mod_eq_of_lt hfits).symm
    have hrest : Fin.ofNat second (2 * n.toNat * second) = 0 := Fin.ext (Nat.mul_mod_left _ _)
    rw [if_pos hn, if_pos hfits, hsecs, hrest]
    rfl
  · have hlarge : ¬ 2 * n.toNat < UInt64.size := by
      unfold UInt64.size
      omega
    rw [if_neg hn, if_neg hlarge]

/-- **The seconds of an instant have 63 bits.** -/
theorem Instant.later_eq (i : Instant) (d : Duration) :
    i.later d = if i.nanos + d.toNanos < 2 ^ 63 * second then .ok ⟨i.nanos + d.toNanos⟩ else .error .instant := by
  have hmax : Int64.maxValue.toInt = 2 ^ 63 - 1 := rfl
  have hfits : ((i.nanos + d.toNanos) / second : Nat) ≤ Int64.maxValue.toInt ↔ i.nanos + d.toNanos < 2 ^ 63 * second := by
    rw [hmax]
    simp only [second]
    omega
  unfold later
  simp only [hfits]

theorem WallTime.eq_wallTime_of_later {t : WallTime} {d : Duration} {e : TimeFault} (h : t.later d = .error e) :
    e = .wallTime := by
  unfold later at h
  simp only at h
  split at h
  · cases h
  · exact (Except.error.inj h).symm

namespace CommandLine.AgentOptions

/-- Seconds between two evictions. -/
def period (p : Parsed) : UInt64 := UInt64.ofNat (p.numberD "cache-active-timeout" 64 5)

/-- Seconds for which an owner is remembered, if the options say so. -/
def expiry? (p : Parsed) : Option UInt64 := ((p.value? "deduper-fc-expiry").bind (number? 64)).map UInt64.ofNat

theorem settingsOf_eq_ok (p : Parsed) (h : (period p).toNat < 2 ^ 63) :
    ∃ s, settingsOf p = .ok s ∧ s.evictEvery = .ofSecs (period p) ∧
      s.dedupExpiry = .ofSecs ((expiry? p).getD (2 * period p)) := by
  have htwice : (Duration.ofSecs (period p)).twice = .ok (.ofSecs (2 * period p)) := by
    rw [Duration.twice_ofSecs, if_pos h]
  unfold settingsOf
  refine ⟨_, congrArg (Except.bind · _) htwice, rfl, ?_⟩
  unfold expiry?
  cases (p.value? "deduper-fc-expiry").bind (number? 64) <;> rfl

theorem settingsOf_eq_error (p : Parsed) (h : ¬ (period p).toNat < 2 ^ 63) : settingsOf p = .error .scaled := by
  have htwice : (Duration.ofSecs (period p)).twice = .error .scaled := by
    rw [Duration.twice_ofSecs, if_neg h]
  unfold settingsOf
  exact congrArg (Except.bind · _) htwice

/-- **Two periods have to be a duration, also if the options say how long owners are remembered.** -/
theorem settingsOf_eq_error_iff (p : Parsed) : settingsOf p = .error .scaled ↔ 2 ^ 63 ≤ (period p).toNat := by
  rw [← Nat.not_lt]
  refine ⟨fun he h => ?_, settingsOf_eq_error p⟩
  obtain ⟨s, hs, -⟩ := settingsOf_eq_ok p h
  cases hs.symm.trans he

theorem settingsOf_eq_ok_iff (p : Parsed) :
    (∃ s, settingsOf p = .ok s ∧ s.evictEvery = .ofSecs (period p) ∧
        s.dedupExpiry = .ofSecs ((expiry? p).getD (2 * period p))) ↔ (period p).toNat < 2 ^ 63 := by
  refine ⟨fun ⟨s, hs, _⟩ => ?_, settingsOf_eq_ok p⟩
  by_contra h
  cases hs.symm.trans (settingsOf_eq_error p h)

end CommandLine.AgentOptions

open FlowMeter.Flow (AllDatable)

namespace Export

theorem Report.ofFlow_eq_error {boot : WallTime} {m : Flow.Metrics} (hm : ¬ m.Datable boot) (interface : String)
    (id : Flow.Id) : ofFlow boot interface id m = .error .wallTime := by
  unfold ofFlow
  cases hstart : boot.ofMonotonic m.start with
  | error e =>
    rw [WallTime.eq_wallTime_of_later hstart]
    rfl
  | ok start =>
    cases hstop : boot.ofMonotonic m.stop with
    | error e =>
      rw [WallTime.eq_wallTime_of_later hstop]
      rfl
    | ok stop => exact absurd ⟨⟨start, hstart⟩, ⟨stop, hstop⟩⟩ hm

theorem mapM_ofFlow_eq_error (place : Place) : ∀ s : Flow.Snapshot, ¬ AllDatable place.boot s →
    (s.mapM fun (id, m) => Report.ofFlow place.boot (place.name id.interface) id m) = .error .wallTime
  | [], h => absurd (fun e he => by cases he) h
  | (id, m) :: s, h => by
    rw [List.mapM_cons]
    show (Report.ofFlow place.boot (place.name id.interface) id m >>= _) = _
    by_cases hm : m.Datable place.boot
    · obtain ⟨r, hr, -⟩ := Report.ofFlow_datable hm (place.name id.interface) id
      have hrest : ¬ AllDatable place.boot s := fun hs => h fun e he => by
        rcases List.mem_cons.1 he with rfl | he
        · exact hm
        · exact hs e he
      rw [hr, mapM_ofFlow_eq_error place s hrest]
      rfl
    · rw [Report.ofFlow_eq_error hm]
      rfl

namespace Backlog

variable {b : Backlog} {place : Place} {snapshot : Flow.Merged}

/-- The flows that a call is to let out. -/
def leaving (b : Backlog) : BacklogStep → Flow.Snapshot
  | .account r => if (b.add r).full then ((b.add r).combined ∅).entries else []
  | .evict snapshot => (b.combined snapshot).entries

theorem evict_eq_error (h : ¬ AllDatable place.boot (b.combined snapshot).entries) :
    b.evict place snapshot = .error .wallTime := by
  rw [evict, reports, mapM_ofFlow_eq_error place _ h]
  rfl

end Backlog

namespace Dedup

variable {d : Dedup} {now : Instant}

theorem see_eq_error {e : TimeFault} (h : now.later d.expiry = .error e) (id : Flow.Id) : d.see now id = .error e := by
  rw [see, h]
  rfl

theorem see_eq_ok {expires : Instant} (h : now.later d.expiry = .ok expires) (id : Flow.Id) :
    ∃ d', d.see now id = .ok d' ∧ d'.expiry = d.expiry := by
  rw [see, h]
  exact ⟨_, rfl, rfl⟩

theorem passAll_eq_error {e : TimeFault} (h : now.later d.expiry = .error e) (r : Report) (rest : List Report) :
    passAll now d (r :: rest) = .error e := by
  rw [passAll, see_eq_error h]
  rfl

/-- **One time is as good as any for all reports of a batch.** -/
theorem passAll_eq_ok {expires : Instant} (h : now.later d.expiry = .ok expires) (reports : List Report) :
    ∃ d' kept, passAll now d reports = .ok (d', kept) ∧ d'.expiry = d.expiry := by
  induction reports generalizing d with
  | nil => exact ⟨d, [], rfl, rfl⟩
  | cons r rest ih =>
    obtain ⟨d₁, hsee, hexpiry₁⟩ := see_eq_ok h r.id
    obtain ⟨d', kept, hrest, hexpiry⟩ := ih (hexpiry₁ ▸ h)
    refine ⟨d', (d₁.keep? r (d₁.isDuplicate r.id)).toList ++ kept, ?_, hexpiry.trans hexpiry₁⟩
    rw [passAll, hsee]
    show (passAll now d₁ rest >>= _) = _
    rw [hrest]
    rfl

end Dedup

/-- An owner that is seen now is to be remembered beyond the last instant. -/
def Outlasts (expiry? : Option Duration) (now : Instant) : Prop :=
  ∃ expiry, expiry? = some expiry ∧ 2 ^ 63 * second ≤ now.nanos + expiry.toNanos

/-- How a call ends that is to let these flows out. -/
inductive Ends (expiry? : Option Duration) (place : Place) (now : Instant) (flows : Flow.Snapshot) :
    Except TimeFault (Exporter × List Report) → Prop where
  | undated (h : ¬ AllDatable place.boot flows) : Ends expiry? place now flows (.error .wallTime)
  | outlasted (hdated : AllDatable place.boot flows) (hflows : flows ≠ []) (h : Outlasts expiry? now) :
      Ends expiry? place now flows (.error .instant)
  | out (hdated : AllDatable place.boot flows) (h : flows = [] ∨ ¬ Outlasts expiry? now) {x : Exporter} {kept : List Report}
      (hsame : x.dedup.map Dedup.expiry = expiry?) : Ends expiry? place now flows (.ok (x, kept))

namespace Exporter

/-- How long owners are remembered, if there is a deduper. -/
def expiry? (x : Exporter) : Option Duration := x.dedup.map Dedup.expiry

/-- One call, at the time that the clock shows. -/
def call (x : Exporter) (place : Place) (now : Instant) : BacklogStep → Logged TimeFault (Exporter × List Report)
  | .account r => x.account place now r
  | .evict snapshot => x.evict place now snapshot

def follow (x : Exporter) (place : Place) : List (Instant × BacklogStep) → Logged TimeFault Exporter
  | [] => pure x
  | (now, step) :: rest => do
    let (x, _) ← x.call place now step
    x.follow place rest

variable {x x' : Exporter} {place : Place} {now : Instant}

theorem outcome_release {d : Dedup} (hd : x.dedup = some d) (now : Instant) (reports : List Report) :
    (x.release now reports).outcome =
      (Dedup.passAll now (d.sweep now) reports).map fun out => ({ x with dedup := some out.1 }, out.2) := by
  rw [release_of_dedup hd]
  show (Logged.andThen (d.passLogged now reports) _).outcome = _
  have hpass : (d.passLogged now reports).outcome = Dedup.passAll now (d.sweep now) reports := rfl
  unfold Logged.andThen
  rw [← hpass]
  cases (d.passLogged now reports).outcome <;> rfl

/-- **Reports fail if and only if they meet a deduper that cannot say when their owners expire.** -/
theorem ends_release (x : Exporter) (now : Instant) {flows : Flow.Snapshot} (hdated : AllDatable place.boot flows)
    {reports : List Report} (hreports : reports.map (fun r => (r.id, r.metrics)) = flows) :
    Ends x.expiry? place now flows (x.release now reports).outcome := by
  cases hd : x.dedup with
  | none =>
    have hfits : ¬ Outlasts x.expiry? now := by
      rintro ⟨expiry, hexpiry, -⟩
      rw [expiry?, hd] at hexpiry
      cases hexpiry
    obtain ⟨backlog, dedup⟩ := x
    obtain rfl : dedup = none := hd
    rw [release_plain]
    exact .out hdated (.inr hfits) rfl
  | some d =>
    have hexpiry : x.expiry? = some d.expiry := congrArg (Option.map Dedup.expiry) hd
    rw [outcome_release hd]
    by_cases hfits : now.nanos + d.expiry.toNanos < 2 ^ 63 * second
    · have hlater : now.later (d.sweep now).expiry = .ok ⟨now.nanos + d.expiry.toNanos⟩ :=
        (Instant.later_eq ..).trans (if_pos hfits)
      obtain ⟨d', kept, hpass, hsame⟩ := Dedup.passAll_eq_ok hlater reports
      rw [hpass]
      refine .out hdated (.inr ?_) ((congrArg some hsame).trans hexpiry.symm)
      rintro ⟨expiry, hexpiry', hle⟩
      obtain rfl := Option.some.inj (hexpiry.symm.trans hexpiry')
      omega
    · have hlater : now.later (d.sweep now).expiry = .error .instant := (Instant.later_eq ..).trans (if_neg hfits)
      cases reports with
      | nil => exact .out hdated (.inl hreports.symm) hexpiry.symm
      | cons r rest =>
        rw [Dedup.passAll_eq_error hlater]
        refine .outlasted hdated ?_ ⟨d.expiry, hexpiry, Nat.not_lt.1 hfits⟩
        rw [← hreports]
        exact List.cons_ne_nil _ _

theorem ends_evict_release (x : Exporter) (place : Place) (now : Instant) (b : Backlog) (snapshot : Flow.Merged) :
    Ends x.expiry? place now (b.combined snapshot).entries
      (Logged.andThen (Logged.ofExcept (b.evict place snapshot)) fun out =>
        release { x with backlog := out.1 } now out.2).outcome := by
  by_cases hdated : AllDatable place.boot (b.combined snapshot).entries
  · obtain ⟨reports, hevict, hreports⟩ := Backlog.evict_eq_ok hdated
    rw [hevict]
    exact ends_release { x with backlog := b.emptied } now hdated hreports
  · rw [Backlog.evict_eq_error hdated]
    exact .undated hdated

/-- **What a call comes to.** -/
theorem ends_call (x : Exporter) (place : Place) (now : Instant) (step : BacklogStep) :
    Ends x.expiry? place now (x.backlog.leaving step) (x.call place now step).outcome := by
  cases step with
  | evict snapshot => exact x.ends_evict_release place now x.backlog snapshot
  | account r =>
    unfold call account Backlog.account Backlog.leaving
    by_cases hfull : (x.backlog.add r).full
    · have h := x.ends_evict_release place now (x.backlog.add r) ∅
      simp only [hfull, if_true]
      -- the notice that the backlog is full comes first, and changes nothing
      generalize (x.backlog.add r).evict place ∅ = evicted at h ⊢
      cases evicted <;> exact h
    · simp only [hfull, Bool.false_eq_true, if_false]
      exact .out (fun e he => by cases he) (.inl rfl) rfl

theorem expiry?_of_call {kept : List Report} {step : BacklogStep} (h : (x.call place now step).outcome = .ok (x', kept)) :
    x'.expiry? = x.expiry? := by
  have hends := x.ends_call place now step
  rw [h] at hends
  cases hends with
  | out _ _ hsame => exact hsame

/-- **When the expiry of an owner cannot be told.** -/
theorem call_eq_instant_iff {step : BacklogStep} :
    (x.call place now step).outcome = .error .instant ↔
      AllDatable place.boot (x.backlog.leaving step) ∧ x.backlog.leaving step ≠ [] ∧ Outlasts x.expiry? now := by
  have hends := x.ends_call place now step
  constructor
  · intro h
    rw [h] at hends
    cases hends with
    | outlasted hdated hflows hlast => exact ⟨hdated, hflows, hlast⟩
  · rintro ⟨hdated, hflows, hlast⟩
    generalize (x.call place now step).outcome = outcome at hends ⊢
    cases hends with
    | undated h => exact absurd hdated h
    | outlasted => rfl
    | out _ h => exact absurd h (not_or.2 ⟨hflows, not_not.2 hlast⟩)

theorem follow_cons (x : Exporter) (place : Place) (now : Instant) (step : BacklogStep) (rest : List (Instant × BacklogStep)) :
    x.follow place ((now, step) :: rest) = (x.call place now step).andThen fun out => out.1.follow place rest := rfl

/-- **A run fails with the call that fails.** -/
theorem follow_eq_error_iff (place : Place) (e : TimeFault) (calls : List (Instant × BacklogStep)) (x : Exporter) :
    (x.follow place calls).outcome = .error e ↔
      ∃ before now step after x', calls = before ++ (now, step) :: after ∧ (x.follow place before).outcome = .ok x' ∧
        (x'.call place now step).outcome = .error e := by
  induction calls generalizing x with
  | nil =>
    constructor
    · intro h
      cases h
    · rintro ⟨before, now, step, after, x', h, -⟩
      cases before <;> cases h
  | cons c rest ih =>
    obtain ⟨now, step⟩ := c
    rw [follow_cons, Logged.andThen_eq_error_iff]
    constructor
    · rintro (h | ⟨⟨x₁, kept⟩, hcall, hrest⟩)
      · exact ⟨[], now, step, rest, x, rfl, rfl, h⟩
      · obtain ⟨before, now', step', after, x', rfl, hbefore, hfails⟩ := (ih x₁).1 hrest
        refine ⟨(now, step) :: before, now', step', after, x', rfl, ?_, hfails⟩
        rw [follow_cons, Logged.andThen_eq_ok_iff]
        exact ⟨_, hcall, hbefore⟩
    · rintro ⟨before, now', step', after, x', hcalls, hbefore, hfails⟩
      cases before with
      | nil =>
        cases hcalls
        cases hbefore
        exact .inl hfails
      | cons c before =>
        cases hcalls
        rw [follow_cons, Logged.andThen_eq_ok_iff] at hbefore
        obtain ⟨⟨x₁, kept⟩, hcall, hbefore⟩ := hbefore
        exact .inr ⟨_, hcall, (ih x₁).2 ⟨before, now', step', after, x', rfl, hbefore, hfails⟩⟩

theorem expiry?_of_follow (place : Place) (calls : List (Instant × BacklogStep)) {x x' : Exporter}
    (h : (x.follow place calls).outcome = .ok x') : x'.expiry? = x.expiry? := by
  induction calls generalizing x with
  | nil =>
    cases h
    rfl
  | cons c rest ih =>
    rw [follow_cons, Logged.andThen_eq_ok_iff] at h
    obtain ⟨⟨x₁, kept⟩, hcall, hrest⟩ := h
    exact (ih hrest).trans (expiry?_of_call hcall)

theorem outlasts_ofSettings_iff (s : Settings) (now : Instant) :
    Outlasts (ofSettings s).expiry? now ↔
      s.dedup = .firstCome ∧ 2 ^ 63 * second ≤ now.nanos + s.dedupExpiry.toNanos := by
  unfold Outlasts expiry? ofSettings
  cases s.dedup with
  | off => simp
  | firstCome => simp

/-- **When the owners of a run cannot be remembered for as long as its settings say.** -/
theorem follow_eq_instant_iff (s : Settings) (place : Place) (calls : List (Instant × BacklogStep)) :
    ((ofSettings s).follow place calls).outcome = .error .instant ↔
      s.dedup = .firstCome ∧ ∃ before now step after x, calls = before ++ (now, step) :: after ∧
        ((ofSettings s).follow place before).outcome = .ok x ∧ AllDatable place.boot (x.backlog.leaving step) ∧
        x.backlog.leaving step ≠ [] ∧ 2 ^ 63 * second ≤ now.nanos + s.dedupExpiry.toNanos := by
  rw [follow_eq_error_iff]
  constructor
  · rintro ⟨before, now, step, after, x, hcalls, hbefore, hfails⟩
    obtain ⟨hdated, hleaving, hlast⟩ := call_eq_instant_iff.1 hfails
    rw [expiry?_of_follow place before hbefore, outlasts_ofSettings_iff] at hlast
    exact ⟨hlast.1, before, now, step, after, x, hcalls, hbefore, hdated, hleaving, hlast.2⟩
  · rintro ⟨hdedup, before, now, step, after, x, hcalls, hbefore, hdated, hleaving, hlast⟩
    refine ⟨before, now, step, after, x, hcalls, hbefore, call_eq_instant_iff.2 ⟨hdated, hleaving, ?_⟩⟩
    rw [expiry?_of_follow place before hbefore, outlasts_ofSettings_iff]
    exact ⟨hdedup, hlast⟩

end Exporter
end Export

open CommandLine (Parsed AgentOptions)
open Export (Place BacklogStep Exporter)

/-- **The times that do not fit.**  Options come to settings just if two of their periods are a duration, whether or not they say
how long an owner is remembered.  In a run, the expiry of an owner cannot be told just if there is a deduper and some call that
lets a flow out comes so late that the expiry takes the clock beyond its last second; settings that make sense do not prevent
it. -/
theorem time_faults_exact (p : Parsed) (s : Settings) (place : Place) (calls : List (Instant × BacklogStep)) :
    ((∃ s, AgentOptions.settingsOf p = .ok s ∧ s.evictEvery = .ofSecs (AgentOptions.period p) ∧
        s.dedupExpiry = .ofSecs ((AgentOptions.expiry? p).getD (2 * AgentOptions.period p))) ↔
      (AgentOptions.period p).toNat < 2 ^ 63) ∧
    (AgentOptions.settingsOf p = .error .scaled ↔ 2 ^ 63 ≤ (AgentOptions.period p).toNat) ∧
    (((Exporter.ofSettings s).follow place calls).outcome = .error .instant ↔
      s.dedup = .firstCome ∧ ∃ before now step after x, calls = before ++ (now, step) :: after ∧
        ((Exporter.ofSettings s).follow place before).outcome = .ok x ∧ AllDatable place.boot (x.backlog.leaving step) ∧
        x.backlog.leaving step ≠ [] ∧ 2 ^ 63 * second ≤ now.nanos + s.dedupExpiry.toNanos) :=
  ⟨AgentOptions.settingsOf_eq_ok_iff p, AgentOptions.settingsOf_eq_error_iff p, Exporter.follow_eq_instant_iff s place calls⟩

/-- Options that say how long owners are remembered, and still have no settings; and settings that make sense, with which the
first flow that is let out ends the run. -/
theorem accepted_options_fault :
    let words := ["socket", "--cache-active-timeout=9223372036854775808", "--deduper-fc-expiry=3"]
    let s : Settings := { dedup := .firstCome, dedupExpiry := .ofSecs 18446744073709551615 }
    let flows : Flow.Merged := (∅ : Flow.Merged).add {} { packets := 1 }
    (AgentOptions.grammar.parse (fun _ => none) words).toOption.map AgentOptions.settingsOf = some (.error .scaled) ∧
      s.invalid? = none ∧
      ((Exporter.ofSettings s).follow { name := toString, boot := .epoch } [(⟨0⟩, .evict flows)]).outcome =
        .error .instant := by
  refine ⟨?_, ?_, ?_⟩
  · decide +kernel
  · decide
  · rfl

end FlowMeter
