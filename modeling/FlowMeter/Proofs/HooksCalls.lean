import FlowMeter.Proofs.HooksSteps
/-!
# The calls of a run on hooks as steps

A launched run is where the steps start, with the settings that it was launched with (`exists_start`), and emptying the map at
once leads where a walk over all of it leads (`leads_flush`), so that all that holds of every succession of steps holds of
them.
-/
namespace FlowMeter

namespace Kernel

namespace Loaded

/-- What the classifiers see of a loaded object. -/
def core (l : Loaded) : UInt32 × Bool × FlowMap := (l.sampling, l.trace, l.flows)

theorem core_takeMap {l l' : Loaded} {name : String} {shape : MapShape} (h : l.takeMap name = some (shape, l')) :
    l'.core = l.core := by
  rw [takeMap] at h
  split at h
  · obtain ⟨_, -, h⟩ := Option.map_eq_some_iff.1 h
    cases h
    rfl
  · cases h

theorem core_attachProgram (l : Loaded) (interfaces : System.Interfaces) (faults : Faults) (interface program : String)
    (hook : Direction) : (l.attachProgram interfaces faults interface program hook).1.core = l.core := by
  unfold attachProgram
  repeat' split
  all_goals rfl

theorem core_attachAll (interfaces : System.Interfaces) (faults : Faults) (interface : String) :
    ∀ (programs : List (String × Direction)) (l : Loaded), (l.attachAll interfaces faults interface programs).1.core = l.core
  | [], l => rfl
  | (program, hook) :: rest, l => by
    have hfirst := core_attachProgram l interfaces faults interface program hook
    rw [attachAll]
    split
    · rename_i l₁ heq
      rw [heq] at hfirst
      exact (core_attachAll interfaces faults interface rest l₁).trans hfirst
    · rename_i l₁ e heq
      rw [heq] at hfirst
      exact hfirst

namespace Call

/-- The call leaves alone what the classifiers see. -/
def Spares (a : Call) : Prop := ∀ l, (a l).1.core = l.core

theorem Spares.andThen {a b : Call} (ha : a.Spares) (hb : b.Spares) : (a.andThen b).Spares := fun l => by
  have hl := ha l
  rcases hcall : a l with ⟨l₁, notices, e | _⟩ <;> rw [hcall] at hl
  · simpa only [Call.andThen, hcall] using hl
  · simpa only [Call.andThen, hcall] using (hb l₁).trans hl

end Call

theorem core_ofFile {path : String} {file : Option ObjectFile} {settings : MeterSettings} {cpus : Nat} {l : Loaded}
    (h : ofFile path file settings cpus = .ok l) :
    l.core = (settings.sampling, settings.trace, { cpus, capacity := settings.capacity.toNat }) := by
  cases file with
  | none => cases h
  | some f =>
    unfold ofFile at h
    cases hmissing : missing? f with
    | some name => simp [hmissing] at h
    | none =>
      simp only [hmissing] at h
      cases h
      rfl

theorem spares_takeFlows : takeFlows.Spares := fun l => by
  rw [takeFlows]
  cases htake : l.takeMap flowsName with
  | none => rfl
  | some taken => exact core_takeMap htake

theorem spares_takeKind (name : String) (kind : Nat) : (takeKind name kind).Spares := fun l => by
  rw [takeKind]
  cases htake : l.takeMap name with
  | none => rfl
  | some taken => exact core_takeMap htake

theorem spares_attach (interfaces : System.Interfaces) (faults : Faults) (interface : String) (hooks : Hooks) :
    (attach interfaces faults interface hooks).Spares := fun l =>
  core_attachAll interfaces faults interface hooks.programs l

end Loaded

theorem FlowMap.evict_all (m : FlowMap) : m.evict {} = (m.emptied, pure (Flow.splitRows m.entries)) := by
  have hkept : m.rows.filter (fun _ _ => false) = ∅ := Table.ext (List.filter_eq_nil_iff.2 fun _ _ h => nomatch h)
  rw [evict, if_pos (show m.walks {} = true from rfl)]
  simp only [hkept]
  rfl

end Kernel

namespace Agent

open Kernel (Loaded)

theorem Run.spares_prepare (x : Surroundings) (interface : String) (hooks : Kernel.Hooks) :
    (prepare x interface hooks).Spares := by
  have hsamples : (if hooks.samples then Loaded.takeSamples else Loaded.Call.nothing).Spares := by
    split
    · exact Loaded.spares_takeKind _ _
    · exact fun l => rfl
  exact ((Loaded.spares_takeFlows.andThen (Loaded.spares_attach _ _ _ _)).andThen (Loaded.spares_takeKind _ _)).andThen hsamples

theorem HooksRun.flush_eq {a : HooksRun} (hfaults : a.faults = {}) :
    a.flush = do
      let outlet ← a.outlet.evict a.now (Flow.splitRows a.loaded.flows.entries)
      return { a with loaded := { a.loaded with flows := a.loaded.flows.emptied }, outlet } := by
  rw [flush, empty, hfaults, Kernel.Loaded.evict, Kernel.FlowMap.evict_all]
  rfl

namespace HooksSystem

/-- **A launched run is where the steps start, with the settings that it was launched with.** -/
theorem exists_start {s : Settings} {x : Surroundings} {interface object : String} {hooks : Kernel.Hooks} {r : Run}
    (slots : Nat) (draws : List UInt32) (h : (Run.launchHooks s x interface object hooks).run.outcome = .ok r) :
    ∃ l buffers, r = .hooks (start s x l buffers slots draws).run ∧
      l.core = (s.meter.sampling, s.meter.trace, { cpus := x.cpus, capacity := s.meter.capacity.toNat }) := by
  rw [Run.launchHooks] at h
  simp only at h
  cases hfile : Loaded.ofFile object (x.objects object) s.meter x.cpus with
  | error e =>
    rw [hfile] at h
    obtain ⟨_, -, h⟩ := Logged.andThen_eq_ok_iff.1 h
    cases h
  | ok l =>
    rw [hfile] at h
    have hcore := (Run.spares_prepare x interface hooks l).trans (Loaded.core_ofFile hfile)
    obtain ⟨_, -, h⟩ := Logged.andThen_eq_ok_iff.1 h
    obtain ⟨_, -, h⟩ := Logged.andThen_eq_ok_iff.1 h
    obtain ⟨buffers, rfl⟩ : ∃ buffers, r = .hooks
        { loaded := (Run.prepare x interface hooks l).1, faults := x.readFaults, buffers, timetable := Run.timetable s x
          now := x.monotonic, forwarder := Kernel.Forwarder.ofRoom s.overflowSlots, outlet := Run.outlet s x } := by
      split at h
      · obtain ⟨_, -, h⟩ := Logged.andThen_eq_ok_iff.1 h
        obtain ⟨_, -, h⟩ := Logged.andThen_eq_ok_iff.1 h
        exact ⟨_, (Except.ok.inj h).symm⟩
      · obtain ⟨_, -, h⟩ := Logged.andThen_eq_ok_iff.1 h
        exact ⟨_, (Except.ok.inj h).symm⟩
    refine ⟨(Run.prepare x interface hooks l).1, buffers, ?_, hcore⟩
    have hflows : (Run.prepare x interface hooks l).1.flows.emptied = (Run.prepare x interface hooks l).1.flows := by
      rw [show (Run.prepare x interface hooks l).1.flows = _ from congrArg (fun c => c.2.2) hcore]
      rfl
    rw [start, hflows]

/-- Some admitted steps lead from one point of a run to another, with these notices. -/
def Leads (t : HooksSystem) (ns : List Notice) (t' : HooksSystem) : Prop :=
  ∃ choices, t.AdmitsAll choices ∧ t.follow choices = ⟨ns, .ok t'⟩

variable {t t' t'' : HooksSystem} {ns ns' : List Notice}

theorem Leads.refl : Leads t [] t := ⟨[], trivial, rfl⟩

theorem Leads.cons {c : Choice} (hc : t.Admits c) (h : t.step c = ⟨ns, .ok t'⟩) (hleads : Leads t' ns' t'') :
    Leads t (ns ++ ns') t'' := by
  obtain ⟨choices, hadmits, hfollow⟩ := hleads
  refine ⟨c :: choices, ⟨hc, fun t₁ h₁ => ?_⟩, by rw [follow, h, Logged.ok_bind, hfollow]⟩
  rw [h] at h₁
  exact Except.ok.inj h₁ ▸ hadmits

theorem leads_reading : ∀ (left gone : List Row) {t : HooksSystem}, t.walk = .reading gone →
    (∀ e ∈ left, t.run.loaded.flows.rows.get? e.1 = some e.2) → ((gone ++ left).map Prod.fst).Nodup →
    (∀ id, t.Admits (.read id)) → Leads { t with walk := .reading (gone ++ left) } ns t' → Leads t ns t'
  | [], gone, t, hwalk, _, _, _, hleads => by
    rwa [List.append_nil, ← hwalk] at hleads
  | row :: left, gone, t, hwalk, hrows, hdistinct, hadmits, hleads => by
    have hrow := hrows row List.mem_cons_self
    have hnew : row.1 ∉ gone.map Prod.fst := by
      rw [List.map_append, List.nodup_append] at hdistinct
      exact fun hmem => hdistinct.2.2 _ hmem _ List.mem_cons_self rfl
    have hstep : t.step (.read row.1) = ⟨[], .ok { t with walk := .reading (gone ++ [row]) }⟩ := by
      simp only [step, read, hwalk, hrow, if_neg hnew]
      rfl
    rw [← List.singleton_append, ← List.append_assoc] at hdistinct hleads
    exact .cons (hadmits row.1) hstep
      (leads_reading left (gone ++ [row]) rfl (fun e he => hrows e (List.mem_cons_of_mem _ he)) hdistinct hadmits hleads)

theorem leads_removing {f : (Flow.Id → Nat → Nat) → HooksSystem} : ∀ (left gone : List Row) {t : HooksSystem},
    t.walk = .removing gone left → t.run.loaded.flows.entries = left →
    (∀ tally, Leads { t with run := withFlows t.run t.run.loaded.flows.emptied, walk := .removing (gone ++ left) [], tally } ns
      (f tally)) →
    ∃ tally, Leads t ns (f tally)
  | [], gone, t, hwalk, hentries, hleads => by
    have hempty : t.run.loaded.flows.emptied = t.run.loaded.flows := by
      rw [Kernel.FlowMap.emptied, show (∅ : Table _ _) = t.run.loaded.flows.rows from Table.ext hentries.symm]
    refine ⟨t.tally, ?_⟩
    have hrest := hleads t.tally
    rw [List.append_nil, hempty, ← hwalk] at hrest
    exact hrest
  | row :: left, gone, t, hwalk, hentries, hleads => by
    have hdistinct : row.1 ∉ left.map Prod.fst := by
      have := t.run.loaded.flows.rows.distinct
      rw [show t.run.loaded.flows.rows.entries = row :: left from hentries] at this
      exact (List.nodup_cons.1 this).1
    have hentries' : (t.run.loaded.flows.delete row.1).entries = left := by
      show t.run.loaded.flows.rows.entries.filter _ = left
      rw [show t.run.loaded.flows.rows.entries = row :: left from hentries, List.filter_cons_of_neg (by simp)]
      refine List.filter_eq_self.2 fun e he => ?_
      have hne : e.1 ≠ row.1 := fun heq => hdistinct (heq ▸ List.mem_map_of_mem he)
      simpa using hne
    have hstep : t.step .proceed = ⟨[], .ok
        { t with
          run := withFlows t.run (t.run.loaded.flows.delete row.1)
          walk := .removing (gone ++ [row]) left
          tally := fun id cpu => if id = row.1 then 0 else t.tally id cpu }⟩ := by
      simp only [step, proceed, hwalk]
      rfl
    obtain ⟨tally, hrest⟩ := leads_removing left (gone ++ [row]) (t :=
      { t with
        run := withFlows t.run (t.run.loaded.flows.delete row.1)
        walk := .removing (gone ++ [row]) left
        tally := fun id cpu => if id = row.1 then 0 else t.tally id cpu }) rfl hentries' fun tally => by
      rw [List.append_assoc]
      exact hleads tally
    exact ⟨tally, .cons (c := .proceed) trivial hstep hrest⟩

/-- **Emptying the map at once leads where the steps of a walk over all of it lead.** -/
theorem leads_flush (hwalk : t.walk = .resting) (hfaults : t.run.faults = {}) (hadmits : ∀ id, t.Admits (.read id))
    {a : HooksRun} (hflush : t.run.flush = ⟨ns, .ok a⟩) : ∃ tally, Leads t ns { t with run := a, tally } := by
  rw [HooksRun.flush_eq hfaults] at hflush
  rcases hevict : t.run.outlet.evict t.run.now (Flow.splitRows t.run.loaded.flows.entries) with ⟨notices, e | outlet⟩
  · rw [hevict] at hflush
    cases hflush
  · rw [hevict] at hflush
    cases hflush
    have hrows : ∀ e ∈ t.run.loaded.flows.entries, t.run.loaded.flows.rows.get? e.1 = some e.2 := fun e he =>
      (Table.get?_eq_some_iff ..).2 he
    have hstart : t.step .walk = ⟨[], .ok { t with walk := .reading [] }⟩ := by
      simp only [step, hwalk, if_true]
      rfl
    have hturn : step { t with walk := .reading t.run.loaded.flows.entries } .proceed =
        ⟨[], .ok { t with walk := .removing [] t.run.loaded.flows.entries }⟩ := rfl
    have hend : ∀ tally, step
        { t with
          run := withFlows t.run t.run.loaded.flows.emptied
          walk := .removing t.run.loaded.flows.entries []
          tally } .proceed =
        ⟨notices ++ [], .ok
          { t with
            run := { withFlows t.run t.run.loaded.flows.emptied with outlet }
            walk := .resting
            tally }⟩ := fun tally => by
      simp only [step, proceed, withFlows, hevict]
      rfl
    obtain ⟨tally, hremoved⟩ := leads_removing (t := { t with walk := .removing [] t.run.loaded.flows.entries })
      t.run.loaded.flows.entries [] rfl rfl fun tally => .cons (c := .proceed) trivial (hend tally) .refl
    have hread := leads_reading (t := { t with walk := .reading [] }) t.run.loaded.flows.entries [] rfl hrows
      t.run.loaded.flows.rows.distinct hadmits (.cons (c := .proceed) trivial hturn hremoved)
    have hleads := Leads.cons (c := .walk) trivial hstart hread
    simp only [List.append_nil, List.nil_append] at hleads
    refine ⟨tally, ?_⟩
    rw [hwalk]
    show Leads t (notices ++ []) _
    rw [List.append_nil]
    exact hleads

end HooksSystem
end Agent
end FlowMeter
