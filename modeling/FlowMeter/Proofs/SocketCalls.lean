import FlowMeter.Proofs.SocketProgress
/-!
# The calls of a socket run as steps

What a launched run does at once when the shards are due, or at its end, it can also do step by step: `SocketRun.due` and
`SocketRun.finish` lead where a succession of steps leads (`leads_due`, `leads_finish`), so that all that holds of every
succession holds of them.
-/
namespace FlowMeter.Agent.SocketSystem

open Pool (Worker Shared)

/-- The run with other workers, and with what they share. -/
def withWorkers (a : SocketRun) (workers : List Worker) (shared : Shared) : SocketRun :=
  { a with pool := { a.pool with workers, shared } }

/-- What a worker does can be done in steps. -/
def InSteps (boot : WallTime) (act : Worker → Shared → Worker × Shared) : Prop :=
  ∀ (t : SocketSystem) (i : Nat) (w : Worker), t.run.pool.workers[i]? = some w →
    ∃ t', Leads boot t [] t' ∧ t'.stage = t.stage ∧
      t'.run = withWorkers t.run (t.run.pool.workers.set i (act w t.run.pool.shared).1) (act w t.run.pool.shared).2

variable {boot : WallTime} {t : SocketSystem}

theorem inSteps_work : InSteps boot Worker.work := fun t i w hw =>
  ⟨t.act Worker.work Worker.outcomesOfWork i, .step (c := .work i) trivial rfl, by
    simp only [act, hw]
    exact ⟨rfl, by simp only [withPool, Pool.actAt, hw]; rfl⟩⟩

theorem inSteps_resume : InSteps boot Worker.resume := fun t i w hw =>
  ⟨t.act Worker.resume Worker.outcomesOfResume i, .step (c := .resume i) trivial rfl, by
    simp only [act, hw]
    exact ⟨rfl, by simp only [withPool, Pool.actAt, hw]; rfl⟩⟩

theorem inSteps_repeat (n : Nat) : InSteps boot fun w s => n.repeat (fun (w, s) => w.work s) (w, s) := by
  intro t i w hw
  have hlt := (List.getElem?_eq_some_iff.1 hw).1
  induction n with
  | zero =>
    refine ⟨t, .refl, rfl, ?_⟩
    show t.run = withWorkers t.run (t.run.pool.workers.set i w) t.run.pool.shared
    rw [← (List.getElem?_eq_some_iff.1 hw).2, List.set_getElem_self]
    rfl
  | succ n ih =>
    obtain ⟨t₁, hleads, hstage, hrun⟩ := ih
    beta_reduce at hrun
    generalize hr : n.repeat (fun (w, s) => w.work s) (w, t.run.pool.shared) = r at hrun
    have hw₁ : t₁.run.pool.workers[i]? = some r.1 := by
      rw [hrun]
      exact List.getElem?_set_self hlt
    obtain ⟨t₂, hleads₂, hstage₂, hrun₂⟩ := inSteps_work t₁ i r.1 hw₁
    refine ⟨t₂, hleads.trans hleads₂, hstage₂.trans hstage, ?_⟩
    rw [hrun₂, hrun]
    simp only [withWorkers, List.set_set, Nat.repeat, hr]

theorem inSteps_finish : InSteps boot Worker.finish := fun t i w hw => inSteps_repeat w.inbox.length t i w hw

/-- **What every worker does, one after another, can be done in steps.** -/
theorem leads_each {act : Worker → Shared → Worker × Shared} (hact : InSteps boot act) :
    ∀ (rest before : List Worker) {t : SocketSystem}, t.run.pool.workers = before ++ rest →
      ∃ t', Leads boot t [] t' ∧ t'.stage = t.stage ∧
        t'.run = withWorkers t.run (before ++ (Pool.each act rest t.run.pool.shared).1) (Pool.each act rest t.run.pool.shared).2
  | [], before, t, hworkers => by
    refine ⟨t, .refl, rfl, ?_⟩
    show t.run = withWorkers t.run (before ++ []) t.run.pool.shared
    rw [← hworkers]
    rfl
  | w :: rest, before, t, hworkers => by
    have hw : t.run.pool.workers[before.length]? = some w := by
      rw [hworkers, List.getElem?_append_right (Nat.le_refl _), Nat.sub_self, List.getElem?_cons_zero]
    obtain ⟨t₁, hleads₁, hstage₁, hrun₁⟩ := hact t before.length w hw
    have hworkers₁ : t₁.run.pool.workers = (before ++ [(act w t.run.pool.shared).1]) ++ rest := by
      rw [hrun₁]
      show t.run.pool.workers.set _ _ = _
      rw [hworkers, List.set_append_right _ _ (Nat.le_refl _), Nat.sub_self, List.set_cons_zero, List.append_assoc]
      rfl
    obtain ⟨t₂, hleads₂, hstage₂, hrun₂⟩ := leads_each hact rest _ hworkers₁
    refine ⟨t₂, hleads₁.trans hleads₂, hstage₂.trans hstage₁, ?_⟩
    rw [hrun₂, hrun₁]
    simp only [withWorkers, Pool.each, List.append_assoc, List.singleton_append]

theorem leads_withEach (boot : WallTime) {act : Worker → Shared → Worker × Shared} (hact : InSteps boot act) (t : SocketSystem) :
    ∃ t', Leads boot t [] t' ∧ t'.stage = t.stage ∧ t'.run = { t.run with pool := t.run.pool.withEach act } :=
  leads_each hact t.run.pool.workers [] rfl

theorem leads_ask (boot : WallTime) : ∀ (m k : Nat) {t : SocketSystem} {last : Bool} {pool : Pool}, t.stage = .asking k last →
    k + m = t.run.pool.workers.length → t.run.pool.ask (List.range' k m) = (pool, .ok ()) →
    ∃ t', Leads boot t [] t' ∧ t'.stage = .collecting [] last ∧ t'.run = { t.run with pool }
  | 0, k, t, last, pool, hstage, hk, hask => by
    cases hask
    refine ⟨{ t with stage := .collecting [] last }, .step (c := .proceed) trivial ?_, rfl, rfl⟩
    rw [step, hstage]
    simp only [ask]
    rw [if_neg (by omega)]
    rfl
  | m + 1, k, t, last, pool, hstage, hk, hask => by
    rw [List.range'_succ, Pool.ask] at hask
    cases hsend : t.run.pool.send k .evict with
    | error e =>
      rw [hsend] at hask
      cases hask
    | ok p =>
      rw [hsend] at hask
      have hlength : p.workers.length = t.run.pool.workers.length := by
        obtain ⟨w, -, rfl⟩ := Pool.exists_of_send hsend
        exact List.length_set
      have hstep : Leads boot t [] { t.withPool p with stage := .asking (k + 1) last } := .step (c := .proceed) trivial (by
        rw [step, hstage]
        simp only [SocketSystem.ask, hsend]
        rw [if_pos (by omega)]
        rfl)
      have hk' : k + 1 + m = p.workers.length := by omega
      obtain ⟨t', hleads, hstage', hrun⟩ :=
        leads_ask boot m (k + 1) (t := { t.withPool p with stage := .asking (k + 1) last }) rfl hk' hask
      exact ⟨t', hstep.trans hleads, hstage', hrun⟩

/-- Nobody collects the worker's answers any more. -/
def forgotten (w : Worker) : Worker := { w with replies := [] }

theorem leads_collect (boot : WallTime) : ∀ (rest before : List Worker) {t : SocketSystem}
    {shards more : List Flow.Snapshot} {last : Bool}, t.stage = .collecting shards last → t.run.pool.workers = before ++ rest → before.length = shards.length →
    (∀ w ∈ rest, w.Asked) → Pool.collect rest before.length = .ok more →
    ∃ t', Leads boot t [] t' ∧ t'.stage = .collecting (shards ++ more) last ∧
      t'.run = withWorkers t.run (before ++ rest.map forgotten) t.run.pool.shared
  | [], before, t, shards, more, last, hstage, hworkers, _, _, hcollect => by
    obtain rfl : [] = more := Except.ok.inj hcollect
    refine ⟨t, .refl, by rw [hstage, List.append_nil], ?_⟩
    show t.run = withWorkers t.run (before ++ []) t.run.pool.shared
    rw [← hworkers]
    rfl
  | w :: rest, before, t, shards, more, last, hstage, hworkers, hlength, hasked, hcollect => by
    have hw : t.run.pool.workers[shards.length]? = some w := by
      rw [hworkers, List.getElem?_append_right (by omega), hlength, Nat.sub_self, List.getElem?_cons_zero]
    cases hasked w List.mem_cons_self with
    | pending _ _ _ hreplies =>
      rw [Pool.collect, hreplies] at hcollect
      cases hcollect
    | answered answer _ hreplies =>
      rw [Pool.collect, hreplies] at hcollect
      cases hothers : Pool.collect rest (before.length + 1) with
      | error e =>
        rw [hothers] at hcollect
        cases hcollect
      | ok others =>
        rw [hothers] at hcollect
        obtain rfl : answer :: others = more := Except.ok.inj hcollect
        have hstep : Leads boot t [] _ := .step (c := .proceed) trivial (by
          rw [step, hstage]
          simp only [SocketSystem.collect, hw, hreplies]
          rfl)
        have hworkers' : t.run.pool.workers.set shards.length (forgotten w) = (before ++ [forgotten w]) ++ rest := by
          rw [hworkers, ← hlength, List.set_append_right _ _ (Nat.le_refl _), Nat.sub_self, List.set_cons_zero, List.append_assoc]
          rfl
        obtain ⟨t', hleads, hstage', hrun⟩ := leads_collect boot rest (before ++ [forgotten w])
          (t := ⟨withWorkers t.run (t.run.pool.workers.set shards.length (forgotten w)) t.run.pool.shared,
            .collecting (shards ++ [answer]) last, t.ledgers⟩) rfl hworkers'
          (by simp [hlength]) (fun v hv => hasked v (List.mem_cons_of_mem _ hv)) (by simpa using hothers)
        refine ⟨t', hstep.trans hleads, ?_, ?_⟩
        · rw [hstage', List.append_assoc]
          rfl
        · rw [hrun, List.append_assoc]
          rfl

variable {s : MeterSettings} {draws : Nat → List UInt32} {ns : List Notice}

/-- **The shards are emptied in steps.** -/
theorem leads_evict (h : Books s draws boot ns t) {last : Bool} (hstage : t.stage = .asking 0 last) {pool : Pool}
    {shards : List Flow.Snapshot} (hevict : t.run.pool.evict = (pool, .ok shards)) :
    ∃ t', Leads boot t [] t' ∧ t'.stage = .collecting shards last ∧ t'.run = { t.run with pool } ∧
      t'.run.pool.workers.length = shards.length := by
  rw [Pool.evict] at hevict
  generalize hn : t.run.pool.workers.length = n at hevict
  rcases hask : t.run.pool.release.ask (List.range n) with ⟨asked, outcome⟩
  rw [hask] at hevict
  obtain ⟨hpool, hcollect⟩ := Prod.mk.inj hevict
  subst hpool
  cases outcome with
  | error e => cases hcollect
  | ok _ =>
    obtain ⟨t₁, hleads₁, hstage₁, hrun₁⟩ := leads_withEach boot inSteps_resume t
    obtain ⟨t₂, hleads₂, hstage₂, hrun₂⟩ := leads_withEach boot inSteps_finish t₁
    have hpool₂ : t₂.run.pool = t.run.pool.release := by
      rw [hrun₂, hrun₁]
      rfl
    have hlength₂ : 0 + n = t₂.run.pool.workers.length := by
      rw [hpool₂, Nat.zero_add, ← hn]
      exact ((Pool.length_each ..).trans (Pool.length_each ..)).symm
    obtain ⟨t₃, hleads₃, hstage₃, hrun₃⟩ := leads_ask boot n 0 ((hstage₂.trans hstage₁).trans hstage) hlength₂
      (by rw [hpool₂, ← List.range_eq_range', hask])
    obtain ⟨t₄, hleads₄, hstage₄, hrun₄⟩ := leads_withEach boot inSteps_finish t₃
    have hleads := ((hleads₁.trans hleads₂).trans hleads₃).trans hleads₄
    have hpool₄ : t₄.run.pool = asked.settle := by
      rw [hrun₄, hrun₃]
      rfl
    have hasked : ∀ w ∈ t₄.run.pool.workers, w.Asked := by
      intro w hw
      obtain ⟨i, hi⟩ := List.mem_iff_getElem?.1 hw
      simpa [hstage₄.trans hstage₃, Stage.Expects] using (hleads.books h).stage i w hi
    obtain ⟨t₅, hleads₅, hstage₅, hrun₅⟩ := leads_collect boot t₄.run.pool.workers [] (hstage₄.trans hstage₃) rfl rfl
      hasked (by rw [hpool₄]; exact hcollect)
    refine ⟨t₅, hleads.trans hleads₅, hstage₅, ?_, ?_⟩
    · rw [hrun₅, hrun₄, hrun₃, hrun₂, hrun₁]
      rfl
    · rw [hrun₅]
      show (t₄.run.pool.workers.map forgotten).length = _
      rw [List.length_map, hpool₄, Pool.length_collect hcollect]

theorem empty_of_evict_error {a : SocketRun} {pool : Pool} {e : Pool.EvictFailure} (h : a.pool.evict = (pool, .error e)) :
    a.empty = Logged.fail (.evict e) := by
  rw [SocketRun.empty, h]
  rfl

theorem empty_of_evict {a : SocketRun} {pool : Pool} {shards : List Flow.Snapshot} (h : a.pool.evict = (pool, .ok shards)) :
    a.empty = pure ({ a with pool }, shards) := by
  rw [SocketRun.empty, h]
  rfl

/-- What the run does with the answers when the shards are due. -/
def exportTick (t : SocketSystem) (shards : List Flow.Snapshot) : Logged Failure SocketRun := do
  let outlet ← t.run.outlet.evict t.run.now shards
  Logged.tell t.run.packetNotices
  return { t.run with outlet, drops := 0 }

/-- What the run does with the answers at its end. -/
def exportLast (t : SocketSystem) (shards : List Flow.Snapshot) : Logged Failure SocketRun := do
  let a ← t.run.receiveAll
  let outlet ← a.outlet.evict a.now shards
  return { a with outlet }

theorem deliver_eq (t : SocketSystem) (shards : List Flow.Snapshot) :
    t.deliver shards false = t.exportTick shards >>= fun run => pure { t with run, stage := .waiting } := by
  simp [deliver, exportTick]

theorem deliver_last_eq (t : SocketSystem) (shards : List Flow.Snapshot) :
    t.deliver shards true = t.exportLast shards >>= fun run => pure { t with run, stage := .ended } := by
  simp [deliver, exportLast]

/-- **When the shards are due, the run does what it can also do in steps.** -/
theorem leads_due (h : Books s draws boot ns t) (hstage : t.stage = .waiting)
    (hnext : Datable boot (t.run.timetable.next t.run.now)) {ns' : List Notice} {a : SocketRun}
    (hdue : t.run.due = ⟨ns', .ok a⟩) : ∃ t', Leads boot t ns' t' ∧ t'.stage = .waiting ∧ t'.run = a := by
  rw [SocketRun.due] at hdue
  have hpass : Leads boot t [] _ := .step (c := .pass (t.run.timetable.next t.run.now)) hnext rfl
  have hempty : Leads boot { t with run := t.run.moveTo (t.run.timetable.next t.run.now) } [] _ :=
    .step (c := .empty false) trivial (by
      rw [step, if_pos hstage]
      rfl)
  have hleads := hpass.trans hempty
  generalize t.run.moveTo (t.run.timetable.next t.run.now) = a₀ at hdue hleads
  rcases hevict : a₀.pool.evict with ⟨pool, _ | shards⟩
  · rw [empty_of_evict_error hevict] at hdue
    cases hdue
  · rw [empty_of_evict hevict, pure_bind] at hdue
    obtain ⟨t₁, hleads₁, hstage₁, hrun₁, hlength₁⟩ := leads_evict (hleads.books h) rfl hevict
    have hdeliver : t₁.step .proceed = ⟨ns', .ok { t₁ with run := a, stage := .waiting }⟩ := by
      rw [step, hstage₁]
      simp only [SocketSystem.collect, List.getElem?_eq_none (Nat.le_of_eq hlength₁)]
      have hrest : t₁.exportTick shards = ⟨ns', .ok a⟩ := by
        rw [exportTick, hrun₁]
        exact hdue
      rw [deliver_eq, hrest, Logged.ok_bind]
      exact congrArg (Logged.mk · _) (List.append_nil ns')
    exact ⟨_, (hleads.trans hleads₁).trans (.step (c := .proceed) trivial hdeliver), rfl, rfl⟩

/-- **At its end, the run does what it can also do in steps.** -/
theorem leads_finish (h : Books s draws boot ns t) (hstage : t.stage = .waiting) {ns' : List Notice} {a : SocketRun}
    (hfinish : t.run.finish = ⟨ns', .ok a⟩) : ∃ t', Leads boot t ns' t' ∧ t'.stage = .ended ∧ t'.run = a := by
  have hempty : Leads boot t [.exiting] _ := .step (c := .empty true) trivial (by
    rw [step, if_pos hstage]
    rfl)
  rw [SocketRun.finish, Logged.tell, Logged.ok_bind] at hfinish
  rcases hevict : t.run.pool.evict with ⟨pool, _ | shards⟩
  · rw [empty_of_evict_error hevict] at hfinish
    cases hfinish
  · rw [empty_of_evict hevict, pure_bind] at hfinish
    obtain ⟨t₁, hleads₁, hstage₁, hrun₁, hlength₁⟩ := leads_evict (hempty.books h) rfl hevict
    have hrest : (Logged.mk ([.exiting] ++ (t₁.exportLast shards).notices) (t₁.exportLast shards).outcome) = ⟨ns', .ok a⟩ := by
      rw [exportLast, hrun₁]
      exact hfinish
    rcases hlast : t₁.exportLast shards with ⟨ns₁, outcome⟩
    rw [hlast] at hrest
    cases hrest
    have hdeliver : t₁.step .proceed = ⟨ns₁, .ok { t₁ with run := a, stage := .ended }⟩ := by
      rw [step, hstage₁]
      simp only [SocketSystem.collect, List.getElem?_eq_none (Nat.le_of_eq hlength₁)]
      rw [deliver_last_eq, hlast, Logged.ok_bind]
      exact congrArg (Logged.mk · _) (List.append_nil ns₁)
    exact ⟨_, (hempty.trans hleads₁).trans (.step (c := .proceed) trivial hdeliver), rfl, rfl⟩

/-- A launched run is where the steps start. -/
theorem launchSocket_eq (o : Settings) (x : Surroundings) (interface : String) (workers room : Nat) {index : UInt32}
    (hbind : System.Capture.bind x.interfaces x.captureFaults interface = .ok index) :
    (Run.launchSocket o x interface workers room).outcome =
      .ok (.socket (start o x index workers room fun _ => x.draws).run) := by
  simp only [Run.launchSocket, hbind, Pool.start_eq_startEach]
  rfl

end FlowMeter.Agent.SocketSystem
