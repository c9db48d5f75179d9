import FlowMeter.Proofs.SocketBalance
/-!
# A socket run can always be ended

A worker that is left to itself comes to the end of its inbox (`Leads.exhaust`), so the loop never waits for ever while it
empties the shards, and from every point of a run there is a way to its end (`exists_ended`).
-/
namespace FlowMeter.Agent.SocketSystem

open Pool (Worker)

/-- Some sound steps lead from one point of a run to another, with these notices. -/
def Leads (boot : WallTime) (t : SocketSystem) (ns : List Notice) (t' : SocketSystem) : Prop :=
  ∃ choices, (∀ c ∈ choices, c.Sound boot) ∧ t.follow choices = ⟨ns, .ok t'⟩

theorem follow_append : ∀ (choices more : List Choice) (t : SocketSystem),
    t.follow (choices ++ more) = t.follow choices >>= fun t' => t'.follow more
  | [], more, t => rfl
  | c :: rest, more, t => by
    show (t.step c >>= fun t' => t'.follow (rest ++ more)) = ((t.step c >>= fun t' => t'.follow rest) >>= _)
    rw [bind_assoc]
    congr 1
    funext t'
    exact follow_append rest more t'

namespace Leads

variable {s : MeterSettings} {draws : Nat → List UInt32} {boot : WallTime} {ns ns' : List Notice} {t t' t'' : SocketSystem}

theorem refl : Leads boot t [] t := ⟨[], fun _ h => (by cases h), rfl⟩

theorem trans (h : Leads boot t ns t') (h' : Leads boot t' ns' t'') : Leads boot t (ns ++ ns') t'' := by
  obtain ⟨choices, hsound, hfollow⟩ := h
  obtain ⟨more, hsound', hfollow'⟩ := h'
  refine ⟨choices ++ more, fun c hc => (List.mem_append.1 hc).elim (hsound c) (hsound' c), ?_⟩
  rw [follow_append, hfollow, Logged.ok_bind, hfollow']

theorem step {c : Choice} (hc : c.Sound boot) (h : t.step c = ⟨ns, .ok t'⟩) : Leads boot t ns t' := by
  refine ⟨[c], fun c' hc' => ?_, ?_⟩
  · obtain rfl := List.mem_singleton.1 hc'
    exact hc
  · rw [follow, h, Logged.ok_bind]
    show Logged.mk (ns ++ []) _ = _
    rw [List.append_nil]
    rfl

theorem books {ns₀ : List Notice} (h : Leads boot t ns t') (hbooks : Books s draws boot ns₀ t) :
    Books s draws boot (ns₀ ++ ns) t' := by
  obtain ⟨choices, hsound, hfollow⟩ := h
  obtain ⟨ns₁, t₁, hfollow₁, hbooks₁⟩ := hbooks.follow choices hsound
  rw [hfollow] at hfollow₁
  cases hfollow₁
  exact hbooks₁

end Leads

/-- The loop has not moved, and so many workers are there as before, with as much room. -/
structure SameLoop (t t' : SocketSystem) : Prop where
  stage : t'.stage = t.stage
  length : t'.run.pool.workers.length = t.run.pool.workers.length

theorem SameLoop.trans {t t' t'' : SocketSystem} (h : SameLoop t t') (h' : SameLoop t' t'') : SameLoop t t'' :=
  ⟨h'.stage.trans h.stage, h'.length.trans h.length⟩

variable {s : MeterSettings} {draws : Nat → List UInt32} {boot : WallTime} {ns : List Notice} {t : SocketSystem}

theorem act_of_getElem? (f : Worker → Pool.Shared → Worker × Pool.Shared) (news : Worker → Pool.Shared → List Outcome) {i : Nat}
    {w : Worker} (hw : t.run.pool.workers[i]? = some w) :
    SameLoop t (t.act f news i) ∧ (t.act f news i).run.pool.workers[i]? = some (f w t.run.pool.shared).1 := by
  have hlt := (List.getElem?_eq_some_iff.1 hw).1
  simp only [act, hw, Pool.actAt, withPool]
  exact ⟨⟨rfl, List.length_set⟩, List.getElem?_set_self hlt⟩

/-- **A worker that is left to itself comes to the end of its inbox.** -/
theorem exhaust : ∀ (n : Nat) {ns : List Notice} {t : SocketSystem} {i : Nat} {w : Worker}, Books s draws boot ns t →
    t.run.pool.workers[i]? = some w → w.inbox.length = n →
    ∃ t' w', Leads boot t [] t' ∧ SameLoop t t' ∧ t'.run.pool.workers[i]? = some w' ∧ w'.inbox = []
  | 0, _, t, _, w, _, hw, hn => ⟨t, w, .refl, ⟨rfl, rfl⟩, hw, List.eq_nil_of_length_eq_zero hn⟩
  | n + 1, ns, t, i, w, h, hw, hn => by
    obtain ⟨l, -, hbooks⟩ := h.exists_ledger hw
    have hresume : Leads boot t [] (t.act Worker.resume Worker.outcomesOfResume i) := .step (c := .resume i) trivial rfl
    obtain ⟨hsame₁, hw₁⟩ := act_of_getElem? Worker.resume Worker.outcomesOfResume hw
    have hbooks₁ := hresume.books h
    generalize t.act Worker.resume Worker.outcomesOfResume i = t₁ at hresume hsame₁ hw₁ hbooks₁
    have hwork : Leads boot t₁ [] (t₁.act Worker.work Worker.outcomesOfWork i) := .step (c := .work i) trivial rfl
    obtain ⟨hsame₂, hw₂⟩ := act_of_getElem? Worker.work Worker.outcomesOfWork hw₁
    have hbooks₂ := hwork.books hbooks₁
    generalize t₁.act Worker.work Worker.outcomesOfWork i = t₂ at hwork hsame₂ hw₂ hbooks₂
    -- a worker that has gone on is at work, so its inbox gets shorter
    have hlength : ((w.resume t.run.pool.shared).1.work t₁.run.pool.shared).1.inbox.length = n := by
      rw [Worker.inbox_work_resume hbooks.alive hbooks.fates, List.length_tail, hn]
      rfl
    obtain ⟨t', w', hrest, hsame, hw', hempty⟩ := exhaust n hbooks₂ hw₂ hlength
    exact ⟨t', w', (hresume.trans hwork).trans hrest, (hsame₁.trans hsame₂).trans hsame, hw', hempty⟩

theorem ask_all : ∀ (k : Nat) {ns : List Notice} {t : SocketSystem} {next : Nat} {last : Bool}, Books s draws boot ns t →
    t.stage = .asking next last → next + k = t.run.pool.workers.length →
    ∃ t', Leads boot t [] t' ∧ t'.stage = .collecting [] last
  | 0, _, t, next, last, _, hstage, hk => by
    refine ⟨{ t with stage := .collecting [] last }, .step (c := .proceed) trivial ?_, rfl⟩
    rw [step, hstage]
    simp only [ask]
    rw [if_neg (by omega)]
    rfl
  | k + 1, ns, t, next, last, h, hstage, hk => by
    obtain ⟨w, hw⟩ : ∃ w, t.run.pool.workers[next]? = some w := ⟨_, List.getElem?_eq_getElem (by omega)⟩
    obtain ⟨t₁, w₁, hleads, hsame, hw₁, hempty⟩ := exhaust _ h hw rfl
    have h₁ := hleads.books h
    obtain ⟨l, -, hbooks⟩ := h₁.exists_ledger hw₁
    have hlength := hsame.length
    have hroom : w₁.inbox.length < t₁.run.pool.room := by
      rw [hempty]
      exact h₁.room
    obtain ⟨pool, hsend, hpool⟩ : ∃ pool, t₁.run.pool.send next .evict = .ok pool ∧
        pool.workers.length = t₁.run.pool.workers.length := by
      refine ⟨{ t₁.run.pool with workers := t₁.run.pool.workers.set next { w₁ with inbox := w₁.inbox ++ [.evict] } }, ?_,
        List.length_set⟩
      simp only [Pool.send, hw₁, hbooks.alive, if_false, hroom, if_true]
    have hask : t₁.step .proceed = ⟨[], .ok { t₁.withPool pool with stage := .asking (next + 1) last }⟩ := by
      rw [step, hsame.stage, hstage]
      simp only [ask, hsend]
      rw [if_pos (by omega)]
      rfl
    have hstep : Leads boot t₁ [] _ := .step (c := .proceed) trivial hask
    obtain ⟨t', hrest, hstage'⟩ := ask_all k (hstep.books h₁) rfl (by
      show next + 1 + k = pool.workers.length
      omega)
    exact ⟨t', (hleads.trans hstep).trans hrest, hstage'⟩

theorem stage_deliver {shards : List Flow.Snapshot} {last : Bool} {t' : SocketSystem}
    (h : t.deliver shards last = ⟨ns, .ok t'⟩) : t'.stage = if last then .ended else .waiting := by
  have hok : (t.deliver shards last).outcome = .ok t' := by rw [h]
  cases last with
  | false =>
    obtain ⟨o, -, hok⟩ := Logged.andThen_eq_ok_iff.1 hok
    cases hok
    rfl
  | true =>
    obtain ⟨a, -, hok⟩ := Logged.andThen_eq_ok_iff.1 hok
    obtain ⟨o, -, hok⟩ := Logged.andThen_eq_ok_iff.1 hok
    cases hok
    rfl

/-- All answers can be taken, and what they hold can go out. -/
theorem collect_all : ∀ (k : Nat) {ns : List Notice} {t : SocketSystem} {shards : List Flow.Snapshot} {last : Bool},
    Books s draws boot ns t → t.stage = .collecting shards last → shards.length + k = t.run.pool.workers.length →
    ∃ ns' t', Leads boot t ns' t' ∧ t'.stage = if last then .ended else .waiting
  | 0, ns, t, shards, last, h, hstage, hk => by
    have hw : t.run.pool.workers[shards.length]? = none := List.getElem?_eq_none (by omega)
    obtain ⟨ns', t', hcollect, -⟩ := h.collected_all hstage hw
    have hdeliver : t.deliver shards last = ⟨ns', .ok t'⟩ := by rw [← hcollect, collect, hw]
    refine ⟨ns', t', .step (c := .proceed) trivial ?_, stage_deliver hdeliver⟩
    rw [step, hstage]
    exact hcollect
  | k + 1, ns, t, shards, last, h, hstage, hk => by
    obtain ⟨w, hw⟩ : ∃ w, t.run.pool.workers[shards.length]? = some w := ⟨_, List.getElem?_eq_getElem (by omega)⟩
    obtain ⟨t₁, w₁, hleads, hsame, hw₁, hempty⟩ := exhaust _ h hw rfl
    have h₁ := hleads.books h
    have hstage₁ : t₁.stage = .collecting shards last := hsame.stage.trans hstage
    have hlength := hsame.length
    have hasked : w₁.Asked := by simpa [hstage₁, Stage.Expects] using h₁.stage _ _ hw₁
    cases hasked with
    | pending before inbox _ _ =>
      rw [hempty] at inbox
      cases before <;> cases inbox
    | answered answer emptied replies =>
      have hstep : Leads boot t₁ [] _ := .step (c := .proceed) trivial (by
        rw [step, hstage₁]
        simp only [collect, hw₁, replies]
        rfl)
      obtain ⟨ns', t', hrest, hstage'⟩ := collect_all k (hstep.books h₁) rfl (by
        show (shards ++ [answer]).length + k = (t₁.run.pool.workers.set _ _).length
        rw [List.length_append, List.length_singleton, List.length_set]
        omega)
      exact ⟨ns', t', (hleads.trans hstep).trans hrest, hstage'⟩

theorem empty_all (h : Books s draws boot ns t) {next : Nat} {last : Bool} (hstage : t.stage = .asking next last) :
    ∃ ns' t', Leads boot t ns' t' ∧ t'.stage = if last then .ended else .waiting := by
  have hnext : next ≤ t.run.pool.workers.length := by
    have := h.reached
    rwa [hstage] at this
  obtain ⟨t₁, hleads, hstage₁⟩ := ask_all _ h hstage (Nat.add_sub_of_le hnext)
  have h₁ := hleads.books h
  obtain ⟨ns', t', hrest, hstage'⟩ := collect_all _ h₁ hstage₁ (Nat.zero_add _)
  exact ⟨_, t', hleads.trans hrest, hstage'⟩

theorem exists_ended_of_waiting (h : Books s draws boot ns t) (hstage : t.stage = .waiting) :
    ∃ ns' t', Leads boot t ns' t' ∧ t'.stage = .ended := by
  have hstep : Leads boot t _ _ := .step (c := .empty true) trivial (by
    rw [step, if_pos hstage]
    rfl)
  obtain ⟨ns', t', hrest, hstage'⟩ := empty_all (hstep.books h) rfl
  exact ⟨_, t', hstep.trans hrest, hstage'⟩

/-- **From every point of a run there is a way to its end.** -/
theorem exists_ended (h : Books s draws boot ns t) : ∃ ns' t', Leads boot t ns' t' ∧ t'.stage = .ended := by
  -- a run that empties the shards for the last time ends with that, any other comes to wait first
  have hfinish : ∀ {last : Bool}, (∃ ns' t', Leads boot t ns' t' ∧ t'.stage = if last then .ended else .waiting) →
      ∃ ns' t', Leads boot t ns' t' ∧ t'.stage = .ended := by
    rintro (_ | _) ⟨ns₁, t₁, hleads, hstage₁⟩
    · obtain ⟨ns₂, t₂, hrest, hended⟩ := exists_ended_of_waiting (hleads.books h) hstage₁
      exact ⟨_, t₂, hleads.trans hrest, hended⟩
    · exact ⟨ns₁, t₁, hleads, hstage₁⟩
  cases hstage : t.stage with
  | waiting => exact exists_ended_of_waiting h hstage
  | asking next last => exact hfinish (empty_all h hstage)
  | collecting shards last =>
    have hreached : shards.length ≤ t.run.pool.workers.length := by
      have := h.reached
      rwa [hstage] at this
    exact hfinish (collect_all _ h hstage (Nat.add_sub_of_le hreached))
  | ended => exact ⟨[], t, .refl, hstage⟩

end FlowMeter.Agent.SocketSystem
