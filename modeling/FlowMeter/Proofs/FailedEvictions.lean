import FlowMeter.Proofs.PoolCalls
import FlowMeter.Proofs.PoolSteps
/-!
# A pool that cannot be emptied

A call fails at the first worker that has stopped.  The workers behind it have not been asked, and all goes on with them as if
there had been no call; those before it were asked in vain, and what they kept is lost when they come to the request.
`Session.Shadows` holds a session with a call against the same session without it.
-/
namespace FlowMeter.Pool.Session

variable {t u : Session}

/-- A session in which so many workers have been asked, and the same session without the call. -/
structure Shadows (k : Nat) (t u : Session) : Prop where
  shared : t.pool.shared = u.pool.shared
  length : t.pool.workers.length = u.pool.workers.length
  before : ∀ (i : Nat) (w w' : Worker), i < k → u.pool.workers[i]? = some w → t.pool.workers[i]? = some w' → w.Asks w'
  behind : ∀ i, k ≤ i → t.pool.workers[i]? = u.pool.workers[i]?

namespace Shadows

theorem withShared {k : Nat} (h : Shadows k t u) (g : Shared → Shared) :
    Shadows k (t.withShared (g t.pool.shared)) (u.withShared (g u.pool.shared)) :=
  ⟨congrArg g h.shared, h.length, h.before, h.behind⟩

/-- **What a worker does leaves the two sessions alike.** -/
theorem act {k : Nat} (h : Shadows k t u) {f : Worker → Shared → Worker × Shared}
    (hf : ∀ {w w' : Worker} (sh : Shared), w.Asks w' → (f w sh).1.Asks (f w' sh).1 ∧ (f w' sh).2 = (f w sh).2) (i : Nat) :
    Shadows k (t.act f i) (u.act f i) := by
  cases hu : u.pool.workers[i]? with
  | none =>
    have ht : t.pool.workers[i]? = none := by
      rw [List.getElem?_eq_none_iff] at hu ⊢
      rwa [h.length]
    rwa [act_of_none f hu, act_of_none f ht]
  | some w =>
    obtain ⟨w', ht⟩ : ∃ w', t.pool.workers[i]? = some w' :=
      ⟨_, List.getElem?_eq_getElem (h.length ▸ (List.getElem?_eq_some_iff.1 hu).1)⟩
    have hlt := (List.getElem?_eq_some_iff.1 hu).1
    have hlt' := (List.getElem?_eq_some_iff.1 ht).1
    rw [act_of_getElem? f hu, act_of_getElem? f ht]
    -- the worker that moves is the same in both, or it was asked in one of them
    have hmoved : (i < k → (f w u.pool.shared).1.Asks (f w' t.pool.shared).1) ∧
        (k ≤ i → (f w' t.pool.shared).1 = (f w u.pool.shared).1) ∧ (f w' t.pool.shared).2 = (f w u.pool.shared).2 := by
      rw [h.shared]
      by_cases hi : i < k
      · obtain ⟨hasks, hsame⟩ := hf u.pool.shared (h.before i w w' hi hu ht)
        exact ⟨fun _ => hasks, fun hle => absurd hi (by omega), hsame⟩
      · have heq := h.behind i (by omega)
        rw [hu, ht] at heq
        cases heq
        exact ⟨fun hlt => absurd hlt hi, fun _ => rfl, rfl⟩
    refine ⟨hmoved.2.2, by simp only [List.length_set, h.length], fun j v v' hj hv hv' => ?_, fun j hj => ?_⟩
    · by_cases hij : i = j
      · subst hij
        simp only [List.getElem?_set_self hlt, List.getElem?_set_self hlt', Option.some.injEq] at hv hv'
        exact hv ▸ hv' ▸ hmoved.1 hj
      · simp only [List.getElem?_set_ne hij] at hv hv'
        exact h.before j v v' hj hv hv'
    · by_cases hij : i = j
      · subst hij
        simp only [List.getElem?_set_self hlt, List.getElem?_set_self hlt', hmoved.2.1 hj]
      · simp only [List.getElem?_set_ne hij]
        exact h.behind j hj

/-- One worker more has been asked. -/
theorem ask {k : Nat} (h : Shadows k t u) {w : Worker} (hw : t.pool.workers[k]? = some w) (call : Call) :
    Shadows (k + 1) { t with
      pool := { t.pool with workers := t.pool.workers.set k { w with inbox := w.inbox ++ [.evict] } }, call } u := by
  have hlt := (List.getElem?_eq_some_iff.1 hw).1
  refine ⟨h.shared, by simp only [List.length_set, h.length], fun i v v' hi hv hv' => ?_, fun i hi => ?_⟩
  · by_cases hik : k = i
    · subst hik
      rw [← h.behind k (Nat.le_refl _), hw] at hv
      cases hv
      simp only [List.getElem?_set_self hlt, Option.some.injEq] at hv'
      exact .pending hv'.symm
    · simp only [List.getElem?_set_ne hik] at hv'
      exact h.before i v v' (by omega) hv hv'
  · have hik : k ≠ i := by omega
    simp only [List.getElem?_set_ne hik]
    exact h.behind i (by omega)

end Shadows

/-- What goes on while a call lasts. -/
def Choice.Meanwhile : Choice → Prop
  | pass _ | overflow _ | work _ | resume _ | proceed => True
  | _ => False

def Choice.isProceed : Choice → Bool
  | proceed => true
  | _ => false

/-- Of what goes on, all that is not the caller's. -/
def others (choices : List Choice) : List Choice := choices.filter fun c => ! c.isProceed

theorem others_append (choices more : List Choice) : others (choices ++ more) = others choices ++ others more :=
  List.filter_append ..

theorem Choice.Onward.meanwhile : ∀ {c : Choice}, c.Onward → c.Meanwhile
  | work _, _ | resume _, _ | proceed, _ => trivial

/-- The worker of this number has stopped. -/
def StoppedAt (t : Session) (i : Nat) : Prop := ∃ w, t.pool.workers[i]? = some w ∧ w.condition = .stopped

theorem stoppedAt_iff {i : Nat} : t.StoppedAt i ↔ t.pool.workers[i]?.map Worker.condition = some .stopped :=
  Option.map_eq_some_iff.symm

instance (t : Session) (i : Nat) : Decidable (t.StoppedAt i) := decidable_of_iff _ stoppedAt_iff.symm

theorem StoppedAt.act {i : Nat} (h : t.StoppedAt i) {f : Worker → Shared → Worker × Shared}
    (hf : ∀ {w : Worker} (sh : Shared), w.condition = .stopped → f w sh = (w, sh)) (j : Nat) : (t.act f j).StoppedAt i := by
  obtain ⟨w, hw, hstopped⟩ := h
  cases hj : t.pool.workers[j]? with
  | none =>
    rw [act_of_none f hj]
    exact ⟨w, hw, hstopped⟩
  | some v =>
    by_cases hij : j = i
    · subst hij
      exact ⟨w, by rw [getElem?_act f hw, hf _ hstopped], hstopped⟩
    · refine ⟨w, ?_, hstopped⟩
      rw [act_of_getElem? f hj]
      exact (List.getElem?_set_ne hij).trans hw

/-- A call that has asked so many workers, or has failed at the next one, held against the same session without it; some worker
from there on has stopped. -/
structure Failing (log : List Event) (last k : Nat) (t u : Session) : Prop where
  shadows : Shadows k t u
  room : 0 < t.pool.room
  stopped : t.StoppedAt last
  reached : k ≤ last
  call : (t.call = .asking k ∧ t.log = .called :: log) ∨
    (t.call = .idle ∧ t.log = .returned (.error (.stopped k)) :: .called :: log ∧ t.StoppedAt k)

namespace Failing

variable {log : List Event} {last k : Nat}

theorem withShared (h : Failing log last k t u) (g : Shared → Shared) :
    Failing log last k (t.withShared (g t.pool.shared)) (u.withShared (g u.pool.shared)) :=
  ⟨h.shadows.withShared g, h.room, h.stopped, h.reached, h.call⟩

theorem act (h : Failing log last k t u) {f : Worker → Shared → Worker × Shared}
    (hf : ∀ {w w' : Worker} (sh : Shared), w.Asks w' → (f w sh).1.Asks (f w' sh).1 ∧ (f w' sh).2 = (f w sh).2)
    (hstopped : ∀ {w : Worker} (sh : Shared), w.condition = .stopped → f w sh = (w, sh)) (i : Nat) :
    Failing log last k (t.act f i) (u.act f i) := by
  have hsame := sameCaller_act t f i
  refine ⟨h.shadows.act hf i, hsame.room ▸ h.room, h.stopped.act hstopped i, h.reached, ?_⟩
  rw [hsame.call, hsame.log]
  exact h.call.imp_right fun ⟨hidle, hlog, hk⟩ => ⟨hidle, hlog, hk.act hstopped i⟩

/-- **The caller asks one worker more, waits, or fails.** -/
theorem ask (h : Failing log last k t u) (hasking : t.call = .asking k) : ∃ k', Failing log last k' (t.ask k) u := by
  have hlog : t.log = .called :: log := by
    rcases h.call with ⟨-, hlog⟩ | ⟨hidle, -⟩
    · exact hlog
    · rw [hasking] at hidle
      cases hidle
  obtain ⟨w₀, hw₀, hstopped⟩ := h.stopped
  have hlast := (List.getElem?_eq_some_iff.1 hw₀).1
  have hreached := h.reached
  have hlt : k < t.pool.workers.length := by omega
  obtain ⟨w, hw⟩ : ∃ w, t.pool.workers[k]? = some w := ⟨_, List.getElem?_eq_getElem hlt⟩
  by_cases halive : w.condition = .stopped
  · refine ⟨k, ?_⟩
    simp only [Session.ask, hlt, if_true, send, hw, halive]
    exact ⟨⟨h.shadows.shared, h.shadows.length, h.shadows.before, h.shadows.behind⟩, h.room, h.stopped, h.reached,
      .inr ⟨rfl, by rw [← hlog]; rfl, w, hw, halive⟩⟩
  · by_cases hroom : w.inbox.length < t.pool.room
    · -- the worker that has stopped for sure is behind
      have hne : k ≠ last := by
        rintro rfl
        rw [hw] at hw₀
        cases hw₀
        exact halive hstopped
      refine ⟨k + 1, ?_⟩
      simp only [Session.ask, hlt, if_true, send, hw, halive, if_false, hroom]
      exact ⟨h.shadows.ask hw _, h.room, ⟨w₀, (List.getElem?_set_ne hne).trans hw₀, hstopped⟩, by omega, .inl ⟨rfl, hlog⟩⟩
    · refine ⟨k, ?_⟩
      simpa only [Session.ask, hlt, if_true, send, hw, halive, if_false, hroom] using h

/-- **A call that is to fail goes on, with or without the caller.** -/
theorem step (h : Failing log last k t u) {c : Choice} (hc : c.Meanwhile) :
    ∃ k', Failing log last k' (t.step c) (u.follow (others [c])) := by
  cases c with
  | pass now => exact ⟨k, h.withShared fun s => { s with clock := s.clock.moveTo now }⟩
  | overflow queue => exact ⟨k, h.withShared fun s => { s with queue }⟩
  | work i => exact ⟨k, h.act (fun sh hw => hw.work sh) (fun sh hw => (Worker.Resting.of_stopped hw).work sh) i⟩
  | resume i => exact ⟨k, h.act (fun sh hw => hw.resume sh) (fun sh hw => by simp only [Worker.resume, hw]) i⟩
  | proceed =>
    simp only [Session.step]
    rcases h.call with ⟨hcall, -⟩ | ⟨hcall, -⟩
    · rw [hcall]
      exact h.ask hcall
    · rw [hcall]
      exact ⟨k, h⟩
  | dispatch p fate => cases hc
  | dispatchTo i p fate => cases hc
  | evict => cases hc
  | evictAtOnce => cases hc

theorem follow : ∀ (choices : List Choice) {k : Nat} {t u : Session}, Failing log last k t u →
    (∀ c ∈ choices, c.Meanwhile) → ∃ k', Failing log last k' (t.follow choices) (u.follow (others choices))
  | [], k, _, _, h, _ => ⟨k, h⟩
  | c :: rest, _, t, u, h, hc => by
    obtain ⟨k₁, h₁⟩ := h.step (hc c List.mem_cons_self)
    obtain ⟨k', h'⟩ := follow rest h₁ fun c' hc' => hc c' (List.mem_cons_of_mem _ hc')
    refine ⟨k', ?_⟩
    rw [← follow_append, ← others_append] at h'
    exact h'

/-- **The call can always come back.** -/
theorem exists_idle (h : Failing log last k t u) : ∃ t', Leads t t' ∧ t'.call = .idle := by
  rcases h.call with ⟨hcall, -⟩ | ⟨hcall, -⟩
  · have hle : k ≤ t.pool.workers.length := by
      obtain ⟨w, hw, -⟩ := h.stopped
      have hlast := (List.getElem?_eq_some_iff.1 hw).1
      have hreached := h.reached
      omega
    obtain ⟨t', hleads, hend⟩ := ask_all _ hcall h.room (Nat.add_sub_of_le hle)
    refine ⟨t', hleads, hend.resolve_left fun hcollecting => ?_⟩
    obtain ⟨choices, honward, rfl⟩ := hleads
    obtain ⟨k', h'⟩ := h.follow choices fun c hc => (honward c hc).meanwhile
    rcases h'.call with ⟨hcall', -⟩ | ⟨hcall', -⟩ <;> rw [hcollecting] at hcall' <;> cases hcall'
  · exact ⟨t, .refl t, hcall⟩

end Failing

/-- The request is on its way. -/
theorem failing_evict (hidle : t.call = .idle) (hroom : 0 < t.pool.room) {last : Nat} (hstopped : t.StoppedAt last) :
    Failing t.log last 0 (t.step .evict) t := by
  simp only [step, hidle]
  have hshadows : Shadows 0 { t with call := .asking 0, log := .called :: t.log } t :=
    ⟨rfl, rfl, fun i _ _ hi => absurd hi (Nat.not_lt_zero i), fun _ _ => rfl⟩
  exact ⟨hshadows, hroom, hstopped, Nat.zero_le _, .inl ⟨rfl, rfl⟩⟩

/-- The worker of this number keeps what another one kept, and is not asked. -/
def SparedAt (t : Session) (w₀ : Worker) (i : Nat) : Prop := ∀ w, t.pool.workers[i]? = some w → w₀.Spared w

namespace SparedAt

variable {w₀ : Worker} {i : Nat}

theorem act (h : t.SparedAt w₀ i) {f : Worker → Shared → Worker × Shared}
    (hf : ∀ {w : Worker} (sh : Shared), w₀.Spared w → w₀.Spared (f w sh).1) (j : Nat) : (t.act f j).SparedAt w₀ i := by
  intro w hw
  cases hj : t.pool.workers[j]? with
  | none => exact h w (act_of_none f hj ▸ hw)
  | some v =>
    rw [act_of_getElem? f hj] at hw
    rcases getElem?_set_cases hw with ⟨rfl, rfl⟩ | ⟨-, hw'⟩
    · exact hf _ (h v hj)
    · exact h w hw'

/-- **Without a call, a worker keeps its flows.** -/
theorem step (h : t.SparedAt w₀ i) {c : Choice} (hc : c.Meanwhile) : (t.follow (others [c])).SparedAt w₀ i := by
  cases c with
  | pass now => exact h
  | overflow q => exact h
  | work j => exact h.act (fun sh hs => hs.work sh) j
  | resume j => exact h.act (fun sh hs => hs.resume sh) j
  | proceed => exact h
  | dispatch p fate => cases hc
  | dispatchTo j p fate => cases hc
  | evict => cases hc
  | evictAtOnce => cases hc

theorem follow : ∀ (choices : List Choice) {t : Session}, t.SparedAt w₀ i → (∀ c ∈ choices, c.Meanwhile) →
    (t.follow (others choices)).SparedAt w₀ i
  | [], _, h, _ => h
  | c :: rest, t, h, hc => by
    have hrest := follow rest (h.step (hc c List.mem_cons_self)) fun c' hc' => hc c' (List.mem_cons_of_mem _ hc')
    rwa [← follow_append, ← others_append] at hrest

end SparedAt

/-- **A call that fails spares the workers behind the one that it fails at, and no others.**  When a worker has stopped, a call
that empties the pool in steps can always come back, and if it does, then with the failure at a worker that has stopped, at the
latest that one.  The workers behind it are as they would be without the call, and keep what they kept if no earlier request waits
for them; those before it keep nothing when they have handled all their messages.  It is the same when the pool is to be emptied
at once. -/
theorem evict_spares_behind (t : Session) (hidle : t.call = .idle) (hroom : 0 < t.pool.room) {last : Nat}
    (hstopped : t.StoppedAt last) (choices : List Choice) (hchoices : ∀ c ∈ choices, c.Meanwhile) :
    (∃ t', Leads (t.follow (.evict :: choices)) t' ∧ t'.call = .idle) ∧
      ((t.follow (.evict :: choices)).call = .idle → ∃ k ≤ last,
        (t.follow (.evict :: choices)).log = .returned (.error (.stopped k)) :: .called :: t.log ∧
        (t.follow (.evict :: choices)).StoppedAt k ∧ (t.follow (.evict :: choices)).pool.EmptyBefore k ∧
        ∀ i : Nat, k < i →
          (t.follow (.evict :: choices)).pool.workers[i]? = (t.follow (others choices)).pool.workers[i]? ∧
          ∀ w w' : Worker, t.pool.workers[i]? = some w → .evict ∉ w.inbox →
            (t.follow (.evict :: choices)).pool.workers[i]? = some w' → w.Keeps w') ∧
      ∃ pool k, t.pool.evict = (pool, .error (.stopped k)) ∧ k ≤ last ∧ pool.EmptyBefore k ∧
        ∀ (i : Nat) (w : Worker), k < i → t.pool.release.workers[i]? = some w →
          pool.workers[i]? = some { w with replies := [] } := by
  obtain ⟨k, h⟩ := (failing_evict hidle hroom hstopped).follow choices hchoices
  obtain ⟨w₀, hw₀, hcondition₀⟩ := hstopped
  have hfollow : t.follow (.evict :: choices) = (t.step .evict).follow choices := rfl
  rw [hfollow]
  refine ⟨h.exists_idle, fun hback => ?_, evict_eq_stopped hw₀ hcondition₀⟩
  rcases h.call with ⟨hasking, -⟩ | ⟨-, hlog, hk⟩
  · rw [hback] at hasking
    cases hasking
  · refine ⟨k, h.reached, hlog, hk, fun i w hi hw hcondition hinbox => ?_, fun i hi => ⟨h.shadows.behind i (Nat.le_of_lt hi), ?_⟩⟩
    · obtain ⟨v, hv⟩ : ∃ v, (t.follow (others choices)).pool.workers[i]? = some v :=
        ⟨_, List.getElem?_eq_getElem (h.shadows.length ▸ (List.getElem?_eq_some_iff.1 hw).1)⟩
      exact (h.shadows.before i v w hi hv hw).snapshot_eq_nil hcondition hinbox
    · intro w w' hw hask hw'
      rw [h.shadows.behind i (Nat.le_of_lt hi)] at hw'
      have hspared : t.SparedAt w i := by
        intro v hv
        obtain rfl : w = v := Option.some.inj (hw.symm.trans hv)
        exact ⟨.refl w, hask⟩
      exact (hspared.follow choices hchoices w' hw').keeps

/-- One worker is asked in vain, another one has stopped, and the last one stands still with two packets in its inbox. -/
theorem evict_spares_behind_last_worker :
    let p : Packet := { frame := List.replicate 14 6, length := 60, interface := 1, direction := .ingress }
    let q : Packet := { frame := List.replicate 14 7, length := 80, interface := 1, direction := .ingress }
    let t := (start 3 2 {} [] { clock := { now := 5 }, queue := .ofSlots 1 }).follow
      [.dispatch p .proceeds, .dispatch p .dies, .dispatch p .stalls, .work 0, .work 1, .work 2, .dispatchTo 2 q .proceeds,
        .dispatchTo 2 p .proceeds]
    let choices : List Choice := [.proceed, .work 0, .resume 2, .work 2, .proceed, .work 2]
    let t' := t.follow (.evict :: choices)
    (t.call = .idle ∧ 0 < t.pool.room ∧ t.StoppedAt 1 ∧ ∀ c ∈ choices, c.Meanwhile) ∧ t'.call = .idle ∧
      ∃ k ≤ 1, t'.log = .returned (.error (.stopped k)) :: .called :: t.log ∧ t'.StoppedAt k ∧ t'.pool.EmptyBefore k ∧
        ∀ i : Nat, k < i → t'.pool.workers[i]? = (t.follow (others choices)).pool.workers[i]? ∧
          ∀ w w' : Worker, t.pool.workers[i]? = some w → .evict ∉ w.inbox → t'.pool.workers[i]? = some w' → w.Keeps w' := by
  intro p q t choices t'
  have hidle : t.call = .idle := by decide +kernel
  have hroom : 0 < t.pool.room := by decide +kernel
  have hstopped : t.StoppedAt 1 := by decide +kernel
  have hmeanwhile : ∀ c ∈ choices, c.Meanwhile := by simp [choices, Choice.Meanwhile]
  have hback : t'.call = .idle := by decide +kernel
  exact ⟨⟨hidle, hroom, hstopped, hmeanwhile⟩, hback,
    (evict_spares_behind t hidle hroom hstopped choices hmeanwhile).2.1 hback⟩

/-- The flows of live workers are with them still when they have handled all their messages. -/
def AllKept (p p' : Pool) : Prop :=
  ∀ e ∈ p.workers.zip p'.workers, e.1.condition ≠ .stopped → e.2.condition = .working → e.2.inbox = [] →
    ∀ id ∈ e.1.meter.shard.flows.keys, id ∈ e.2.meter.shard.flows.keys

instance (p p' : Pool) : Decidable (AllKept p p') :=
  inferInstanceAs (Decidable (∀ e ∈ p.workers.zip p'.workers, e.1.condition ≠ .stopped → e.2.condition = .working →
    e.2.inbox = [] → ∀ id ∈ e.1.meter.shard.flows.keys, id ∈ e.2.meter.shard.flows.keys))

/-- **A call that fails does not spare the workers before the one that it fails at**, in steps or at once. -/
theorem evict_empties_before :
    let p : Packet := { frame := List.replicate 14 6, length := 60, interface := 1, direction := .ingress }
    let t := (start 2 1 {} [] { clock := { now := 5 }, queue := .ofSlots 1 }).follow
      [.dispatch p .proceeds, .dispatch p .dies, .work 0, .work 1]
    let t' := t.follow [.evict, .proceed, .proceed, .work 0]
    t.StoppedAt 1 ∧ t.call = .idle ∧ t'.call = .idle ∧
      t'.log.head?.any (fun e => match e with
        | .returned (.error e) => e = .stopped 1
        | _ => false) ∧
      ¬ AllKept t.pool t'.pool ∧ ¬ AllKept t.pool t.pool.evict.1 := by
  decide +kernel

end FlowMeter.Pool.Session
