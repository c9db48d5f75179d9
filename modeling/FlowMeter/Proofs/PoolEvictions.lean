import FlowMeter.Proofs.PoolCalls
import FlowMeter.Proofs.PoolOverflow
import FlowMeter.Proofs.SocketBalance
/-!
# What a pool answers

Of a session in which no worker dies, `Session.Tracks` says what each worker still has to show: the packets that it has accepted
since the pool was last to be emptied, or before that if its answer has not been taken yet.  Every step keeps it, so every call
is answered with what the workers owe for the packets accepted before it and after the call before (`Session.evictions_answer`).
-/
namespace FlowMeter.Pool

open FlowMeter.Flow (owed volumes)
open Agent (Stage)

namespace Call

/-- The stage of a run that empties its shards in the same way. -/
def stage : Call → Stage
  | idle => .waiting
  | asking next => .asking next false
  | collecting shards => .collecting shards false

/-- The packets that a worker still has to show. -/
def due : Call → List Event → Nat → List Packet
  | idle, log, i => Event.acceptedSince i log
  | asking _, log, i => Event.acceptedBefore i log
  | collecting shards, log, i => if i < shards.length then [] else Event.acceptedBefore i log

end Call

namespace Session

/-- The worker is where the caller wants it, and has all that it still has to show. -/
structure Fits (calm : Bool) (capacity : Nat) (call : Call) (log : List Event) (i : Nat) (w : Worker) : Prop where
  stage : call.stage.Expects i w
  holds : w.Holds capacity (call.due log i)
  calm : calm = true → w.Calm

/-- Every call was answered with what was owed for the packets before it. -/
def Answered (capacity workers : Nat) (log : List Event) : Prop :=
  ∀ (a : Except EvictFailure (List Flow.Snapshot)) (earlier : List Event), .returned a :: earlier <:+ log →
    ∃ shards, a = .ok shards ∧ Answers capacity workers (fun i => Event.acceptedBefore i earlier) shards

structure Tracks (calm : Bool) (capacity workers : Nat) (t : Session) : Prop where
  length : t.pool.workers.length = workers
  room : 0 < t.pool.room
  reached : t.call.stage.reached ≤ workers
  fits : ∀ (i : Nat) (w : Worker), t.pool.workers[i]? = some w → Fits calm capacity t.call t.log i w
  /-- Nothing is accepted while the caller waits. -/
  waits : t.call = .idle ∨ ∀ i, Event.acceptedSince i t.log = []
  collected : ∀ (i : Nat) (s : Flow.Snapshot), t.call.stage.shards[i]? = some s →
    volumes s = owed capacity (Event.acceptedBefore i t.log)
  answered : Answered capacity workers t.log

/-- No worker dies, and none comes to a stand if the pool is ever emptied at once. -/
def Choice.Sound (calm : Bool) : Choice → Prop
  | dispatch _ fate | dispatchTo _ _ fate => fate ≠ .dies ∧ (calm = true → fate ≠ .stalls)
  | evictAtOnce => calm = true
  | _ => True

theorem Choice.Onward.sound (calm : Bool) : ∀ {c : Choice}, c.Onward → c.Sound calm
  | work _, _ | resume _, _ | proceed, _ => trivial

variable {calm : Bool} {capacity workers : Nat} {t : Session}

theorem Answered.cons {log : List Event} (h : Answered capacity workers log) {e : Event} (he : ∀ a, e ≠ .returned a) :
    Answered capacity workers (e :: log) := by
  intro a earlier hsuffix
  rcases List.suffix_cons_iff.1 hsuffix with heq | hsuffix
  · exact absurd (List.cons.inj heq).1.symm (he a)
  · exact h a earlier hsuffix

theorem Answered.returned {log : List Event} (h : Answered capacity workers log) {shards : List Flow.Snapshot}
    (hshards : Answers capacity workers (fun i => Event.acceptedBefore i log) shards) :
    Answered capacity workers (.returned (.ok shards) :: log) := by
  intro a earlier hsuffix
  rcases List.suffix_cons_iff.1 hsuffix with heq | hsuffix
  · cases heq
    exact ⟨shards, rfl, hshards⟩
  · exact h a earlier hsuffix

theorem quiet_or_asked {call : Call} {i : Nat} {w : Worker} (h : call.stage.Expects i w) : w.Quiet ∨ w.Asked := by
  cases call with
  | idle => exact .inl h
  | asking next =>
    simp only [Call.stage, Stage.Expects] at h
    split at h
    exacts [.inr h, .inl h]
  | collecting shards =>
    simp only [Call.stage, Stage.Expects] at h
    split at h
    exacts [.inl h.quiet, .inr h]

namespace Tracks

theorem withShared (h : Tracks calm capacity workers t) (shared : Shared) : Tracks calm capacity workers (t.withShared shared) :=
  ⟨h.length, h.room, h.reached, h.fits, h.waits, h.collected, h.answered⟩

/-- **A step of one worker leaves what it still has to show.** -/
theorem act (h : Tracks calm capacity workers t) {f : Worker → Shared → Worker × Shared}
    {news : Worker → Shared → List Outcome} (hf : Worker.Steady f news)
    (hholds : ∀ {packets : List Packet} {w : Worker} (sh : Shared), w.Holds capacity packets → w.Quiet ∨ w.Asked →
      (f w sh).1.Holds capacity packets)
    (hcalm : ∀ {w : Worker} (sh : Shared), w.Calm → (f w sh).1.Calm) (i : Nat) : Tracks calm capacity workers (t.act f i) := by
  cases hw : t.pool.workers[i]? with
  | none => rwa [act_of_none f hw]
  | some w =>
    rw [act_of_getElem? f hw]
    refine ⟨List.length_set.trans h.length, h.room, h.reached, fun j v hv => ?_, h.waits, h.collected, h.answered⟩
    rcases getElem?_set_cases hv with ⟨rfl, rfl⟩ | ⟨-, hv'⟩
    · obtain ⟨hstage, hw', hc⟩ := h.fits i w hw
      exact ⟨hstage.act hf _ hw'.fates, hholds _ hw' (quiet_or_asked hstage), fun hcalm' => hcalm _ (hc hcalm')⟩
    · exact h.fits j v hv'

/-- **A packet is handed to a worker**: it takes the packet, or nothing changes for the workers. -/
theorem handed (h : Tracks calm capacity workers t) (hidle : t.call = .idle) {p : Packet} {fate : Fate} {pool : Pool}
    (hpool : pool.workers = t.pool.workers ∧ pool.room = t.pool.room) (hfate : fate ≠ .dies ∧ (calm = true → fate ≠ .stalls))
    (i : Nat) :
    Tracks calm capacity workers
      (match pool.send i (.packet p fate) with
      | .ok pool' => t.handed i p (pool', .ok ())
      | .error e => t.handed i p (pool, .error e)) := by
  obtain ⟨hworkers, hroom⟩ := hpool
  cases hsend : pool.send i (.packet p fate) with
  | error e =>
    refine ⟨hworkers ▸ h.length, hroom ▸ h.room, h.reached, fun j v hv => ?_, .inl hidle, h.collected, h.answered.cons (by simp)⟩
    obtain ⟨hstage, hholds, hcalm⟩ := h.fits j v (hworkers ▸ hv)
    refine ⟨hstage, ?_, hcalm⟩
    rw [hidle] at hholds
    show v.Holds capacity (t.call.due _ j)
    rw [hidle]
    exact hholds
  | ok pool' =>
    -- the worker that takes the packet has it to show, and the others have what they had
    obtain ⟨w, hw, rfl⟩ := exists_of_send hsend
    rw [hworkers] at hw
    refine ⟨?_, hroom ▸ h.room, h.reached, fun j v hv => ?_, .inl hidle, fun j s hs => ?_, h.answered.cons (by simp)⟩
    · exact List.length_set.trans (hworkers ▸ h.length)
    · have hv : (pool.workers.set i { w with inbox := w.inbox ++ [.packet p fate] })[j]? = some v := hv
      show Fits calm capacity t.call (.accepted i p :: t.log) j v
      rw [hidle]
      rcases getElem?_set_cases hv with ⟨rfl, rfl⟩ | ⟨hij, hv'⟩
      · obtain ⟨hstage, hholds, hcalm⟩ := h.fits i w hw
        rw [hidle] at hstage hholds
        refine ⟨Worker.Quiet.accept hstage p fate, ?_, fun hc => (hcalm hc).append ?_⟩
        · have := hholds.accept p hfate.1
          simpa only [Call.due, Event.acceptedSince, if_true] using this
        · simpa using hfate.2 hc
      · obtain ⟨hstage, hholds, hcalm⟩ := h.fits j v (hworkers ▸ hv')
        rw [hidle] at hstage hholds
        refine ⟨hstage, ?_, hcalm⟩
        simpa only [Call.due, Event.acceptedSince, if_neg hij, List.append_nil] using hholds
    · have hs : t.call.stage.shards[j]? = some s := hs
      rw [hidle] at hs
      cases hs

/-- The pool is to be emptied. -/
theorem call (h : Tracks calm capacity workers t) (hidle : t.call = .idle) :
    Tracks calm capacity workers { t with call := .asking 0, log := .called :: t.log } := by
  refine ⟨h.length, h.room, Nat.zero_le _, fun i w hw => ?_, .inr fun i => rfl, fun i s hs => (by cases hs),
    h.answered.cons (by simp)⟩
  obtain ⟨hstage, hholds, hcalm⟩ := h.fits i w hw
  rw [hidle] at hstage hholds
  exact ⟨hstage, hholds, hcalm⟩

/-- **The pool is emptied at once.** -/
theorem callAtOnce (h : Tracks true capacity workers t) (hidle : t.call = .idle) :
    Tracks true capacity workers { t with pool := t.pool.evict.1, log := .returned t.pool.evict.2 :: .called :: t.log } := by
  have hready : ∀ (i : Nat) (w : Worker), t.pool.workers[i]? = some w →
      w.Quiet ∧ w.Holds capacity (Event.acceptedSince i t.log) ∧ w.Calm := by
    intro i w hw
    obtain ⟨hstage, hholds, hcalm⟩ := h.fits i w hw
    rw [hidle] at hstage hholds
    exact ⟨hstage, hholds, hcalm rfl⟩
  obtain ⟨ws, shared, shards, hevict, hlength, hanswers, hdone⟩ := evict_eq_ok h.room hready
  rw [hevict]
  refine ⟨hlength.trans h.length, h.room, h.reached, fun i w hw => ?_, .inl hidle, fun i s hs => ?_, ?_⟩
  · obtain ⟨hdone, hholds⟩ := hdone i w hw
    show Fits true capacity t.call _ i w
    rw [hidle]
    exact ⟨hdone.quiet, hholds, fun _ q hq => by rw [hdone.emptied.inbox] at hq; cases hq⟩
  · have hs : t.call.stage.shards[i]? = some s := hs
    rw [hidle] at hs
    cases hs
  · exact (h.answered.cons (e := .called) (by simp)).returned (h.length ▸ hanswers)

theorem ask (h : Tracks calm capacity workers t) {next : Nat} (hasking : t.call = .asking next) :
    Tracks calm capacity workers (t.ask next) := by
  have hfits := h.fits
  have hwaits := h.waits
  rw [hasking] at hfits hwaits
  by_cases hnext : next < t.pool.workers.length
  · obtain ⟨w, hw⟩ : ∃ w, t.pool.workers[next]? = some w := ⟨_, List.getElem?_eq_getElem hnext⟩
    obtain ⟨hstage, hholds, hcalm⟩ := hfits next w hw
    have hquiet : w.Quiet := by simpa [Call.stage, Stage.Expects] using hstage
    by_cases hroom : w.inbox.length < t.pool.room
    · simp only [Session.ask, hnext, if_true, send, hw, hholds.alive, if_false, hroom]
      refine ⟨List.length_set.trans h.length, h.room, h.length ▸ hnext, fun j v hv => ?_, .inr (hwaits.resolve_left (by simp)),
        fun i s hs => (by cases hs), h.answered⟩
      rcases getElem?_set_cases hv with ⟨rfl, rfl⟩ | ⟨hj, hv'⟩
      · refine ⟨?_, hholds.ask, fun hc => (hcalm hc).append (by simp)⟩
        simpa [Call.stage, Stage.Expects] using hquiet.ask
      · obtain ⟨hstage', hholds', hcalm'⟩ := hfits j v hv'
        exact ⟨hstage'.asked hj, hholds', hcalm'⟩
    · simpa only [Session.ask, hnext, if_true, send, hw, hholds.alive, if_false, hroom] using h
  · simp only [Session.ask, hnext, if_false]
    refine ⟨h.length, h.room, Nat.zero_le _, fun j v hv => ?_, .inr (hwaits.resolve_left (by simp)), fun i s hs => (by cases hs),
      h.answered⟩
    obtain ⟨hstage, hholds, hcalm⟩ := hfits j v hv
    have hlt : j < t.pool.workers.length := (List.getElem?_eq_some_iff.1 hv).1
    exact ⟨hstage.allAsked (by omega), hholds, hcalm⟩

/-- All answers have been taken, and the call comes back with them. -/
theorem comeBack (h : Tracks calm capacity workers t) {shards : List Flow.Snapshot} (hcollecting : t.call = .collecting shards)
    (hall : t.pool.workers.length ≤ shards.length) : Tracks calm capacity workers (t.answer (.ok shards)) := by
  have hfits := h.fits
  have hwaits := h.waits
  have hreached := h.reached
  have hcollected := h.collected
  rw [hcollecting] at hfits hwaits hreached hcollected
  refine ⟨h.length, h.room, Nat.zero_le _, fun i w hw => ?_, .inl rfl, fun i s hs => (by cases hs),
    h.answered.returned ⟨?_, hcollected⟩⟩
  · obtain ⟨hstage, hholds, hcalm⟩ := hfits i w hw
    have hlt : i < t.pool.workers.length := (List.getElem?_eq_some_iff.1 hw).1
    simp only [Call.due] at hholds
    rw [if_pos (by omega), ← hwaits.resolve_left (by simp) i] at hholds
    exact ⟨(hstage.done (by omega)).quiet, hholds, hcalm⟩
  · exact Nat.le_antisymm hreached (h.length ▸ hall)

/-- **An answer goes from the worker to the caller.** -/
theorem collect (h : Tracks calm capacity workers t) {shards : List Flow.Snapshot} (hcollecting : t.call = .collecting shards) :
    Tracks calm capacity workers (t.collect shards) := by
  have hfits := h.fits
  have hwaits := h.waits
  have hcollected := h.collected
  rw [hcollecting] at hfits hwaits hcollected
  cases hw : t.pool.workers[shards.length]? with
  | none =>
    simp only [Session.collect, hw]
    exact h.comeBack hcollecting (List.getElem?_eq_none_iff.1 hw)
  | some w =>
    obtain ⟨hstage, hholds, hcalm⟩ := hfits _ w hw
    have hlt := (List.getElem?_eq_some_iff.1 hw).1
    simp only [Call.stage, Stage.Expects, Nat.lt_irrefl, if_false] at hstage
    simp only [Call.due, Nat.lt_irrefl, if_false] at hholds
    cases hstage with
    | pending before inbox packets replies => simpa only [Session.collect, hw, replies, hholds.alive, if_false] using h
    | answered answer emptied replies =>
      simp only [Session.collect, hw, replies]
      -- what the worker gives is what it held, so from here on it has nothing to show
      obtain ⟨howed, hholds'⟩ := hholds.give emptied replies
      refine ⟨List.length_set.trans h.length, h.room, ?_, fun j v hv => ?_, .inr (hwaits.resolve_left (by simp)),
        fun j s hs => ?_, h.answered⟩
      · rw [← h.length]
        simp only [Call.stage, Stage.reached, List.length_append, List.length_singleton]
        exact hlt
      · rcases getElem?_set_cases hv with ⟨rfl, rfl⟩ | ⟨hj, hv'⟩
        · refine ⟨?_, ?_, hcalm⟩
          · simp only [Call.stage, Stage.Expects, List.length_append, List.length_singleton, Nat.lt_succ_self, if_true]
            exact ⟨⟨emptied.condition, emptied.inbox, emptied.shard⟩, rfl⟩
          · simpa only [Call.due, List.length_append, List.length_singleton, Nat.lt_succ_self, if_true] using hholds'
        · obtain ⟨hstage', hholds'', hcalm'⟩ := hfits j v hv'
          have hsame : j < shards.length + 1 ↔ j < shards.length := by omega
          refine ⟨hstage'.taken hj answer, ?_, hcalm'⟩
          simpa only [Call.due, List.length_append, List.length_singleton, hsame] using hholds''
      · simp only [Call.stage, Stage.shards] at hs hcollected
        rw [List.getElem?_append] at hs
        split at hs
        · exact hcollected j s hs
        · obtain ⟨hj, rfl⟩ : j = shards.length ∧ answer = s := by
            rw [List.getElem?_singleton] at hs
            split at hs
            · exact ⟨by omega, Option.some.inj hs⟩
            · cases hs
          rw [hj]
          exact howed

/-- **Every step keeps track.** -/
theorem step (h : Tracks calm capacity workers t) {c : Choice} (hc : c.Sound calm) : Tracks calm capacity workers (t.step c) := by
  cases c with
  | pass now => exact h.withShared _
  | overflow q => exact h.withShared _
  | work i => exact h.act Worker.steady_work (fun sh hw hstage => hw.work hstage sh) (fun sh hw => hw.work sh) i
  | resume i =>
    refine h.act Worker.steady_resume (fun sh hw _ => hw.resume sh) (fun {w} sh hw => ?_) i
    rcases w.resume_cases sh with ⟨_, -, hresume⟩ | hresume <;> rw [hresume] <;> exact hw
  | dispatch p fate =>
    simp only [Session.step]
    cases hcall : t.call with
    | idle =>
      have hadvance : t.pool.advance.workers = t.pool.workers ∧ t.pool.advance.room = t.pool.room := ⟨rfl, rfl⟩
      have := h.handed (p := p) hcall hadvance hc t.pool.turn
      rw [Pool.dispatch, Pool.dispatchTo]
      cases hsend : t.pool.advance.send t.pool.turn (.packet p fate) <;> simpa only [hsend] using this
    | asking next => exact h
    | collecting shards => exact h
  | dispatchTo i p fate =>
    simp only [Session.step]
    cases hcall : t.call with
    | idle => exact h.handed hcall ⟨rfl, rfl⟩ hc i
    | asking next => exact h
    | collecting shards => exact h
  | evict =>
    simp only [Session.step]
    cases hcall : t.call with
    | idle => exact h.call hcall
    | asking next => exact h
    | collecting shards => exact h
  | evictAtOnce =>
    obtain rfl : calm = true := hc
    simp only [Session.step]
    cases hcall : t.call with
    | idle =>
      have := h.callAtOnce hcall
      rwa [hcall] at this
    | asking next => exact h
    | collecting shards => exact h
  | proceed =>
    simp only [Session.step]
    cases hcall : t.call with
    | idle => exact h
    | asking next => exact h.ask hcall
    | collecting shards => exact h.collect hcall

/-- **A whole session keeps track.** -/
theorem follow : ∀ (choices : List Choice) {t : Session}, Tracks calm capacity workers t → (∀ c ∈ choices, c.Sound calm) →
    Tracks calm capacity workers (t.follow choices)
  | [], _, h, _ => h
  | c :: rest, _, h, hc => follow rest (h.step (hc c List.mem_cons_self)) fun c' hc' => hc c' (List.mem_cons_of_mem _ hc')

theorem leads (h : Tracks calm capacity workers t) {t' : Session} (hleads : Leads t t') : Tracks calm capacity workers t' := by
  obtain ⟨choices, honward, rfl⟩ := hleads
  exact h.follow choices fun c hc => (honward c hc).sound calm

theorem start (workers room : Nat) {settings : MeterSettings} (hs : settings.sampling = 0) (draws : List UInt32)
    (shared : Shared) (calm : Bool) :
    Tracks calm settings.capacity.toNat (max workers 1) (Session.start workers room settings draws shared) := by
  refine ⟨List.length_replicate, Nat.le_max_right room 1, Nat.zero_le _, fun i w hw => ?_, .inl rfl, fun i s hs => (by cases hs),
    fun a earlier hsuffix => (by cases List.suffix_nil.1 hsuffix)⟩
  obtain rfl := List.eq_of_mem_replicate (List.mem_of_getElem? hw)
  refine ⟨⟨List.not_mem_nil, rfl⟩, ⟨hs, rfl, by simp, fun p hp => (by cases hp), [], ?_, rfl⟩, fun _ p hp => (by cases hp)⟩
  simp [Flow.kept, Flow.observed, Flow.firstFlows]
  rfl

/-- All answers can be taken. -/
theorem collect_all : ∀ (k : Nat) {t : Session} {shards : List Flow.Snapshot}, Tracks calm capacity workers t →
    t.call = .collecting shards → shards.length + k = t.pool.workers.length → ∃ t', Leads t t' ∧ t'.call = .idle
  | 0, t, shards, _, hcall, hk => by
    refine ⟨t.step .proceed, .step (c := .proceed) trivial, ?_⟩
    simp only [Session.step, hcall, Session.collect, List.getElem?_eq_none (show t.pool.workers.length ≤ shards.length by omega)]
    rfl
  | k + 1, t, shards, h, hcall, hk => by
    obtain ⟨w, hw⟩ : ∃ w, t.pool.workers[shards.length]? = some w := ⟨_, List.getElem?_eq_getElem (by omega)⟩
    obtain ⟨t₁, w₁, hleads, hsame, hw₁, hend⟩ := exhaust _ hw (Nat.le_refl _)
    have hcall₁ := hsame.call.trans hcall
    obtain ⟨hstage, hholds, -⟩ := (h.leads hleads).fits _ w₁ hw₁
    simp only [hcall₁, Call.stage, Stage.Expects, Nat.lt_irrefl, if_false] at hstage
    cases hstage with
    | pending before inbox =>
      rw [hend.resolve_left hholds.alive] at inbox
      cases before <;> cases inbox
    | answered answer emptied replies =>
      have hcollect : t₁.step .proceed = t₁.collect shards := by simp only [Session.step, hcall₁]
      simp only [Session.collect, hw₁, replies] at hcollect
      have hleads' := hleads.trans (.step (c := .proceed) trivial)
      obtain ⟨t', hrest, hidle⟩ := collect_all k (h.leads hleads') (by rw [hcollect]) (by
        rw [hcollect]
        simp only [List.length_append, List.length_singleton, List.length_set, hsame.length]
        omega)
      exact ⟨t', hleads'.trans hrest, hidle⟩

/-- **A call comes back when the workers go on.** -/
theorem exists_idle (h : Tracks calm capacity workers t) : ∃ t', Leads t t' ∧ t'.call = .idle := by
  have hreached := h.length ▸ h.reached
  cases hcall : t.call with
  | idle => exact ⟨t, .refl t, hcall⟩
  | asking next =>
    rw [hcall] at hreached
    obtain ⟨t₁, hleads, hcollecting | hidle⟩ := ask_all _ hcall h.room (Nat.add_sub_of_le hreached)
    · obtain ⟨t', hrest, hidle⟩ := collect_all _ (h.leads hleads) hcollecting (Nat.zero_add _)
      exact ⟨t', hleads.trans hrest, hidle⟩
    · exact ⟨t₁, hleads, hidle⟩
  | collecting shards =>
    rw [hcall] at hreached
    exact collect_all _ h hcall (Nat.add_sub_of_le hreached)

end Tracks

/-- **Every call is answered with what was accepted since the call before**, whatever the workers do in between.  Of a pool that
counts all packets and whose workers do not die, each worker answers with the first flows among the packets that it accepted after
the call before and before this call, as many as it may keep, each with all of its packets; a call can always come back; and
what the caller sees is the same for any other overflow queue. -/
theorem evictions_answer (workers room : Nat) {settings : MeterSettings} (hs : settings.sampling = 0) (draws : List UInt32)
    (shared : Shared) (calm : Bool) (choices : List Choice) (hchoices : ∀ c ∈ choices, c.Sound calm) :
    Answered settings.capacity.toNat (max workers 1) ((start workers room settings draws shared).follow choices).log ∧
      (∃ t', Leads ((start workers room settings draws shared).follow choices) t' ∧ t'.call = .idle) ∧
      ∀ (queue : Overflow.Queue) (choices' : List Choice), choices'.map Choice.blind = choices.map Choice.blind →
        ((start workers room settings draws { shared with queue }).follow choices').log =
          ((start workers room settings draws shared).follow choices).log := by
  have h := (Tracks.start workers room hs draws shared calm).follow choices hchoices
  exact ⟨h.answered, h.exists_idle, fun queue choices' hsame => log_of_blind rfl hsame⟩

/-- A packet finds a full inbox, another one finds no room in the shard, the request waits for room, and one worker stands still
with a packet in its hands while its answer is due. -/
theorem evictions_answer_full_inbox :
    let p : Packet := { frame := List.replicate 14 6, length := 60, interface := 1, direction := .ingress }
    let q : Packet := { frame := List.replicate 14 7, length := 80, interface := 1, direction := .ingress }
    let shared : Shared := { clock := { now := 5 }, queue := .ofSlots 1 }
    let choices : List Choice :=
      [.dispatch p .proceeds, .dispatch p .stalls, .dispatchTo 0 q .proceeds, .work 0, .dispatchTo 0 q .proceeds, .evict,
        .proceed, .work 0, .proceed, .work 1, .proceed, .proceed, .proceed, .work 0, .proceed, .resume 1, .work 1, .proceed,
        .proceed]
    let t := (start 2 1 { capacity := 1 } [] shared).follow choices
    (∀ c ∈ choices, c.Sound false) ∧ Answered 1 2 t.log ∧
      t.log.head?.any (fun e => match e with
        | .returned (.ok shards) => shards.map volumes = [owed 1 [p, q], owed 1 [p]]
        | _ => false) := by
  intro p q shared choices t
  have hsound : ∀ c ∈ choices, c.Sound false := by simp [choices, Choice.Sound]
  exact ⟨hsound, (evictions_answer 2 1 rfl [] shared false choices hsound).1, by decide +kernel⟩

end Session
end FlowMeter.Pool
