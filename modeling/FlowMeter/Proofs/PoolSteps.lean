import FlowMeter.Proofs.WorkerStages
/-!
# A pool and its caller, step by step

Between two moves of a pool's caller every worker may take any number of steps, and a caller that empties the pool waits for
each worker in turn: first for room in its inbox, and then for its answer.  `Session.step` is one step of the caller, of a
worker or of what is around them, `Session.follow` any succession of them, and the log is what the caller has seen.  From every
point of a call to the end of its requests there is a way (`Session.ask_all`), whatever becomes of the workers.
-/
namespace FlowMeter.Pool

/-- What the caller of a pool is at. -/
inductive Call where
  | idle
  /-- It empties the pool, and has asked the workers before this one. -/
  | asking (next : Nat)
  /-- It has asked all workers, and these are the answers of the first ones. -/
  | collecting (shards : List Flow.Snapshot)
  deriving DecidableEq, Repr

inductive Event where
  | accepted (worker : Nat) (p : Packet)
  | refused (p : Packet) (failure : DispatchFailure)
  /-- The caller has begun to empty the pool. -/
  | called
  | returned (answer : Except EvictFailure (List Flow.Snapshot))

namespace Event

/-- The packets that a worker has accepted since the pool was last to be emptied, oldest first.  Of the events, the latest one
comes first. -/
def acceptedSince (i : Nat) : List Event → List Packet
  | [] => []
  | accepted j p :: earlier => acceptedSince i earlier ++ if j = i then [p] else []
  | called :: _ => []
  | refused _ _ :: earlier | returned _ :: earlier => acceptedSince i earlier

/-- The packets that a worker had accepted when the pool was last to be emptied, since the time before that. -/
def acceptedBefore (i : Nat) : List Event → List Packet
  | [] => []
  | called :: earlier => acceptedSince i earlier
  | accepted _ _ :: earlier | refused _ _ :: earlier | returned _ :: earlier => acceptedBefore i earlier

end Event

structure Session where
  pool : Pool
  call : Call := .idle
  /-- What the caller has seen, the latest event first. -/
  log : List Event := []

namespace Session

/-- What can happen next: time passes or the overflow queue changes, a worker handles its oldest message or goes on after a stand,
or the caller makes a move.  It empties the pool at once, or in steps, of which `evict` is the first one. -/
inductive Choice where
  | pass (now : UInt64)
  | overflow (q : Overflow.Queue)
  | work (worker : Nat)
  | resume (worker : Nat)
  | dispatch (p : Packet) (fate : Fate)
  | dispatchTo (worker : Nat) (p : Packet) (fate : Fate)
  | evict
  | evictAtOnce
  | proceed

def start (workers room : Nat) (settings : MeterSettings) (draws : List UInt32) (shared : Shared) : Session where
  pool := Pool.start workers room settings draws shared

def withShared (t : Session) (shared : Shared) : Session := { t with pool := { t.pool with shared } }

def act (t : Session) (f : Worker → Shared → Worker × Shared) (i : Nat) : Session := { t with pool := t.pool.actAt f i }

def handed (t : Session) (i : Nat) (p : Packet) : Pool × Except DispatchFailure Unit → Session
  | (pool, .ok ()) => { t with pool, log := .accepted i p :: t.log }
  | (pool, .error e) => { t with pool, log := .refused p e :: t.log }

def dispatchTo (t : Session) (i : Nat) (p : Packet) (fate : Fate) : Session :=
  match t.pool.dispatchTo i p fate with
  | .ok pool => t.handed i p (pool, .ok ())
  | .error e => t.handed i p (t.pool, .error e)

def answer (t : Session) (a : Except EvictFailure (List Flow.Snapshot)) : Session :=
  { t with call := .idle, log := .returned a :: t.log }

/-- Asks the next worker for its flows, as soon as there is room in its inbox. -/
def ask (t : Session) (next : Nat) : Session :=
  if next < t.pool.workers.length then
    match t.pool.send next .evict with
    | .ok pool => { t with pool, call := .asking (next + 1) }
    | .error (.queueFull _) => t
    | .error _ => t.answer (.error (.stopped next))
  else { t with call := .collecting [] }

/-- Takes the next worker's answer, as soon as it is there. -/
def collect (t : Session) (shards : List Flow.Snapshot) : Session :=
  match t.pool.workers[shards.length]? with
  | none => t.answer (.ok shards)
  | some w =>
    match w.replies with
    | s :: rest =>
      { t with
        pool := { t.pool with workers := t.pool.workers.set shards.length { w with replies := rest } }
        call := .collecting (shards ++ [s]) }
    | [] => if w.condition = .stopped then t.answer (.error (.died shards.length)) else t

/-- One step; what the caller cannot do while it waits leaves everything as it is. -/
def step (t : Session) : Choice → Session
  | .pass now => t.withShared { t.pool.shared with clock := t.pool.shared.clock.moveTo now }
  | .overflow queue => t.withShared { t.pool.shared with queue }
  | .work i => t.act Worker.work i
  | .resume i => t.act Worker.resume i
  | .dispatch p fate =>
    match t.call with
    | .idle => t.handed t.pool.turn p (t.pool.dispatch p fate)
    | _ => t
  | .dispatchTo i p fate =>
    match t.call with
    | .idle => t.dispatchTo i p fate
    | _ => t
  | .evict =>
    match t.call with
    | .idle => { t with call := .asking 0, log := .called :: t.log }
    | _ => t
  | .evictAtOnce =>
    match t.call with
    | .idle => { t with pool := t.pool.evict.1, log := .returned t.pool.evict.2 :: .called :: t.log }
    | _ => t
  | .proceed =>
    match t.call with
    | .idle => t
    | .asking next => t.ask next
    | .collecting shards => t.collect shards

def follow (t : Session) : List Choice → Session
  | [] => t
  | c :: rest => (t.step c).follow rest

theorem follow_append : ∀ (choices more : List Choice) (t : Session),
    t.follow (choices ++ more) = (t.follow choices).follow more
  | [], _, _ => rfl
  | c :: rest, more, t => follow_append rest more (t.step c)

/-- What the workers do, and the caller when it goes on. -/
def Choice.Onward : Choice → Prop
  | work _ | resume _ | proceed => True
  | _ => False

/-- There is a way from one point of a session to another on which nothing new begins. -/
def Leads (t t' : Session) : Prop := ∃ choices, (∀ c ∈ choices, c.Onward) ∧ t.follow choices = t'

theorem Leads.refl (t : Session) : Leads t t := ⟨[], fun _ h => (by cases h), rfl⟩

theorem Leads.trans {t t' t'' : Session} (h : Leads t t') (h' : Leads t' t'') : Leads t t'' := by
  obtain ⟨choices, honward, rfl⟩ := h
  obtain ⟨more, honward', rfl⟩ := h'
  exact ⟨choices ++ more, fun c hc => (List.mem_append.1 hc).elim (honward c) (honward' c), follow_append ..⟩

theorem Leads.step {t : Session} {c : Choice} (hc : c.Onward) : Leads t (t.step c) :=
  ⟨[c], fun _ hc' => List.mem_singleton.1 hc' ▸ hc, rfl⟩

/-- Only workers have moved. -/
structure SameCaller (t t' : Session) : Prop where
  call : t'.call = t.call
  log : t'.log = t.log
  length : t'.pool.workers.length = t.pool.workers.length
  room : t'.pool.room = t.pool.room

theorem SameCaller.trans {t t' t'' : Session} (h : SameCaller t t') (h' : SameCaller t' t'') : SameCaller t t'' :=
  ⟨h'.call.trans h.call, h'.log.trans h.log, h'.length.trans h.length, h'.room.trans h.room⟩

theorem act_of_getElem? {t : Session} (f : Worker → Shared → Worker × Shared) {i : Nat} {w : Worker}
    (hw : t.pool.workers[i]? = some w) :
    t.act f i = { t with
      pool := { t.pool with workers := t.pool.workers.set i (f w t.pool.shared).1, shared := (f w t.pool.shared).2 } } := by
  simp only [act, actAt, hw]

theorem act_of_none {t : Session} (f : Worker → Shared → Worker × Shared) {i : Nat} (hw : t.pool.workers[i]? = none) :
    t.act f i = t := by
  simp only [act, actAt, hw]

theorem sameCaller_act (t : Session) (f : Worker → Shared → Worker × Shared) (i : Nat) : SameCaller t (t.act f i) := by
  cases hw : t.pool.workers[i]? with
  | none =>
    rw [act_of_none f hw]
    exact ⟨rfl, rfl, rfl, rfl⟩
  | some w =>
    rw [act_of_getElem? f hw]
    exact ⟨rfl, rfl, List.length_set, rfl⟩

theorem getElem?_act {t : Session} (f : Worker → Shared → Worker × Shared) {i : Nat} {w : Worker}
    (hw : t.pool.workers[i]? = some w) : (t.act f i).pool.workers[i]? = some (f w t.pool.shared).1 := by
  rw [act_of_getElem? f hw]
  exact List.getElem?_set_self (List.getElem?_eq_some_iff.1 hw).1

/-- **A worker that is left to itself comes to the end of its inbox.** -/
theorem exhaust : ∀ (n : Nat) {t : Session} {i : Nat} {w : Worker}, t.pool.workers[i]? = some w → w.inbox.length ≤ n →
    ∃ t' w', Leads t t' ∧ SameCaller t t' ∧ t'.pool.workers[i]? = some w' ∧ (w'.condition = .stopped ∨ w'.inbox = [])
  | 0, t, _, w, hw, hn =>
    ⟨t, w, .refl t, ⟨rfl, rfl, rfl, rfl⟩, hw, .inr (List.eq_nil_of_length_eq_zero (Nat.le_zero.1 hn))⟩
  | n + 1, t, i, w, hw, hn => by
    by_cases halive : w.condition = .stopped
    · exact ⟨t, w, .refl t, ⟨rfl, rfl, rfl, rfl⟩, hw, .inl halive⟩
    · have hw₁ := getElem?_act Worker.resume hw
      have hw₂ := getElem?_act Worker.work hw₁
      have hlength := Worker.length_inbox_work_resume halive t.pool.shared (t.act Worker.resume i).pool.shared
      obtain ⟨t', w', hleads, hsame, hw', hend⟩ := exhaust n hw₂ (by omega)
      have hresume : Leads t (t.act Worker.resume i) := .step (c := .resume i) trivial
      have hwork : Leads (t.act Worker.resume i) ((t.act Worker.resume i).act Worker.work i) := .step (c := .work i) trivial
      exact ⟨t', w', (hresume.trans hwork).trans hleads,
        ((sameCaller_act t _ i).trans (sameCaller_act _ _ i)).trans hsame, hw', hend⟩

/-- **The caller need not wait for ever with its requests**: at the end all workers have been asked, or the call has failed. -/
theorem ask_all : ∀ (k : Nat) {t : Session} {next : Nat}, t.call = .asking next → 0 < t.pool.room →
    next + k = t.pool.workers.length → ∃ t', Leads t t' ∧ (t'.call = .collecting [] ∨ t'.call = .idle)
  | 0, t, next, hcall, _, hk => by
    refine ⟨t.step .proceed, .step (c := .proceed) trivial, .inl ?_⟩
    simp only [step, hcall, ask]
    rw [if_neg (by omega)]
  | k + 1, t, next, hcall, hroom, hk => by
    obtain ⟨w, hw⟩ : ∃ w, t.pool.workers[next]? = some w := ⟨_, List.getElem?_eq_getElem (by omega)⟩
    obtain ⟨t₁, w₁, hleads, hsame, hw₁, hend⟩ := exhaust _ hw (Nat.le_refl _)
    have hcall₁ := hsame.call.trans hcall
    have hlength := hsame.length
    have hask : t₁.step .proceed = t₁.ask next := by simp only [step, hcall₁]
    rw [ask, if_pos (by omega), Pool.send, hw₁] at hask
    by_cases halive : w₁.condition = .stopped
    · simp only [halive, if_true] at hask
      refine ⟨t₁.step .proceed, hleads.trans (.step (c := .proceed) trivial), .inr ?_⟩
      rw [hask]
      rfl
    · have hempty : w₁.inbox.length < t₁.pool.room := by
        rw [hend.resolve_left halive, hsame.room]
        exact hroom
      simp only [halive, if_false, hempty, if_true] at hask
      have hcall₂ : (t₁.step .proceed).call = .asking (next + 1) := by rw [hask]
      obtain ⟨t', hrest, hend'⟩ := ask_all k hcall₂ (by rw [hask]; exact hsame.room ▸ hroom) (by
        rw [hask]
        simp only [List.length_set]
        omega)
      exact ⟨t', (hleads.trans (.step (c := .proceed) trivial)).trans hrest, hend'⟩

end Session
end FlowMeter.Pool
