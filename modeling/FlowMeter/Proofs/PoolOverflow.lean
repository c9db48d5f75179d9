import FlowMeter.Proofs.PoolSteps
/-!
# The caller of a pool does not see the overflow queue

A record that a worker sends on its way waits in the queue or is lost, and the worker goes on in the same way.  So two sessions
that differ in nothing but the queue, at the start and whenever it changes, give the caller the same log (`Session.log_of_blind`).
-/
namespace FlowMeter.Pool

/-- With a queue that takes no record. -/
def Shared.blind (s : Shared) : Shared := { s with queue := { slots := 0 } }

/-- Something that a worker does whatever the queue is, and that leaves a queue alone which takes no record. -/
def Blind (act : Worker → Shared → Worker × Shared) : Prop :=
  ∀ w s, act w s.blind = ((act w s).1, (act w s).2.blind)

theorem submit_blind (sighting : Sighting) : (Meter.submit { slots := 0 } sighting).1 = { slots := 0 } := by
  rcases sighting with _ | _ | (_ | _ | _ | _) <;> rfl

namespace Worker

theorem blind_work : Blind work := by
  rintro ⟨meter, inbox, condition, replies⟩ s
  rcases condition with _ | sighting | _
  · rcases inbox with _ | ⟨⟨p, fate⟩ | _, rest⟩
    · rfl
    · cases fate with
      | proceeds =>
        simp only [work, meet, Shared.blind, submit_blind]
      | stalls => rfl
      | dies => rfl
    · rfl
  · rfl
  · rfl

theorem blind_resume : Blind resume := by
  rintro ⟨meter, inbox, condition, replies⟩ s
  rcases condition with _ | sighting | _
  · rfl
  · simp only [resume, Shared.blind, submit_blind]
  · rfl

theorem blind_finish : Blind finish := by
  intro w s
  rw [finish, finish]
  generalize w.inbox.length = n
  induction n with
  | zero => rfl
  | succ n ih =>
    simp only [Nat.repeat]
    rw [ih]
    exact blind_work ..

end Worker

theorem blind_each {act : Worker → Shared → Worker × Shared} (h : Blind act) : ∀ (ws : List Worker) (s : Shared),
    each act ws s.blind = ((each act ws s).1, (each act ws s).2.blind)
  | [], _ => rfl
  | w :: rest, s => by
    simp only [each, h w s, blind_each h rest]

/-- The pool with a queue that takes no record. -/
def blind (p : Pool) : Pool := { p with shared := p.shared.blind }

variable (p : Pool)

theorem withEach_blind {act : Worker → Shared → Worker × Shared} (h : Blind act) :
    p.blind.withEach act = (p.withEach act).blind := by
  simp only [withEach, blind, blind_each h]

theorem actAt_blind {act : Worker → Shared → Worker × Shared} (h : Blind act) (i : Nat) :
    p.blind.actAt act i = (p.actAt act i).blind := by
  simp only [actAt, blind]
  cases p.workers[i]? with
  | none => rfl
  | some w => simp only [h w p.shared]

theorem send_blind (i : Nat) (m : Message) : p.blind.send i m = (p.send i m).map blind := by
  simp only [send, blind]
  cases p.workers[i]? with
  | none => rfl
  | some w =>
    by_cases halive : w.condition = .stopped
    · simp only [halive, if_true]
      rfl
    · by_cases hroom : w.inbox.length < p.room <;> simp only [halive, hroom, if_true, if_false] <;> rfl

theorem dispatch_blind (packet : Packet) (fate : Fate) :
    p.blind.dispatch packet fate = ((p.dispatch packet fate).1.blind, (p.dispatch packet fate).2) := by
  have hadvance : p.blind.advance = p.advance.blind := rfl
  rw [dispatch, dispatch, hadvance, dispatchTo, dispatchTo, send_blind, show p.blind.turn = p.turn from rfl]
  cases p.advance.send p.turn (.packet packet fate) <;> rfl

theorem ask_blind : ∀ (l : List Nat) (p : Pool), p.blind.ask l = ((p.ask l).1.blind, (p.ask l).2)
  | [], _ => rfl
  | i :: rest, p => by
    rw [ask, ask, send_blind]
    cases p.send i .evict with
    | error e => rfl
    | ok p' => exact ask_blind rest p'

theorem evict_blind : p.blind.evict = (p.evict.1.blind, p.evict.2) := by
  have hrelease : p.blind.release = p.release.blind := by
    rw [release, release, settle, settle, withEach_blind p Worker.blind_resume, withEach_blind _ Worker.blind_finish]
  rw [evict, evict, hrelease, ask_blind]
  simp only [settle, withEach_blind _ Worker.blind_finish]
  rfl

namespace Session

/-- The session with a queue that takes no record. -/
def blind (t : Session) : Session := { t with pool := t.pool.blind }

/-- The same choice when the queue is one that takes no record. -/
def Choice.blind : Choice → Choice
  | overflow _ => overflow { slots := 0 }
  | c => c

theorem handed_blind (t : Session) (i : Nat) (p : Packet) (r : Pool × Except DispatchFailure Unit) :
    t.blind.handed i p (r.1.blind, r.2) = (t.handed i p r).blind := by
  obtain ⟨pool, _ | _⟩ := r <;> rfl

theorem dispatchTo_blind (t : Session) (i : Nat) (p : Packet) (fate : Fate) :
    t.blind.dispatchTo i p fate = (t.dispatchTo i p fate).blind := by
  rw [dispatchTo, dispatchTo, show t.blind.pool = t.pool.blind from rfl, Pool.dispatchTo, Pool.dispatchTo, send_blind]
  cases t.pool.send i (.packet p fate) <;> rfl

theorem ask_blind (t : Session) (next : Nat) : t.blind.ask next = (t.ask next).blind := by
  rw [ask, ask, show t.blind.pool = t.pool.blind from rfl, send_blind]
  by_cases hnext : next < t.pool.workers.length
  · rw [if_pos hnext, if_pos (show next < t.pool.blind.workers.length from hnext)]
    rcases t.pool.send next .evict with (_ | _ | _) | pool <;> rfl
  · rw [if_neg hnext, if_neg (show ¬ next < t.pool.blind.workers.length from hnext)]
    rfl

theorem collect_blind (t : Session) (shards : List Flow.Snapshot) : t.blind.collect shards = (t.collect shards).blind := by
  rw [collect, collect, show t.blind.pool.workers = t.pool.workers from rfl]
  cases t.pool.workers[shards.length]? with
  | none => rfl
  | some w =>
    cases hreplies : w.replies with
    | nil =>
      simp only [hreplies]
      split <;> rfl
    | cons s rest =>
      simp only [hreplies]
      rfl

/-- **A step with a queue that takes no record is the same step.** -/
theorem step_blind (t : Session) (c : Choice) : t.blind.step c.blind = (t.step c).blind := by
  have hcall : t.blind.call = t.call := rfl
  cases c with
  | pass now => rfl
  | overflow q => rfl
  | work i => exact congrArg (fun pool => { t with pool }) (actAt_blind t.pool Worker.blind_work i)
  | resume i => exact congrArg (fun pool => { t with pool }) (actAt_blind t.pool Worker.blind_resume i)
  | dispatch p fate =>
    simp only [Choice.blind, step, hcall]
    cases t.call with
    | idle => exact (congrArg (t.blind.handed _ p) (dispatch_blind t.pool p fate)).trans (handed_blind ..)
    | asking next => rfl
    | collecting shards => rfl
  | dispatchTo i p fate =>
    simp only [Choice.blind, step, hcall]
    cases t.call with
    | idle => exact dispatchTo_blind t i p fate
    | asking next => rfl
    | collecting shards => rfl
  | evict =>
    simp only [Choice.blind, step, hcall]
    cases t.call <;> rfl
  | evictAtOnce =>
    simp only [Choice.blind, step, hcall]
    cases t.call with
    | idle => simp only [blind, evict_blind]
    | asking next => rfl
    | collecting shards => rfl
  | proceed =>
    simp only [Choice.blind, step, hcall]
    cases t.call with
    | idle => rfl
    | asking next => exact ask_blind t next
    | collecting shards => exact collect_blind t shards

theorem follow_blind : ∀ (choices : List Choice) (t : Session),
    t.blind.follow (choices.map Choice.blind) = (t.follow choices).blind
  | [], _ => rfl
  | c :: rest, t => by
    rw [List.map_cons, follow, step_blind, follow_blind rest, follow]

/-- **The log does not depend on the queue.** -/
theorem log_of_blind {t t' : Session} {choices choices' : List Choice} (h : t'.blind = t.blind)
    (hchoices : choices'.map Choice.blind = choices.map Choice.blind) : (t'.follow choices').log = (t.follow choices).log := by
  have heq := follow_blind choices' t'
  rw [h, hchoices, follow_blind] at heq
  exact (congrArg log heq).symm

end Session
end FlowMeter.Pool
