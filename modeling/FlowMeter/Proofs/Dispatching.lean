import FlowMeter.Proofs.PoolCalls
/-!
# How packets are handed to workers

With every packet that is dispatched the turn goes on by one worker, whatever becomes of the packet, and it never leaves the pool.
A packet is refused if there is no such worker, if the worker has died, or if its inbox is full; else it waits at the end of that
inbox.  `Pool.play` is one move of the caller, of a worker or of what is around them.  What holds of a worker whatever it does and
takes holds of all workers after every move (`Stands.play`) and every run (`Stands.playAll`), so the pool answers as `Routes` says at
every point of every run (`dispatch_routes`).
-/
namespace FlowMeter.Pool

/-- Offers a packet to one worker.  Nothing changes if it is refused. -/
def offer (p : Pool) (i : Nat) (packet : Packet) (fate : Fate) : Pool × Except DispatchFailure Unit :=
  match p.dispatchTo i packet fate with
  | .ok p' => (p', .ok ())
  | .error e => (p, .error e)

/-- What can happen to a pool: its caller hands over a packet, stops a worker at one, lets it go on or lets it die, or empties the
pool; all workers come to rest, or one of them takes a step; time passes; the overflow queue changes. -/
inductive Move where
  | dispatch (packet : Packet) (fate : Fate)
  | dispatchTo (worker : Nat) (packet : Packet) (fate : Fate)
  | hold (worker : Nat) (packet : Packet)
  | release
  | crash (worker : Nat) (packet : Packet)
  | evict
  | settle
  | work (worker : Nat)
  | resume (worker : Nat)
  | pass (now : UInt64)
  | overflow (queue : Overflow.Queue)

namespace Move

def isDispatch : Move → Bool
  | dispatch .. => true
  | _ => false

/-- What becomes of the packet's worker, if a packet is handed over. -/
def fate? : Move → Option Fate
  | dispatch _ fate | dispatchTo _ _ fate => some fate
  | hold .. => some .stalls
  | crash .. => some .dies
  | _ => none

end Move

def play (p : Pool) : Move → Pool
  | .dispatch packet fate => (p.dispatch packet fate).1
  | .dispatchTo i packet fate => (p.offer i packet fate).1
  | .hold i packet => (p.offer i packet .stalls).1.settle
  | .release => p.release
  | .crash i packet => (p.offer i packet .dies).1.settle
  | .evict => p.evict.1
  | .settle => p.settle
  | .work i => p.actAt Worker.work i
  | .resume i => p.actAt Worker.resume i
  | .pass now => { p with shared := { p.shared with clock := p.shared.clock.moveTo now } }
  | .overflow queue => { p with shared := { p.shared with queue } }

def playAll (p : Pool) : List Move → Pool
  | [] => p
  | m :: rest => (p.play m).playAll rest

/-- **What sending a message comes to.** -/
theorem send_cases (p : Pool) (i : Nat) (m : Message) :
    (p.workers[i]? = none ∧ p.send i m = .error (.noWorker i)) ∨
      ∃ w, p.workers[i]? = some w ∧
        (w.condition = .stopped ∧ p.send i m = .error (.stopped i) ∨
          w.condition ≠ .stopped ∧ p.room ≤ w.inbox.length ∧ p.send i m = .error (.queueFull i) ∨
          w.condition ≠ .stopped ∧ w.inbox.length < p.room ∧
            p.send i m = .ok { p with workers := p.workers.set i { w with inbox := w.inbox ++ [m] } }) := by
  cases hw : p.workers[i]? with
  | none => exact .inl ⟨rfl, by simp only [send, hw]⟩
  | some w =>
    refine .inr ⟨w, rfl, ?_⟩
    by_cases halive : w.condition = .stopped
    · exact .inl ⟨halive, by simp only [send, hw, halive, if_true]⟩
    · by_cases hroom : w.inbox.length < p.room
      · exact .inr (.inr ⟨halive, hroom, by simp only [send, hw, halive, if_false, hroom, if_true]⟩)
      · exact .inr (.inl ⟨halive, Nat.le_of_not_lt hroom, by simp only [send, hw, halive, if_false, hroom]⟩)

/-- The turn has no part in what sending a message comes to. -/
theorem send_advance (p : Pool) (i : Nat) (m : Message) : p.advance.send i m = (p.send i m).map advance := by
  simp only [send, advance]
  cases p.workers[i]? with
  | none => rfl
  | some w =>
    by_cases halive : w.condition = .stopped
    · simp only [halive, if_true, Except.map]
    · by_cases hroom : w.inbox.length < p.room
      · simp only [halive, if_false, hroom, if_true, Except.map, advance, List.length_set]
      · simp only [halive, if_false, hroom, Except.map]

/-- **A packet that is dispatched is offered to the worker whose turn it is**, and the turn moves on. -/
theorem dispatch_eq (p : Pool) (packet : Packet) (fate : Fate) :
    p.dispatch packet fate = ((p.offer p.turn packet fate).1.advance, (p.offer p.turn packet fate).2) := by
  rw [dispatch, dispatchTo, send_advance, offer, dispatchTo]
  cases p.send p.turn (.packet packet fate) <;> rfl

/-- Each worker does it, one after another. -/
theorem exists_getElem?_each (act : Worker → Shared → Worker × Shared) {ws : List Worker} (sh : Shared) {i : Nat} {w : Worker}
    (h : ws[i]? = some w) : ∃ sh', (each act ws sh).1[i]? = some (act w sh').1 := by
  induction ws generalizing sh i with
  | nil => cases h
  | cons v rest ih =>
    cases i with
    | zero =>
      cases h
      exact ⟨sh, rfl⟩
    | succ i => exact ih _ h

section Workers

/-- What holds of a worker, by its number, whatever it does and whatever it takes when it has room. -/
structure Lasts (room : Nat) (allowed : Message → Prop) (P : Nat → Worker → Prop) : Prop where
  work {i : Nat} {w : Worker} (sh : Shared) : P i w → P i (w.work sh).1
  resume {i : Nat} {w : Worker} (sh : Shared) : P i w → P i (w.resume sh).1
  accept {i : Nat} {w : Worker} {m : Message} : P i w → allowed m → w.condition ≠ .stopped → w.inbox.length < room →
    P i { w with inbox := w.inbox ++ [m] }
  forget {i : Nat} {w : Worker} : P i w → P i { w with replies := [] }
  evict : allowed .evict

/-- A pool of this size and this room, after so many packets have been dispatched, with something that holds of its workers. -/
structure Stands (P : Nat → Worker → Prop) (size space dispatched : Nat) (p : Pool) : Prop where
  length : p.workers.length = size
  room : p.room = space
  turn : p.turn = dispatched % size
  workers : ∀ (i : Nat) (w : Worker), p.workers[i]? = some w → P i w

variable {P : Nat → Worker → Prop} {allowed : Message → Prop} {size room n : Nat} {p : Pool}

theorem Lasts.finish (hP : Lasts room allowed P) {i : Nat} {w : Worker} (h : P i w) (sh : Shared) : P i (w.finish sh).1 :=
  Worker.finish_induction (P := P i) (fun _ sh => hP.work sh) h sh

namespace Stands

theorem actAt (h : Stands P size room n p) {act : Worker → Shared → Worker × Shared}
    (hact : ∀ {i w} (sh : Shared), P i w → P i (act w sh).1) (i : Nat) : Stands P size room n (p.actAt act i) := by
  rw [Pool.actAt]
  cases hw : p.workers[i]? with
  | none => exact h
  | some w =>
    refine ⟨List.length_set.trans h.length, h.room, h.turn, fun j v hv => ?_⟩
    rcases getElem?_set_cases hv with ⟨rfl, rfl⟩ | ⟨-, hv'⟩
    · exact hact _ (h.workers i w hw)
    · exact h.workers j v hv'

theorem withEach (h : Stands P size room n p) {act : Worker → Shared → Worker × Shared}
    (hact : ∀ {i w} (sh : Shared), P i w → P i (act w sh).1) : Stands P size room n (p.withEach act) := by
  refine ⟨(length_each ..).trans h.length, h.room, h.turn, fun i w hw => ?_⟩
  obtain ⟨w₀, sh, hw₀, rfl⟩ := exists_of_getElem?_each hw
  exact hact sh (h.workers i w₀ hw₀)

theorem settle (h : Stands P size room n p) (hP : Lasts room allowed P) : Stands P size room n p.settle :=
  h.withEach fun sh hw => hP.finish hw sh

theorem release (h : Stands P size room n p) (hP : Lasts room allowed P) : Stands P size room n p.release :=
  (h.withEach hP.resume).settle hP

theorem send (h : Stands P size room n p) (hP : Lasts room allowed P) {i : Nat} {m : Message} (hm : allowed m) {p' : Pool}
    (hsend : p.send i m = .ok p') : Stands P size room n p' := by
  rcases p.send_cases i m with ⟨-, he⟩ | ⟨w, hw, ⟨-, he⟩ | ⟨-, -, he⟩ | ⟨halive, hroom, hok⟩⟩
  · cases he.symm.trans hsend
  · cases he.symm.trans hsend
  · cases he.symm.trans hsend
  · rw [hok] at hsend
    obtain rfl := Except.ok.inj hsend
    refine ⟨List.length_set.trans h.length, h.room, h.turn, fun j v hv => ?_⟩
    rcases getElem?_set_cases hv with ⟨rfl, rfl⟩ | ⟨-, hv'⟩
    · exact hP.accept (h.workers i w hw) hm halive (h.room ▸ hroom)
    · exact h.workers j v hv'

theorem offer (h : Stands P size room n p) (hP : Lasts room allowed P) (i : Nat) {packet : Packet} {fate : Fate}
    (hm : allowed (.packet packet fate)) : Stands P size room n (p.offer i packet fate).1 := by
  rw [Pool.offer, dispatchTo]
  cases hsend : p.send i (.packet packet fate) with
  | ok p' => exact h.send hP hm hsend
  | error e => exact h

theorem advance (h : Stands P size room n p) : Stands P size room (n + 1) p.advance := by
  refine ⟨h.length, h.room, ?_, h.workers⟩
  rw [Pool.advance, h.turn, h.length, Nat.mod_add_mod]

theorem ask : ∀ (workers : List Nat) {p : Pool}, Stands P size room n p → Lasts room allowed P →
    Stands P size room n (p.ask workers).1
  | [], _, h, _ => h
  | i :: rest, p, h, hP => by
    rw [Pool.ask]
    cases hsend : p.send i .evict with
    | ok p' => exact ask rest (h.send hP hP.evict hsend) hP
    | error e => exact h

theorem forget (h : Stands P size room n p) (hP : Lasts room allowed P) : Stands P size room n p.forget := by
  refine ⟨(List.length_map ..).trans h.length, h.room, h.turn, fun i w hw => ?_⟩
  rw [Pool.forget, List.getElem?_map, Option.map_eq_some_iff] at hw
  obtain ⟨v, hv, rfl⟩ := hw
  exact hP.forget (h.workers i v hv)

theorem evict (h : Stands P size room n p) (hP : Lasts room allowed P) : Stands P size room n p.evict.1 :=
  ((ask _ (h.release hP) hP).settle hP).forget hP

/-- **What holds of the workers whatever they do holds after every move.** -/
theorem play (h : Stands P size room n p) (hP : Lasts room allowed P) {m : Move}
    (hm : ∀ packet fate, m.fate? = some fate → allowed (.packet packet fate)) :
    Stands P size room (n + if m.isDispatch then 1 else 0) (p.play m) := by
  cases m with
  | dispatch packet fate =>
    rw [Pool.play, dispatch_eq]
    exact (h.offer hP _ (hm packet fate rfl)).advance
  | dispatchTo i packet fate => exact h.offer hP i (hm packet fate rfl)
  | hold i packet => exact (h.offer hP i (hm packet .stalls rfl)).settle hP
  | release => exact h.release hP
  | crash i packet => exact (h.offer hP i (hm packet .dies rfl)).settle hP
  | evict => exact h.evict hP
  | settle => exact h.settle hP
  | work i => exact h.actAt hP.work i
  | resume i => exact h.actAt hP.resume i
  | pass now => exact ⟨h.length, h.room, h.turn, h.workers⟩
  | overflow queue => exact ⟨h.length, h.room, h.turn, h.workers⟩

theorem playAll : ∀ (moves : List Move) {n : Nat} {p : Pool}, Stands P size room n p → Lasts room allowed P →
    (∀ m ∈ moves, ∀ packet fate, m.fate? = some fate → allowed (.packet packet fate)) →
    Stands P size room (n + moves.countP Move.isDispatch) (p.playAll moves)
  | [], _, _, h, _, _ => h
  | m :: rest, n, p, h, hP, hm => by
    have hrest := playAll rest (h.play hP (hm m List.mem_cons_self)) hP fun m' hm' => hm m' (List.mem_cons_of_mem _ hm')
    rwa [Nat.add_right_comm, Nat.add_assoc, ← List.countP_cons] at hrest

/-- What holds of a new worker holds of those of a new pool. -/
theorem start (workers room : Nat) (settings : MeterSettings) (draws : List UInt32) (shared : Shared)
    (hP : ∀ i, P i { meter := Meter.ofSettings settings draws }) :
    Stands P (max workers 1) (max room 1) 0 (Pool.start workers room settings draws shared) := by
  refine ⟨List.length_replicate, rfl, (Nat.zero_mod _).symm, fun i w hw => ?_⟩
  rw [(List.mem_replicate.1 (List.mem_of_getElem? hw)).2]
  exact hP i

end Stands

end Workers

/-! ## What workers keep -/

theorem Worker.inbox_resume (w : Worker) (sh : Shared) : (w.resume sh).1.inbox = w.inbox := by
  rcases w.resume_cases sh with ⟨_, -, hw⟩ | hw <;> rw [hw]

/-- **No more messages wait than there is room for.** -/
theorem lasts_bounded (room : Nat) : Lasts room (fun _ => True) fun _ w => w.inbox.length ≤ room where
  work {_ w} sh h := (w.inbox_work_suffix sh).length_le.trans h
  resume {_ w} sh h := by rwa [w.inbox_resume sh]
  accept _ _ _ hroom := by
    rw [List.length_append]
    exact hroom
  forget h := h
  evict := trivial

/-- **A worker that has died stays dead.** -/
theorem lasts_stopped (room worker : Nat) : Lasts room (fun _ => True) fun i w => i = worker → w.condition = .stopped where
  work sh h hi := by
    rw [(Worker.Resting.of_stopped (h hi)).work]
    exact h hi
  resume {_ w} sh h hi := by
    rcases w.resume_cases sh with ⟨_, hc, -⟩ | hw
    · rw [h hi] at hc
      cases hc
    · rw [hw]
      exact h hi
  accept h _ halive _ hi := absurd (h hi) halive
  forget h := h
  evict := trivial

/-- **A worker dies of nothing but a packet that kills it.** -/
theorem lasts_alive (room : Nat) : Lasts room (fun m => ∀ p, m ≠ .packet p .dies) fun _ w =>
    w.condition ≠ .stopped ∧ ∀ p, .packet p .dies ∉ w.inbox where
  work {_ w} sh h := by
    refine ⟨?_, fun p hp => h.2 p ((w.inbox_work_suffix sh).subset hp)⟩
    rcases w.work_cases sh with ⟨p, fate, rest, hc, hi, hwork⟩ | ⟨rest, hc, hi, hwork, -⟩ | ⟨hwork, -⟩
    · rw [hwork]
      cases fate with
      | proceeds => exact h.1
      | stalls => exact fun hc' => by cases hc'
      | dies => exact absurd (hi ▸ List.mem_cons_self) (h.2 p)
    · rw [hwork]
      exact h.1
    · rw [hwork]
      exact h.1
  resume {_ w} sh h := by
    refine ⟨?_, fun p hp => h.2 p (w.inbox_resume sh ▸ hp)⟩
    rw [Worker.resume_of_alive h.1]
    exact fun hc => by cases hc
  accept h hm _ _ := ⟨h.1, fun p => List.not_mem_append (h.2 p) fun hp => hm p (List.mem_singleton.1 hp).symm⟩
  forget h := h
  evict := fun _ h => by cases h

/-- **A worker at work that comes to no stand dies of a packet in its inbox that kills it.** -/
theorem Worker.stopped_finish {w : Worker} (hc : w.condition = .working) (hcalm : w.Calm) {packet : Packet}
    (hdies : .packet packet .dies ∈ w.inbox) (sh : Shared) : (w.finish sh).1.condition = .stopped := by
  have hdoomed : (w.finish sh).1.condition = .stopped ∨
      (w.finish sh).1.condition = .working ∧ (w.finish sh).1.Calm ∧ .packet packet .dies ∈ (w.finish sh).1.inbox := by
    refine finish_induction (P := fun v => v.condition = .stopped ∨
      v.condition = .working ∧ v.Calm ∧ .packet packet .dies ∈ v.inbox) (fun v sh hv => ?_) (.inr ⟨hc, hcalm, hdies⟩) sh
    rcases hv with hstopped | ⟨hc, hcalm, hdies⟩
    · rw [(Resting.of_stopped hstopped).work]
      exact .inl hstopped
    · have hcalm' := hcalm.work sh
      rcases v.work_cases sh with ⟨p, fate, rest, -, hi, hwork⟩ | ⟨rest, -, hi, hwork, -⟩ | ⟨hwork, -⟩
      · rw [hwork] at hcalm' ⊢
        rw [hi] at hdies
        cases fate with
        | proceeds => exact .inr ⟨hc, hcalm', (List.mem_cons.1 hdies).resolve_left (by simp)⟩
        | stalls => exact absurd (hi ▸ List.mem_cons_self) (hcalm p)
        | dies => exact .inl rfl
      · rw [hwork] at hcalm' ⊢
        rw [hi] at hdies
        exact .inr ⟨hc, hcalm', (List.mem_cons.1 hdies).resolve_left (by simp)⟩
      · rw [hwork]
        exact .inr ⟨hc, hcalm, hdies⟩
  rcases hdoomed with hstopped | ⟨hc', -, hdies'⟩
  · exact hstopped
  · rw [w.resting_finish sh hc'] at hdies'
    cases hdies'

/-! ## What the caller is answered -/

/-- The worker of this number has died. -/
def DiedAt (p : Pool) (i : Nat) : Prop := ∃ w, p.workers[i]? = some w ∧ w.condition = .stopped

/-- The worker of this number is alive, and so many messages wait for it. -/
def WaitAt (p : Pool) (i messages : Nat) : Prop :=
  ∃ w, p.workers[i]? = some w ∧ w.condition ≠ .stopped ∧ w.inbox.length = messages

/-- What an offer to a worker comes to: of four answers just one is right, and only a packet that is taken changes anything. -/
structure Offered (size room : Nat) (p : Pool) (i : Nat) (packet : Packet) (fate : Fate) : Prop where
  noWorker : (p.offer i packet fate).2 = .error (.noWorker i) ↔ size ≤ i
  stopped : (p.offer i packet fate).2 = .error (.stopped i) ↔ p.DiedAt i
  queueFull : (p.offer i packet fate).2 = .error (.queueFull i) ↔ p.WaitAt i room
  ok : (p.offer i packet fate).2 = .ok () ↔ i < size ∧ ¬ p.DiedAt i ∧ ¬ p.WaitAt i room
  refused : (p.offer i packet fate).2 ≠ .ok () → (p.offer i packet fate).1 = p
  taken : (p.offer i packet fate).2 = .ok () → ∃ w, p.workers[i]? = some w ∧
    (p.offer i packet fate).1 = { p with workers := p.workers.set i { w with inbox := w.inbox ++ [.packet packet fate] } }

/-- What a pool of this size and this room answers after so many packets have been dispatched. -/
structure Routes (size room dispatched : Nat) (p : Pool) : Prop where
  dispatch (packet : Packet) (fate : Fate) : p.dispatch packet fate =
    ((p.offer (dispatched % size) packet fate).1.advance, (p.offer (dispatched % size) packet fate).2)
  inside (packet : Packet) (fate : Fate) (i : Nat) : (p.dispatch packet fate).2 ≠ .error (.noWorker i)
  offered (i : Nat) (packet : Packet) (fate : Fate) : Offered size room p i packet fate
  dead (i : Nat) : p.DiedAt i → ∀ later, (p.playAll later).DiedAt i
  crash (i : Nat) (w : Worker) (packet : Packet) : p.workers[i]? = some w → w.condition = .working → w.Calm →
    w.inbox.length < room → (p.play (.crash i packet)).DiedAt i

theorem diedAt_iff {p : Pool} {i : Nat} {w : Worker} (hw : p.workers[i]? = some w) : p.DiedAt i ↔ w.condition = .stopped := by
  simp [DiedAt, hw]

theorem waitAt_iff {p : Pool} {i : Nat} {w : Worker} (hw : p.workers[i]? = some w) (n : Nat) :
    p.WaitAt i n ↔ w.condition ≠ .stopped ∧ w.inbox.length = n := by
  simp [WaitAt, hw]

section Answers

variable {size room n : Nat} {p : Pool}

theorem Stands.offered (h : Stands (fun _ w => w.inbox.length ≤ room) size room n p) (i : Nat) (packet : Packet) (fate : Fate) :
    Offered size room p i packet fate := by
  rcases p.send_cases i (.packet packet fate) with ⟨hw, hsend⟩ | ⟨w, hw, hcases⟩
  · have hlen : size ≤ i := h.length ▸ List.getElem?_eq_none_iff.1 hw
    have hoffer : p.offer i packet fate = (p, .error (.noWorker i)) := by rw [Pool.offer, dispatchTo, hsend]
    constructor <;> simp [hoffer, DiedAt, WaitAt, hw, hlen, Nat.not_lt.2 hlen]
  · have hlen : i < size := h.length ▸ (List.getElem?_eq_some_iff.1 hw).1
    have hbound := h.workers i w hw
    have hroom := h.room
    rcases hcases with ⟨hc, hsend⟩ | ⟨hc, hfull, hsend⟩ | ⟨hc, hfree, hsend⟩
    · have hoffer : p.offer i packet fate = (p, .error (.stopped i)) := by rw [Pool.offer, dispatchTo, hsend]
      constructor <;> simp [hoffer, diedAt_iff hw, waitAt_iff hw, hc, Nat.not_le.2 hlen]
    · have hoffer : p.offer i packet fate = (p, .error (.queueFull i)) := by rw [Pool.offer, dispatchTo, hsend]
      have hcount : w.inbox.length = room := by omega
      constructor <;> simp [hoffer, diedAt_iff hw, waitAt_iff hw, hc, hcount, Nat.not_le.2 hlen]
    · have hcount : w.inbox.length ≠ room := by omega
      have hoffer : p.offer i packet fate =
          ({ p with workers := p.workers.set i { w with inbox := w.inbox ++ [.packet packet fate] } }, .ok ()) := by
        rw [Pool.offer, dispatchTo, hsend]
      constructor <;> simp [hoffer, diedAt_iff hw, waitAt_iff hw, hc, hcount, hlen, Nat.not_le.2 hlen, hw]

/-- **Only where there is no worker is none found.** -/
theorem Offered.ne_noWorker {i : Nat} {packet : Packet} {fate : Fate} (h : Offered size room p i packet fate) (hi : i < size)
    (j : Nat) : (p.offer i packet fate).2 ≠ .error (.noWorker j) := by
  intro hno
  by_cases hdied : p.DiedAt i
  · rw [h.stopped.2 hdied] at hno
    cases hno
  · by_cases hfull : p.WaitAt i room
    · rw [h.queueFull.2 hfull] at hno
      cases hno
    · rw [h.ok.2 ⟨hi, hdied, hfull⟩] at hno
      cases hno

theorem Stands.dead {P : Nat → Worker → Prop} (h : Stands P size room n p) {i : Nat} (hi : p.DiedAt i) (later : List Move) :
    (p.playAll later).DiedAt i := by
  obtain ⟨w, hw, hc⟩ := hi
  have hstopped : Stands (fun j v => j = i → v.condition = .stopped) size room n p :=
    ⟨h.length, h.room, h.turn, fun j v hv hj => by
      rw [hj, hw] at hv
      exact Option.some.inj hv ▸ hc⟩
  have hlater := Stands.playAll later hstopped (lasts_stopped room i) fun _ _ _ _ _ => trivial
  have hlt : i < (p.playAll later).workers.length := by
    rw [hlater.length, ← h.length]
    exact (List.getElem?_eq_some_iff.1 hw).1
  exact ⟨_, List.getElem?_eq_getElem hlt, hlater.workers i _ (List.getElem?_eq_getElem hlt) rfl⟩

/-- **A packet that kills its worker kills it at once**, if the worker is at work and comes to no stand. -/
theorem diedAt_crash {i : Nat} {w : Worker} (hw : p.workers[i]? = some w) (hc : w.condition = .working) (hcalm : w.Calm)
    (hroom : w.inbox.length < p.room) (packet : Packet) : (p.play (.crash i packet)).DiedAt i := by
  have halive : w.condition ≠ .stopped := by simp [hc]
  have haccepts : accepts p.room w = true := by simp [accepts, halive, hroom]
  have hcalm' : Worker.Calm { w with inbox := w.inbox ++ [.packet packet .dies] } := hcalm.append (by simp)
  rw [play, offer, dispatchTo, (send_eq hw _).1 haccepts]
  obtain ⟨sh, hfinish⟩ := exists_getElem?_each Worker.finish p.shared
    (List.getElem?_set_self (a := { w with inbox := w.inbox ++ [.packet packet .dies] }) (List.getElem?_eq_some_iff.1 hw).1)
  have hdies : .packet packet .dies ∈ w.inbox ++ [.packet packet .dies] := List.mem_append_right _ List.mem_cons_self
  exact ⟨_, hfinish, Worker.stopped_finish (w := { w with inbox := w.inbox ++ [.packet packet .dies] }) hc hcalm' hdies sh⟩

theorem Stands.routes (h : Stands (fun _ w => w.inbox.length ≤ room) size room n p) (hsize : 0 < size) : Routes size room n p where
  dispatch packet fate := by rw [dispatch_eq, h.turn]
  inside packet fate i hno := by
    rw [dispatch_eq, h.turn] at hno
    exact (h.offered _ packet fate).ne_noWorker (Nat.mod_lt n hsize) i hno
  offered := h.offered
  dead i hi := h.dead hi
  crash i w packet hw hc hcalm hroom := diedAt_crash hw hc hcalm (h.room ▸ hroom) packet

end Answers

/-- **Every packet goes where its turn says, and is refused for a reason.**  Whatever has happened to a pool, the next packet that is
dispatched is offered to the worker that the number of packets before it points at; an offer fails just if there is no such worker,
if the worker has died or if its inbox is full, and then changes nothing; else the packet waits at the end of the inbox.  The dead
stay dead, and no worker dies unless it is handed a packet that kills it. -/
theorem dispatch_routes (workers room : Nat) (settings : MeterSettings) (draws : List UInt32) (shared : Shared)
    (moves : List Move) :
    Routes (max workers 1) (max room 1) (moves.countP Move.isDispatch) ((start workers room settings draws shared).playAll moves) ∧
      ((∀ m ∈ moves, m.fate? ≠ some .dies) → ∀ i, ¬ ((start workers room settings draws shared).playAll moves).DiedAt i) := by
  have hbounded := (Stands.start workers room settings draws shared fun _ => Nat.zero_le _).playAll moves
    (lasts_bounded (max room 1)) fun _ _ _ _ _ => trivial
  rw [Nat.zero_add] at hbounded
  refine ⟨hbounded.routes (by omega), fun hmoves i ⟨w, hw, hc⟩ => ?_⟩
  have halive := (Stands.start workers room settings draws shared fun _ =>
      ⟨(by simp : Condition.working ≠ .stopped), fun _ => List.not_mem_nil⟩).playAll moves
    (lasts_alive (max room 1)) fun m hm packet fate hfate p hp => by
      cases hp
      exact hmoves m hm hfate
  exact (halive.workers i w hw).1 hc

-- one worker stands still and the other one takes no step, until both inboxes are full
example :
    let p : Packet := default
    let t := (start 2 2 {} [] { clock := { now := 5 }, queue := .ofSlots 1 }).playAll
      (.hold 1 p :: List.replicate 4 (.dispatch p .proceeds))
    (t.dispatch p .proceeds).2 = .error (.queueFull 0) ∧
      ((t.dispatch p .proceeds).1.dispatch p .proceeds).2 = .error (.queueFull 1) ∧
      (t.release.dispatch p .proceeds).2 = .ok () ∧
      ((t.release.play (.crash 1 p)).offer 1 p .proceeds).2 = .error (.stopped 1) := by decide +kernel

end FlowMeter.Pool
