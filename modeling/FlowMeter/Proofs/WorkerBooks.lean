import FlowMeter.Proofs.SocketSteps
/-!
# One worker and its ledger

`WorkerBooks` relates a worker to its ledger: what waits in its inbox is what was accepted and not handled, and every outcome
fits its packet.  A step of the worker keeps that, and all that it adds to the ledger it adds to its shard or to the queue
(`WorkerBooks.work`, `WorkerBooks.resume`).
-/
namespace FlowMeter

theorem zip_concat {α β : Type} {a : α} {b : β} : ∀ {l : List α} {m : List β}, l[m.length]? = some a →
    l.zip (m ++ [b]) = l.zip m ++ [(a, b)]
  | [], _, h => by cases h
  | x :: l, [], h => by
    obtain rfl : x = a := by simpa using h
    simp
  | x :: l, y :: m, h => by
    rw [List.cons_append, List.zip_cons_cons, List.zip_cons_cons, zip_concat (by simpa using h), List.cons_append]

theorem zip_append_of_length_le {α β : Type} (r : List α) : ∀ {l : List α} {m : List β}, m.length ≤ l.length →
    (l ++ r).zip m = l.zip m
  | [], [], _ => by simp
  | _ :: _, [], _ => by simp
  | x :: l, y :: m, h => by
    rw [List.cons_append, List.zip_cons_cons, List.zip_cons_cons, zip_append_of_length_le r (by simpa using h)]

open FlowMeter.Flow (weigh AllDatable Metrics.volume)

namespace Agent.Ledger

variable {l : Ledger} {s : MeterSettings} {draws : List UInt32}

@[simp] theorem learn_nil : l.learn [] = l := by simp [learn]

theorem total_accept (h : l.outcomes.length ≤ l.accepted.length) (p : Packet) (id : Flow.Id) :
    (l.accept p).total s draws id = l.total s draws id := by
  rw [total, accept, zip_append_of_length_le [p] h, total]

/-- **One outcome more adds what its packet is worth.** -/
theorem total_learn {p : Packet} (h : l.accepted[l.outcomes.length]? = some p) (o : Outcome) (id : Flow.Id) :
    (l.learn [o]).total s draws id =
      l.total s draws id + o.credit (s.inSample draws l.outcomes.length) p id := by
  have hlen : (l.accepted.zip l.outcomes).length = l.outcomes.length := by
    have := (List.getElem?_eq_some_iff.1 h).1
    rw [List.length_zip]
    omega
  rw [total, learn, zip_concat h, List.mapIdx_concat, List.sum_append, hlen, List.sum_singleton, total]

end Agent.Ledger

namespace Pool

def Message.packet? : Message → Option Packet
  | .packet p _ => some p
  | .evict => none

namespace Worker

/-- Packets that have been met and whose outcomes are not known yet. -/
def inHand (w : Worker) : Nat :=
  match w.condition with
  | .held sighting => if sighting.settled?.isSome then 0 else 1
  | _ => 0

/-- What the worker has counted of a flow: in its shard, and in the snapshots that have not been collected. -/
def load (id : Flow.Id) (w : Worker) : Flow.Volume :=
  weigh Metrics.volume id w.meter.shard.snapshot + weigh Metrics.volume id w.replies.flatten

/-- **What a step of a worker is.** -/
theorem work_cases (w : Worker) (s : Shared) :
    (∃ p fate rest, w.condition = .working ∧ w.inbox = .packet p fate :: rest ∧
      w.work s = { w with inbox := rest }.meet s p fate) ∨
    (∃ rest, w.condition = .working ∧ w.inbox = .evict :: rest ∧ w.work s = ({ w with inbox := rest }.surrender, s) ∧
      w.outcomesOfWork s = []) ∨
    (w.work s = (w, s) ∧ w.outcomesOfWork s = []) := by
  obtain ⟨meter, inbox, condition, replies⟩ := w
  rcases condition with _ | sighting | _
  · rcases inbox with _ | ⟨_ | _, rest⟩
    · exact .inr (.inr ⟨rfl, rfl⟩)
    · exact .inl ⟨_, _, rest, rfl, rfl, rfl⟩
    · exact .inr (.inl ⟨rest, rfl, rfl, rfl, rfl⟩)
  · exact .inr (.inr ⟨rfl, rfl⟩)
  · exact .inr (.inr ⟨rfl, rfl⟩)

end Worker
end Pool

open Agent (Ledger)
open Pool (Worker Message Shared)

/-- A worker and its ledger agree. -/
structure WorkerBooks (s : MeterSettings) (draws : List UInt32) (boot : WallTime) (w : Worker) (l : Ledger) : Prop where
  settings : w.meter.settings = s
  handled : l.outcomes.length + w.inHand ≤ l.accepted.length
  drawn : w.meter.draws = s.drawsAfter draws (l.outcomes.length + w.inHand)
  waiting : l.accepted.drop (l.outcomes.length + w.inHand) = w.inbox.filterMap Message.packet?
  alive : w.condition ≠ .stopped
  fates : ∀ p, .packet p .dies ∉ w.inbox
  outcomes : ∀ (n : Nat) (o : Outcome), l.outcomes[n]? = some o → o.Fits (s.inSample draws n)
  /-- The record in the worker's hands is that of the first packet whose outcome is not known. -/
  hand : ∀ sighting, w.condition = .held sighting → sighting.settled? = none →
    ∃ r record p, sighting = .counted (.overflow r record) ∧ s.inSample draws l.outcomes.length = true ∧
      l.accepted[l.outcomes.length]? = some p ∧ record.Carries p ∧ record.metrics.Datable boot
  shard : AllDatable boot w.meter.shard.snapshot
  replies : AllDatable boot w.replies.flatten

/-- A step that keeps the books: what it adds to the ledger, it adds to the worker or to the queue. -/
structure BookedStep (s : MeterSettings) (draws : List UInt32) (boot : WallTime) (w w' : Worker) (sh sh' : Shared)
    (l l' : Ledger) : Prop where
  books : WorkerBooks s draws boot w' l'
  now : sh'.clock.now = sh.clock.now
  queue : AllDatable boot (sh'.queue.records.map Flow.Record.entry)
  balance : ∀ id, ∃ x y, w'.load id = w.load id + x ∧
    weigh Metrics.volume id (sh'.queue.records.map Flow.Record.entry) =
      weigh Metrics.volume id (sh.queue.records.map Flow.Record.entry) + y ∧
    l'.total s draws id = l.total s draws id + (x + y)

namespace WorkerBooks

variable {s : MeterSettings} {draws : List UInt32} {boot : WallTime} {w : Worker} {l : Ledger}

theorem fresh (s : MeterSettings) (draws : List UInt32) (boot : WallTime) :
    WorkerBooks s draws boot { meter := Meter.ofSettings s draws } {} where
  settings := rfl
  handled := Nat.le_refl 0
  drawn := by
    show draws = s.drawsAfter draws 0
    rw [MeterSettings.drawsAfter, List.drop_zero, ite_self]
  waiting := rfl
  alive := by simp
  fates p hp := by cases hp
  outcomes n o ho := by cases ho
  hand sighting hc := by cases hc
  shard e he := by cases he
  replies e he := by cases he

theorem outcomes_learn {outcomes : List Outcome} {b : Nat → Bool} {o : Outcome}
    (h : ∀ (n : Nat) (o : Outcome), outcomes[n]? = some o → o.Fits (b n)) (ho : o.Fits (b outcomes.length)) (n : Nat)
    (o' : Outcome) (hn : (outcomes ++ [o])[n]? = some o') : o'.Fits (b n) := by
  rw [List.getElem?_append] at hn
  split at hn
  · exact h n o' hn
  · rename_i hlt
    have : n = outcomes.length := by
      have := (List.getElem?_eq_some_iff.1 hn).1
      simp only [List.length_singleton] at this
      omega
    subst this
    obtain rfl : o = o' := by simpa using hn
    exact ho

/-- The record of a packet of the sample is sent: it waits in the queue and its packet is worth something, or it is lost and
its packet is worth nothing. -/
theorem send {r : Refusal} {record : Flow.Record} {p : Packet} {n : Nat} (hs : s.inSample draws n = true)
    (hp : record.Carries p) (hr : record.metrics.Datable boot) {q : Overflow.Queue}
    (hq : AllDatable boot (q.records.map Flow.Record.entry)) :
    AllDatable boot ((Meter.submit q (.counted (.overflow r record))).1.records.map Flow.Record.entry) ∧
      (Meter.submit q (.counted (.overflow r record))).2.Fits (s.inSample draws n) ∧
      ∀ id, weigh Metrics.volume id ((Meter.submit q (.counted (.overflow r record))).1.records.map Flow.Record.entry) =
        weigh Metrics.volume id (q.records.map Flow.Record.entry) +
          (Meter.submit q (.counted (.overflow r record))).2.credit (s.inSample draws n) p id := by
  rcases Meter.submit_cases q r record with ⟨q', hsubmit, hrecords⟩ | ⟨f, hsubmit⟩
  · rw [hsubmit, hrecords, List.map_append]
    refine ⟨hq.append fun e he => ?_, ⟨by simp [hs], by simp⟩, fun id => ?_⟩
    · obtain rfl := List.mem_singleton.1 he
      exact hr
    · rw [Flow.weigh_append, List.map_singleton, Flow.weigh_cons, Flow.weigh_nil, add_zero]
      simp only [Outcome.credit, Outcome.isLost, hs, Bool.false_eq_true, not_false_eq_true, and_self, if_true, ← hp id]
      rfl
  · rw [hsubmit]
    exact ⟨hq, ⟨by simp [hs], by simp⟩, fun id => by simp [Outcome.credit, Outcome.isLost]⟩

theorem accept (h : WorkerBooks s draws boot w l) (p : Packet) {fate : Pool.Fate} (hfate : fate ≠ .dies) :
    WorkerBooks s draws boot { w with inbox := w.inbox ++ [.packet p fate] } (l.accept p) where
  settings := h.settings
  handled := by
    have := h.handled
    simp only [Ledger.accept, List.length_append]
    exact Nat.le_add_right_of_le this
  drawn := h.drawn
  waiting := by
    rw [List.filterMap_append, ← h.waiting]
    exact List.drop_append_of_le_length h.handled
  alive := h.alive
  fates p' hp' := by
    rcases List.mem_append.1 hp' with hp' | hp'
    · exact h.fates p' hp'
    · cases List.mem_singleton.1 hp'
      exact hfate rfl
  outcomes := h.outcomes
  hand sighting hc hs := by
    obtain ⟨r, record, p', hsight, hsample, hp', hcarries⟩ := h.hand sighting hc hs
    refine ⟨r, record, p', hsight, hsample, ?_, hcarries⟩
    show (l.accepted ++ [p])[l.outcomes.length]? = _
    rw [List.getElem?_append_left (List.getElem?_eq_some_iff.1 hp').1, hp']
  shard := h.shard
  replies := h.replies

theorem ask (h : WorkerBooks s draws boot w l) : WorkerBooks s draws boot { w with inbox := w.inbox ++ [.evict] } l where
  settings := h.settings
  handled := h.handled
  drawn := h.drawn
  waiting := by
    rw [List.filterMap_append, ← h.waiting]
    exact (List.append_nil _).symm
  alive := h.alive
  fates p hp := by
    rcases List.mem_append.1 hp with hp | hp
    · exact h.fates p hp
    · cases List.mem_singleton.1 hp
  outcomes := h.outcomes
  hand := h.hand
  shard := h.shard
  replies := h.replies

/-- What changes neither the worker's load nor the ledger's total leaves the queue as it is. -/
theorem still {w' : Worker} {l' : Ledger} (h : WorkerBooks s draws boot w' l') {sh : Shared}
    (hq : AllDatable boot (sh.queue.records.map Flow.Record.entry)) (hload : ∀ id, w'.load id = w.load id)
    (htotal : ∀ id, l'.total s draws id = l.total s draws id) : BookedStep s draws boot w w' sh sh l l' where
  books := h
  now := rfl
  queue := hq
  balance id := ⟨0, 0, by rw [hload, add_zero], (add_zero _).symm, by rw [htotal, add_zero, add_zero]⟩

theorem getElem?_accepted (h : WorkerBooks s draws boot w l) {p : Packet} {fate : Pool.Fate} {rest : List Message}
    (hc : w.condition = .working) (hi : w.inbox = .packet p fate :: rest) :
    l.accepted[l.outcomes.length]? = some p ∧ l.accepted.drop (l.outcomes.length + 1) = rest.filterMap Message.packet? := by
  have hdrop : l.accepted.drop l.outcomes.length = p :: rest.filterMap Message.packet? := by
    have := h.waiting
    rw [Worker.inHand, hc, hi] at this
    exact this
  constructor
  · rw [← List.head?_drop, hdrop, List.head?_cons]
  · rw [← List.tail_drop, hdrop, List.tail_cons]

/-- The oldest packet has been met, and its outcome is known or its record is in the worker's hands. -/
theorem met (h : WorkerBooks s draws boot w l) {p : Packet} {fate : Pool.Fate} {rest : List Message}
    (hc : w.condition = .working) (hi : w.inbox = .packet p fate :: rest) {w' : Worker} {news : List Outcome}
    (hsettings : w'.meter.settings = s) (hdrawn : w'.meter.draws = s.drawsAfter draws (l.outcomes.length + 1))
    (hshard : AllDatable boot w'.meter.shard.snapshot) (hinbox : w'.inbox = rest) (hreplies : w'.replies = w.replies)
    (halive : w'.condition ≠ .stopped)
    (hnews : (∃ o : Outcome, news = [o] ∧ o.Fits (s.inSample draws l.outcomes.length) ∧
        ∀ sighting, w'.condition = .held sighting → sighting.settled?.isSome) ∨
      ∃ r record, news = [] ∧ w'.condition = .held (.counted (.overflow r record)) ∧
        s.inSample draws l.outcomes.length = true ∧ record.Carries p ∧ record.metrics.Datable boot) :
    WorkerBooks s draws boot w' (l.learn news) := by
  obtain ⟨hget, hdrop⟩ := h.getElem?_accepted hc hi
  have hlt := (List.getElem?_eq_some_iff.1 hget).1
  have hcount : (l.learn news).outcomes.length + w'.inHand = l.outcomes.length + 1 := by
    rcases hnews with ⟨o, rfl, -, hheld⟩ | ⟨r, record, rfl, hheld, -⟩
    · have : w'.inHand = 0 := by
        rw [Worker.inHand]
        split
        · rename_i sighting hsight
          rw [if_pos (hheld sighting hsight)]
        · rfl
      rw [this, Ledger.learn, List.length_append, List.length_singleton]
    · rw [Ledger.learn_nil, Worker.inHand, hheld]
      rfl
  refine ⟨hsettings, ?_, ?_, ?_, halive, ?_, ?_, ?_, hshard, hreplies ▸ h.replies⟩
  · rw [hcount]
    exact hlt
  · rw [hcount]
    exact hdrawn
  · rw [hcount, hinbox]
    exact hdrop
  · intro p' hp'
    rw [hinbox] at hp'
    exact h.fates p' (hi ▸ List.mem_cons_of_mem _ hp')
  · rcases hnews with ⟨o, rfl, hfits, -⟩ | ⟨r, record, rfl, -⟩
    · exact outcomes_learn h.outcomes hfits
    · rw [Ledger.learn_nil]
      exact h.outcomes
  · intro sighting hsight hsettled
    rcases hnews with ⟨o, rfl, -, hheld⟩ | ⟨r, record, rfl, hheld, hrecord⟩
    · have := hheld sighting hsight
      rw [hsettled] at this
      cases this
    · rw [hheld] at hsight
      cases hsight
      rw [Ledger.learn_nil]
      exact ⟨r, record, p, rfl, hrecord.1, hget, hrecord.2⟩

section

variable {p : Packet} {fate : Pool.Fate} {rest : List Message} {sh : Shared} {m' : Meter} {clock' : Clock} {sighting : Sighting}

/-- A packet is met whose outcome is known at once: it is in the shard, or it is worth nothing. -/
theorem meet_settled (h : WorkerBooks s draws boot w l) (hc : w.condition = .working) (hi : w.inbox = .packet p fate :: rest)
    (hq : AllDatable boot (sh.queue.records.map Flow.Record.entry))
    (htake : w.meter.take sh.clock none p = (m', clock', sighting)) (hsettings : m'.settings = s)
    (hdrawn : m'.draws = s.drawsAfter draws (l.outcomes.length + 1))
    (hclock : clock'.now = sh.clock.now) (hshard : AllDatable boot m'.shard.snapshot) {o : Outcome}
    (hsettled : sighting.settled? = some o) (hfits : o.Fits (s.inSample draws l.outcomes.length))
    (hweigh : ∀ id, weigh Metrics.volume id m'.shard.snapshot =
      weigh Metrics.volume id w.meter.shard.snapshot + o.credit (s.inSample draws l.outcomes.length) p id) :
    BookedStep s draws boot w (Worker.meet { w with inbox := rest } sh p fate).1 sh
      (Worker.meet { w with inbox := rest } sh p fate).2 l (l.learn [o]) := by
  have hbalance : ∀ id, (l.learn [o]).total s draws id =
      l.total s draws id + (o.credit (s.inSample draws l.outcomes.length) p id + 0) := fun id => by
    rw [Ledger.total_learn (h.getElem?_accepted hc hi).1, add_zero]
  have hload : ∀ id, weigh Metrics.volume id m'.shard.snapshot + weigh Metrics.volume id w.replies.flatten =
      w.load id + o.credit (s.inSample draws l.outcomes.length) p id := fun id => by
    rw [hweigh id, Worker.load, add_right_comm]
  cases fate with
  | proceeds =>
    simp only [Worker.meet, htake, Meter.submit_settled hsettled]
    refine ⟨h.met hc hi hsettings hdrawn hshard rfl rfl h.alive (.inl ⟨o, rfl, hfits, fun sighting hs => ?_⟩), hclock, hq,
      fun id => ⟨_, 0, hload id, (add_zero _).symm, hbalance id⟩⟩
    rw [hc] at hs
    cases hs
  | stalls =>
    simp only [Worker.meet, htake]
    refine ⟨h.met hc hi hsettings hdrawn hshard rfl rfl (by simp) (.inl ⟨o, rfl, hfits, fun sighting hs => ?_⟩), hclock, hq,
      fun id => ⟨_, 0, hload id, (add_zero _).symm, hbalance id⟩⟩
    cases hs
    rw [hsettled]
    rfl
  | dies => exact absurd (hi ▸ List.mem_cons_self) (h.fates p)

/-- A packet is met whose record leaves the worker, unless the worker stands still with it in its hands. -/
theorem meet_spilled (h : WorkerBooks s draws boot w l) (hc : w.condition = .working) (hi : w.inbox = .packet p fate :: rest)
    (hq : AllDatable boot (sh.queue.records.map Flow.Record.entry)) {r : Refusal} {record : Flow.Record}
    (htake : w.meter.take sh.clock none p = (m', clock', .counted (.overflow r record))) (hsettings : m'.settings = s)
    (hdrawn : m'.draws = s.drawsAfter draws (l.outcomes.length + 1)) (hclock : clock'.now = sh.clock.now)
    (hshard : m'.shard = w.meter.shard) (hsample : s.inSample draws l.outcomes.length = true) (hcarries : record.Carries p)
    (hrecord : record.metrics.Datable boot) :
    BookedStep s draws boot w (Worker.meet { w with inbox := rest } sh p fate).1 sh
      (Worker.meet { w with inbox := rest } sh p fate).2 l
      (l.learn (if fate = .proceeds then [(Meter.submit sh.queue (.counted (.overflow r record))).2] else [])) := by
  have hload : ∀ id, weigh Metrics.volume id m'.shard.snapshot + weigh Metrics.volume id w.replies.flatten =
      w.load id + 0 := fun id => by
    rw [hshard, Worker.load, add_zero]
  have hshard' : AllDatable boot m'.shard.snapshot := hshard ▸ h.shard
  cases fate with
  | proceeds =>
    obtain ⟨hq', hfits, hweigh⟩ := send hsample hcarries hrecord hq (r := r)
    simp only [Worker.meet, htake, if_true]
    refine ⟨h.met hc hi hsettings hdrawn hshard' rfl rfl h.alive (.inl ⟨_, rfl, hfits, fun sighting hs => ?_⟩), hclock, hq',
      fun id => ⟨0, _, hload id, hweigh id, ?_⟩⟩
    · rw [hc] at hs
      cases hs
    · rw [Ledger.total_learn (h.getElem?_accepted hc hi).1, zero_add]
  | stalls =>
    rw [if_neg (by simp)]
    simp only [Worker.meet, htake]
    refine ⟨h.met hc hi hsettings hdrawn hshard' rfl rfl (by simp) (.inr ⟨r, record, rfl, rfl, hsample, hcarries, hrecord⟩),
      hclock, hq, fun id => ⟨0, 0, hload id, (add_zero _).symm, ?_⟩⟩
    rw [Ledger.learn_nil, add_zero, add_zero]
  | dies => exact absurd (hi ▸ List.mem_cons_self) (h.fates p)

end

theorem meet (h : WorkerBooks s draws boot w l) {p : Packet} {fate : Pool.Fate} {rest : List Message}
    (hc : w.condition = .working) (hi : w.inbox = .packet p fate :: rest) {sh : Shared} (hnow : Datable boot sh.clock.now)
    (hq : AllDatable boot (sh.queue.records.map Flow.Record.entry)) :
    BookedStep s draws boot w (Worker.meet { w with inbox := rest } sh p fate).1 sh
      (Worker.meet { w with inbox := rest } sh p fate).2 l (l.learn (w.outcomesOfWork sh)) := by
  have hzero : w.inHand = 0 := by rw [Worker.inHand, hc]
  have hdrawn : w.meter.draws = w.meter.settings.drawsAfter draws l.outcomes.length := by
    rw [h.drawn, hzero, h.settings]
    rfl
  rcases htake : w.meter.take sh.clock none p with ⟨m', clock', sighting⟩
  obtain ⟨hsettings, hdrawn', hclock, hcases⟩ := w.meter.take_cases hdrawn sh.clock p htake
  rw [h.settings] at hsettings hdrawn' hcases
  have hnews : w.outcomesOfWork sh =
      if fate = .proceeds ∨ sighting.settled?.isSome then [(Meter.submit sh.queue sighting).2] else [] := by
    rw [Worker.outcomesOfWork, hc, hi]
    simp only [htake]
  rcases hcases with ⟨o, hsettled, hfits, hweigh, hdatable⟩ | ⟨r, record, rfl, hsample, hshard, hcarries, hdatable⟩
  · rw [hnews, if_pos (.inr (by rw [hsettled]; rfl)), Meter.submit_settled hsettled]
    exact h.meet_settled hc hi hq htake hsettings hdrawn' hclock (hdatable boot hnow h.shard) hsettled hfits hweigh
  · have hoverflow : (Sighting.counted (.overflow r record)).settled?.isSome = false := rfl
    simp only [hnews, hoverflow, Bool.false_eq_true, or_false]
    exact h.meet_spilled hc hi hq htake hsettings hdrawn' hclock hshard hsample hcarries (hdatable boot hnow)

/-- **A step of a worker keeps its books.** -/
theorem work (h : WorkerBooks s draws boot w l) {sh : Shared} (hnow : Datable boot sh.clock.now)
    (hq : AllDatable boot (sh.queue.records.map Flow.Record.entry)) :
    BookedStep s draws boot w (w.work sh).1 sh (w.work sh).2 l (l.learn (w.outcomesOfWork sh)) := by
  rcases w.work_cases sh with ⟨p, fate, rest, hc, hi, hwork⟩ | ⟨rest, hc, hi, hwork, hnews⟩ | ⟨hwork, hnews⟩
  · rw [hwork]
    exact h.meet hc hi hnow hq
  · have hzero : w.inHand = 0 := by rw [Worker.inHand, hc]
    rw [hwork, hnews, Ledger.learn_nil]
    have hreplies : AllDatable boot (w.replies ++ [w.meter.shard.snapshot]).flatten := by
      rw [List.flatten_append, List.flatten_cons, List.flatten_nil, List.append_nil]
      exact h.replies.append h.shard
    have hbooks : WorkerBooks s draws boot (Worker.surrender { w with inbox := rest }) l := by
      refine ⟨h.settings, h.handled, h.drawn, ?_, h.alive, ?_, h.outcomes, h.hand, fun e he => (by cases he), hreplies⟩
      · have := h.waiting
        rw [hi] at this
        exact this
      · exact fun p hp => h.fates p (hi ▸ List.mem_cons_of_mem _ hp)
    refine hbooks.still hq (fun id => ?_) (fun _ => rfl)
    show weigh Metrics.volume id [] + weigh Metrics.volume id (w.replies ++ [w.meter.shard.snapshot]).flatten = _
    rw [List.flatten_append, List.flatten_cons, List.flatten_nil, List.append_nil, Flow.weigh_append, Flow.weigh_nil,
      zero_add, add_comm]
    rfl
  · rw [hwork, hnews, Ledger.learn_nil]
    exact h.still hq (fun _ => rfl) (fun _ => rfl)

/-- **A worker that goes on keeps its books.** -/
theorem resume (h : WorkerBooks s draws boot w l) {sh : Shared}
    (hq : AllDatable boot (sh.queue.records.map Flow.Record.entry)) :
    BookedStep s draws boot w (w.resume sh).1 sh (w.resume sh).2 l (l.learn (w.outcomesOfResume sh)) := by
  cases hc : w.condition with
  | working =>
    simp only [Worker.resume, Worker.outcomesOfResume, hc, Ledger.learn_nil]
    exact h.still hq (fun _ => rfl) (fun _ => rfl)
  | stopped => exact absurd hc h.alive
  | held sighting =>
    simp only [Worker.resume, Worker.outcomesOfResume, hc]
    cases hs : sighting.settled? with
    | some o =>
      have hzero : w.inHand = 0 := by
        rw [Worker.inHand, hc]
        simp only [hs, Option.isSome_some, if_true]
      have hhandled := h.handled
      have hdrawn := h.drawn
      have hwaiting := h.waiting
      rw [hzero] at hhandled hdrawn hwaiting
      rw [Meter.submit_settled hs, Option.isSome_some, if_pos rfl, Ledger.learn_nil]
      have hbooks : WorkerBooks s draws boot { w with condition := .working } l :=
        ⟨h.settings, hhandled, hdrawn, hwaiting, by simp, h.fates, h.outcomes, fun _ hs' => (by cases hs'), h.shard, h.replies⟩
      exact hbooks.still hq (fun _ => rfl) (fun _ => rfl)
    | none =>
      obtain ⟨r, record, p, rfl, hsample, hget, hcarries, hrecord⟩ := h.hand sighting hc hs
      obtain ⟨hq', hfits, hweigh⟩ := send hsample hcarries hrecord hq (r := r)
      have hone : w.inHand = 1 := by
        rw [Worker.inHand, hc]
        rfl
      have hhandled := h.handled
      have hdrawn := h.drawn
      have hwaiting := h.waiting
      rw [hone] at hhandled hdrawn hwaiting
      have hlen : (l.outcomes ++ [(Meter.submit sh.queue (.counted (.overflow r record))).2]).length = l.outcomes.length + 1 :=
        List.length_append
      rw [Option.isSome_none, if_neg (by simp)]
      refine ⟨⟨h.settings, ?_, ?_, ?_, by simp, h.fates, outcomes_learn h.outcomes hfits, fun _ hs' => (by cases hs'),
        h.shard, h.replies⟩, rfl, hq', fun id => ⟨0, _, (add_zero _).symm, hweigh id, ?_⟩⟩
      · show (l.outcomes ++ _).length + 0 ≤ _
        rw [hlen]
        exact hhandled
      · show _ = s.drawsAfter draws ((l.outcomes ++ _).length + 0)
        rw [hlen]
        exact hdrawn
      · show l.accepted.drop ((l.outcomes ++ _).length + 0) = _
        rw [hlen]
        exact hwaiting
      · rw [Ledger.total_learn hget, zero_add]

end WorkerBooks
end FlowMeter
