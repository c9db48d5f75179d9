import FlowMeter.Proofs.WorkerStages
import Mathlib.Tactic.Abel
/-!
# The books of a socket run

`Books` is what holds after every step of a run: each worker agrees with its ledger and is where the stage of the loop wants
it, and for every flow what was exported and what the stores hold are together what the ledgers say.  Each step keeps it
(`Books.step`), and a run that is over has nothing in its stores.
-/
namespace FlowMeter

open FlowMeter.Flow (weigh AllDatable Metrics.volume)
open Pool (Worker Shared)

namespace Agent

namespace Stage

/-- The answers that have been taken. -/
def shards : Stage → List Flow.Snapshot
  | collecting shards _ => shards
  | _ => []

/-- How many workers have been asked, or have given their answers. -/
def reached : Stage → Nat
  | asking next _ => next
  | collecting shards _ => shards.length
  | _ => 0

/-- Where the loop wants a worker. -/
def Expects : Stage → Nat → Worker → Prop
  | waiting, _, w => w.Quiet
  | asking next _, i, w => if i < next then w.Asked else w.Quiet
  | collecting shards _, i, w => if i < shards.length then w.Done else w.Asked
  | ended, _, w => w.Done

theorem Expects.act {stage : Stage} {i : Nat} {w : Worker} {act : Worker → Shared → Worker × Shared}
    {news : Worker → Shared → List Outcome} (hact : Worker.Steady act news) (sh : Shared)
    (hfates : ∀ p, .packet p .dies ∉ w.inbox) (h : stage.Expects i w) : stage.Expects i (act w sh).1 := by
  have hdone : w.Done → (act w sh).1.Done := fun h => by rwa [hact.emptied sh h.emptied]
  cases stage with
  | waiting => exact hact.quiet sh h
  | asking next last =>
    simp only [Expects] at h ⊢
    split at h
    · rw [if_pos ‹_›]
      exact hact.asked sh h hfates
    · rw [if_neg ‹_›]
      exact hact.quiet sh h
  | collecting shards last =>
    simp only [Expects] at h ⊢
    split at h
    · rw [if_pos ‹_›]
      exact hdone h
    · rw [if_neg ‹_›]
      exact hact.asked sh h hfates
  | ended => exact hdone h

section Moves

variable {i next : Nat} {last : Bool} {shards : List Flow.Snapshot} {w : Worker}

theorem Expects.asked (h : (asking next last).Expects i w) (hi : next ≠ i) : (asking (next + 1) last).Expects i w := by
  simp only [Expects] at h ⊢
  by_cases hlt : i < next
  · rw [if_pos hlt] at h
    rwa [if_pos (Nat.lt_succ_of_lt hlt)]
  · rw [if_neg hlt] at h
    rwa [if_neg (by omega)]

theorem Expects.allAsked (h : (asking next last).Expects i w) (hi : i < next) : (collecting [] last).Expects i w := by
  simp only [Expects] at h
  rw [if_pos hi] at h
  exact h

theorem Expects.taken (h : (collecting shards last).Expects i w) (hi : shards.length ≠ i) (answer : Flow.Snapshot) :
    (collecting (shards ++ [answer]) last).Expects i w := by
  simp only [Expects, List.length_append, List.length_singleton] at h ⊢
  by_cases hlt : i < shards.length
  · rw [if_pos hlt] at h
    rwa [if_pos (Nat.lt_succ_of_lt hlt)]
  · rw [if_neg hlt] at h
    rwa [if_neg (by omega)]

theorem Expects.done (h : (collecting shards last).Expects i w) (hi : i < shards.length) : w.Done := by
  simp only [Expects] at h
  rwa [if_pos hi] at h

end Moves

end Stage

namespace SocketSystem

/-- What the stores hold of a flow: the queue, the outlet, the answers and the workers. -/
def stored (t : SocketSystem) (id : Flow.Id) : Flow.Volume :=
  weigh Metrics.volume id (t.run.pool.shared.queue.records.map Flow.Record.entry) +
    weigh Metrics.volume id t.run.outlet.held + weigh Metrics.volume id t.stage.shards.flatten +
    (t.run.pool.workers.map (Worker.load id)).sum

/-- Nothing is left to handle, to collect, to receive or to export. -/
structure Exhausted (t : SocketSystem) : Prop where
  workers : ∀ w ∈ t.run.pool.workers, w.Done
  queue : t.run.pool.shared.queue.waiting = []
  outlet : t.run.outlet.held = []

/-- The books of a run with all of its notices. -/
structure Books (s : MeterSettings) (draws : Nat → List UInt32) (boot : WallTime) (notices : List Notice)
    (t : SocketSystem) : Prop where
  ledgers : t.ledgers.length = t.run.pool.workers.length
  workers : ∀ i w l, t.run.pool.workers[i]? = some w → t.ledgers[i]? = some l → WorkerBooks s (draws i) boot w l
  stage : ∀ i w, t.run.pool.workers[i]? = some w → t.stage.Expects i w
  reached : t.stage.reached ≤ t.run.pool.workers.length
  turn : t.run.pool.turn < t.run.pool.workers.length
  room : 0 < t.run.pool.room
  now : Datable boot t.run.now
  outlet : t.run.outlet.Plain boot
  queue : AllDatable boot (t.run.pool.shared.queue.records.map Flow.Record.entry)
  collected : AllDatable boot t.stage.shards.flatten
  ended : t.stage = .ended → t.run.pool.shared.queue.waiting = [] ∧ t.run.outlet.held = []
  balance : ∀ id, weigh Metrics.volume id (exportedFlows notices) + t.stored id = t.total s draws id

namespace Books

variable {s : MeterSettings} {draws : Nat → List UInt32} {boot : WallTime} {ns : List Notice} {t : SocketSystem}

theorem exists_ledger (h : Books s draws boot ns t) {i : Nat} {w : Worker} (hw : t.run.pool.workers[i]? = some w) :
    ∃ l, t.ledgers[i]? = some l ∧ WorkerBooks s (draws i) boot w l := by
  have hlt : i < t.ledgers.length := h.ledgers ▸ (List.getElem?_eq_some_iff.1 hw).1
  exact ⟨t.ledgers[i], List.getElem?_eq_getElem hlt, h.workers i w _ hw (List.getElem?_eq_getElem hlt)⟩

/-- **One worker has taken a step, and the loop may have gone on with it.** -/
theorem update (h : Books s draws boot ns t) {i : Nat} {w w' : Worker} {l l' : Ledger} {sh : Shared}
    (hw : t.run.pool.workers[i]? = some w) (hl : t.ledgers[i]? = some l)
    (hstep : BookedStep s (draws i) boot w w' t.run.pool.shared sh l l') {turn : Nat}
    (hturn : turn < t.run.pool.workers.length) (stage : Stage) (hstage : stage.Expects i w')
    (hreached : stage.reached ≤ t.run.pool.workers.length)
    (hothers : ∀ j v, j ≠ i → t.stage.Expects j v → stage.Expects j v) (hshards : stage.shards = t.stage.shards)
    (hended : stage = .ended → t.stage = .ended ∧ sh.queue = t.run.pool.shared.queue) :
    Books s draws boot ns
      { run := { t.run with pool := ⟨t.run.pool.workers.set i w', t.run.pool.room, turn, sh⟩ }
        stage
        ledgers := t.ledgers.set i l' } where
  ledgers := by
    rw [List.length_set, h.ledgers, List.length_set]
  workers j v m hv hm := by
    rcases getElem?_set_cases hv with ⟨rfl, rfl⟩ | ⟨hij, hv'⟩
    · rw [List.getElem?_set_self (List.getElem?_eq_some_iff.1 hl).1] at hm
      cases hm
      exact hstep.books
    · exact h.workers j v m hv' ((List.getElem?_set_ne hij).symm.trans hm)
  stage j v hv := by
    rcases getElem?_set_cases hv with ⟨rfl, rfl⟩ | ⟨hij, hv'⟩
    · exact hstage
    · exact hothers j v (Ne.symm hij) (h.stage j v hv')
  reached := by
    rw [List.length_set]
    exact hreached
  turn := by
    rw [List.length_set]
    exact hturn
  room := h.room
  now := by
    have hnow : Datable boot t.run.pool.shared.clock.now := h.now
    rw [← hstep.now] at hnow
    exact hnow
  outlet := h.outlet
  queue := hstep.queue
  collected := by
    rw [hshards]
    exact h.collected
  ended hs := by
    obtain ⟨hs', hq⟩ := hended hs
    obtain ⟨hwaiting, hheld⟩ := h.ended hs'
    exact ⟨by rw [hq]; exact hwaiting, hheld⟩
  balance id := by
    obtain ⟨x, y, hload, hqueue, htotal⟩ := hstep.balance id
    have hload' : ((t.run.pool.workers.set i w').map (Worker.load id)).sum =
        (t.run.pool.workers.map (Worker.load id)).sum + x := by
      rw [List.map_set, hload]
      exact sum_set x (by rw [List.getElem?_map, hw]; rfl)
    have htotal' : ((t.ledgers.set i l').mapIdx fun i l => l.total s (draws i) id).sum =
        (t.ledgers.mapIdx fun i l => l.total s (draws i) id).sum + (x + y) := by
      rw [List.mapIdx_set, htotal]
      exact sum_set (x + y) (by rw [List.getElem?_mapIdx, hl]; rfl)
    have hbalance := h.balance id
    simp only [stored, total] at hbalance ⊢
    rw [hload', htotal', hqueue, hshards, ← hbalance]
    abel

/-- **A step of one worker keeps the books.** -/
theorem act (h : Books s draws boot ns t) {f : Worker → Shared → Worker × Shared}
    {news : Worker → Shared → List Outcome} (hf : Worker.Steady f news) (i : Nat) : Books s draws boot ns (t.act f news i) := by
  cases hw : t.run.pool.workers[i]? with
  | none => simpa only [SocketSystem.act, hw] using h
  | some w =>
    obtain ⟨l, hl, hbooks⟩ := h.exists_ledger hw
    have hstep := hf.books hbooks h.now h.queue
    have hexpects := (h.stage i w hw).act hf t.run.pool.shared hbooks.fates
    have := h.update hw hl hstep h.turn t.stage hexpects h.reached (fun _ _ _ hv => hv) rfl fun hended => by
        have hdone : w.Done := by simpa only [hended, Stage.Expects] using h.stage i w hw
        exact ⟨hended, by rw [hf.emptied _ hdone.emptied]⟩
    simpa only [SocketSystem.act, hw, withPool, Pool.actAt, List.modify_eq_set, hl, Option.getD_some] using this

theorem tell (h : Books s draws boot ns t) {ns' : List Notice} (hns : exportedFlows ns' = []) :
    Books s draws boot (ns ++ ns') t where
  ledgers := h.ledgers
  workers := h.workers
  stage := h.stage
  reached := h.reached
  turn := h.turn
  room := h.room
  now := h.now
  outlet := h.outlet
  queue := h.queue
  collected := h.collected
  ended := h.ended
  balance id := by
    rw [exportedFlows_append, hns, List.append_nil]
    exact h.balance id

theorem pass (h : Books s draws boot ns t) {now : UInt64} (hnow : Datable boot now) :
    Books s draws boot ns { t with run := t.run.moveTo now } where
  ledgers := h.ledgers
  workers := h.workers
  stage := h.stage
  reached := h.reached
  turn := h.turn
  room := h.room
  now := hnow
  outlet := h.outlet
  queue := h.queue
  collected := h.collected
  ended := h.ended
  balance := h.balance

end Books

/-- A step that does not fail, and after which the books hold. -/
def Kept (s : MeterSettings) (draws : Nat → List UInt32) (boot : WallTime) (ns : List Notice)
    (r : Logged Failure SocketSystem) : Prop :=
  ∃ ns' t', r = ⟨ns', .ok t'⟩ ∧ Books s draws boot (ns ++ ns') t'

end SocketSystem

/-- **A worker that is alive takes a packet, or its inbox is full.** -/
theorem dispatch_cases {p : Pool} {w : Worker} (hw : p.workers[p.turn]? = some w) (halive : w.condition ≠ .stopped)
    (packet : Packet) (fate : Pool.Fate) :
    p.dispatch packet fate =
        ({ p.advance with workers := p.workers.set p.turn { w with inbox := w.inbox ++ [.packet packet fate] } }, .ok ()) ∨
      p.dispatch packet fate = (p.advance, .error (.queueFull p.turn)) := by
  have hw' : p.advance.workers[p.turn]? = some w := hw
  simp only [Pool.dispatch, Pool.dispatchTo, Pool.send, hw', halive, if_false]
  by_cases hroom : w.inbox.length < p.room
  · left
    rw [if_pos (show w.inbox.length < p.advance.room from hroom)]
    rfl
  · right
    rw [if_neg (show ¬ w.inbox.length < p.advance.room from hroom)]

namespace SocketSystem
namespace Books

variable {s : MeterSettings} {draws : Nat → List UInt32} {boot : WallTime} {ns : List Notice} {t : SocketSystem}

theorem kept (h : Books s draws boot ns t) : Kept s draws boot ns (pure t) :=
  ⟨[], t, rfl, by rwa [List.append_nil]⟩

theorem kept_of_eq (h : Books s draws boot ns t) {r : Logged Failure SocketSystem} (hr : r = pure t) :
    Kept s draws boot ns r := hr ▸ h.kept

/-- **The loop has received or exported something, and may have gone on.** -/
theorem deliver (h : Books s draws boot ns t) (ns' : List Notice) {q : Overflow.Queue} {o : Outlet} (drops : Nat) (stage : Stage)
    (ho : o.Plain boot) (hq : AllDatable boot (q.records.map Flow.Record.entry)) (hshards : AllDatable boot stage.shards.flatten)
    (hstage : ∀ i w, t.run.pool.workers[i]? = some w → stage.Expects i w)
    (hreached : stage.reached ≤ t.run.pool.workers.length)
    (hended : stage = .ended → q.waiting = [] ∧ o.held = [])
    (hbalance : ∀ id, weigh Metrics.volume id (exportedFlows ns') +
        (weigh Metrics.volume id (q.records.map Flow.Record.entry) + weigh Metrics.volume id o.held +
          weigh Metrics.volume id stage.shards.flatten) =
      weigh Metrics.volume id (t.run.pool.shared.queue.records.map Flow.Record.entry) +
        weigh Metrics.volume id t.run.outlet.held + weigh Metrics.volume id t.stage.shards.flatten) :
    Books s draws boot (ns ++ ns')
      { run := { t.run.withQueue q with outlet := o, drops := drops }, stage, ledgers := t.ledgers } where
  ledgers := h.ledgers
  workers := h.workers
  stage := hstage
  reached := hreached
  turn := h.turn
  room := h.room
  now := h.now
  outlet := ho
  queue := hq
  collected := hshards
  ended := hended
  balance id := by
    have htotal := h.balance id
    simp only [stored, total] at htotal ⊢
    rw [← hbalance id] at htotal
    rw [exportedFlows_append, Flow.weigh_append, ← htotal]
    simp only [SocketRun.withQueue]
    abel

theorem dispatch (h : Books s draws boot ns t) (hwaiting : t.stage = .waiting) (p : Packet) {fate : Pool.Fate}
    (hfate : fate ≠ .dies) : Kept s draws boot ns (t.dispatch p fate) := by
  obtain ⟨w, hw⟩ : ∃ w, t.run.pool.workers[t.run.pool.turn]? = some w := ⟨_, List.getElem?_eq_getElem h.turn⟩
  obtain ⟨l, hl, hbooks⟩ := h.exists_ledger hw
  have hturn : (t.run.pool.turn + 1) % t.run.pool.workers.length < t.run.pool.workers.length :=
    Nat.mod_lt _ (Nat.zero_lt_of_lt h.turn)
  rcases dispatch_cases hw hbooks.alive p fate with hd | hd
  · have hstep := (hbooks.accept p hfate).still (w := w) (l := l) h.queue (fun _ => rfl)
      (Ledger.total_accept (Nat.le_of_add_right_le hbooks.handled) p)
    have hquiet := h.stage _ _ hw
    rw [hwaiting] at hquiet
    have := h.update hw hl hstep hturn t.stage (by rw [hwaiting]; exact hquiet.accept p fate)
      h.reached (fun _ _ _ hv => hv) rfl (fun hended => ⟨hended, rfl⟩)
    refine this.kept_of_eq ?_
    simp only [SocketSystem.dispatch, SocketRun.dispatch, hd, List.modify_eq_set, hl, Option.getD_some]
    rfl
  · have hnotices : ∀ b : Bool, exportedFlows (if b then [.queueFull t.run.pool.turn] else []) = [] := by
      intro b
      cases b <;> rfl
    have hdropped : Books s draws boot ns
        { t with run := { t.run with pool := t.run.pool.advance, drops := t.run.drops + 1 } } :=
      ⟨h.ledgers, h.workers, h.stage, h.reached, hturn, h.room, h.now, h.outlet, h.queue, h.collected, h.ended, h.balance⟩
    refine ⟨_, _, ?_, hdropped.tell (hnotices t.run.trace)⟩
    simp only [SocketSystem.dispatch, SocketRun.dispatch, hd]
    simp only [Logged.tell, Logged.ok_bind, pure, Logged.succeed, List.append_nil]

theorem receive (h : Books s draws boot ns t) (hwaiting : t.stage = .waiting) : Kept s draws boot ns t.receive := by
  cases hnext : t.run.pool.shared.queue.next? with
  | none =>
    have : t.receive = pure t := by
      simp only [SocketSystem.receive, SocketRun.receive, hnext]
      rfl
    rw [this]
    exact h.kept
  | some next =>
    obtain ⟨r, q⟩ := next
    have hrecords := Overflow.Queue.records_of_next? hnext
    have hq := h.queue
    rw [hrecords, List.map_cons] at hq
    have hr : r.metrics.Datable boot := hq r.entry List.mem_cons_self
    obtain ⟨ns', o, haccount, ho, hbalance⟩ := Outlet.account_balance h.outlet Flow.additive_volume t.run.now hr
    refine ⟨ns', _, ?_, h.deliver ns' t.run.drops t.stage ho (fun e he => hq e (List.mem_cons_of_mem _ he)) h.collected h.stage
      h.reached (fun hended => ?_) fun id => ?_⟩
    · simp only [SocketSystem.receive, SocketRun.receive, hnext, haccount, Logged.ok_bind, pure, Logged.succeed,
        List.append_nil]
      rfl
    · rw [hwaiting] at hended
      cases hended
    · rw [hrecords, Flow.weigh_records_cons]
      calc
        _ = (weigh Metrics.volume id (exportedFlows ns') + weigh Metrics.volume id o.held) +
              weigh Metrics.volume id (q.records.map Flow.Record.entry) + weigh Metrics.volume id t.stage.shards.flatten := by
          abel
        _ = _ := by
          rw [hbalance id]
          abel

theorem ask (h : Books s draws boot ns t) {next : Nat} {last : Bool} (hasking : t.stage = .asking next last) :
    Kept s draws boot ns (t.ask next last) := by
  have hstage := h.stage
  rw [hasking] at hstage
  by_cases hnext : next < t.run.pool.workers.length
  · obtain ⟨w, hw⟩ : ∃ w, t.run.pool.workers[next]? = some w := ⟨_, List.getElem?_eq_getElem hnext⟩
    obtain ⟨l, hl, hbooks⟩ := h.exists_ledger hw
    by_cases hroom : w.inbox.length < t.run.pool.room
    · have hquiet : w.Quiet := by simpa [Stage.Expects] using hstage next w hw
      have hstep := hbooks.ask.still (w := w) (l := l) h.queue (fun _ => rfl) (fun _ => rfl)
      have hothers : ∀ j v, j ≠ next → t.stage.Expects j v → (Stage.asking (next + 1) last).Expects j v := by
        intro j v hj hv
        rw [hasking] at hv
        exact hv.asked (Ne.symm hj)
      have := h.update hw hl hstep h.turn (.asking (next + 1) last) (by
        simp only [Stage.Expects, Nat.lt_succ_self, if_true]
        exact hquiet.ask) hnext hothers (by rw [hasking]; rfl) (fun hended => by cases hended)
      refine this.kept_of_eq ?_
      have hsame : t.ledgers.set next l = t.ledgers := by
        rw [← (List.getElem?_eq_some_iff.1 hl).2, List.set_getElem_self]
      simp only [SocketSystem.ask, hnext, if_true, Pool.send, hw, hbooks.alive, if_false, hroom, hsame]
      rfl
    · refine h.kept_of_eq ?_
      simp only [SocketSystem.ask, hnext, if_true, Pool.send, hw, hbooks.alive, if_false, hroom]
  · have hcollecting : ∀ i w, t.run.pool.workers[i]? = some w → (Stage.collecting [] last).Expects i w := by
      intro i w hw
      have hlt := (List.getElem?_eq_some_iff.1 hw).1
      exact (hstage i w hw).allAsked (by omega)
    have := h.deliver [] t.run.drops (.collecting [] last) h.outlet h.queue (fun e he => by cases he) hcollecting
      (Nat.zero_le _) (fun hended => by cases hended) fun id => by
        rw [hasking]
        exact zero_add _
    refine ⟨[], _, ?_, this⟩
    simp only [SocketSystem.ask, hnext, if_false]
    rfl

/-- What a worker's answer holds is no longer with the worker when it is taken. -/
theorem sum_load_taken (id : Flow.Id) {workers : List Worker} {i : Nat} {w : Worker} (hw : workers[i]? = some w)
    {answer : Flow.Snapshot} (hreplies : w.replies = [answer]) :
    (workers.map (Worker.load id)).sum =
      ((workers.set i { w with replies := [] }).map (Worker.load id)).sum + weigh Metrics.volume id answer := by
  have hload : Worker.load id w = Worker.load id { w with replies := [] } + weigh Metrics.volume id answer := by
    simp only [Worker.load, hreplies, List.flatten_cons, List.flatten_nil, List.append_nil, Flow.weigh_nil, add_zero]
  have hset : (workers.set i { w with replies := [] })[i]? = some { w with replies := [] } :=
    List.getElem?_set_self (List.getElem?_eq_some_iff.1 hw).1
  rw [← sum_set (weigh Metrics.volume id answer) (by rw [List.getElem?_map, hset]; rfl), ← hload, ← List.map_set, List.set_set,
    ← (List.getElem?_eq_some_iff.1 hw).2, List.set_getElem_self]

/-- **An answer goes from the worker to the loop.** -/
theorem collect (h : Books s draws boot ns t) {shards : List Flow.Snapshot} {last : Bool}
    (hcollecting : t.stage = .collecting shards last) {w : Worker} (hw : t.run.pool.workers[shards.length]? = some w) :
    Kept s draws boot ns (t.collect shards last) := by
  obtain ⟨l, hl, hbooks⟩ := h.exists_ledger hw
  have hasked : w.Asked := by simpa [hcollecting, Stage.Expects] using h.stage _ _ hw
  cases hasked with
  | pending before inbox packets replies =>
    refine h.kept_of_eq ?_
    simp only [SocketSystem.collect, hw, replies, hbooks.alive, if_false]
  | answered answer emptied replies =>
    have hbooks' : WorkerBooks s (draws shards.length) boot { w with replies := [] } l :=
      ⟨hbooks.settings, hbooks.handled, hbooks.drawn, hbooks.waiting, hbooks.alive, hbooks.fates, hbooks.outcomes, hbooks.hand,
        hbooks.shard, fun e he => by cases he⟩
    have hload := fun id => sum_load_taken id hw replies
    refine Books.kept_of_eq (t := ⟨{ t.run with pool := ⟨t.run.pool.workers.set shards.length { w with replies := [] },
      t.run.pool.room, t.run.pool.turn, t.run.pool.shared⟩ }, .collecting (shards ++ [answer]) last, t.ledgers⟩)
      ⟨?_, ?_, ?_, ?_, ?_, h.room, h.now, h.outlet, h.queue, ?_, fun hended => (by cases hended), fun id => ?_⟩ ?_
    · rw [List.length_set]
      exact h.ledgers
    · intro j v m hv hm
      rcases getElem?_set_cases hv with ⟨rfl, rfl⟩ | ⟨-, hv'⟩
      · rw [hl] at hm
        cases hm
        exact hbooks'
      · exact h.workers j v m hv' hm
    · intro j v hv
      rcases getElem?_set_cases hv with ⟨rfl, rfl⟩ | ⟨hij, hv'⟩
      · simp only [Stage.Expects, List.length_append, List.length_singleton]
        rw [if_pos (Nat.lt_succ_self _)]
        exact ⟨⟨emptied.condition, emptied.inbox, emptied.shard⟩, rfl⟩
      · have hv'' := h.stage j v hv'
        rw [hcollecting] at hv''
        exact hv''.taken hij answer
    · rw [List.length_set]
      show (shards ++ [answer]).length ≤ _
      rw [List.length_append, List.length_singleton]
      exact (List.getElem?_eq_some_iff.1 hw).1
    · rw [List.length_set]
      exact h.turn
    · have hshards := h.collected
      rw [hcollecting] at hshards
      have hanswer := hbooks.replies
      rw [replies, List.flatten_cons, List.flatten_nil, List.append_nil] at hanswer
      show AllDatable boot (shards ++ [answer]).flatten
      rw [List.flatten_append, List.flatten_cons, List.flatten_nil, List.append_nil]
      exact hshards.append hanswer
    · refine Eq.trans ?_ (h.balance id)
      simp only [stored, hload id, hcollecting, Stage.shards, List.flatten_append, List.flatten_cons, List.flatten_nil,
        List.append_nil, Flow.weigh_append]
      abel
    · simp only [SocketSystem.collect, hw, replies]
      rfl

theorem done_of_collected (h : Books s draws boot ns t) {shards : List Flow.Snapshot} {last : Bool}
    (hcollecting : t.stage = .collecting shards last) (hw : t.run.pool.workers[shards.length]? = none) {i : Nat} {w : Worker}
    (hi : t.run.pool.workers[i]? = some w) : w.Done := by
  have hlt := (List.getElem?_eq_some_iff.1 hi).1
  have hle := List.getElem?_eq_none_iff.1 hw
  have hstage := h.stage i w hi
  rw [hcollecting] at hstage
  exact hstage.done (by omega)

/-- The answers go out with the backlog, and the loop waits again. -/
theorem deliver_due (h : Books s draws boot ns t) {shards : List Flow.Snapshot} (hcollecting : t.stage = .collecting shards false)
    (hw : t.run.pool.workers[shards.length]? = none) : Kept s draws boot ns (t.deliver shards false) := by
  have hshards := h.collected
  rw [hcollecting] at hshards
  obtain ⟨ns', o, hevict, ho, hheld, hexported⟩ := Outlet.evict_balance h.outlet Flow.additive_volume t.run.now hshards
  have hnotices : exportedFlows t.run.packetNotices = [] := by
    rw [SocketRun.packetNotices]
    split <;> rfl
  refine ⟨ns' ++ t.run.packetNotices, _, ?_, h.deliver _ 0 .waiting ho h.queue (fun e he => by cases he)
    (fun i w hi => (h.done_of_collected hcollecting hw hi).quiet) (Nat.zero_le _) (fun hended => by cases hended) fun id => ?_⟩
  · simp only [Stage.shards] at hevict
    simp only [SocketSystem.deliver, Bool.false_eq_true, if_false, hevict, Logged.ok_bind, Logged.tell, pure, Logged.succeed,
      List.append_nil]
    rfl
  · rw [exportedFlows_append, hnotices, List.append_nil, hexported id, hheld, hcollecting]
    simp only [Stage.shards, List.flatten_nil, Flow.weigh_nil]
    abel

/-- The records that wait are received, and all goes out for the last time. -/
theorem deliver_last (h : Books s draws boot ns t) {shards : List Flow.Snapshot} (hcollecting : t.stage = .collecting shards true)
    (hw : t.run.pool.workers[shards.length]? = none) : Kept s draws boot ns (t.deliver shards true) := by
  have hshards : AllDatable boot shards.flatten := by
    have := h.collected
    rwa [hcollecting] at this
  have hrecords : ∀ r ∈ t.run.pool.shared.queue.records, r.metrics.Datable boot := fun r hr =>
    h.queue r.entry (List.mem_map_of_mem hr)
  obtain ⟨ns₁, o₁, hall, ho₁, hbalance₁⟩ := Outlet.accountAll_balance Flow.additive_volume t.run.now _ h.outlet hrecords
  obtain ⟨ns₂, o₂, hevict, ho₂, hheld, hexported⟩ := Outlet.evict_balance ho₁ Flow.additive_volume t.run.now hshards
  refine ⟨ns₁ ++ ns₂, _, ?_, h.deliver _ t.run.drops .ended ho₂ (q := t.run.pool.shared.queue.drained)
    (fun e he => by cases he) (fun e he => by cases he) (fun _ _ hi => h.done_of_collected hcollecting hw hi) (Nat.zero_le _)
    (fun _ => ⟨rfl, hheld⟩) fun id => ?_⟩
  · simp only [SocketSystem.deliver, if_true, SocketRun.receiveAll, hall, Logged.ok_bind, pure, Logged.succeed, List.append_nil]
    rw [show ({ t.run.withQueue t.run.pool.shared.queue.drained with outlet := o₁ } : SocketRun).now = t.run.now from rfl, hevict]
    simp only [Logged.ok_bind, List.append_nil]
    rfl
  · rw [exportedFlows_append, Flow.weigh_append, hexported id, hheld, hcollecting]
    calc
      _ = (weigh Metrics.volume id (exportedFlows ns₁) + weigh Metrics.volume id o₁.held) +
            weigh Metrics.volume id shards.flatten := by
        show _ + (0 + weigh Metrics.volume id [] + weigh Metrics.volume id []) = _
        rw [Flow.weigh_nil]
        abel
      _ = _ := by
        rw [hbalance₁ id]
        simp only [Stage.shards]
        abel

/-- **All answers have been taken, and what they hold goes out.** -/
theorem collected_all (h : Books s draws boot ns t) {shards : List Flow.Snapshot} {last : Bool}
    (hcollecting : t.stage = .collecting shards last) (hw : t.run.pool.workers[shards.length]? = none) :
    Kept s draws boot ns (t.collect shards last) := by
  rw [SocketSystem.collect, hw]
  cases last with
  | false => exact h.deliver_due hcollecting hw
  | true => exact h.deliver_last hcollecting hw

theorem empty (h : Books s draws boot ns t) (hwaiting : t.stage = .waiting) (last : Bool) :
    Books s draws boot (ns ++ if last then [.exiting] else []) { t with stage := .asking 0 last } := by
  have hnotices : exportedFlows (if last then [.exiting] else []) = [] := by cases last <;> rfl
  have hquiet : ∀ i w, t.run.pool.workers[i]? = some w → (Stage.asking 0 last).Expects i w := by
    intro i w hw
    have := h.stage i w hw
    rw [hwaiting] at this
    exact this
  exact h.deliver _ t.run.drops (.asking 0 last) h.outlet h.queue (fun e he => by cases he) hquiet (Nat.zero_le _)
    (fun hended => by cases hended) fun id => by
      rw [hnotices, hwaiting]
      exact zero_add _

end Books

/-- The clock shows times that can be dated, and no worker dies. -/
def Choice.Sound (boot : WallTime) : Choice → Prop
  | pass now => Datable boot now
  | dispatch _ fate => fate ≠ .dies
  | _ => True

namespace Books

variable {s : MeterSettings} {draws : Nat → List UInt32} {boot : WallTime} {ns : List Notice} {t : SocketSystem}

/-- **Every step keeps the books.** -/
theorem step (h : Books s draws boot ns t) {c : Choice} (hc : c.Sound boot) : Kept s draws boot ns (t.step c) := by
  cases c with
  | pass now => exact (h.pass hc).kept
  | work i => exact (h.act Worker.steady_work i).kept
  | resume i => exact (h.act Worker.steady_resume i).kept
  | dispatch p fate =>
    rw [SocketSystem.step]
    split
    · exact h.dispatch ‹_› p hc
    · exact h.kept
  | receive =>
    rw [SocketSystem.step]
    split
    · exact h.receive ‹_›
    · exact h.kept
  | empty last =>
    rw [SocketSystem.step]
    split
    · refine ⟨_, _, ?_, h.empty ‹_› last⟩
      simp only [Logged.tell, Logged.ok_bind, pure, Logged.succeed, List.append_nil]
    · exact h.kept
  | proceed =>
    rw [SocketSystem.step]
    cases hstage : t.stage with
    | waiting => exact h.kept
    | asking next last => exact h.ask hstage
    | collecting shards last =>
      cases hw : t.run.pool.workers[shards.length]? with
      | none => exact h.collected_all hstage hw
      | some w => exact h.collect hstage hw
    | ended => exact h.kept

/-- **A whole run keeps the books.** -/
theorem follow : ∀ (choices : List Choice) {ns : List Notice} {t : SocketSystem}, Books s draws boot ns t →
    (∀ c ∈ choices, c.Sound boot) → Kept s draws boot ns (t.follow choices)
  | [], _, _, h, _ => h.kept
  | c :: rest, ns, t, h, hc => by
    obtain ⟨ns₁, t₁, hstep, h₁⟩ := h.step (hc c List.mem_cons_self)
    obtain ⟨ns₂, t₂, hrest, h₂⟩ := follow rest h₁ fun c' hc' => hc c' (List.mem_cons_of_mem _ hc')
    refine ⟨ns₁ ++ ns₂, t₂, ?_, List.append_assoc ns ns₁ ns₂ ▸ h₂⟩
    rw [SocketSystem.follow, hstep, Logged.ok_bind, hrest]

theorem start {s : Settings} (hs : s.dedup = .off) {x : Surroundings} (interface : UInt32) (workers room : Nat)
    (draws : Nat → List UInt32) (hnow : Datable (Run.outlet s x).place.boot x.monotonic) :
    Books s.meter draws (Run.outlet s x).place.boot [] (SocketSystem.start s x interface workers room draws) := by
  have hfresh : ∀ (i : Nat) (w : Worker),
      (SocketSystem.start s x interface workers room draws).run.pool.workers[i]? = some w →
        w = { meter := Meter.ofSettings s.meter (draws i) } := by
    intro i w hw
    simp only [SocketSystem.start, Pool.startEach, List.getElem?_map, Option.map_eq_some_iff] at hw
    obtain ⟨j, hj, rfl⟩ := hw
    obtain rfl : i = j := by simpa using (List.getElem?_eq_some_iff.1 hj).2
    rfl
  have hlength : (SocketSystem.start s x interface workers room draws).run.pool.workers.length = max workers 1 := by
    simp [SocketSystem.start, Pool.startEach]
  refine ⟨?_, ?_, ?_, Nat.zero_le _, ?_, Nat.le_max_right room 1, hnow, Run.plain_outlet hs x, fun e he => (by cases he),
    fun e he => (by cases he), ?_, fun id => ?_⟩
  · rw [hlength]
    simp [SocketSystem.start]
  · intro i w l hw hl
    obtain rfl := hfresh i w hw
    obtain rfl : ({} : Ledger) = l := by
      simp only [SocketSystem.start, List.getElem?_replicate] at hl
      split at hl
      · exact Option.some.inj hl
      · cases hl
    exact .fresh s.meter (draws i) _
  · intro i w hw
    obtain rfl := hfresh i w hw
    exact ⟨by simp, rfl⟩
  · rw [hlength]
    show 0 < _
    omega
  · intro hended
    cases hended
  · have hload : ((SocketSystem.start s x interface workers room draws).run.pool.workers.map (Worker.load id)).sum = 0 := by
      refine List.sum_eq_zero fun v hv => ?_
      obtain ⟨w, hw, rfl⟩ := List.mem_map.1 hv
      obtain ⟨i, hi⟩ := List.mem_iff_getElem?.1 hw
      obtain rfl := hfresh i w hi
      exact add_zero _
    have htotal : (SocketSystem.start s x interface workers room draws).total s.meter draws id = 0 := by
      refine List.sum_eq_zero fun v hv => ?_
      obtain ⟨i, hi, rfl⟩ := List.mem_mapIdx.1 hv
      simp only [SocketSystem.start, List.getElem_replicate]
      rfl
    rw [stored, hload, htotal]
    show (0 : Flow.Volume) + (0 + 0 + 0 + 0) = 0
    simp only [add_zero]

end Books
end SocketSystem
end Agent
end FlowMeter
