import FlowMeter.Proofs.WorkerHoldings
import FlowMeter.Proofs.WorkerRequests
import Mathlib.Data.List.TakeWhile
/-!
# A pool that is emptied at once

All workers come to rest, those before the first one that cannot be asked are asked (`Pool.ask_eq`), and all come to rest again.
If none has stopped and none comes to a stand, every worker answers with what it holds (`Pool.evict_eq_ok`).  If one has stopped,
the flows of those that were asked are lost, and the others are as they were (`Pool.evict_eq_stopped`).
-/
namespace FlowMeter.Pool

open FlowMeter.Flow (owed volumes)

/-- What one worker is afterwards, each of them has become by itself. -/
theorem exists_of_getElem?_each {act : Worker → Shared → Worker × Shared} {ws : List Worker} {sh : Shared} {i : Nat}
    {w' : Worker} (h : (each act ws sh).1[i]? = some w') : ∃ w sh', ws[i]? = some w ∧ w' = (act w sh').1 := by
  induction ws generalizing sh i with
  | nil => cases h
  | cons w rest ih =>
    cases i with
    | zero => exact ⟨w, sh, rfl, (Option.some.inj h).symm⟩
    | succ i => exact ih h

/-- A worker that would stay as it is, stays as it is while the others change. -/
theorem getElem?_each_of_still {act : Worker → Shared → Worker × Shared} {ws : List Worker} {sh : Shared} {i : Nat}
    {w : Worker} (hstill : ∀ sh', (act w sh').1 = w) (h : ws[i]? = some w) : (each act ws sh).1[i]? = some w := by
  induction ws generalizing sh i with
  | nil => cases h
  | cons v rest ih =>
    cases i with
    | zero =>
      cases h
      exact congrArg some (hstill sh)
    | succ i => exact ih h

theorem getElem?_settle {p : Pool} {i : Nat} {w : Worker} (hw : p.workers[i]? = some w) (hrest : w.Resting) :
    p.settle.workers[i]? = some w :=
  getElem?_each_of_still (fun sh => by rw [hrest.finish]) hw

theorem getElem?_release_of_stopped {p : Pool} {i : Nat} {w : Worker} (hw : p.workers[i]? = some w)
    (hstopped : w.condition = .stopped) : p.release.workers[i]? = some w :=
  getElem?_settle (getElem?_each_of_still (fun sh => by simp only [Worker.resume, hstopped]) hw) (.of_stopped hstopped)

theorem resting_release {p : Pool} {i : Nat} {w : Worker} (hw : p.release.workers[i]? = some w) : w.Resting := by
  obtain ⟨v, sh, -, rfl⟩ := exists_of_getElem?_each hw
  exact v.resting_finish sh

theorem length_release (p : Pool) : p.release.workers.length = p.workers.length := (length_each ..).trans (length_each ..)

/-- A worker that has been asked for its flows. -/
def asked (w : Worker) : Worker := { w with inbox := w.inbox ++ [.evict] }

/-- A worker that can be asked. -/
def accepts (room : Nat) (w : Worker) : Bool := decide (w.condition ≠ .stopped) && decide (w.inbox.length < room)

theorem send_eq {p : Pool} {i : Nat} {w : Worker} (hw : p.workers[i]? = some w) (m : Message) :
    (accepts p.room w = true →
      p.send i m = .ok { p with workers := p.workers.set i { w with inbox := w.inbox ++ [m] } }) ∧
      (accepts p.room w = false → ∃ e, p.send i m = .error e) := by
  by_cases halive : w.condition = .stopped
  · simp [send, hw, halive, accepts]
  · by_cases hroom : w.inbox.length < p.room <;> simp [send, hw, halive, hroom, accepts]

/-- **Workers are asked up to the first one that cannot be asked.** -/
theorem ask_eq : ∀ (rest before : List Worker) {p : Pool}, p.workers = before ++ rest →
    p.ask (List.range' before.length rest.length) =
      ({ p with workers := before ++ ((rest.takeWhile (accepts p.room)).map asked ++ rest.dropWhile (accepts p.room)) },
        if rest.all (accepts p.room) then .ok ()
        else .error (.stopped (before.length + (rest.takeWhile (accepts p.room)).length)))
  | [], before, p, hp => by
    simp only [List.takeWhile_nil, List.dropWhile_nil, List.map_nil, List.append_nil, List.all_nil, if_true]
    rw [← List.append_nil before, ← hp]
    rfl
  | w :: rest, before, p, hp => by
    have hw : p.workers[before.length]? = some w := by
      rw [hp, List.getElem?_append_right (Nat.le_refl _), Nat.sub_self, List.getElem?_cons_zero]
    rw [List.length_cons, List.range'_succ, ask]
    cases haccepts : accepts p.room w with
    | false =>
      obtain ⟨e, he⟩ := (send_eq hw .evict).2 haccepts
      simp only [he, List.takeWhile_cons, List.dropWhile_cons, List.all_cons, haccepts, Bool.false_eq_true, Bool.false_and,
        if_false, List.map_nil, List.nil_append, List.length_nil, Nat.add_zero, ← hp]
    | true =>
      have hset : p.workers.set before.length (asked w) = (before ++ [asked w]) ++ rest := by
        rw [hp, List.set_append_right _ _ (Nat.le_refl _), Nat.sub_self, List.set_cons_zero, List.append_assoc]
        rfl
      have hrest := ask_eq rest (before ++ [asked w]) (p := { p with workers := p.workers.set before.length (asked w) }) hset
      rw [List.length_append, List.length_singleton] at hrest
      rw [(send_eq hw .evict).1 haccepts]
      refine hrest.trans ?_
      simp only [List.takeWhile_cons, List.dropWhile_cons, List.all_cons, haccepts, if_true, Bool.true_and, List.map_cons,
        List.length_cons, List.append_assoc, List.cons_append, List.nil_append, Nat.add_assoc, Nat.add_comm 1]

theorem collect_eq_ok : ∀ (ws : List Worker) (i : Nat), (∀ w ∈ ws, w.replies ≠ []) →
    collect ws i = .ok (ws.map fun w => w.replies.headD [])
  | [], _, _ => rfl
  | w :: rest, i, h => by
    obtain ⟨s, others, hs⟩ := List.exists_cons_of_ne_nil (h w List.mem_cons_self)
    rw [collect, hs, List.map_cons, hs, collect_eq_ok rest (i + 1) fun v hv => h v (List.mem_cons_of_mem _ hv)]
    rfl

/-- The answers of so many workers, one for each: what they owe for their packets. -/
structure Answers (room workers : Nat) (packets : Nat → List Packet) (shards : List Flow.Snapshot) : Prop where
  length : shards.length = workers
  owed : ∀ i s, shards[i]? = some s → volumes s = owed room (packets i)

variable {p q : Pool} {room : Nat} {packets : Nat → List Packet}

/-- Workers that come to no stand come to rest. -/
theorem release_rests
    (h : ∀ (i : Nat) (w : Worker), p.workers[i]? = some w → w.Quiet ∧ w.Holds room (packets i) ∧ w.Calm) (i : Nat) (w : Worker)
    (hw : p.release.workers[i]? = some w) : w.Quiet ∧ w.Holds room (packets i) ∧ w.Swift ∧ w.inbox = [] := by
  obtain ⟨w₁, sh₁, hw₁, rfl⟩ := exists_of_getElem?_each hw
  obtain ⟨w₀, sh₀, hw₀, rfl⟩ := exists_of_getElem?_each hw₁
  obtain ⟨hquiet, hholds, hcalm⟩ := h i w₀ hw₀
  have hswift : (w₀.resume sh₀).1.Swift := by
    rw [Worker.resume_of_alive hholds.alive]
    exact ⟨rfl, hcalm, hholds.fates⟩
  obtain ⟨hquiet', hholds'⟩ := Worker.finish_induction (P := fun w => w.Quiet ∧ w.Holds room (packets i))
    (fun w sh hw => ⟨Worker.quiet_work sh hw.1, hw.2.work (.inl hw.1) sh⟩)
    ⟨Worker.steady_resume.quiet sh₀ hquiet, hholds.resume sh₀⟩ sh₁
  exact ⟨hquiet', hholds', hswift.finish sh₁, hswift.inbox_finish sh₁⟩

/-- Workers that have been asked and come to no stand answer. -/
theorem settle_answers
    (h : ∀ (i : Nat) (w : Worker), q.workers[i]? = some w → w.Asked ∧ w.Holds room (packets i) ∧ w.Swift) (i : Nat) (w : Worker)
    (hw : q.settle.workers[i]? = some w) : w.Holds room (packets i) ∧ w.Emptied ∧ ∃ answer, w.replies = [answer] := by
  obtain ⟨w₀, sh, hw₀, rfl⟩ := exists_of_getElem?_each hw
  obtain ⟨hasked, hholds, hswift⟩ := h i w₀ hw₀
  obtain ⟨hasked', hholds'⟩ := Worker.finish_induction (P := fun w => w.Asked ∧ w.Holds room (packets i))
    (fun w sh hw => ⟨Worker.asked_work sh hw.1 hw.2.fates, hw.2.work (.inr hw.1) sh⟩) ⟨hasked, hholds⟩ sh
  cases hasked' with
  | pending before inbox =>
    rw [hswift.inbox_finish] at inbox
    cases before <;> cases inbox
  | answered answer emptied replies => exact ⟨hholds', emptied, answer, replies⟩

/-- **A pool whose workers come to no stand is emptied at once.** -/
theorem evict_eq_ok (hroom : 0 < p.room)
    (h : ∀ (i : Nat) (w : Worker), p.workers[i]? = some w → w.Quiet ∧ w.Holds room (packets i) ∧ w.Calm) :
    ∃ workers shared shards, p.evict = ({ p with workers, shared }, .ok shards) ∧ workers.length = p.workers.length ∧
      Answers room p.workers.length packets shards ∧
      ∀ (i : Nat) (w : Worker), workers[i]? = some w → w.Done ∧ w.Holds room [] := by
  have hrest := release_rests h
  have hall : ∀ w ∈ p.release.workers, accepts p.release.room w = true := by
    intro w hw
    obtain ⟨i, hi⟩ := List.mem_iff_getElem?.1 hw
    obtain ⟨-, hholds, -, hempty⟩ := hrest i w hi
    have hroom' : 0 < p.release.room := hroom
    simp [accepts, hholds.alive, hempty, hroom']
  have hask := ask_eq p.release.workers [] (p := p.release) rfl
  rw [List.length_nil, length_release, ← List.range_eq_range', List.nil_append, List.takeWhile_eq_self_iff.2 hall,
    List.dropWhile_eq_nil_iff.2 hall, List.append_nil, if_pos (List.all_eq_true.2 hall)] at hask
  obtain ⟨q, hq⟩ : ∃ q, q = ({ p.release with workers := p.release.workers.map asked } : Pool) := ⟨_, rfl⟩
  have hsame : q.room = p.room ∧ q.turn = p.turn := by
    rw [hq]
    exact ⟨rfl, rfl⟩
  have hanswer := settle_answers (q := q) fun i w hw => by
    rw [hq, List.getElem?_map, Option.map_eq_some_iff] at hw
    obtain ⟨v, hv, rfl⟩ := hw
    obtain ⟨hquiet, hholds, hswift, hempty⟩ := hrest i v hv
    exact ⟨hquiet.ask, hholds.ask, hswift.condition, by simp [Worker.Calm, asked, hempty], by simp [asked, hempty]⟩
  have hcollect := collect_eq_ok q.settle.workers 0 fun w hw => by
    obtain ⟨i, hi⟩ := List.mem_iff_getElem?.1 hw
    obtain ⟨-, -, answer, hreplies⟩ := hanswer i w hi
    simp [hreplies]
  have hlength : q.settle.workers.length = p.workers.length := by
    rw [← length_release p, hq]
    exact (length_each ..).trans (List.length_map ..)
  refine ⟨q.settle.forget.workers, q.settle.forget.shared, q.settle.workers.map fun w => w.replies.headD [], ?_, ?_,
    ⟨?_, fun i s hs => ?_⟩, fun i w hw => ?_⟩
  · rw [evict, hask, ← hq]
    show (q.settle.forget, collect q.settle.workers 0) = _
    rw [hcollect, ← hsame.1, ← hsame.2]
    rfl
  · rw [forget, List.length_map, hlength]
  · rw [List.length_map, hlength]
  · rw [List.getElem?_map, Option.map_eq_some_iff] at hs
    obtain ⟨w, hw, rfl⟩ := hs
    obtain ⟨hholds, hemptied, answer, hreplies⟩ := hanswer i w hw
    rw [hreplies]
    exact (hholds.give hemptied hreplies).1
  · rw [forget, List.getElem?_map, Option.map_eq_some_iff] at hw
    obtain ⟨v, hv, rfl⟩ := hw
    obtain ⟨hholds, hemptied, answer, hreplies⟩ := hanswer i v hv
    exact ⟨⟨⟨hemptied.condition, hemptied.inbox, hemptied.shard⟩, rfl⟩, (hholds.give hemptied hreplies).2⟩

/-- Of the first workers, those that have come to the end of their inboxes keep nothing. -/
def EmptyBefore (k : Nat) (p : Pool) : Prop :=
  ∀ (i : Nat) (w : Worker), i < k → p.workers[i]? = some w → w.condition = .working → w.inbox = [] →
    w.meter.shard.snapshot = []

/-- **A pool with a worker that has stopped cannot be emptied at once**: the call fails, the workers before the one that it fails
at have lost their flows, and those behind it are as they are when all have come to rest. -/
theorem evict_eq_stopped {last : Nat} {w₀ : Worker} (hw₀ : p.workers[last]? = some w₀) (hstopped : w₀.condition = .stopped) :
    ∃ pool k, p.evict = (pool, .error (.stopped k)) ∧ k ≤ last ∧ pool.EmptyBefore k ∧
      ∀ (i : Nat) (w : Worker), k < i → p.release.workers[i]? = some w → pool.workers[i]? = some { w with replies := [] } := by
  have hlast := getElem?_release_of_stopped hw₀ hstopped
  have hrefuses : accepts p.release.room w₀ = false := by simp [accepts, hstopped]
  have hask := ask_eq p.release.workers [] (p := p.release) rfl
  have hnotAll : ¬ p.release.workers.all (accepts p.release.room) = true := fun hall => by
    rw [List.all_eq_true.1 hall w₀ (List.mem_of_getElem? hlast)] at hrefuses
    cases hrefuses
  rw [List.length_nil, length_release, ← List.range_eq_range', List.nil_append, if_neg hnotAll, Nat.zero_add] at hask
  -- the workers that were asked, and the others
  have hsplit : p.release.workers.takeWhile (accepts p.release.room) ++ p.release.workers.dropWhile (accepts p.release.room) =
      p.release.workers := List.takeWhile_append_dropWhile
  have htaken : ∀ w ∈ p.release.workers.takeWhile (accepts p.release.room), accepts p.release.room w = true :=
    fun w hw => List.mem_takeWhile_imp hw
  generalize p.release.workers.takeWhile (accepts p.release.room) = before at hask hsplit htaken
  generalize p.release.workers.dropWhile (accepts p.release.room) = behind at hask hsplit
  refine ⟨_, before.length, by rw [evict, hask]; rfl, Nat.le_of_not_lt fun hlt => ?_, fun i w hi hw hcondition hinbox => ?_,
    fun i w hi hw => ?_⟩
  · rw [← hsplit, List.getElem?_append_left hlt] at hlast
    rw [htaken w₀ (List.mem_of_getElem? hlast)] at hrefuses
    cases hrefuses
  · rw [forget, List.getElem?_map, Option.map_eq_some_iff] at hw
    obtain ⟨v, hv, rfl⟩ := hw
    obtain ⟨v₀, sh, hv₀, rfl⟩ := exists_of_getElem?_each hv
    rw [List.getElem?_append_left (by rwa [List.length_map]), List.getElem?_map, Option.map_eq_some_iff] at hv₀
    obtain ⟨u, -, rfl⟩ := hv₀
    obtain ⟨u', hasks⟩ := Worker.finish_induction (P := fun w => ∃ u : Worker, u.Asks w)
      (fun w sh ⟨_, hu⟩ => ⟨_, (hu.work sh).1⟩) ⟨u, .pending rfl⟩ sh
    exact hasks.snapshot_eq_nil hcondition hinbox
  · have hsame : (before.map asked ++ behind)[i]? = some w := by
      rw [← hsplit, List.getElem?_append_right (Nat.le_of_lt hi)] at hw
      rw [List.getElem?_append_right (by rw [List.length_map]; exact Nat.le_of_lt hi), List.length_map]
      exact hw
    rw [forget, List.getElem?_map, getElem?_settle hsame (resting_release hw)]
    rfl

end FlowMeter.Pool
