import FlowMeter.Overflow.Channel
import Mathlib.Data.List.Basic
/-!
# What an overflow channel answers

Senders and the reader of a channel make calls in any order, and each call has an answer.  A sender that was dropped and a
reader that was closed make no calls.  Whatever the calls, the channel is the queue that the answers tell of: what was accepted
is delivered in its order, and a submission fails just when all slots are taken or the reader is gone (`ChannelRun.bounded_fifo`).
-/
namespace FlowMeter.Overflow

/-- How large a channel is to be. -/
inductive Sizing where
  | slots (n : Nat)
  | octets (n : Nat)
  deriving Repr

namespace Sizing

def queue : Sizing → Queue
  | slots n => .ofSlots n
  | octets n => .ofSize n

/-- One record at least, and a record has 97 octets. -/
def capacity : Sizing → Nat
  | slots n => max n 1
  | octets n => max (n / 97) 1

end Sizing

inductive Call where
  | clone (sender : Nat)
  | drop (sender : Nat)
  | submit (sender : Nat) (r : Flow.Record)
  | receive
  | drain
  | close
  deriving Repr

inductive Answer where
  /-- There is nobody who could make the call. -/
  | absent
  | cloned (sender : Nat)
  | dropped
  | accepted
  | refused (failure : Failure)
  | received (what : Received)
  | drained (records : List Flow.Record)
  | closed
  deriving DecidableEq, Repr

def Channel.answer (c : Channel) : Call → Answer × Channel
  | .clone sender =>
    match c.clone? sender with
    | some (n, c') => (.cloned n, c')
    | none => (.absent, c)
  | .drop sender => if c.alive sender then (.dropped, c.drop sender) else (.absent, c)
  | .submit sender r =>
    if c.alive sender then
      match c.submit r with
      | .ok c' => (.accepted, c')
      | .error f => (.refused f, c)
    else (.absent, c)
  | .receive => if c.queue.closed then (.absent, c) else (.received c.receive.1, c.receive.2)
  | .drain => if c.queue.closed then (.absent, c) else (.drained c.drain.1, c.drain.2)
  | .close => if c.queue.closed then (.absent, c) else (.closed, c.close)

/-- A call with its answer. -/
abbrev Exchange := Call × Answer

namespace Exchange

def accepted? : Exchange → Option Flow.Record
  | (.submit _ r, .accepted) => some r
  | _ => none

def delivered : Exchange → List Flow.Record
  | (_, .received (.record r)) => [r]
  | (_, .drained records) => records
  | _ => []

/-- Who can submit after the exchange. -/
def sendersAfter (senders : List Nat) : Exchange → List Nat
  | (_, .cloned n) => senders ++ [n]
  | (.drop n, .dropped) => senders.filter (· ≠ n)
  | _ => senders

end Exchange

/-- A channel and all that was asked of it, oldest first. -/
structure ChannelRun where
  channel : Channel
  exchanges : List Exchange := []

namespace ChannelRun

def start (size : Sizing) : ChannelRun where
  channel := .ofQueue size.queue

def answer (t : ChannelRun) (call : Call) : Answer := (t.channel.answer call).1

def step (t : ChannelRun) (call : Call) : ChannelRun where
  channel := (t.channel.answer call).2
  exchanges := t.exchanges ++ [(call, t.answer call)]

def follow (t : ChannelRun) (calls : List Call) : ChannelRun := calls.foldl step t

def accepted (t : ChannelRun) : List Flow.Record := t.exchanges.filterMap Exchange.accepted?

def delivered (t : ChannelRun) : List Flow.Record := t.exchanges.flatMap Exchange.delivered

/-- The senders that were there from the start or were cloned, and have not been dropped. -/
def senders (t : ChannelRun) : List Nat := t.exchanges.foldl Exchange.sendersAfter [0]

def isOpen (t : ChannelRun) : Bool := t.exchanges.all fun e => e.2 ≠ .closed

def queued (t : ChannelRun) : List Flow.Record := t.channel.queue.records

end ChannelRun

namespace Queue

variable {q : Queue} {records : List Flow.Record}

/-- The images that wait are those of these records. -/
def Holds (q : Queue) (records : List Flow.Record) : Prop := q.waiting = records.map Flow.Record.toOctets

theorem Holds.records_eq (h : q.Holds records) : q.records = records := by
  unfold Holds at h
  unfold Queue.records
  rw [h, List.filterMap_map]
  have hread : Flow.Record.ofOctets? ∘ Flow.Record.toOctets = some := funext Flow.Record.ofOctets?_toOctets
  rw [hread, List.filterMap_some]

theorem Holds.next? (h : q.Holds records) :
    q.next? =
      match records with
      | [] => none
      | r :: rest => some (r, { q with waiting := rest.map Flow.Record.toOctets }) := by
  unfold Holds at h
  unfold Queue.next?
  rw [h]
  cases records with
  | nil => rfl
  | cons r rest => rw [List.map_cons, nextOf?, Flow.Record.ofOctets?_toOctets]; rfl

/-- **A submission fails when nobody reads, and else just when every slot is taken.** -/
theorem Holds.submit (h : q.Holds records) (r : Flow.Record) :
    q.submit r =
      if q.closed then .error .closed
      else if records.length < q.slots then .ok { q with waiting := (records ++ [r]).map Flow.Record.toOctets }
      else .error .full := by
  unfold Holds at h
  unfold Queue.submit
  rw [h, List.length_map, List.map_append]
  rfl

end Queue

namespace Channel

variable {c c' : Channel} {sender n : Nat}

theorem any_senders (c : Channel) : c.senders.any id = true ↔ ∃ n, c.alive n = true := by
  rw [List.any_eq_true]
  constructor
  · rintro ⟨b, hb, hid⟩
    obtain ⟨n, hn⟩ := List.mem_iff_getElem?.1 hb
    refine ⟨n, ?_⟩
    unfold alive
    rw [List.getD_eq_getElem?_getD, hn]
    exact hid
  · rintro ⟨n, hn⟩
    unfold alive at hn
    rw [List.getD_eq_getElem?_getD] at hn
    cases hget : c.senders[n]? with
    | none => rw [hget] at hn; cases hn
    | some b =>
      rw [hget] at hn
      exact ⟨b, List.mem_of_getElem? hget, hn⟩

theorem alive_of_clone? {m : Nat} (h : c.clone? sender = some (m, c')) (n : Nat) :
    c'.alive n = true ↔ c.alive n = true ∨ n = m := by
  unfold clone? at h
  split at h
  · cases h
    unfold alive
    rw [List.getD_eq_getElem?_getD, List.getD_eq_getElem?_getD]
    by_cases hlt : n < c.senders.length
    · rw [List.getElem?_append_left hlt]
      exact ⟨Or.inl, fun h => h.resolve_right (Nat.ne_of_lt hlt)⟩
    · rw [List.getElem?_append_right (Nat.not_lt.1 hlt), List.getElem?_eq_none (Nat.not_lt.1 hlt), List.getElem?_singleton]
      have hlast : n - c.senders.length = 0 ↔ n = c.senders.length := by omega
      by_cases hn : n = c.senders.length <;> simp [hlast, hn]
  · cases h

theorem alive_drop (c : Channel) (sender n : Nat) :
    (c.drop sender).alive n = true ↔ c.alive n = true ∧ n ≠ sender := by
  unfold alive drop
  rw [List.getD_eq_getElem?_getD, List.getD_eq_getElem?_getD, List.getElem?_set]
  by_cases h : sender = n
  · subst h
    by_cases hlt : sender < c.senders.length <;> simp [hlt]
  · simp [h, Ne.symm h]

theorem queue_of_clone? {m : Nat} (h : c.clone? sender = some (m, c')) : c'.queue = c.queue := by
  unfold clone? at h
  split at h
  · cases h
    rfl
  · cases h

end Channel

namespace ChannelRun

/-- The channel is what the answers tell of it. -/
structure Sound (size : Sizing) (t : ChannelRun) (records : List Flow.Record) : Prop where
  slots : t.channel.queue.slots = size.capacity
  closed : t.isOpen = !t.channel.queue.closed
  holds : t.channel.queue.Holds records
  room : records.length ≤ size.capacity
  order : t.isOpen = true → t.delivered ++ records = t.accepted
  senders : ∀ n, t.channel.alive n = true ↔ n ∈ t.senders

variable {size : Sizing} {t : ChannelRun} {records : List Flow.Record}

theorem accepted_step (t : ChannelRun) (call : Call) :
    (t.step call).accepted = t.accepted ++ (Exchange.accepted? (call, t.answer call)).toList := by
  unfold accepted step
  rw [List.filterMap_append, List.filterMap_cons]
  cases Exchange.accepted? (call, t.answer call) <;> rfl

theorem delivered_step (t : ChannelRun) (call : Call) :
    (t.step call).delivered = t.delivered ++ Exchange.delivered (call, t.answer call) := by
  unfold delivered step
  rw [List.flatMap_append, List.flatMap_singleton]

theorem senders_step (t : ChannelRun) (call : Call) :
    (t.step call).senders = Exchange.sendersAfter t.senders (call, t.answer call) := by
  unfold senders step
  rw [List.foldl_append]
  rfl

theorem isOpen_step (t : ChannelRun) (call : Call) : (t.step call).isOpen = (t.isOpen && t.answer call ≠ .closed) := by
  unfold isOpen step
  rw [List.all_append, List.all_cons, List.all_nil, Bool.and_true]

namespace Sound

theorem start (size : Sizing) : Sound size (ChannelRun.start size) [] where
  slots := by cases size <;> rfl
  closed := by cases size <;> rfl
  holds := by cases size <;> rfl
  room := Nat.zero_le _
  order _ := rfl
  senders n := by
    show (Channel.alive { queue := size.queue } n = true ↔ n ∈ [0])
    unfold Channel.alive
    cases n with
    | zero => simp
    | succ n => simp

/-- A call that leaves the queue alone. -/
theorem aside (h : Sound size t records) (call : Call) (hqueue : (t.channel.answer call).2.queue = t.channel.queue)
    (haccepted : Exchange.accepted? (call, t.answer call) = none)
    (hdelivered : Exchange.delivered (call, t.answer call) = []) (hopen : t.answer call ≠ .closed)
    (hsenders : ∀ n, (t.channel.answer call).2.alive n = true ↔ n ∈ Exchange.sendersAfter t.senders (call, t.answer call)) :
    Sound size (t.step call) records := by
  have hstep : (t.step call).channel.queue = t.channel.queue := hqueue
  have hopen' : (t.step call).isOpen = t.isOpen := by rw [isOpen_step, decide_eq_true hopen, Bool.and_true]
  refine ⟨?_, ?_, ?_, h.room, fun ho => ?_, fun n => ?_⟩
  · rw [hstep]
    exact h.slots
  · rw [hopen', hstep]
    exact h.closed
  · rw [hstep]
    exact h.holds
  · rw [delivered_step, accepted_step, hdelivered, haccepted, List.append_nil, Option.toList_none, List.append_nil]
    exact h.order (hopen' ▸ ho)
  · rw [senders_step]
    exact hsenders n

/-- A call that changes nothing. -/
theorem idle (h : Sound size t records) {call : Call} {a : Answer} (hanswer : t.channel.answer call = (a, t.channel))
    (haccepted : Exchange.accepted? (call, a) = none) (hdelivered : Exchange.delivered (call, a) = []) (hopen : a ≠ .closed)
    (hsenders : Exchange.sendersAfter t.senders (call, a) = t.senders) : Sound size (t.step call) records := by
  obtain rfl : t.answer call = a := congrArg Prod.fst hanswer
  refine h.aside call (by rw [hanswer]) haccepted hdelivered hopen fun n => ?_
  rw [hanswer, hsenders]
  exact h.senders n

theorem absent (h : Sound size t records) {call : Call} (hanswer : t.channel.answer call = (.absent, t.channel)) :
    Sound size (t.step call) records := by
  refine h.idle hanswer ?_ rfl nofun ?_ <;> cases call <;> rfl

/-- A call after which other records wait. -/
theorem shift (h : Sound size t records) {call : Call} {a : Answer} {records' : List Flow.Record}
    (hanswer : t.channel.answer call =
      (a, { t.channel with queue := { t.channel.queue with waiting := records'.map Flow.Record.toOctets } }))
    (hroom : records'.length ≤ size.capacity)
    (horder : t.delivered ++ Exchange.delivered (call, a) ++ records' = t.accepted ++ (Exchange.accepted? (call, a)).toList)
    (hclosed : a ≠ .closed) (hsenders : Exchange.sendersAfter t.senders (call, a) = t.senders) :
    Sound size (t.step call) records' := by
  obtain rfl : t.answer call = a := congrArg Prod.fst hanswer
  have hc : (t.step call).channel = _ := congrArg Prod.snd hanswer
  refine ⟨?_, ?_, ?_, hroom, fun _ => ?_, fun n => ?_⟩
  · rw [hc]
    exact h.slots
  · rw [hc, isOpen_step, decide_eq_true hclosed, Bool.and_true]
    exact h.closed
  · rw [hc]
    rfl
  · rw [delivered_step, accepted_step]
    exact horder
  · rw [hc, senders_step, hsenders]
    exact h.senders n

theorem clone (h : Sound size t records) (sender : Nat) : Sound size (t.step (.clone sender)) records := by
  cases hclone : t.channel.clone? sender with
  | none =>
    refine h.absent ?_
    simp only [Channel.answer, hclone]
  | some made =>
    obtain ⟨m, c⟩ := made
    have hanswer : t.channel.answer (.clone sender) = (.cloned m, c) := by simp only [Channel.answer, hclone]
    have ha : t.answer (.clone sender) = .cloned m := congrArg Prod.fst hanswer
    refine h.aside _ ?_ (by rw [ha]; rfl) (by rw [ha]; rfl) (by rw [ha]; nofun) fun n => ?_
    · rw [hanswer]
      exact Channel.queue_of_clone? hclone
    · rw [hanswer, ha]
      show c.alive n = true ↔ n ∈ t.senders ++ [m]
      rw [Channel.alive_of_clone? hclone, h.senders, List.mem_append, List.mem_singleton]

theorem drop (h : Sound size t records) (sender : Nat) : Sound size (t.step (.drop sender)) records := by
  by_cases halive : t.channel.alive sender = true
  · have hanswer : t.channel.answer (.drop sender) = (.dropped, t.channel.drop sender) := by
      simp only [Channel.answer, halive, if_true]
    have ha : t.answer (.drop sender) = .dropped := congrArg Prod.fst hanswer
    refine h.aside _ (by rw [hanswer]; rfl) (by rw [ha]; rfl) (by rw [ha]; rfl) (by rw [ha]; nofun) fun n => ?_
    rw [hanswer, ha]
    show (t.channel.drop sender).alive n = true ↔ n ∈ t.senders.filter (· ≠ sender)
    rw [Channel.alive_drop, h.senders, List.mem_filter, decide_eq_true_iff]
  · refine h.absent ?_
    rw [Channel.answer, if_neg halive]

/-- **What a sender that is there learns of its record.** -/
theorem answer_submit (h : Sound size t records) {sender : Nat} (hsender : sender ∈ t.senders) (r : Flow.Record) :
    t.channel.answer (.submit sender r) =
      if t.isOpen then
        if records.length = size.capacity then (.refused .full, t.channel)
        else
          (.accepted,
            { t.channel with
              queue := { t.channel.queue with waiting := (records ++ [r]).map Flow.Record.toOctets } })
      else (.refused .closed, t.channel) := by
  have halive : t.channel.alive sender = true := (h.senders sender).2 hsender
  have hslots := h.slots
  have hroom := h.room
  rw [Channel.answer, if_pos halive, Channel.submit, h.holds.submit r]
  by_cases hclosed : t.channel.queue.closed = true
  · have hopen : ¬ t.isOpen = true := by rw [h.closed, hclosed]; simp
    rw [if_pos hclosed, if_neg hopen]
    rfl
  · have hopen : t.isOpen = true := by rw [h.closed, Bool.eq_false_iff.2 hclosed]; rfl
    rw [if_neg hclosed, if_pos hopen]
    by_cases hfull : records.length = size.capacity
    · rw [if_neg (by omega), if_pos hfull]
      rfl
    · rw [if_pos (by omega), if_neg hfull]
      rfl

/-- **What the reader sees when it looks once.** -/
theorem answer_receive (h : Sound size t records) (hopen : t.isOpen = true) :
    t.channel.answer .receive =
      match records with
      | r :: rest =>
        (.received (.record r),
          { t.channel with queue := { t.channel.queue with waiting := rest.map Flow.Record.toOctets } })
      | [] => (.received (if t.senders = [] then .ended else .pending), t.channel) := by
  have hclosed : t.channel.queue.closed = false := by simpa [hopen] using h.closed.symm
  have hnone : t.channel.senders.any id = true ↔ ¬ t.senders = [] := by
    rw [Channel.any_senders]
    simp only [h.senders]
    constructor
    · rintro ⟨n, hn⟩ hnil
      rw [hnil] at hn
      cases hn
    · exact List.exists_mem_of_ne_nil _
  rw [Channel.answer, hclosed, Channel.receive, h.holds.next?]
  cases records with
  | cons r rest => rfl
  | nil =>
    by_cases hnil : t.senders = []
    · rw [if_pos hnil, if_neg fun hany => hnone.1 hany hnil]
      rfl
    · rw [if_neg hnil, if_pos (hnone.2 hnil)]
      rfl

theorem submit (h : Sound size t records) (sender : Nat) (r : Flow.Record) :
    ∃ records', Sound size (t.step (.submit sender r)) records' := by
  by_cases hsender : sender ∈ t.senders
  · have hanswer := h.answer_submit hsender r
    by_cases hopen : t.isOpen = true
    · rw [if_pos hopen] at hanswer
      by_cases hfull : records.length = size.capacity
      · rw [if_pos hfull] at hanswer
        exact ⟨records, h.idle hanswer rfl rfl nofun rfl⟩
      · rw [if_neg hfull] at hanswer
        have hroom := h.room
        refine ⟨records ++ [r], h.shift hanswer ?_ ?_ nofun rfl⟩
        · rw [List.length_append, List.length_singleton]
          omega
        · rw [← h.order hopen]
          show t.delivered ++ [] ++ (records ++ [r]) = t.delivered ++ records ++ [r]
          rw [List.append_nil, List.append_assoc]
    · rw [if_neg hopen] at hanswer
      exact ⟨records, h.idle hanswer rfl rfl nofun rfl⟩
  · refine ⟨records, h.absent ?_⟩
    rw [Channel.answer, if_neg fun halive => hsender ((h.senders sender).1 halive)]

theorem receive (h : Sound size t records) : ∃ records', Sound size (t.step .receive) records' := by
  by_cases hopen : t.isOpen = true
  · have hanswer := h.answer_receive hopen
    cases records with
    | nil =>
      refine ⟨[], h.idle hanswer rfl ?_ nofun rfl⟩
      split <;> rfl
    | cons r rest =>
      have hroom : rest.length + 1 ≤ size.capacity := h.room
      refine ⟨rest, h.shift hanswer (by omega) ?_ nofun rfl⟩
      show t.delivered ++ [r] ++ rest = t.accepted ++ []
      rw [List.append_nil, List.append_assoc]
      exact h.order hopen
  · have hclosed : t.channel.queue.closed = true := by simpa [hopen] using h.closed
    refine ⟨records, h.absent ?_⟩
    rw [Channel.answer, if_pos hclosed]

theorem drain (h : Sound size t records) : ∃ records', Sound size (t.step .drain) records' := by
  by_cases hclosed : t.channel.queue.closed = true
  · refine ⟨records, h.absent ?_⟩
    rw [Channel.answer, if_pos hclosed]
  · have hopen : t.isOpen = true := by rw [h.closed, Bool.eq_false_iff.2 hclosed]; rfl
    have hanswer : t.channel.answer .drain = (.drained records, { t.channel with queue := t.channel.queue.drained }) := by
      rw [Channel.answer, if_neg hclosed, Channel.drain, h.holds.records_eq]
    refine ⟨[], h.shift hanswer (Nat.zero_le _) ?_ nofun rfl⟩
    show t.delivered ++ records ++ [] = t.accepted ++ []
    rw [List.append_nil, List.append_nil]
    exact h.order hopen

theorem close (h : Sound size t records) : ∃ records', Sound size (t.step .close) records' := by
  by_cases hclosed : t.channel.queue.closed = true
  · refine ⟨records, h.absent ?_⟩
    rw [Channel.answer, if_pos hclosed]
  · have hanswer : t.channel.answer .close = (.closed, t.channel.close) := by rw [Channel.answer, if_neg hclosed]
    have ha : t.answer .close = .closed := congrArg Prod.fst hanswer
    have hc : (t.step .close).channel = t.channel.close := congrArg Prod.snd hanswer
    have hshut : (t.step .close).isOpen = false := by rw [isOpen_step, ha]; exact Bool.and_false _
    refine ⟨[], ?_, ?_, ?_, Nat.zero_le _, fun hopen => ?_, fun n => ?_⟩
    · rw [hc]
      exact h.slots
    · rw [hc, hshut]
      rfl
    · rw [hc]
      rfl
    · rw [hshut] at hopen
      cases hopen
    · rw [hc, senders_step, ha]
      exact h.senders n

theorem step (h : Sound size t records) (call : Call) : ∃ records', Sound size (t.step call) records' := by
  cases call with
  | clone sender => exact ⟨records, h.clone sender⟩
  | drop sender => exact ⟨records, h.drop sender⟩
  | submit sender r => exact h.submit sender r
  | receive => exact h.receive
  | drain => exact h.drain
  | close => exact h.close

theorem follow : ∀ (calls : List Call) {t : ChannelRun} {records : List Flow.Record}, Sound size t records →
    ∃ records', Sound size (t.follow calls) records'
  | [], _, records, h => ⟨records, h⟩
  | call :: calls, _, _, h => by
    obtain ⟨records', h'⟩ := h.step call
    exact follow calls h'

end Sound

/-- **The channel is a bounded queue, first in, first out.**  After any calls, as long as the reader is there, what was delivered
and what waits are together the accepted records in their order, at most as many waiting as there are slots.  A sender that is
there is refused just when every slot is taken, and by a reader that has gone always.  The reader gets the oldest record if any
waits, and else learns that the channel has ended just when no sender is left. -/
theorem bounded_fifo (size : Sizing) (calls : List Call) :
    let t := (start size).follow calls
    (t.isOpen = true → t.delivered ++ t.queued = t.accepted ∧ t.queued.length ≤ size.capacity) ∧
    (∀ sender ∈ t.senders, ∀ r, t.answer (.submit sender r) =
      if t.isOpen then if t.queued.length = size.capacity then .refused .full else .accepted else .refused .closed) ∧
    (t.isOpen = true → t.answer .receive = .received
      (match t.queued with
      | r :: _ => .record r
      | [] => if t.senders = [] then .ended else .pending)) := by
  intro t
  obtain ⟨records, hsound⟩ : ∃ records, Sound size t records := (Sound.start size).follow calls
  have hqueued : t.queued = records := hsound.holds.records_eq
  rw [hqueued]
  refine ⟨fun hopen => ⟨hsound.order hopen, hsound.room⟩, fun sender hsender r => ?_, fun hopen => ?_⟩
  · unfold answer
    rw [hsound.answer_submit hsender r]
    split
    · split <;> rfl
    · rfl
  · unfold answer
    rw [hsound.answer_receive hopen]
    cases records <;> rfl

/-- A channel of 244 octets has room for two records.  Its first sender is cloned and dropped; the clone fills it and is refused.
The reader gets what waits although the last sender has gone, and once the reader has gone a full channel refuses as closed. -/
theorem bounded_fifo_last_sender :
    let record (port : UInt16) : Flow.Record := { id := { srcPort := port } }
    let calls : List Call :=
      [.clone 0, .submit 0 (record 1), .drop 0, .submit 1 (record 2), .submit 1 (record 3), .receive, .submit 1 (record 4)]
    let run (more : List Call) := (start (.octets 244)).follow (calls ++ more)
    ((run []).isOpen = true ∧ 1 ∈ (run []).senders ∧ (run []).queued.length = Sizing.capacity (.octets 244)) ∧
      (run []).accepted = [record 1, record 2, record 4] ∧
      (run []).delivered ++ (run []).queued = [record 1, record 2, record 4] ∧
      (run []).answer (.submit 1 (record 5)) = .refused .full ∧
      ((run [.drop 1]).isOpen = true ∧ (run [.drop 1]).queued = [record 2, record 4]) ∧
      (run [.drop 1]).answer .receive = .received (.record (record 2)) ∧
      ((run [.close]).isOpen = false ∧ 1 ∈ (run [.close]).senders) ∧
      (run [.close]).answer (.submit 1 (record 5)) = .refused .closed := by
  intro record calls run
  obtain ⟨horder, hsubmit, -⟩ := bounded_fifo (.octets 244) (calls ++ [])
  obtain ⟨-, -, hreceive⟩ := bounded_fifo (.octets 244) (calls ++ [.drop 1])
  obtain ⟨-, hclosed, -⟩ := bounded_fifo (.octets 244) (calls ++ [.close])
  have hopen : (run []).isOpen = true := by decide +kernel
  have hsender : 1 ∈ (run []).senders := by decide +kernel
  have hfull : (run []).queued.length = Sizing.capacity (.octets 244) := by decide +kernel
  have haccepted : (run []).accepted = [record 1, record 2, record 4] := by decide +kernel
  have hlast : (run [.drop 1]).isOpen = true ∧ (run [.drop 1]).queued = [record 2, record 4] := by decide +kernel
  have hgone : (run [.close]).isOpen = false ∧ 1 ∈ (run [.close]).senders := by decide +kernel
  refine ⟨⟨hopen, hsender, hfull⟩, haccepted, (horder hopen).1.trans haccepted, ?_, hlast, ?_, hgone, ?_⟩
  · have hanswer := hsubmit 1 hsender (record 5)
    rw [if_pos hopen, if_pos hfull] at hanswer
    exact hanswer
  · have hanswer := hreceive hlast.1
    rw [show ((start (.octets 244)).follow (calls ++ [.drop 1])).queued = [record 2, record 4] from hlast.2] at hanswer
    exact hanswer
  · have hanswer := hclosed 1 hgone.2 (record 5)
    rw [if_neg (Bool.eq_false_iff.1 hgone.1)] at hanswer
    exact hanswer

end ChannelRun

end FlowMeter.Overflow
