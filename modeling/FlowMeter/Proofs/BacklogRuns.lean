import FlowMeter.Proofs.Delivery
/-!
# What a backlog is given and what it gives up

A backlog takes records one by one and is evicted, together with a partial view, at its own limit or when it is asked.  It is
never full when a call is over, no batch shows a flow twice, and whatever it was given of a flow is in a batch or still held
(`BacklogRun.Sound`, kept by each call in `BacklogRun.Sound.step`).
-/
namespace FlowMeter

open FlowMeter.Flow (weigh Additive AllDatable)

namespace Flow

theorem additive_totals : Additive Metrics.totals := Metrics.totals_merge

/-- All that partial views show of one flow, put together one after another. -/
def together (id : Id) (s : Snapshot) : Metrics := ((s.filter fun e => e.1 = id).map Prod.snd).foldl Metrics.merge {}

theorem Metrics.totals_foldl_merge : ∀ (ms : List Metrics) (m : Metrics),
    (ms.foldl merge m).totals = m.totals + (ms.map totals).sum
  | [], m => (add_zero _).symm
  | n :: ms, m => by
    rw [List.foldl_cons, totals_foldl_merge ms, totals_merge, List.map_cons, List.sum_cons, add_assoc]

theorem totals_together (id : Id) : ∀ s : Snapshot, (together id s).totals = weigh Metrics.totals id s
  | [] => rfl
  | e :: s => by
    have hrest := totals_together id s
    unfold together at hrest ⊢
    rw [Metrics.totals_foldl_merge] at hrest ⊢
    rw [weigh_cons, ← hrest]
    by_cases he : e.1 = id
    · rw [List.filter_cons_of_pos (by simpa using he), if_pos he, List.map_cons, List.map_cons, List.sum_cons]
      exact add_left_comm ..
    · rw [List.filter_cons_of_neg (by simpa using he), if_neg he, zero_add]

namespace Merged

theorem mem_keys_add (t : Merged) (k : Id) (m : Metrics) (id : Id) : id ∈ (t.add k m).keys ↔ id ∈ t.keys ∨ id = k := by
  unfold add
  rw [Table.keys_upsert]
  split
  · rename_i hk
    constructor
    · exact Or.inl
    · rintro (h | rfl)
      · exact h
      · exact hk
  · rw [List.mem_append, List.mem_singleton]

theorem mem_keys_addAll (id : Id) : ∀ (s : Snapshot) (t : Merged),
    id ∈ (t.addAll s).keys ↔ id ∈ t.keys ∨ id ∈ s.map Prod.fst
  | [], t => by simp [addAll]
  | e :: s, t => by
    have hrest := mem_keys_addAll id s (t.add e.1 e.2)
    rw [mem_keys_add, or_assoc, ← List.mem_cons, ← List.map_cons] at hrest
    exact hrest

theorem mem_keys_foldl_addAll (id : Id) : ∀ (shards : List Snapshot) (t : Merged),
    id ∈ (shards.foldl addAll t).keys ↔ id ∈ t.keys ∨ id ∈ shards.flatten.map Prod.fst
  | [], t => by simp
  | s :: rest, t => by
    rw [List.foldl_cons, mem_keys_foldl_addAll id rest, mem_keys_addAll, or_assoc, List.flatten_cons, List.map_append,
      List.mem_append]

/-- **All partial views as one show the flows that any of them shows.** -/
theorem mem_keys_ofShards (id : Id) (shards : List Snapshot) :
    id ∈ (ofShards shards).keys ↔ id ∈ shards.flatten.map Prod.fst := by
  unfold ofShards
  rw [mem_keys_foldl_addAll]
  constructor
  · rintro (h | h)
    · cases h
    · exact h
  · exact Or.inr

end Merged

end Flow

namespace Export

namespace Backlog

variable {b : Backlog} {place : Place} {snapshot : Flow.Merged} {batch : List Report}

/-- What a batch shows of the flows that go into it. -/
theorem once_of_combined (h : batch.map (fun r => (r.id, r.metrics)) = (b.combined snapshot).entries) :
    (batch.map Report.id).Nodup ∧
      ∀ id, id ∈ batch.map Report.id ↔ id ∈ b.flows.keys ∨ id ∈ snapshot.keys := by
  have hids : batch.map Report.id = (b.combined snapshot).keys := by
    unfold Table.keys
    rw [← h, List.map_map]
    rfl
  rw [hids]
  refine ⟨(b.combined snapshot).nodup_keys, fun id => ?_⟩
  unfold combined
  rw [Flow.Merged.mem_keys_ofShards]
  simp only [List.flatten_cons, List.flatten_nil, List.append_nil, List.map_append, List.mem_append]
  exact Or.comm

/-- **A record is held, or leaves with all that is held.** -/
theorem account_datable (hb : AllDatable place.boot b.flows.entries) {r : Flow.Record} (hr : r.metrics.Datable place.boot) :
    (b.account place r = ⟨[], .ok (b.add r, none)⟩ ∧ (b.add r).size < b.limit) ∨
      ∃ batch, b.account place r = ⟨[.backlogFull (b.add r).size], .ok ((b.add r).emptied, some batch)⟩ ∧
        batch.map (fun r => (r.id, r.metrics)) = ((b.add r).combined ∅).entries := by
  have hadd : AllDatable place.boot (b.add r).flows.entries :=
    Flow.Merged.forall_add (Flow.Metrics.mergeable_datable place.boot) hb r.id hr
  unfold account
  by_cases hfull : (b.add r).full
  · obtain ⟨batch, hevict, hbatch⟩ := (b.add r).evict_datable place ∅ hadd fun e he => by cases he
    right
    refine ⟨batch, ?_, hbatch⟩
    simp only [hfull, if_true, hevict]
    rfl
  · left
    have hroom : ¬ b.limit ≤ (b.add r).size := fun hle => hfull (decide_eq_true hle)
    refine ⟨?_, by omega⟩
    simp only [hfull, Bool.false_eq_true, if_false]
    rfl

end Backlog

/-- What a backlog can be asked to do. -/
inductive BacklogStep where
  | account (r : Flow.Record)
  | evict (snapshot : Flow.Merged)

/-- The flows that come in with a call. -/
def BacklogStep.given : BacklogStep → Flow.Snapshot
  | .account r => [r.entry]
  | .evict snapshot => snapshot.entries

/-- A backlog with the batches that it has given up, oldest first. -/
structure BacklogRun where
  backlog : Backlog
  batches : List (List Report) := []

namespace BacklogRun

def step (place : Place) (t : BacklogRun) : BacklogStep → Logged TimeFault BacklogRun
  | .account r => do
    let (backlog, batch) ← t.backlog.account place r
    return { backlog, batches := t.batches ++ batch.toList }
  | .evict snapshot => do
    let (backlog, batch) ← Logged.ofExcept (t.backlog.evict place snapshot)
    return { backlog, batches := t.batches ++ [batch] }

def follow (place : Place) (t : BacklogRun) : List BacklogStep → Logged TimeFault BacklogRun
  | [] => pure t
  | step :: rest => do (← t.step place step).follow place rest

/-- The flows that have left, as the batches show them. -/
def returned (t : BacklogRun) : Flow.Snapshot := t.batches.flatten.map fun r => (r.id, r.metrics)

def held (t : BacklogRun) : Flow.Snapshot := t.backlog.flows.entries

/-- The backlog has room, no batch shows a flow twice, and all that was given is in a batch or still held. -/
structure Sound (place : Place) (limit : Nat) (given : Flow.Snapshot) (t : BacklogRun) : Prop where
  same : t.backlog.limit = limit
  room : t.backlog.size < max limit 1
  datable : AllDatable place.boot t.held
  once : ∀ batch ∈ t.batches, (batch.map Report.id).Nodup
  balance : ∀ id, weigh Flow.Metrics.totals id (t.returned ++ t.held) = weigh Flow.Metrics.totals id given

namespace Sound

variable {place : Place} {limit : Nat} {given : Flow.Snapshot} {t : BacklogRun}

theorem start (place : Place) (limit : Nat) : Sound place limit [] { backlog := { limit } } where
  same := rfl
  room := Nat.lt_of_lt_of_le Nat.one_pos (Nat.le_max_right ..)
  datable e he := by cases he
  once batch h := by cases h
  balance id := rfl

/-- A backlog that gives up one more batch, with all that it holds in it. -/
theorem give (h : Sound place limit given t) {b : Backlog} {snapshot : Flow.Merged} {batch : List Report}
    {more : Flow.Snapshot} (hlimit : b.limit = limit)
    (hbatch : batch.map (fun r => (r.id, r.metrics)) = (b.combined snapshot).entries)
    (hmore : ∀ id, weigh Flow.Metrics.totals id snapshot.entries + weigh Flow.Metrics.totals id b.flows.entries =
      weigh Flow.Metrics.totals id t.held + weigh Flow.Metrics.totals id more) :
    Sound place limit (given ++ more) { backlog := b.emptied, batches := t.batches ++ [batch] } where
  same := hlimit
  room := Nat.lt_of_lt_of_le Nat.one_pos (Nat.le_max_right ..)
  datable e he := by cases he
  once batch' hmem := by
    rcases List.mem_append.1 hmem with hold | hnew
    · exact h.once batch' hold
    · obtain rfl := List.mem_singleton.1 hnew
      exact (Backlog.once_of_combined hbatch).1
  balance id := by
    have hreturned : returned { backlog := b.emptied, batches := t.batches ++ [batch] } =
        t.returned ++ (b.combined snapshot).entries := by
      unfold returned
      rw [List.flatten_append, List.map_append, List.flatten_singleton, hbatch]
    rw [hreturned, Flow.weigh_append, Flow.weigh_append, Flow.weigh_append, Backlog.weigh_combined Flow.additive_totals, hmore,
      ← h.balance id, Flow.weigh_append]
    show _ + 0 = _
    rw [add_zero, add_assoc]

/-- **One call more.** -/
theorem step (h : Sound place limit given t) (s : BacklogStep) (hs : AllDatable place.boot s.given) :
    ∃ notices t', t.step place s = ⟨notices, .ok t'⟩ ∧ Sound place limit (given ++ s.given) t' := by
  cases s with
  | account r =>
    have hr : r.metrics.Datable place.boot := hs r.entry List.mem_cons_self
    have hadd : ∀ id, weigh Flow.Metrics.totals id (t.backlog.add r).flows.entries =
        weigh Flow.Metrics.totals id t.held + weigh Flow.Metrics.totals id [r.entry] := by
      intro id
      rw [Backlog.weigh_add Flow.additive_totals, Flow.weigh_cons, Flow.weigh_nil, add_zero]
      rfl
    rcases Backlog.account_datable h.datable hr with ⟨haccount, hroom⟩ | ⟨batch, haccount, hbatch⟩
    · refine ⟨[], { t with backlog := t.backlog.add r }, ?_, h.same, ?_, ?_, h.once, fun id => ?_⟩
      · rw [BacklogRun.step, haccount]
        show Logged.mk [] (.ok (BacklogRun.mk (t.backlog.add r) (t.batches ++ []))) = _
        rw [List.append_nil]
      · rw [h.same] at hroom
        exact Nat.lt_of_lt_of_le hroom (Nat.le_max_left ..)
      · exact Flow.Merged.forall_add (Flow.Metrics.mergeable_datable place.boot) h.datable r.id hr
      · show weigh Flow.Metrics.totals id (t.returned ++ (t.backlog.add r).flows.entries) = _
        rw [Flow.weigh_append, hadd, ← add_assoc, ← Flow.weigh_append, h.balance, ← Flow.weigh_append]
        rfl
    · have hsame : (t.backlog.add r).limit = limit := h.same
      refine ⟨[.backlogFull (t.backlog.add r).size], _, ?_, h.give hsame hbatch fun id => ?_⟩
      · rw [BacklogRun.step, haccount, Logged.ok_bind]
        rfl
      · rw [hadd]
        exact zero_add _
  | evict snapshot =>
    obtain ⟨batch, hevict, hbatch⟩ := t.backlog.evict_datable place snapshot h.datable hs
    refine ⟨[], _, ?_, h.give h.same hbatch fun id => add_comm ..⟩
    rw [BacklogRun.step, hevict]
    rfl

/-- **Any calls.** -/
theorem follow : ∀ (steps : List BacklogStep) {given : Flow.Snapshot} {t : BacklogRun}, Sound place limit given t →
    AllDatable place.boot (steps.flatMap BacklogStep.given) →
    ∃ notices t', t.follow place steps = ⟨notices, .ok t'⟩ ∧
      Sound place limit (given ++ steps.flatMap BacklogStep.given) t'
  | [], given, t, h, _ => ⟨[], t, rfl, by rwa [List.flatMap_nil, List.append_nil]⟩
  | s :: steps, given, t, h, hs => by
    rw [List.flatMap_cons] at hs ⊢
    obtain ⟨notices, t', hstep, h'⟩ := h.step s fun e he => hs e (List.mem_append_left _ he)
    obtain ⟨notices', t'', hrest, h''⟩ := follow steps h' fun e he => hs e (List.mem_append_right _ he)
    refine ⟨notices ++ notices', t'', ?_, by rwa [← List.append_assoc]⟩
    rw [BacklogRun.follow, hstep, Logged.ok_bind, hrest]

end Sound

/-- **A backlog is bounded, and only passes on what it is given.**  After any calls with times that have their place on the wall
clock there is room for one flow more or nothing is held, no batch shows a flow twice, and an eviction would show just the flows
that are held or come with it.  All that was given of a flow, put together, is what the batches and the backlog have of it. -/
theorem bounded_and_balanced (limit : Nat) (place : Place) (steps : List BacklogStep)
    (hsteps : AllDatable place.boot (steps.flatMap BacklogStep.given)) :
    ∃ notices t, ({ backlog := { limit } } : BacklogRun).follow place steps = ⟨notices, .ok t⟩ ∧
      t.backlog.size < max limit 1 ∧
      (∀ batch ∈ t.batches, (batch.map Report.id).Nodup) ∧
      (∀ snapshot : Flow.Merged, AllDatable place.boot snapshot.entries →
        ∃ batch, t.backlog.evict place snapshot = .ok (t.backlog.emptied, batch) ∧ (batch.map Report.id).Nodup ∧
          ∀ id, id ∈ batch.map Report.id ↔ id ∈ t.backlog.flows.keys ∨ id ∈ snapshot.keys) ∧
      ∀ id, (Flow.together id (t.returned ++ t.held)).totals =
        (Flow.together id (steps.flatMap BacklogStep.given)).totals := by
  obtain ⟨notices, t, hfollow, hsound⟩ := (Sound.start place limit).follow steps hsteps
  refine ⟨notices, t, hfollow, hsound.room, hsound.once, fun snapshot hsnapshot => ?_, fun id => ?_⟩
  · obtain ⟨batch, hevict, hbatch⟩ := t.backlog.evict_datable place snapshot hsound.datable hsnapshot
    exact ⟨batch, hevict, Backlog.once_of_combined hbatch⟩
  · rw [Flow.totals_together, Flow.totals_together, hsound.balance, List.nil_append]

/-- Two records of one flow are held, a record of another flow makes the backlog full, and the next record is evicted together
with a partial view of its flow. -/
theorem bounded_and_balanced_early_batch :
    let place : Place := { name := toString, boot := WallTime.epoch }
    let record (port : UInt16) (time : UInt64) : Flow.Record :=
      { id := { srcPort := port }, metrics := { packets := 1, bytes := 100, start := time, stop := time, errno := 7 } }
    let snapshot : Flow.Merged := (∅ : Flow.Merged).add { srcPort := 1 } { packets := 4, bytes := 400, start := 3, stop := 50 }
    let steps : List BacklogStep :=
      [.account (record 1 9), .account (record 1 5), .account (record 2 6), .account (record 1 60), .evict snapshot]
    AllDatable place.boot (steps.flatMap BacklogStep.given) ∧
      ∃ notices t, ({ backlog := { limit := 2 } } : BacklogRun).follow place steps = ⟨notices, .ok t⟩ ∧
        t.batches.map List.length = [2, 1] ∧ t.backlog.size < 2 ∧
        (Flow.together { srcPort := 1 } (t.returned ++ t.held)).totals = ⟨7, 700, 3, 60, 0, 0⟩ := by
  intro place record snapshot steps
  have hdatable : ∀ e ∈ steps.flatMap BacklogStep.given,
      Datable WallTime.epoch e.2.start ∧ Datable WallTime.epoch e.2.stop := by
    decide +kernel
  obtain ⟨notices, t, hfollow, hroom, -, -, hbalance⟩ := bounded_and_balanced 2 place steps hdatable
  have hlengths : (({ backlog := { limit := 2 } } : BacklogRun).follow place steps).outcome.toOption.map
      (fun t => t.batches.map List.length) = some [2, 1] := by
    decide +kernel
  rw [hfollow] at hlengths
  refine ⟨hdatable, notices, t, hfollow, Option.some.inj hlengths, hroom, (hbalance _).trans ?_⟩
  decide +kernel

end BacklogRun
end Export
end FlowMeter
