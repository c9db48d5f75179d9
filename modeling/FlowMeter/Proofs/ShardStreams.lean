import FlowMeter.Proofs.ShardContents
import Mathlib.Algebra.GroupWithZero.Nat
import Mathlib.Data.List.Induction
/-!
# Shards as functions of their packets

What a shard keeps and what it answers, read off the packets that came since it was empty.  The metrics of a flow follow one rule
for each field (`Flow.Metrics.ofAll_eq_summary`), and whether a packet is kept depends on the flows that came before it and on
nothing else (`Shard.applied_of_snapshot`).  `Shard.applyAll_closed_form` is the whole shard.
-/
namespace FlowMeter

namespace Flow

namespace Metrics

/-- The first of the times that is one. -/
def firstTime (times : List UInt64) : UInt64 := (times.find? (· ≠ 0)).getD 0

/-- What packets of one flow come to, field by field. -/
def summary (os : List Observation) : Metrics where
  packets := UInt32.ofNat os.length
  bytes := UInt64.ofNat (os.map fun o => o.size.toNat).sum
  start := firstTime (os.map Observation.time)
  stop := (os.map Observation.time).getLast?.getD 0
  handshake := firstTime ((os.filter Observation.handshake).map Observation.time)
  flags := (os.map Observation.flags).foldl (· ||| ·) 0
  errno := 0

theorem firstTime_concat (times : List UInt64) (t : UInt64) :
    firstTime (times ++ [t]) = if firstTime times = 0 then t else firstTime times := by
  unfold firstTime
  rw [List.find?_append]
  cases h : times.find? (· ≠ 0) with
  | none => by_cases ht : t = 0 <;> simp [ht]
  | some u =>
    have hu : u ≠ 0 := by simpa using List.find?_some h
    simp [hu]

theorem firstTime_handshakes_concat (os : List Observation) (o : Observation) :
    firstTime (((os ++ [o]).filter Observation.handshake).map Observation.time) =
      if o.handshake ∧ firstTime ((os.filter Observation.handshake).map Observation.time) = 0 then o.time
      else firstTime ((os.filter Observation.handshake).map Observation.time) := by
  rw [List.filter_append, List.map_append]
  cases h : o.handshake with
  | false => simp [h]
  | true =>
    have hone : ([o].filter Observation.handshake).map Observation.time = [o.time] := by simp [h]
    rw [hone, firstTime_concat]
    simp

/-- **One packet more changes every field by its own rule.** -/
theorem summary_concat (os : List Observation) (o : Observation) : summary (os ++ [o]) = (summary os).add o := by
  unfold summary add
  rw [firstTime_handshakes_concat, List.map_append, List.map_append, List.map_append, List.map_singleton,
    List.map_singleton, List.map_singleton, firstTime_concat, List.foldl_append, List.length_append]
  simp [UInt32.ofNat_add, UInt64.ofNat_add]

theorem add_blank (o : Observation) : ({} : Metrics).add o = ofFirst o := by
  unfold add ofFirst
  simp

/-- **Packets that are counted one after another have a summary.** -/
theorem ofAll_eq_summary (os : List Observation) : ofAll os = summary os := by
  induction os using List.reverseRecOn with
  | nil => rfl
  | append_singleton os o ih =>
    rw [summary_concat, ← ih]
    by_cases h : os = []
    · subst h
      exact (add_blank o).symm
    · exact ofAll_concat h o

/-- A time of zero is none: the flow starts at its second packet, and its connection at the last. -/
example :
    ofAll [{ size := 60, time := 0, flags := 2, handshake := true }, { size := 40, time := 5, flags := 16, handshake := false },
        { size := 40, time := 9, flags := 18, handshake := true }] =
      { packets := 3, bytes := 140, start := 5, stop := 9, handshake := 9, flags := 18, errno := 0 } := by
  decide

end Metrics

theorem mem_firstFlows_append {room : Nat} {ids : List Id} {id : Id} (h : id ∈ ids) (more : List Id) :
    id ∈ firstFlows room (ids ++ more) ↔ id ∈ firstFlows room ids := by
  unfold firstFlows
  rw [List.eraseDups_append, List.take_append, List.mem_append]
  constructor
  · rintro (hfirst | hlater)
    · exact hfirst
    · have hnew := List.mem_eraseDups.1 (List.mem_of_mem_take hlater)
      simp [List.removeAll, h] at hnew
  · exact Or.inl

end Flow

namespace Shard

open FlowMeter.Flow (kept firstFlows partOf)

/-- Counts packets one after another, and tells what became of each. -/
def applyAll (s : Shard) : List (Flow.Id × Flow.Observation) → Shard × List Applied
  | [] => (s, [])
  | e :: rest =>
    let (s', applied) := s.apply none e.1 e.2
    let (last, others) := s'.applyAll rest
    (last, applied :: others)

/-- What becomes of a packet: the flows that find room are counted from their first packet on, and every packet of another flow
leaves by itself. -/
def due (room : Nat) (ids before : List Flow.Id) (id : Flow.Id) (o : Flow.Observation) : Applied :=
  if id ∈ firstFlows room ids then
    if id ∈ before then .updated else .inserted
  else
    .overflow .full
      { id
        metrics :=
          { packets := 1
            bytes := o.size
            start := o.time
            stop := o.time
            handshake := if o.handshake then o.time else 0
            flags := o.flags
            errno := 7 } }

theorem due_append {room : Nat} {ids : List Flow.Id} {id : Flow.Id} (h : id ∈ ids) (more before : List Flow.Id)
    (o : Flow.Observation) : due room (ids ++ more) before id o = due room ids before id o := by
  unfold due
  simp only [Flow.mem_firstFlows_append h]

variable {s : Shard} {seen : List (Flow.Id × Flow.Observation)}

/-- **What is answered to a packet depends on the flows that came so far.** -/
theorem applied_of_snapshot (h : s.snapshot = kept s.capacity seen) (id : Flow.Id) (o : Flow.Observation) :
    (s.apply none id o).2 = due s.capacity (seen.map Prod.fst ++ [id]) (seen.map Prod.fst) id o := by
  have hcontains := contains_of_snapshot h id
  have hsize := size_of_snapshot h
  unfold due
  rw [apply_eq, refuses?]
  by_cases hseen : id ∈ seen.map Prod.fst
  · rw [Flow.firstFlows_concat_of_mem hseen, if_pos hseen]
    by_cases hkept : id ∈ firstFlows s.capacity (seen.map Prod.fst)
    · simp only [hcontains, hkept, decide_true, true_or, if_true]
    · -- the flow came when there was no room, and there is none now
      have hfull : ¬ s.size < s.capacity := fun hroom => hkept (Flow.mem_firstFlows_of_lt hseen (hsize ▸ hroom))
      simp only [hcontains, hkept, decide_false, Bool.false_eq_true, false_or, hfull, if_false]
      rfl
  · have hnew : id ∉ firstFlows s.capacity (seen.map Prod.fst) := fun hkept => hseen (Flow.mem_of_mem_firstFlows hkept)
    rw [Flow.firstFlows_concat_of_not_mem hseen, ← hsize, if_neg hseen]
    by_cases hroom : s.size < s.capacity
    · simp only [hcontains, hnew, decide_false, hroom, or_true, if_true, List.mem_append, List.mem_singleton,
        Bool.false_eq_true, if_false]
    · simp only [hcontains, hnew, decide_false, hroom, Bool.false_eq_true, false_or, if_false]
      rfl

/-- Whatever comes, a shard keeps the first flows of all that it has seen. -/
theorem snapshot_applyAll : ∀ (more : List (Flow.Id × Flow.Observation)) {s : Shard}
    {seen : List (Flow.Id × Flow.Observation)}, s.snapshot = kept s.capacity seen →
      (s.applyAll more).1.capacity = s.capacity ∧ (s.applyAll more).1.snapshot = kept s.capacity (seen ++ more)
  | [], s, seen, h => by
    rw [List.append_nil]
    exact ⟨rfl, h⟩
  | e :: more, s, seen, h => by
    have hcapacity := s.capacity_apply none e.1 e.2
    have hstep := snapshot_apply h e.1 e.2
    rw [← hcapacity] at hstep
    obtain ⟨hlast, hsnapshot⟩ := snapshot_applyAll more hstep
    rw [hcapacity] at hlast hsnapshot
    rw [List.append_assoc] at hsnapshot
    exact ⟨hlast, hsnapshot⟩

/-- Every answer is the one that is due after the packets before it. -/
theorem getElem?_applyAll : ∀ (more : List (Flow.Id × Flow.Observation)) {s : Shard}
    {seen : List (Flow.Id × Flow.Observation)}, s.snapshot = kept s.capacity seen → ∀ n,
      (s.applyAll more).2[n]? = more[n]?.map fun e =>
        due s.capacity ((seen ++ more).map Prod.fst) ((seen ++ more.take n).map Prod.fst) e.1 e.2
  | [], s, seen, h, n => rfl
  | e :: more, s, seen, h, n => by
    cases n with
    | zero =>
      have hids : (seen ++ e :: more).map Prod.fst = seen.map Prod.fst ++ [e.1] ++ more.map Prod.fst := by simp
      have hmem : e.1 ∈ seen.map Prod.fst ++ [e.1] := by simp
      rw [List.getElem?_cons_zero, Option.map_some, hids, due_append hmem, List.take_zero, List.append_nil]
      exact congrArg some (applied_of_snapshot h e.1 e.2)
    | succ n =>
      have hcapacity := s.capacity_apply none e.1 e.2
      have hstep := snapshot_apply h e.1 e.2
      rw [← hcapacity] at hstep
      show ((s.apply none e.1 e.2).1.applyAll more).2[n]? = _
      rw [getElem?_applyAll more hstep n, hcapacity, List.getElem?_cons_succ, List.take_succ_cons, List.append_assoc,
        List.append_assoc]
      rfl

/-- **A shard is what came to it since it was empty.**  It keeps the first flows, as many as it has room for, each with the summary
of its packets; a packet of such a flow is counted, the first one as a new flow, and every packet of another flow leaves in a
record of its own.  No flow that is kept is ever refused a packet, and there are never more flows than there is room for.  (A new
shard is as one that has been emptied.) -/
theorem applyAll_closed_form (s : Shard) (seen : List (Flow.Id × Flow.Observation)) :
    (s.emptied.applyAll seen).1.snapshot =
      ((seen.map Prod.fst).eraseDups.take s.capacity).map (fun id => (id, Flow.Metrics.summary (partOf id seen))) ∧
    (∀ n, (s.emptied.applyAll seen).2[n]? = seen[n]?.map fun e =>
      due s.capacity (seen.map Prod.fst) ((seen.take n).map Prod.fst) e.1 e.2) ∧
    (∀ r, Applied.updateRefused r ∉ (s.emptied.applyAll seen).2) ∧
    (s.emptied.applyAll seen).1.size ≤ s.capacity := by
  have hempty : s.emptied.snapshot = kept s.emptied.capacity [] := by simp [kept, firstFlows, snapshot, emptied]; rfl
  obtain ⟨-, hsnapshot⟩ := snapshot_applyAll seen hempty
  have hanswers := getElem?_applyAll seen hempty
  rw [List.nil_append] at hsnapshot
  refine ⟨?_, hanswers, fun r hr => ?_, ?_⟩
  · rw [hsnapshot, kept]
    exact List.map_congr_left fun id _ => by rw [Flow.Metrics.ofAll_eq_summary]
  · obtain ⟨n, hn⟩ := List.getElem?_of_mem hr
    rw [hanswers n, Option.map_eq_some_iff] at hn
    obtain ⟨e, -, he⟩ := hn
    unfold due at he
    split at he
    · split at he <;> cases he
    · cases he
  · have hlength := congrArg List.length hsnapshot
    rw [kept, List.length_map, firstFlows, List.length_take] at hlength
    show (s.emptied.applyAll seen).1.snapshot.length ≤ s.capacity
    rw [hlength]
    exact Nat.min_le_left ..

end Shard
end FlowMeter
