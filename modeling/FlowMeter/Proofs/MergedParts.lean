import FlowMeter.Proofs.BacklogRuns
/-!
# What an exported flow is made of

However partial views are grouped, and whatever waits in between, an entry is the views of its flow put together one after
another (`Flow.Merged.entry_ofShards`, `Export.Backlog.entry_combined`).  A call that succeeds gives up a batch of just these
entries (`Export.Backlog.eq_of_evict`, `Export.Backlog.eq_of_account`).
-/
namespace FlowMeter

namespace Flow

namespace Metrics

theorem eq_of_totals_eq {m n : Metrics} (h : m.totals = n.totals) (herrno : m.errno = n.errno) : m = n := by
  obtain ⟨packets, bytes, start, stop, handshake, flags, errno⟩ := m
  obtain ⟨packets', bytes', start', stop', handshake', flags', errno'⟩ := n
  cases h
  cases herrno
  rfl

/-- **How partial views are grouped does not matter.** -/
theorem merge_assoc (a b c : Metrics) : (a.merge b).merge c = a.merge (b.merge c) := by
  refine eq_of_totals_eq ?_ ?_
  · rw [totals_merge, totals_merge, totals_merge, totals_merge, add_assoc]
  · unfold merge
    by_cases ha : a.errno = 0
    · simp only [ha, if_true]
    · simp only [ha, if_false]

theorem merge_empty (m : Metrics) : m.merge {} = m := by
  refine eq_of_totals_eq ((totals_merge m {}).trans (add_zero _)) ?_
  unfold merge
  by_cases hm : m.errno = 0
  · rw [if_pos hm, hm]
  · rw [if_neg hm]

theorem empty_merge (m : Metrics) : merge {} m = m :=
  eq_of_totals_eq ((totals_merge {} m).trans (zero_add _)) rfl

theorem foldl_merge : ∀ (ms : List Metrics) (m : Metrics), ms.foldl merge m = m.merge (ms.foldl merge {})
  | [], m => m.merge_empty.symm
  | n :: ms, m => by
    rw [List.foldl_cons, List.foldl_cons, foldl_merge ms (m.merge n), foldl_merge ms (merge {} n), empty_merge, merge_assoc]

end Metrics

theorem together_append (id : Id) (s t : Snapshot) : together id (s ++ t) = (together id s).merge (together id t) := by
  unfold together
  rw [List.filter_append, List.map_append, List.foldl_append, Metrics.foldl_merge]

theorem together_singleton (id : Id) (e : Id × Metrics) : together id [e] = if e.1 = id then e.2 else {} := by
  unfold together
  by_cases he : e.1 = id
  · rw [List.filter_cons_of_pos (by simpa using he), if_pos he]
    exact e.2.empty_merge
  · rw [List.filter_cons_of_neg (by simpa using he), if_neg he]
    rfl

theorem together_cons (id : Id) (e : Id × Metrics) (s : Snapshot) :
    together id (e :: s) = (if e.1 = id then e.2 else {}).merge (together id s) := by
  rw [← together_singleton, ← together_append, List.singleton_append]

theorem together_eq_empty {id : Id} {s : Snapshot} (h : id ∉ s.map Prod.fst) : together id s = {} := by
  unfold together
  have hnone : s.filter (fun e => e.1 = id) = [] := by
    refine List.filter_eq_nil_iff.2 fun e he => ?_
    have hne : e.1 ≠ id := fun hid => h (hid ▸ List.mem_map_of_mem he)
    simpa using hne
  rw [hnone]
  rfl

/-- **Put together, partial views have the first error number that any of them has.** -/
theorem errno_together_cases (id : Id) : ∀ s : Snapshot,
    ((together id s).errno = 0 ∧ ∀ e ∈ s, e.1 = id → e.2.errno = 0) ∨
      ((together id s).errno ≠ 0 ∧ ∃ e ∈ s, e.1 = id ∧ e.2.errno = (together id s).errno)
  | [] => .inl ⟨rfl, fun _ he => by cases he⟩
  | e :: s => by
    rw [together_cons]
    by_cases hmarked : e.1 = id ∧ e.2.errno ≠ 0
    · have herrno : ((if e.1 = id then e.2 else {}).merge (together id s)).errno = e.2.errno := by
        rw [if_pos hmarked.1]
        exact if_neg hmarked.2
      rw [herrno]
      exact .inr ⟨hmarked.2, e, List.mem_cons_self, hmarked.1, rfl⟩
    · have herrno : ((if e.1 = id then e.2 else {}).merge (together id s)).errno = (together id s).errno := by
        by_cases he : e.1 = id
        · rw [if_pos he]
          exact if_pos (Classical.not_not.1 fun hne => hmarked ⟨he, hne⟩)
        · rw [if_neg he, Metrics.empty_merge]
      rw [herrno]
      rcases errno_together_cases id s with ⟨hzero, hall⟩ | ⟨hne, e', he', hid, hmark⟩
      · refine .inl ⟨hzero, fun e' he' hid => ?_⟩
        rcases List.mem_cons.1 he' with rfl | he'
        · exact Classical.not_not.1 fun hne => hmarked ⟨hid, hne⟩
        · exact hall e' he' hid
      · exact .inr ⟨hne, e', List.mem_cons_of_mem _ he', hid, hmark⟩

namespace Merged

/-- The entry of a flow, with nothing in it if there is none. -/
def entry (t : Merged) (id : Id) : Metrics := (t.get? id).getD {}

theorem entry_of_mem {t : Merged} {id : Id} {m : Metrics} (h : (id, m) ∈ t.entries) : t.entry id = m := by
  unfold entry
  rw [(t.get?_eq_some_iff id m).2 h]
  rfl

/-- In a table, the entries of a flow are its one entry. -/
theorem together_entries (t : Merged) (id : Id) : together id t.entries = t.entry id := by
  cases h : t.get? id with
  | none =>
    unfold entry
    rw [h, together_eq_empty ((t.get?_eq_none_iff id).1 h)]
    rfl
  | some m =>
    -- no other entry has the key
    obtain ⟨before, after, he⟩ := List.append_of_mem ((t.get?_eq_some_iff id m).1 h)
    have hdistinct := t.distinct
    rw [he, List.map_append, List.map_cons, List.nodup_append, List.nodup_cons] at hdistinct
    obtain ⟨-, ⟨hafter, -⟩, hbefore⟩ := hdistinct
    have hbefore' : id ∉ before.map Prod.fst := fun hmem => hbefore id hmem id List.mem_cons_self rfl
    unfold entry
    rw [h, he, together_append, together_cons, if_pos rfl, together_eq_empty hbefore', together_eq_empty hafter,
      Metrics.merge_empty, Metrics.empty_merge]
    rfl

theorem entry_add (t : Merged) (e : Id × Metrics) (id : Id) :
    (t.add e.1 e.2).entry id = (t.entry id).merge (together id [e]) := by
  rw [together_singleton]
  unfold entry add
  rw [Table.get?_upsert]
  by_cases he : e.1 = id
  · subst he
    rw [if_pos rfl, if_pos rfl]
    cases t.get? e.1 with
    | none => exact e.2.empty_merge.symm
    | some m => rfl
  · rw [if_neg (Ne.symm he), if_neg he, Metrics.merge_empty]

theorem entry_addAll (id : Id) : ∀ (s : Snapshot) (t : Merged), (t.addAll s).entry id = (t.entry id).merge (together id s)
  | [], t => (Metrics.merge_empty _).symm
  | e :: s, t => by
    have hrest := entry_addAll id s (t.add e.1 e.2)
    rw [entry_add, Metrics.merge_assoc, ← together_append, List.singleton_append] at hrest
    exact hrest

theorem entry_foldl_addAll (id : Id) : ∀ (shards : List Snapshot) (t : Merged),
    (shards.foldl addAll t).entry id = (t.entry id).merge (together id shards.flatten)
  | [], t => (Metrics.merge_empty _).symm
  | s :: rest, t => by
    rw [List.foldl_cons, entry_foldl_addAll id rest, entry_addAll, Metrics.merge_assoc, ← together_append, List.flatten_cons]

/-- **An entry is all that the partial views show of its flow.** -/
theorem entry_ofShards (shards : List Snapshot) (id : Id) : (ofShards shards).entry id = together id shards.flatten := by
  unfold ofShards
  rw [entry_foldl_addAll]
  exact Metrics.empty_merge _

end Merged
end Flow

namespace Export

/-- The times of the report are those of its metrics, on the wall clock whose monotonic zero is at `boot`. -/
structure Report.Dated (boot : WallTime) (r : Report) : Prop where
  start : boot.ofMonotonic r.metrics.start = .ok r.start
  stop : boot.ofMonotonic r.metrics.stop = .ok r.stop

theorem Report.eq_of_ofFlow {boot : WallTime} {interface : String} {id : Flow.Id} {m : Flow.Metrics} {r : Report}
    (h : Report.ofFlow boot interface id m = .ok r) : (r.id, r.metrics) = (id, m) ∧ r.Dated boot := by
  unfold Report.ofFlow at h
  cases hstart : boot.ofMonotonic m.start with
  | error e =>
    rw [hstart] at h
    cases h
  | ok start =>
    rw [hstart] at h
    cases hstop : boot.ofMonotonic m.stop with
    | error e =>
      rw [hstop] at h
      cases h
    | ok stop =>
      rw [hstop] at h
      cases h
      exact ⟨rfl, hstart, hstop⟩

theorem eq_of_mapM_ofFlow (place : Place) : ∀ {s : Flow.Snapshot} {batch : List Report},
    (s.mapM fun (id, m) => Report.ofFlow place.boot (place.name id.interface) id m) = .ok batch →
    batch.map (fun r => (r.id, r.metrics)) = s ∧ ∀ r ∈ batch, r.Dated place.boot
  | [], batch, h => by
    cases h
    exact ⟨rfl, fun _ h => by cases h⟩
  | (id, m) :: s, batch, h => by
    rw [List.mapM_cons] at h
    cases hfirst : Report.ofFlow place.boot (place.name id.interface) id m with
    | error e =>
      simp only [hfirst] at h
      cases h
    | ok r =>
      cases hrest : s.mapM fun (id, m) => Report.ofFlow place.boot (place.name id.interface) id m with
      | error e =>
        simp only [hfirst, hrest] at h
        cases h
      | ok rest =>
        simp only [hfirst, hrest] at h
        cases h
        obtain ⟨hflow, hdated⟩ := Report.eq_of_ofFlow hfirst
        obtain ⟨hflows, hothers⟩ := eq_of_mapM_ofFlow place hrest
        rw [List.map_cons, hflow, hflows]
        exact ⟨rfl, List.forall_mem_cons.2 ⟨hdated, hothers⟩⟩

namespace Backlog

variable {b b' : Backlog} {place : Place} {snapshot : Flow.Merged} {batch : List Report}

theorem entry_add (b : Backlog) (r : Flow.Record) (id : Flow.Id) :
    (b.add r).flows.entry id = (b.flows.entry id).merge (Flow.together id [r.entry]) :=
  Flow.Merged.entry_add b.flows r.entry id

/-- **What a batch shows of a flow comes from the shards first, and then from the backlog.** -/
theorem entry_combined (b : Backlog) (snapshot : Flow.Merged) (id : Flow.Id) :
    (b.combined snapshot).entry id = (snapshot.entry id).merge (b.flows.entry id) := by
  unfold combined
  rw [Flow.Merged.entry_ofShards, List.flatten_cons, List.flatten_singleton, Flow.together_append,
    Flow.Merged.together_entries, Flow.Merged.together_entries]

theorem eq_of_evict (h : b.evict place snapshot = .ok (b', batch)) :
    b' = b.emptied ∧ batch.map (fun r => (r.id, r.metrics)) = (b.combined snapshot).entries ∧
      ∀ r ∈ batch, r.Dated place.boot := by
  unfold evict at h
  cases hreports : b.reports place snapshot with
  | error e =>
    rw [hreports] at h
    cases h
  | ok reports =>
    rw [hreports] at h
    cases h
    exact ⟨rfl, eq_of_mapM_ofFlow place hreports⟩

theorem eq_of_account {r : Flow.Record} {given : Option (List Report)} (h : (b.account place r).outcome = .ok (b', given)) :
    (given = none ∧ b' = b.add r) ∨
      ∃ batch, given = some batch ∧ b' = b.emptied ∧
        batch.map (fun r => (r.id, r.metrics)) = ((b.add r).combined ∅).entries ∧ ∀ r ∈ batch, r.Dated place.boot := by
  unfold account at h
  by_cases hfull : (b.add r).full
  · simp only [hfull, if_true] at h
    cases hevict : (b.add r).evict place ∅ with
    | error e =>
      rw [hevict] at h
      cases h
    | ok out =>
      obtain ⟨b₁, batch⟩ := out
      obtain ⟨rfl, hbatch⟩ := eq_of_evict hevict
      rw [hevict] at h
      cases h
      exact .inr ⟨batch, rfl, rfl, hbatch⟩
  · simp only [hfull, Bool.false_eq_true, if_false] at h
    cases h
    exact .inl ⟨rfl, rfl⟩

end Backlog
end Export
end FlowMeter
