import FlowMeter.Proofs.MergedParts
/-!
# Grouping and order of what is put together

Partial views may be put together in advance, part by part and in any nesting, and nobody can tell afterwards
(`Nested.together_eq`).  In another order they give the same flows with the same totals; only the error number is that of the
entry that came first.  What all of this rests on is `Merged.get?_ofShards`: of a flow, a merged map has all the entries put
together one after another.
-/
namespace FlowMeter

theorem Table.mem_keys_iff {κ ν : Type} [DecidableEq κ] (t : Table κ ν) (k : κ) : k ∈ t.keys ↔ (t.get? k).isSome := by
  rw [Option.isSome_iff_ne_none, ne_eq, t.get?_eq_none_iff, Classical.not_not]

namespace Flow

theorem weigh_perm {M V : Type} [AddCommMonoid M] (w : V → M) (id : Id) {s t : List (Id × V)} (h : s.Perm t) :
    weigh w id s = weigh w id t :=
  (h.map _).sum_eq

/-- An entry with nothing in it changes nothing, wherever it stands. -/
theorem together_insert_empty (id k : Id) (before after : Snapshot) :
    together id (before ++ (k, {}) :: after) = together id (before ++ after) := by
  rw [together_append, together_append, together_cons, ite_self, Metrics.empty_merge]

namespace Merged

/-- **A flow is there just if an entry shows it, with all its entries put together.** -/
theorem get?_ofShards (shards : List Snapshot) (id : Id) :
    (ofShards shards).get? id =
      if id ∈ shards.flatten.map Prod.fst then some (together id shards.flatten) else none := by
  cases h : (ofShards shards).get? id with
  | none =>
    have hnone : id ∉ shards.flatten.map Prod.fst := by
      rwa [← mem_keys_ofShards, ← (ofShards shards).get?_eq_none_iff]
    rw [if_neg hnone]
  | some m =>
    have hsome : id ∈ shards.flatten.map Prod.fst := by
      rw [← mem_keys_ofShards, (ofShards shards).mem_keys_iff, h]
      rfl
    rw [if_pos hsome, ← entry_ofShards, entry, h]
    rfl

theorem get?_ofShards_congr {shards others : List Snapshot} {id : Id}
    (hkeys : id ∈ others.flatten.map Prod.fst ↔ id ∈ shards.flatten.map Prod.fst)
    (h : together id others.flatten = together id shards.flatten) :
    (ofShards others).get? id = (ofShards shards).get? id := by
  simp only [get?_ofShards, hkeys, h]

end Merged

/-- `Nested s t`: the entries `s`, some of which have been put together in advance, part by part and in any nesting, come in as
`t`.  A merged map gives its entries in any order. -/
inductive Nested : Snapshot → Snapshot → Prop where
  | plain (s : Snapshot) : Nested s s
  | append {s s' t t' : Snapshot} : Nested s t → Nested s' t' → Nested (s ++ s') (t ++ t')
  | merged {s : Snapshot} (shards : List Snapshot) (t : Merged) : Nested s shards.flatten →
      (∀ id, t.get? id = (Merged.ofShards shards).get? id) → Nested s t.entries

namespace Nested

variable {s t : Snapshot}

theorem ofShards (shards : List Snapshot) : Nested shards.flatten (Merged.ofShards shards).entries :=
  .merged shards _ (.plain _) fun _ => rfl

theorem mem_iff (h : Nested s t) (id : Id) : id ∈ t.map Prod.fst ↔ id ∈ s.map Prod.fst := by
  induction h with
  | plain s => rfl
  | append _ _ ih ih' => simp only [List.map_append, List.mem_append, ih, ih']
  | merged shards t _ ht ih =>
    rw [← ih, ← Merged.mem_keys_ofShards, Table.mem_keys_iff, ← ht]
    exact t.mem_keys_iff id

/-- **What has been put together in advance is put together with the rest as if it had not been.** -/
theorem together_eq (h : Nested s t) (id : Id) : together id t = together id s := by
  induction h with
  | plain s => rfl
  | append _ _ ih ih' => rw [together_append, together_append, ih, ih']
  | merged shards t _ ht ih =>
    rw [← ih, ← Merged.entry_ofShards, Merged.together_entries, Merged.entry, Merged.entry, ht]

theorem get?_ofShards {shards parts : List Snapshot} (h : Nested shards.flatten parts.flatten) (id : Id) :
    (Merged.ofShards parts).get? id = (Merged.ofShards shards).get? id :=
  Merged.get?_ofShards_congr (h.mem_iff id) (h.together_eq id)

end Nested

namespace Merged

variable {shards others : List Snapshot} {id : Id}

theorem totals_get?_ofShards (h : shards.flatten.Perm others.flatten) (id : Id) :
    ((ofShards others).get? id).map Metrics.totals = ((ofShards shards).get? id).map Metrics.totals := by
  have hkeys : id ∈ others.flatten.map Prod.fst ↔ id ∈ shards.flatten.map Prod.fst := (h.map Prod.fst).symm.mem_iff
  have htotals : (together id others.flatten).totals = (together id shards.flatten).totals := by
    rw [totals_together, totals_together, weigh_perm Metrics.totals id h]
  simp only [get?_ofShards, hkeys, apply_ite (Option.map Metrics.totals), Option.map_some, htotals, Option.map_none]

/-- **The error number of a flow is one that an entry of it has, and zero only if all of them have zero.** -/
theorem errno_of_get?_ofShards {m : Metrics} (h : (ofShards shards).get? id = some m) :
    (m.errno ≠ 0 ↔ ∃ e ∈ shards.flatten, e.1 = id ∧ e.2.errno ≠ 0) ∧
      (m.errno ≠ 0 → ∃ e ∈ shards.flatten, e.1 = id ∧ e.2.errno = m.errno) := by
  obtain rfl : together id shards.flatten = m := by
    rw [get?_ofShards] at h
    split at h
    · exact Option.some.inj h
    · cases h
  rcases errno_together_cases id shards.flatten with ⟨hzero, hall⟩ | ⟨hne, e, he, hid, herrno⟩
  · refine ⟨⟨fun hne => absurd hzero hne, ?_⟩, fun hne => absurd hzero hne⟩
    rintro ⟨e, he, hid, hne⟩
    exact absurd (hall e he hid) hne
  · exact ⟨⟨fun _ => ⟨e, he, hid, herrno ▸ hne⟩, fun _ => hne⟩, fun _ => ⟨e, he, hid, herrno⟩⟩

/-- **Putting partial views together depends neither on their grouping nor, but for the error number, on their order.**  Parts of
them may have been put together in advance, in any nesting.  Dealt out to other shards in another order, the entries give the
same flows with the same totals, and the error number of a flow is one of its entries', zero only if it has no other.  The flows
are just those that the entries show, and one more entry with nothing in it, for one of these flows, does not change anything. -/
theorem ofShards_insensitive (shards : List Snapshot) :
    (∀ parts : List Snapshot, Nested shards.flatten parts.flatten →
        ∀ id, (ofShards parts).get? id = (ofShards shards).get? id) ∧
      (∀ others : List Snapshot, shards.flatten.Perm others.flatten → ∀ id,
        ((ofShards others).get? id).map Metrics.totals = ((ofShards shards).get? id).map Metrics.totals ∧
          ∀ m, (ofShards others).get? id = some m →
            (m.errno ≠ 0 ↔ ∃ e ∈ shards.flatten, e.1 = id ∧ e.2.errno ≠ 0) ∧
              (m.errno ≠ 0 → ∃ e ∈ shards.flatten, e.1 = id ∧ e.2.errno = m.errno)) ∧
      (∀ id, id ∈ (ofShards shards).keys ↔ id ∈ shards.flatten.map Prod.fst) ∧
      ∀ (padded : List Snapshot) (before after : Snapshot) (k : Id), shards.flatten = before ++ after →
        padded.flatten = before ++ (k, {}) :: after → k ∈ shards.flatten.map Prod.fst →
          ∀ id, (ofShards padded).get? id = (ofShards shards).get? id := by
  refine ⟨fun parts h => h.get?_ofShards, fun others h id => ⟨totals_get?_ofShards h id, fun m hm => ?_⟩,
    fun id => mem_keys_ofShards id shards, fun padded before after k hshards hpadded hk id => ?_⟩
  · simp only [h.mem_iff]
    exact errno_of_get?_ofShards hm
  · refine get?_ofShards_congr ?_ (by rw [hpadded, hshards, together_insert_empty])
    rw [hshards, List.map_append, List.mem_append] at hk
    rw [hshards, hpadded]
    simp only [List.map_append, List.map_cons, List.mem_append, List.mem_cons]
    constructor
    · rintro (hid | rfl | hid)
      exacts [.inl hid, hk, .inr hid]
    · rintro (hid | hid)
      exacts [.inl hid, .inr (.inr hid)]

/-- Two entries of one flow have different error numbers.  The first entries are put together in advance, once more with the
third; then all of them in the opposite order; then with an empty entry in front. -/
theorem ofShards_insensitive_two_errors :
    let k : Id := { srcPort := 1 }
    let first : Id × Metrics := (k, { packets := 3, bytes := 300, start := 20, stop := 50, flags := 0x02, errno := 7 })
    let second : Id × Metrics := ({ srcPort := 2 }, { packets := 1, bytes := 60, start := 5, stop := 5 })
    let third : Id × Metrics := (k, { packets := 2, bytes := 200, start := 10, stop := 40, handshake := 30, errno := 12 })
    let shards : List Snapshot := [[first, second], [third]]
    let parts : List Snapshot := [(ofShards [(ofShards [[first, second]]).entries, [third]]).entries]
    let others : List Snapshot := [[third], [second, first]]
    let padded : List Snapshot := [[(k, {}), first, second], [third]]
    (Nested shards.flatten parts.flatten ∧ shards.flatten.Perm others.flatten ∧
        shards.flatten = [] ++ [first, second, third] ∧ padded.flatten = [] ++ (k, {}) :: [first, second, third] ∧
        k ∈ shards.flatten.map Prod.fst) ∧
      (ofShards parts).get? k = some ⟨5, 500, 10, 50, 30, 0x02, 7⟩ ∧
      ((ofShards others).get? k).map Metrics.totals = some ⟨5, 500, 10, 50, 30, 0x02⟩ ∧
      ((ofShards others).get? k).map Metrics.errno = some 12 ∧
      (ofShards padded).get? k = some ⟨5, 500, 10, 50, 30, 0x02, 7⟩ := by
  intro k first second third shards parts others padded
  have hnested : Nested shards.flatten parts.flatten :=
    .merged [(ofShards [[first, second]]).entries, [third]] _ (.append (.ofShards [[first, second]]) (.plain [third]))
      fun _ => rfl
  have hperm : shards.flatten.Perm others.flatten := by decide
  have hk : k ∈ shards.flatten.map Prod.fst := by decide
  have hmerged : (ofShards shards).get? k = some ⟨5, 500, 10, 50, 30, 0x02, 7⟩ := by decide
  obtain ⟨hparts, hothers, -, hpadded⟩ := ofShards_insensitive shards
  refine ⟨⟨hnested, hperm, rfl, rfl, hk⟩, (hparts parts hnested k).trans hmerged, ?_, by decide,
    (hpadded padded [] _ k rfl rfl hk k).trans hmerged⟩
  rw [(hothers others hperm k).1, hmerged]
  rfl

end Merged
end Flow
end FlowMeter
