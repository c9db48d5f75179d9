import FlowMeter.Kernel.Loaded
import FlowMeter.Proofs.KernelRows
import FlowMeter.Proofs.MergeOrder
import FlowMeter.Proofs.Ownership
/-!
# What the processors' views show

The rows of the map, one for each flow, are turned into views, one for each processor, and the views are put together again by
flows.  A view shows the slots of its processor in which something has been counted, in the order of the rows
(`Flow.mem_view_iff`), and put together the views have every row whole (`Flow.together_splitRows`).  An eviction of the map that
succeeds returns just that, and one that fails leaves the map alone (`Kernel.Loaded.evict_exact`).
-/
namespace FlowMeter

namespace Flow

/-- As many views as the longest row has values. -/
def width (rows : List (Id × List Metrics)) : Nat := rows.foldl (fun n row => max n row.2.length) 0

/-- What the rows show of one processor. -/
def view (unit : Nat) (rows : List (Id × List Metrics)) : Snapshot := rows.filterMap (shown? unit)

theorem splitRows_eq (rows : List (Id × List Metrics)) :
    splitRows rows = (List.range (width rows)).map fun unit => view unit rows := rfl

section

variable {rows : List (Id × List Metrics)} {unit : Nat} {id : Id} {m : Metrics}

theorem length_splitRows (rows : List (Id × List Metrics)) : (splitRows rows).length = width rows := by
  rw [splitRows_eq, List.length_map, List.length_range]

theorem width_eq_max? (rows : List (Id × List Metrics)) : width rows = ((rows.map fun e => e.2.length).max?).getD 0 := by
  unfold width
  cases rows with
  | nil => rfl
  | cons e rows =>
    rw [List.map_cons, List.max?_cons', Option.getD_some, List.foldl_map, List.foldl_cons, Nat.zero_max]

theorem shown?_eq_some_iff {row : Id × List Metrics} {e : Id × Metrics} :
    shown? unit row = some e ↔ row.1 = e.1 ∧ row.2[unit]? = some e.2 ∧ e.2.packets ≠ 0 := by
  unfold shown?
  cases hm : row.2[unit]? with
  | none => simp
  | some m =>
    by_cases hp : m.packets = 0
    · simp only [hp, ne_eq, not_true_eq_false, if_false, reduceCtorEq, Option.some.injEq, false_iff]
      rintro ⟨-, rfl, hne⟩
      exact hne hp
    · simp only [hp, ne_eq, not_false_eq_true, if_true, Option.some.injEq]
      constructor
      · rintro rfl
        exact ⟨rfl, rfl, hp⟩
      · rintro ⟨hid, rfl, -⟩
        exact Prod.ext hid rfl

/-- **A view shows the slots of its processor in which something has been counted.** -/
theorem mem_view_iff {e : Id × Metrics} :
    e ∈ view unit rows ↔ ∃ row, (e.1, row) ∈ rows ∧ row[unit]? = some e.2 ∧ e.2.packets ≠ 0 := by
  unfold view
  rw [List.mem_filterMap]
  constructor
  · rintro ⟨⟨k, row⟩, hrow, hshown⟩
    obtain ⟨rfl, hslot⟩ := shown?_eq_some_iff.1 hshown
    exact ⟨row, hrow, hslot⟩
  · rintro ⟨row, hrow, hslot⟩
    exact ⟨(e.1, row), hrow, shown?_eq_some_iff.2 ⟨rfl, hslot⟩⟩

/-- A view keeps the order of the rows. -/
theorem keys_view_sublist (unit : Nat) : ∀ rows : List (Id × List Metrics),
    ((view unit rows).map Prod.fst).Sublist (rows.map Prod.fst)
  | [] => .slnil
  | row :: rows => by
    have hrest := keys_view_sublist unit rows
    unfold view at hrest ⊢
    cases hshown : shown? unit row with
    | none =>
      rw [List.filterMap_cons_none hshown]
      exact hrest.cons _
    | some e =>
      rw [List.filterMap_cons_some hshown, List.map_cons, List.map_cons, (shown?_eq_some_iff.1 hshown).1]
      exact hrest.cons_cons _

theorem lt_width_of_slot {row : List Metrics} (hrow : (id, row) ∈ rows) (hslot : row[unit]? = some m) : unit < width rows :=
  Nat.lt_of_lt_of_le (List.getElem?_eq_some_iff.1 hslot).1 ((le_foldl_max rows 0).2 _ hrow)

theorem view_eq_nil (h : width rows ≤ unit) : view unit rows = [] := by
  refine List.eq_nil_iff_forall_not_mem.2 fun e he => ?_
  obtain ⟨row, hrow, hslot, -⟩ := mem_view_iff.1 he
  exact absurd (lt_width_of_slot hrow hslot) (Nat.not_lt.2 h)

/-- A processor without a view has nothing to show. -/
theorem getD_splitRows (rows : List (Id × List Metrics)) (unit : Nat) : (splitRows rows)[unit]?.getD [] = view unit rows := by
  by_cases hunit : unit < width rows
  · rw [splitRows_eq, List.getElem?_map, List.getElem?_range hunit]
    rfl
  · have hnone : (splitRows rows)[unit]? = none :=
      List.getElem?_eq_none ((length_splitRows rows).trans_le (Nat.le_of_not_lt hunit))
    rw [hnone, view_eq_nil (Nat.le_of_not_lt hunit)]
    rfl

theorem eq_view_of_getElem? {s : Snapshot} (h : (splitRows rows)[unit]? = some s) : s = view unit rows := by
  rw [← getD_splitRows, h]
  rfl

/-- **All views together show the slots in which something has been counted.** -/
theorem mem_flatten_splitRows_iff {e : Id × Metrics} :
    e ∈ (splitRows rows).flatten ↔ ∃ row, (e.1, row) ∈ rows ∧ e.2 ∈ row ∧ e.2.packets ≠ 0 := by
  rw [splitRows_eq, List.mem_flatten]
  constructor
  · rintro ⟨s, hs, he⟩
    obtain ⟨unit, -, rfl⟩ := List.mem_map.1 hs
    obtain ⟨row, hrow, hslot, hp⟩ := mem_view_iff.1 he
    exact ⟨row, hrow, List.mem_of_getElem? hslot, hp⟩
  · rintro ⟨row, hrow, hm, hp⟩
    obtain ⟨unit, hslot⟩ := List.mem_iff_getElem?.1 hm
    exact ⟨_, List.mem_map_of_mem (List.mem_range.2 (lt_width_of_slot hrow hslot)), mem_view_iff.2 ⟨row, hrow, hslot, hp⟩⟩

/-- What a view has of a flow is the slot of its row. -/
theorem together_view (hdistinct : (rows.map Prod.fst).Nodup) (hshows : ∀ e ∈ rows, Shows e.2) {row : List Metrics}
    (hrow : (id, row) ∈ rows) (unit : Nat) : together id (view unit rows) = row[unit]?.getD {} := by
  obtain ⟨before, after, rfl⟩ := List.append_of_mem hrow
  rw [List.map_append, List.map_cons, List.nodup_append, List.nodup_cons] at hdistinct
  obtain ⟨-, ⟨hafter, -⟩, hbefore⟩ := hdistinct
  have hnone : ∀ others : List (Id × List Metrics), id ∉ others.map Prod.fst → together id (view unit others) = {} :=
    fun others h => together_eq_empty fun hmem => h ((keys_view_sublist unit others).subset hmem)
  have hsplit : view unit (before ++ (id, row) :: after) =
      view unit before ++ ((shown? unit (id, row)).toList ++ view unit after) := by
    unfold view
    rw [List.filterMap_append, List.filterMap_cons]
    cases shown? unit (id, row) <;> rfl
  have hslot : together id (shown? unit (id, row)).toList = row[unit]?.getD {} := by
    unfold shown?
    cases hm : row[unit]? with
    | none => rfl
    | some m =>
      by_cases hp : m.packets = 0
      · simp only [hp, ne_eq, not_true_eq_false, if_false]
        exact (hshows _ hrow m (List.mem_of_getElem? hm) hp).symm
      · simp only [hp, ne_eq, not_false_eq_true, if_true, Option.toList_some]
        rw [together_singleton, if_pos rfl]
        rfl
  rw [hsplit, together_append, together_append, hslot, hnone before fun hmem => hbefore id hmem id List.mem_cons_self rfl,
    hnone after hafter, Metrics.empty_merge, Metrics.merge_empty]

theorem together_flatten (id : Id) : ∀ shards : List Snapshot,
    together id shards.flatten = (shards.map (together id)).foldl Metrics.merge {}
  | [] => rfl
  | s :: rest => by
    rw [List.flatten_cons, together_append, together_flatten id rest, List.map_cons, List.foldl_cons, Metrics.empty_merge,
      ← Metrics.foldl_merge]

/-- Slots that are not there add nothing. -/
theorem foldl_slots : ∀ (row : List Metrics) {n : Nat} (m : Metrics), row.length ≤ n →
    ((List.range n).map fun unit => row[unit]?.getD {}).foldl Metrics.merge m = row.foldl Metrics.merge m
  | [], n, m, _ => by
    rw [List.foldl_map]
    exact List.foldl_fixed' (fun _ => m.merge_empty) _
  | v :: row, 0, m, h => by cases h
  | v :: row, n + 1, m, h => by
    rw [List.range_succ_eq_map, List.map_cons, List.map_map, List.foldl_cons, List.foldl_cons]
    exact foldl_slots row (m.merge v) (Nat.le_of_succ_le_succ h)

/-- **Put together, the views have every row whole.** -/
theorem together_splitRows (hdistinct : (rows.map Prod.fst).Nodup) (hshows : ∀ e ∈ rows, Shows e.2) {row : List Metrics}
    (hrow : (id, row) ∈ rows) : together id (splitRows rows).flatten = row.foldl Metrics.merge {} := by
  rw [together_flatten, splitRows_eq, List.map_map, ← foldl_slots row {} ((le_foldl_max rows 0).2 _ hrow)]
  exact congrArg (List.foldl Metrics.merge {}) (List.map_congr_left fun unit _ => together_view hdistinct hshows hrow unit)

end

/-- One more row is dealt out: there are views for all its values, and each processor that shows something of it has that at the
end of its view. -/
def deal (views : List Snapshot) (row : Id × List Metrics) : List Snapshot :=
  (List.range (max views.length row.2.length)).map fun unit => views[unit]?.getD [] ++ (shown? unit row).toList

theorem splitRows_concat (rows : List (Id × List Metrics)) (row : Id × List Metrics) :
    splitRows (rows ++ [row]) = deal (splitRows rows) row := by
  have hwidth : width (rows ++ [row]) = max (width rows) row.2.length := by
    unfold width
    rw [List.foldl_append]
    rfl
  unfold deal
  rw [splitRows_eq, hwidth, length_splitRows]
  refine List.map_congr_left fun unit _ => ?_
  have hview : view unit (rows ++ [row]) = view unit rows ++ (shown? unit row).toList := by
    unfold view
    rw [List.filterMap_append]
    cases hshown : shown? unit row <;> simp [hshown]
  rw [hview, getD_splitRows]

theorem foldl_deal : ∀ rows before : List (Id × List Metrics), rows.foldl deal (splitRows before) = splitRows (before ++ rows)
  | [], before => by rw [List.append_nil]; rfl
  | row :: rows, before => by
    rw [List.foldl_cons, ← splitRows_concat, foldl_deal rows, List.append_assoc]
    rfl

/-- **The views come of dealing out the rows one after another.** -/
theorem splitRows_eq_foldl (rows : List (Id × List Metrics)) : splitRows rows = rows.foldl deal [] := (foldl_deal rows []).symm

end Flow

namespace Kernel

namespace FlowMap

theorem walks_eq_true_iff (m : FlowMap) (faults : ReadFaults) :
    m.walks faults = true ↔ ∀ n, faults.walk = some n → m.size < n := by
  unfold walks
  cases faults.walk with
  | none => simp
  | some n => simp

/-- **Put together, the views have the flows that some processor has counted, each with all its values.** -/
theorem get?_ofShards_splitRows {m : FlowMap} (hblank : ∀ e ∈ m.entries, ∀ v ∈ e.2, v.packets = 0 → v = {}) (id : Flow.Id)
    (v : Flow.Metrics) :
    (Flow.Merged.ofShards (Flow.splitRows m.entries)).get? id = some v ↔
      ∃ row, m.rows.get? id = some row ∧ (∃ slot ∈ row, slot.packets ≠ 0) ∧ v = row.foldl Flow.Metrics.merge {} := by
  have hkeys : id ∈ (Flow.splitRows m.entries).flatten.map Prod.fst ↔
      ∃ row, (id, row) ∈ m.entries ∧ ∃ slot ∈ row, slot.packets ≠ 0 := by
    rw [List.mem_map]
    constructor
    · rintro ⟨e, he, rfl⟩
      obtain ⟨row, hrow, hslot, hp⟩ := Flow.mem_flatten_splitRows_iff.1 he
      exact ⟨row, hrow, e.2, hslot, hp⟩
    · rintro ⟨row, hrow, slot, hslot, hp⟩
      exact ⟨(id, slot), Flow.mem_flatten_splitRows_iff.2 ⟨row, hrow, hslot, hp⟩, rfl⟩
  have hwhole : ∀ {row : List Flow.Metrics}, (id, row) ∈ m.entries →
      Flow.together id (Flow.splitRows m.entries).flatten = row.foldl Flow.Metrics.merge {} :=
    Flow.together_splitRows m.rows.distinct hblank
  rw [Flow.Merged.get?_ofShards]
  constructor
  · intro h
    split at h
    · rename_i hid
      obtain ⟨row, hrow, hactive⟩ := hkeys.1 hid
      rw [hwhole hrow] at h
      exact ⟨row, (m.rows.get?_eq_some_iff id row).2 hrow, hactive, (Option.some.inj h).symm⟩
    · cases h
  · rintro ⟨row, hrow, hactive, rfl⟩
    have hrow : (id, row) ∈ m.entries := (m.rows.get?_eq_some_iff id row).1 hrow
    rw [if_pos (hkeys.2 ⟨row, hrow, hactive⟩), hwhole hrow]

end FlowMap

namespace Loaded

variable {l : Loaded} {faults : ReadFaults}

theorem evict_of_broken (h : l.flows.walks faults = false) : l.evict faults = (l, Logged.fail .walk) := by
  unfold evict FlowMap.evict
  rw [if_neg (Bool.eq_false_iff.1 h)]
  rfl

theorem evict_of_walks (h : l.flows.walks faults = true) :
    (l.evict faults).2.outcome = .ok (Flow.splitRows l.flows.entries) ∧
      (l.evict faults).1.flows.rows = l.flows.rows.filter fun id _ => faults.keeps id := by
  unfold evict FlowMap.evict
  rw [if_pos h]
  exact ⟨rfl, rfl⟩

/-- **An eviction of the map is complete, or it fails and leaves the map alone.**  It fails if the walk breaks off, wherever that
is.  Otherwise the views, put together, have just the flows that some processor has counted, each with all its values; the view of
a processor shows just the flows that it has counted, each once with its value and in the order of the walk; there are as many
views as a flow has values at most; and of the map, only those flows are left whose removal failed. -/
theorem evict_exact (l : Loaded) (faults : ReadFaults)
    (hblank : ∀ e ∈ l.flows.entries, ∀ v ∈ e.2, v.packets = 0 → v = {}) :
    (∀ n ≤ l.flows.size, faults.walk = some n → (l.evict faults).1 = l ∧ (l.evict faults).2.outcome = .error .walk) ∧
      ((∀ n, faults.walk = some n → l.flows.size < n) →
        ∃ shards, (l.evict faults).2.outcome = .ok shards ∧
          (∀ id m, (Flow.Merged.ofShards shards).get? id = some m ↔
            ∃ row, l.flows.rows.get? id = some row ∧ (∃ v ∈ row, v.packets ≠ 0) ∧ m = row.foldl Flow.Metrics.merge {}) ∧
          (∀ (cpu : Nat) (s : Flow.Snapshot), shards[cpu]? = some s →
            (∀ id v, (id, v) ∈ s ↔ ∃ row, l.flows.rows.get? id = some row ∧ row[cpu]? = some v ∧ v.packets ≠ 0) ∧
              (s.map Prod.fst).Sublist l.flows.rows.keys ∧ (s.map Prod.fst).Nodup) ∧
          shards.length = ((l.flows.entries.map fun e => e.2.length).max?).getD 0 ∧
          ∀ id, (l.evict faults).1.flows.rows.get? id = if faults.keeps id then l.flows.rows.get? id else none) := by
  constructor
  · intro n hn hwalk
    have hbroken : l.flows.walks faults = false := by
      rw [Bool.eq_false_iff, ne_eq, FlowMap.walks_eq_true_iff]
      exact fun h => absurd (h n hwalk) (Nat.not_lt.2 hn)
    rw [evict_of_broken hbroken]
    exact ⟨rfl, rfl⟩
  · intro hwalk
    obtain ⟨hshards, hleft⟩ := evict_of_walks ((l.flows.walks_eq_true_iff faults).2 hwalk)
    refine ⟨_, hshards, FlowMap.get?_ofShards_splitRows hblank, fun cpu s hs => ?_, ?_, fun id => ?_⟩
    · obtain rfl := Flow.eq_view_of_getElem? hs
      have horder : ((Flow.view cpu l.flows.entries).map Prod.fst).Sublist l.flows.rows.keys := Flow.keys_view_sublist cpu _
      refine ⟨fun id v => ?_, horder, horder.nodup l.flows.rows.nodup_keys⟩
      rw [Flow.mem_view_iff]
      simp only [l.flows.rows.get?_eq_some_iff id]
      rfl
    · rw [Flow.length_splitRows, Flow.width_eq_max?]
    · rw [hleft, Table.get?_filter]
      cases faults.keeps id <;> cases l.flows.rows.get? id <;> rfl

/-- Three processors and two flows, one of which cannot be removed; and a walk that breaks off between them. -/
theorem evict_exact_idle_slots :
    let first : Flow.Id := { srcPort := 1 }
    let second : Flow.Id := { srcPort := 2 }
    let seen : Flow.Metrics := { packets := 1, bytes := 100, start := 7, stop := 9 }
    let rows := ((∅ : Table Flow.Id (List Flow.Metrics)).insert first [seen, {}, seen]).insert second [{}, {}, seen]
    let l : Loaded :=
      { sampling := 0, trace := false, maps := [], free := [], programs := [], flows := { cpus := 3, capacity := 9, rows } }
    let broken : ReadFaults := { walk := some 1 }
    let faults : ReadFaults := { walk := some 3, keeps := (· = second) }
    ((∀ e ∈ l.flows.entries, ∀ v ∈ e.2, v.packets = 0 → v = {}) ∧ 1 ≤ l.flows.size ∧
        ∀ n, faults.walk = some n → l.flows.size < n) ∧
      ((l.evict broken).1 = l ∧ (l.evict broken).2.outcome = .error .walk) ∧
      ∃ shards, (l.evict faults).2.outcome = .ok shards ∧ shards.length = 3 ∧
        (Flow.Merged.ofShards shards).get? first = some { packets := 2, bytes := 200, start := 7, stop := 9 } ∧
        (∀ s, shards[2]? = some s → (second, seen) ∈ s) ∧
        (l.evict faults).1.flows.rows.get? first = none ∧
        (l.evict faults).1.flows.rows.get? second = some [{}, {}, seen] := by
  intro first second seen rows l broken faults
  have hblank : ∀ e ∈ l.flows.entries, ∀ v ∈ e.2, v.packets = 0 → v = {} := by decide +kernel
  have hsize : l.flows.size = 2 := by decide +kernel
  have hwalk : ∀ n, faults.walk = some n → l.flows.size < n := by
    intro n hn
    obtain rfl := Option.some.inj hn
    rw [hsize]
    decide
  have hbreaks : 1 ≤ l.flows.size := by
    rw [hsize]
    decide
  have hrow : l.flows.rows.get? first = some [seen, {}, seen] := by decide +kernel
  have hrow' : l.flows.rows.get? second = some [{}, {}, seen] := by decide +kernel
  obtain ⟨shards, hshards, hmerged, hviews, hlength, hleft⟩ := (evict_exact l faults hblank).2 hwalk
  refine ⟨⟨hblank, hbreaks, hwalk⟩, (evict_exact l broken hblank).1 1 hbreaks rfl, shards, hshards, ?_, ?_, fun s hs => ?_, ?_, ?_⟩
  · rw [hlength]
    decide +kernel
  · exact (hmerged first _).2 ⟨_, hrow, ⟨seen, List.mem_cons_self, by decide⟩, by decide +kernel⟩
  · exact ((hviews 2 s hs).1 second seen).2 ⟨_, hrow', rfl, by decide⟩
  · rw [hleft, if_neg (by decide)]
  · rw [hleft, if_pos (by decide), hrow']

end Loaded
end Kernel
end FlowMeter
