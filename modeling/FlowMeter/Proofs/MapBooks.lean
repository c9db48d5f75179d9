import FlowMeter.Proofs.HooksSteps
/-!
# The books of the map

`MapBooks` relates the map to the walk over it: each slot shows what was counted in it, what was read and not yet removed is in
the map as it was read, and what was removed goes out whole.  Counting a packet, reading a flow and removing one keep it, and
move what a flow weighs from one place to another.
-/
namespace FlowMeter

open FlowMeter.Flow (weigh AllDatable Metrics.volume)

/-- A row that goes out whole, with times that can be dated. -/
structure Readable (boot : WallTime) (row : List Flow.Metrics) : Prop where
  shows : Flow.Shows row
  datable : ∀ m ∈ row, m = {} ∨ m.Datable boot

theorem RowBooks.readable {boot : WallTime} {cpus : Nat} {tally : Nat → Nat} {row : List Flow.Metrics}
    (h : RowBooks boot cpus tally row) (htally : ∀ cpu < cpus, tally cpu ≠ 0 → tally cpu % UInt32.size ≠ 0) :
    Readable boot row where
  shows := h.shows htally
  datable m hm := by
    obtain ⟨cpu, hcpu⟩ := List.mem_iff_getElem?.1 hm
    exact (h.slots cpu m hcpu).datable

theorem datable_splitRows {boot : WallTime} {rows : List (Flow.Id × List Flow.Metrics)} (h : ∀ e ∈ rows, Readable boot e.2) :
    AllDatable boot (Flow.splitRows rows).flatten := by
  intro e he
  obtain ⟨hpackets, row, hrow, hmem⟩ := Flow.mem_splitRows he
  rcases (h _ hrow).datable e.2 hmem with hblank | hdatable
  · rw [hblank] at hpackets
    exact absurd rfl hpackets
  · exact hdatable

namespace Agent

/-- The map, the packets in its slots and the walk over it agree. -/
structure MapBooks (boot : WallTime) (m : Kernel.FlowMap) (tally : Flow.Id → Nat → Nat) (walk : Walk) : Prop where
  rows : ∀ id row, m.rows.get? id = some row → RowBooks boot m.cpus (tally id) row
  absent : ∀ id, m.rows.get? id = none → ∀ cpu, tally id cpu = 0
  /-- What was read is still there, each flow once. -/
  pending : ∀ e ∈ walk.pending, m.rows.get? e.1 = some e.2 ∧ Readable boot e.2
  distinct : (walk.pending.map Prod.fst).Nodup
  gone : ∀ e ∈ walk.gone, Readable boot e.2

namespace MapBooks

variable {boot : WallTime} {m : Kernel.FlowMap} {tally : Flow.Id → Nat → Nat} {walk : Walk}

theorem emptied (boot : WallTime) (m : Kernel.FlowMap) : MapBooks boot m.emptied (fun _ _ => 0) .resting where
  rows id row h := by cases h
  absent id h cpu := rfl
  pending e he := by cases he
  distinct := List.nodup_nil
  gone e he := by cases he

theorem length (h : MapBooks boot m tally walk) (id : Flow.Id) (row : List Flow.Metrics) (hrow : m.rows.get? id = some row) :
    row.length = m.cpus :=
  (h.rows id row hrow).length

/-- **A packet more in a flow that was not read, or was removed since.** -/
theorem put (h : MapBooks boot m tally walk) {cpu : Nat} {id : Flow.Id} {v : Flow.Metrics}
    (hv : SlotBooks boot (tally id cpu + 1) v) (hid : id ∉ walk.pending.map Prod.fst) :
    MapBooks boot (m.put cpu id v) (bump tally id cpu) walk where
  rows := Kernel.FlowMap.rowBooks_put h.rows (h.absent id) hv
  absent k hnone i := by
    rw [Kernel.FlowMap.get?_put] at hnone
    split at hnone
    · cases hnone
    · rename_i hne
      simp only [bump, hne, false_and, if_false]
      exact h.absent k hnone i
  pending e he := by
    have hne : e.1 ≠ id := fun heq => hid (heq ▸ List.mem_map_of_mem he)
    rw [Kernel.FlowMap.get?_put, if_neg hne]
    exact h.pending e he
  distinct := h.distinct
  gone := h.gone

/-- **A flow is read.** -/
theorem read {rows : List Row} (h : MapBooks boot m tally (.reading rows)) {id : Flow.Id} {row : List Flow.Metrics}
    (hrow : m.rows.get? id = some row) (hid : id ∉ rows.map Prod.fst)
    (htally : ∀ cpu < m.cpus, tally id cpu ≠ 0 → tally id cpu % UInt32.size ≠ 0) :
    MapBooks boot m tally (.reading (rows ++ [(id, row)])) where
  rows := h.rows
  absent := h.absent
  pending e he := by
    rcases List.mem_append.1 he with he | he
    · exact h.pending e he
    · obtain rfl := List.mem_singleton.1 he
      exact ⟨hrow, (h.rows id row hrow).readable htally⟩
  distinct := by
    show ((rows ++ [(id, row)]).map Prod.fst).Nodup
    rw [List.map_append, List.nodup_append]
    refine ⟨h.distinct, by simp, fun a ha b hb hab => ?_⟩
    obtain rfl : b = id := List.mem_singleton.1 hb
    exact hid (hab ▸ ha)
  gone e he := by cases he

theorem turn {rows : List Row} (h : MapBooks boot m tally (.reading rows)) : MapBooks boot m tally (.removing [] rows) where
  rows := h.rows
  absent := h.absent
  pending := h.pending
  distinct := h.distinct
  gone e he := by cases he

section

variable {gone left : List Row} {row : Row}

/-- **A flow is removed.** -/
theorem remove (h : MapBooks boot m tally (.removing gone (row :: left))) :
    MapBooks boot (m.delete row.1) (fun id cpu => if id = row.1 then 0 else tally id cpu) (.removing (gone ++ [row]) left) := by
  obtain ⟨hfresh, hdistinct⟩ := List.nodup_cons.1 h.distinct
  have hget : ∀ id, (m.delete row.1).rows.get? id = if id = row.1 then none else m.rows.get? id := fun id =>
    Table.get?_erase ..
  refine ⟨fun id values hvalues => ?_, fun id hnone cpu => ?_, fun e he => ?_, hdistinct, fun e he => ?_⟩
  · rw [hget] at hvalues
    by_cases hid : id = row.1
    · rw [if_pos hid] at hvalues
      cases hvalues
    · rw [if_neg hid] at hvalues
      have htally : (fun cpu => if id = row.1 then 0 else tally id cpu) = tally id := funext fun cpu => if_neg hid
      rw [htally]
      exact h.rows id values hvalues
  · rw [hget] at hnone
    by_cases hid : id = row.1
    · exact if_pos hid
    · rw [if_neg hid] at hnone ⊢
      exact h.absent id hnone cpu
  -- a flow is read once, so none of those that are left goes with this one
  · obtain ⟨hold, hread⟩ := h.pending e (List.mem_cons_of_mem _ he)
    have hne : e.1 ≠ row.1 := fun heq => hfresh (heq ▸ List.mem_map_of_mem he)
    exact ⟨(hget e.1).trans ((if_neg hne).trans hold), hread⟩
  · rcases List.mem_append.1 he with he | he
    · exact h.gone e he
    · rw [List.mem_singleton.1 he]
      exact (h.pending row List.mem_cons_self).2

theorem weigh_delete (h : MapBooks boot m tally (.removing gone (row :: left))) (id : Flow.Id) :
    weigh Flow.rowVolume id m.entries =
      weigh Flow.rowVolume id (m.delete row.1).entries + if row.1 = id then Flow.rowVolume row.2 else 0 :=
  Flow.weigh_erase id _ m.rows.distinct (h.pending row List.mem_cons_self).1

theorem rest (h : MapBooks boot m tally (.removing gone [])) : MapBooks boot m tally .resting where
  rows := h.rows
  absent := h.absent
  pending e he := by cases he
  distinct := List.nodup_nil
  gone e he := by cases he

end

theorem begin (h : MapBooks boot m tally .resting) : MapBooks boot m tally (.reading []) where
  rows := h.rows
  absent := h.absent
  pending e he := by cases he
  distinct := List.nodup_nil
  gone e he := by cases he

end MapBooks
end Agent
end FlowMeter
