import FlowMeter.Proofs.PartialViews
import FlowMeter.Proofs.ShardChanges
/-!
# What a shard keeps

A shard that nothing outside refuses keeps the first flows that it sees, as many as it has room for, each with all of its packets
counted in order (`Flow.kept`).  `Shard.snapshot_apply` is one packet more.  How much passed does not depend on the times, so
packets alone say how much there is of every flow that is kept (`Flow.owed`, `Flow.volumes_kept`).
-/
namespace FlowMeter

namespace Table

variable {κ ν : Type} [DecidableEq κ]

theorem find_map (g : κ → ν) (k : κ) : ∀ ks : List κ,
    find k (ks.map fun a => (a, g a)) = if k ∈ ks then some (g k) else none
  | [] => rfl
  | a :: ks => by
    rw [List.map_cons, find, find_map g k ks]
    by_cases ha : a = k
    · subst ha
      simp
    · simp [ha, Ne.symm ha]

/-- A value for a key that was not there comes last. -/
theorem place_map_of_not_mem (g : κ → ν) (k : κ) (f : Option ν → ν) : ∀ {ks : List κ}, k ∉ ks →
    place k f (ks.map fun a => (a, g a)) = (ks.map fun a => (a, g a)) ++ [(k, f none)]
  | [], _ => rfl
  | a :: ks, h => by
    rw [List.mem_cons, not_or] at h
    rw [List.map_cons, place, if_neg (Ne.symm h.1), place_map_of_not_mem g k f h.2, List.cons_append]

theorem place_map_of_mem {g g' : κ → ν} {k : κ} {f : Option ν → ν} (hk : g' k = f (some (g k)))
    (hne : ∀ a, a ≠ k → g' a = g a) : ∀ {ks : List κ}, ks.Nodup → k ∈ ks →
    place k f (ks.map fun a => (a, g a)) = ks.map fun a => (a, g' a)
  | a :: ks, hn, h => by
    rw [List.nodup_cons] at hn
    rw [List.map_cons, List.map_cons, place]
    by_cases ha : a = k
    · subst ha
      have hrest : ∀ b ∈ ks, g b = g' b := fun b hb => (hne b fun h => hn.1 (h ▸ hb)).symm
      rw [if_pos rfl, hk]
      exact congrArg _ (List.map_congr_left fun b hb => by rw [hrest b hb])
    · rw [if_neg ha, hne a ha, place_map_of_mem hk hne hn.2 ((List.mem_cons.1 h).resolve_left (Ne.symm ha))]

end Table

namespace Flow

/-- The first flows that come, as many as there is room for. -/
def firstFlows (room : Nat) (ids : List Id) : List Id := ids.eraseDups.take room

/-- What is kept of what was seen: the first flows, each with all that was seen of it. -/
def kept (room : Nat) (seen : List (Id × Observation)) : Snapshot :=
  (firstFlows room (seen.map Prod.fst)).map fun id => (id, Metrics.ofAll (partOf id seen))

theorem firstFlows_concat_of_mem {room : Nat} {ids : List Id} {id : Id} (h : id ∈ ids) :
    firstFlows room (ids ++ [id]) = firstFlows room ids := by
  have hnone : [id].removeAll ids = [] := by simp [List.removeAll, h]
  rw [firstFlows, List.eraseDups_append, hnone]
  simp [firstFlows]

theorem firstFlows_concat_of_not_mem {room : Nat} {ids : List Id} {id : Id} (h : id ∉ ids) :
    firstFlows room (ids ++ [id]) =
      if (firstFlows room ids).length < room then firstFlows room ids ++ [id] else firstFlows room ids := by
  have hone : [id].removeAll ids = [id] := by simp [List.removeAll, h]
  rw [firstFlows, List.eraseDups_append, hone, firstFlows, List.length_take, List.take_append]
  split
  · rename_i hroom
    have hall : ids.eraseDups.length < room := by omega
    obtain ⟨n, hn⟩ : ∃ n, room - ids.eraseDups.length = n + 1 := ⟨room - ids.eraseDups.length - 1, by omega⟩
    simp [hn, List.eraseDups_cons]
  · rename_i hroom
    have hnone : room - ids.eraseDups.length = 0 := by omega
    simp [hnone]

theorem mem_of_mem_firstFlows {room : Nat} {ids : List Id} {id : Id} (h : id ∈ firstFlows room ids) : id ∈ ids :=
  List.mem_eraseDups.1 (List.mem_of_mem_take h)

/-- A flow is left out only when there is no room left. -/
theorem mem_firstFlows_of_lt {room : Nat} {ids : List Id} {id : Id} (h : id ∈ ids)
    (hroom : (firstFlows room ids).length < room) : id ∈ firstFlows room ids := by
  have hall : ids.eraseDups.length ≤ room := by
    rw [firstFlows, List.length_take] at hroom
    omega
  rw [firstFlows, List.take_of_length_le hall]
  exact List.mem_eraseDups.2 h

theorem partOf_append (id : Id) (seen more : List (Id × Observation)) :
    partOf id (seen ++ more) = partOf id seen ++ partOf id more := by
  rw [partOf, List.filter_append, List.map_append]
  rfl

theorem partOf_concat (id k : Id) (seen : List (Id × Observation)) (o : Observation) :
    partOf id (seen ++ [(k, o)]) = partOf id seen ++ if k = id then [o] else [] := by
  rw [partOf_append]
  by_cases h : k = id <;> simp [partOf, h]

theorem partOf_eq_nil {id : Id} {seen : List (Id × Observation)} (h : id ∉ seen.map Prod.fst) : partOf id seen = [] := by
  rw [partOf, List.map_eq_nil_iff, List.filter_eq_nil_iff]
  intro e he hid
  exact h (of_decide_eq_true hid ▸ List.mem_map_of_mem he)

theorem partOf_ne_nil {id : Id} {seen : List (Id × Observation)} (h : id ∈ seen.map Prod.fst) : partOf id seen ≠ [] := by
  obtain ⟨e, he, rfl⟩ := List.mem_map.1 h
  exact List.ne_nil_of_mem (List.mem_map_of_mem (List.mem_filter.2 ⟨he, decide_eq_true rfl⟩))

theorem Metrics.ofAll_concat {os : List Observation} (h : os ≠ []) (o : Observation) :
    ofAll (os ++ [o]) = (ofAll os).add o := by
  cases os with
  | nil => exact absurd rfl h
  | cons a os => rw [List.cons_append, ofAll, List.foldl_append, ofAll, List.foldl_cons, List.foldl_nil]

theorem Metrics.volume_foldl_add : ∀ (os : List Observation) (m : Metrics),
    (os.foldl add m).volume = m.volume + (os.map fun o => (ofFirst o).volume).sum
  | [], m => (add_zero _).symm
  | o :: os, m => by
    rw [List.foldl_cons, volume_foldl_add os, volume_add, List.map_cons, List.sum_cons, add_assoc]

/-- **Packets add up in volume, in whatever order they are counted.** -/
theorem Metrics.volume_ofAll (os : List Observation) :
    (ofAll os).volume = (os.map fun o => (ofFirst o).volume).sum := by
  cases os with
  | nil => rfl
  | cons o os => rw [ofAll, volume_foldl_add, List.map_cons, List.sum_cons]

end Flow

namespace Shard

open FlowMeter.Flow (kept firstFlows partOf)

variable {s : Shard} {seen : List (Flow.Id × Flow.Observation)}

theorem keys_of_snapshot (h : s.snapshot = kept s.capacity seen) :
    s.flows.keys = firstFlows s.capacity (seen.map Prod.fst) := by
  rw [Table.keys, show s.flows.entries = _ from h, kept, List.map_map]
  exact List.map_id' _

theorem get?_of_snapshot (h : s.snapshot = kept s.capacity seen) (id : Flow.Id) :
    s.flows.get? id =
      if id ∈ firstFlows s.capacity (seen.map Prod.fst) then some (Flow.Metrics.ofAll (partOf id seen)) else none := by
  rw [Table.get?, show s.flows.entries = _ from h]
  exact Table.find_map ..

theorem contains_of_snapshot (h : s.snapshot = kept s.capacity seen) (id : Flow.Id) :
    s.flows.contains id = decide (id ∈ firstFlows s.capacity (seen.map Prod.fst)) := by
  rw [Table.contains, get?_of_snapshot h]
  split <;> simp [*]

theorem size_of_snapshot (h : s.snapshot = kept s.capacity seen) :
    s.size = (firstFlows s.capacity (seen.map Prod.fst)).length := by
  rw [← keys_of_snapshot h, Table.length_keys]
  rfl

/-- **A shard keeps the first flows that it sees, with all of their packets.** -/
theorem snapshot_apply (h : s.snapshot = kept s.capacity seen) (id : Flow.Id) (o : Flow.Observation) :
    (s.apply none id o).1.snapshot = kept s.capacity (seen ++ [(id, o)]) := by
  have hget := get?_of_snapshot h id
  have hcontains := contains_of_snapshot h id
  have hsize := size_of_snapshot h
  have hothers : ∀ a, a ≠ id → Flow.Metrics.ofAll (partOf a (seen ++ [(id, o)])) = Flow.Metrics.ofAll (partOf a seen) := by
    intro a ha
    rw [Flow.partOf_concat, if_neg (Ne.symm ha), List.append_nil]
  rw [apply_eq, refuses?]
  by_cases hkept : id ∈ firstFlows s.capacity (seen.map Prod.fst)
  · -- one of the flows that are kept has one packet more
    have hseen := Flow.mem_of_mem_firstFlows hkept
    rw [if_pos hkept] at hget
    simp only [hcontains, hkept, decide_true, true_or, if_true]
    show Table.place id _ s.flows.entries = _
    rw [hget, show s.flows.entries = _ from h, kept, kept, List.map_append, List.map_singleton,
      Flow.firstFlows_concat_of_mem hseen]
    refine Table.place_map_of_mem ?_ hothers (keys_of_snapshot h ▸ s.flows.nodup_keys) hkept
    rw [Flow.partOf_concat, if_pos rfl, Flow.Metrics.ofAll_concat (Flow.partOf_ne_nil hseen)]
    rfl
  · rw [if_neg hkept] at hget
    simp only [hcontains, hkept, decide_false, Bool.false_eq_true, false_or, hsize, if_false]
    by_cases hroom : (firstFlows s.capacity (seen.map Prod.fst)).length < s.capacity
    · -- the flow is new, and there is room for it
      have hnew : id ∉ seen.map Prod.fst := fun hseen => hkept (Flow.mem_firstFlows_of_lt hseen hroom)
      simp only [hroom, if_true]
      show Table.place id _ s.flows.entries = _
      rw [hget, show s.flows.entries = _ from h, kept, kept, List.map_append, List.map_singleton,
        Flow.firstFlows_concat_of_not_mem hnew, if_pos hroom, Table.place_map_of_not_mem _ _ _ hkept, List.map_append,
        List.map_singleton, Flow.partOf_concat, if_pos rfl, Flow.partOf_eq_nil hnew]
      refine congrArg (· ++ _) (List.map_congr_left fun a ha => ?_)
      rw [hothers a fun he => hkept (he ▸ ha)]
    · -- there is no room for the flow, whether it was seen before or not
      simp only [hroom, if_false]
      rw [h, kept, kept, List.map_append, List.map_singleton]
      have hsame : firstFlows s.capacity (seen.map Prod.fst ++ [id]) = firstFlows s.capacity (seen.map Prod.fst) := by
        by_cases hseen : id ∈ seen.map Prod.fst
        · exact Flow.firstFlows_concat_of_mem hseen
        · rw [Flow.firstFlows_concat_of_not_mem hseen, if_neg hroom]
      rw [hsame]
      exact List.map_congr_left fun a ha => by rw [hothers a fun he => hkept (he ▸ ha)]

end Shard

namespace Flow

/-- Every flow of a snapshot with its volume. -/
def volumes (s : Snapshot) : List (Id × Volume) := s.map fun e => (e.1, e.2.volume)

/-- What a shard owes for packets: the first flows, as many as there is room for, each with all that its packets add up to. -/
def owed (room : Nat) (packets : List Packet) : List (Id × Volume) :=
  (firstFlows room (packets.filterMap Packet.flow?)).map fun id => (id, (packets.map fun p => p.share id).sum)

/-- What packets tell when each is counted at its time. -/
def observed (handled : List (Packet × UInt64)) : List (Id × Observation) := handled.filterMap fun e => e.1.observed? e.2

theorem observed_append (handled more : List (Packet × UInt64)) :
    observed (handled ++ more) = observed handled ++ observed more := List.filterMap_append

theorem observed_singleton (p : Packet) (time : UInt64) : observed [(p, time)] = (p.observed? time).toList := by
  cases ho : p.observed? time <;> simp [observed, ho]

theorem map_fst_observed (handled : List (Packet × UInt64)) :
    (observed handled).map Prod.fst = (handled.map Prod.fst).filterMap Packet.flow? := by
  rw [observed, List.map_filterMap, List.filterMap_map]
  exact List.filterMap_congr fun e _ => e.1.map_fst_observed? e.2

theorem sum_observed (id : Id) : ∀ handled : List (Packet × UInt64),
    ((partOf id (observed handled)).map fun o => (Metrics.ofFirst o).volume).sum =
      ((handled.map Prod.fst).map fun p => p.share id).sum
  | [] => rfl
  | (p, time) :: rest => by
    have hrest := sum_observed id rest
    rw [List.map_cons, List.map_cons, List.sum_cons, ← hrest, observed, List.filterMap_cons]
    cases ho : p.observed? time with
    | none =>
      rw [Packet.share_of_flow?_eq_none (Packet.flow?_of_observed?_eq_none ho), zero_add]
      rfl
    | some e =>
      rw [Packet.share_of_observed? ho]
      by_cases he : e.1 = id
      · simp [partOf, he, observed]
      · simp [partOf, he, observed]

/-- **How much there is of every flow depends on the packets alone.** -/
theorem volumes_kept (room : Nat) (handled : List (Packet × UInt64)) :
    volumes (kept room (observed handled)) = owed room (handled.map Prod.fst) := by
  rw [volumes, kept, List.map_map, owed, map_fst_observed]
  exact List.map_congr_left fun id _ => congrArg (Prod.mk id) ((Metrics.volume_ofAll _).trans (sum_observed id handled))

/-- What a meter of all packets keeps when it has taken one more. -/
theorem kept_take {m : Meter} (hs : m.settings.sampling = 0) {handled : List (Packet × UInt64)}
    (h : m.shard.snapshot = kept m.shard.capacity (observed handled)) (clock : Clock) (p : Packet) :
    (m.take clock none p).1.settings = m.settings ∧ (m.take clock none p).1.shard.capacity = m.shard.capacity ∧
      (m.take clock none p).1.shard.snapshot = kept m.shard.capacity (observed (handled ++ [(p, clock.now)])) := by
  have hdraw : (m.settings.draw m.draws).1 = true := by rw [MeterSettings.draw, if_pos hs]
  rw [Meter.take_eq, if_pos hdraw, observed_append, observed_singleton]
  cases p.observed? clock.now with
  | none =>
    rw [Option.toList_none, List.append_nil]
    exact ⟨rfl, rfl, h⟩
  | some e => exact ⟨rfl, m.shard.capacity_apply none e.1 e.2, Shard.snapshot_apply h e.1 e.2⟩

end Flow
end FlowMeter
