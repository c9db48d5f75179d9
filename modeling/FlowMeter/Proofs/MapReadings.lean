import FlowMeter.Proofs.MapSteps
import Mathlib.Algebra.BigOperators.Group.Finset.Piecewise
import Mathlib.Algebra.GroupWithZero.Nat
import Mathlib.Algebra.Order.BigOperators.Group.Finset
/-!
# What readings of the map show

No packet is shown twice, but for two ways in which a flow outlasts its removal (`MapRun.shows_once`).  A removal may be refused:
the flow is shown again by the next reading, with all that was shown of it before.  And a value that was changed in place may be
written back after the removal: the flow is there again, with all that its processor had counted (`MapRun.shown_more_than_counted`).
The argument is about what is at stake in each slot: what the slot shows, or what its processor holds of it if that is more.
-/
namespace FlowMeter.Kernel

open FlowMeter.Flow (weigh)
open Agent (Row)

/-- The packets that a row shows, on all processors. -/
def rowPackets (row : List Flow.Metrics) : Nat := (row.map fun m => m.packets.toNat).sum

/-- The packets of a flow in those snapshots, newest first, after which it was removed. -/
def settled (id : Flow.Id) (harvests : List Harvest) : Nat :=
  (harvests.map fun h => if id ∈ h.stuck then 0 else h.shown id).sum

/-- The packets of a flow in the last snapshot that shows it, and in those before it after which it was removed. -/
def lasting (id : Flow.Id) : List Harvest → Nat
  | [] => 0
  | h :: earlier => if h.reads id then h.shown id + settled id earlier else lasting id earlier

section

variable {id : Flow.Id} {h : Harvest} {harvests : List Harvest} {rows : List Row}

theorem weigh_rows_eq_zero (hid : id ∉ rows.map Prod.fst) : weigh rowPackets id rows = 0 := by
  unfold weigh
  refine List.sum_eq_zero fun n hn => ?_
  obtain ⟨e, he, rfl⟩ := List.mem_map.1 hn
  have hne : e.1 ≠ id := fun heq => hid (heq ▸ List.mem_map_of_mem he)
  exact if_neg hne

/-- **A snapshot shows all that was read.** -/
theorem Harvest.shown_eq (id : Flow.Id) (h : Harvest) : h.shown id = weigh rowPackets id h.rows :=
  Flow.weigh_splitRows_of_shown id fun _ _ m _ hm => by rw [hm]; rfl

theorem Harvest.shown_of_not_reads (hid : h.reads id = false) : h.shown id = 0 := by
  rw [shown_eq]
  exact weigh_rows_eq_zero (of_decide_eq_false hid)

theorem settled_cons (id : Flow.Id) (h : Harvest) (harvests : List Harvest) :
    settled id (h :: harvests) = (if id ∈ h.stuck then 0 else h.shown id) + settled id harvests := rfl

theorem settled_le_lasting (id : Flow.Id) : ∀ harvests : List Harvest, settled id harvests ≤ lasting id harvests
  | [] => Nat.le_refl _
  | h :: earlier => by
    have hrest := settled_le_lasting id earlier
    rw [settled_cons]
    unfold lasting
    by_cases hreads : h.reads id
    · rw [if_pos hreads]
      split <;> omega
    · rw [if_neg hreads, Harvest.shown_of_not_reads (Bool.eq_false_iff.2 hreads), ite_self, Nat.zero_add]
      exact hrest

/-- A flow whose removals have all succeeded is settled. -/
theorem settled_eq_sum (hstuck : ∀ h ∈ harvests, id ∉ h.stuck) : settled id harvests = (harvests.map (Harvest.shown id)).sum := by
  unfold settled
  congr 1
  exact List.map_congr_left fun h hh => if_neg (hstuck h hh)

/-- **Only removals that fail let anything be shown twice.** -/
theorem sum_le_lasting (hstuck : ∀ h ∈ harvests.tail, id ∉ h.stuck) :
    (harvests.map (Harvest.shown id)).sum ≤ lasting id harvests := by
  cases harvests with
  | nil => exact Nat.le_refl _
  | cons h earlier =>
    have hearlier : settled id earlier = (earlier.map (Harvest.shown id)).sum := settled_eq_sum hstuck
    have hlasting := settled_le_lasting id earlier
    rw [List.map_cons, List.sum_cons, ← hearlier]
    unfold lasting
    by_cases hreads : h.reads id
    · rw [if_pos hreads]
    · rw [if_neg hreads, Harvest.shown_of_not_reads (Bool.eq_false_iff.2 hreads), Nat.zero_add]
      exact hlasting

end

namespace FlowMap

/-- The packets of a flow that a processor's slot shows. -/
def slot (m : FlowMap) (id : Flow.Id) (cpu : Nat) : Nat := ((m.lookup cpu id).map fun v => v.packets.toNat).getD 0

/-- Every flow has a slot on each processor. -/
def Wide (m : FlowMap) : Prop := ∀ id row, m.rows.get? id = some row → row.length = m.cpus

variable {m : FlowMap} {cpu cpu' : Nat} {id id' : Flow.Id} {v : Flow.Metrics}

theorem slot_put_of_ne (h : id' ≠ id) : (m.put cpu id v).slot id' cpu' = m.slot id' cpu' := by
  rw [slot, lookup_put_of_ne m v h]
  rfl

theorem slot_put_of_ne_cpu (h : cpu' ≠ cpu) : (m.put cpu id v).slot id' cpu' = m.slot id' cpu' := by
  by_cases hid : id' = id
  · subst hid
    unfold slot lookup
    rw [get?_put, if_pos rfl, Option.bind_some, List.getElem?_set_ne (Ne.symm h)]
    cases m.rows.get? id' with
    | some row => rfl
    | none =>
      -- a flow that is new shows nothing on the other processors
      rw [Option.getD_none, blankRow, List.getElem?_replicate]
      split <;> rfl
  · exact slot_put_of_ne hid

theorem slot_put_le : (m.put cpu id v).slot id cpu ≤ v.packets.toNat := by
  unfold slot lookup
  rw [get?_put, if_pos rfl, Option.bind_some, List.getElem?_set_self']
  cases ((m.rows.get? id).getD m.blankRow)[cpu]? with
  | some u => exact Nat.le_refl _
  | none => exact Nat.zero_le _

theorem slot_delete (m : FlowMap) (id id' : Flow.Id) (cpu : Nat) :
    (m.delete id).slot id' cpu = if id' = id then 0 else m.slot id' cpu := by
  unfold slot lookup delete
  rw [Table.get?_erase]
  split <;> rfl

theorem Wide.put (h : m.Wide) : (m.put cpu id v).Wide := by
  intro id' row hrow
  rw [get?_put] at hrow
  split at hrow
  · obtain rfl := Option.some.inj hrow
    rw [List.length_set]
    cases hold : m.rows.get? id with
    | some old => exact h id old hold
    | none => exact List.length_replicate
  · exact h id' row hrow

theorem Wide.delete (h : m.Wide) : (m.delete id).Wide := by
  intro id' row hrow
  have hget : (m.delete id).rows.get? id' = if id' = id then none else m.rows.get? id' := Table.get?_erase ..
  rw [hget] at hrow
  split at hrow
  · cases hrow
  · exact h id' row hrow

/-- **A row shows what its slots show.** -/
theorem rowPackets_eq_sum (h : m.Wide) {row : List Flow.Metrics} (hrow : m.rows.get? id = some row) :
    rowPackets row = ∑ cpu ∈ Finset.range m.cpus, m.slot id cpu := by
  have hlength : (row.map fun v => v.packets.toNat).length ≤ m.cpus := by rw [List.length_map, h id row hrow]
  rw [rowPackets, ← Flow.sum_range_getElem? _ hlength]
  show (∑ cpu ∈ Finset.range m.cpus, (row.map fun v => v.packets.toNat)[cpu]?.getD 0) = _
  refine Finset.sum_congr rfl fun cpu _ => ?_
  rw [slot, lookup, hrow, Option.bind_some, List.getElem?_map]

end FlowMap

theorem toNat_add_one_le (a : UInt32) : (a + 1).toNat ≤ a.toNat + 1 := by
  rw [UInt32.toNat_add]
  exact Nat.mod_le _ _

namespace Errand

theorem held_back (id k : Flow.Id) (v : Flow.Metrics) :
    held id { write := .back k v } = if k = id then v.packets.toNat else 0 := rfl

/-- The packets of a value are on hand, or come back, or are counted first when they are written. -/
theorem packets_eq (e : Errand) : e.write.value.packets.toNat = e.held e.write.id + e.revived e.write.id + e.first e.write.id := by
  obtain ⟨w, late⟩ := e
  cases w with
  | back k value => cases late <;> simp [held, revived, first, Classifier.Write.id, Classifier.Write.value]
  | fresh k o => simp [held, revived, first, Classifier.Write.id, Classifier.Write.value, Flow.Metrics.ofFirst]

theorem held_without (k id : Flow.Id) (e : Errand) : (e.without k).held id = if id = k then 0 else e.held id := by
  obtain ⟨w, late⟩ := e
  cases w with
  | back j value =>
    by_cases hid : id = k
    · subst hid
      rw [if_pos rfl]
      by_cases hj : j = id
      · simp [without, held, hj]
      · cases late <;> simp [without, held, hj]
    · rw [if_neg hid]
      by_cases hj : j = k
      · subst hj
        cases late <;> simp [without, held, Ne.symm hid]
      · cases late <;> simp [without, held, hj]
  | fresh j o => exact (ite_self 0).symm

end Errand

namespace Stage

/-- The call has removed the flow. -/
def Removed (id : Flow.Id) : Stage → Prop
  | removing rows stuck left => id ∈ rows.map Prod.fst ∧ id ∉ stuck ∧ id ∉ left.map Prod.fst
  | _ => False

/-- Each flow was read once, and is tried once. -/
def Distinct : Stage → Prop
  | removing rows stuck left =>
    (rows.map Prod.fst).Nodup ∧ (stuck ++ left.map Prod.fst).Nodup ∧ ∀ row ∈ left, row ∈ rows
  | stage => (stage.rows.map Prod.fst).Nodup

end Stage

namespace MapRun

/-- What is at stake of a flow in a slot: what the slot shows, or what the processor holds of it if that is more. -/
def stakeAt (t : MapRun) (id : Flow.Id) (cpu : Nat) : Nat :=
  max (t.kernel.map.slot id cpu) (((t.errands cpu).map (Errand.held id)).getD 0)

def stake (t : MapRun) (id : Flow.Id) : Nat := ∑ cpu ∈ Finset.range t.kernel.map.cpus, t.stakeAt id cpu

section

variable {t t' : MapRun} {id : Flow.Id}

/-- **A processor that moves changes what is at stake in its own slot.** -/
theorem stake_le_add {cpu n : Nat} {e : Option Errand} (hcpus : t'.kernel.map.cpus = t.kernel.map.cpus)
    (herrands : t'.errands = Function.update t.errands cpu e)
    (hslots : ∀ i, i ≠ cpu → t'.kernel.map.slot id i = t.kernel.map.slot id i)
    (hself : max (t'.kernel.map.slot id cpu) ((e.map (Errand.held id)).getD 0) ≤ t.stakeAt id cpu + n) :
    t'.stake id ≤ t.stake id + n := by
  have hslot : ∀ i, t'.stakeAt id i ≤ t.stakeAt id i + if cpu = i then n else 0 := by
    intro i
    unfold stakeAt
    by_cases hi : cpu = i
    · subst hi
      rw [herrands, Function.update_self, if_pos rfl]
      exact hself
    · rw [herrands, Function.update_of_ne (Ne.symm hi), hslots i (Ne.symm hi), if_neg hi]
      exact Nat.le_refl _
  have hone : (∑ i ∈ Finset.range t.kernel.map.cpus, if cpu = i then n else 0) ≤ n := by
    rw [Finset.sum_ite_eq]
    split
    · exact Nat.le_refl n
    · exact Nat.zero_le n
  calc t'.stake id
      = ∑ i ∈ Finset.range t.kernel.map.cpus, t'.stakeAt id i := by rw [stake, hcpus]
    _ ≤ ∑ i ∈ Finset.range t.kernel.map.cpus, (t.stakeAt id i + if cpu = i then n else 0) :=
        Finset.sum_le_sum fun i _ => hslot i
    _ = t.stake id + ∑ i ∈ Finset.range t.kernel.map.cpus, (if cpu = i then n else 0) := Finset.sum_add_distrib
    _ ≤ t.stake id + n := Nat.add_le_add_left hone _

/-- **What is removed is not at stake any more**, on hand or not. -/
theorem stake_delete (t : MapRun) (k id : Flow.Id) : (t.delete k).stake id = if id = k then 0 else t.stake id := by
  have hslot : ∀ cpu, (t.delete k).kernel.map.slot id cpu = if id = k then 0 else t.kernel.map.slot id cpu :=
    fun cpu => FlowMap.slot_delete t.kernel.map k id cpu
  have hstake : ∀ cpu, (t.delete k).stakeAt id cpu = if id = k then 0 else t.stakeAt id cpu := by
    intro cpu
    unfold stakeAt
    rw [hslot, show (t.delete k).errands cpu = (t.errands cpu).map (Errand.without k) from rfl]
    cases t.errands cpu with
    | none => split <;> rfl
    | some e =>
      simp only [Option.map_some, Option.getD_some, Errand.held_without]
      split <;> rfl
  unfold stake
  simp only [hstake]
  split
  · exact Finset.sum_const_zero
  · rfl

theorem rowPackets_le_stake (hwide : t.kernel.map.Wide) {row : List Flow.Metrics} (hrow : t.kernel.map.rows.get? id = some row) :
    rowPackets row ≤ t.stake id := by
  rw [FlowMap.rowPackets_eq_sum hwide hrow]
  exact Finset.sum_le_sum fun cpu _ => Nat.le_max_left ..

end

/-- Of the packets of a flow that were counted or came back, some did so before it was removed the last time and some after.  The
map, what is held of it and what is read of it show the second ones, and snapshots after which the flow was removed the first
ones. -/
structure Books (id : Flow.Id) (t : MapRun) (before after : Nat) : Prop where
  wide : t.kernel.map.Wide
  counted : t.counted id + t.revived id = before + after
  stake : t.stake id ≤ after
  settled : settled id t.harvests ≤ before
  distinct : t.stage.Distinct
  kept : ¬ t.stage.Removed id →
    lasting id t.harvests ≤ Kernel.settled id t.harvests + after ∧ weigh rowPackets id t.stage.rows ≤ after
  removed : t.stage.Removed id →
    lasting id t.harvests ≤ before ∧ Kernel.settled id t.harvests + weigh rowPackets id t.stage.rows ≤ before

namespace Books

variable {id : Flow.Id} {t : MapRun} {before after : Nat}

theorem lasting_le (h : Books id t before after) : lasting id t.harvests ≤ t.counted id + t.revived id := by
  have hcounted := h.counted
  have hsettled := h.settled
  by_cases hremoved : t.stage.Removed id
  · have hlasting := (h.removed hremoved).1
    omega
  · have hlasting := (h.kept hremoved).1
    omega

/-- More packets, and perhaps more of them at stake, while the reader rests. -/
theorem more (h : Books id t before after) {t' : MapRun} {n : Nat} (hwide : t'.kernel.map.Wide)
    (hstage : t'.stage = t.stage) (hharvests : t'.harvests = t.harvests)
    (hcounted : t'.counted id + t'.revived id = t.counted id + t.revived id + n) (hstake : t'.stake id ≤ t.stake id + n) :
    Books id t' before (after + n) where
  wide := hwide
  counted := by rw [hcounted, h.counted, Nat.add_assoc]
  stake := Nat.le_trans hstake (Nat.add_le_add_right h.stake n)
  settled := hharvests ▸ h.settled
  distinct := hstage ▸ h.distinct
  kept hkept := by
    rw [hstage] at hkept ⊢
    rw [hharvests]
    obtain ⟨hlasting, hread⟩ := h.kept hkept
    constructor
    · exact Nat.le_trans hlasting (Nat.add_le_add_left (Nat.le_add_right ..) _)
    · exact Nat.le_trans hread (Nat.le_add_right ..)
  removed hremoved := by
    rw [hstage] at hremoved ⊢
    rw [hharvests]
    exact h.removed hremoved

/-- **A packet that comes is counted in place, or not yet.** -/
theorem arrive (h : Books id t before after) (cpu : Nat) (now : UInt64) (p : Packet) :
    ∃ after', Books id (t.arrive cpu now p) before after' := by
  unfold MapRun.arrive
  by_cases hidle : cpu < t.kernel.map.cpus ∧ (t.errands cpu).isNone
  · rw [if_pos hidle]
    rcases t.kernel.arrive_cases cpu now p with ⟨-, harrive⟩ | ⟨c, -, ⟨m, hlookup, harrive⟩ | ⟨-, harrive⟩⟩
    · rw [harrive]
      exact ⟨after + 0, h.more h.wide rfl rfl rfl
        (stake_le_add rfl rfl (fun _ _ => rfl) (Nat.max_le.2 ⟨Nat.le_max_left .., Nat.zero_le _⟩))⟩
    · rw [harrive]
      generalize hv : m.add (Classifier.observation p c now) = v
      refine ⟨after + if c.id = id then 1 else 0, h.more h.wide.put rfl rfl ?_ ?_⟩
      · simp only [Option.map_some, Option.getD_some, Classifier.Write.inPlace, Classifier.Write.id, true_and]
        omega
      · refine stake_le_add rfl rfl (fun i hi => FlowMap.slot_put_of_ne_cpu hi) ?_
        rw [Option.map_some, Option.map_some, Option.getD_some, Errand.held_back]
        by_cases hid : c.id = id
        · subst hid
          have hshown : t.kernel.map.slot c.id cpu = m.packets.toNat := by rw [FlowMap.slot, hlookup]; rfl
          have hmore : v.packets.toNat ≤ t.stakeAt c.id cpu + 1 := by
            rw [← hv]
            refine Nat.le_trans (toNat_add_one_le m.packets) (Nat.add_le_add_right ?_ 1)
            exact hshown ▸ Nat.le_max_left ..
          rw [if_pos rfl, if_pos rfl]
          exact Nat.max_le.2 ⟨Nat.le_trans FlowMap.slot_put_le hmore, hmore⟩
        · rw [if_neg hid, if_neg hid, FlowMap.slot_put_of_ne (Ne.symm hid)]
          exact Nat.max_le.2 ⟨Nat.le_max_left .., Nat.zero_le _⟩
    · rw [harrive]
      refine ⟨after + 0, h.more h.wide rfl rfl ?_
        (stake_le_add rfl rfl (fun _ _ => rfl) (Nat.max_le.2 ⟨Nat.le_max_left .., Nat.zero_le _⟩))⟩
      simp [Classifier.Write.inPlace]
  · rw [if_neg hidle]
    exact ⟨after, h⟩

/-- **A packet that is written is counted by now, or is counted first, or comes back.** -/
theorem write (h : Books id t before after) (cpu : Nat) (refusal : Option Refusal) :
    ∃ after', Books id (t.write cpu refusal) before after' := by
  unfold MapRun.write
  cases he : t.errands cpu with
  | none => exact ⟨after, h⟩
  | some e =>
    have hheld : e.held id ≤ t.stakeAt id cpu := by
      rw [stakeAt, he]
      exact Nat.le_max_right ..
    rcases t.kernel.write_cases cpu refusal e.write with ⟨haccepted, hmap⟩ | ⟨hrefused, hmap⟩
    · simp only [haccepted, if_true]
      refine ⟨after + (e.first id + e.revived id), h.more (hmap ▸ h.wide.put) rfl rfl ?_ ?_⟩
      · show t.counted id + e.first id + (t.revived id + e.revived id) = _
        omega
      · refine stake_le_add ((congrArg FlowMap.cpus hmap).trans rfl) rfl (fun i hi => ?_) ?_
        · rw [hmap]
          exact FlowMap.slot_put_of_ne_cpu hi
        · rw [hmap, Option.map_none, Option.getD_none, Nat.max_zero]
          by_cases hid : id = e.write.id
          · subst hid
            refine Nat.le_trans FlowMap.slot_put_le ?_
            rw [e.packets_eq]
            omega
          · rw [FlowMap.slot_put_of_ne hid]
            exact Nat.le_trans (Nat.le_max_left ..) (Nat.le_add_right ..)
    · simp only [hrefused, Bool.false_eq_true, if_false]
      refine ⟨after + 0, h.more (hmap ▸ h.wide) rfl rfl rfl ?_⟩
      refine stake_le_add (congrArg FlowMap.cpus hmap) rfl (fun i _ => by rw [hmap]) ?_
      rw [hmap, Option.map_none, Option.getD_none, Nat.max_zero]
      exact Nat.le_max_left ..

theorem begin (h : Books id t before after) (hstage : t.stage = .resting) : Books id { t with stage := .reading [] } before after where
  wide := h.wide
  counted := h.counted
  stake := h.stake
  settled := h.settled
  distinct := List.nodup_nil
  kept _ := by
    have hkept := h.kept (by rw [hstage]; exact fun hr => hr)
    rw [hstage] at hkept
    exact hkept
  removed hremoved := hremoved.elim

theorem read (h : Books id t before after) {rows : List Row} (hstage : t.stage = .reading rows) {k : Flow.Id}
    {row : List Flow.Metrics} (hrow : t.kernel.map.rows.get? k = some row) (hk : k ∉ rows.map Prod.fst) :
    Books id { t with stage := .reading (rows ++ [(k, row)]) } before after where
  wide := h.wide
  counted := h.counted
  stake := h.stake
  settled := h.settled
  distinct := by
    have hdistinct := h.distinct
    rw [hstage] at hdistinct
    show ((rows ++ [(k, row)]).map Prod.fst).Nodup
    rw [List.map_append, List.nodup_append]
    refine ⟨hdistinct, by simp, fun a ha b hb hab => ?_⟩
    obtain rfl : b = k := List.mem_singleton.1 hb
    exact hk (hab ▸ ha)
  kept _ := by
    obtain ⟨hlasting, hread⟩ := h.kept (by rw [hstage]; exact fun hr => hr)
    rw [hstage] at hread
    refine ⟨hlasting, ?_⟩
    show weigh rowPackets id (rows ++ [(k, row)]) ≤ after
    rw [Flow.weigh_append, Flow.weigh_cons, Flow.weigh_nil, Nat.add_zero]
    by_cases hid : k = id
    · subst hid
      rw [weigh_rows_eq_zero hk, if_pos rfl, Nat.zero_add]
      exact Nat.le_trans (rowPackets_le_stake h.wide hrow) h.stake
    · rw [if_neg hid]
      exact hread
  removed hremoved := hremoved.elim

theorem breakOff (h : Books id t before after) {rows : List Row} (hstage : t.stage = .reading rows) :
    Books id { t with stage := .resting } before after where
  wide := h.wide
  counted := h.counted
  stake := h.stake
  settled := h.settled
  distinct := List.nodup_nil
  kept _ := ⟨(h.kept (by rw [hstage]; exact fun hr => hr)).1, Nat.zero_le _⟩
  removed hremoved := hremoved.elim

theorem turn (h : Books id t before after) {rows : List Row} (hstage : t.stage = .reading rows) :
    Books id { t with stage := .removing rows [] rows } before after where
  wide := h.wide
  counted := h.counted
  stake := h.stake
  settled := h.settled
  distinct := by
    have hdistinct := h.distinct
    rw [hstage] at hdistinct
    exact ⟨hdistinct, hdistinct, fun _ hrow => hrow⟩
  kept _ := by
    have hkept := h.kept (by rw [hstage]; exact fun hr => hr)
    rw [hstage] at hkept
    exact hkept
  removed hremoved := absurd hremoved.1 hremoved.2.2

section

variable {rows left : List Row} {stuck : List Flow.Id} {row : Row}

/-- A flow that is not the next one is removed just if it was before. -/
theorem refuse (h : Books id t before after) (hstage : t.stage = .removing rows stuck (row :: left)) :
    Books id { t with stage := .removing rows (stuck ++ [row.1]) left } before after := by
  have hdistinct := h.distinct
  have hkept := h.kept
  have hremoved := h.removed
  rw [hstage] at hdistinct hkept hremoved
  obtain ⟨hrows, htried, hsub⟩ := hdistinct
  have hsame : Stage.Removed id (.removing rows (stuck ++ [row.1]) left) ↔ Stage.Removed id (.removing rows stuck (row :: left)) := by
    unfold Stage.Removed
    simp only [List.mem_append, List.map_cons, List.mem_cons, List.not_mem_nil, or_false, not_or]
    constructor
    · rintro ⟨hread, ⟨hstuck, hne⟩, hleft⟩
      exact ⟨hread, hstuck, hne, hleft⟩
    · rintro ⟨hread, hstuck, hne, hleft⟩
      exact ⟨hread, ⟨hstuck, hne⟩, hleft⟩
  refine ⟨h.wide, h.counted, h.stake, h.settled, ⟨hrows, ?_, fun r hr => hsub r (List.mem_cons_of_mem _ hr)⟩,
    fun hk => hkept fun hr => hk (hsame.2 hr), fun hr => hremoved (hsame.1 hr)⟩
  rw [List.append_assoc]
  exact htried

/-- **A flow is removed, and what was counted in it has been read or is lost.** -/
theorem remove (h : Books id t before after) (hstage : t.stage = .removing rows stuck (row :: left)) :
    ∃ before' after',
      Books id { t.delete row.1 with stage := .removing rows stuck left } before' after' := by
  have hdistinct := h.distinct
  have hkept := h.kept
  have hremoved := h.removed
  rw [hstage] at hdistinct hkept hremoved
  obtain ⟨hrows, htried, hsub⟩ := hdistinct
  obtain ⟨hstuckdistinct, hleftdistinct, hapart⟩ := List.nodup_append.1 htried
  have hdistinct' : Stage.Distinct (.removing rows stuck left) := by
    refine ⟨hrows, ?_, fun r hr => hsub r (List.mem_cons_of_mem _ hr)⟩
    exact List.nodup_append.2 ⟨hstuckdistinct, (List.nodup_cons.1 hleftdistinct).2,
      fun a ha b hb => hapart a ha b (List.mem_cons_of_mem _ hb)⟩
  have hstake : (t.delete row.1).stake id = if id = row.1 then 0 else t.stake id := stake_delete ..
  by_cases hid : id = row.1
  · -- all that was counted so far belongs to the past, and the flow starts anew
    obtain ⟨hlasting, hread⟩ := hkept fun hr => hr.2.2 (hid ▸ List.mem_cons_self)
    have hread' : weigh rowPackets id rows ≤ after := hread
    have hsettled := h.settled
    have hgone : Stage.Removed id (.removing rows stuck left) := by
      refine ⟨?_, fun hstuck => ?_, fun hleft => ?_⟩
      · exact hid ▸ List.mem_map_of_mem (hsub row List.mem_cons_self)
      · exact hapart id hstuck row.1 List.mem_cons_self hid
      · exact (List.nodup_cons.1 hleftdistinct).1 (hid ▸ hleft)
    refine ⟨before + after, 0, h.wide.delete, h.counted, ?_, Nat.le_trans h.settled (Nat.le_add_right _ _), hdistinct',
      fun hkept => absurd hgone hkept, fun _ => ⟨?_, ?_⟩⟩
    · show (t.delete row.1).stake id ≤ 0
      rw [hstake, if_pos hid]
    · show lasting id t.harvests ≤ before + after
      omega
    · show Kernel.settled id t.harvests + weigh rowPackets id rows ≤ before + after
      omega
  · have hsame : Stage.Removed id (.removing rows stuck left) ↔ Stage.Removed id (.removing rows stuck (row :: left)) := by
      unfold Stage.Removed
      simp only [List.map_cons, List.mem_cons, hid, false_or]
    refine ⟨before, after, h.wide.delete, h.counted, ?_, h.settled, hdistinct', fun hk => hkept fun hr => hk (hsame.2 hr),
      fun hr => hremoved (hsame.1 hr)⟩
    show (t.delete row.1).stake id ≤ after
    rw [hstake, if_neg hid]
    exact h.stake

theorem deliver (h : Books id t before after) (hstage : t.stage = .removing rows stuck []) :
    Books id { t with stage := .resting, harvests := { rows, stuck } :: t.harvests } before after := by
  have hkept := h.kept
  have hremoved := h.removed
  have hsettled := h.settled
  rw [hstage] at hkept hremoved
  have hshown : Harvest.shown id { rows, stuck } = weigh rowPackets id rows := Harvest.shown_eq ..
  -- the new snapshot is settled if the flow was removed, and is the last one of it if it was read
  have hnew : Kernel.settled id ({ rows, stuck } :: t.harvests) ≤ before ∧
      lasting id ({ rows, stuck } :: t.harvests) ≤ Kernel.settled id ({ rows, stuck } :: t.harvests) + after := by
    rw [settled_cons]
    unfold lasting Harvest.reads
    rw [hshown]
    by_cases hread : id ∈ rows.map Prod.fst
    · rw [if_pos (decide_eq_true hread)]
      by_cases hstuck : id ∈ stuck
      · obtain ⟨-, hrows⟩ := hkept fun hr => hr.2.1 hstuck
        have hrows' : weigh rowPackets id rows ≤ after := hrows
        rw [if_pos hstuck]
        omega
      · obtain ⟨-, hrows⟩ := hremoved ⟨hread, hstuck, List.not_mem_nil⟩
        have hrows' : Kernel.settled id t.harvests + weigh rowPackets id rows ≤ before := hrows
        rw [if_neg hstuck]
        omega
    · obtain ⟨hlasting, -⟩ := hkept fun hr => hread hr.1
      rw [weigh_rows_eq_zero hread, ite_self, Nat.zero_add, if_neg (by rw [decide_eq_true_iff]; exact hread)]
      exact ⟨hsettled, hlasting⟩
  exact ⟨h.wide, h.counted, h.stake, hnew.1, List.nodup_nil, fun _ => ⟨hnew.2, Nat.zero_le _⟩, fun hr => hr.elim⟩

end

theorem step (h : Books id t before after) (s : MapStep) : ∃ before' after', Books id (t.step s) before' after' := by
  have hsame : ∃ before' after', Books id t before' after' := ⟨before, after, h⟩
  cases s with
  | arrive cpu now p => exact ⟨before, h.arrive cpu now p⟩
  | write cpu refusal => exact ⟨before, h.write cpu refusal⟩
  | begin =>
    rw [MapRun.step]
    cases hstage : t.stage with
    | resting => exact ⟨before, after, h.begin hstage⟩
    | reading rows => exact hsame
    | removing rows stuck left => exact hsame
  | read k =>
    rw [MapRun.step]
    cases hstage : t.stage with
    | resting => exact hsame
    | removing rows stuck left => exact hsame
    | reading rows =>
      cases hrow : t.kernel.map.rows.get? k with
      | none => exact hsame
      | some row =>
        by_cases hk : k ∈ rows.map Prod.fst
        · simp only [hk, if_true]
          exact hsame
        · simp only [hk, if_false]
          exact ⟨before, after, h.read hstage hrow hk⟩
  | breakOff =>
    rw [MapRun.step]
    cases hstage : t.stage with
    | resting => exact hsame
    | reading rows => exact ⟨before, after, h.breakOff hstage⟩
    | removing rows stuck left => exact hsame
  | turn =>
    rw [MapRun.step]
    cases hstage : t.stage with
    | resting => exact hsame
    | reading rows => exact ⟨before, after, h.turn hstage⟩
    | removing rows stuck left => exact hsame
  | remove refused =>
    rw [MapRun.step]
    cases hstage : t.stage with
    | resting => exact hsame
    | reading rows => exact hsame
    | removing rows stuck left =>
      cases left with
      | nil => exact hsame
      | cons row left =>
        cases refused with
        | true => exact ⟨before, after, h.refuse hstage⟩
        | false => exact h.remove hstage
  | deliver =>
    rw [MapRun.step]
    cases hstage : t.stage with
    | resting => exact hsame
    | reading rows => exact hsame
    | removing rows stuck left =>
      cases left with
      | nil => exact ⟨before, after, h.deliver hstage⟩
      | cons row left => exact hsame

theorem follow : ∀ (steps : List MapStep) {t : MapRun} {before after : Nat}, Books id t before after →
    ∃ before' after', Books id (t.follow steps) before' after'
  | [], _, before, after, h => ⟨before, after, h⟩
  | s :: steps, _, _, _, h => by
    obtain ⟨before', after', h'⟩ := h.step s
    exact follow steps h'

theorem start (id : Flow.Id) (settings : MeterSettings) (draws : List UInt32) (cpus capacity slots : Nat) :
    Books id (MapRun.start settings draws cpus capacity slots) 0 0 where
  wide _ _ hrow := by cases hrow
  counted := rfl
  stake := by
    have hnothing : ∀ cpu, (MapRun.start settings draws cpus capacity slots).stakeAt id cpu = 0 := fun _ => rfl
    simp only [MapRun.stake, hnothing, Finset.sum_const_zero, Nat.le_refl]
  settled := Nat.le_refl _
  distinct := List.nodup_nil
  kept _ := ⟨Nat.le_refl _, Nat.le_refl _⟩
  removed hremoved := hremoved.elim

end Books

/-- **No packet is shown twice but where its flow outlasts a removal.**  After any run, the packets of a flow in the last snapshot
that shows it and in those before it after which it was removed are at most as many as were counted and as were written back after
the flow had been removed, together.  So are all that were ever shown, unless a removal was refused before the newest snapshot. -/
theorem shows_once (settings : MeterSettings) (draws : List UInt32) (cpus capacity slots : Nat) (steps : List MapStep)
    (id : Flow.Id) :
    let t := (start settings draws cpus capacity slots).follow steps
    lasting id t.harvests ≤ t.counted id + t.revived id ∧
      ((∀ h ∈ t.harvests.tail, id ∉ h.stuck) →
        (t.harvests.map (Harvest.shown id)).sum ≤ t.counted id + t.revived id) := by
  intro t
  obtain ⟨before, after, hbooks⟩ := (Books.start id settings draws cpus capacity slots).follow steps
  have hlasting : lasting id t.harvests ≤ t.counted id + t.revived id := hbooks.lasting_le
  exact ⟨hlasting, fun hstuck => Nat.le_trans (sum_le_lasting hstuck) hlasting⟩

/-- Two processors count three packets of a flow.  The first call shows them and removes it, while a fourth packet is counted and
not yet written back; that brings back the two packets of its processor.  A last packet is shown with them by the second call,
which cannot remove the flow. -/
theorem shows_once_late_write :
    let p : Packet := { frame := List.replicate 14 6, length := 60, interface := 1, direction := .ingress }
    let id := ((Classified.ofFrame? p.frame p.direction p.interface).map Classified.id).getD {}
    let steps : List MapStep :=
      [.arrive 0 5 p, .write 0 none, .arrive 1 6 p, .arrive 0 7 p, .write 1 none, .write 0 none, .begin, .read id,
        .arrive 1 8 p, .turn, .remove false, .deliver, .write 1 none, .arrive 0 9 p, .write 0 none, .begin, .read id, .turn,
        .remove true, .deliver]
    let t := (start {} [] 2 10 4).follow steps
    (∀ h ∈ t.harvests.tail, id ∉ h.stuck) ∧ t.harvests.map (Harvest.shown id) = [3, 3] ∧ lasting id t.harvests = 6 ∧
      t.counted id = 5 ∧ t.revived id = 2 ∧ (t.harvests.map (Harvest.shown id)).sum ≤ t.counted id + t.revived id := by
  intro p id steps
  have hstuck : ∀ h ∈ ((start {} [] 2 10 4).follow steps).harvests.tail, id ∉ h.stuck := by decide +kernel
  exact ⟨hstuck, by decide +kernel, by decide +kernel, by decide +kernel, by decide +kernel,
    (shows_once {} [] 2 10 4 steps id).2 hstuck⟩

/-- One packet is shown by two calls, of which the first cannot remove its flow.  Two packets are shown as three, the second one
being written back after a removal that succeeds. -/
theorem shown_more_than_counted :
    let p : Packet := { frame := List.replicate 14 6, length := 60, interface := 1, direction := .ingress }
    let id := ((Classified.ofFrame? p.frame p.direction p.interface).map Classified.id).getD {}
    let counted : List MapStep := [.arrive 0 5 p, .write 0 none]
    let shown : List MapStep := [.begin, .read id, .turn, .remove false, .deliver]
    let refused := (start {} [] 2 10 4).follow (counted ++ [.begin, .read id, .turn, .remove true, .deliver] ++ shown)
    let late := (start {} [] 2 10 4).follow
      (counted ++ [.begin, .read id, .turn, .arrive 0 6 p, .remove false, .write 0 none, .deliver] ++ shown)
    (refused.counted id = 1 ∧ (refused.harvests.map (Harvest.shown id)).sum = 2) ∧
      late.counted id = 2 ∧ (late.harvests.map (Harvest.shown id)).sum = 3 ∧ ∀ h ∈ late.harvests, id ∉ h.stuck := by
  decide +kernel

end MapRun
end FlowMeter.Kernel
