import FlowMeter.Proofs.Totals
import Mathlib.Algebra.BigOperators.Group.List.Basic
/-!
# Splitting a flow and putting it together again

The packets of a flow may be counted in several places, part by part, and the parts put together in any order and grouping.
`Metrics.totals_ofAll` is the one place where the order of times matters: counted in order, packets add up.  What is left is
a sum over the parts (`totals_split`).
-/
namespace FlowMeter.Flow

namespace Metrics

/-- Packets counted in one place, one after another. -/
def ofAll : List Observation → Metrics
  | [] => {}
  | o :: rest => rest.foldl add (ofFirst o)

/-- None of the times recorded is after another time. -/
structure NotAfter (m : Metrics) (t : UInt64) : Prop where
  start : m.start ≤ t
  stop : m.stop ≤ t
  handshake : m.handshake ≤ t

theorem zero_le (t : UInt64) : 0 ≤ t := by
  rw [UInt64.le_iff_toNat_le]
  exact Nat.zero_le _

theorem notAfter_ofFirst (o : Observation) : (ofFirst o).NotAfter o.time where
  start := UInt64.le_refl _
  stop := UInt64.le_refl _
  handshake := by
    simp only [ofFirst]
    split
    · exact UInt64.le_refl _
    · exact zero_le _

theorem NotAfter.add {m : Metrics} {o : Observation} (h : m.NotAfter o.time) : (m.add o).NotAfter o.time where
  start := by
    simp only [Metrics.add]
    split
    · exact UInt64.le_refl _
    · exact h.start
  stop := UInt64.le_refl _
  handshake := by
    simp only [Metrics.add]
    split
    · exact UInt64.le_refl _
    · exact h.handshake

theorem NotAfter.trans {m : Metrics} {s t : UInt64} (h : m.NotAfter s) (hst : s ≤ t) : m.NotAfter t where
  start := UInt64.le_trans h.start hst
  stop := UInt64.le_trans h.stop hst
  handshake := UInt64.le_trans h.handshake hst

theorem earlier_of_le {s t : UInt64} (h : s ≤ t) : earlier s t = if s = 0 then t else s := by
  rw [← UInt64.toNat_inj, toNat_earlier, apply_ite UInt64.toNat]
  rw [UInt64.le_iff_toNat_le] at h
  simp only [← UInt64.toNat_inj, UInt64.toNat_zero]
  split
  · rfl
  · split <;> omega

/-- **A packet that is not before the others adds its own totals.** -/
theorem totals_add {m : Metrics} {o : Observation} (h : m.NotAfter o.time) :
    (m.add o).totals = m.totals + (ofFirst o).totals := by
  have hstart : (m.add o).start = earlier m.start o.time := (earlier_of_le h.start).symm
  have hstop : o.time = max m.stop o.time := by
    have := h.stop
    rw [UInt64.le_iff_toNat_le] at this
    rw [← UInt64.toNat_inj, toNat_max]
    omega
  have hshake : (m.add o).handshake = earlier m.handshake (ofFirst o).handshake := by
    simp only [Metrics.add, ofFirst]
    cases o.handshake with
    | true => simp only [true_and, if_true, earlier_of_le h.handshake]
    | false => simp only [Bool.false_eq_true, false_and, if_false, earlier_zero]
  rw [Totals.add_def]
  exact Totals.ext rfl rfl hstart hstop hshake rfl

theorem totals_foldl_add : ∀ (os : List Observation) (m : Metrics), (∀ o ∈ os, m.NotAfter o.time) →
    os.Pairwise (fun a b => a.time ≤ b.time) →
      (os.foldl add m).totals = m.totals + (os.map fun o => (ofFirst o).totals).sum
  | [], m, _, _ => by simp
  | o :: os, m, hm, hs => by
    rw [List.pairwise_cons] at hs
    have ho := hm o List.mem_cons_self
    rw [List.foldl_cons, totals_foldl_add os (m.add o) (fun b hb => ho.add.trans (hs.1 b hb)) hs.2, totals_add ho,
      List.map_cons, List.sum_cons, add_assoc]

/-- **Counted in order, packets add up.** -/
theorem totals_ofAll {os : List Observation} (hs : os.Pairwise (fun a b => a.time ≤ b.time)) :
    (ofAll os).totals = (os.map fun o => (ofFirst o).totals).sum := by
  cases os with
  | nil => rfl
  | cons o os =>
    rw [List.pairwise_cons] at hs
    exact totals_foldl_add os (ofFirst o) (fun b hb => (notAfter_ofFirst o).trans (hs.1 b hb)) hs.2

end Metrics

/-- An order and a grouping in which parts are put together. -/
inductive Grouping (κ : Type) where
  | part (k : κ)
  | both (a b : Grouping κ)
  deriving Repr

namespace Grouping

variable {κ : Type}

def parts : Grouping κ → List κ
  | part k => [k]
  | both a b => a.parts ++ b.parts

/-- The parts' metrics put together. -/
def merged (view : κ → Metrics) : Grouping κ → Metrics
  | part k => view k
  | both a b => (a.merged view).merge (b.merged view)

theorem totals_merged (view : κ → Metrics) : ∀ g : Grouping κ,
    (g.merged view).totals = (g.parts.map fun k => (view k).totals).sum
  | part k => by simp [merged, parts]
  | both a b => by
    rw [merged, Metrics.totals_merge, totals_merged view a, totals_merged view b, parts, List.map_append,
      List.sum_append]

end Grouping

/-- The packets that go to one part, in their order. -/
def partOf {κ : Type} [DecidableEq κ] (k : κ) (packets : List (κ × Observation)) : List Observation :=
  (packets.filter fun p => p.1 = k).map Prod.snd

/-- **The parts hold every packet once.**  Induction on the parts: the first takes its packets out of the rest. -/
theorem sum_parts {κ M : Type} [DecidableEq κ] [AddCommMonoid M] (f : Observation → M) : ∀ (ks : List κ)
    (packets : List (κ × Observation)), ks.Nodup → (∀ p ∈ packets, p.1 ∈ ks) →
      (ks.map fun k => ((partOf k packets).map f).sum).sum = (packets.map fun p => f p.2).sum
  | [], packets, _, hall => by
    have : packets = [] := List.eq_nil_iff_forall_not_mem.2 fun p hp => by cases hall p hp
    simp [this]
  | k :: ks, packets, hk, hall => by
    rw [List.nodup_cons] at hk
    let rest := packets.filter fun p => !decide (p.1 = k)
    have hrest : ∀ p ∈ rest, p.1 ∈ ks := fun p hp => by
      obtain ⟨hp, hne⟩ := List.mem_filter.1 hp
      have hne : p.1 ≠ k := by simpa using hne
      exact (List.mem_cons.1 (hall p hp)).resolve_left hne
    have hsame : ∀ k' ∈ ks, partOf k' packets = partOf k' rest := fun k' hk' => by
      have hne : k' ≠ k := fun h => hk.1 (h ▸ hk')
      unfold partOf
      rw [List.filter_filter]
      congr 1
      apply List.filter_congr
      intro p _
      by_cases hp : p.1 = k' <;> simp [hp, hne]
    have hperm : (packets.filter (fun p => p.1 = k) ++ rest).Perm packets := List.filter_append_perm _ packets
    have hothers : (ks.map fun k' => ((partOf k' packets).map f).sum).sum = (rest.map fun p => f p.2).sum := by
      rw [← sum_parts f ks rest hk.2 hrest]
      exact congrArg List.sum (List.map_congr_left fun k' hk' => by rw [hsame k' hk'])
    have hfirst : (partOf k packets).map f = (packets.filter fun p => p.1 = k).map fun p => f p.2 := by
      rw [partOf, List.map_map]
      rfl
    rw [List.map_cons, List.sum_cons, hothers, hfirst, ← List.sum_append, ← List.map_append]
    exact (hperm.map _).sum_eq

/-- **Splitting a flow and putting it together again is never splitting it.**  Packets in order of time (zero is a time like
another) go to any number of parts; every part with a packet is counted in order, stamped or not, and the parts are put
together in any order and any grouping. -/
theorem totals_split {κ : Type} [DecidableEq κ] (packets : List (κ × Observation)) (stamp : κ → UInt8) (g : Grouping κ)
    (hs : packets.Pairwise fun a b => a.2.time ≤ b.2.time) (hg : g.parts.Nodup)
    (hall : ∀ k, k ∈ g.parts ↔ k ∈ packets.map Prod.fst) :
    (g.merged fun k => { Metrics.ofAll (partOf k packets) with errno := stamp k }).totals =
      (Metrics.ofAll (packets.map Prod.snd)).totals := by
  have hpart : ∀ k, (partOf k packets).Pairwise fun a b => a.time ≤ b.time := fun k =>
    List.pairwise_map.2 (hs.filter _)
  rw [Grouping.totals_merged]
  calc (g.parts.map fun k => (Metrics.ofAll (partOf k packets)).totals).sum
      = (g.parts.map fun k => ((partOf k packets).map fun o => (Metrics.ofFirst o).totals).sum).sum := by
        rw [List.map_congr_left fun k _ => Metrics.totals_ofAll (hpart k)]
    _ = (packets.map fun p => (Metrics.ofFirst p.2).totals).sum :=
        sum_parts _ g.parts packets hg fun p hp => (hall p.1).2 (List.mem_map_of_mem hp)
    _ = (Metrics.ofAll (packets.map Prod.snd)).totals := by
        rw [Metrics.totals_ofAll (List.pairwise_map.2 hs), List.map_map]
        rfl

/-- The second part is put in front, its only packet stamped as one that no shard kept; the first packet has time zero. -/
theorem totals_split_three_packets :
    ((Grouping.both (.part false) (.part true)).merged fun k =>
      { Metrics.ofAll (partOf k [(true, ⟨60, 0, 0x02, false⟩), (false, ⟨40, 5, 0x10, true⟩), (true, ⟨40, 9, 0x10, true⟩)])
        with errno := if k then 0 else 7 }).totals = ⟨3, 140, 5, 9, 5, 0x12⟩ :=
  (totals_split [(true, ⟨60, 0, 0x02, false⟩), (false, ⟨40, 5, 0x10, true⟩), (true, ⟨40, 9, 0x10, true⟩)]
    (fun k => if k then 0 else 7) (.both (.part false) (.part true)) (by decide) (by decide) (by decide)).trans (by decide)

end FlowMeter.Flow
