import FlowMeter.Flow.Merge
import Mathlib.Algebra.BigOperators.Group.List.Basic
/-!
# What partial views add up to

`Flow.Totals` is all that metrics say but for the error number, and `Flow.Volume` is the part of it that no clock has a say
in.  Both are commutative monoids, and metrics put together are their sum (`Metrics.totals_merge`, `Metrics.volume_merge`).
-/
namespace FlowMeter.Flow

theorem toNat_max (a b : UInt64) : (max a b).toNat = max a.toNat b.toNat := by
  rw [show max a b = if a ≤ b then b else a from rfl]
  split
  · rename_i h
    rw [UInt64.le_iff_toNat_le] at h
    omega
  · rename_i h
    rw [UInt64.le_iff_toNat_le] at h
    omega

theorem toNat_earlier (a b : UInt64) :
    (earlier a b).toNat = if a.toNat = 0 then b.toNat else if b.toNat = 0 then a.toNat else min a.toNat b.toNat := by
  have hz : ∀ x : UInt64, x.toNat = 0 ↔ x = 0 := fun x => by rw [← UInt64.toNat_inj]; rfl
  simp only [earlier, hz]
  split
  · rfl
  · split
    · rfl
    · rw [show min a b = if a ≤ b then a else b from rfl]
      split
      · rename_i h
        rw [UInt64.le_iff_toNat_le] at h
        omega
      · rename_i h
        rw [UInt64.le_iff_toNat_le] at h
        omega

theorem earlier_comm (a b : UInt64) : earlier a b = earlier b a := by
  rw [← UInt64.toNat_inj, toNat_earlier, toNat_earlier]
  split <;> split <;> omega

theorem earlier_assoc (a b c : UInt64) : earlier (earlier a b) c = earlier a (earlier b c) := by
  rw [← UInt64.toNat_inj]
  simp only [toNat_earlier]
  by_cases ha : a.toNat = 0
  · simp only [ha, if_true]
  · by_cases hb : b.toNat = 0
    · simp only [ha, hb, if_true, if_false]
    · by_cases hc : c.toNat = 0
      · simp only [ha, hb, hc, if_true, if_false]
        split <;> omega
      · simp only [ha, hb, hc, if_false]
        split <;> split <;> omega

theorem max_zero (a : UInt64) : max a 0 = a := by
  rw [← UInt64.toNat_inj, toNat_max]
  exact Nat.max_zero _

theorem max_comm (a b : UInt64) : max a b = max b a := by
  rw [← UInt64.toNat_inj, toNat_max, toNat_max, Nat.max_comm]

theorem max_assoc (a b c : UInt64) : max (max a b) c = max a (max b c) := by
  simp only [← UInt64.toNat_inj, toNat_max, Nat.max_assoc]

theorem earlier_zero (a : UInt64) : earlier a 0 = a := by
  unfold earlier
  split
  · rename_i h
    exact h.symm
  · rfl

theorem earlier_eq_or (a b : UInt64) : earlier a b = a ∨ earlier a b = b := by
  simp only [← UInt64.toNat_inj, toNat_earlier]
  split
  · exact .inr rfl
  · split
    · exact .inl rfl
    · omega

theorem max_eq_or (a b : UInt64) : max a b = a ∨ max a b = b := by
  simp only [← UInt64.toNat_inj, toNat_max]
  omega

/-- What metrics say but for the error number. -/
@[ext] structure Totals where
  packets : UInt32
  bytes : UInt64
  start : UInt64
  stop : UInt64
  handshake : UInt64
  flags : UInt16
  deriving DecidableEq, Repr

namespace Totals

instance : Zero Totals := ⟨⟨0, 0, 0, 0, 0, 0⟩⟩

instance : Add Totals where
  add a b :=
    { packets := a.packets + b.packets
      bytes := a.bytes + b.bytes
      start := earlier a.start b.start
      stop := max a.stop b.stop
      handshake := earlier a.handshake b.handshake
      flags := a.flags ||| b.flags }

theorem add_def (a b : Totals) :
    a + b = ⟨a.packets + b.packets, a.bytes + b.bytes, earlier a.start b.start, max a.stop b.stop,
      earlier a.handshake b.handshake, a.flags ||| b.flags⟩ := rfl

theorem zero_def : (0 : Totals) = ⟨0, 0, 0, 0, 0, 0⟩ := rfl

protected theorem add_comm (a b : Totals) : a + b = b + a := by
  rw [add_def, add_def, UInt32.add_comm, UInt64.add_comm, earlier_comm a.start, max_comm a.stop,
    earlier_comm a.handshake, UInt16.or_comm]

protected theorem add_zero (a : Totals) : a + 0 = a := by
  rw [add_def, zero_def]
  ext1 <;> simp only [UInt32.add_zero, UInt64.add_zero, earlier_zero, max_zero, UInt16.or_zero]

instance : AddCommMonoid Totals where
  add_assoc a b c := by
    simp only [add_def, UInt32.add_assoc, UInt64.add_assoc, earlier_assoc, max_assoc, UInt16.or_assoc]
  zero_add a := by rw [Totals.add_comm, Totals.add_zero]
  add_zero := Totals.add_zero
  add_comm := Totals.add_comm
  nsmul := nsmulRec

end Totals

/-- How much passed, whenever it did. -/
@[ext] structure Volume where
  packets : UInt32
  bytes : UInt64
  flags : UInt16
  deriving DecidableEq, Repr

namespace Volume

instance : Zero Volume := ⟨⟨0, 0, 0⟩⟩

instance : Add Volume where
  add a b := { packets := a.packets + b.packets, bytes := a.bytes + b.bytes, flags := a.flags ||| b.flags }

theorem add_def (a b : Volume) : a + b = ⟨a.packets + b.packets, a.bytes + b.bytes, a.flags ||| b.flags⟩ := rfl

theorem zero_def : (0 : Volume) = ⟨0, 0, 0⟩ := rfl

protected theorem add_comm (a b : Volume) : a + b = b + a := by
  rw [add_def, add_def, UInt32.add_comm, UInt64.add_comm, UInt16.or_comm]

protected theorem add_zero (a : Volume) : a + 0 = a := by
  rw [add_def, zero_def, UInt32.add_zero, UInt64.add_zero, UInt16.or_zero]

instance : AddCommMonoid Volume where
  add_assoc a b c := by simp only [add_def, UInt32.add_assoc, UInt64.add_assoc, UInt16.or_assoc]
  zero_add a := by rw [Volume.add_comm, Volume.add_zero]
  add_zero := Volume.add_zero
  add_comm := Volume.add_comm
  nsmul := nsmulRec

end Volume

namespace Metrics

def totals (m : Metrics) : Totals where
  packets := m.packets
  bytes := m.bytes
  start := m.start
  stop := m.stop
  handshake := m.handshake
  flags := m.flags

def volume (m : Metrics) : Volume where
  packets := m.packets
  bytes := m.bytes
  flags := m.flags

/-- **Put together, partial views add up.** -/
theorem totals_merge (m n : Metrics) : (m.merge n).totals = m.totals + n.totals := rfl

theorem volume_merge (m n : Metrics) : (m.merge n).volume = m.volume + n.volume := rfl

/-- One packet more adds its own volume, whatever the time. -/
theorem volume_add (m : Metrics) (o : Observation) : (m.add o).volume = m.volume + (ofFirst o).volume := rfl

end Metrics
end FlowMeter.Flow
