import FlowMeter.Frame.Recipe
import FlowMeter.Proofs.OutletRuns
/-!
# The times of a flow

A flow starts before it ends, and if its connection was established, that was in between (`Flow.Metrics.Ordered`).  It is so as long
as the clock of each shard does not go back; the clocks of two shards need not have anything to do with each other, and partial views
may be put together in any order (`MeterBank.ordered_throughout`).  On the wall clock, a flow takes as long as on the other one
(`Export.Report.Dated.lasts`).
-/
namespace FlowMeter

namespace WallTime

/-- The earlier second comes first, and the earlier nanosecond of the same second. -/
instance : LE WallTime := ⟨fun t u => t.secs < u.secs ∨ t.secs = u.secs ∧ t.nanos ≤ u.nanos⟩

theorem le_iff_toNanos_le (t u : WallTime) : t ≤ u ↔ t.toNanos ≤ u.toNanos := by
  have ht := t.nanos.isLt
  have hu := u.nanos.isLt
  show t.secs < u.secs ∨ t.secs = u.secs ∧ t.nanos ≤ u.nanos ↔ _
  rw [Int64.lt_iff_toInt_lt, ← Int64.toInt_inj, Fin.le_def]
  unfold toNanos
  simp only [second] at *
  omega

end WallTime

namespace Flow.Metrics

/-- The flow has a start, its end is not before, and the establishment of its connection, if there was one, is between them. -/
structure Ordered (m : Metrics) : Prop where
  started : 0 < m.start
  ends : m.start ≤ m.stop
  established : m.handshake = 0 ∨ m.start ≤ m.handshake ∧ m.handshake ≤ m.stop

theorem ordered_iff (m : Metrics) :
    m.Ordered ↔ 0 < m.start.toNat ∧ m.start.toNat ≤ m.stop.toNat ∧
      (m.handshake.toNat = 0 ∨ m.start.toNat ≤ m.handshake.toNat ∧ m.handshake.toNat ≤ m.stop.toNat) := by
  have hz : m.handshake = 0 ↔ m.handshake.toNat = 0 := by rw [← UInt64.toNat_inj]; rfl
  rw [← UInt64.le_iff_toNat_le, ← UInt64.le_iff_toNat_le, ← UInt64.le_iff_toNat_le, ← hz]
  exact ⟨fun h => ⟨UInt64.lt_iff_toNat_lt.1 h.started, h.ends, h.established⟩,
    fun ⟨hstarted, hends, hestablished⟩ => ⟨UInt64.lt_iff_toNat_lt.2 hstarted, hends, hestablished⟩⟩

namespace Ordered

variable {m n : Metrics}

/-- **Put together, partial views are in order if both of them are.** -/
theorem merge (hm : m.Ordered) (hn : n.Ordered) : (m.merge n).Ordered := by
  rw [ordered_iff] at hm hn ⊢
  show 0 < (earlier m.start n.start).toNat ∧ (earlier m.start n.start).toNat ≤ (max m.stop n.stop).toNat ∧
    ((earlier m.handshake n.handshake).toNat = 0 ∨
      (earlier m.start n.start).toNat ≤ (earlier m.handshake n.handshake).toNat ∧
        (earlier m.handshake n.handshake).toNat ≤ (max m.stop n.stop).toNat)
  rw [toNat_max, toNat_earlier, toNat_earlier, if_neg (by omega), if_neg (by omega)]
  split
  · omega
  · split <;> omega

theorem mergeable : Mergeable fun _ m => m.Ordered := fun _ _ _ => .merge

/-- The first packet is start and end, and if it establishes a connection, it does so at that time. -/
theorem ofFirst (o : Observation) (htime : o.time ≠ 0) (errno : UInt8) : Ordered { Metrics.ofFirst o with errno } where
  started := UInt64.pos_iff_ne_zero.2 htime
  ends := UInt64.le_refl _
  established := by
    show (if o.handshake then o.time else 0) = 0 ∨
      o.time ≤ (if o.handshake then o.time else 0) ∧ (if o.handshake then o.time else 0) ≤ o.time
    cases o.handshake
    · exact .inl rfl
    · exact .inr ⟨UInt64.le_refl _, UInt64.le_refl _⟩

/-- A packet that does not come before the last one becomes the end. -/
theorem add {o : Observation} (hm : m.Ordered) (hstop : m.stop ≤ o.time) : (m.add o).Ordered := by
  have hstart : m.start ≠ 0 := UInt64.pos_iff_ne_zero.1 hm.started
  have hends : m.start ≤ o.time := UInt64.le_trans hm.ends hstop
  have hadd : (m.add o).start = m.start := if_neg hstart
  refine ⟨by rw [hadd]; exact hm.started, by rw [hadd]; exact hends, ?_⟩
  have hestablished : (m.add o).handshake = o.time ∨ (m.add o).handshake = m.handshake := ite_eq_or_eq _ _ _
  show (m.add o).handshake = 0 ∨ (m.add o).start ≤ (m.add o).handshake ∧ (m.add o).handshake ≤ o.time
  rw [hadd]
  rcases hestablished with h | h <;> rw [h]
  · exact .inr ⟨hends, UInt64.le_refl _⟩
  · exact hm.established.imp_right fun ⟨hlow, hhigh⟩ => ⟨hlow, UInt64.le_trans hhigh hstop⟩

theorem handshake_le (hm : m.Ordered) : m.handshake ≤ m.stop := by
  rcases hm.established with h | h
  · rw [h]
    exact UInt64.zero_le
  · exact h.2

end Ordered
end Flow.Metrics

/-- What a clock that does not go back keeps: the metrics are in order, and have ended by now. -/
theorem Flow.sustained_ordered : Sustained (· ≤ ·) fun now _ m => m.Ordered ∧ m.stop ≤ now where
  first hnow hp errno := by
    obtain ⟨c, -, he⟩ := Option.map_eq_some_iff.1 hp
    cases he
    exact ⟨.ofFirst _ hnow errno, UInt64.le_refl _⟩
  add hnow hp hm := by
    obtain ⟨c, -, he⟩ := Option.map_eq_some_iff.1 hp
    cases he
    exact ⟨hm.1.add hm.2, UInt64.le_refl _⟩
  later hR hm := ⟨hm.1, UInt64.le_trans hm.2 hR⟩

/-- **On the wall clock, a flow starts before it ends and lasts just as long.** -/
theorem Export.Report.Dated.lasts {boot : WallTime} {r : Report} (h : r.Dated boot) (hm : r.metrics.Ordered) :
    r.start ≤ r.stop ∧ r.stop.toNanos - r.start.toNanos = (r.metrics.stop - r.metrics.start).toNat := by
  have hstart := WallTime.toNanos_of_later h.start
  have hstop := WallTime.toNanos_of_later h.stop
  have hends := UInt64.le_iff_toNat_le.1 hm.ends
  rw [Duration.toNanos_ofNanos] at hstart hstop
  rw [WallTime.le_iff_toNanos_le, UInt64.toNat_sub_of_le _ _ hm.ends]
  omega

namespace MeterBank

/-- **The times of a flow are in order throughout**, as long as no clock of a meter shows zero or goes back.  What an outlet shows
lasts on the wall clock from the first packet to the last. -/
theorem ordered_throughout (settings : List (MeterSettings × List UInt32)) (slots : Nat) (steps : List BankStep)
    (hclock : ∀ i < settings.length, (BankStep.timesAt i steps).Pairwise (· ≤ ·) ∧ 0 ∉ BankStep.timesAt i steps) :
    let t := (start settings slots).follow steps
    Throughout (fun _ m => m.Ordered) t ∧
      ∀ (o : Agent.Outlet) (intake : List Agent.OutletStep), o.held = [] →
        (∀ s ∈ intake, ∀ e ∈ s.given, t.Made e.1 e.2) → ∀ r ∈ shownReports (o.follow intake).notices,
          r.start ≤ r.stop ∧ r.stop.toNanos - r.start.toNanos = (r.metrics.stop - r.metrics.start).toNat := by
  obtain ⟨since, h⟩ := (Holds.start settings slots _).follow Flow.sustained_ordered steps (ticks_start slots hclock)
  have hthroughout : Throughout (fun _ m => m.Ordered) ((start settings slots).follow steps) := by
    refine .of_parts Flow.Metrics.Ordered.mergeable fun e he => ?_
    obtain ⟨-, hordered, -⟩ := h.parts e he
    exact hordered
  refine ⟨hthroughout, fun o intake hheld hgiven r hr => ?_⟩
  obtain ⟨hordered, hdated⟩ := (hthroughout.outlet o intake hheld hgiven).shown r hr
  exact hdated.lasts hordered

/-- One flow goes through two shards whose clocks are far apart, and a packet of another flow finds no room. -/
theorem ordered_throughout_two_clocks :
    let packet (ingredient : Frame.Ingredient) : Packet :=
      { frame := (Frame.Recipe.add { src := #v[10, 0, 0, 1], dst := #v[10, 0, 0, 2] } ingredient).frame
        length := 60, interface := 1, direction := .ingress }
    let settings : List (MeterSettings × List UInt32) := [({ capacity := 1 }, []), ({ capacity := 1 }, [])]
    let steps : List BankStep :=
      [.process 0 ⟨700, 0⟩ none (packet (.tcp 80 999 55 0x12)), .process 1 ⟨2, 0⟩ none (packet (.tcp 80 999 56 0x10)),
        .process 1 ⟨4, 0⟩ none (packet (.tcp 80 999 57 0x12)), .process 0 ⟨700, 0⟩ none (packet (.udp 53 999)),
        .evict 1, .evict 0]
    let t := (start settings 4).follow steps
    (∀ i < settings.length, (BankStep.timesAt i steps).Pairwise (· ≤ ·) ∧ 0 ∉ BankStep.timesAt i steps) ∧
      t.queue.records.map (fun r => (r.metrics.start, r.metrics.stop)) = [(700, 700)] ∧
      (Flow.Merged.ofShards t.views).entries.map (fun e => (e.2.start, e.2.handshake, e.2.stop)) = [(2, 4, 700)] ∧
      Throughout (fun _ m => m.Ordered) t ∧
      ∀ (o : Agent.Outlet) (intake : List Agent.OutletStep), o.held = [] →
        (∀ s ∈ intake, ∀ e ∈ s.given, t.Made e.1 e.2) → ∀ r ∈ shownReports (o.follow intake).notices,
          r.start ≤ r.stop ∧ r.stop.toNanos - r.start.toNanos = (r.metrics.stop - r.metrics.start).toNat := by
  intro packet settings steps t
  have hclock : ∀ i < settings.length,
      (BankStep.timesAt i steps).Pairwise (· ≤ ·) ∧ 0 ∉ BankStep.timesAt i steps := by decide +kernel
  exact ⟨hclock, by decide +kernel, by decide +kernel, ordered_throughout settings 4 steps hclock⟩

end MeterBank
end FlowMeter
