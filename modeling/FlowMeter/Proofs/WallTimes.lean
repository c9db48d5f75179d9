import FlowMeter.Proofs.FlowTimes
import FlowMeter.Proofs.TimeFaults
/-!
# Monotonic times on the wall clock

A time of the monotonic clock stands on the wall clock that many nanoseconds behind the boot, also when the boot was before the
epoch, unless its seconds pass the last one there is (`WallTime.ofMonotonic_eq_ok_iff`).  The first word of a flow's line are the
whole milliseconds of its start (`Export.Report.exists_line_eq`).
-/
namespace FlowMeter

namespace WallTime

instance : LT WallTime := ⟨fun t u => t.secs < u.secs ∨ t.secs = u.secs ∧ t.nanos < u.nanos⟩

theorem lt_iff_toNanos_lt (t u : WallTime) : t < u ↔ t.toNanos < u.toNanos := by
  have ht := t.nanos.isLt
  have hu := u.nanos.isLt
  show t.secs < u.secs ∨ t.secs = u.secs ∧ t.nanos < u.nanos ↔ _
  rw [Int64.lt_iff_toInt_lt, ← Int64.toInt_inj, Fin.lt_def]
  unfold toNanos
  simp only [second] at *
  omega

theorem toNanos_injective {t u : WallTime} (h : t.toNanos = u.toNanos) : t = u := by
  obtain ⟨tsecs, tnanos, ht⟩ := t
  obtain ⟨usecs, unanos, hu⟩ := u
  simp only [toNanos, second] at h ht hu
  have hsecs : tsecs = usecs := Int64.toInt_inj.1 (by omega)
  have hnanos : tnanos = unanos := by omega
  subst hsecs hnanos
  rfl

theorem toNanos_lt (t : WallTime) : t.toNanos < 2 ^ 63 * second := by
  have hsecs := t.secs.toInt_lt
  have hnanos := t.nanos.isLt
  simp only [toNanos, second] at *
  omega

variable (boot : WallTime) (m : UInt64)

/-- **A time cannot be told just if its whole seconds do not fit.** -/
theorem ofMonotonic_eq_error_iff :
    boot.ofMonotonic m = .error .wallTime ↔ 2 ^ 63 - 1 < (boot.toNanos + m.toNat) / second := by
  have hmax : Int64.maxValue.toInt = 2 ^ 63 - 1 := rfl
  rw [ofMonotonic, later_eq_error_iff, Duration.toNanos_ofNanos, hmax]
  simp only [second]
  omega

/-- **The time on the wall clock is as many nanoseconds behind the boot.** -/
theorem ofMonotonic_eq_ok_iff (t : WallTime) : boot.ofMonotonic m = .ok t ↔ t.toNanos = boot.toNanos + m.toNat := by
  constructor
  · intro h
    rw [toNanos_of_later h, Duration.toNanos_ofNanos]
  · intro h
    cases hm : boot.ofMonotonic m with
    | ok u =>
      have hu := toNanos_of_later hm
      rw [Duration.toNanos_ofNanos] at hu
      rw [toNanos_injective (h.trans hu.symm)]
    | error e =>
      obtain rfl := eq_wallTime_of_later hm
      have hlast := (boot.ofMonotonic_eq_error_iff m).1 hm
      have ht := t.toNanos_lt
      rw [← h] at hlast
      simp only [second] at hlast ht
      omega

theorem exists_ofMonotonic_iff :
    (∃ t, boot.ofMonotonic m = .ok t) ↔ (boot.toNanos + m.toNat) / second ≤ 2 ^ 63 - 1 := by
  rw [← Int.not_lt, ← boot.ofMonotonic_eq_error_iff m]
  cases hm : boot.ofMonotonic m with
  | ok t => simp
  | error e => simp [eq_wallTime_of_later hm]

end WallTime

namespace Export.Report

theorem exists_line_eq (r : Report) : ∃ rest, r.line = toString r.start.epochMillis ++ " " ++ rest :=
  ⟨_, String.intercalate_cons_cons⟩

theorem exists_ofFlow_iff (boot : WallTime) (interface : String) (id : Flow.Id) (m : Flow.Metrics) :
    (∃ r, ofFlow boot interface id m = .ok r) ↔
      (∃ t, boot.ofMonotonic m.start = .ok t) ∧ ∃ t, boot.ofMonotonic m.stop = .ok t := by
  constructor
  · rintro ⟨r, hr⟩
    obtain ⟨hentry, hdated⟩ := eq_of_ofFlow hr
    cases hentry
    exact ⟨⟨r.start, hdated.start⟩, ⟨r.stop, hdated.stop⟩⟩
  · intro hm
    obtain ⟨r, hr, -⟩ := ofFlow_datable hm interface id
    exact ⟨r, hr⟩

end Export.Report

namespace WallTime

open Export (Report)

/-- **Monotonic times are exact on the wall clock.**  A time cannot be told just if the whole seconds of its sum with the boot pass
the last second; every other time is that sum to the nanosecond, with less than a second of nanoseconds.  So the later of two times
is the later one on the wall clock, as much later as it was.  A flow is reported just if its start and its end can be told, and its
line, marked or not, begins with the whole milliseconds from the epoch to its start, or with zero if that was before the epoch. -/
theorem ofMonotonic_exact (boot : WallTime) :
    (∀ m : UInt64,
      (boot.ofMonotonic m = .error .wallTime ↔ 2 ^ 63 - 1 < (boot.toNanos + m.toNat) / second) ∧
      ((∃ t, boot.ofMonotonic m = .ok t) ↔ (boot.toNanos + m.toNat) / second ≤ 2 ^ 63 - 1) ∧
      ∀ t, boot.ofMonotonic m = .ok t ↔ t.toNanos = boot.toNanos + m.toNat ∧ t.nanos.val ≤ 999999999) ∧
    (∀ m n t u, boot.ofMonotonic m = .ok t → boot.ofMonotonic n = .ok u →
      (t < u ↔ m < n) ∧ u.toNanos - t.toNanos = (n.toNat : Int) - m.toNat) ∧
    ∀ (interface : String) (id : Flow.Id) (m : Flow.Metrics),
      ((∃ r, Report.ofFlow boot interface id m = .ok r) ↔
        (boot.toNanos + m.start.toNat) / second ≤ 2 ^ 63 - 1 ∧ (boot.toNanos + m.stop.toNat) / second ≤ 2 ^ 63 - 1) ∧
      ∀ r, Report.ofFlow boot interface id m = .ok r → ∀ duplicate, ∃ rest,
        { r with duplicate }.line = toString (max 0 (boot.toNanos + m.start.toNat) / 1000000).toNat ++ " " ++ rest := by
  refine ⟨fun m => ⟨boot.ofMonotonic_eq_error_iff m, boot.exists_ofMonotonic_iff m, fun t => ?_⟩, ?_, ?_⟩
  · have hnanos : t.nanos.val ≤ 999999999 := Nat.le_of_lt_succ t.nanos.isLt
    rw [ofMonotonic_eq_ok_iff, and_iff_left hnanos]
  · intro m n t u ht hu
    rw [ofMonotonic_eq_ok_iff] at ht hu
    rw [lt_iff_toNanos_lt, UInt64.lt_iff_toNat_lt]
    omega
  · intro interface id m
    refine ⟨?_, fun r hr duplicate => ?_⟩
    · rw [Report.exists_ofFlow_iff, exists_ofMonotonic_iff, exists_ofMonotonic_iff]
    · obtain ⟨hentry, hdated⟩ := Report.eq_of_ofFlow hr
      cases hentry
      have hstart := (boot.ofMonotonic_eq_ok_iff _ _).1 hdated.start
      have hmillis : r.start.epochMillis = (max 0 (boot.toNanos + r.metrics.start.toNat) / 1000000).toNat := by
        rw [epochMillis, hstart]
        omega
      rw [← hmillis]
      exact Report.exists_line_eq { r with duplicate }

/-- One nanosecond before the epoch, and the last two nanoseconds that there are. -/
theorem ofMonotonic_exact_boundaries :
    let before : WallTime := { secs := -1, nanos := 999999999 }
    let last : WallTime := { secs := 9223372036854775807, nanos := 999999998 }
    let m : Flow.Metrics := { start := 1000000, stop := 1000001 }
    (before.ofMonotonic 0 = .ok before ∧ before.ofMonotonic 1 = .ok epoch ∧ before < epoch ∧
        epoch.toNanos - before.toNanos = 1) ∧
      ((∃ t, last.ofMonotonic 1 = .ok t) ∧ last.ofMonotonic 2 = .error .wallTime) ∧
      ∃ r, Report.ofFlow before "eth0" {} m = .ok r ∧ ∃ rest, r.line = "0" ++ " " ++ rest := by
  intro before last m
  obtain ⟨htimes, horder, hreports⟩ := ofMonotonic_exact before
  have hbefore : before.ofMonotonic 0 = .ok before := ((htimes 0).2.2 before).2 (by decide)
  have hepoch : before.ofMonotonic 1 = .ok epoch := ((htimes 1).2.2 epoch).2 (by decide)
  obtain ⟨hlt, hdifference⟩ := horder 0 1 before epoch hbefore hepoch
  obtain ⟨hlast, -, -⟩ := ofMonotonic_exact last
  obtain ⟨hexists, hline⟩ := hreports "eth0" {} m
  obtain ⟨r, hr⟩ := hexists.2 (by decide)
  refine ⟨⟨hbefore, hepoch, hlt.2 (by decide), hdifference⟩, ⟨(hlast 1).2.1.2 (by decide), (hlast 2).1.2 (by decide)⟩, ?_⟩
  have hzero : toString (max 0 (before.toNanos + m.start.toNat) / 1000000).toNat = "0" := by decide
  obtain ⟨rest, hrest⟩ := hline r hr r.duplicate
  rw [hzero] at hrest
  exact ⟨r, hr, rest, hrest⟩

end WallTime
end FlowMeter
