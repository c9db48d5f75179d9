/-!
# Times

Durations, wall-clock times and instants of the monotonic clock, all to the nanosecond and all of bounded width: a sum that
does not fit is a fault.  Main lemmas: `WallTime.toNanos_of_later`, `WallTime.later_eq_error_iff`.
-/
namespace FlowMeter

abbrev second : Nat := 1000000000

/-- The time that does not fit. -/
inductive TimeFault where
  | instant
  | wallTime
  | scaled
  deriving DecidableEq, Repr

def TimeFault.message : TimeFault → String
  | .instant => "overflow when adding duration to instant"
  | .wallTime => "overflow when adding duration to `SystemTime`"
  | .scaled => "overflow when multiplying duration by scalar"

structure Duration where
  secs : UInt64
  nanos : Fin second := 0
  deriving DecidableEq, Repr, Inhabited

namespace Duration

def ofSecs (secs : UInt64) : Duration where
  secs

def ofNanos (n : UInt64) : Duration where
  secs := UInt64.ofNat (n.toNat / second)
  nanos := Fin.ofNat second n.toNat

def toNanos (d : Duration) : Nat := d.secs.toNat * second + d.nanos.val

def isZero (d : Duration) : Bool := d.secs = 0 ∧ d.nanos = 0

def twice (d : Duration) : Except TimeFault Duration :=
  let total := 2 * d.toNanos
  if total / second < UInt64.size then
    .ok { secs := UInt64.ofNat (total / second), nanos := Fin.ofNat second total }
  else .error .scaled

theorem toNanos_ofNanos (n : UInt64) : (ofNanos n).toNanos = n.toNat := by
  have h := n.toNat_lt
  have h1 : n.toNat / second < UInt64.size := by simp only [second, UInt64.size]; omega
  rw [toNanos, ofNanos, UInt64.toNat_ofNat_of_lt' h1]
  simp only [Fin.ofNat, second]
  omega

end Duration

/-- A wall-clock time, counted from the epoch; the seconds are rounded down. -/
structure WallTime where
  secs : Int64
  nanos : Fin second := 0
  deriving DecidableEq, Repr, Inhabited

namespace WallTime

def epoch : WallTime where
  secs := 0

def toNanos (t : WallTime) : Int := t.secs.toInt * second + t.nanos.val

/-- The time so many nanoseconds after the epoch, if its seconds fit. -/
def ofNanos? (n : Int) : Option WallTime :=
  let secs := n.fdiv second
  if Int64.minValue.toInt ≤ secs ∧ secs ≤ Int64.maxValue.toInt then
    some { secs := Int64.ofInt secs, nanos := Fin.ofNat second (n.fmod second).toNat }
  else none

def later (t : WallTime) (d : Duration) : Except TimeFault WallTime :=
  let nanos := t.nanos.val + d.nanos.val
  let secs := t.secs.toInt + d.secs.toNat + (nanos / second : Nat)
  if secs ≤ Int64.maxValue.toInt then .ok { secs := Int64.ofInt secs, nanos := Fin.ofNat second nanos } else .error .wallTime

/-- The time a duration earlier, if there is one. -/
def earlier? (t : WallTime) (d : Duration) : Option WallTime :=
  ofNanos? (t.toNanos - d.toNanos)

/-- Whole milliseconds since the epoch; zero before it. -/
def epochMillis (t : WallTime) : Nat := t.toNanos.toNat / 1000000

theorem toNanos_add (t : WallTime) (d : Duration) :
    t.toNanos + d.toNanos =
      (t.secs.toInt + d.secs.toNat + ((t.nanos.val + d.nanos.val) / second : Nat)) * second +
        ((t.nanos.val + d.nanos.val) % second : Nat) := by
  simp only [toNanos, Duration.toNanos, second]
  omega

/-- **A later time is later by the whole duration.** -/
theorem toNanos_of_later {t u : WallTime} {d : Duration} (h : t.later d = .ok u) :
    u.toNanos = t.toNanos + d.toNanos := by
  simp only [later] at h
  split at h
  · rename_i hle
    have hlow := t.secs.le_toInt
    have hcarry : (0 : Int) ≤ ((t.nanos.val + d.nanos.val) / second : Nat) := Int.natCast_nonneg _
    have hmax : Int64.maxValue.toInt = 9223372036854775807 := rfl
    obtain rfl := Except.ok.inj h
    rw [toNanos_add, toNanos, Int64.toInt_ofInt_of_le (by omega) (by omega)]
    simp only [Fin.ofNat]
  · contradiction

/-- **Only a time beyond the last second there is cannot be reached.** -/
theorem later_eq_error_iff (t : WallTime) (d : Duration) :
    t.later d = .error .wallTime ↔ (Int64.maxValue.toInt + 1) * second ≤ t.toNanos + d.toNanos := by
  have hlt : (t.nanos.val + d.nanos.val) % second < second := Nat.mod_lt _ (by decide)
  rw [toNanos_add]
  unfold later
  simp only [second] at *
  split
  · simp
    omega
  · simp
    omega

/-- The wall-clock time of monotonic zero, from a reading of both clocks; the epoch if it would lie too far back. -/
def boot (wall : WallTime) (monotonic : UInt64) : WallTime :=
  (wall.earlier? (Duration.ofNanos monotonic)).getD epoch

def ofMonotonic (boot : WallTime) (monotonic : UInt64) : Except TimeFault WallTime :=
  boot.later (Duration.ofNanos monotonic)

end WallTime

/-- A reading of the monotonic clock, in nanoseconds. -/
structure Instant where
  nanos : Nat
  deriving DecidableEq, Repr, Inhabited

namespace Instant

instance : LE Instant := ⟨fun a b => a.nanos ≤ b.nanos⟩
instance (a b : Instant) : Decidable (a ≤ b) := inferInstanceAs (Decidable (a.nanos ≤ b.nanos))

/-- The instant a duration later; its seconds have 63 bits. -/
def later (i : Instant) (d : Duration) : Except TimeFault Instant :=
  let sum := i.nanos + d.toNanos
  if (sum / second : Nat) ≤ Int64.maxValue.toInt then .ok ⟨sum⟩ else .error .instant

end Instant
end FlowMeter
