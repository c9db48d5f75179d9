import FlowMeter.Flow.Merge
import FlowMeter.Pool.Worker
import FlowMeter.System.Capture
/-!
# Events around a running agent

What happens to an agent while it waits, whatever the source of its flows, and when the shards are due.
-/
namespace FlowMeter.Agent

inductive Event where
  /-- The socket is read; the worker may come to a stand on the packet, or die. -/
  | arrival (arrival : System.Capture.Arrival) (fate : Pool.Fate)
  | release
  /-- The kernel has counted flows, with the values on every processor. -/
  | counted (rows : List (Flow.Id × List Flow.Metrics))
  | spilled (entries : List Octets)
  /-- A processor's buffer of samples. -/
  | sampled (cpu : Nat) (lost : UInt64) (events : List Octets)
  /-- Time passes, and no shards become due. -/
  | passed (nanos : UInt64)
  /-- The time when the shards are due the next time. -/
  | due
  deriving Repr

/-- The shards are due at all multiples of a period after the start. -/
structure Timetable where
  start : UInt64
  period : Duration
  deriving Repr

namespace Timetable

/-- How often the shards have been due until now. -/
def periods (t : Timetable) (now : UInt64) : Nat := (now - t.start).toNat / t.period.toNanos

/-- When the shards are due the next time. -/
def next (t : Timetable) (now : UInt64) : UInt64 :=
  t.start + UInt64.ofNat ((t.periods now + 1) * t.period.toNanos)

/-- How time passes up to a later time. -/
def upTo (t : Timetable) (now later : UInt64) : List Event :=
  let missed := t.periods later - t.periods now
  let last := if missed = 0 then now else t.start + UInt64.ofNat (t.periods later * t.period.toNanos)
  List.replicate missed .due ++ [.passed (later - last)]

end Timetable
end FlowMeter.Agent
