import FlowMeter.Flow.Record
import FlowMeter.Meter
import FlowMeter.Time
/-!
# Settings of a run

What a run is told, and when it makes sense.  `Settings.invalid?` names the first thing that does not.
-/
namespace FlowMeter

/-- What happens to a flow that several interfaces report. -/
inductive DedupMode where
  | off
  | firstCome
  deriving DecidableEq, Repr, Inhabited

structure Settings where
  meter : MeterSettings := {}
  /-- Time between two evictions of the shards. -/
  evictEvery : Duration := .ofSecs 5
  overflowOctets : Nat := 16777216
  dedup : DedupMode := .off
  /-- How long the owner of a flow is remembered. -/
  dedupExpiry : Duration := .ofSecs 10
  dedupMark : Bool := false
  deriving DecidableEq, Repr, Inhabited

namespace Settings

/-- A setting with which no run makes sense. -/
inductive Invalid where
  | noFlows
  | noTimeout
  | noRecord
  | noExpiry
  deriving DecidableEq, Repr

def Invalid.message : Invalid → String
  | noFlows => "cache max flows must be greater than zero"
  | noTimeout => "cache active timeout must be greater than zero"
  | noRecord => s!"overflow buffer must hold at least one {Flow.Record.layout.size}-byte record"
  | noExpiry => "deduper expiry must be greater than zero"

/-- The first setting with which the run makes no sense. -/
def invalid? (s : Settings) : Option Invalid :=
  if s.meter.capacity = 0 then some .noFlows
  else if s.evictEvery.isZero then some .noTimeout
  else if s.overflowOctets < Flow.Record.layout.size then some .noRecord
  else if s.dedup = .firstCome ∧ s.dedupExpiry.isZero then some .noExpiry
  else none

/-- Whole records that fit into the overflow channel. -/
def overflowSlots (s : Settings) : Nat := s.overflowOctets / Flow.Record.layout.size

end Settings
end FlowMeter
