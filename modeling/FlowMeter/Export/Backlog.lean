import FlowMeter.Export.Report
import FlowMeter.Flow.Merge
import FlowMeter.Logged
/-!
# Backlog of overflow records

Records that came through an overflow channel are put together until the shards are emptied the next time, or until there
are as many flows as the backlog may hold.
-/
namespace FlowMeter.Export

/-- Where flows are exported: the names of the interfaces, and the wall-clock time of monotonic zero. -/
structure Place where
  name : UInt32 → String
  boot : WallTime

structure Backlog where
  limit : Nat
  flows : Flow.Merged := ∅
  deriving Inhabited

namespace Backlog

def size (b : Backlog) : Nat := b.flows.size

def add (b : Backlog) (r : Flow.Record) : Backlog := { b with flows := b.flows.add r.id r.metrics }

/-- The backlog has as many flows as it may hold. -/
def full (b : Backlog) : Bool := b.limit ≤ b.size

def emptied (b : Backlog) : Backlog := { b with flows := ∅ }

def combined (b : Backlog) (snapshot : Flow.Merged) : Flow.Merged :=
  Flow.Merged.ofShards [snapshot.entries, b.flows.entries]

/-- The flows of shards and backlog together, to be exported. -/
def reports (b : Backlog) (place : Place) (snapshot : Flow.Merged) : Except TimeFault (List Report) :=
  (b.combined snapshot).entries.mapM fun (id, m) => Report.ofFlow place.boot (place.name id.interface) id m

/-- Takes all that the backlog holds, together with the shards. -/
def evict (b : Backlog) (place : Place) (snapshot : Flow.Merged) : Except TimeFault (Backlog × List Report) := do
  let reports ← b.reports place snapshot
  return (b.emptied, reports)

/-- Takes an overflow record in; a backlog that becomes full is evicted at once. -/
def account (b : Backlog) (place : Place) (r : Flow.Record) : Logged TimeFault (Backlog × Option (List Report)) := do
  let b := b.add r
  if b.full then
    Logged.tell [.backlogFull b.size]
    let (b, reports) ← Logged.ofExcept (b.evict place ∅)
    return (b, some reports)
  else
    return (b, none)

end Backlog
end FlowMeter.Export
