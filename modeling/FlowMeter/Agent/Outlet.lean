import FlowMeter.Agent.Failure
import FlowMeter.Export.Exporter
/-!
# The way out of a run

The exporter at its place.  Records of single packets are accounted as they come (`Outlet.account`), and all shards go out
together, merged (`Outlet.evict`).
-/
namespace FlowMeter.Agent

structure Outlet where
  exporter : Export.Exporter
  place : Export.Place

namespace Outlet

def account (o : Outlet) (now : UInt64) (r : Flow.Record) : Logged Failure Outlet := do
  let (exporter, _) ← (o.exporter.account o.place ⟨now.toNat⟩ r).mapError .time
  return { o with exporter }

def accountAll (o : Outlet) (now : UInt64) : List Flow.Record → Logged Failure Outlet
  | [] => pure o
  | r :: rest => do (← o.account now r).accountAll now rest

def evict (o : Outlet) (now : UInt64) (shards : List Flow.Snapshot) : Logged Failure Outlet := do
  let (exporter, _) ← (o.exporter.evict o.place ⟨now.toNat⟩ (Flow.Merged.ofShards shards)).mapError .time
  return { o with exporter }

end Outlet
end FlowMeter.Agent
