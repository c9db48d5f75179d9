import FlowMeter.Flow.Record
import FlowMeter.Refusal
import FlowMeter.Table
/-!
# Shards

The flows that one execution unit keeps, at most as many as its capacity.  `Shard.apply` counts one packet: in its flow if
the shard keeps it, else as a new flow if there is room, and otherwise the packet leaves as a record of its own.
-/
namespace FlowMeter

structure Shard where
  capacity : Nat
  flows : Table Flow.Id Flow.Metrics := ∅
  deriving Inhabited

inductive Applied where
  /-- Counted in a flow that the shard kept already. -/
  | updated
  | inserted
  /-- The flow is kept, but its new metrics were refused; the packet counts nowhere. -/
  | updateRefused (refusal : Refusal)
  /-- The new flow was refused; the record is to travel by itself. -/
  | overflow (refusal : Refusal) (record : Flow.Record)
  deriving DecidableEq, Repr

namespace Shard

def size (s : Shard) : Nat := s.flows.size

/-- Writes the metrics of a flow; only a flow that is new to a full shard is refused. -/
def write (s : Shard) (id : Flow.Id) (m : Flow.Metrics) : Except Refusal Shard :=
  if s.flows.contains id ∨ s.size < s.capacity then .ok { s with flows := s.flows.insert id m } else .error Refusal.full

/-- A write that something outside the shard may refuse first. -/
def writeUnless (s : Shard) (refusal : Option Refusal) (id : Flow.Id) (m : Flow.Metrics) : Except Refusal Shard :=
  match refusal with
  | some r => .error r
  | none => s.write id m

/-- The record of a packet whose new flow was refused. -/
def refusedRecord (id : Flow.Id) (o : Flow.Observation) (r : Refusal) : Flow.Record where
  id
  metrics := { Flow.Metrics.ofFirst o with errno := r.stamp }

def apply (s : Shard) (refusal : Option Refusal) (id : Flow.Id) (o : Flow.Observation) : Shard × Applied :=
  match s.flows.get? id with
  | some m =>
    match s.writeUnless refusal id (m.add o) with
    | .ok s' => (s', .updated)
    | .error r => (s, .updateRefused r)
  | none =>
    match s.writeUnless refusal id (Flow.Metrics.ofFirst o) with
    | .ok s' => (s', .inserted)
    | .error r => (s, .overflow r (refusedRecord id o r))

/-- The flows kept, as they leave the shard. -/
def snapshot (s : Shard) : List (Flow.Id × Flow.Metrics) := s.flows.entries

def emptied (s : Shard) : Shard := { s with flows := ∅ }

end Shard
end FlowMeter
