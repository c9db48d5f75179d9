import FlowMeter.Flow.Record
import FlowMeter.Table
/-!
# Putting partial views together

Shards and periods each see a part of a flow.  `Merged.ofShards` puts the parts together, one entry for each flow.
-/
namespace FlowMeter.Flow

/-- A partial view: flows with their metrics. -/
abbrev Snapshot := List (Id × Metrics)

/-- One entry for each flow. -/
abbrev Merged := Table Id Metrics

namespace Merged

def add (t : Merged) (id : Id) (m : Metrics) : Merged :=
  t.upsert id fun
    | some kept => kept.merge m
    | none => m

/-- The entries of a partial view, one after another. -/
def addAll (t : Merged) (s : Snapshot) : Merged := s.foldl (fun t e => t.add e.1 e.2) t

def ofShards (shards : List Snapshot) : Merged := shards.foldl addAll ∅

end Merged

/-- Flows whose metrics come as one value for each unit of execution, as one partial view for each unit.  A unit that
counted nothing for a flow leaves it out; there are as many views as the longest row has values. -/
def splitRows (rows : List (Id × List Metrics)) : List Snapshot :=
  let units := rows.foldl (fun n row => max n row.2.length) 0
  (List.range units).map fun unit =>
    rows.filterMap fun row =>
      match row.2[unit]? with
      | some m => if m.packets ≠ 0 then some (row.1, m) else none
      | none => none

end FlowMeter.Flow
