import FlowMeter.Export.Report
import FlowMeter.Table
/-!
# One interface for each flow

A flow may pass several interfaces.  The first one that reports it owns it until nobody has reported the flow for the
expiry time; what the others report meanwhile is a duplicate, and dropped or marked.
-/
namespace FlowMeter.Export

/-- The interface that owns a flow, and until when. -/
structure Owner where
  interface : UInt32
  expires : Instant
  deriving DecidableEq, Repr, Inhabited

structure Dedup where
  expiry : Duration
  /-- Duplicates are marked instead of dropped. -/
  mark : Bool
  owners : Table Flow.Id Owner := ∅
  deriving Inhabited

namespace Dedup

/-- A flow apart from where it was seen. -/
def key (id : Flow.Id) : Flow.Id :=
  { id with direction := 0, srcMac := Vector.replicate 6 0, dstMac := Vector.replicate 6 0, interface := 0 }

/-- Without the owners that expired before now. -/
def sweep (d : Dedup) (now : Instant) : Dedup :=
  { d with owners := d.owners.filter fun _ o => now ≤ o.expires }

/-- A report of a flow from an interface: it keeps its owner, or gets its first one, until the expiry time from now. -/
def see (d : Dedup) (now : Instant) (id : Flow.Id) : Except TimeFault Dedup := do
  let expires ← now.later d.expiry
  return { d with owners := d.owners.upsert (key id) fun
    | some o => { o with expires }
    | none => { interface := id.interface, expires } }

def isDuplicate (d : Dedup) (id : Flow.Id) : Bool :=
  match d.owners.get? (key id) with
  | some o => o.interface ≠ id.interface
  | none => false

/-- What remains of a report, given whether it is a duplicate. -/
def keep? (d : Dedup) (r : Report) (duplicate : Bool) : Option Report :=
  if duplicate then if d.mark then some { r with duplicate := true } else none else some r

def passAll (now : Instant) (d : Dedup) : List Report → Except TimeFault (Dedup × List Report)
  | [] => return (d, [])
  | r :: rest => do
    let d ← d.see now r.id
    let (d', kept) ← passAll now d rest
    return (d', (d.keep? r (d.isDuplicate r.id)).toList ++ kept)

/-- The reports of one period, after the expired owners have been forgotten. -/
def pass (d : Dedup) (now : Instant) (reports : List Report) : Except TimeFault (Dedup × List Report) :=
  passAll now (d.sweep now) reports

end Dedup
end FlowMeter.Export
