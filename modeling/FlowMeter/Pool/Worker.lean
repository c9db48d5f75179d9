import FlowMeter.Flow.Merge
import FlowMeter.Meter
/-!
# Workers

A worker is the only writer of its shard.  It takes one message after another out of its inbox (`Worker.work`): packets,
which it meters, and requests for all of its flows, which it answers with a snapshot.  It may come to stand on a packet
that it has metered already, and it may die on one; then what waits in its inbox is never handled.
-/
namespace FlowMeter.Pool

/-- What becomes of a worker when it comes to a packet whose record leaves the shard. -/
inductive Fate where
  | proceeds
  /-- It stands still with the record in its hands. -/
  | stalls
  /-- It dies before the record leaves. -/
  | dies
  deriving DecidableEq, Repr

inductive Message where
  | packet (p : Packet) (fate : Fate)
  | evict
  deriving DecidableEq, Repr

inductive Condition where
  | working
  | held (sighting : Sighting)
  | stopped
  deriving DecidableEq, Repr

/-- What all workers share: the clock, and the way out for records. -/
structure Shared where
  clock : Clock
  queue : Overflow.Queue
  deriving Inhabited

structure Worker where
  meter : Meter
  /-- Messages that wait, oldest first. -/
  inbox : List Message := []
  condition : Condition := .working
  /-- Snapshots that have not been collected, oldest first. -/
  replies : List Flow.Snapshot := []

namespace Worker

/-- A packet that has been taken out of the inbox. -/
def meet (w : Worker) (s : Shared) (p : Packet) (fate : Fate) : Worker × Shared :=
  let (meter, clock, sighting) := w.meter.take s.clock none p
  let w := { w with meter }
  match fate with
  | .proceeds => (w, { clock, queue := (Meter.submit s.queue sighting).1 })
  | .stalls => ({ w with condition := .held sighting }, { s with clock })
  | .dies => ({ w with condition := .stopped, inbox := [] }, { s with clock })

/-- The worker's answer to a request for all its flows. -/
def surrender (w : Worker) : Worker :=
  { w with meter := w.meter.emptied, replies := w.replies ++ [w.meter.shard.snapshot] }

/-- One step: the oldest message, if the worker can handle one. -/
def work (w : Worker) (s : Shared) : Worker × Shared :=
  match w.condition, w.inbox with
  | .working, .packet p fate :: rest => { w with inbox := rest }.meet s p fate
  | .working, .evict :: rest => ({ w with inbox := rest }.surrender, s)
  | _, _ => (w, s)

def resume (w : Worker) (s : Shared) : Worker × Shared :=
  match w.condition with
  | .held sighting => ({ w with condition := .working }, { s with queue := (Meter.submit s.queue sighting).1 })
  | _ => (w, s)

/-- Steps until the inbox is empty, unless the worker comes to a stand. -/
def finish (w : Worker) (s : Shared) : Worker × Shared :=
  w.inbox.length.repeat (fun (w, s) => w.work s) (w, s)

end Worker
end FlowMeter.Pool
