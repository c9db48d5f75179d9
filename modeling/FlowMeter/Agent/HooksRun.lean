import FlowMeter.Agent.Event
import FlowMeter.Agent.Outlet
import FlowMeter.Kernel.Forwarder
import FlowMeter.Kernel.SampleReader
/-!
# A run on the hooks of an interface

The kernel counts flows in its map, and what finds no place there comes through the ring: the forwarder takes steps
(`HooksRun.forward`), its records are received one by one (`HooksRun.receive`), and the map is emptied when it is due
(`HooksRun.due`).  At the end the records that wait in the channel are received and the map is emptied once more
(`HooksRun.finish`).
-/
namespace FlowMeter.Agent

structure HooksRun where
  loaded : Kernel.Loaded
  /-- Failures while the map is read. -/
  faults : Kernel.ReadFaults
  /-- Buffers of samples that are read, one for each processor. -/
  buffers : Nat
  timetable : Timetable
  now : UInt64
  forwarder : Kernel.Forwarder
  outlet : Outlet

namespace HooksRun

def forward (a : HooksRun) : Logged Failure HooksRun := do
  let (forwarder, notices) := a.forwarder.step
  Logged.tell notices
  return { a with forwarder }

/-- Receives one record, if there is one. -/
def receive (a : HooksRun) : Logged Failure HooksRun :=
  match a.forwarder.receive? with
  | none => pure a
  | some (r, forwarder) => do
    let outlet ← a.outlet.account a.now r
    return { a with forwarder, outlet }

/-- The forwarder takes steps, and one record is received after each. -/
def rounds : Nat → HooksRun → Logged Failure HooksRun
  | 0, a => pure a
  | n + 1, a => do rounds n (← (← a.forward).receive)

/-- All that is in the ring is forwarded and received. -/
def settle (a : HooksRun) : Logged Failure HooksRun := rounds a.forwarder.stepsLeft a

def empty (a : HooksRun) : Logged Failure (HooksRun × List Flow.Snapshot) := do
  let (loaded, shards) := a.loaded.evict a.faults
  let shards ← shards.mapError .kernel
  return ({ a with loaded }, shards)

/-- Empties the map, and exports what was in it. -/
def flush (a : HooksRun) : Logged Failure HooksRun := do
  let (a, shards) ← a.empty
  let outlet ← a.outlet.evict a.now shards
  return { a with outlet }

def due (a : HooksRun) : Logged Failure HooksRun := { a with now := a.timetable.next a.now }.flush

def count (a : HooksRun) (row : Flow.Id × List Flow.Metrics) : HooksRun :=
  { a with loaded := { a.loaded with flows := a.loaded.flows.setRow row.1 row.2 } }

/-- What is told of a processor's buffer; one that nobody reads is not told of. -/
def sampleNotices (a : HooksRun) (cpu : Nat) (lost : UInt64) (events : List Octets) : List Notice :=
  if cpu < a.buffers then Kernel.SampleReader.buffer cpu lost events else []

/-- What an event does, up to the point where all is at rest again. -/
def step (a : HooksRun) : Event → Logged Failure HooksRun
  | .counted rows => pure (rows.foldl count a)
  | .spilled entries => { a with forwarder := a.forwarder.arrive entries }.settle
  | .sampled cpu lost events => do
    Logged.tell (a.sampleNotices cpu lost events)
    return a
  | .passed nanos => pure { a with now := a.now + nanos }
  | .due => a.due
  | .arrival .. | .release => pure a

def finish (a : HooksRun) : Logged Failure HooksRun := do
  Logged.tell [.exiting]
  let (records, forwarder) := a.forwarder.drain
  let outlet ← a.outlet.accountAll a.now records
  { a with forwarder, outlet }.flush

end HooksRun
end FlowMeter.Agent
