import FlowMeter.Agent.HooksRun
import FlowMeter.Agent.SocketRun
import FlowMeter.CommandLine.AgentOptions
/-!
# Runs of the agent

A run is launched on the source that its options name (`Run.launch`), takes one event after another (`Run.step`) and ends when
it is asked to (`Run.finish`).  `Run.whole` is all of that.
-/
namespace FlowMeter.Agent

open FlowMeter.CommandLine (AgentOptions Directions FlowSource)
open FlowMeter.System (Errno Interfaces)

/-- What a run finds around it. -/
structure Surroundings where
  interfaces : Interfaces
  /-- The two clocks at the start. -/
  wall : WallTime
  monotonic : UInt64
  /-- Random numbers for every worker. -/
  draws : List UInt32 := []
  cpus : Nat
  /-- Object files by their paths. -/
  objects : String → Option Kernel.ObjectFile
  captureFaults : System.Capture.Faults := {}
  kernelFaults : Kernel.Faults := {}
  readFaults : Kernel.ReadFaults := {}
  /-- The limit on locked memory cannot be lifted. -/
  memoryLimited : Bool := false
  /-- Buffers of samples cannot be opened. -/
  bufferFault : Option Errno := none

inductive Run where
  | socket (a : SocketRun)
  | hooks (a : HooksRun)

namespace Run

def outlet (s : Settings) (x : Surroundings) : Outlet where
  exporter := Export.Exporter.ofSettings s
  place := { name := x.interfaces.nameOf, boot := WallTime.boot x.wall x.monotonic }

def timetable (s : Settings) (x : Surroundings) : Timetable where
  start := x.monotonic
  period := s.evictEvery

/-- A run, and the object that was loaded for it. -/
structure Launched where
  loaded : Option Kernel.Loaded := none
  run : Logged Failure Run

def launchSocket (s : Settings) (x : Surroundings) (interface : String) (workers room : Nat) : Logged Failure Run := do
  let index ← Logged.ofExcept ((System.Capture.bind x.interfaces x.captureFaults interface).mapError (.capture interface))
  let shared : Pool.Shared := { clock := { now := x.monotonic }, queue := Overflow.Queue.ofSize s.overflowOctets }
  let pool := Pool.start workers room s.meter x.draws shared
  Logged.tell [.capturing interface index pool.workers.length, .waiting]
  return .socket
    { interface := index, trace := s.meter.trace, timetable := timetable s x, pool, outlet := outlet s x }

def hooksOf (d : Directions) (samples : Bool) : Kernel.Hooks where
  ingress := d ≠ .egress
  egress := d ≠ .ingress
  samples

/-- All that is done with a loaded object before the run. -/
def prepare (x : Surroundings) (interface : String) (hooks : Kernel.Hooks) : Kernel.Loaded.Call :=
  Kernel.Loaded.takeFlows
    |>.andThen (Kernel.Loaded.attach x.interfaces x.kernelFaults interface hooks)
    |>.andThen Kernel.Loaded.takeRing
    |>.andThen (if hooks.samples then Kernel.Loaded.takeSamples else Kernel.Loaded.Call.nothing)

def openBuffers (x : Surroundings) : Logged Failure Unit :=
  match x.bufferFault with
  | some e => Logged.fail (.buffer e)
  | none => pure ()

def launchHooks (s : Settings) (x : Surroundings) (interface object : String) (hooks : Kernel.Hooks) : Launched :=
  let limit := Logged.tell (if x.memoryLimited then [.memoryLimitKept] else [])
  match Kernel.Loaded.ofFile object (x.objects object) s.meter x.cpus with
  | .error e =>
    { run := do
        limit
        Logged.fail (.kernel e) }
  | .ok l =>
    let (l, prepared) := prepare x interface hooks l
    { loaded := some l
      run := do
        limit
        prepared.mapError .kernel
        if hooks.samples then openBuffers x
        Logged.tell [.waiting]
        return .hooks
          { loaded := l, faults := x.readFaults, buffers := if hooks.samples then x.cpus else 0, timetable := timetable s x
            now := x.monotonic, forwarder := Kernel.Forwarder.ofRoom s.overflowSlots, outlet := outlet s x } }

def launch (o : AgentOptions) (x : Surroundings) : Launched :=
  match o.settings.invalid? with
  | some why => { run := Logged.fail (.settings why) }
  | none =>
    match o.source with
    | .socket interface workers room => { run := launchSocket o.settings x interface workers room }
    | .hooks interface object d samples => launchHooks o.settings x interface object (hooksOf d samples)

def step (r : Run) (e : Event) : Logged Failure Run :=
  match r with
  | socket a => do return socket (← a.step e)
  | hooks a => do return hooks (← a.step e)

def steps (r : Run) : List Event → Logged Failure Run
  | [] => pure r
  | e :: rest => do (← r.step e).steps rest

def finish (r : Run) : Logged Failure Run :=
  match r with
  | socket a => do return socket (← a.finish)
  | hooks a => do return hooks (← a.finish)

/-- A whole run: the object that it loaded, what it told, and how it ended. -/
def whole (o : AgentOptions) (x : Surroundings) (events : List Event) : Launched :=
  let launched := launch o x
  { launched with
    run := do
      let r ← launched.run
      (← r.steps events).finish }

end Run
end FlowMeter.Agent
