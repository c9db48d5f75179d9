import FlowMeter.Agent.Event
import FlowMeter.Agent.Outlet
/-!
# A run on a packet socket

Packets go to the workers in turn (`SocketRun.read`), the workers take steps (`SocketRun.work`), the records that they send are
received one by one (`SocketRun.receive`), and all shards are emptied when they are due (`SocketRun.due`).  At the end the
shards are emptied once more, and no record stays behind (`SocketRun.finish`).
-/
namespace FlowMeter.Agent

open FlowMeter.System (Capture.Arrival)

structure SocketRun where
  interface : UInt32
  /-- Dropped packets are told one by one. -/
  trace : Bool
  timetable : Timetable
  pool : Pool
  outlet : Outlet
  /-- Packets dropped since the shards were due. -/
  drops : Nat := 0

namespace SocketRun

def now (a : SocketRun) : UInt64 := a.pool.shared.clock.now

def moveTo (a : SocketRun) (now : UInt64) : SocketRun :=
  { a with pool := { a.pool with shared := { a.pool.shared with clock := a.pool.shared.clock.moveTo now } } }

/-- Hands a packet to the next worker; one whose inbox is full drops it. -/
def dispatch (a : SocketRun) (p : Packet) (fate : Pool.Fate) : Logged Failure SocketRun :=
  let (pool, taken) := a.pool.dispatch p fate
  let a := { a with pool }
  match taken with
  | .ok () => pure a
  | .error (.queueFull worker) => do
    Logged.tell (if a.trace then [.queueFull worker] else [])
    return { a with drops := a.drops + 1 }
  | .error e => Logged.fail (.dispatch e)

def read (a : SocketRun) (arrival : Capture.Arrival) (fate : Pool.Fate) : Logged Failure SocketRun := do
  let p ← Logged.ofExcept ((System.Capture.read a.interface arrival).mapError .unreadable)
  a.dispatch p fate

def work (a : SocketRun) (worker : Nat) : SocketRun := { a with pool := a.pool.work worker }

def withQueue (a : SocketRun) (queue : Overflow.Queue) : SocketRun :=
  { a with pool := { a.pool with shared := { a.pool.shared with queue } } }

/-- Receives one record, if there is one. -/
def receive (a : SocketRun) : Logged Failure SocketRun :=
  match a.pool.shared.queue.next? with
  | none => pure a
  | some (r, queue) => do
    let outlet ← a.outlet.account a.now r
    return { a.withQueue queue with outlet }

def receiveAll (a : SocketRun) : Logged Failure SocketRun := do
  let outlet ← a.outlet.accountAll a.now a.pool.shared.queue.records
  return { a.withQueue a.pool.shared.queue.drained with outlet }

/-- All workers come to rest, and their records are received. -/
def settle (a : SocketRun) : Logged Failure SocketRun := { a with pool := a.pool.settle }.receiveAll

def empty (a : SocketRun) : Logged Failure (SocketRun × List Flow.Snapshot) := do
  let (pool, shards) := a.pool.evict
  let shards ← Logged.ofExcept (shards.mapError .evict)
  return ({ a with pool }, shards)

def packetNotices (a : SocketRun) : List Notice := if a.drops = 0 then [] else [.packetsDropped a.drops]

def due (a : SocketRun) : Logged Failure SocketRun := do
  let (a, shards) ← (a.moveTo (a.timetable.next a.now)).empty
  let outlet ← a.outlet.evict a.now shards
  Logged.tell a.packetNotices
  return { a with outlet, drops := 0 }

/-- What an event does, up to the point where all is at rest again. -/
def step (a : SocketRun) : Event → Logged Failure SocketRun
  | .arrival arrival fate => do (← a.read arrival fate).settle
  | .release => { a with pool := a.pool.release }.receiveAll
  | .passed nanos => pure (a.moveTo (a.now + nanos))
  | .due => do (← a.due).receiveAll
  | .counted _ | .spilled _ | .sampled .. => pure a

/-- The end, when it is asked for.  Records are received after the shards have been emptied, as the workers may have sent some
until then. -/
def finish (a : SocketRun) : Logged Failure SocketRun := do
  Logged.tell [.exiting]
  let (a, shards) ← a.empty
  let a ← a.receiveAll
  let outlet ← a.outlet.evict a.now shards
  return { a with outlet }

end SocketRun
end FlowMeter.Agent
