import FlowMeter.Agent.Run
import FlowMeter.Proofs.Metering
/-!
# A socket run, step by step

Between two things that the loop does, every worker may take any number of steps, and while the loop empties the shards it
waits for each worker in turn.  `SocketSystem.step` is one step of the loop or of a worker, whoever moves first, and
`SocketSystem.follow` any succession of them.  Beside the run there is a ledger for each worker: the packets that were
accepted for it, and the outcomes of those that it has handled.
-/
namespace FlowMeter

namespace Pool

/-- A pool of at least one worker, each with its own random numbers. -/
def startEach (workers room : Nat) (settings : MeterSettings) (draws : Nat → List UInt32) (shared : Shared) : Pool where
  workers := (List.range (max workers 1)).map fun i => { meter := Meter.ofSettings settings (draws i) }
  room := max room 1
  shared

theorem start_eq_startEach (workers room : Nat) (settings : MeterSettings) (draws : List UInt32) (shared : Shared) :
    start workers room settings draws shared = startEach workers room settings (fun _ => draws) shared := by
  rw [start, startEach, List.map_const', List.length_range]

def actAt (p : Pool) (act : Worker → Shared → Worker × Shared) (i : Nat) : Pool :=
  match p.workers[i]? with
  | some w => { p with workers := p.workers.set i (act w p.shared).1, shared := (act w p.shared).2 }
  | none => p

namespace Worker

/-- The outcomes that are known when the worker has taken a step: that of a packet which it met, unless it stands still with the
packet's record in its hands. -/
def outcomesOfWork (w : Worker) (s : Shared) : List Outcome :=
  match w.condition, w.inbox with
  | .working, .packet p fate :: _ =>
    let sighting := (w.meter.take s.clock none p).2.2
    if fate = .proceeds ∨ sighting.settled?.isSome then [(Meter.submit s.queue sighting).2] else []
  | _, _ => []

def outcomesOfResume (w : Worker) (s : Shared) : List Outcome :=
  match w.condition with
  | .held sighting => if sighting.settled?.isSome then [] else [(Meter.submit s.queue sighting).2]
  | _ => []

end Worker
end Pool

namespace Agent

structure Ledger where
  /-- The packets that were accepted for it, oldest first. -/
  accepted : List Packet := []
  /-- The outcomes of those that it has handled, in the same order. -/
  outcomes : List Outcome := []
  deriving Inhabited

namespace Ledger

def accept (p : Packet) (l : Ledger) : Ledger := { l with accepted := l.accepted ++ [p] }

def learn (outcomes : List Outcome) (l : Ledger) : Ledger := { l with outcomes := l.outcomes ++ outcomes }

/-- What the packets with known outcomes add to a flow: those in the sample whose records were not lost. -/
def total (l : Ledger) (s : MeterSettings) (draws : List UInt32) (id : Flow.Id) : Flow.Volume :=
  ((l.accepted.zip l.outcomes).mapIdx fun n e => e.2.credit (s.inSample draws n) e.1 id).sum

end Ledger

inductive Stage where
  | waiting
  /-- It empties the shards, perhaps for the last time, and has asked the workers before this one. -/
  | asking (next : Nat) (last : Bool)
  /-- It has asked all workers, and these are the answers of the first ones. -/
  | collecting (shards : List Flow.Snapshot) (last : Bool)
  | ended
  deriving DecidableEq, Repr

structure SocketSystem where
  run : SocketRun
  stage : Stage := .waiting
  ledgers : List Ledger

namespace SocketSystem

inductive Choice where
  | pass (now : UInt64)
  | work (worker : Nat)
  | resume (worker : Nat)
  | dispatch (p : Packet) (fate : Pool.Fate)
  | receive
  /-- The shards are to be emptied, perhaps for the last time. -/
  | empty (last : Bool)
  /-- The loop goes on to empty the shards, if it need not wait. -/
  | proceed
  deriving DecidableEq, Repr

def start (s : Settings) (x : Surroundings) (interface : UInt32) (workers room : Nat) (draws : Nat → List UInt32) :
    SocketSystem where
  run :=
    { interface
      trace := s.meter.trace
      timetable := Run.timetable s x
      pool := Pool.startEach workers room s.meter draws
        { clock := { now := x.monotonic }, queue := Overflow.Queue.ofSize s.overflowOctets }
      outlet := Run.outlet s x }
  ledgers := List.replicate (max workers 1) {}

def withPool (t : SocketSystem) (pool : Pool) : SocketSystem := { t with run := { t.run with pool } }

def act (t : SocketSystem) (f : Pool.Worker → Pool.Shared → Pool.Worker × Pool.Shared)
    (news : Pool.Worker → Pool.Shared → List Outcome) (i : Nat) : SocketSystem :=
  match t.run.pool.workers[i]? with
  | some w =>
    { t.withPool (t.run.pool.actAt f i) with ledgers := t.ledgers.modify i (Ledger.learn (news w t.run.pool.shared)) }
  | none => t

/-- A packet is handed to the next worker, whose ledger has it if it was accepted. -/
def dispatch (t : SocketSystem) (p : Packet) (fate : Pool.Fate) : Logged Failure SocketSystem := do
  let run ← t.run.dispatch p fate
  let ledgers :=
    match (t.run.pool.dispatch p fate).2 with
    | .ok () => t.ledgers.modify t.run.pool.turn (Ledger.accept p)
    | .error _ => t.ledgers
  return { t with run, ledgers }

def receive (t : SocketSystem) : Logged Failure SocketSystem := do
  let run ← t.run.receive
  return { t with run }

/-- Asks the next worker for its flows, as soon as there is room in its inbox. -/
def ask (t : SocketSystem) (next : Nat) (last : Bool) : Logged Failure SocketSystem :=
  if next < t.run.pool.workers.length then
    match t.run.pool.send next .evict with
    | .ok pool => pure { t.withPool pool with stage := .asking (next + 1) last }
    | .error (.queueFull _) => pure t
    | .error _ => Logged.fail (.evict (.stopped next))
  else pure { t with stage := .collecting [] last }

/-- All shards have been emptied. -/
def deliver (t : SocketSystem) (shards : List Flow.Snapshot) (last : Bool) : Logged Failure SocketSystem :=
  if last then do
    let run ← t.run.receiveAll
    let outlet ← run.outlet.evict run.now shards
    return { t with run := { run with outlet }, stage := .ended }
  else do
    let outlet ← t.run.outlet.evict t.run.now shards
    Logged.tell t.run.packetNotices
    return { t with run := { t.run with outlet, drops := 0 }, stage := .waiting }

/-- Takes the next worker's answer, as soon as it is there. -/
def collect (t : SocketSystem) (shards : List Flow.Snapshot) (last : Bool) : Logged Failure SocketSystem :=
  match t.run.pool.workers[shards.length]? with
  | none => t.deliver shards last
  | some w =>
    match w.replies with
    | s :: rest =>
      let workers := t.run.pool.workers.set shards.length { w with replies := rest }
      pure { t.withPool { t.run.pool with workers } with stage := .collecting (shards ++ [s]) last }
    | [] => if w.condition = .stopped then Logged.fail (.evict (.died shards.length)) else pure t

/-- One step; what the loop cannot do at its stage leaves everything as it is. -/
def step (t : SocketSystem) : Choice → Logged Failure SocketSystem
  | .pass now => pure { t with run := t.run.moveTo now }
  | .work i => pure (t.act Pool.Worker.work Pool.Worker.outcomesOfWork i)
  | .resume i => pure (t.act Pool.Worker.resume Pool.Worker.outcomesOfResume i)
  | .dispatch p fate => if t.stage = .waiting then t.dispatch p fate else pure t
  | .receive => if t.stage = .waiting then t.receive else pure t
  | .empty last =>
    if t.stage = .waiting then do
      Logged.tell (if last then [.exiting] else [])
      return { t with stage := .asking 0 last }
    else pure t
  | .proceed =>
    match t.stage with
    | .asking next last => t.ask next last
    | .collecting shards last => t.collect shards last
    | .waiting | .ended => pure t

def follow (t : SocketSystem) : List Choice → Logged Failure SocketSystem
  | [] => pure t
  | c :: rest => do (← t.step c).follow rest

/-- What all packets with known outcomes add to a flow. -/
def total (t : SocketSystem) (s : MeterSettings) (draws : Nat → List UInt32) (id : Flow.Id) : Flow.Volume :=
  (t.ledgers.mapIdx fun i l => l.total s (draws i) id).sum

end SocketSystem
end Agent
end FlowMeter
