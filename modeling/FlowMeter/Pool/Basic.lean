import FlowMeter.Pool.Worker
/-!
# Worker pools

Packets are handed to the workers in turn (`Pool.dispatch`) or to one of them (`Pool.dispatchTo`), and never wait: a worker
with a full inbox, or one that has died, refuses.  `Pool.evict` asks every worker for its flows, in their order.  Between the
calls the workers take steps, in any order (`Pool.work`); `Pool.settle` lets all of them come to rest.
-/
namespace FlowMeter

structure Pool where
  workers : List Pool.Worker
  /-- Messages that may wait in an inbox. -/
  room : Nat
  turn : Nat := 0
  shared : Pool.Shared

namespace Pool

inductive DispatchFailure where
  | queueFull (worker : Nat)
  | stopped (worker : Nat)
  | noWorker (worker : Nat)
  deriving DecidableEq, Repr

def DispatchFailure.message : DispatchFailure → String
  | queueFull worker => s!"queue of worker {worker} is full"
  | stopped worker => s!"worker {worker} has stopped"
  | noWorker worker => s!"no worker for shard {worker}"

inductive EvictFailure where
  | stopped (worker : Nat)
  | died (worker : Nat)
  deriving DecidableEq, Repr

def EvictFailure.message : EvictFailure → String
  | stopped worker => s!"worker {worker} has stopped"
  | died worker => s!"worker {worker} exited during eviction"

/-- A pool of at least one worker, each with room for at least one message. -/
def start (workers room : Nat) (settings : MeterSettings) (draws : List UInt32) (shared : Shared) : Pool where
  workers := List.replicate (max workers 1) { meter := Meter.ofSettings settings draws }
  room := max room 1
  shared

def work (p : Pool) (i : Nat) : Pool :=
  match p.workers[i]? with
  | some w =>
    let (w, shared) := w.work p.shared
    { p with workers := p.workers.set i w, shared }
  | none => p

/-- Something that every worker does, one after another. -/
def each (act : Worker → Shared → Worker × Shared) : List Worker → Shared → List Worker × Shared
  | [], s => ([], s)
  | w :: rest, s =>
    let (w, s) := act w s
    let (rest, s) := each act rest s
    (w :: rest, s)

def withEach (p : Pool) (act : Worker → Shared → Worker × Shared) : Pool :=
  let (workers, shared) := each act p.workers p.shared
  { p with workers, shared }

/-- Every worker comes to the end of its inbox, unless it comes to a stand before. -/
def settle (p : Pool) : Pool := p.withEach Worker.finish

/-- Workers that stand still go on, and all come to rest. -/
def release (p : Pool) : Pool := (p.withEach Worker.resume).settle

def send (p : Pool) (i : Nat) (m : Message) : Except DispatchFailure Pool :=
  match p.workers[i]? with
  | none => .error (.noWorker i)
  | some w =>
    if w.condition = .stopped then .error (.stopped i)
    else if w.inbox.length < p.room then
      .ok { p with workers := p.workers.set i { w with inbox := w.inbox ++ [m] } }
    else .error (.queueFull i)

def dispatchTo (p : Pool) (i : Nat) (packet : Packet) (fate : Fate) : Except DispatchFailure Pool :=
  p.send i (.packet packet fate)

/-- The pool when the turn has moved on. -/
def advance (p : Pool) : Pool := { p with turn := (p.turn + 1) % p.workers.length }

/-- Hands a packet to the worker whose turn it is.  The turn moves on, whether the worker takes the packet or not. -/
def dispatch (p : Pool) (packet : Packet) (fate : Fate) : Pool × Except DispatchFailure Unit :=
  match p.advance.dispatchTo p.turn packet fate with
  | .ok p' => (p', .ok ())
  | .error e => (p.advance, .error e)

/-- Asks workers for their flows, one after another; the first one that has died ends it. -/
def ask (p : Pool) : List Nat → Pool × Except EvictFailure Unit
  | [] => (p, .ok ())
  | i :: rest =>
    match p.send i .evict with
    | .ok p' => p'.ask rest
    | .error _ => (p, .error (.stopped i))

/-- The oldest snapshot of every worker. -/
def collect : List Worker → Nat → Except EvictFailure (List Flow.Snapshot)
  | [], _ => .ok []
  | w :: rest, i =>
    match w.replies with
    | [] => .error (.died i)
    | s :: _ => return s :: (← collect rest (i + 1))

/-- Nobody collects the snapshots any more. -/
def forget (p : Pool) : Pool := { p with workers := p.workers.map fun w => { w with replies := [] } }

/-- All flows of all workers, one snapshot for each.  Packets that wait are counted first.  When a worker has died, those
before it have given up their flows in vain, and those behind it keep theirs. -/
def evict (p : Pool) : Pool × Except EvictFailure (List Flow.Snapshot) :=
  let (asked, outcome) := p.release.ask (List.range p.workers.length)
  let answered := asked.settle
  (answered.forget, outcome.bind fun _ => collect answered.workers 0)

theorem length_each (act : Worker → Shared → Worker × Shared) : ∀ (ws : List Worker) (s : Shared),
    (each act ws s).1.length = ws.length
  | [], _ => rfl
  | w :: rest, s => congrArg (· + 1) (length_each act rest (act w s).2)

theorem length_collect : ∀ {ws : List Worker} {i : Nat} {shards : List Flow.Snapshot}, collect ws i = .ok shards →
    shards.length = ws.length
  | [], _, _, h => by
    cases h
    rfl
  | w :: rest, i, shards, h => by
    rw [collect] at h
    cases hr : w.replies with
    | nil =>
      rw [hr] at h
      cases h
    | cons a _ =>
      rw [hr] at h
      cases ho : collect rest (i + 1) with
      | error e =>
        rw [ho] at h
        cases h
      | ok others =>
        rw [ho] at h
        obtain rfl : a :: others = shards := Except.ok.inj h
        rw [List.length_cons, List.length_cons, length_collect ho]

/-- **A message that is sent waits at the end of the inbox.** -/
theorem exists_of_send {p p' : Pool} {i : Nat} {m : Message} (h : p.send i m = .ok p') :
    ∃ w, p.workers[i]? = some w ∧ p' = { p with workers := p.workers.set i { w with inbox := w.inbox ++ [m] } } := by
  rw [send] at h
  split at h
  · cases h
  · rename_i w hw
    split at h
    · cases h
    · split at h
      · exact ⟨w, hw, (Except.ok.inj h).symm⟩
      · cases h

end Pool
end FlowMeter
