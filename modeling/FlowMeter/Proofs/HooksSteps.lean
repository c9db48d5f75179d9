import FlowMeter.Agent.Run
import FlowMeter.Proofs.KernelRows
/-!
# A run on hooks, step by step

Packets pass the hooks on all processors while the ring is forwarded, records are received and the map is walked over: its
flows are read one by one, removed one by one, and go out together.  `HooksSystem.step` is one step of any of these, and
`HooksSystem.follow` any succession of them.  Beside the run there are the packets that were seen, and how many of them are
in each slot.
-/
namespace FlowMeter

/-- All that has left the kernel and has not been received, oldest first. -/
def Kernel.Forwarder.inFlight (f : Kernel.Forwarder) : List Flow.Record :=
  f.channel ++ (f.holding.toList ++ f.ring.filterMap Flow.Record.ofOctets?)

namespace Agent

/-- A flow of the map with its values on all processors. -/
abbrev Row := Flow.Id × List Flow.Metrics

/-- How far the walk over the map has come. -/
inductive Walk where
  | resting
  | reading (rows : List Row)
  /-- The flows that were read are removed, and the first ones are gone. -/
  | removing (gone left : List Row)
  deriving DecidableEq, Repr

namespace Walk

/-- Flows that have been read and not removed. -/
def pending : Walk → List Row
  | resting => []
  | reading rows => rows
  | removing _ left => left

/-- Flows that have been removed and did not go out. -/
def gone : Walk → List Row
  | removing gone _ => gone
  | _ => []

end Walk

structure HooksSystem where
  run : HooksRun
  slots : Nat
  draws : List UInt32
  walk : Walk := .resting
  /-- All packets that passed a hook, oldest first. -/
  seen : List Packet := []
  /-- Packets in the slot of a flow on a processor. -/
  tally : Flow.Id → Nat → Nat := fun _ _ => 0

namespace HooksSystem

inductive Choice where
  | pass (now : UInt64)
  /-- A packet passes a hook on a processor; the map may refuse what is written for it. -/
  | observe (cpu : Nat) (now : UInt64) (refusal : Option Refusal) (p : Packet)
  | forward
  | receive
  | walk
  | read (id : Flow.Id)
  /-- The walk goes on: no more flows are read, or one is removed, or all go out. -/
  | proceed
  deriving DecidableEq, Repr

/-- A run from its start, with nothing in the map. -/
def start (s : Settings) (x : Surroundings) (l : Kernel.Loaded) (buffers slots : Nat) (draws : List UInt32) : HooksSystem where
  run :=
    { loaded := { l with flows := l.flows.emptied }
      faults := x.readFaults
      buffers
      timetable := Run.timetable s x
      now := x.monotonic
      forwarder := Kernel.Forwarder.ofRoom s.overflowSlots
      outlet := Run.outlet s x }
  slots
  draws

def kernel (t : HooksSystem) : Kernel.Classifier where
  settings := { sampling := t.run.loaded.sampling, trace := t.run.loaded.trace }
  map := t.run.loaded.flows
  ring := { slots := t.slots, entries := t.run.forwarder.ring }
  draws := t.draws

def withFlows (a : HooksRun) (flows : Kernel.FlowMap) : HooksRun := { a with loaded := { a.loaded with flows } }

def withRing (a : HooksRun) (ring : List Octets) : HooksRun := { a with forwarder := { a.forwarder with ring } }

def observe (t : HooksSystem) (cpu : Nat) (now : UInt64) (refusal : Option Refusal) (p : Packet) : HooksSystem :=
  let k := (t.kernel.observe cpu now refusal p).1
  { t with
    run := withRing (withFlows t.run k.map) k.ring.entries
    draws := k.draws
    seen := t.seen ++ [p]
    tally :=
      match t.kernel.flowOf? p with
      | some c => if k.map.rows.contains c.id then bump t.tally c.id cpu else t.tally
      | none => t.tally }

/-- The walk reads a flow, each flow once. -/
def read (t : HooksSystem) (id : Flow.Id) : HooksSystem :=
  match t.walk, t.run.loaded.flows.rows.get? id with
  | .reading rows, some row => if id ∈ rows.map Prod.fst then t else { t with walk := .reading (rows ++ [(id, row)]) }
  | _, _ => t

def proceed (t : HooksSystem) : Logged Failure HooksSystem :=
  match t.walk with
  | .resting => pure t
  | .reading rows => pure { t with walk := .removing [] rows }
  | .removing gone (row :: left) =>
    pure
      { t with
        run := withFlows t.run (t.run.loaded.flows.delete row.1)
        walk := .removing (gone ++ [row]) left
        tally := fun id cpu => if id = row.1 then 0 else t.tally id cpu }
  | .removing gone [] => do
    let outlet ← t.run.outlet.evict t.run.now (Flow.splitRows gone)
    return { t with run := { t.run with outlet }, walk := .resting }

def step (t : HooksSystem) : Choice → Logged Failure HooksSystem
  | .pass now => pure { t with run := { t.run with now } }
  | .observe cpu now refusal p => pure (t.observe cpu now refusal p)
  | .forward => do
    let run ← t.run.forward
    return { t with run }
  | .receive => do
    let run ← t.run.receive
    return { t with run }
  | .walk => pure (if t.walk = .resting then { t with walk := .reading [] } else t)
  | .read id => pure (t.read id)
  | .proceed => t.proceed

def follow (t : HooksSystem) : List Choice → Logged Failure HooksSystem
  | [] => pure t
  | c :: rest => do (← t.step c).follow rest

/-- What is taken for granted of a step.  A packet passes on a processor that is there, at a time that can be dated, and is
not counted in a flow that is read and not yet removed; the ring has room when a record is to go into it; and no slot that is
read has counted a positive multiple of all that its counter can show. -/
def Admits (t : HooksSystem) : Choice → Prop
  | .observe cpu now refusal p =>
    cpu < t.run.loaded.flows.cpus ∧ Datable t.run.outlet.place.boot now ∧
      ∀ c, t.kernel.flowOf? p = some c → c.id ∉ t.walk.pending.map Prod.fst ∧
        (t.kernel.Spills cpu refusal c.id → t.run.forwarder.ring.length < t.slots)
  | .read id => ∀ cpu < t.run.loaded.flows.cpus, t.tally id cpu ≠ 0 → t.tally id cpu % UInt32.size ≠ 0
  | _ => True

instance : (t : HooksSystem) → (c : Choice) → Decidable (t.Admits c)
  | t, .observe cpu _ refusal p =>
    have : Decidable (∀ c, t.kernel.flowOf? p = some c → c.id ∉ t.walk.pending.map Prod.fst ∧
        (t.kernel.Spills cpu refusal c.id → t.run.forwarder.ring.length < t.slots)) :=
      Option.decidableForallMem _
    inferInstanceAs (Decidable (_ ∧ _ ∧ _))
  | t, .read _ => inferInstanceAs (Decidable (∀ cpu < t.run.loaded.flows.cpus, _))
  | _, .pass _ | _, .forward | _, .receive | _, .walk | _, .proceed => isTrue trivial

/-- All steps of a run are admitted where they come. -/
def AdmitsAll (t : HooksSystem) : List Choice → Prop
  | [] => True
  | c :: rest => t.Admits c ∧ ∀ t', (t.step c).outcome = .ok t' → t'.AdmitsAll rest

instance decidableAdmitsAll : (t : HooksSystem) → (choices : List Choice) → Decidable (t.AdmitsAll choices)
  | _, [] => isTrue trivial
  | t, c :: rest =>
    have : Decidable (∀ t', (t.step c).outcome = .ok t' → t'.AdmitsAll rest) :=
      match (t.step c).outcome with
      | .ok t' =>
        have := decidableAdmitsAll t' rest
        decidable_of_iff (t'.AdmitsAll rest) ⟨fun h _ ht => Except.ok.inj ht ▸ h, fun h => h t' rfl⟩
      | .error _ => isTrue fun _ ht => nomatch ht
    inferInstanceAs (Decidable (_ ∧ _))

/-- What all packets of the sample add to a flow. -/
def total (t : HooksSystem) (s : MeterSettings) (draws : List UInt32) (id : Flow.Id) : Flow.Volume :=
  (t.seen.mapIdx fun n p => if s.inSample draws n then p.share id else 0).sum

/-- What is held of a flow: in the map and out of it, on its way and in the outlet. -/
def held (t : HooksSystem) (id : Flow.Id) : Flow.Volume :=
  Flow.weigh Flow.rowVolume id t.run.loaded.flows.entries + Flow.weigh Flow.rowVolume id t.walk.gone +
    Flow.weigh Flow.Metrics.volume id (t.run.forwarder.inFlight.map Flow.Record.entry) +
    Flow.weigh Flow.Metrics.volume id t.run.outlet.held

end HooksSystem
end Agent
end FlowMeter
