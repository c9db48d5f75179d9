import FlowMeter.Clock
import FlowMeter.Kernel.FlowMap
import FlowMeter.Kernel.Ring
import FlowMeter.Meter
/-!
# Classifiers in the kernel

The same metering as in a worker, on the kernel's map: a packet counts in its flow on the processor that handles it, and a
new flow that the map refuses leaves through the ring (`Classifier.observe`).  For that the map is called twice, to look the
flow up and to write it (`Classifier.arrive`, `Classifier.write`).  Sampled packets leave through an event of their own
(`Classifier.sample`).  No packet is ever held back.
-/
namespace FlowMeter.Kernel

/-- What tells user space about a sampled packet: the announcement and the octets asked for behind it. -/
structure SampleEvent where
  sample : Sample
  packet : Octets
  deriving DecidableEq, Repr

/-- The octets of the event: the announcement, then as much of the packet as it announces. -/
def SampleEvent.toOctets (e : SampleEvent) : Octets := e.sample.toOctets ++ e.packet.take e.sample.length.toNat

structure Classifier where
  settings : MeterSettings
  map : FlowMap
  ring : Ring
  draws : List UInt32 := []
  events : List SampleEvent := []
  deriving Inhabited

namespace Classifier

/-- The code that a refused write returns: the error number with its sign turned. -/
def code (r : Refusal) : Int := -r.errno

/-- The octet stamped on a record, the low one of the error number. -/
def stamp (r : Refusal) : UInt8 := UInt8.ofNat (r.errno.emod 256).toNat

def tell (k : Classifier) (n : Notice) : List Notice := if k.settings.trace then [n] else []

/-- The record of a packet whose new flow was refused. -/
def refusedRecord (id : Flow.Id) (o : Flow.Observation) (r : Refusal) : Flow.Record where
  id
  metrics := { Flow.Metrics.ofFirst o with errno := stamp r }

/-- Writes back a value that was changed in place.  If the write is refused, the value stays as it was changed. -/
def update (k : Classifier) (cpu : Nat) (refusal : Option Refusal) (id : Flow.Id) (m : Flow.Metrics) :
    Classifier × List Notice :=
  match k.map.insert cpu refusal id m with
  | .ok map => ({ k with map }, [])
  | .error r => (k, k.tell (.kernelUpdateRefused (code r)))

/-- Keeps a new flow, or sends its only packet through the ring. -/
def create (k : Classifier) (cpu : Nat) (refusal : Option Refusal) (id : Flow.Id) (o : Flow.Observation) :
    Classifier × List Notice :=
  match k.map.insert cpu refusal id (Flow.Metrics.ofFirst o) with
  | .ok map => ({ k with map }, [])
  | .error r =>
    let told := k.tell (.kernelInsertRefused (code r))
    match k.ring.push? (refusedRecord id o r) with
    | some ring => ({ k with ring }, told)
    | none => (k, told ++ k.tell .kernelRecordLost)

/-- What a packet has to write into the map: the value that it changed in place, or its new flow. -/
inductive Write where
  | back (id : Flow.Id) (value : Flow.Metrics)
  | fresh (id : Flow.Id) (o : Flow.Observation)
  deriving DecidableEq, Repr

/-- The first call of the map.  A packet's flow is looked up, and a flow that is there counts the packet in place. -/
def arrive (k : Classifier) (cpu : Nat) (now : UInt64) (p : Packet) : Classifier × Option Write :=
  let (counts, draws) := k.settings.draw k.draws
  let k := { k with draws }
  if counts then
    match Classified.ofFrame? p.frame p.direction p.interface with
    | none => (k, none)
    | some c =>
      let o := { size := p.length, time := now, flags := c.signal.flags, handshake := c.signal.handshake }
      match k.map.lookup cpu c.id with
      | some m => ({ k with map := k.map.put cpu c.id (m.add o) }, some (.back c.id (m.add o)))
      | none => (k, some (.fresh c.id o))
  else (k, none)

/-- The second call. -/
def write (k : Classifier) (cpu : Nat) (refusal : Option Refusal) : Write → Classifier × List Notice
  | .back id value => k.update cpu refusal id value
  | .fresh id o => k.create cpu refusal id o

/-- One packet that passes the hook of a direction, on one processor. -/
def observe (k : Classifier) (cpu : Nat) (now : UInt64) (refusal : Option Refusal) (p : Packet) :
    Classifier × List Notice :=
  match k.arrive cpu now p with
  | (k, some w) => k.write cpu refusal w
  | (k, none) => (k, [])

def sample (k : Classifier) (p : Packet) : Classifier :=
  match Sample.ofFrame? p.frame p.interface with
  | some sample => { k with events := k.events ++ [{ sample, packet := p.frame }] }
  | none => k

end Classifier
end FlowMeter.Kernel
