import FlowMeter.Clock
import FlowMeter.Frame.Classified
import FlowMeter.Frame.Packet
import FlowMeter.Notice
import FlowMeter.Overflow.Queue
import FlowMeter.Shard
/-!
# Metering packets

A meter takes packets one by one: it samples them, classifies them and counts them in its shard (`Meter.take`); a packet
whose flow the shard refuses goes into the overflow queue (`Meter.submit`).  `Meter.process` does both.
-/
namespace FlowMeter

/-- What every meter of a run has in common. -/
structure MeterSettings where
  /-- One packet in so many counts; zero stands for all of them. -/
  sampling : UInt32 := 0
  /-- Failures with single packets are told. -/
  trace : Bool := false
  capacity : UInt32 := 5000
  deriving DecidableEq, Repr, Inhabited

structure Meter where
  settings : MeterSettings
  shard : Shard
  draws : List UInt32 := []
  deriving Inhabited

/-- How far a packet has come in the meter. -/
inductive Sighting where
  | skipped
  /-- Not a whole frame. -/
  | discarded
  | counted (applied : Applied)
  deriving DecidableEq, Repr

/-- Where a packet has ended. -/
inductive Outcome where
  | skipped
  | discarded
  | updated
  | inserted
  | updateRefused (refusal : Refusal)
  /-- The packet's record waits in the overflow queue. -/
  | overflowed (refusal : Refusal) (record : Flow.Record)
  | overflowLost (refusal : Refusal) (failure : Overflow.Failure)
  deriving DecidableEq, Repr

def Applied.notices : Applied → List Notice
  | .updateRefused r => [.updateRefused r]
  | .overflow r _ => [.insertRefused r]
  | _ => []

def Outcome.notices : Outcome → List Notice
  | .updateRefused r => [.updateRefused r]
  | .overflowed r _ => [.insertRefused r]
  | .overflowLost r f => [.insertRefused r, .recordLost f]
  | _ => []

/-- Whether a random number puts a packet into the sample. -/
def MeterSettings.samples (s : MeterSettings) (draw : UInt32) : Bool := draw % s.sampling = 0

/-- Whether the next packet counts, and the random numbers after it.  A number is used for each packet as soon as only some
of them count. -/
def MeterSettings.draw (s : MeterSettings) (draws : List UInt32) : Bool × List UInt32 :=
  if s.sampling = 0 then (true, draws) else (s.samples (draws.headD 0), draws.tail)

namespace Meter

def ofSettings (settings : MeterSettings) (draws : List UInt32) : Meter where
  settings
  shard := { capacity := settings.capacity.toNat }
  draws

/-- Samples, classifies and counts one packet.  The clock is read only for a packet that counts. -/
def take (m : Meter) (clock : Clock) (refusal : Option Refusal) (p : Packet) : Meter × Clock × Sighting :=
  let (counts, draws) := m.settings.draw m.draws
  let m := { m with draws }
  if counts then
    match Classified.ofFrame? p.frame p.direction p.interface with
    | none => (m, clock, .discarded)
    | some c =>
      let (time, clock) := clock.read
      let o := { size := p.length, time, flags := c.signal.flags, handshake := c.signal.handshake }
      let (shard, applied) := m.shard.apply refusal c.id o
      ({ m with shard }, clock, .counted applied)
  else (m, clock, .skipped)

/-- Sends the record of an overflowing packet on its way. -/
def submit (q : Overflow.Queue) : Sighting → Overflow.Queue × Outcome
  | .skipped => (q, .skipped)
  | .discarded => (q, .discarded)
  | .counted .updated => (q, .updated)
  | .counted .inserted => (q, .inserted)
  | .counted (.updateRefused r) => (q, .updateRefused r)
  | .counted (.overflow r record) =>
    match q.submit record with
    | .ok q' => (q', .overflowed r record)
    | .error f => (q, .overflowLost r f)

/-- What a packet changes, and where it ends. -/
structure Processed where
  meter : Meter
  clock : Clock
  queue : Overflow.Queue
  outcome : Outcome

def process (m : Meter) (clock : Clock) (q : Overflow.Queue) (refusal : Option Refusal) (p : Packet) : Processed :=
  let (meter, clock, sighting) := m.take clock refusal p
  let (queue, outcome) := submit q sighting
  { meter, clock, queue, outcome }

def notices (m : Meter) (o : Outcome) : List Notice := if m.settings.trace then o.notices else []

def emptied (m : Meter) : Meter := { m with shard := m.shard.emptied }

end Meter
end FlowMeter
