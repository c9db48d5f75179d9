import FlowMeter.Notice
/-!
# From the ring to the exporter

A reader takes entry after entry out of the ring and puts the records into a bounded channel; while the channel is full it
stands still with one record in its hands.  It ends only when nobody receives any more.  `Forwarder.step` is the reader's
only step, and `Forwarder.relay` the run in which every record is received at once.
-/
namespace FlowMeter.Kernel

structure Forwarder where
  /-- How many records may wait in the channel. -/
  room : Nat
  /-- Entries of the ring, oldest first. -/
  ring : List Octets := []
  /-- The record that the reader has in its hands. -/
  holding : Option Flow.Record := none
  /-- Records that wait in the channel, oldest first. -/
  channel : List Flow.Record := []
  deserted : Bool := false
  ended : Bool := false
  deriving Repr, Inhabited

namespace Forwarder

/-- A reader whose channel has room for one record at least. -/
def ofRoom (room : Nat) : Forwarder where
  room := max room 1

def arrive (f : Forwarder) (entries : List Octets) : Forwarder := { f with ring := f.ring ++ entries }

/-- The reader takes an entry; one that is too short for a record is left out. -/
def take (f : Forwarder) : Forwarder × List Notice :=
  match f.ring with
  | [] => (f, [])
  | entry :: rest =>
    match Flow.Record.ofOctets? entry with
    | some r => ({ f with ring := rest, holding := some r }, [])
    | none => ({ f with ring := rest }, [.entryDiscarded entry.length])

def put (f : Forwarder) (r : Flow.Record) : Forwarder :=
  if f.deserted then { f with holding := none, ended := true }
  else if f.channel.length < f.room then { f with holding := none, channel := f.channel ++ [r] }
  else f

def step (f : Forwarder) : Forwarder × List Notice :=
  if f.ended then (f, [])
  else
    match f.holding with
    | some r => (f.put r, [])
    | none => f.take

/-- The oldest record of the channel, and what is left. -/
def receive? (f : Forwarder) : Option (Flow.Record × Forwarder) :=
  match f.channel with
  | [] => none
  | r :: rest => some (r, { f with channel := rest })

def drain (f : Forwarder) : List Flow.Record × Forwarder := (f.channel, { f with channel := [] })

def desert (f : Forwarder) : Forwarder := { f with channel := [], deserted := true }

/-- Steps after which everything has been received: two for every entry, one for a record in the reader's hands, and one for
each that waits. -/
def stepsLeft (f : Forwarder) : Nat := 2 * f.ring.length + f.holding.toList.length + f.channel.length

structure Relayed where
  forwarder : Forwarder
  notices : List Notice := []
  records : List Flow.Record := []

/-- A step, after which one record is received if there is one. -/
def Relayed.next (p : Relayed) : Relayed :=
  let (f, notices) := p.forwarder.step
  match f.receive? with
  | some (r, f) => { forwarder := f, notices := p.notices ++ notices, records := p.records ++ [r] }
  | none => { p with forwarder := f, notices := p.notices ++ notices }

/-- All that is in the ring goes through the channel. -/
def relay (f : Forwarder) : Relayed := f.stepsLeft.repeat Relayed.next { forwarder := f }

end Forwarder
end FlowMeter.Kernel
