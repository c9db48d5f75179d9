import FlowMeter.Octets.Layout
/-!
# Flow metrics

The running totals of a flow.  Counters wrap at their width; a time of zero means that none was recorded.  A flow starts
with its first packet (`Metrics.ofFirst`), takes one packet after another (`Metrics.add`), and two partial views of one
flow are put together by `Metrics.merge`.  The image is packed, low octet first (`Metrics.layout`, 39 octets).
-/
namespace FlowMeter.Flow

/-- What one packet contributes to its flow. -/
structure Observation where
  /-- Length of the frame on the wire. -/
  size : UInt64
  time : UInt64
  flags : UInt16
  /-- The packet looks like the establishment of a connection. -/
  handshake : Bool
  deriving DecidableEq, Repr

/-- The totals of a flow, in one shard or altogether. -/
structure Metrics where
  packets : UInt32 := 0
  bytes : UInt64 := 0
  start : UInt64 := 0
  stop : UInt64 := 0
  /-- Time of the first packet that looked like the establishment of a connection. -/
  handshake : UInt64 := 0
  flags : UInt16 := 0
  /-- Why the flow found no place in a shard, zero if it did. -/
  errno : UInt8 := 0
  deriving DecidableEq, Repr, Inhabited

/-- The earlier of two times, where zero means that there is none. -/
def earlier (a b : UInt64) : UInt64 :=
  if a = 0 then b else if b = 0 then a else min a b

namespace Metrics

/-- The metrics of a flow whose first packet has just been seen. -/
def ofFirst (o : Observation) : Metrics where
  packets := 1
  bytes := o.size
  start := o.time
  stop := o.time
  handshake := if o.handshake then o.time else 0
  flags := o.flags

/-- One more packet of a flow that is kept already.  A start that was never recorded is taken from this packet. -/
def add (m : Metrics) (o : Observation) : Metrics where
  packets := m.packets + 1
  bytes := m.bytes + o.size
  start := if m.start = 0 then o.time else m.start
  stop := o.time
  handshake := if o.handshake ∧ m.handshake = 0 then o.time else m.handshake
  flags := m.flags ||| o.flags
  errno := m.errno

/-- Two partial views of one flow as one. -/
def merge (m n : Metrics) : Metrics where
  packets := m.packets + n.packets
  bytes := m.bytes + n.bytes
  start := earlier m.start n.start
  stop := max m.stop n.stop
  handshake := earlier m.handshake n.handshake
  flags := m.flags ||| n.flags
  errno := if m.errno = 0 then n.errno else m.errno

open Layout in
def layout : Layout Metrics :=
  (seq le32 (seq le64 (seq le64 (seq le64 (seq le64 (seq le16 u8)))))).rename
    (fun (packets, bytes, start, stop, handshake, flags, errno) =>
      { packets, bytes, start, stop, handshake, flags, errno })
    (fun m => (m.packets, m.bytes, m.start, m.stop, m.handshake, m.flags, m.errno))
    (fun _ => rfl) (fun _ => rfl)

theorem size_layout : layout.size = 39 := rfl

end Metrics
end FlowMeter.Flow
