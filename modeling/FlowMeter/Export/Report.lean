import FlowMeter.Flow.Direction
import FlowMeter.Flow.Record
import FlowMeter.Text.Address
import FlowMeter.Time
/-!
# Exported flows

A flow with the name of its interface and its wall-clock times, and the line that shows it (`Report.line`): words with
single spaces between them, the optional ones last.
-/
namespace FlowMeter.Export

structure Report where
  id : Flow.Id
  metrics : Flow.Metrics
  interface : String
  /-- Another interface showed the flow first. -/
  duplicate : Bool := false
  start : WallTime
  stop : WallTime
  deriving DecidableEq, Inhabited

namespace Report

/-- A flow with its times on the wall clock, whose monotonic zero is at `boot`. -/
def ofFlow (boot : WallTime) (interface : String) (id : Flow.Id) (m : Flow.Metrics) : Except TimeFault Report := do
  let start ← boot.ofMonotonic m.start
  let stop ← boot.ofMonotonic m.stop
  return { id, metrics := m, interface, start, stop }

def directionName (code : UInt8) : String := ((Direction.ofCode? code).map Direction.name).getD "unknown"

def endpoint (a : Ip) (port : UInt16) : String := s!"{a.text}:{port}"

/-- Whole milliseconds from the first packet to the last, zero if they are out of order. -/
def durationMillis (m : Flow.Metrics) : Nat := (m.stop.toNat - m.start.toNat) / 1000000

/-- The words that every line has. -/
def fixedWords (r : Report) : List String :=
  [s!"{r.start.epochMillis}", directionName r.id.direction, s!"proto={r.id.protocol}", endpoint r.id.srcIp r.id.srcPort,
    "->", endpoint r.id.dstIp r.id.dstPort, s!"if={r.interface}({r.id.interface})", s!"mac={r.id.srcMac.text}", "->",
    r.id.dstMac.text, s!"packets={r.metrics.packets}", s!"bytes={r.metrics.bytes}",
    s!"duration={durationMillis r.metrics}ms", s!"flags=0x{String.ofList (Hex.padded 3 r.metrics.flags.toNat)}"]

/-- The words that a line has only when they say something. -/
def extraWords (r : Report) : List String :=
  (if r.id.icmpType ≠ 0 ∨ r.id.icmpCode ≠ 0 then [s!"icmp={r.id.icmpType}/{r.id.icmpCode}"] else []) ++
  (if r.metrics.errno ≠ 0 then [s!"errno={r.metrics.errno}"] else []) ++
  (if r.duplicate then ["duplicate"] else [])

def line (r : Report) : String := " ".intercalate (r.fixedWords ++ r.extraWords)

end Report
end FlowMeter.Export
