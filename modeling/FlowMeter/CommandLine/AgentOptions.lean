import FlowMeter.CommandLine.Parse
import FlowMeter.Settings
/-!
# Options of the agent

The commands of the agent and their options, and what they make of the settings of a run.
-/
namespace FlowMeter.CommandLine

/-- Which directions get classifiers. -/
inductive Directions where
  | ingress
  | egress
  | both
  deriving DecidableEq, Repr

inductive FlowSource where
  /-- Classifiers in the kernel, on the hooks of an interface. -/
  | hooks (interface object : String) (directions : Directions) (samples : Bool)
  /-- A packet socket and worker threads. -/
  | socket (interface : String) (workers room : Nat)
  deriving DecidableEq, Repr

structure AgentOptions where
  settings : Settings
  source : FlowSource
  deriving DecidableEq

namespace AgentOptions

def directionWords : List String := ["ingress", "egress", "both"]
def dedupWords : List String := ["none", "first-come"]

def shared : List Opt :=
  [{ name := "sampling", variableName := "SAMPLING", kind := .number 32 },
    { name := "trace-messages", variableName := "TRACE_MESSAGES", kind := .switch },
    { name := "cache-max-flows", variableName := "CACHE_MAX_FLOWS", kind := .number 32 },
    { name := "cache-active-timeout", variableName := "CACHE_ACTIVE_TIMEOUT", kind := .number 64 },
    { name := "overflow-buffer-bytes", variableName := "OVERFLOW_BUFFER_BYTES", kind := .number 64 },
    { name := "deduper", variableName := "DEDUPER", kind := .choice dedupWords },
    { name := "deduper-fc-expiry", variableName := "DEDUPER_FC_EXPIRY", kind := .number 64 },
    { name := "deduper-just-mark", variableName := "DEDUPER_JUST_MARK", kind := .switch }]

def hooksCommand : Command where
  name := "tc"
  options :=
    [{ name := "iface", letter := 'i', kind := .text },
      { name := "bpf-object", variableName := "BPF_OBJECT", kind := .path },
      { name := "direction", kind := .choice directionWords },
      { name := "payloads", kind := .switch }]

def socketCommand : Command where
  name := "socket"
  options :=
    [{ name := "iface", letter := 'i', kind := .text },
      { name := "workers", letter := 'w', kind := .number 64 },
      { name := "queue-len", kind := .number 64 }]

def grammar : Grammar where
  shared
  commands := [hooksCommand, socketCommand]

/-- Messages that may wait for a worker, unless told otherwise. -/
def defaultRoom : Nat := 4096

def directions (word : String) : Directions :=
  if word = "ingress" then .ingress else if word = "egress" then .egress else .both

/-- The settings of a run.  Owners of flows are remembered for two periods unless told otherwise, and two periods have to be
a duration in any case. -/
def settingsOf (p : Parsed) : Except TimeFault Settings := do
  let usual : Settings := {}
  let evictEvery := Duration.ofSecs (UInt64.ofNat (p.numberD "cache-active-timeout" 64 usual.evictEvery.secs.toNat))
  let twice ← evictEvery.twice
  return {
    meter :=
      { sampling := UInt32.ofNat (p.numberD "sampling" 32 usual.meter.sampling.toNat)
        trace := p.switchD "trace-messages"
        capacity := UInt32.ofNat (p.numberD "cache-max-flows" 32 usual.meter.capacity.toNat) }
    evictEvery
    overflowOctets := p.numberD "overflow-buffer-bytes" 64 usual.overflowOctets
    dedup := if p.textD "deduper" "none" = "first-come" then .firstCome else .off
    dedupExpiry :=
      ((p.value? "deduper-fc-expiry").bind (number? 64)).elim twice fun secs => .ofSecs (UInt64.ofNat secs)
    dedupMark := p.switchD "deduper-just-mark" }

def sourceOf (p : Parsed) : FlowSource :=
  let interface := p.textD "iface" "eth0"
  if p.command = hooksCommand.name then
    .hooks interface (p.textD "bpf-object" "target/bpfel-unknown-none/release/flowmon")
      (directions (p.textD "direction" "both")) (p.switchD "payloads")
  else .socket interface (p.numberD "workers" 64 4) (p.numberD "queue-len" 64 defaultRoom)

def ofParsed (p : Parsed) : Except TimeFault AgentOptions :=
  return { settings := ← settingsOf p, source := sourceOf p }

end AgentOptions
end FlowMeter.CommandLine
