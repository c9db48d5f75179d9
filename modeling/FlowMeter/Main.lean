import FlowMeter.Agent.Run
import FlowMeter.Text.Hex
import Std.Time.DateTime.Timestamp
/-!
# The agent as a program

The command line and its variables choose the settings.  Frames come from the standard input, one on each line in hexadecimal
digits, with `>` in front of those that leave this host; the end of the input ends the run.
-/
namespace FlowMeter.Main

open FlowMeter.Agent (Event Run Surroundings Timetable)
open FlowMeter.CommandLine (AgentOptions Command Environment Opt)
open FlowMeter.System (Capture.Arrival Interface Interfaces)

/-- The variables that options name. -/
def readEnvironment (options : List Opt) : IO Environment := do
  let known ← (options.filterMap Opt.variableName).mapM fun name => return (name, ← IO.getEnv name)
  return fun name => (known.lookup name).join

def readInterfaces (name : String) : IO Interfaces := do
  match ← (IO.FS.readFile s!"/sys/class/net/{name}/ifindex").toBaseIO with
  | .error _ => return []
  | .ok s =>
    let index := s.trimAscii.toString.toNat?
    return (index.map fun n => { index := UInt32.ofNat n, name := Interfaces.octetsOf name }).toList

def monotonic : IO UInt64 := return UInt64.ofNat (← IO.monoNanosNow)

def surroundings (interface : String) : IO Surroundings := do
  let wall ← Std.Time.Timestamp.now
  return {
    interfaces := ← readInterfaces interface
    wall := (WallTime.ofNanos? wall.toNanosecondsSinceUnixEpoch.val).getD WallTime.epoch
    monotonic := ← monotonic
    cpus := 1
    objects := fun _ => none }

def arrival? (line : String) : Option Capture.Arrival :=
  match line.toList with
  | '>' :: digits => (Hex.octets? digits).map fun frame => .frame frame 4
  | digits => (Hex.octets? digits).map fun frame => .frame frame 0

/-- Shows what is told, and goes on with the result. -/
def tell {α : Type} (r : Logged Agent.Failure α) : IO α := do
  for n in r.notices do IO.println n.line
  match r.outcome with
  | .ok a => return a
  | .error e => throw (IO.userError e.message)

partial def listen (input : IO.FS.Stream) (t : Timetable) (now : UInt64) (r : Run) : IO Unit := do
  let line ← input.getLine
  let later ← monotonic
  let r ← tell (r.steps (t.upTo now later))
  if line.isEmpty then
    let _ ← tell r.finish
  else
    match arrival? line.trimAscii.toString with
    | some a => listen input t later (← tell (r.step (.arrival a .proceeds)))
    | none =>
      IO.eprintln "not a frame"
      listen input t later r

def carryOut (o : AgentOptions) : IO Unit := do
  let interface := match o.source with
    | .hooks interface .. => interface
    | .socket interface .. => interface
  let x ← surroundings interface
  let r ← tell (Run.launch o x).run
  listen (← IO.getStdin) (Run.timetable o.settings x) x.monotonic r

end FlowMeter.Main

def main (words : List String) : IO UInt32 := do
  let g := FlowMeter.CommandLine.AgentOptions.grammar
  let environment ← FlowMeter.Main.readEnvironment (g.shared ++ g.commands.flatMap fun c => c.options)
  match g.parse environment words with
  | .error r =>
    IO.eprintln "usage: flow-meter [options] tc|socket [options]"
    return UInt32.ofNat r.status
  | .ok parsed =>
    match FlowMeter.CommandLine.AgentOptions.ofParsed parsed with
    | .error fault => throw (IO.userError fault.message)
    | .ok o =>
      FlowMeter.Main.carryOut o
      return 0
