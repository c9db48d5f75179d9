import FlowMeter.System.Errno
import FlowMeter.Text.Blank
/-!
# Building and running

The classifiers are compiled for the kernel, the agent for this machine, and the agent is started behind a wrapper.  A plan is
a list of programs to start, one after another; the first that fails ends it (`Task.perform`).
-/
namespace FlowMeter.Build

/-- The order of octets that the classifiers are compiled for. -/
inductive Architecture where
  | little
  | big
  deriving DecidableEq, Repr

def Architecture.target : Architecture → String
  | little => "bpfel-unknown-none"
  | big => "bpfeb-unknown-none"

/-- A program to start, with all its words. -/
structure Invocation where
  words : List String
  directory : String := "."
  /-- The compiler that this tool was started with is passed on. -/
  toolchain : Bool := true
  deriving DecidableEq, Repr

inductive Failure where
  | classifiersNotStarted (errno : System.Errno)
  | classifiersFailed (status : Nat)
  | agentNotStarted (errno : System.Errno)
  | agentFailed (status : Nat)
  | runNotStarted (errno : System.Errno)
  | runFailed (words : List String)
  /-- The classifiers were needed for a run. -/
  | beforeRun (why : Failure)
  deriving Repr

def Failure.message : Failure → String
  | classifiersNotStarted errno => s!"failed to build bpf program: {errno.message}"
  | classifiersFailed status => s!"bpf build failed: exit status: {status}"
  | agentNotStarted errno =>
    s!"error while building userspace application: failed to build userspace: {errno.message}"
  | agentFailed status => s!"error while building userspace application: userspace build failed: exit status: {status}"
  | runNotStarted errno => s!"failed to run the command: {errno.message}"
  | runFailed words =>
    let line := " ".intercalate words
    s!"failed to run `{line}`"
  | beforeRun why => s!"error while building eBPF program: {why.message}"

/-- A program to start, and what it means when it does not succeed. -/
structure Task where
  invocation : Invocation
  notStarted : System.Errno → Failure
  failed : Nat → Failure

namespace Task

/-- Starts the programs of a plan, given which programs there are and with which status each one will end.  Answers which
were started. -/
def perform (programs : List String) : List Task → List Nat → List Invocation × Except Failure Unit
  | [], _ => ([], .ok ())
  | t :: rest, statuses =>
    if t.invocation.words.headD "" ∈ programs then
      let status := statuses.headD 0
      if status = 0 then
        let (started, result) := perform programs rest statuses.tail
        (t.invocation :: started, result)
      else ([t.invocation], .error (t.failed status))
    else ([], .error (t.notStarted .noEntry))

end Task

inductive Order where
  | classifiers (architecture : Architecture) (release : Bool)
  | run (architecture : Architecture) (release : Bool) (runner : String) (words : List String)
  deriving DecidableEq, Repr

namespace Order

def releaseWords (release : Bool) : List String := if release then ["--release"] else []

def buildClassifiers (a : Architecture) (release : Bool) : Task where
  invocation :=
    { words := ["cargo", "build", s!"--target={a.target}", "-Z", "build-std=core"] ++ releaseWords release
      directory := "flowmon-ebpf"
      toolchain := false }
  notStarted := .classifiersNotStarted
  failed := .classifiersFailed

def buildAgent (release : Bool) : Task where
  invocation := { words := ["cargo", "build"] ++ releaseWords release }
  notStarted := .agentNotStarted
  failed := .agentFailed

def profile (release : Bool) : String := if release then "release" else "debug"

/-- The pieces between single spaces; an empty last piece does not count. -/
def pieces (s : List Char) : List String :=
  let rec go (piece : List Char) : List Char → List String
    | [] => if piece.isEmpty then [] else [String.ofList piece.reverse]
    | ' ' :: rest => String.ofList piece.reverse :: go [] rest
    | c :: rest => go (c :: piece) rest
  go [] s

/-- The agent's words: unless they name a command, flows come from the classifiers that were just compiled. -/
def agentWords (a : Architecture) (release : Bool) (words : List String) : List String :=
  if words.any fun w => w = "tc" ∨ w = "socket" then words
  else ["tc", "--bpf-object", s!"target/{a.target}/{profile release}/flowmon"] ++ words

def runAgent (a : Architecture) (release : Bool) (runner : String) (words : List String) : Task :=
  let all := pieces (Blank.trim runner.toList) ++ [s!"target/{profile release}/flowmon"] ++ agentWords a release words
  { invocation := { words := all }, notStarted := .runNotStarted, failed := fun _ => .runFailed all }

def forRun (t : Task) : Task :=
  { t with notStarted := fun e => .beforeRun (t.notStarted e), failed := fun n => .beforeRun (t.failed n) }

def plan : Order → List Task
  | classifiers a release => [buildClassifiers a release]
  | run a release runner words =>
    [forRun (buildClassifiers a release), buildAgent release, runAgent a release runner words]

end Order
end FlowMeter.Build
