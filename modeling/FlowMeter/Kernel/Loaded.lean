import FlowMeter.Kernel.FlowMap
import FlowMeter.Kernel.ObjectFile
import FlowMeter.Meter
import FlowMeter.System.Interface
/-!
# Loaded objects

An object file in the kernel (`Loaded.ofFile`): its variables are set, its maps exist, its programs are loaded and attached
one by one (`Loaded.attach`), and its flows are read and removed together (`Loaded.evict`).
-/
namespace FlowMeter.Kernel

open FlowMeter.System (Errno Interfaces)

inductive ShapeFault where
  | kind (kind : Nat)
  /-- Size of the keys: what is used, and what is declared. -/
  | keySize (used declared : Nat)
  | valueSize (used declared : Nat)
  deriving DecidableEq, Repr

def ShapeFault.message : ShapeFault → String
  | kind n => s!"invalid map type {n}"
  | keySize used declared => s!"invalid key size {used}, expected {declared}"
  | valueSize used declared => s!"invalid value size {used}, expected {declared}"

inductive Failure where
  | noFile (path : String) (errno : Errno)
  | noVariable (path variableName : String)
  | noMap (map : String)
  | mapShape (map : String) (fault : ShapeFault)
  | noProgram (program : String)
  | programKind (program : String)
  | loadedAlready (program : String)
  | notLoaded (program : String) (errno : Errno)
  | notAttached (program interface : String) (errno : Errno)
  | walk
  deriving DecidableEq, Repr

def Failure.message : Failure → String
  | noFile path errno => s!"failed to load eBPF object {path}: error loading {path}: {errno.message}"
  | noVariable path name =>
    let fault := s!"symbol with name {name} not found in the symbols table"
    s!"failed to load eBPF object {path}: error parsing BPF object: {fault}: {fault}"
  | noMap map => s!"map {map} not found"
  | mapShape map fault => s!"map {map} has wrong type: {fault.message}"
  | noProgram program => s!"program {program} not found"
  | programKind program => s!"program {program} has wrong type: unexpected program type"
  | loadedAlready program => s!"failed to load program {program}: the program is already loaded"
  | notLoaded program errno =>
    s!"failed to load program {program}: the BPF_PROG_LOAD syscall failed. Verifier output: : {errno.message}"
  | notAttached program interface errno =>
    s!"failed to attach {program} on {interface}: netlink error while attaching ebpf program to tc: {errno.message}"
  | walk => "failed to iterate flows: `bpf_map_get_next_key` failed"

/-- A program at one of the hooks of an interface. -/
structure Attachment where
  program : String
  interface : UInt32
  hook : Direction
  deriving DecidableEq, Repr

structure Faults where
  discipline : Option Errno := none
  attach : Option Errno := none
  load : Option Errno := none

structure Hooks where
  ingress : Bool
  egress : Bool
  /-- Both get the classifiers for samples, too. -/
  samples : Bool
  deriving DecidableEq, Repr

namespace Hooks

def programs (h : Hooks) : List (String × Direction) :=
  (if h.ingress then [("ingress_flow_parse", Direction.ingress)] else []) ++
  (if h.egress then [("egress_flow_parse", .egress)] else []) ++
  (if h.samples then [("ingress_payload_parse", .ingress), ("egress_payload_parse", .egress)] else [])

end Hooks

structure Loaded where
  sampling : UInt32
  trace : Bool
  maps : List (String × MapShape)
  /-- Maps that nobody uses yet. -/
  free : List String
  programs : List (String × ProgramKind)
  accepted : List String := []
  attached : List Attachment := []
  flows : FlowMap

namespace Loaded

/-- How many entries a map is made with: as many as asked for, or as declared; buffers that declare none get one for each
processor. -/
def entriesOf (asked : Option Nat) (cpus : Nat) (shape : MapShape) : Nat :=
  match asked with
  | some n => n
  | none => if shape.kind = MapShape.bufferKind ∧ shape.entries = 0 then cpus else shape.entries

/-- The maps of a file as they are made, the map of flows with a capacity of its own. -/
def makeMaps (f : ObjectFile) (capacity cpus : Nat) : List (String × MapShape) :=
  f.maps.map fun (name, shape) =>
    (name, { shape with entries := entriesOf (if name = flowsName then some capacity else none) cpus shape })

/-- A map of flows has one of two kinds, and keys and values of the right sizes. -/
def checkFlows (shape : MapShape) : Except ShapeFault Unit :=
  let key := Flow.Id.layout.size
  let value := Flow.Metrics.layout.size
  if shape.kind ≠ MapShape.hashKind ∧ shape.kind ≠ MapShape.recentHashKind then .error (.kind shape.kind)
  else if shape.keySize ≠ key then .error (.keySize key shape.keySize)
  else if shape.valueSize ≠ value then .error (.valueSize value shape.valueSize)
  else .ok ()

def missing? (f : ObjectFile) : Option String :=
  [ObjectFile.samplingName, ObjectFile.traceName].find? fun name => name ∉ f.globals

def takeMap (l : Loaded) (name : String) : Option (MapShape × Loaded) :=
  if name ∈ l.free then
    (l.maps.lookup name).map fun shape => (shape, { l with free := l.free.filter fun n => n ≠ name })
  else none

/-- The object of a file in the kernel: its variables are set and its maps made, and nothing is in use yet. -/
def ofFile (path : String) (file : Option ObjectFile) (settings : MeterSettings) (cpus : Nat) : Except Failure Loaded :=
  match file with
  | none => .error (.noFile path .noEntry)
  | some f =>
    match missing? f with
    | some name => .error (.noVariable path name)
    | none =>
      let capacity := settings.capacity.toNat
      let maps := makeMaps f capacity cpus
      .ok
        { sampling := settings.sampling, trace := settings.trace, maps, free := maps.map Prod.fst, programs := f.programs
          flows := { cpus, capacity } }

/-- What is done with a loaded object: what a call that fails has already done stays done. -/
abbrev Call := Loaded → Loaded × Logged Failure Unit

/-- One call after another, unless the first fails. -/
def Call.andThen (a b : Call) : Call := fun l =>
  match a l with
  | (l, { notices, outcome := .error e }) => (l, { notices, outcome := .error e })
  | (l, { notices, outcome := .ok () }) =>
    let (l, rest) := b l
    (l, { rest with notices := notices ++ rest.notices })

def Call.nothing : Call := fun l => (l, Logged.succeed ())

/-- Takes the map of flows into use.  Before that the classifiers' own notices are looked for, in vain. -/
def takeFlows : Call := fun l =>
  let (l, outcome) :=
    match l.takeMap flowsName with
    | none => (l, .error (.noMap flowsName))
    | some (shape, l) => (l, (checkFlows shape).mapError (.mapShape flowsName))
  (l, { notices := [.noKernelLog], outcome })

def globalsImage (l : Loaded) : Octets :=
  Octets.littleEndian 4 l.sampling.toNat ++ [if l.trace then 1 else 0]

def attachProgram (l : Loaded) (interfaces : Interfaces) (faults : Faults) (interface : String) (program : String)
    (hook : Direction) : Loaded × Except Failure Unit :=
  match l.programs.lookup program with
  | none => (l, .error (.noProgram program))
  | some .other => (l, .error (.programKind program))
  | some .classifier =>
    if program ∈ l.accepted then (l, .error (.loadedAlready program))
    else
      match faults.load with
      | some e => (l, .error (.notLoaded program e))
      | none =>
        let l := { l with accepted := l.accepted ++ [program] }
        match interfaces.indexOf? interface with
        | none => (l, .error (.notAttached program interface .noDevice))
        | some index =>
          match faults.attach with
          | some e => (l, .error (.notAttached program interface e))
          | none => ({ l with attached := l.attached ++ [{ program, interface := index, hook }] }, .ok ())

/-- One program after another, until one fails. -/
def attachAll (l : Loaded) (interfaces : Interfaces) (faults : Faults) (interface : String) :
    List (String × Direction) → Loaded × Except Failure Unit
  | [] => (l, .ok ())
  | (program, hook) :: rest =>
    match l.attachProgram interfaces faults interface program hook with
    | (l, .ok ()) => l.attachAll interfaces faults interface rest
    | (l, .error e) => (l, .error e)

/-- Why the queueing discipline cannot be added, if it cannot. -/
def disciplineFault (interfaces : Interfaces) (faults : Faults) (interface : String) : Option Errno :=
  if (interfaces.indexOf? interface).isNone then some .noDevice else faults.discipline

/-- Attaches the programs for the hooks of an interface.  That the queueing discipline cannot be added is only told. -/
def attach (interfaces : Interfaces) (faults : Faults) (interface : String) (hooks : Hooks) : Call := fun l =>
  let notices :=
    match disciplineFault interfaces faults interface with
    | some e => [.disciplineRefused interface e]
    | none => []
  let (l, outcome) := l.attachAll interfaces faults interface hooks.programs
  (l, { notices, outcome })

/-- Takes a map of one kind into use; it is gone afterwards even if it has another kind. -/
def takeKind (name : String) (kind : Nat) : Call := fun l =>
  match l.takeMap name with
  | none => (l, Logged.fail (.noMap name))
  | some (shape, l) =>
    (l, Logged.ofExcept (if shape.kind = kind then .ok () else .error (.mapShape name (.kind shape.kind))))

def takeRing : Call := takeKind ringName MapShape.ringKind

def takeSamples : Call := takeKind samplesName MapShape.bufferKind

def evict (l : Loaded) (faults : ReadFaults) : Loaded × Logged Failure (List Flow.Snapshot) :=
  let (flows, r) := l.flows.evict faults
  ({ l with flows }, r.mapError fun _ => .walk)

end Loaded
end FlowMeter.Kernel
