import FlowMeter.Flow.Record
/-!
# Object files

What an object file for the kernel offers: maps, variables and programs, all by name.
-/
namespace FlowMeter.Kernel

def flowsName : String := "AGGREGATED_FLOWS"

/-- The ring of records that found no place in the map. -/
def ringName : String := "DIRECT_FLOWS"

def samplesName : String := "PACKET_PAYLOADS"

structure MapShape where
  kind : Nat
  keySize : Nat
  valueSize : Nat
  entries : Nat
  deriving DecidableEq, Repr, Inhabited

namespace MapShape

def hashKind : Nat := 5
def recentHashKind : Nat := 10
def ringKind : Nat := 27
def bufferKind : Nat := 4

end MapShape

inductive ProgramKind where
  | classifier
  | other
  deriving DecidableEq, Repr

structure ObjectFile where
  maps : List (String × MapShape)
  globals : List String
  programs : List (String × ProgramKind)

namespace ObjectFile

def samplingName : String := "SAMPLING"

/-- The variable that says whether failures are told. -/
def traceName : String := "TRACE_MESSAGES"

/-- The file as it is built. -/
def standard : ObjectFile where
  maps :=
    [(flowsName, ⟨MapShape.hashKind, 58, 39, 5000⟩), (ringName, ⟨MapShape.ringKind, 0, 0, 4096⟩),
      (samplesName, ⟨MapShape.bufferKind, 4, 4, 0⟩)]
  globals := [samplingName, traceName]
  programs :=
    ["ingress_flow_parse", "egress_flow_parse", "ingress_payload_parse", "egress_payload_parse"].map fun name =>
      (name, .classifier)

/-- The file less what has one of the names. -/
def without (f : ObjectFile) (names : List String) : ObjectFile where
  maps := f.maps.filter fun m => m.1 ∉ names
  globals := f.globals.filter fun v => v ∉ names
  programs := f.programs.filter fun p => p.1 ∉ names

def withMap (f : ObjectFile) (name : String) (shape : MapShape) : ObjectFile :=
  { f with maps := f.maps.map fun m => if m.1 = name then (name, shape) else m }

def withProgram (f : ObjectFile) (name : String) (kind : ProgramKind) : ObjectFile :=
  { f with programs := f.programs.map fun p => if p.1 = name then (name, kind) else p }

end ObjectFile
end FlowMeter.Kernel
