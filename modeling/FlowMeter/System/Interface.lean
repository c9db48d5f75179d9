import FlowMeter.Text.Lossy
/-!
# Network interfaces

The interfaces of the system, by index and by name.
-/
namespace FlowMeter.System

/-- An interface; its name need not be text. -/
structure Interface where
  index : UInt32
  name : Octets
  deriving DecidableEq, Repr, Inhabited

abbrev Interfaces := List Interface

namespace Interfaces

def octetsOf (s : String) : Octets := s.toUTF8.toList

/-- The octets that the system gives for a name: at most fifteen, and none from a zero on. -/
def shortName (name : Octets) : Octets := (name.take 15).takeWhile (· ≠ 0)

/-- The name of an interface as text; its index where there is none. -/
def nameOf (is : Interfaces) (index : UInt32) : String :=
  match is.find? fun i => i.index = index with
  | some i => Lossy.decode (shortName i.name)
  | none => s!"{index}"

def indexOf? (is : Interfaces) (name : String) : Option UInt32 :=
  (is.find? fun i => i.name = octetsOf name).map Interface.index

end Interfaces
end FlowMeter.System
