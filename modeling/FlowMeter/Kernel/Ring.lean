import FlowMeter.Flow.Record
/-!
# The ring of direct flows

Records that found no place in the kernel's map, as their images, in the order in which they were put in.
-/
namespace FlowMeter.Kernel

structure Ring where
  slots : Nat
  entries : List Octets := []
  deriving Repr, Inhabited

namespace Ring

/-- The ring with a record at its end, if there is room. -/
def push? (r : Ring) (record : Flow.Record) : Option Ring :=
  if r.entries.length < r.slots then some { r with entries := r.entries ++ [record.toOctets] } else none

def records (r : Ring) : List Flow.Record := r.entries.filterMap Flow.Record.ofOctets?

def emptied (r : Ring) : Ring := { r with entries := [] }

/-- A ring that takes a record takes its image at the end. -/
theorem entries_of_push? {ring ring' : Ring} {record : Flow.Record} (h : ring.push? record = some ring') :
    ring'.entries = ring.entries ++ [record.toOctets] := by
  simp only [push?] at h
  split at h
  · cases h
    rfl
  · cases h

end Ring
end FlowMeter.Kernel
