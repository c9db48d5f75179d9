/-!
# Refused writes

A keyed store may refuse a write instead of blocking; the refusal carries an error number.
-/
namespace FlowMeter

structure Refusal where
  errno : Int
  deriving DecidableEq, Repr, Inhabited

namespace Refusal

def full : Refusal := ⟨7⟩

/-- There is no memory for the entry. -/
def noMemory : Refusal := ⟨12⟩

/-- Somebody else is writing. -/
def busy : Refusal := ⟨16⟩

/-- The octet stamped on a record that the refusal sends on its way: the nearest one to the error number. -/
def stamp (r : Refusal) : UInt8 := UInt8.ofNat (min r.errno.toNat 255)

def message (r : Refusal) : String := s!"flow map update failed with errno {r.errno}"

end Refusal
end FlowMeter
