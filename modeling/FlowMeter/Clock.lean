/-!
# The monotonic clock

What the clock shows, and how often it has been read.
-/
namespace FlowMeter

structure Clock where
  /-- Nanoseconds, as every reading shows them until time passes. -/
  now : UInt64
  reads : Nat := 0
  deriving DecidableEq, Repr, Inhabited

namespace Clock

def read (c : Clock) : UInt64 × Clock := (c.now, { c with reads := c.reads + 1 })

def moveTo (c : Clock) (now : UInt64) : Clock := { c with now }

end Clock
end FlowMeter
