import FlowMeter.Octets.Word
import FlowMeter.Flow.Direction
/-!
# Packets

One observed frame, as a source of frames hands it over.
-/
namespace FlowMeter

structure Packet where
  /-- The captured octets from the link header on; the frame may have had more. -/
  frame : Octets
  /-- Length of the frame on the wire. -/
  length : UInt64
  interface : UInt32
  direction : Direction
  deriving DecidableEq, Repr, Inhabited

end FlowMeter
