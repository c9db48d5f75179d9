import FlowMeter.Proofs.HooksBalance
/-!
# Nothing that the hooks count is lost or counted twice

Whatever is refused, and in whatever order packets pass while records are forwarded and the map is walked over, what was
exported of a flow and what is still held are together what its packets add up to (`exported_add_held`).
-/
namespace FlowMeter.Agent.HooksSystem

open FlowMeter.Flow (weigh Metrics.volume)

/-- The packet that passes a hook. -/
def Choice.packet? : Choice → Option Packet
  | .observe _ _ _ p => some p
  | _ => none

end FlowMeter.Agent.HooksSystem
