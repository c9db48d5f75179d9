import FlowMeter.Address
/-!
# Flow identity

What tells two flows apart: link, network and transport fields, the direction and the interface.  Two packets belong to
one flow exactly if all twelve fields agree.  The image of an identity is packed, its numbers low octet first
(`Flow.Id.layout`, 58 octets).
-/
namespace FlowMeter.Flow

/-- The fields that identify a flow; a field that a packet does not carry is zero. -/
structure Id where
  etherType : UInt16 := 0
  /-- `Direction.code` of the packets; other numbers name no direction. -/
  direction : UInt8 := 0
  srcMac : Mac := Vector.replicate 6 0
  dstMac : Mac := Vector.replicate 6 0
  srcIp : Ip := Vector.replicate 16 0
  dstIp : Ip := Vector.replicate 16 0
  srcPort : UInt16 := 0
  dstPort : UInt16 := 0
  protocol : UInt8 := 0
  icmpType : UInt8 := 0
  icmpCode : UInt8 := 0
  interface : UInt32 := 0
  deriving DecidableEq, Repr, Ord

namespace Id

instance : Inhabited Id := ⟨{}⟩

/-- Identities in order of their fields, numbers by size and octet strings lexicographically. -/
def le (a b : Id) : Bool := (compare a b).isLE

open Layout in
def layout : Layout Id :=
  (seq le16 (seq u8 (seq (octets 6) (seq (octets 6) (seq (octets 16) (seq (octets 16) (seq le16 (seq le16 (seq u8
    (seq u8 (seq u8 le32))))))))))).rename
    (fun (etherType, direction, srcMac, dstMac, srcIp, dstIp, srcPort, dstPort, protocol, icmpType, icmpCode, interface) =>
      { etherType, direction, srcMac, dstMac, srcIp, dstIp, srcPort, dstPort, protocol, icmpType, icmpCode, interface })
    (fun i => (i.etherType, i.direction, i.srcMac, i.dstMac, i.srcIp, i.dstIp, i.srcPort, i.dstPort, i.protocol,
      i.icmpType, i.icmpCode, i.interface))
    (fun _ => rfl) (fun _ => rfl)

theorem size_layout : layout.size = 58 := rfl

end Id
end FlowMeter.Flow
