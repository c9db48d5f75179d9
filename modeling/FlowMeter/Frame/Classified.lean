import FlowMeter.Flow.Id
import FlowMeter.Frame.Transport
/-!
# Classified frames

The flow that a frame belongs to.  A frame is classified unless its link header, or the network header that its type
announces, is cut short; frames of other types are flows of the link layer.
-/
namespace FlowMeter

namespace EtherType

def ipv4 : UInt16 := 0x0800
def ipv6 : UInt16 := 0x86dd

end EtherType

/-- A frame's flow, and what the frame tells about its connection. -/
structure Classified where
  id : Flow.Id
  signal : Signal
  deriving DecidableEq, Repr

namespace Classified

/-- The classification of a frame with no header but the link's. -/
def ofLink (h : Header.Ethernet) (direction : Direction) (interface : UInt32) : Classified where
  id := { etherType := h.etherType, direction := direction.code, srcMac := h.src, dstMac := h.dst, interface }
  signal := {}

/-- With the facts of a network header and of the transport header behind it. -/
def withNetwork (c : Classified) (src dst : Ip) (protocol : UInt8) (t : Transport) : Classified where
  id := { c.id with
    srcIp := src, dstIp := dst, protocol, srcPort := t.srcPort, dstPort := t.dstPort, icmpType := t.icmpType,
    icmpCode := t.icmpCode }
  signal := t.signal

/-- The classification of a frame, or nothing if a header it needs is cut short. -/
def ofFrame? (frame : Octets) (direction : Direction) (interface : UInt32) : Option Classified := do
  let link ← Header.Ethernet.layout.readAt? frame 0
  let base := ofLink link direction interface
  let network := Header.Ethernet.layout.size
  if link.etherType = EtherType.ipv4 then
    let h ← Header.Ipv4.layout.readAt? frame network
    let transport := Transport.ofFrame frame (network + h.transportOffset) direction h.protocol
    return base.withNetwork (Ip.ofIpv4 h.src) (Ip.ofIpv4 h.dst) h.protocol transport
  else if link.etherType = EtherType.ipv6 then
    let h ← Header.Ipv6.layout.readAt? frame network
    let transport := Transport.ofFrame frame (network + Header.Ipv6.layout.size) direction h.nextHeader
    return base.withNetwork h.src h.dst h.nextHeader transport
  else
    return base

end Classified
end FlowMeter
