import FlowMeter.Frame.Header
import FlowMeter.Frame.ControlBits
/-!
# Transport facts

What the transport header of a packet adds to its flow.  A header that the frame cuts short adds nothing, like an unknown
protocol.
-/
namespace FlowMeter

namespace Protocol

def icmp : UInt8 := 1
def tcp : UInt8 := 6
def udp : UInt8 := 17
def icmpv6 : UInt8 := 58
def sctp : UInt8 := 132

end Protocol

/-- Ports, message type and code, and the signal; what the protocol does not have is zero. -/
structure Transport where
  srcPort : UInt16 := 0
  dstPort : UInt16 := 0
  icmpType : UInt8 := 0
  icmpCode : UInt8 := 0
  signal : Signal := {}
  deriving DecidableEq, Repr, Inhabited

namespace Transport

def ofTcp (h : Header.Tcp) (direction : Direction) : Transport where
  srcPort := h.srcPort
  dstPort := h.dstPort
  signal := ControlBits.signal h.control h.sequence direction

def ofUdp (h : Header.Udp) : Transport where
  srcPort := h.srcPort
  dstPort := h.dstPort

def ofSctp (h : Header.Sctp) : Transport where
  srcPort := h.srcPort
  dstPort := h.dstPort

def ofIcmp (h : Header.Icmp) : Transport where
  icmpType := h.type
  icmpCode := h.code

/-- The facts of the transport header that the protocol has, if it stands whole at the offset. -/
def ofFrame? (frame : Octets) (offset : Nat) (direction : Direction) (protocol : UInt8) : Option Transport :=
  if protocol = Protocol.tcp then (Header.Tcp.layout.readAt? frame offset).map (ofTcp · direction)
  else if protocol = Protocol.udp then (Header.Udp.layout.readAt? frame offset).map ofUdp
  else if protocol = Protocol.sctp then (Header.Sctp.layout.readAt? frame offset).map ofSctp
  else if protocol = Protocol.icmp ∨ protocol = Protocol.icmpv6 then
    (Header.Icmp.layout.readAt? frame offset).map ofIcmp
  else none

/-- The same, with nothing known where there is no such header. -/
def ofFrame (frame : Octets) (offset : Nat) (direction : Direction) (protocol : UInt8) : Transport :=
  (ofFrame? frame offset direction protocol).getD {}

end Transport
end FlowMeter
