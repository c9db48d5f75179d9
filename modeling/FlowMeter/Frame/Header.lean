import FlowMeter.Address
/-!
# Packet headers

The fixed parts of the headers a frame may carry, each with its layout.  Numbers stand in network order, and every
string of a header's size is a header, so reading one fails only where the frame ends too early.
-/
namespace FlowMeter.Header

structure Ethernet where
  dst : Mac
  src : Mac
  etherType : UInt16

/-- The header of version 4 without its options. -/
structure Ipv4 where
  versionIhl : UInt8
  serviceType : UInt8
  totalLength : UInt16
  identification : UInt16
  fragment : UInt16
  timeToLive : UInt8
  protocol : UInt8
  checksum : UInt16
  src : FlowMeter.Ipv4
  dst : FlowMeter.Ipv4

structure Ipv6 where
  versionClassLabel : UInt32
  payloadLength : UInt16
  nextHeader : UInt8
  hopLimit : UInt8
  src : Ip
  dst : Ip

/-- The segment header without its options; `control` holds the bits CWR, ECE, URG, ACK, PSH, RST, SYN, FIN from the highest. -/
structure Tcp where
  srcPort : UInt16
  dstPort : UInt16
  sequence : UInt32
  acknowledged : UInt32
  dataOffset : UInt8
  control : UInt8
  window : UInt16
  checksum : UInt16
  urgent : UInt16

structure Udp where
  srcPort : UInt16
  dstPort : UInt16
  length : UInt16
  checksum : UInt16

/-- The common header in front of all chunks. -/
structure Sctp where
  srcPort : UInt16
  dstPort : UInt16
  verificationTag : UInt32
  checksum : UInt32

/-- Both versions of the control protocol share these fields. -/
structure Icmp where
  type : UInt8
  code : UInt8
  checksum : UInt16
  rest : UInt32

open Layout

def Ethernet.layout : Layout Ethernet :=
  (seq (octets 6) (seq (octets 6) be16)).rename
    (fun (dst, src, etherType) => { dst, src, etherType })
    (fun h => (h.dst, h.src, h.etherType))
    (fun _ => rfl) (fun _ => rfl)

def Ipv4.layout : Layout Ipv4 :=
  (seq u8 (seq u8 (seq be16 (seq be16 (seq be16 (seq u8 (seq u8 (seq be16 (seq (octets 4) (octets 4)))))))))).rename
    (fun (versionIhl, serviceType, totalLength, identification, fragment, timeToLive, protocol, checksum, src, dst) =>
      { versionIhl, serviceType, totalLength, identification, fragment, timeToLive, protocol, checksum, src, dst })
    (fun h => (h.versionIhl, h.serviceType, h.totalLength, h.identification, h.fragment, h.timeToLive, h.protocol,
      h.checksum, h.src, h.dst))
    (fun _ => rfl) (fun _ => rfl)

def Ipv6.layout : Layout Ipv6 :=
  (seq be32 (seq be16 (seq u8 (seq u8 (seq (octets 16) (octets 16)))))).rename
    (fun (versionClassLabel, payloadLength, nextHeader, hopLimit, src, dst) =>
      { versionClassLabel, payloadLength, nextHeader, hopLimit, src, dst })
    (fun h => (h.versionClassLabel, h.payloadLength, h.nextHeader, h.hopLimit, h.src, h.dst))
    (fun _ => rfl) (fun _ => rfl)

def Tcp.layout : Layout Tcp :=
  (seq be16 (seq be16 (seq be32 (seq be32 (seq u8 (seq u8 (seq be16 (seq be16 be16)))))))).rename
    (fun (srcPort, dstPort, sequence, acknowledged, dataOffset, control, window, checksum, urgent) =>
      { srcPort, dstPort, sequence, acknowledged, dataOffset, control, window, checksum, urgent })
    (fun h => (h.srcPort, h.dstPort, h.sequence, h.acknowledged, h.dataOffset, h.control, h.window, h.checksum,
      h.urgent))
    (fun _ => rfl) (fun _ => rfl)

def Udp.layout : Layout Udp :=
  (seq be16 (seq be16 (seq be16 be16))).rename
    (fun (srcPort, dstPort, length, checksum) => { srcPort, dstPort, length, checksum })
    (fun h => (h.srcPort, h.dstPort, h.length, h.checksum))
    (fun _ => rfl) (fun _ => rfl)

def Sctp.layout : Layout Sctp :=
  (seq be16 (seq be16 (seq be32 be32))).rename
    (fun (srcPort, dstPort, verificationTag, checksum) => { srcPort, dstPort, verificationTag, checksum })
    (fun h => (h.srcPort, h.dstPort, h.verificationTag, h.checksum))
    (fun _ => rfl) (fun _ => rfl)

def Icmp.layout : Layout Icmp :=
  (seq u8 (seq u8 (seq be16 be32))).rename
    (fun (type, code, checksum, rest) => { type, code, checksum, rest })
    (fun h => (h.type, h.code, h.checksum, h.rest))
    (fun _ => rfl) (fun _ => rfl)

/-- The header's length in octets as it announces it: its low four bits count words of four octets. -/
def Ipv4.announcedLength (h : Ipv4) : Nat := (h.versionIhl &&& 0x0f).toNat * 4

/-- Where the transport header starts, from the start of this one: an announced length below the fixed part counts as
the fixed part. -/
def Ipv4.transportOffset (h : Ipv4) : Nat := max Ipv4.layout.size h.announcedLength

theorem Ethernet.size_layout : Ethernet.layout.size = 14 := rfl
theorem Ipv4.size_layout : Ipv4.layout.size = 20 := rfl
theorem Ipv6.size_layout : Ipv6.layout.size = 40 := rfl
theorem Tcp.size_layout : Tcp.layout.size = 20 := rfl
theorem Udp.size_layout : Udp.layout.size = 8 := rfl
theorem Sctp.size_layout : Sctp.layout.size = 12 := rfl
theorem Icmp.size_layout : Icmp.layout.size = 8 := rfl

end FlowMeter.Header
