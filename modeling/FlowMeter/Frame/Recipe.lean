import FlowMeter.Frame.Classified
/-!
# Frames made to order

A recipe collects addresses, transport headers and a least length, and yields the frame made of them.
-/
namespace FlowMeter.Frame

/-- The link address of the sender of every frame made here. -/
def senderMac : Mac := #v[0x02, 0, 0, 0, 0, 0x0a]

/-- The link address of the receiver of every frame made here. -/
def receiverMac : Mac := #v[0x02, 0, 0, 0, 0, 0x0b]

/-- What a recipe can be told to contain. -/
inductive Ingredient where
  | udp (srcPort dstPort : UInt16)
  | tcp (srcPort dstPort : UInt16) (sequence : UInt32) (control : UInt8)
  /-- Zeros behind the frame up to this length. -/
  | paddedTo (length : Nat)
  deriving DecidableEq, Repr

structure Recipe where
  src : Ipv4
  dst : Ipv4
  protocol : UInt8 := 0
  transport : Octets := []
  leastLength : Nat := 0
  deriving Repr

namespace Recipe

/-- One ingredient more.  Transport headers follow each other, the last one names the protocol, and the last least length
counts. -/
def add (r : Recipe) : Ingredient → Recipe
  | .udp srcPort dstPort =>
    { r with
      protocol := Protocol.udp
      transport := r.transport ++ Header.Udp.layout.encode { srcPort, dstPort, length := 8, checksum := 0 } }
  | .tcp srcPort dstPort sequence control =>
    { r with
      protocol := Protocol.tcp
      transport := r.transport ++ Header.Tcp.layout.encode
        { srcPort, dstPort, sequence, acknowledged := 0, dataOffset := 0x50, control, window := 0xffff, checksum := 0,
          urgent := 0 } }
  | .paddedTo length => { r with leastLength := length }

def link : Header.Ethernet where
  dst := receiverMac
  src := senderMac
  etherType := EtherType.ipv4

def network (r : Recipe) : Header.Ipv4 where
  versionIhl := 0x45
  serviceType := 0
  totalLength := UInt16.ofNat (20 + r.transport.length)
  identification := 0
  fragment := 0
  timeToLive := 64
  protocol := r.protocol
  checksum := 0
  src := r.src
  dst := r.dst

def unpadded (r : Recipe) : Octets :=
  Header.Ethernet.layout.encode link ++ Header.Ipv4.layout.encode r.network ++ r.transport

def frame (r : Recipe) : Octets :=
  r.unpadded ++ List.replicate (r.leastLength - r.unpadded.length) 0

theorem length_unpadded (r : Recipe) : r.unpadded.length = 34 + r.transport.length := by
  simp [unpadded, Layout.length_encode, Header.Ethernet.size_layout, Header.Ipv4.size_layout]
  omega

theorem length_frame (r : Recipe) : r.frame.length = max (34 + r.transport.length) r.leastLength := by
  simp [frame, length_unpadded]
  omega

end Recipe
end FlowMeter.Frame
