import FlowMeter.Frame.Classified
/-!
# Sampled packets

Name queries are exported whole beside their flows.  A sample announces the packet that follows it; its image is packed,
low octet first (`Sample.layout`, 8 octets).
-/
namespace FlowMeter

/-- The announcement of a packet's octets. -/
structure Sample where
  interface : UInt32
  /-- Number of octets that follow. -/
  length : UInt32
  deriving DecidableEq, Repr, Inhabited

namespace Sample

def port : UInt16 := 53

open Layout in
def layout : Layout Sample :=
  (seq le32 le32).rename (fun (interface, length) => { interface, length }) (fun m => (m.interface, m.length))
    (fun _ => rfl) (fun _ => rfl)

def toOctets (m : Sample) : Octets := layout.encode m

def ofOctets? (s : Octets) : Option Sample := layout.read? s

theorem size_layout : layout.size = 8 := rfl

/-- The sample of a frame that holds a datagram to the sampled port. -/
def ofFrame? (frame : Octets) (interface : UInt32) : Option Sample := do
  let link ← Header.Ethernet.layout.readAt? frame 0
  let network := Header.Ethernet.layout.size
  let h ← Header.Ipv4.layout.readAt? frame network
  guard (link.etherType = EtherType.ipv4 ∧ h.protocol = Protocol.udp)
  let datagram ← Header.Udp.layout.readAt? frame (network + h.transportOffset)
  guard (datagram.dstPort = port)
  return { interface, length := UInt32.ofNat frame.length }

/-- How many octets of the announced packet an event holds behind its sample; `none` if there is not even a sample. -/
def captured? (event : Octets) : Option (Sample × Nat) :=
  (ofOctets? event).map fun m => (m, min (event.length - layout.size) m.length.toNat)

end Sample
end FlowMeter
