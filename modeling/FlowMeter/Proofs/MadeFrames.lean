import FlowMeter.Frame.Recipe
import FlowMeter.Proofs.FrameFormat
import FlowMeter.Proofs.SampledFrames
/-!
# Made frames are read back

A recipe writes its headers one behind the other and never looks at an offset; the classification looks at offsets only.  They agree:
with one transport header in it, whatever least lengths are asked for before it and after it, a frame that is made is laid out in the
format of frames (`Recipe.frame_eq_octets`), so its classification gives back what went into it (`Recipe.frame_read_back`).
-/
namespace FlowMeter.Frame

open Format (Segment Laid)

namespace Ingredient

/-- The transport header that comes into the frame, if it is one. -/
def segment? : Ingredient → Option Segment
  | udp srcPort dstPort => some (.udp { srcPort, dstPort, length := 8, checksum := 0 })
  | tcp srcPort dstPort sequence control =>
    some (.tcp
      { srcPort, dstPort, sequence, acknowledged := 0, dataOffset := 0x50, control, window := 0xffff, checksum := 0,
        urgent := 0 })
  | paddedTo _ => none

def isTransport (i : Ingredient) : Bool := i.segment?.isSome

def leastLength? : Ingredient → Option Nat
  | paddedTo length => some length
  | _ => none

def headerLength : Ingredient → Nat
  | udp .. => 8
  | tcp .. => 20
  | paddedTo _ => 0

def protocol : Ingredient → UInt8
  | udp .. => 17
  | tcp .. => 6
  | paddedTo _ => 0

def facts (direction : Direction) : Ingredient → Transport
  | udp srcPort dstPort => { srcPort, dstPort }
  | tcp srcPort dstPort sequence control =>
    { srcPort, dstPort, signal := ControlBits.signal control sequence direction }
  | paddedTo _ => {}

/-- The flow of a frame between these addresses with this transport header. -/
def classified (i : Ingredient) (src dst : Ipv4) (direction : Direction) (interface : UInt32) : Classified where
  id :=
    { etherType := 0x0800
      direction := direction.code
      srcMac := senderMac
      dstMac := receiverMac
      srcIp := Ip.ofIpv4 src
      dstIp := Ip.ofIpv4 dst
      srcPort := (i.facts direction).srcPort
      dstPort := (i.facts direction).dstPort
      protocol := i.protocol
      icmpType := 0
      icmpCode := 0
      interface }
  signal := (i.facts direction).signal

variable {i : Ingredient} {segment : Segment}

theorem length_segment (h : i.segment? = some segment) : segment.octets.length = i.headerLength := by
  cases i with
  | udp srcPort dstPort =>
    cases h
    exact Header.Udp.length_octets _
  | tcp srcPort dstPort sequence control =>
    cases h
    exact Header.Tcp.length_octets _
  | paddedTo length => cases h

/-- Only a datagram to the port is sampled. -/
theorem classified_sampled_iff (i : Ingredient) (src dst : Ipv4) (direction : Direction) (interface : UInt32) :
    ((i.classified src dst direction interface).id.etherType = EtherType.ipv4 ∧
        (i.classified src dst direction interface).id.protocol = Protocol.udp ∧
        (i.classified src dst direction interface).id.dstPort = Sample.port) ↔
      ∃ srcPort, i = .udp srcPort 53 := by
  cases i with
  | udp srcPort dstPort => simp [classified, protocol, facts, EtherType.ipv4, Protocol.udp, Sample.port]
  | tcp srcPort dstPort sequence control => simp [classified, protocol, Protocol.udp]
  | paddedTo length => simp [classified, protocol, Protocol.udp]

theorem filterMap_segment? (is : List Ingredient) : (is.filter isTransport).filterMap segment? = is.filterMap segment? := by
  rw [List.filterMap_filter]
  refine congrArg (List.filterMap · is) (funext fun i => ?_)
  cases i <;> rfl

theorem exists_segment {is : List Ingredient} (h : is.filter isTransport = [i]) :
    ∃ segment, i.segment? = some segment ∧ is.filterMap segment? = [segment] := by
  have hmem : i ∈ is.filter isTransport := h ▸ List.mem_singleton.2 rfl
  obtain ⟨segment, hsegment⟩ := Option.isSome_iff_exists.1 (List.mem_filter.1 hmem).2
  refine ⟨segment, hsegment, ?_⟩
  rw [← filterMap_segment?, h]
  simp [hsegment]

end Ingredient

namespace Recipe

open Ingredient (segment? leastLength? isTransport)

/-- What one ingredient does to a recipe. -/
theorem add_eq (r : Recipe) (i : Ingredient) :
    r.add i =
      { r with
        protocol := (i.segment?.toList.map Segment.protocol).getLastD r.protocol
        transport := r.transport ++ i.segment?.toList.flatMap Segment.octets
        leastLength := i.leastLength?.toList.getLastD r.leastLength } := by
  cases i with
  | udp srcPort dstPort =>
    simp only [segment?, leastLength?, Option.toList_some, List.flatMap_singleton]
    rfl
  | tcp srcPort dstPort sequence control =>
    simp only [segment?, leastLength?, Option.toList_some, List.flatMap_singleton]
    rfl
  | paddedTo length => simp [add, segment?, leastLength?]

/-- **What all of them do.**  The transport headers stand in the order in which they were given; the last protocol and the last least
length count. -/
theorem foldl_add (is : List Ingredient) (r : Recipe) :
    is.foldl add r =
      { r with
        protocol := ((is.filterMap segment?).map Segment.protocol).getLastD r.protocol
        transport := r.transport ++ (is.filterMap segment?).flatMap Segment.octets
        leastLength := (is.filterMap leastLength?).getLastD r.leastLength } := by
  induction is generalizing r with
  | nil => simp
  | cons i is ih =>
    rw [List.foldl_cons, ih, add_eq]
    cases i <;>
      simp only [segment?, leastLength?, List.filterMap_cons, Option.toList_some, Option.toList_none, List.map_cons, List.map_nil,
        List.flatMap_cons, List.flatMap_nil, List.getLastD_cons, List.getLastD_nil, List.append_nil, List.append_assoc]

theorem optionLength_network (r : Recipe) : r.network.optionLength = 0 := by
  simp [Header.Ipv4.optionLength, network]

section OneSegment

variable (src dst : Ipv4) (segment : Segment) (leastLength : Nat)

/-- The recipe that has this transport header and no other. -/
def ofSegment : Recipe where
  src := src
  dst := dst
  protocol := segment.protocol
  transport := segment.octets
  leastLength := leastLength

/-- The layout of its frame. -/
def laid : Laid where
  dst := receiverMac
  src := senderMac
  network :=
    let r := ofSegment src dst segment leastLength
    .ipv4 r.network (.whole [] r.optionLength_network.symm segment (List.replicate (leastLength - r.unpadded.length) 0)) rfl

/-- **What is written one behind the other is what the format lays out.** -/
theorem frame_eq_octets : (ofSegment src dst segment leastLength).frame = (laid src dst segment leastLength).octets := by
  obtain ⟨r, hr⟩ : ∃ r, r = ofSegment src dst segment leastLength := ⟨_, rfl⟩
  have hunpadded : r.unpadded = (laid src dst segment leastLength).link.octets ++ (r.network.octets ++ segment.octets) := by
    rw [unpadded, List.append_assoc, hr]
    rfl
  calc (ofSegment src dst segment leastLength).frame
      = r.unpadded ++ List.replicate (leastLength - r.unpadded.length) 0 := by rw [hr]; rfl
    _ = (laid src dst segment leastLength).link.octets ++ (r.network.octets ++ segment.octets) ++
          List.replicate (leastLength - r.unpadded.length) 0 := congrArg (· ++ _) hunpadded
    _ = (laid src dst segment leastLength).octets := by
      rw [List.append_assoc, List.append_assoc, hr]
      rfl

variable {segment} {i : Ingredient}

theorem classified_laid (h : i.segment? = some segment) (direction : Direction) (interface : UInt32) :
    (laid src dst segment leastLength).classified direction interface = i.classified src dst direction interface := by
  cases i <;> cases h <;> rfl

/-- **Its frame is a packet of the flow that it names.** -/
theorem ofFrame?_ofSegment (h : i.segment? = some segment) (direction : Direction) (interface : UInt32) :
    Classified.ofFrame? (ofSegment src dst segment leastLength).frame direction interface =
      some (i.classified src dst direction interface) := by
  rw [frame_eq_octets, Classified.ofFrame?_octets, classified_laid src dst leastLength h]

theorem exists_ofSegment {ingredients : List Ingredient} (h : ingredients.filter isTransport = [i]) :
    ∃ segment, i.segment? = some segment ∧
      ingredients.foldl add { src, dst } =
        ofSegment src dst segment ((ingredients.filterMap leastLength?).getLastD 0) := by
  obtain ⟨segment, hi, hsegments⟩ := Ingredient.exists_segment h
  refine ⟨segment, hi, ?_⟩
  rw [foldl_add, hsegments]
  simp [ofSegment]

end OneSegment

/-- **Frames are read back as they were made.**  Take any addresses, any interface and either direction, and any ingredients of which
just one is a transport header.  The frame is as long as its headers, or as the last least length if that is more.  It is classified
by the addresses it was made of, its sender and its receiver, the protocol and the ports of the transport header, what the control
bits and the sequence number of a segment tell, no message, and the interface and the direction that were given.  A sample is taken
of it just if it is a datagram to port 53, and the sample has the interface and the length of the frame. -/
theorem frame_read_back (src dst : Ipv4) (ingredients : List Ingredient) {i : Ingredient}
    (h : ingredients.filter isTransport = [i]) (direction : Direction) (interface : UInt32) :
    let frame := (ingredients.foldl add { src, dst }).frame
    frame.length = max (34 + i.headerLength) ((ingredients.filterMap leastLength?).getLastD 0) ∧
      Classified.ofFrame? frame direction interface = some (i.classified src dst direction interface) ∧
      ∀ m, Sample.ofFrame? frame interface = some m ↔
        (∃ srcPort, i = .udp srcPort 53) ∧ m = ⟨interface, UInt32.ofNat frame.length⟩ := by
  obtain ⟨segment, hi, hmade⟩ := exists_ofSegment src dst h
  rw [hmade]
  have hclassified := ofFrame?_ofSegment src dst ((ingredients.filterMap leastLength?).getLastD 0) hi direction interface
  refine ⟨?_, hclassified, fun m => ?_⟩
  · rw [length_frame, ofSegment, Ingredient.length_segment hi]
  · rw [Sample.ofFrame?_eq_some_iff_of_classified hclassified, Ingredient.classified_sampled_iff]

/-- The length that was asked for first is too long, and the one that counts is too short. -/
theorem frame_read_back_name_query :
    let ingredients : List Ingredient := [.paddedTo 100, .udp 40000 53, .paddedTo 20]
    let frame := (ingredients.foldl add { src := #v[10, 0, 0, 1], dst := #v[10, 0, 0, 2] }).frame
    ingredients.filter isTransport = [.udp 40000 53] ∧ frame.length = 42 ∧
      (Classified.ofFrame? frame .ingress 7).map (fun c => (c.id.srcPort, c.id.dstPort, c.signal)) = some (40000, 53, {}) ∧
      Sample.ofFrame? frame 7 = some { interface := 7, length := 42 } := by
  intro ingredients frame
  have h : ingredients.filter isTransport = [.udp 40000 53] := by decide
  obtain ⟨hlength, hclassified, hsampled⟩ := frame_read_back #v[10, 0, 0, 1] #v[10, 0, 0, 2] ingredients h .ingress 7
  refine ⟨h, hlength, ?_, (hsampled _).2 ⟨⟨40000, rfl⟩, ?_⟩⟩
  · rw [hclassified]
    rfl
  · rw [hlength]
    rfl

end Recipe
end FlowMeter.Frame
