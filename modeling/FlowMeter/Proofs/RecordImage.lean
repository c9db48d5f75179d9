import FlowMeter.Flow.Record
import Mathlib.Algebra.GroupWithZero.Nat
/-!
# The image of a record

A record's nineteen fields stand one behind the other, each at its own offset and numbers low octet first (`Record.Field`,
`Record.slice_toOctets`).  Nothing is between them, so each string of 97 octets is the image of just one record, and what
follows it in a longer string is not looked at (`Record.ofOctets?_eq_some_iff`).
-/
namespace FlowMeter

namespace Octets

/-- The digits of a number to the base 256, the lowest first. -/
def digits (width n : Nat) : Octets := (List.range width).map fun i => UInt8.ofNat (n / 256 ^ i)

theorem littleEndian_eq_digits : ∀ width n : Nat, littleEndian width n = digits width n
  | 0, _ => rfl
  | width + 1, n => by
    have hrest : ∀ i, n / 256 ^ (i + 1) = n / 256 / 256 ^ i := fun i => by
      rw [Nat.div_div_eq_div_mul, Nat.pow_succ']
    rw [littleEndian, littleEndian_eq_digits width (n / 256), digits, digits, List.range_succ_eq_map]
    simp [Function.comp_def, hrest]

@[simp] theorem length_digits (width n : Nat) : (digits width n).length = width := by
  simp [digits]

end Octets

namespace Flow.Record

/-- The fields in the order in which they are declared. -/
inductive Field where
  | etherType | direction | srcMac | dstMac | srcIp | dstIp | srcPort | dstPort | protocol | icmpType | icmpCode | interface
  | packets | bytes | start | stop | handshake | flags | errno
  deriving DecidableEq, Repr

namespace Field

def ofId : List Field :=
  [etherType, direction, srcMac, dstMac, srcIp, dstIp, srcPort, dstPort, protocol, icmpType, icmpCode, interface]

def ofMetrics : List Field := [packets, bytes, start, stop, handshake, flags, errno]

def all : List Field := ofId ++ ofMetrics

def width : Field → Nat
  | direction | protocol | icmpType | icmpCode | errno => 1
  | etherType | srcPort | dstPort | flags => 2
  | interface | packets => 4
  | srcMac | dstMac => 6
  | bytes | start | stop | handshake => 8
  | srcIp | dstIp => 16

def offset : Field → Nat
  | etherType => 0
  | direction => 2
  | srcMac => 3
  | dstMac => 9
  | srcIp => 15
  | dstIp => 31
  | srcPort => 47
  | dstPort => 49
  | protocol => 51
  | icmpType => 52
  | icmpCode => 53
  | interface => 54
  | packets => 58
  | bytes => 62
  | start => 70
  | stop => 78
  | handshake => 86
  | flags => 94
  | errno => 96

/-- What the field of a record looks like. -/
def octets (r : Record) : Field → Octets
  | etherType => Octets.digits 2 r.id.etherType.toNat
  | direction => [r.id.direction]
  | srcMac => r.id.srcMac.toList
  | dstMac => r.id.dstMac.toList
  | srcIp => r.id.srcIp.toList
  | dstIp => r.id.dstIp.toList
  | srcPort => Octets.digits 2 r.id.srcPort.toNat
  | dstPort => Octets.digits 2 r.id.dstPort.toNat
  | protocol => [r.id.protocol]
  | icmpType => [r.id.icmpType]
  | icmpCode => [r.id.icmpCode]
  | interface => Octets.digits 4 r.id.interface.toNat
  | packets => Octets.digits 4 r.metrics.packets.toNat
  | bytes => Octets.digits 8 r.metrics.bytes.toNat
  | start => Octets.digits 8 r.metrics.start.toNat
  | stop => Octets.digits 8 r.metrics.stop.toNat
  | handshake => Octets.digits 8 r.metrics.handshake.toNat
  | flags => Octets.digits 2 r.metrics.flags.toNat
  | errno => [r.metrics.errno]

variable (r : Record) (f : Field)

@[simp] theorem length_octets : (f.octets r).length = f.width := by
  cases f <;> simp [octets, width]

theorem length_flatMap_octets (fields : List Field) : (fields.flatMap (octets r)).length = (fields.map width).sum := by
  simp [List.length_flatMap]

theorem all_eq : all = all.takeWhile (· ≠ f) ++ f :: (all.dropWhile (· ≠ f)).tail := by
  cases f <;> rfl

/-- **A field starts where the fields before it end.** -/
theorem offset_eq : f.offset = ((all.takeWhile (· ≠ f)).map width).sum := by
  cases f <;> rfl

theorem slice_flatMap (before after : List Field) :
    (((before ++ f :: after).flatMap (octets r)).drop (before.map width).sum).take f.width = f.octets r := by
  rw [List.flatMap_append, List.flatMap_cons, List.drop_left' (length_flatMap_octets r before),
    List.take_left' (length_octets r f)]

end Field

theorem encode_id (r : Record) : Id.layout.encode r.id = Field.ofId.flatMap (Field.octets r) := by
  simp only [Field.ofId, List.flatMap_cons, List.flatMap_nil, List.append_nil, Field.octets, ← Octets.littleEndian_eq_digits]
  rfl

theorem encode_metrics (r : Record) : Metrics.layout.encode r.metrics = Field.ofMetrics.flatMap (Field.octets r) := by
  simp only [Field.ofMetrics, List.flatMap_cons, List.flatMap_nil, List.append_nil, Field.octets,
    ← Octets.littleEndian_eq_digits]
  rfl

theorem toOctets_eq_append (r : Record) : r.toOctets = Id.layout.encode r.id ++ Metrics.layout.encode r.metrics := rfl

theorem toOctets_eq_flatMap (r : Record) : r.toOctets = Field.all.flatMap (Field.octets r) := by
  rw [toOctets_eq_append, encode_id, encode_metrics, Field.all, List.flatMap_append]

/-- **Each field stands at its offset.** -/
theorem slice_toOctets (r : Record) (f : Field) : (r.toOctets.drop f.offset).take f.width = f.octets r := by
  rw [toOctets_eq_flatMap, f.all_eq, f.offset_eq]
  exact f.slice_flatMap r _ _

/-- **A string is read as the record whose image it starts with.** -/
theorem ofOctets?_eq_some_iff (s : Octets) (r : Record) :
    ofOctets? s = some r ↔ 97 ≤ s.length ∧ s.take 97 = r.toOctets := by
  have h := layout.readAt?_eq_some_iff s 0 r
  rwa [Nat.zero_add, List.drop_zero, size_layout] at h

theorem map_toOctets_ofOctets? (s : Octets) :
    (ofOctets? s).map toOctets = if s.length < 97 then none else some (s.take 97) := by
  cases h : ofOctets? s with
  | none => rw [if_pos ((ofOctets?_eq_none_iff s).1 h), Option.map_none]
  | some r =>
    obtain ⟨hlong, himage⟩ := (ofOctets?_eq_some_iff s r).1 h
    rw [if_neg (Nat.not_lt.2 hlong), Option.map_some, himage]

theorem toOctets_inj {r r' : Record} : r.toOctets = r'.toOctets ↔ r = r' :=
  ⟨layout.encode_injective, congrArg toOctets⟩

/-- **Records and strings of 97 octets are the same.**  A record's image has 97 octets and is read back as the record, whatever
follows it.  Only a shorter string is not read, and from any other one comes the record whose image its first 97 octets are, so
equal images are those of equal records, and the same holds for identities and their 58 octets.  The image is the identity's and
then the metrics', and in it each field stands at its offset, with no octet between one field and the next. -/
theorem image_bijective :
    (∀ r : Record, r.toOctets.length = 97 ∧ ∀ after, ofOctets? (r.toOctets ++ after) = some r) ∧
      (∀ s, (ofOctets? s = none ↔ s.length < 97) ∧
        (ofOctets? s).map toOctets = if s.length < 97 then none else some (s.take 97)) ∧
      (∀ r r' : Record, r = r' ↔ r.toOctets = r'.toOctets) ∧
      (∀ i j : Id, (Id.layout.encode i).length = 58 ∧ (i = j ↔ Id.layout.encode i = Id.layout.encode j)) ∧
      ∀ r : Record, r.toOctets.take 58 = Id.layout.encode r.id ∧ r.toOctets.drop 58 = Metrics.layout.encode r.metrics ∧
        r.toOctets = Field.all.flatMap (Field.octets r) ∧ ∀ f : Field, (r.toOctets.drop f.offset).take f.width = f.octets r := by
  have hid : ∀ i : Id, (Id.layout.encode i).length = 58 := Id.layout.length_encode
  refine ⟨fun r => ⟨r.length_toOctets, r.ofOctets?_toOctets_append⟩,
    fun s => ⟨ofOctets?_eq_none_iff s, map_toOctets_ofOctets? s⟩, fun r r' => toOctets_inj.symm, fun i j => ⟨hid i, ?_⟩,
    fun r => ⟨?_, ?_, r.toOctets_eq_flatMap, r.slice_toOctets⟩⟩
  · exact ⟨congrArg Id.layout.encode, Id.layout.encode_injective⟩
  · rw [toOctets_eq_append, List.take_left' (hid r.id)]
  · rw [toOctets_eq_append, List.drop_left' (hid r.id)]

/-- The interface in the last four octets of the identity, and the number of packets behind it. -/
example :
    let r : Record := { id := { etherType := 0x0800, interface := 0x01020304 }, metrics := { packets := 1, errno := 7 } }
    r.toOctets.take 2 = [0x00, 0x08] ∧ (r.toOctets.drop 54).take 8 = [4, 3, 2, 1, 1, 0, 0, 0] ∧
      r.toOctets.getLast? = some 7 := by
  decide

end Flow.Record
end FlowMeter
