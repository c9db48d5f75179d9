import FlowMeter.Octets.Cursor
import FlowMeter.Proofs.FrameFormat
import Mathlib.Data.Nat.Digits.Defs
/-!
# Headers loaded from memory

One comparison of addresses decides whether a header is loaded, and it comes to asking whether the header ends inside the string
that is in view, as long as no address passes the last one there is (`Cursor.load?_ofSlice`).  What is loaded are the octets at the
offset, so it depends neither on where the string is nor on what follows it (`load_exact`).
-/
namespace FlowMeter

namespace Octets

/-- The number that octets come to in network order. -/
def number (s : Octets) : Nat := Nat.ofDigits 256 (s.reverse.map UInt8.toNat)

theorem ofLittleEndian_eq_ofDigits : ∀ s : Octets, ofLittleEndian s = Nat.ofDigits 256 (s.map UInt8.toNat)
  | [] => rfl
  | b :: rest => by rw [ofLittleEndian, List.map_cons, Nat.ofDigits_cons, ofLittleEndian_eq_ofDigits rest]

theorem values_eq_pow : ∀ width : Nat, values width = 256 ^ width
  | 0 => rfl
  | width + 1 => by rw [values, values_eq_pow width, Nat.pow_succ']

theorem number_bigEndian {width n : Nat} (h : n < 256 ^ width) : number (bigEndian width n) = n := by
  have hdigits : number (bigEndian width n) = n % values width := by
    rw [number, ← ofLittleEndian_eq_ofDigits]
    exact ofBigEndian_bigEndian width n
  rw [hdigits, values_eq_pow, Nat.mod_eq_of_lt h]

@[simp] theorem number_u8 (b : UInt8) : number [b] = b.toNat := by simp [number]

@[simp] theorem number_u16 (n : UInt16) : number (bigEndian 2 n.toNat) = n.toNat := number_bigEndian n.toNat_lt

@[simp] theorem number_u32 (n : UInt32) : number (bigEndian 4 n.toNat) = n.toNat := number_bigEndian n.toNat_lt

end Octets

namespace Memory

theorem getElem_octets (m : Memory) (address : UInt64) {count i : Nat} (h : i < (m.octets address count).length) :
    (m.octets address count)[i] = m (address + UInt64.ofNat i) := by
  induction count generalizing address i with
  | zero => simp [octets] at h
  | succ count ih =>
    cases i with
    | zero => simp [octets]
    | succ i =>
      have hnext : address + 1 + UInt64.ofNat i = address + UInt64.ofNat (i + 1) := by
        rw [UInt64.ofNat_add, UInt64.add_assoc, UInt64.add_comm 1]
        rfl
      simp only [octets, List.getElem_cons_succ, ih, hnext]

/-- **A part of what stands in memory stands there, so much further on.** -/
theorem take_drop_octets (m : Memory) (address : UInt64) {count offset size : Nat} (h : offset + size ≤ count) :
    ((m.octets address count).drop offset).take size = m.octets (address + UInt64.ofNat offset) size := by
  apply List.ext_getElem
  · simp
    omega
  · intro i _ _
    simp [getElem_octets, UInt64.add_assoc]

end Memory

theorem Slice.octets_holding (s : Octets) (address : UInt64) (ends : address.toNat + s.length < UInt64.size) :
    (holding s address ends).octets = s := by
  apply List.ext_getElem
  · simp [holding]
  · intro i _ hi
    have hlt : i < UInt64.size := by omega
    have hdistance : (address + UInt64.ofNat i - address).toNat = i := by
      rw [UInt64.add_comm, UInt64.add_sub_cancel, UInt64.toNat_ofNat_of_lt' hlt]
    have hoctet : (holding s address ends).octets[i] = s.getD (address + UInt64.ofNat i - address).toNat 0 :=
      Memory.getElem_octets _ address _
    rw [hoctet, hdistance, List.getD_eq_getElem?_getD, List.getElem?_eq_getElem hi, Option.getD_some]

theorem Layout.readAt?_of_prefix {α : Type} (A : Layout α) {s t : Octets} (h : s <+: t) {offset : Nat} {a : α}
    (ha : A.readAt? s offset = some a) : A.readAt? t offset = some a := by
  obtain ⟨rest, rfl⟩ := h
  have hfits := ((A.readAt?_eq_some_iff s offset a).1 ha).1
  rw [← A.readAt?_take (s ++ rest) hfits, List.take_left]
  exact ha

/-- The string between two addresses. -/
def Slice.between (memory : Memory) (start stop : UInt64) (h : start ≤ stop) : Slice where
  memory := memory
  address := start
  length := (stop - start).toNat
  ends := by
    rw [UInt64.toNat_sub_of_le _ _ h]
    have hle := UInt64.le_iff_toNat_le.1 h
    have hlt := stop.toNat_lt_size
    omega

namespace Cursor

variable {α : Type}

theorem toNat_stop_ofSlice (s : Slice) : (ofSlice s).stop.toNat = s.address.toNat + s.length := by
  have hends := s.ends
  have hlength : s.length < UInt64.size := by omega
  show (s.address + UInt64.ofNat s.length).toNat = _
  rw [UInt64.toNat_add, UInt64.toNat_ofNat_of_lt' hlength, Nat.mod_eq_of_lt hends]

theorem length_ofSlice (s : Slice) : (ofSlice s).length = UInt64.ofNat s.length := by
  have hle : (ofSlice s).start ≤ (ofSlice s).stop := by
    rw [UInt64.le_iff_toNat_le, toNat_stop_ofSlice]
    exact Nat.le_add_right ..
  rw [length, if_pos hle]
  show s.address + UInt64.ofNat s.length - s.address = _
  rw [UInt64.add_comm, UInt64.add_sub_cancel]

/-- **The comparison of addresses asks whether the value ends inside the string.** -/
theorem addressAt?_ofSlice (s : Slice) (A : Layout α) (offset : UInt64)
    (h : s.address.toNat + offset.toNat + A.size < UInt64.size) :
    (ofSlice s).addressAt? A offset = if offset.toNat + A.size ≤ s.length then some (s.address + offset) else none := by
  have hsize : A.size < UInt64.size := by omega
  have hsum : offset.toNat + A.size < UInt64.size := by omega
  have hend : (s.address + (offset + UInt64.ofNat A.size)).toNat = s.address.toNat + (offset.toNat + A.size) := by
    rw [UInt64.toNat_add, UInt64.toNat_add, UInt64.toNat_ofNat_of_lt' hsize, Nat.mod_eq_of_lt hsum, ← Nat.add_assoc]
    exact Nat.mod_eq_of_lt h
  have hout : (ofSlice s).stop < s.address + (offset + UInt64.ofNat A.size) ↔ ¬ offset.toNat + A.size ≤ s.length := by
    rw [UInt64.lt_iff_toNat_lt, toNat_stop_ofSlice, hend]
    omega
  have hstart : (ofSlice s).start = s.address := rfl
  unfold addressAt?
  simp only [hstart, hout, ite_not]

/-- **What a cursor loads is what stands in the string.** -/
theorem load?_ofSlice (s : Slice) (A : Layout α) (offset : UInt64)
    (h : s.address.toNat + offset.toNat + A.size < UInt64.size) :
    (ofSlice s).load? A offset = A.readAt? s.octets offset.toNat := by
  unfold load? Layout.readAt?
  rw [addressAt?_ofSlice s A offset h, s.length_octets]
  split
  · rename_i hfits
    have hpart := s.memory.take_drop_octets s.address hfits
    rw [UInt64.ofNat_toNat] at hpart
    rw [Slice.octets, hpart]
    rfl
  · rfl

theorem eq_ofSlice_between (memory : Memory) {start stop : UInt64} (h : start ≤ stop) :
    Cursor.mk memory start stop = ofSlice (Slice.between memory start stop h) := by
  have hstop : start + UInt64.ofNat (stop - start).toNat = stop := by
    rw [UInt64.ofNat_toNat, UInt64.add_comm, UInt64.sub_add_cancel]
  simp only [ofSlice, Slice.between, hstop]

/-- **Two strings of the same octets look the same, wherever they are.** -/
theorem alike_of_octets_eq {s t : Slice} (hsame : t.octets = s.octets) (A : Layout α) (offset : UInt64)
    (hs : s.address.toNat + offset.toNat + A.size < UInt64.size) (ht : t.address.toNat + offset.toNat + A.size < UInt64.size) :
    (ofSlice t).length = (ofSlice s).length ∧ (ofSlice t).load? A offset = (ofSlice s).load? A offset ∧
      (ofSlice t).addressAt? A offset = ((ofSlice s).addressAt? A offset).map fun a => t.address + (a - s.address) := by
  have hlength := congrArg List.length hsame
  rw [t.length_octets, s.length_octets] at hlength
  refine ⟨?_, ?_, ?_⟩
  · rw [length_ofSlice, length_ofSlice, hlength]
  · rw [load?_ofSlice t A offset ht, load?_ofSlice s A offset hs, hsame]
  · have hdistance : s.address + offset - s.address = offset := by rw [UInt64.add_comm, UInt64.add_sub_cancel]
    rw [addressAt?_ofSlice t A offset ht, addressAt?_ofSlice s A offset hs, hlength]
    split
    · rw [Option.map_some, hdistance]
    · rfl

theorem load?_of_prefix {s t : Slice} (h : s.octets <+: t.octets) {A : Layout α} {offset : UInt64}
    (hs : s.address.toNat + offset.toNat + A.size < UInt64.size) {a : α} (ha : (ofSlice s).load? A offset = some a) :
    (ofSlice t).load? A offset = some a := by
  rw [load?_ofSlice s A offset hs] at ha
  have hread := A.readAt?_of_prefix h ha
  -- where the value ends inside the longer string, no address passes the last one
  have hfits := ((A.readAt?_eq_some_iff _ _ _).1 hread).1
  have hends := t.ends
  rw [t.length_octets] at hfits
  rw [load?_ofSlice t A offset (by omega)]
  exact hread

end Cursor

namespace Header

/-- A number in a header, and where in the header its octets stand. -/
structure Number where
  position : Nat
  width : Nat
  value : Nat

/-- The headers that a frame may carry. -/
inductive Kind where
  | ethernet | ipv4 | ipv6 | tcp | udp | sctp | icmp
  deriving DecidableEq, Repr

namespace Kind

def Fields : Kind → Type
  | ethernet => Ethernet
  | ipv4 => Header.Ipv4
  | ipv6 => Ipv6
  | tcp => Tcp
  | udp => Udp
  | sctp => Sctp
  | icmp => Icmp

def layout : (k : Kind) → Layout k.Fields
  | ethernet => Ethernet.layout
  | ipv4 => Header.Ipv4.layout
  | ipv6 => Ipv6.layout
  | tcp => Tcp.layout
  | udp => Udp.layout
  | sctp => Sctp.layout
  | icmp => Icmp.layout

def size : Kind → Nat
  | ethernet => 14
  | ipv4 | tcp => 20
  | ipv6 => 40
  | udp | icmp => 8
  | sctp => 12

/-- The fields one behind the other. -/
def octets : (k : Kind) → k.Fields → Octets
  | ethernet, h => Ethernet.octets h
  | ipv4, h => Ipv4.octets h
  | ipv6, h => Ipv6.octets h
  | tcp, h => Tcp.octets h
  | udp, h => Udp.octets h
  | sctp, h => Sctp.octets h
  | icmp, h => Icmp.octets h

def numbers : (k : Kind) → k.Fields → List Number
  | ethernet, (h : Ethernet) => [⟨12, 2, h.etherType.toNat⟩]
  | ipv4, (h : Header.Ipv4) =>
    [⟨0, 1, h.versionIhl.toNat⟩, ⟨1, 1, h.serviceType.toNat⟩, ⟨2, 2, h.totalLength.toNat⟩, ⟨4, 2, h.identification.toNat⟩,
      ⟨6, 2, h.fragment.toNat⟩, ⟨8, 1, h.timeToLive.toNat⟩, ⟨9, 1, h.protocol.toNat⟩, ⟨10, 2, h.checksum.toNat⟩]
  | ipv6, (h : Ipv6) =>
    [⟨0, 4, h.versionClassLabel.toNat⟩, ⟨4, 2, h.payloadLength.toNat⟩, ⟨6, 1, h.nextHeader.toNat⟩, ⟨7, 1, h.hopLimit.toNat⟩]
  | tcp, (h : Tcp) =>
    [⟨0, 2, h.srcPort.toNat⟩, ⟨2, 2, h.dstPort.toNat⟩, ⟨4, 4, h.sequence.toNat⟩, ⟨8, 4, h.acknowledged.toNat⟩,
      ⟨12, 1, h.dataOffset.toNat⟩, ⟨13, 1, h.control.toNat⟩, ⟨14, 2, h.window.toNat⟩, ⟨16, 2, h.checksum.toNat⟩,
      ⟨18, 2, h.urgent.toNat⟩]
  | udp, (h : Udp) =>
    [⟨0, 2, h.srcPort.toNat⟩, ⟨2, 2, h.dstPort.toNat⟩, ⟨4, 2, h.length.toNat⟩, ⟨6, 2, h.checksum.toNat⟩]
  | sctp, (h : Sctp) =>
    [⟨0, 2, h.srcPort.toNat⟩, ⟨2, 2, h.dstPort.toNat⟩, ⟨4, 4, h.verificationTag.toNat⟩, ⟨8, 4, h.checksum.toNat⟩]
  | icmp, (h : Icmp) =>
    [⟨0, 1, h.type.toNat⟩, ⟨1, 1, h.code.toNat⟩, ⟨2, 2, h.checksum.toNat⟩, ⟨4, 4, h.rest.toNat⟩]

/-- The header's length in octets as the header itself announces it. -/
def announced? : (k : Kind) → k.Fields → Option Nat
  | ipv4, h => some (Header.Ipv4.announcedLength h)
  | _, _ => none

/-- The octets are the header's: its fields stand in them one behind the other, and they hold its numbers in network order. -/
structure Reads (k : Kind) (s : Octets) (h : k.Fields) : Prop where
  fields : k.octets h = s
  numbers : ∀ n ∈ k.numbers h, n.value = Octets.number ((s.drop n.position).take n.width)
  announced : ∀ n ∈ k.announced? h, n = 4 * (Octets.number (s.take 1) % 16)

theorem size_layout (k : Kind) : k.layout.size = k.size := by cases k <;> rfl

theorem encode_layout (k : Kind) (h : k.Fields) : k.layout.encode h = k.octets h := by cases k <;> rfl

theorem value_of_numbers (k : Kind) (h : k.Fields) :
    ∀ n ∈ k.numbers h, n.value = Octets.number (((k.octets h).drop n.position).take n.width) := by
  have h8 := fun b => (Octets.number_u8 b).symm
  have h16 := fun n => (Octets.number_u16 n).symm
  have h32 := fun n => (Octets.number_u32 n).symm
  cases k <;> simp only [numbers, List.forall_mem_cons, List.not_mem_nil, false_imp_iff, implies_true, and_true]
  case ethernet =>
    have htype := Format.take_etherType h []
    rw [List.append_nil] at htype
    exact (h16 _).trans (congrArg Octets.number htype.symm)
  case ipv4 => exact ⟨h8 _, h8 _, h16 _, h16 _, h16 _, h8 _, h8 _, h16 _⟩
  case ipv6 => exact ⟨h32 _, h16 _, h8 _, h8 _⟩
  case tcp => exact ⟨h16 _, h16 _, h32 _, h32 _, h8 _, h8 _, h16 _, h16 _, h16 _⟩
  case udp => exact ⟨h16 _, h16 _, h16 _, h16 _⟩
  case sctp => exact ⟨h16 _, h16 _, h32 _, h32 _⟩
  case icmp => exact ⟨h8 _, h8 _, h16 _, h32 _⟩

theorem eq_of_announced? (k : Kind) (h : k.Fields) :
    ∀ n ∈ k.announced? h, n = 4 * (Octets.number ((k.octets h).take 1) % 16) := by
  intro n hn
  cases k with
  | ipv4 =>
    obtain rfl : Header.Ipv4.announcedLength h = n := Option.some.inj hn
    rw [Ipv4.announcedLength_eq h]
    simp [octets, Ipv4.octets]
  | _ => cases hn

theorem reads_iff (k : Kind) (s : Octets) (h : k.Fields) : k.Reads s h ↔ k.octets h = s := by
  constructor
  · exact Reads.fields
  · rintro rfl
    exact ⟨rfl, k.value_of_numbers h, k.eq_of_announced? h⟩

/-- **A header is read just where its octets stand.** -/
theorem readAt?_layout_iff (k : Kind) (s : Octets) (offset : Nat) (h : k.Fields) :
    k.layout.readAt? s offset = some h ↔ offset + k.size ≤ s.length ∧ k.Reads ((s.drop offset).take k.size) h := by
  rw [Layout.readAt?_eq_some_iff, size_layout, encode_layout, reads_iff]
  exact and_congr_right fun _ => eq_comm

/-- **Headers are loaded from where they stand whole.**  Let no address that comes up pass the last one there is.  A header of any
kind is loaded, and has an address, just if it ends inside the string; the address is then that of its first octet, and what is
loaded is the header whose fields and numbers the octets at the offset are.  A cursor made from two addresses between which the
same octets stand, wherever that is, has the same length in view, loads the same, and finds the address as far from its start.
What is loaded from a string is loaded from every longer one that starts with it. -/
theorem load_exact (k : Kind) (s : Slice) (offset : UInt64) (hwrap : s.address.toNat + offset.toNat + k.size < UInt64.size) :
    let c := Cursor.ofSlice s
    (c.addressAt? k.layout offset =
        if offset.toNat + k.size ≤ s.octets.length then some (s.address + offset) else none) ∧
      ((c.load? k.layout offset).isSome ↔ offset.toNat + k.size ≤ s.octets.length) ∧
      (∀ h, c.load? k.layout offset = some h ↔
        offset.toNat + k.size ≤ s.octets.length ∧ k.Reads ((s.octets.drop offset.toNat).take k.size) h) ∧
      (∀ (memory : Memory) (start stop : UInt64), start ≤ stop → start.toNat + offset.toNat + k.size < UInt64.size →
        memory.octets start (stop - start).toNat = s.octets →
          let raw : Cursor := ⟨memory, start, stop⟩
          raw.length = c.length ∧ raw.load? k.layout offset = c.load? k.layout offset ∧
            raw.addressAt? k.layout offset = (c.addressAt? k.layout offset).map fun a => start + (a - s.address)) ∧
      ∀ t : Slice, s.octets <+: t.octets →
        ∀ h, c.load? k.layout offset = some h → (Cursor.ofSlice t).load? k.layout offset = some h := by
  intro c
  rw [← k.size_layout] at hwrap
  have haddress := Cursor.addressAt?_ofSlice s k.layout offset hwrap
  have hload := Cursor.load?_ofSlice s k.layout offset hwrap
  refine ⟨?_, ?_, fun h => ?_, fun memory start stop hle hwrap' hsame => ?_, fun t hprefix h hh => ?_⟩
  · rw [haddress, k.size_layout, s.length_octets]
  · rw [hload, Layout.readAt?_isSome_iff, k.size_layout]
  · rw [hload, k.readAt?_layout_iff]
  · intro raw
    have hraw : raw = Cursor.ofSlice (Slice.between memory start stop hle) := Cursor.eq_ofSlice_between memory hle
    have hoctets : (Slice.between memory start stop hle).octets = s.octets := hsame
    rw [← k.size_layout] at hwrap'
    rw [hraw]
    exact Cursor.alike_of_octets_eq hoctets k.layout offset hwrap hwrap'
  · exact Cursor.load?_of_prefix hprefix hwrap hh

/-- A datagram's header at the end of a string that stands almost at the last address: the next offset has no header.  The same
octets between two addresses far from there, and the same with one octet more, give the same header. -/
theorem load_exact_last_octet :
    let octets : Octets := List.replicate 14 0 ++ [0x03, 0xe8, 0, 53, 0, 8, 0, 0]
    let s := Slice.holding octets 0xffffffffffffffe8 (by decide)
    let raw : Cursor := ⟨.holding octets 4096, 4096, 4118⟩
    let longer := Slice.holding (octets ++ [1]) 4096 (by decide)
    s.address.toNat + (14 : UInt64).toNat + udp.size < UInt64.size ∧
      s.address.toNat + (15 : UInt64).toNat + udp.size < UInt64.size ∧
      (∃ h : Udp, (Cursor.ofSlice s).load? udp.layout 14 = some h ∧ h.srcPort.toNat = 1000 ∧ h.dstPort.toNat = 53 ∧
        raw.load? udp.layout 14 = some h ∧ (Cursor.ofSlice longer).load? udp.layout 14 = some h) ∧
      (Cursor.ofSlice s).load? udp.layout 15 = none := by
  intro octets s raw longer
  have hs : s.octets = octets := Slice.octets_holding octets _ _
  have hlonger : longer.octets = octets ++ [1] := Slice.octets_holding (octets ++ [1]) _ _
  have hraw : raw.memory.octets raw.start 22 = octets := Slice.octets_holding octets 4096 (by decide)
  have hwrap14 : s.address.toNat + (14 : UInt64).toNat + udp.size < UInt64.size := by decide
  have hwrap15 : s.address.toNat + (15 : UInt64).toNat + udp.size < UInt64.size := by decide
  obtain ⟨-, hsome14, hread14, hraw14, hlonger14⟩ := load_exact udp s 14 hwrap14
  obtain ⟨-, hsome15, -⟩ := load_exact udp s 15 hwrap15
  rw [hs] at hsome14 hread14 hsome15
  obtain ⟨h, hh⟩ := Option.isSome_iff_exists.1 (hsome14.2 (by decide))
  have hnumbers := ((hread14 h).1 hh).2.numbers
  refine ⟨hwrap14, hwrap15, ⟨h, hh, ?_, ?_, ?_, ?_⟩, ?_⟩
  · exact hnumbers ⟨0, 2, UInt16.toNat (Udp.srcPort h)⟩ (by simp [numbers])
  · exact hnumbers ⟨2, 2, UInt16.toNat (Udp.dstPort h)⟩ (by simp [numbers])
  · exact (hraw14 _ _ _ (by decide) (by decide) (hraw.trans hs.symm)).2.1.trans hh
  · exact hlonger14 longer (by rw [hs, hlonger]; exact List.prefix_append _ _) h hh
  · rw [← Option.not_isSome_iff_eq_none, hsome15]
    decide

/-- Where sums of addresses wrap, the comparison lets a value pass that ends behind the string. -/
example :
    ((Cursor.ofSlice (Slice.holding [1, 2, 3, 4] 0xfffffffffffffff8 (by decide))).addressAt? udp.layout 4).isSome := by
  decide

end Kind
end Header
end FlowMeter
