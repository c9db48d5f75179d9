import FlowMeter.Octets.Layout
/-!
# Link and network addresses

Every network address is kept as sixteen octets; a four-octet address takes the form `::ffff:a.b.c.d` (`Ip.ofIpv4`).
Main lemma: `Ip.ipv4?_eq_some_iff`.
-/
namespace FlowMeter

/-- A link-layer address. -/
abbrev Mac := Vector UInt8 6

/-- A network address of four octets. -/
abbrev Ipv4 := Vector UInt8 4

/-- A network address of sixteen octets. -/
abbrev Ip := Vector UInt8 16

namespace Ip

/-- The twelve octets in front of a four-octet address. -/
def mappedHead : Vector UInt8 12 := #v[0, 0, 0, 0, 0, 0, 0, 0, 0, 0, 0xff, 0xff]

def ofIpv4 (a : Ipv4) : Ip := mappedHead ++ a

/-- The four-octet address that a sixteen-octet one stands for. -/
def ipv4? (a : Ip) : Option Ipv4 :=
  if a.toList.take 12 = mappedHead.toList then (Layout.octets 4).readAt? a.toList 12 else none

theorem toList_ofIpv4 (a : Ipv4) : (ofIpv4 a).toList = mappedHead.toList ++ a.toList :=
  Vector.toList_append

/-- **An address stands for a four-octet one exactly if it is the image of it.** -/
theorem ipv4?_eq_some_iff (a : Ip) (b : Ipv4) : ipv4? a = some b ↔ a = ofIpv4 b := by
  have hb : (Layout.octets 4).encode b = b.toList := rfl
  have hs : (Layout.octets 4).size = 4 := rfl
  unfold ipv4?
  rw [← Vector.toList_inj, toList_ofIpv4]
  constructor
  · intro h
    split at h
    · rename_i hh
      rw [Layout.readAt?_eq_some_iff, hb, hs, List.take_of_length_le (by simp)] at h
      rw [← hh, ← h.2, List.take_append_drop]
    · cases h
  · intro h
    have ht : a.toList.take 12 = mappedHead.toList := by
      rw [h, List.take_left' (by simp)]
    rw [if_pos ht, Layout.readAt?_eq_some_iff, hb, hs, h, List.drop_left' (by simp),
      List.take_of_length_le (by simp)]
    simp

end Ip
end FlowMeter
