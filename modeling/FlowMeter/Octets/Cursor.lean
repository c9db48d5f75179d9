import FlowMeter.Octets.Layout
/-!
# Octets in memory

A string in memory is looked at through a cursor, which holds the address of its first octet and that of the one behind its last
(`Cursor.ofSlice`).  Whether a value lies in view is one comparison of addresses, made before its octets are read
(`Cursor.addressAt?`, `Cursor.load?`).  Addresses have sixty-four bits, and sums of them wrap.
-/
namespace FlowMeter

/-- The octet that stands at each address. -/
abbrev Memory := UInt64 → UInt8

namespace Memory

/-- The octets from an address on. -/
def octets (m : Memory) (address : UInt64) : (count : Nat) → Octets
  | 0 => []
  | count + 1 => m address :: m.octets (address + 1) count

/-- The memory that holds a string at an address, and zeros elsewhere. -/
def holding (s : Octets) (address : UInt64) : Memory := fun a => s.getD (a - address).toNat 0

@[simp] theorem length_octets (m : Memory) : ∀ (address : UInt64) (count : Nat), (m.octets address count).length = count
  | _, 0 => rfl
  | address, count + 1 => by simp [octets, length_octets m (address + 1) count]

end Memory

/-- A string in memory that ends before the addresses do. -/
structure Slice where
  memory : Memory
  address : UInt64
  length : Nat
  ends : address.toNat + length < UInt64.size

namespace Slice

def octets (s : Slice) : Octets := s.memory.octets s.address s.length

/-- A string put at an address. -/
def holding (s : Octets) (address : UInt64) (ends : address.toNat + s.length < UInt64.size) : Slice where
  memory := .holding s address
  address := address
  length := s.length
  ends := ends

@[simp] theorem length_octets (s : Slice) : s.octets.length = s.length := s.memory.length_octets ..

end Slice

/-- A view of the octets from one address up to another, which is not in view any more. -/
structure Cursor where
  memory : Memory
  start : UInt64
  stop : UInt64

namespace Cursor

def ofSlice (s : Slice) : Cursor where
  memory := s.memory
  start := s.address
  stop := s.address + UInt64.ofNat s.length

/-- Number of octets in view; none if the addresses are the wrong way round. -/
def length (c : Cursor) : UInt64 := if c.start ≤ c.stop then c.stop - c.start else 0

def isEmpty (c : Cursor) : Bool := c.length == 0

variable {α : Type}

/-- The address of the value at an offset, unless the value ends out of view. -/
def addressAt? (c : Cursor) (A : Layout α) (offset : UInt64) : Option UInt64 :=
  if c.stop < c.start + (offset + UInt64.ofNat A.size) then none else some (c.start + offset)

/-- The value at an offset. -/
def load? (c : Cursor) (A : Layout α) (offset : UInt64) : Option α :=
  (c.addressAt? A offset).map fun address => A.decode (c.memory.octets address A.size)

end Cursor
end FlowMeter
