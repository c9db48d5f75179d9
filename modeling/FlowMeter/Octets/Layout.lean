import FlowMeter.Octets.Word
/-!
# Fixed layouts

A `Layout α` lays a value out as exactly `size` octets and reads it back; every string of that length is a value, so the
two directions are inverse.  Words, octet fields, sequences of fields and renamings are layouts, and so is whatever they
compose.  `Layout.readAt?` reads a value inside a longer string, `Layout.read?` at its start.  Main lemma:
`Layout.readAt?_eq_some_iff`.
-/
namespace FlowMeter

/-- A type laid out as a fixed number of octets, one value for each string of that length. -/
structure Layout (α : Type) where
  size : Nat
  encode : α → Octets
  /-- The value at the start of the string; meaningful when it has at least `size` octets. -/
  decode : Octets → α
  length_encode : ∀ a, (encode a).length = size
  decode_encode : ∀ a, decode (encode a) = a
  encode_decode : ∀ s, s.length = size → encode (decode s) = s

namespace Layout

variable {α β : Type}

def u8 : Layout UInt8 where
  size := 1
  encode a := [a]
  decode s := s.headD 0
  length_encode _ := rfl
  decode_encode _ := rfl
  encode_decode s h := by
    obtain ⟨b, rfl⟩ := List.length_eq_one_iff.1 h
    rfl

def be16 : Layout UInt16 where
  size := 2
  encode a := Octets.bigEndian 2 a.toNat
  decode s := UInt16.ofNat (Octets.ofBigEndian s)
  length_encode _ := Octets.length_bigEndian ..
  decode_encode a := by
    have h : a.toNat < Octets.values 2 := a.toNat_lt
    rw [Octets.ofBigEndian_bigEndian, Nat.mod_eq_of_lt h, UInt16.ofNat_toNat]
  encode_decode s h := by
    have := Octets.ofBigEndian_lt s
    rw [h] at this
    rw [UInt16.toNat_ofNat_of_lt' this, ← h, Octets.bigEndian_ofBigEndian]

def be32 : Layout UInt32 where
  size := 4
  encode a := Octets.bigEndian 4 a.toNat
  decode s := UInt32.ofNat (Octets.ofBigEndian s)
  length_encode _ := Octets.length_bigEndian ..
  decode_encode a := by
    have h : a.toNat < Octets.values 4 := a.toNat_lt
    rw [Octets.ofBigEndian_bigEndian, Nat.mod_eq_of_lt h, UInt32.ofNat_toNat]
  encode_decode s h := by
    have := Octets.ofBigEndian_lt s
    rw [h] at this
    rw [UInt32.toNat_ofNat_of_lt' this, ← h, Octets.bigEndian_ofBigEndian]

def le16 : Layout UInt16 where
  size := 2
  encode a := Octets.littleEndian 2 a.toNat
  decode s := UInt16.ofNat (Octets.ofLittleEndian s)
  length_encode _ := Octets.length_littleEndian ..
  decode_encode a := by
    have h : a.toNat < Octets.values 2 := a.toNat_lt
    rw [Octets.ofLittleEndian_littleEndian, Nat.mod_eq_of_lt h, UInt16.ofNat_toNat]
  encode_decode s h := by
    have := Octets.ofLittleEndian_lt s
    rw [h] at this
    rw [UInt16.toNat_ofNat_of_lt' this, ← h, Octets.littleEndian_ofLittleEndian]

def le32 : Layout UInt32 where
  size := 4
  encode a := Octets.littleEndian 4 a.toNat
  decode s := UInt32.ofNat (Octets.ofLittleEndian s)
  length_encode _ := Octets.length_littleEndian ..
  decode_encode a := by
    have h : a.toNat < Octets.values 4 := a.toNat_lt
    rw [Octets.ofLittleEndian_littleEndian, Nat.mod_eq_of_lt h, UInt32.ofNat_toNat]
  encode_decode s h := by
    have := Octets.ofLittleEndian_lt s
    rw [h] at this
    rw [UInt32.toNat_ofNat_of_lt' this, ← h, Octets.littleEndian_ofLittleEndian]

def le64 : Layout UInt64 where
  size := 8
  encode a := Octets.littleEndian 8 a.toNat
  decode s := UInt64.ofNat (Octets.ofLittleEndian s)
  length_encode _ := Octets.length_littleEndian ..
  decode_encode a := by
    have h : a.toNat < Octets.values 8 := a.toNat_lt
    rw [Octets.ofLittleEndian_littleEndian, Nat.mod_eq_of_lt h, UInt64.ofNat_toNat]
  encode_decode s h := by
    have := Octets.ofLittleEndian_lt s
    rw [h] at this
    rw [UInt64.toNat_ofNat_of_lt' this, ← h, Octets.littleEndian_ofLittleEndian]

/-- A field of `n` octets taken as they are. -/
def octets (n : Nat) : Layout (Vector UInt8 n) where
  size := n
  encode a := a.toList
  decode s := Vector.ofFn fun i => s.getD i 0
  length_encode a := by simp
  decode_encode a := by
    ext i hi
    simp
  encode_decode s h := by
    apply List.ext_getElem
    · simp [h]
    · intro i _ h2
      simp [List.getElem?_eq_getElem h2]

def seq (A : Layout α) (B : Layout β) : Layout (α × β) where
  size := A.size + B.size
  encode p := A.encode p.1 ++ B.encode p.2
  decode s := (A.decode (s.take A.size), B.decode (s.drop A.size))
  length_encode p := by simp [A.length_encode, B.length_encode]
  decode_encode p := by
    have h := A.length_encode p.1
    rw [← h, List.take_left, List.drop_left, A.decode_encode, B.decode_encode]
  encode_decode s h := by
    rw [A.encode_decode _ (by simp; omega), B.encode_decode _ (by simp; omega), List.take_append_drop]

/-- The same octets under another name for the value. -/
def rename (A : Layout α) (make : α → β) (parts : β → α) (make_parts : ∀ b, make (parts b) = b)
    (parts_make : ∀ a, parts (make a) = a) : Layout β where
  size := A.size
  encode b := A.encode (parts b)
  decode s := make (A.decode s)
  length_encode b := A.length_encode _
  decode_encode b := by rw [A.decode_encode, make_parts]
  encode_decode s h := by rw [parts_make, A.encode_decode s h]

/-- The value at an offset, if all its octets lie inside the string. -/
def readAt? (A : Layout α) (s : Octets) (offset : Nat) : Option α :=
  if offset + A.size ≤ s.length then some (A.decode ((s.drop offset).take A.size)) else none

/-- The value at the start; what follows it is left alone. -/
def read? (A : Layout α) (s : Octets) : Option α := A.readAt? s 0

theorem readAt?_isSome_iff (A : Layout α) (s : Octets) (offset : Nat) :
    (A.readAt? s offset).isSome ↔ offset + A.size ≤ s.length := by
  unfold readAt?
  split <;> simp [*]

theorem readAt?_eq_none_iff (A : Layout α) (s : Octets) (offset : Nat) :
    A.readAt? s offset = none ↔ s.length < offset + A.size := by
  unfold readAt?
  split
  · simp [*]
  · simp
    omega

/-- **A value is read exactly where its octets stand.** -/
theorem readAt?_eq_some_iff (A : Layout α) (s : Octets) (offset : Nat) (a : α) :
    A.readAt? s offset = some a ↔
      offset + A.size ≤ s.length ∧ (s.drop offset).take A.size = A.encode a := by
  unfold readAt?
  split
  · rename_i h
    have hl : ((s.drop offset).take A.size).length = A.size := by simp; omega
    simp only [Option.some.injEq, h, true_and]
    constructor
    · rintro rfl
      rw [A.encode_decode _ hl]
    · intro he
      rw [he, A.decode_encode]
  · rename_i h
    simp [h]

theorem readAt?_append (A : Layout α) (a : α) (before after : Octets) :
    A.readAt? (before ++ A.encode a ++ after) before.length = some a := by
  rw [readAt?_eq_some_iff]
  have h := A.length_encode a
  constructor
  · simp [h]
  · rw [List.append_assoc, List.drop_left, ← h, List.take_left]

theorem read?_encode_append (A : Layout α) (a : α) (after : Octets) : A.read? (A.encode a ++ after) = some a :=
  A.readAt?_append a [] after

theorem encode_injective (A : Layout α) {a b : α} (h : A.encode a = A.encode b) : a = b := by
  rw [← A.decode_encode a, h, A.decode_encode]

end Layout
end FlowMeter
