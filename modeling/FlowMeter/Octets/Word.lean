/-!
# Numbers as octets

A number of fixed width is a sequence of octets, least significant first (`littleEndian`) or most significant first
(`bigEndian`).  Main lemmas: `ofLittleEndian_littleEndian` and `littleEndian_ofLittleEndian`, and the same for big endian.
-/
namespace FlowMeter

/-- A string of octets: a frame, a record's image, a name as the system gives it. -/
abbrev Octets := List UInt8

namespace Octets

/-- The low `width` octets of a number, least significant first. -/
def littleEndian : (width : Nat) → Nat → Octets
  | 0, _ => []
  | width + 1, n => UInt8.ofNat n :: littleEndian width (n / 256)

/-- The number whose octets are given least significant first. -/
def ofLittleEndian : Octets → Nat
  | [] => 0
  | b :: rest => b.toNat + 256 * ofLittleEndian rest

/-- The low `width` octets of a number, most significant first. -/
def bigEndian (width n : Nat) : Octets := (littleEndian width n).reverse

/-- The number whose octets are given most significant first. -/
def ofBigEndian (s : Octets) : Nat := ofLittleEndian s.reverse

/-- How many numbers so many octets tell apart. -/
def values : (width : Nat) → Nat
  | 0 => 1
  | width + 1 => 256 * values width

@[simp] theorem length_littleEndian : ∀ (width n : Nat), (littleEndian width n).length = width
  | 0, _ => rfl
  | width + 1, n => by simp [littleEndian, length_littleEndian width]

@[simp] theorem length_bigEndian (width n : Nat) : (bigEndian width n).length = width := by
  simp [bigEndian]

theorem ofLittleEndian_littleEndian : ∀ (width n : Nat), ofLittleEndian (littleEndian width n) = n % values width
  | 0, n => by simp [littleEndian, ofLittleEndian, values, Nat.mod_one]
  | width + 1, n => by
    have hb : (UInt8.ofNat n).toNat = n % 256 := UInt8.toNat_ofNat'
    rw [littleEndian, ofLittleEndian, ofLittleEndian_littleEndian width, hb, values, Nat.mod_mul]

theorem littleEndian_ofLittleEndian : ∀ (s : Octets), littleEndian s.length (ofLittleEndian s) = s
  | [] => rfl
  | b :: rest => by
    have hb := b.toNat_lt
    have h1 : (b.toNat + 256 * ofLittleEndian rest) / 256 = ofLittleEndian rest := by omega
    have h2 : UInt8.ofNat (b.toNat + 256 * ofLittleEndian rest) = b := by
      apply UInt8.toNat_inj.1
      simp only [UInt8.toNat_ofNat']
      omega
    simp only [List.length_cons, ofLittleEndian, littleEndian, h1, h2, littleEndian_ofLittleEndian rest]

theorem ofLittleEndian_lt : ∀ (s : Octets), ofLittleEndian s < values s.length
  | [] => by simp [ofLittleEndian, values]
  | b :: rest => by
    have hb := b.toNat_lt
    have := ofLittleEndian_lt rest
    simp only [ofLittleEndian, List.length_cons, values]
    omega

theorem ofBigEndian_bigEndian (width n : Nat) : ofBigEndian (bigEndian width n) = n % values width := by
  simp [ofBigEndian, bigEndian, ofLittleEndian_littleEndian]

theorem bigEndian_ofBigEndian (s : Octets) : bigEndian s.length (ofBigEndian s) = s := by
  have h := littleEndian_ofLittleEndian s.reverse
  rw [List.length_reverse] at h
  simp [bigEndian, ofBigEndian, h]

theorem ofBigEndian_lt (s : Octets) : ofBigEndian s < values s.length := by
  simpa [ofBigEndian] using ofLittleEndian_lt s.reverse

end Octets
end FlowMeter
