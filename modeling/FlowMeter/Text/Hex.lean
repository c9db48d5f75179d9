import FlowMeter.Octets.Word
/-!
# Hexadecimal text

Numbers in lower-case hexadecimal digits, with or without a least width.
-/
namespace FlowMeter.Hex

/-- The digits of a number, without leading zeros; zero has one digit. -/
def digits (n : Nat) : List Char := Nat.toDigits 16 n

/-- The digits with zeros in front, up to a width. -/
def padded (width n : Nat) : List Char :=
  List.replicate (width - (digits n).length) '0' ++ digits n

def ofOctets (s : Octets) : List Char := s.flatMap fun b => padded 2 b.toNat

/-- The value of a digit, in either case. -/
def digit? (c : Char) : Option Nat :=
  if '0' ≤ c ∧ c ≤ '9' then some (c.toNat - '0'.toNat)
  else if 'a' ≤ c ∧ c ≤ 'f' then some (c.toNat - 'a'.toNat + 10)
  else if 'A' ≤ c ∧ c ≤ 'F' then some (c.toNat - 'A'.toNat + 10)
  else none

/-- The octets that pairs of digits stand for. -/
def octets? : List Char → Option Octets
  | [] => some []
  | [_] => none
  | a :: b :: rest => do
    let high ← digit? a
    let low ← digit? b
    let tail ← octets? rest
    return UInt8.ofNat (16 * high + low) :: tail

end FlowMeter.Hex
