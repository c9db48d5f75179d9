import FlowMeter.Address
import FlowMeter.Text.Hex
/-!
# Addresses as text

Four-octet addresses in dotted decimal; others in eight hexadecimal groups, of which the first longest run of at least two
zero groups is left out (`Ip.compress`).  Link addresses are six pairs of digits.
-/
namespace FlowMeter

def separated (separator : Char) : List (List Char) → List Char
  | [] => []
  | [item] => item
  | item :: rest => item ++ separator :: separated separator rest

def Mac.text (a : Mac) : String :=
  String.ofList (separated ':' (a.toList.map fun b => Hex.padded 2 b.toNat))

def Ipv4.text (a : Ipv4) : String :=
  String.ofList (separated '.' (a.toList.map fun b => Nat.toDigits 10 b.toNat))

namespace Ip

/-- The numbers of two octets each, high octet first. -/
def pairs : Octets → List Nat
  | a :: b :: rest => (256 * a.toNat + b.toNat) :: pairs rest
  | _ => []

/-- The eight groups of an address. -/
def groups (a : Ip) : List Nat := pairs a.toList

/-- A run of zero groups: where it starts and how long it is. -/
structure Run where
  start : Nat
  length : Nat
  deriving DecidableEq, Repr

/-- How many zeros a list starts with. -/
def leadingZeros : List Nat → Nat
  | 0 :: rest => leadingZeros rest + 1
  | _ => 0

/-- The first of the longest runs of zeros, from a position on. -/
def longestFrom (position : Nat) : List Nat → Run
  | [] => ⟨position, 0⟩
  | g :: rest =>
    let here : Run := ⟨position, leadingZeros (g :: rest)⟩
    let later := longestFrom (position + 1) rest
    if here.length < later.length then later else here

/-- The first longest run of zeros. -/
def longestRun (gs : List Nat) : Run := longestFrom 0 gs

def compress (gs : List Nat) : List Char :=
  let run := longestRun gs
  let text (l : List Nat) := separated ':' (l.map Hex.digits)
  if 2 ≤ run.length then text (gs.take run.start) ++ [':', ':'] ++ text (gs.drop (run.start + run.length))
  else text gs

/-- The text of an address, that of the four-octet address that it stands for if there is one. -/
def text (a : Ip) : String :=
  match a.ipv4? with
  | some b => b.text
  | none => String.ofList (compress a.groups)

end Ip
end FlowMeter
