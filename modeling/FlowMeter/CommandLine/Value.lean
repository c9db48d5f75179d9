import FlowMeter.CommandLine.Grammar
/-!
# Values of options

When a word is a value of an option, and which number it is.
-/
namespace FlowMeter.CommandLine

/-- The number that decimal digits stand for; there must be one digit at least. -/
def digits? (cs : List Char) : Option Nat :=
  if cs ≠ [] ∧ cs.all Char.isDigit then some (Nat.ofDigitChars 10 cs 0) else none

def unsigned? : List Char → Option Nat
  | '+' :: cs => digits? cs
  | cs => digits? cs

def signed? : List Char → Option Int
  | '-' :: cs => (digits? cs).map fun n => -(n : Int)
  | cs => (unsigned? cs).map Int.ofNat

/-- The number of so many bits that a word stands for. -/
def number? (bits : Nat) (word : String) : Option Nat :=
  if bits < 64 then
    match signed? word.toList with
    | some (.ofNat n) => if n < 1 <<< bits then some n else none
    | _ => none
  else (unsigned? word.toList).filter (· < 1 <<< bits)

def switch? (word : String) : Option Bool :=
  if word = "true" then some true else if word = "false" then some false else none

/-- Why a word is no value of an option, if it is none. -/
def Kind.refuse? (word : String) : Kind → Option Refusal
  | .switch => if (switch? word).isSome then none else some .valueRefused
  | .number bits => if (number? bits word).isSome then none else some .valueMalformed
  | .choice words => if word ∈ words then none else some .valueRefused
  | .path => if word = "" then some .valueRefused else none
  | .text => none

end FlowMeter.CommandLine
