import FlowMeter.Octets.Word
/-!
# Text from octets that may not be text

Reads UTF-8; each longest start of an encoding that breaks off, and each octet that starts none, becomes one replacement
character.
-/
namespace FlowMeter.Lossy

def replacement : Char := '\uFFFD'

/-- The start of an encoding of more than one octet. -/
structure Start where
  value : Nat
  missing : Nat
  /-- The next octet has to lie in this range. -/
  low : UInt8 := 0x80
  high : UInt8 := 0xbf

/-- What an octet begins: the text that is complete with it, and the encoding that it starts. -/
def begin (b : UInt8) : List Char × Option Start :=
  let n := b.toNat
  if b < 0x80 then ([Char.ofNat n], none)
  else if 0xc2 ≤ b ∧ b ≤ 0xdf then ([], some { value := n - 0xc0, missing := 1 })
  else if b = 0xe0 then ([], some { value := 0, missing := 2, low := 0xa0 })
  else if b = 0xed then ([], some { value := 0xd, missing := 2, high := 0x9f })
  else if 0xe1 ≤ b ∧ b ≤ 0xef then ([], some { value := n - 0xe0, missing := 2 })
  else if b = 0xf0 then ([], some { value := 0, missing := 3, low := 0x90 })
  else if 0xf1 ≤ b ∧ b ≤ 0xf3 then ([], some { value := n - 0xf0, missing := 3 })
  else if b = 0xf4 then ([], some { value := 4, missing := 3, high := 0x8f })
  else ([replacement], none)

/-- One octet more, with the encoding that is under way. -/
def step (start : Option Start) (b : UInt8) : List Char × Option Start :=
  match start with
  | none => begin b
  | some s =>
    if s.low ≤ b ∧ b ≤ s.high then
      let value := 64 * s.value + (b.toNat - 0x80)
      if s.missing = 1 then ([Char.ofNat value], none) else ([], some { value, missing := s.missing - 1 })
    else
      let (text, next) := begin b
      (replacement :: text, next)

def read : Option Start → Octets → List Char
  | none, [] => []
  | some _, [] => [replacement]
  | start, b :: rest =>
    let (text, next) := step start b
    text ++ read next rest

def decode (s : Octets) : String := String.ofList (read none s)

end FlowMeter.Lossy
