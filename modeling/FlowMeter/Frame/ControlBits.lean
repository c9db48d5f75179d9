import FlowMeter.Flow.Direction
/-!
# Control bits of a segment

A segment contributes one flag to its flow: that of the first rule whose bits it all carries (`ControlBits.rules`),
combinations with an acknowledgement before single bits.
-/
namespace FlowMeter

/-- What a packet tells about its connection. -/
structure Signal where
  flags : UInt16 := 0
  handshake : Bool := false
  deriving DecidableEq, Repr, Inhabited

namespace ControlBits

def fin : UInt8 := 0x01
def syn : UInt8 := 0x02
def rst : UInt8 := 0x04
def psh : UInt8 := 0x08
def ack : UInt8 := 0x10
def urg : UInt8 := 0x20
def ece : UInt8 := 0x40
def cwr : UInt8 := 0x80

def ackFlag : UInt16 := 0x10

/-- The flag of an answered connection request, which no single control bit has. -/
def synAckFlag : UInt16 := 0x100

/-- Control bits with the flag that they give, the most telling first. -/
def rules : List (UInt8 × UInt16) :=
  [(syn ||| ack, synAckFlag), (fin ||| ack, 0x200), (rst ||| ack, 0x400), (fin, 0x01), (syn, 0x02), (ack, ackFlag),
    (rst, 0x04), (psh, 0x08), (urg, 0x20), (ece, 0x40), (cwr, 0x80)]

/-- The flag of a segment, zero if it carries no control bit. -/
def flag (control : UInt8) : UInt16 :=
  ((rules.find? fun rule => control &&& rule.1 = rule.1).map Prod.snd).getD 0

/-- What a segment tells about its connection: an answered request establishes it, and so does the first bare
acknowledgement that comes in, as far as its sequence number shows it. -/
def signal (control : UInt8) (sequence : UInt32) (direction : Direction) : Signal where
  flags := flag control
  handshake := flag control = synAckFlag ∨ flag control = ackFlag ∧ direction = .ingress ∧ sequence = 1

end ControlBits
end FlowMeter
