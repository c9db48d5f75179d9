import FlowMeter.Frame.Packet
import FlowMeter.System.Errno
import FlowMeter.System.Interface
/-!
# Capturing frames

A packet socket is opened and bound to one interface; every frame of the interface is then read once, cut to a fixed length
(`Capture.packet`).
-/
namespace FlowMeter.System.Capture

/-- Octets kept of each frame, enough for every header that counts. -/
def snapLength : Nat := 256

/-- The protocol that a socket is bound to, which stands for all of them. -/
def allProtocols : Nat := 3

structure Faults where
  socket : Option Errno := none
  bind : Option Errno := none
  /-- The socket cannot be waited for. -/
  unpollable : Bool := false

inductive Failure where
  | noSocket (errno : Errno)
  /-- The name of the interface holds a zero. -/
  | zeroInName (position : Nat)
  | noInterface (errno : Errno)
  | notBound (errno : Errno)
  | notRegistered (errno : Errno)
  | unreadable (errno : Errno)
  deriving DecidableEq, Repr

def Failure.message : Failure → String
  | .noSocket e => s!"failed to create packet socket: {e.message}"
  | .zeroInName position => s!"nul byte found in provided data at position: {position}"
  | .noInterface e => s!"failed to lookup interface index: {e.message}"
  | .notBound e => s!"failed to bind packet socket: {e.message}"
  | .notRegistered e => s!"failed to register packet socket: {e.message}"
  | .unreadable e => s!"failed to read packet socket: {e.message}"

/-- A refusal by the system, if there is one. -/
def refuse (errno : Option Errno) (f : Errno → Failure) : Except Failure Unit :=
  match errno with
  | some e => .error (f e)
  | none => .ok ()

def bind (interfaces : Interfaces) (faults : Faults) (name : String) : Except Failure UInt32 := do
  refuse faults.socket .noSocket
  match (Interfaces.octetsOf name).findIdx? (· = 0) with
  | some position => throw (.zeroInName position)
  | none => pure ()
  match interfaces.indexOf? name with
  | none => throw (.noInterface .noDevice)
  | some index =>
    refuse faults.bind .notBound
    if faults.unpollable then throw (.notRegistered .notPermitted)
    return index

/-- The direction of a frame, from the kind of packet that the system says it is: what leaves this host has its own kind. -/
def directionOf (kind : UInt8) : Direction := if kind = 4 then .egress else .ingress

def packet (index : UInt32) (frame : Octets) (kind : UInt8) : Packet where
  frame := frame.take snapLength
  length := UInt64.ofNat frame.length
  interface := index
  direction := directionOf kind

inductive Arrival where
  | frame (octets : Octets) (kind : UInt8)
  | failed (errno : Errno)
  deriving DecidableEq, Repr

def read (index : UInt32) : Arrival → Except Failure Packet
  | .frame octets kind => .ok (packet index octets kind)
  | .failed errno => .error (.unreadable errno)

end FlowMeter.System.Capture
