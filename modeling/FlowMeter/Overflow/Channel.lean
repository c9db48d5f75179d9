import FlowMeter.Overflow.Queue
/-!
# Overflow channels

A queue with its reader and any number of senders.  The reader learns that the channel has ended when the queue is empty and
no sender is left.
-/
namespace FlowMeter.Overflow

structure Channel where
  queue : Queue
  /-- For every sender so far, whether it is still there. -/
  senders : List Bool := [true]
  deriving Repr, Inhabited

inductive Received where
  | record (r : Flow.Record)
  | pending
  /-- Nothing, and no sender is left. -/
  | ended
  deriving DecidableEq, Repr

namespace Channel

def ofQueue (queue : Queue) : Channel where
  queue

def alive (c : Channel) (sender : Nat) : Bool := c.senders.getD sender false

/-- One sender more, and its number; only a sender that is there can be cloned. -/
def clone? (c : Channel) (sender : Nat) : Option (Nat × Channel) :=
  if c.alive sender then some (c.senders.length, { c with senders := c.senders ++ [true] }) else none

def drop (c : Channel) (sender : Nat) : Channel := { c with senders := c.senders.set sender false }

def submit (c : Channel) (r : Flow.Record) : Except Failure Channel :=
  (c.queue.submit r).map fun queue => { c with queue }

/-- The reader looks once for a record. -/
def receive (c : Channel) : Received × Channel :=
  match c.queue.next? with
  | some (r, queue) => (.record r, { c with queue })
  | none => (if c.senders.any id then .pending else .ended, c)

def drain (c : Channel) : List Flow.Record × Channel := (c.queue.records, { c with queue := c.queue.drained })

def close (c : Channel) : Channel := { c with queue := c.queue.close }

end Channel
end FlowMeter.Overflow
