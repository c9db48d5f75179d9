import FlowMeter.Notice
/-!
# Readers of sampled packets

Every processor has a buffer of events, and a reader that tells of each sample; an event too short to announce a packet is
passed over.
-/
namespace FlowMeter.Kernel.SampleReader

def event (octets : Octets) : List Notice :=
  ((Sample.captured? octets).map fun (sample, captured) => Notice.sampled sample captured).toList

/-- What is told when the buffer of a processor has lost some events and holds others. -/
def buffer (cpu : Nat) (lost : UInt64) (events : List Octets) : List Notice :=
  (if lost = 0 then [] else [.samplesLost lost cpu]) ++ events.flatMap event

end FlowMeter.Kernel.SampleReader
