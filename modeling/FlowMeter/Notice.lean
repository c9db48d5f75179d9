import FlowMeter.Export.Report
import FlowMeter.Frame.Sample
import FlowMeter.Overflow.Queue
import FlowMeter.Refusal
import FlowMeter.System.Errno
/-!
# Notices

Everything that the program tells its operator on the way, and the level and text of each notice.
-/
namespace FlowMeter

inductive Level where
  | debug
  | info
  | warn
  deriving DecidableEq, Repr

def Level.name : Level → String
  | .debug => "DEBUG"
  | .info => "INFO"
  | .warn => "WARN"

inductive Notice where
  /-- A shard refused the new metrics of a flow that it keeps. -/
  | updateRefused (refusal : Refusal)
  | insertRefused (refusal : Refusal)
  /-- A record found no place in the overflow channel. -/
  | recordLost (failure : Overflow.Failure)
  /-- The same three of the classifiers in the kernel, with the codes of the writes. -/
  | kernelUpdateRefused (code : Int)
  | kernelInsertRefused (code : Int)
  | kernelRecordLost
  | backlogFull (flows : Nat)
  | ownersExpired (expired remaining : Nat)
  | exported (report : Export.Report)
  /-- The loaded object has no place for the classifiers' own notices. -/
  | noKernelLog
  /-- The queueing discipline is there already, or cannot be added. -/
  | disciplineRefused (interface : String) (errno : System.Errno)
  | flowNotDeleted
  /-- An entry of the ring is too short for a record. -/
  | entryDiscarded (length : Nat)
  | memoryLimitKept
  | capturing (interface : String) (index : UInt32) (workers : Nat)
  | waiting
  | exiting
  | queueFull (worker : Nat)
  | packetsDropped (count : Nat)
  | samplesLost (count : UInt64) (cpu : Nat)
  | sampled (sample : Sample) (captured : Nat)
  deriving Inhabited

namespace Notice

def level : Notice → Level
  | updateRefused _ | insertRefused _ | kernelInsertRefused _ | backlogFull _ | ownersExpired .. | disciplineRefused ..
  | flowNotDeleted | memoryLimitKept | queueFull _ | samplesLost .. => .debug
  | exported _ | capturing .. | waiting | exiting | sampled .. => .info
  | recordLost _ | kernelUpdateRefused _ | kernelRecordLost | noKernelLog | entryDiscarded _ | packetsDropped _ => .warn

def text : Notice → String
  | updateRefused r => s!"error updating flow: {r.message}"
  | insertRefused r => s!"error adding flow: {r.message}"
  | recordLost f => s!"couldn't reserve space in the overflow channel: {f.message}"
  | kernelUpdateRefused code => s!"error updating flow {code}"
  | kernelInsertRefused code => s!"error adding flow {code}"
  | kernelRecordLost => "couldn't reserve space in the ringbuf, dropping flow"
  | backlogFull flows => s!"overflow accounter full, evicting {flows} flows"
  | ownersExpired expired remaining => s!"{expired} entries evicted from the deduper cache, {remaining} remaining"
  | exported r => r.line
  | noKernelLog => "failed to initialize eBPF logger: log event array AYA_LOGS doesn't exist"
  | disciplineRefused interface errno => s!"clsact exists or failed to add on {interface}: {errno.message}"
  | flowNotDeleted => "failed to delete flow: `bpf_map_delete_elem` failed"
  | entryDiscarded length => s!"discarding {length}-byte ring buffer entry"
  | memoryLimitKept => "remove limit on locked memory failed, ret is: -1"
  | capturing interface index workers => s!"capturing on {interface} (index {index}) with {workers} workers"
  | waiting => "Waiting for Ctrl-C..."
  | exiting => "Exiting..."
  | queueFull worker => s!"worker {worker} queue full, dropping packet"
  | packetsDropped count => s!"dropped {count} packets on full worker queues"
  | samplesLost count cpu => s!"lost {count} payload events on cpu {cpu}"
  | sampled m captured => s!"dns packet if_index={m.interface} len={m.length} captured={captured}"

/-- Whether a reader in the background tells it, and not the one who waits for events. -/
def background : Notice → Bool
  | entryDiscarded _ | samplesLost .. | sampled .. => true
  | _ => false

def line (n : Notice) : String := s!"{n.level.name} {n.text}"

end Notice
end FlowMeter
