import FlowMeter.Kernel.Loaded
import FlowMeter.Pool.Basic
import FlowMeter.Settings
import FlowMeter.System.Capture
/-!
# Failures of a run

Why a run of the agent ends before it is told to.
-/
namespace FlowMeter.Agent

open FlowMeter.System (Capture.Failure Errno)

inductive Failure where
  | settings (why : Settings.Invalid)
  | capture (interface : String) (why : Capture.Failure)
  | unreadable (why : Capture.Failure)
  | dispatch (why : Pool.DispatchFailure)
  | evict (why : Pool.EvictFailure)
  | kernel (why : Kernel.Failure)
  /-- A buffer of samples cannot be opened. -/
  | buffer (errno : Errno)
  | time (fault : TimeFault)
  deriving Repr

def Failure.message : Failure → String
  | settings why => s!"invalid configuration: {why.message}"
  | capture interface why => s!"failed to capture on {interface}: {why.message}"
  | unreadable why => why.message
  | dispatch why => why.message
  | evict why => why.message
  | kernel why => why.message
  | buffer errno => s!"perf_event_open failed: {errno.message}: {errno.message}"
  | time fault => fault.message

end FlowMeter.Agent
