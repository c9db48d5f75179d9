import FlowMeter.CommandLine.BuildOptions
import FlowMeter.Frame.Recipe
import FlowMeter.Kernel.Classifier
import FlowMeter.Main
import FlowMeter.Octets.Cursor
import FlowMeter.Overflow.Channel
import FlowMeter.Proofs.BacklogRuns
import FlowMeter.Proofs.ChannelOrder
import FlowMeter.Proofs.Delivery
import FlowMeter.Proofs.Destinations
import FlowMeter.Proofs.Engines
import FlowMeter.Proofs.FailedEvictions
import FlowMeter.Proofs.FrameFormat
import FlowMeter.Proofs.HooksBalance
import FlowMeter.Proofs.HooksCalls
import FlowMeter.Proofs.HooksConservation
import FlowMeter.Proofs.HooksSteps
import FlowMeter.Proofs.KernelRows
import FlowMeter.Proofs.MapBooks
import FlowMeter.Proofs.MapReadings
import FlowMeter.Proofs.MapSteps
import FlowMeter.Proofs.MergedParts
import FlowMeter.Proofs.Metering
import FlowMeter.Proofs.OverflowMarks
import FlowMeter.Proofs.Ownership
import FlowMeter.Proofs.Parcels
import FlowMeter.Proofs.PartialViews
import FlowMeter.Proofs.PoolCalls
import FlowMeter.Proofs.PoolEvictions
import FlowMeter.Proofs.PoolOverflow
import FlowMeter.Proofs.PoolSteps
import FlowMeter.Proofs.Releases
import FlowMeter.Proofs.ShardContents
import FlowMeter.Proofs.ShardStreams
import FlowMeter.Proofs.Shutdown
import FlowMeter.Proofs.SnappedFrames
import FlowMeter.Proofs.SocketBalance
import FlowMeter.Proofs.SocketCalls
import FlowMeter.Proofs.SocketConservation
import FlowMeter.Proofs.SocketProgress
import FlowMeter.Proofs.SocketSteps
import FlowMeter.Proofs.SpilledRecords
import FlowMeter.Proofs.Weight
import FlowMeter.Proofs.WorkerBooks
import FlowMeter.Proofs.WorkerHoldings
import FlowMeter.Proofs.WorkerRequests
import FlowMeter.Proofs.WorkerStages
import FlowMeter.Proofs.MeterBanks
import FlowMeter.Proofs.OutletRuns
import FlowMeter.Proofs.Signals
import FlowMeter.Proofs.Establishment
import FlowMeter.Proofs.Directions
import FlowMeter.Proofs.Sampling
import FlowMeter.Proofs.MergeOrder
import FlowMeter.Proofs.RecordImage
import FlowMeter.Proofs.SampledFrames
import FlowMeter.Proofs.TimeFaults
import FlowMeter.Proofs.WallTimes
import FlowMeter.Proofs.BatchRounds
import FlowMeter.Proofs.BatchOrder
import FlowMeter.Proofs.ProcessorViews
import FlowMeter.Proofs.Numerals
import FlowMeter.Proofs.AddressTexts
import FlowMeter.Proofs.ReportLines
import FlowMeter.Proofs.SampleEvents
import FlowMeter.Proofs.ForwarderRuns
import FlowMeter.Proofs.Dispatching
import FlowMeter.Proofs.HeaderLoads
import FlowMeter.Proofs.MadeFrames
