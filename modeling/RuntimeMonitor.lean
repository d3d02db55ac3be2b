import RuntimeMonitor.RingBufferRuns
import RuntimeMonitor.EventLoss
import RuntimeMonitor.CycleReports
import RuntimeMonitor.ShutdownDrain
import RuntimeMonitor.AuthoritativeTraces
import RuntimeMonitor.DeadlockAtShutdown
import RuntimeMonitor.RepresentationInvariant
import RuntimeMonitor.CycleDetection
import RuntimeMonitor.GapDiscards
import RuntimeMonitor.GapDetection
import RuntimeMonitor.LosslessRuns
import RuntimeMonitor.ConsistentSnapshots
import RuntimeMonitor.TransportAccounts
import RuntimeMonitor.SingleProducer
import RuntimeMonitor.ThreadVerdicts
import RuntimeMonitor.GrowingTables
import RuntimeMonitor.UnboundedVerifier
import RuntimeMonitor.CapacityLimits
import RuntimeMonitor.CapacityRuns
import RuntimeMonitor.RuntimeRounds
import RuntimeMonitor.LossyCycles
import RuntimeMonitor.HoldThreshold
import RuntimeMonitor.ConfirmedCycles
import RuntimeMonitor.RecordAgreement
import RuntimeMonitor.InterposedCalls
import RuntimeMonitor.MutexExhaustion
import RuntimeMonitor.InterposedProgram
import RuntimeMonitor.ProgramStreams
import RuntimeMonitor.FailedUnlocks
import RuntimeMonitor.RealDeadlocks
import RuntimeMonitor.NewestOwners
import RuntimeMonitor.RealOwnership
import RuntimeMonitor.RingTraces
