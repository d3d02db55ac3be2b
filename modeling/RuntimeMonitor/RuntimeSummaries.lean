import RuntimeMonitor.MonitorRuntime
import Mathlib.Algebra.GroupWithZero.Nat

/-!
The two summaries printed at shutdown as functions of the values that have been
read: the transport totals with the verdict on the trace, and the verifier's
counters with the interpretation. All sums are taken in 64 bits.
-/
namespace RuntimeMonitor.RuntimeSummaries

open EventRecord VerifierTables MonitorRuntime

/-- A running sum in a `uint64_t`. -/
def sum64 (values : List ℕ) : ℕ := values.foldl (fun total value => (total + value) % 2 ^ 64) 0

def lossPpm (dropped generated : ℕ) : ℕ :=
  if generated ≠ 0 then dropped * 1000000 % 2 ^ 64 / generated else 0

namespace TransportSummary

variable (transport : TransportSummary)

def registeredThreads : ℕ := transport.lines.length

def totalGenerated : ℕ := sum64 (transport.lines.map (·.generated))

def totalConsumed : ℕ := sum64 (transport.lines.map (·.consumed))

def totalDropped : ℕ := sum64 (transport.lines.map (·.dropped))

def transportConsistent : Bool :=
  decide (totalGenerated transport = (totalConsumed transport + totalDropped transport) % 2 ^ 64)

/-- The value that `print_transport_summary` returns. -/
def traceComplete : Bool :=
  transportConsistent transport && decide (totalDropped transport = 0) &&
    decide (transport.rejected = 0) && decide (transport.lifecycleFailures = 0)

def totalLossPpm : ℕ := lossPpm (totalDropped transport) (totalGenerated transport)

end TransportSummary

structure VerifierSummary where
  processedEvents : ℕ
  deadlockCycle : ℕ
  nonOwnerUnlock : ℕ
  selfDeadlockCandidate : ℕ
  lockHeldAtThreadExit : ℕ
  holdTimeViolation : ℕ
  totalViolations : ℕ
  waitingThreads : ℕ
  detectedStreamGaps : ℕ
  taintedThreadStreams : ℕ
  stateOverflowEvents : ℕ
  holdTimeThreshold : ℕ
  verifierComplete : Bool
  authoritative : Bool

def monitorVerifierPrintSummary (s : VerifierState) (traceComplete : Bool) : VerifierSummary :=
  let verifierComplete :=
    decide (s.stateOverflowEvents = 0) && decide (s.taintedThreadStreams = 0)
  { processedEvents := s.processedEvents
    deadlockCycle := s.deadlockCycleViolations
    nonOwnerUnlock := s.nonOwnerUnlockViolations
    selfDeadlockCandidate := s.selfDeadlockCandidates
    lockHeldAtThreadExit := s.lockHeldAtExitViolations
    holdTimeViolation := s.holdTimeViolations
    totalViolations := (s.deadlockCycleViolations + s.nonOwnerUnlockViolations +
      s.selfDeadlockCandidates + s.lockHeldAtExitViolations + s.holdTimeViolations) % 2 ^ 64
    waitingThreads := s.waitingThreadCount
    detectedStreamGaps := s.detectedStreamGaps
    taintedThreadStreams := s.taintedThreadStreams
    stateOverflowEvents := s.stateOverflowEvents
    holdTimeThreshold := s.maxHoldNs
    verifierComplete := verifierComplete
    authoritative := traceComplete && verifierComplete }

/-- The summary that `monitor_runtime_stop` prints for the values it has read. -/
def printedSummary (rt : Runtime) (transport : TransportSummary) : VerifierSummary :=
  monitorVerifierPrintSummary rt.verifier (TransportSummary.traceComplete transport)

theorem sum64_eq (values : List ℕ) : sum64 values = values.sum % 2 ^ 64 := by
  have hfold : ∀ total,
      values.foldl (fun total value => (total + value) % 2 ^ 64) (total % 2 ^ 64)
      = (total + values.sum) % 2 ^ 64 := by
    induction values with
    | nil => simp
    | cons value rest ih =>
      intro total
      rw [List.foldl_cons, List.sum_cons, Nat.mod_add_mod, ih, Nat.add_assoc]
  have hzero := hfold 0
  rw [Nat.zero_mod, Nat.zero_add] at hzero
  exact hzero

/-- What an authoritative interpretation says about the values read. -/
theorem authoritative_iff (rt : Runtime) (transport : TransportSummary) :
    (printedSummary rt transport).authoritative = true ↔
      (transport.lines.map (·.generated)).sum % 2 ^ 64 =
        (transport.lines.map (·.consumed)).sum % 2 ^ 64 ∧
      (transport.lines.map (·.dropped)).sum % 2 ^ 64 = 0 ∧ transport.rejected = 0 ∧
      transport.lifecycleFailures = 0 ∧ rt.verifier.stateOverflowEvents = 0 ∧
      rt.verifier.taintedThreadStreams = 0 := by
  simp only [printedSummary, monitorVerifierPrintSummary, TransportSummary.traceComplete,
    TransportSummary.transportConsistent, TransportSummary.totalGenerated,
    TransportSummary.totalConsumed, TransportSummary.totalDropped, sum64_eq, Bool.and_eq_true,
    decide_eq_true_eq]
  omega

end RuntimeMonitor.RuntimeSummaries
