import RuntimeMonitor.EventRecord
import RuntimeMonitor.SlotTables

/-!
The verifier's state: the thread and mutex tables, the statistics and the
deadlock state, with the lookups that read and extend the tables. A pointer into
a table is the index of its slot. The held-mutex array of a thread is read only
below its held count. The reports written to standard error are kept in order.
-/
namespace RuntimeMonitor.VerifierTables

open EventRecord SlotTables

abbrev verifierMaxThreads : ℕ := 16

abbrev verifierMaxMutexes : ℕ := 128

abbrev verifierMaxHeldMutexes : ℕ := 32

abbrev deadlockConfirmationsRequired : ℕ := 2

abbrev defaultMaxHoldNs : ℕ := 100000000

structure VerifierHeldMutex where
  address : ℕ := 0
  firstAcquiredTimestampNs : ℕ := 0
  depth : ℕ := 0
  deriving DecidableEq, Repr

structure VerifierThreadState where
  used : Bool := false
  exited : Bool := false
  traceTainted : Bool := false
  sequenceInitialized : Bool := false
  threadId : ℕ := 0
  nextExpectedSequence : ℕ := 0
  waitingMutex : ℕ := 0
  waitingSequence : ℕ := 0
  heldMutexes : ℕ → VerifierHeldMutex := fun _ => {}
  heldCount : ℕ := 0

structure VerifierMutexState where
  used : Bool := false
  ownerKnown : Bool := false
  address : ℕ := 0
  ownerThreadId : ℕ := 0
  lastStateSequence : ℕ := 0
  deriving DecidableEq, Repr

/-- One violation report with the values it prints. -/
inductive Report where
  | selfDeadlockCandidate (sequence thread mutex : ℕ)
  | nonOwnerUnlock (sequence thread mutex : ℕ) (pthreadResult : ℤ)
  | holdTimeViolation (sequence thread mutex heldNs thresholdNs : ℕ)
  | lockHeldAtThreadExit (sequence thread heldMutexCount : ℕ) (held : List (ℕ × ℕ))
  | deadlockCycle (observedAfterSeq : ℕ) (waits : List (ℕ × ℕ)) (owners : List ℕ)
  deriving DecidableEq, Repr

structure VerifierState where
  threadStates : Fin verifierMaxThreads → VerifierThreadState := fun _ => {}
  mutexStates : Fin verifierMaxMutexes → VerifierMutexState := fun _ => {}
  processedEvents : ℕ := 0
  deadlockCycleViolations : ℕ := 0
  nonOwnerUnlockViolations : ℕ := 0
  selfDeadlockCandidates : ℕ := 0
  lockHeldAtExitViolations : ℕ := 0
  holdTimeViolations : ℕ := 0
  stateOverflowEvents : ℕ := 0
  detectedStreamGaps : ℕ := 0
  taintedThreadStreams : ℕ := 0
  maxHoldNs : ℕ := defaultMaxHoldNs
  waitingThreadCount : ℕ := 0
  candidateCycleMask : ℕ := 0
  candidateCycleConfirmations : ℕ := 0
  reportedCycleMask : ℕ := 0
  lastProcessedSequence : ℕ := 0
  reports : List Report := []

/-- `monitor_verifier_init`, with the threshold that `load_configuration` chose. -/
def monitorVerifierInit (maxHoldNs : ℕ) : VerifierState := { maxHoldNs := maxHoldNs }

abbrev threadLayout : Layout VerifierThreadState ℕ := ⟨(·.used), (·.threadId)⟩

abbrev mutexLayout : Layout VerifierMutexState ℕ := ⟨(·.used), (·.address)⟩

/-- The thread table as a map from thread ids. -/
def VerifierState.threadOf (s : VerifierState) (threadId : ℕ) : Option VerifierThreadState :=
  lookup threadLayout s.threadStates threadId

/-- The mutex table as a map from addresses. -/
def VerifierState.mutexOf (s : VerifierState) (address : ℕ) : Option VerifierMutexState :=
  lookup mutexLayout s.mutexStates address

def VerifierState.setThread (s : VerifierState) (i : Fin verifierMaxThreads)
    (thread : VerifierThreadState) : VerifierState :=
  { s with threadStates := Function.update s.threadStates i thread }

def VerifierState.setMutex (s : VerifierState) (j : Fin verifierMaxMutexes)
    (mutex : VerifierMutexState) : VerifierState :=
  { s with mutexStates := Function.update s.mutexStates j mutex }

/-- The slot that `find_thread` clears and claims. -/
def freshThread (threadId : ℕ) : VerifierThreadState := { used := true, threadId := threadId }

/-- The slot that `find_mutex` clears and claims: its owner is not known yet. -/
def freshMutex (address : ℕ) : VerifierMutexState := { used := true, address := address }

def findThread (s : VerifierState) (threadId : ℕ) (create : Bool) :
    VerifierState × Option (Fin verifierMaxThreads) :=
  match find threadLayout s.threadStates threadId with
  | some i => (s, some i)
  | none =>
    if create then
      match free threadLayout s.threadStates with
      | none => ({ s with stateOverflowEvents := succ64 s.stateOverflowEvents }, none)
      | some i => (s.setThread i (freshThread threadId), some i)
    else (s, none)

def findMutex (s : VerifierState) (address : ℕ) (create : Bool) :
    VerifierState × Option (Fin verifierMaxMutexes) :=
  match find mutexLayout s.mutexStates address with
  | some j => (s, some j)
  | none =>
    if create then
      match free mutexLayout s.mutexStates with
      | none => ({ s with stateOverflowEvents := succ64 s.stateOverflowEvents }, none)
      | some j => (s.setMutex j (freshMutex address), some j)
    else (s, none)

def threadIndex (s : VerifierState) (threadId : ℕ) : Option (Fin verifierMaxThreads) :=
  find threadLayout s.threadStates threadId

def findHeldMutex (thread : VerifierThreadState) (address : ℕ) : Option ℕ :=
  (List.range thread.heldCount).find? fun i => (thread.heldMutexes i).address = address

end RuntimeMonitor.VerifierTables
