import RuntimeMonitor.VerifierTables

/-!
Event processing by the verifier: the sequence check that runs before every
event, the held-mutex array, the waiting state and one handler for each event
type. Functions that take a thread pointer take the index of its slot.
-/
namespace RuntimeMonitor.VerifierEvents

open EventRecord SlotTables VerifierTables

/-- What `invalidate_mutexes_owned_by_thread` does to one slot. -/
def invalidateMutex (mutex : VerifierMutexState) (threadId barrierSequence : ℕ) :
    VerifierMutexState :=
  if mutex.used && mutex.ownerKnown && decide (mutex.ownerThreadId = threadId) then
    { mutex with
      ownerKnown := false
      ownerThreadId := 0
      lastStateSequence :=
        if barrierSequence > mutex.lastStateSequence then barrierSequence
        else mutex.lastStateSequence }
  else mutex

def invalidateMutexesOwnedByThread (s : VerifierState) (threadId barrierSequence : ℕ) :
    VerifierState :=
  { s with mutexStates := fun j => invalidateMutex (s.mutexStates j) threadId barrierSequence }

/-- The thread fields that `mark_thread_stream_tainted` resets. -/
def taintThread (thread : VerifierThreadState) : VerifierThreadState :=
  { thread with
    traceTainted := true
    waitingMutex := 0
    waitingSequence := if thread.waitingMutex ≠ 0 then 0 else thread.waitingSequence
    heldMutexes := fun _ => {}
    heldCount := 0 }

def decrementWaiting (s : VerifierState) : VerifierState :=
  if s.waitingThreadCount ≠ 0 then { s with waitingThreadCount := s.waitingThreadCount - 1 }
  else s

def markThreadStreamTainted (s : VerifierState) (i : Fin verifierMaxThreads)
    (barrierSequence : ℕ) : VerifierState :=
  let thread := s.threadStates i
  if thread.traceTainted then s
  else
    let s := { s with taintedThreadStreams := succ32 s.taintedThreadStreams }
    let s := if thread.waitingMutex ≠ 0 then decrementWaiting s else s
    let s := s.setThread i (taintThread thread)
    invalidateMutexesOwnedByThread s thread.threadId barrierSequence

/-- A discontinuity: the first delivered event is not event zero, or a later one
is not the expected one. -/
def hasGap (thread : VerifierThreadState) (event : MonitorEvent) : Bool :=
  if thread.sequenceInitialized then
    decide (event.threadSequence ≠ thread.nextExpectedSequence)
  else decide (event.threadSequence ≠ 0)

def observeThreadSequence (s : VerifierState) (event : MonitorEvent) :
    VerifierState × Option (Fin verifierMaxThreads) :=
  match findThread s event.threadId true with
  | (s, none) => (s, none)
  | (s, some i) =>
    let thread := s.threadStates i
    let s := s.setThread i { thread with sequenceInitialized := true }
    let s :=
      if hasGap thread event then
        markThreadStreamTainted
          { s with detectedStreamGaps := succ64 s.detectedStreamGaps } i event.sequenceId
      else s
    (s.setThread i { s.threadStates i with
        nextExpectedSequence := succ32 event.threadSequence }, some i)

def addHeldMutex (s : VerifierState) (i : Fin verifierMaxThreads) (address timestampNs : ℕ) :
    VerifierState :=
  let thread := s.threadStates i
  if thread.traceTainted then s
  else
    match findHeldMutex thread address with
    | some k =>
      let held := thread.heldMutexes k
      if held.depth < uint32Max then
        s.setThread i { thread with
          heldMutexes := Function.update thread.heldMutexes k
            { held with depth := held.depth + 1 } }
      else s
    | none =>
      if thread.heldCount ≥ verifierMaxHeldMutexes then
        { s with stateOverflowEvents := succ64 s.stateOverflowEvents }
      else
        s.setThread i { thread with
          heldMutexes := Function.update thread.heldMutexes thread.heldCount
            { address := address, firstAcquiredTimestampNs := timestampNs, depth := 1 }
          heldCount := thread.heldCount + 1 }

def reportSelfDeadlockCandidate (s : VerifierState) (event : MonitorEvent) : VerifierState :=
  { s with
    selfDeadlockCandidates := succ64 s.selfDeadlockCandidates
    reports := s.reports ++
      [.selfDeadlockCandidate event.sequenceId event.threadId event.objectAddress] }

def reportNonOwnerUnlock (s : VerifierState) (event : MonitorEvent) : VerifierState :=
  { s with
    nonOwnerUnlockViolations := succ64 s.nonOwnerUnlockViolations
    reports := s.reports ++
      [.nonOwnerUnlock event.sequenceId event.threadId event.objectAddress event.result] }

def reportHoldTimeViolation (s : VerifierState) (event : MonitorEvent) (heldNs : ℕ) :
    VerifierState :=
  { s with
    holdTimeViolations := succ64 s.holdTimeViolations
    reports := s.reports ++ [.holdTimeViolation event.sequenceId event.threadId
      event.objectAddress heldNs s.maxHoldNs] }

/-- Swap-with-last deletion of entry `k`. -/
def removeHeldMutex (thread : VerifierThreadState) (k : ℕ) : VerifierThreadState :=
  let last := thread.heldCount - 1
  { thread with
    heldMutexes := Function.update
      (Function.update thread.heldMutexes k (thread.heldMutexes last)) last {}
    heldCount := thread.heldCount - 1 }

/-- The holding duration; zero when the clock reads earlier than the acquisition. -/
def heldDuration (held : VerifierHeldMutex) (event : MonitorEvent) : ℕ :=
  if event.timestampNs ≥ held.firstAcquiredTimestampNs then
    event.timestampNs - held.firstAcquiredTimestampNs
  else 0

/-- The returned flag is `fully_released`. -/
def releaseHeldMutex (s : VerifierState) (i : Fin verifierMaxThreads) (event : MonitorEvent) :
    VerifierState × Bool :=
  let thread := s.threadStates i
  if thread.traceTainted then (s, true)
  else
    match findHeldMutex thread event.objectAddress with
    | none => (s, true)
    | some k =>
      let held := thread.heldMutexes k
      if held.depth > 1 then
        (s.setThread i { thread with
          heldMutexes := Function.update thread.heldMutexes k
            { held with depth := held.depth - 1 } }, false)
      else
        let s :=
          if s.maxHoldNs ≠ 0 ∧ heldDuration held event > s.maxHoldNs then
            reportHoldTimeViolation s event (heldDuration held event)
          else s
        (s.setThread i (removeHeldMutex thread k), true)

def reportLockHeldAtThreadExit (s : VerifierState) (event : MonitorEvent)
    (thread : VerifierThreadState) : VerifierState :=
  { s with
    lockHeldAtExitViolations := succ64 s.lockHeldAtExitViolations
    reports := s.reports ++ [.lockHeldAtThreadExit event.sequenceId event.threadId
      thread.heldCount ((List.range thread.heldCount).map fun k =>
        ((thread.heldMutexes k).address, (thread.heldMutexes k).depth))] }

def setThreadWaiting (s : VerifierState) (i : Fin verifierMaxThreads)
    (address sequence : ℕ) : VerifierState :=
  let thread := s.threadStates i
  let s :=
    if thread.waitingMutex = 0 then
      { s with waitingThreadCount := succ32 s.waitingThreadCount }
    else s
  s.setThread i { thread with waitingMutex := address, waitingSequence := sequence }

def clearThreadWaiting (s : VerifierState) (i : Fin verifierMaxThreads) (address : ℕ) :
    VerifierState :=
  let thread := s.threadStates i
  if thread.waitingMutex ≠ address then s
  else
    decrementWaiting (s.setThread i { thread with waitingMutex := 0, waitingSequence := 0 })

def handleThreadStart (s : VerifierState) (event : MonitorEvent) : VerifierState :=
  match findThread s event.threadId true with
  | (s, none) => s
  | (s, some i) => s.setThread i { s.threadStates i with exited := false }

def handleThreadExit (s : VerifierState) (event : MonitorEvent) : VerifierState :=
  match findThread s event.threadId true with
  | (s, none) => s
  | (s, some i) =>
    let thread := s.threadStates i
    let s :=
      if !thread.traceTainted && decide (thread.heldCount ≠ 0) then
        reportLockHeldAtThreadExit s event thread
      else s
    let s :=
      if thread.waitingMutex ≠ 0 then clearThreadWaiting s i thread.waitingMutex else s
    s.setThread i { s.threadStates i with exited := true }

def handleLockRequest (s : VerifierState) (event : MonitorEvent) : VerifierState :=
  match findThread s event.threadId true with
  | (s, none) => s
  | (s, some i) =>
    let s := (findMutex s event.objectAddress true).1
    let thread := s.threadStates i
    let s :=
      if !thread.traceTainted && (findHeldMutex thread event.objectAddress).isSome then
        reportSelfDeadlockCandidate s event
      else s
    setThreadWaiting s i event.objectAddress event.sequenceId

/-- Keep the newest ownership-changing global sequence only. -/
def updateOwner (s : VerifierState) (j : Fin verifierMaxMutexes) (event : MonitorEvent)
    (owner : ℕ) : VerifierState :=
  let mutex := s.mutexStates j
  if event.sequenceId ≥ mutex.lastStateSequence then
    s.setMutex j { mutex with
      ownerKnown := true
      ownerThreadId := owner
      lastStateSequence := event.sequenceId }
  else s

def handleLockAcquired (s : VerifierState) (event : MonitorEvent) : VerifierState :=
  match findThread s event.threadId true with
  | (s, thread) =>
    match findMutex s event.objectAddress true with
    | (s, mutex) =>
      match thread, mutex with
      | some i, some j =>
        let s := clearThreadWaiting s i event.objectAddress
        let s := addHeldMutex s i event.objectAddress event.timestampNs
        updateOwner s j event event.threadId
      | _, _ => s

def handleLockFailed (s : VerifierState) (event : MonitorEvent) : VerifierState :=
  match findThread s event.threadId false with
  | (s, none) => s
  | (s, some i) => clearThreadWaiting s i event.objectAddress

def handleUnlocked (s : VerifierState) (event : MonitorEvent) : VerifierState :=
  match findThread s event.threadId false with
  | (s, thread) =>
    match findMutex s event.objectAddress true with
    | (s, mutex) =>
      match (match thread with
        | some i => releaseHeldMutex s i event
        | none => (s, true)) with
      | (s, fullyReleased) =>
        match mutex with
        | none => s
        | some j => updateOwner s j event (if fullyReleased then 0 else event.threadId)

/-- The value of `EPERM` on Linux. -/
abbrev ePerm : ℤ := 1

def handleUnlockFailed (s : VerifierState) (event : MonitorEvent) : VerifierState :=
  if event.result = ePerm then reportNonOwnerUnlock s event else s

/-- The switch over the event type. -/
def handleEvent (s : VerifierState) (event : MonitorEvent) : VerifierState :=
  match event.eventType with
  | .threadStart => handleThreadStart s event
  | .threadExit => handleThreadExit s event
  | .lockRequest => handleLockRequest s event
  | .lockAcquired => handleLockAcquired s event
  | .lockFailed => handleLockFailed s event
  | .unlocked => handleUnlocked s event
  | .unlockFailed => handleUnlockFailed s event
  | .unlockRequest | .invalid => s

/-- The statistics updated for every event, before its sequence is checked. -/
def countEvent (s : VerifierState) (event : MonitorEvent) : VerifierState :=
  { s with
    processedEvents := succ64 s.processedEvents
    lastProcessedSequence :=
      if event.sequenceId > s.lastProcessedSequence then event.sequenceId
      else s.lastProcessedSequence }

def resetCandidate (s : VerifierState) : VerifierState :=
  { s with candidateCycleMask := 0, candidateCycleConfirmations := 0 }

def monitorVerifierProcessEvent (s : VerifierState) (event : MonitorEvent) : VerifierState :=
  match observeThreadSequence (countEvent s event) event with
  | (s, none) => s
  | (s, some _) => handleEvent (resetCandidate s) event

end RuntimeMonitor.VerifierEvents
