import RuntimeMonitor.VerifierCycles

/-!
What one event does to the verifier, as one equation for each function. An event
first passes the sequence check, which may taint its thread, and is then handled.
Both phases rewrite the slot of the event's thread by a function of that slot and
the event alone; the remaining effects are listed beside it. Later proofs use
these equations and do not unfold the handlers.
-/
namespace RuntimeMonitor.VerifierSteps

open EventRecord SlotTables VerifierTables VerifierEvents

/-- The thread's own part of `clear_thread_waiting`. -/
def clearWaiting (thread : VerifierThreadState) (address : ℕ) : VerifierThreadState :=
  if thread.waitingMutex ≠ address then thread
  else { thread with waitingMutex := 0, waitingSequence := 0 }

/-- The held table is full and the mutex is not in it. -/
def heldOverflow (thread : VerifierThreadState) (address : ℕ) : Bool :=
  !thread.traceTainted && (findHeldMutex thread address).isNone &&
    decide (thread.heldCount ≥ verifierMaxHeldMutexes)

/-- The thread's own part of `add_held_mutex`. -/
def addHeld (thread : VerifierThreadState) (address timestampNs : ℕ) : VerifierThreadState :=
  if thread.traceTainted then thread
  else
    match findHeldMutex thread address with
    | some k =>
      if (thread.heldMutexes k).depth < uint32Max then
        { thread with
          heldMutexes := Function.update thread.heldMutexes k
            { thread.heldMutexes k with depth := (thread.heldMutexes k).depth + 1 } }
      else thread
    | none =>
      if thread.heldCount ≥ verifierMaxHeldMutexes then thread
      else
        { thread with
          heldMutexes := Function.update thread.heldMutexes thread.heldCount
            { address := address, firstAcquiredTimestampNs := timestampNs, depth := 1 }
          heldCount := thread.heldCount + 1 }

/-- The thread's own part of `release_held_mutex`. -/
def releaseHeld (thread : VerifierThreadState) (address : ℕ) : VerifierThreadState :=
  if thread.traceTainted then thread
  else
    match findHeldMutex thread address with
    | none => thread
    | some k =>
      if (thread.heldMutexes k).depth > 1 then
        { thread with
          heldMutexes := Function.update thread.heldMutexes k
            { thread.heldMutexes k with depth := (thread.heldMutexes k).depth - 1 } }
      else removeHeldMutex thread k

/-- The value that `release_held_mutex` returns. -/
def fullyReleased (thread : VerifierThreadState) (address : ℕ) : Bool :=
  if thread.traceTainted then true
  else
    match findHeldMutex thread address with
    | none => true
    | some k => !decide ((thread.heldMutexes k).depth > 1)

/-- The duration that `release_held_mutex` reports, if it reports one. -/
def holdViolation (maxHoldNs : ℕ) (thread : VerifierThreadState) (event : MonitorEvent) :
    Option ℕ :=
  if thread.traceTainted then none
  else
    match findHeldMutex thread event.objectAddress with
    | none => none
    | some k =>
      if (thread.heldMutexes k).depth > 1 then none
      else if maxHoldNs ≠ 0 ∧ heldDuration (thread.heldMutexes k) event > maxHoldNs then
        some (heldDuration (thread.heldMutexes k) event)
      else none

/-- The sequence check's effect on the slot of the event's thread. -/
def observeThread (thread : VerifierThreadState) (event : MonitorEvent) :
    VerifierThreadState :=
  if hasGap thread event && !thread.traceTainted then
    { taintThread thread with
      sequenceInitialized := true
      nextExpectedSequence := succ32 event.threadSequence }
  else
    { thread with
      sequenceInitialized := true
      nextExpectedSequence := succ32 event.threadSequence }

/-- The handler's effect on the slot of the event's thread. -/
def handleThread (thread : VerifierThreadState) (event : MonitorEvent) : VerifierThreadState :=
  match event.eventType with
  | .threadStart => { thread with exited := false }
  | .threadExit =>
      if thread.waitingMutex ≠ 0 then
        { clearWaiting thread thread.waitingMutex with exited := true }
      else { thread with exited := true }
  | .lockRequest => { thread with
      waitingMutex := event.objectAddress
      waitingSequence := event.sequenceId }
  | .lockAcquired =>
      addHeld (clearWaiting thread event.objectAddress) event.objectAddress event.timestampNs
  | .lockFailed => clearWaiting thread event.objectAddress
  | .unlocked => releaseHeld thread event.objectAddress
  | .unlockFailed | .unlockRequest | .invalid => thread

/-- The handler's effect on the number of waiting threads. -/
def waitingAfter (count : ℕ) (thread : VerifierThreadState) (event : MonitorEvent) : ℕ :=
  match event.eventType with
  | .threadExit => if thread.waitingMutex ≠ 0 then count - 1 else count
  | .lockRequest => if thread.waitingMutex = 0 then succ32 count else count
  | .lockAcquired | .lockFailed =>
      if thread.waitingMutex = event.objectAddress then count - 1 else count
  | _ => count

/-- The reports made by the handler. -/
def handlerReports (maxHoldNs : ℕ) (thread : VerifierThreadState) (event : MonitorEvent) :
    List Report :=
  match event.eventType with
  | .threadExit =>
      if !thread.traceTainted && decide (thread.heldCount ≠ 0) then
        [.lockHeldAtThreadExit event.sequenceId event.threadId thread.heldCount
          ((List.range thread.heldCount).map fun k =>
            ((thread.heldMutexes k).address, (thread.heldMutexes k).depth))]
      else []
  | .lockRequest =>
      if !thread.traceTainted && (findHeldMutex thread event.objectAddress).isSome then
        [.selfDeadlockCandidate event.sequenceId event.threadId event.objectAddress]
      else []
  | .unlocked =>
      match holdViolation maxHoldNs thread event with
      | some heldNs => [.holdTimeViolation event.sequenceId event.threadId event.objectAddress
          heldNs maxHoldNs]
      | none => []
  | .unlockFailed =>
      if event.result = ePerm then
        [.nonOwnerUnlock event.sequenceId event.threadId event.objectAddress event.result]
      else []
  | _ => []

/-- What `updateOwner` does to one entry. -/
def newOwner (mutex : VerifierMutexState) (event : MonitorEvent) (owner : ℕ) :
    VerifierMutexState :=
  if event.sequenceId ≥ mutex.lastStateSequence then
    { mutex with
      ownerKnown := true
      ownerThreadId := owner
      lastStateSequence := event.sequenceId }
  else mutex

/-- The handler's effect on the entry of the event's mutex. -/
def handleMutex (mutex : VerifierMutexState) (thread : VerifierThreadState)
    (event : MonitorEvent) : VerifierMutexState :=
  match event.eventType with
  | .lockAcquired => newOwner mutex event event.threadId
  | .unlocked =>
      newOwner mutex event
        (if fullyReleased thread event.objectAddress then 0 else event.threadId)
  | _ => mutex

inductive ViolationKind where
  | selfDeadlock
  | nonOwnerUnlock
  | holdTime
  | heldAtExit
  | deadlockCycle
  deriving DecidableEq, Repr

def reportKind : Report → ViolationKind
  | .selfDeadlockCandidate .. => .selfDeadlock
  | .nonOwnerUnlock .. => .nonOwnerUnlock
  | .holdTimeViolation .. => .holdTime
  | .lockHeldAtThreadExit .. => .heldAtExit
  | .deadlockCycle .. => .deadlockCycle

/-- A violation counter after some reports of one event. -/
def bump (kind : ViolationKind) (made : List Report) (count : ℕ) : ℕ :=
  if made.any fun r => reportKind r = kind then succ64 count else count

/-- A handler's effects other than those on the mutex table. -/
def handledThread (s : VerifierState) (i : Fin verifierMaxThreads) (event : MonitorEvent) :
    VerifierState :=
  let thread := s.threadStates i
  let made := handlerReports s.maxHoldNs thread event
  { s.setThread i (handleThread thread event) with
    waitingThreadCount := waitingAfter s.waitingThreadCount thread event
    stateOverflowEvents :=
      if event.eventType = .lockAcquired ∧ heldOverflow thread event.objectAddress then
        succ64 s.stateOverflowEvents
      else s.stateOverflowEvents
    selfDeadlockCandidates := bump .selfDeadlock made s.selfDeadlockCandidates
    nonOwnerUnlockViolations := bump .nonOwnerUnlock made s.nonOwnerUnlockViolations
    holdTimeViolations := bump .holdTime made s.holdTimeViolations
    lockHeldAtExitViolations := bump .heldAtExit made s.lockHeldAtExitViolations
    reports := s.reports ++ made }

/-- The sequence check's effects once the slot of the thread is known. -/
def observedThread (s : VerifierState) (i : Fin verifierMaxThreads) (event : MonitorEvent) :
    VerifierState :=
  let thread := s.threadStates i
  let taints := hasGap thread event && !thread.traceTainted
  { s.setThread i (observeThread thread event) with
    mutexStates :=
      if taints then
        fun j => invalidateMutex (s.mutexStates j) thread.threadId event.sequenceId
      else s.mutexStates
    detectedStreamGaps :=
      if hasGap thread event then succ64 s.detectedStreamGaps else s.detectedStreamGaps
    taintedThreadStreams :=
      if taints then succ32 s.taintedThreadStreams else s.taintedThreadStreams
    waitingThreadCount :=
      if taints && decide (thread.waitingMutex ≠ 0) then s.waitingThreadCount - 1
      else s.waitingThreadCount }

/-- The events whose handler looks the mutex up and creates its entry. -/
def touchesMutex (event : MonitorEvent) : Bool :=
  match event.eventType with
  | .lockRequest | .lockAcquired | .unlocked => true
  | _ => false

section Equations

variable (s : VerifierState) (event : MonitorEvent) (i : Fin verifierMaxThreads)

theorem decrementWaiting_eq :
    decrementWaiting s = { s with waitingThreadCount := s.waitingThreadCount - 1 } := by
  unfold decrementWaiting
  split
  · rfl
  · rename_i h
    have hzero : s.waitingThreadCount - 1 = s.waitingThreadCount := by omega
    rw [hzero]

theorem setThread_self : s.setThread i (s.threadStates i) = s := by
  simp [VerifierState.setThread]

theorem clearThreadWaiting_eq (address : ℕ) :
    clearThreadWaiting s i address =
      { s.setThread i (clearWaiting (s.threadStates i) address) with
        waitingThreadCount :=
          if (s.threadStates i).waitingMutex = address then s.waitingThreadCount - 1
          else s.waitingThreadCount } := by
  unfold clearThreadWaiting clearWaiting
  by_cases h : (s.threadStates i).waitingMutex = address
  · simp only [h, ne_eq, not_true_eq_false, if_false, decrementWaiting_eq, if_true]
    rfl
  · simp [h, setThread_self]

theorem addHeldMutex_eq (address timestampNs : ℕ) :
    addHeldMutex s i address timestampNs =
      { s.setThread i (addHeld (s.threadStates i) address timestampNs) with
        stateOverflowEvents :=
          if heldOverflow (s.threadStates i) address then succ64 s.stateOverflowEvents
          else s.stateOverflowEvents } := by
  unfold addHeldMutex addHeld heldOverflow
  dsimp only
  by_cases ht : (s.threadStates i).traceTainted = true
  · simp [ht, setThread_self]
  cases hheld : findHeldMutex (s.threadStates i) address with
  | some k =>
    by_cases hd : ((s.threadStates i).heldMutexes k).depth < uint32Max
    · simp [ht, hd, VerifierState.setThread]
    · simp [ht, hd, setThread_self]
  | none =>
    by_cases hc : (s.threadStates i).heldCount ≥ verifierMaxHeldMutexes
    · simp [ht, hc, setThread_self]
    · simp [ht, hc, VerifierState.setThread]

theorem releaseHeldMutex_eq :
    releaseHeldMutex s i event =
      ({ s.setThread i (releaseHeld (s.threadStates i) event.objectAddress) with
          holdTimeViolations :=
            if (holdViolation s.maxHoldNs (s.threadStates i) event).isSome then
              succ64 s.holdTimeViolations
            else s.holdTimeViolations
          reports := s.reports ++
            match holdViolation s.maxHoldNs (s.threadStates i) event with
            | some heldNs => [.holdTimeViolation event.sequenceId event.threadId
                event.objectAddress heldNs s.maxHoldNs]
            | none => [] },
        fullyReleased (s.threadStates i) event.objectAddress) := by
  unfold releaseHeldMutex releaseHeld fullyReleased holdViolation
  dsimp only
  by_cases ht : (s.threadStates i).traceTainted = true
  · simp [ht, setThread_self]
  cases hheld : findHeldMutex (s.threadStates i) event.objectAddress with
  | none => simp [ht, setThread_self]
  | some k =>
    by_cases hd : ((s.threadStates i).heldMutexes k).depth > 1
    · simp [ht, hd, VerifierState.setThread]
    · by_cases hv : s.maxHoldNs ≠ 0 ∧
          heldDuration ((s.threadStates i).heldMutexes k) event > s.maxHoldNs
      · simp only [ht, hd, Bool.false_eq_true, if_false, if_pos hv]
        rfl
      · simp only [ht, hd, Bool.false_eq_true, if_false, if_neg hv]
        simp [VerifierState.setThread]

variable {s event i}

theorem findThread_found {threadId : ℕ}
    (h : find threadLayout s.threadStates threadId = some i) (create : Bool) :
    findThread s threadId create = (s, some i) := by
  unfold findThread
  rw [h]

theorem markThreadStreamTainted_eq (barrier : ℕ) :
    markThreadStreamTainted s i barrier =
      if (s.threadStates i).traceTainted then s
      else
        { s.setThread i (taintThread (s.threadStates i)) with
          mutexStates := fun j =>
            invalidateMutex (s.mutexStates j) (s.threadStates i).threadId barrier
          taintedThreadStreams := succ32 s.taintedThreadStreams
          waitingThreadCount :=
            if (s.threadStates i).waitingMutex ≠ 0 then s.waitingThreadCount - 1
            else s.waitingThreadCount } := by
  unfold markThreadStreamTainted
  by_cases hw : (s.threadStates i).waitingMutex ≠ 0
  · simp only [if_pos hw, decrementWaiting_eq]
    rfl
  · simp only [if_neg hw]
    rfl

/-- The slot that the sequence check works on, once it is marked as initialised. -/
theorem setThread_threadStates (t : VerifierThreadState) : (s.setThread i t).threadStates i = t :=
  Function.update_self ..

theorem observeThreadSequence_eq {s₀ : VerifierState}
    (h : findThread s event.threadId true = (s₀, some i)) :
    observeThreadSequence s event = (observedThread s₀ i event, some i) := by
  unfold observeThreadSequence observedThread observeThread
  simp only [h, markThreadStreamTainted_eq, setThread_threadStates]
  by_cases hgap : hasGap (s₀.threadStates i) event = true
  · by_cases ht : (s₀.threadStates i).traceTainted = true
    · simp only [hgap, ht, if_true, Bool.not_true, Bool.and_false, Bool.false_and,
        Bool.false_eq_true, if_false]
      simp only [VerifierState.setThread, Function.update_self, Function.update_idem]
    · simp only [hgap, ht, if_true, Bool.not_false, Bool.and_true, Bool.true_and,
        Bool.false_eq_true, if_false]
      simp only [VerifierState.setThread, Function.update_self, Function.update_idem,
        decide_eq_true_eq]
      rfl
  · simp only [hgap, Bool.false_and, Bool.false_eq_true, if_false]
    simp only [VerifierState.setThread, Function.update_self, Function.update_idem]

theorem observeThreadSequence_none {s₀ : VerifierState}
    (h : findThread s event.threadId true = (s₀, none)) :
    observeThreadSequence s event = (s₀, none) := by
  unfold observeThreadSequence
  rw [h]

/-- An event that leaves no gap only moves the expected number of its thread before it is
handled. -/
theorem processEvent_followed {event : MonitorEvent}
    (hfind : find threadLayout s.threadStates event.threadId = some i)
    (hgap : hasGap (s.threadStates i) event = false) :
    monitorVerifierProcessEvent s event =
      handleEvent (resetCandidate ((countEvent s event).setThread i
        { s.threadStates i with
          sequenceInitialized := true
          nextExpectedSequence := succ32 event.threadSequence })) event := by
  have hlookup : findThread (countEvent s event) event.threadId true =
      (countEvent s event, some i) := findThread_found (s := countEvent s event) hfind true
  have hcounted : (countEvent s event).threadStates = s.threadStates := rfl
  have hobserved : observedThread (countEvent s event) i event =
      (countEvent s event).setThread i
        { s.threadStates i with
          sequenceInitialized := true
          nextExpectedSequence := succ32 event.threadSequence } := by
    unfold observedThread observeThread
    simp only [hcounted, hgap, Bool.false_and, Bool.false_eq_true, if_false]
    rfl
  unfold monitorVerifierProcessEvent
  rw [observeThreadSequence_eq hlookup, hobserved]

theorem handleThreadStart_eq (hfind : find threadLayout s.threadStates event.threadId = some i)
    (htype : event.eventType = .threadStart) :
    handleThreadStart s event = handledThread s i event := by
  unfold handleThreadStart handledThread
  simp only [findThread_found hfind, handleThread, waitingAfter, handlerReports, bump, htype,
    List.append_nil]
  rfl

theorem handleThreadExit_eq (hfind : find threadLayout s.threadStates event.threadId = some i)
    (htype : event.eventType = .threadExit) :
    handleThreadExit s event = handledThread s i event := by
  unfold handleThreadExit handledThread
  simp only [findThread_found hfind, handleThread, waitingAfter, handlerReports, bump, htype,
    clearThreadWaiting_eq]
  by_cases hheld : (!(s.threadStates i).traceTainted &&
      decide ((s.threadStates i).heldCount ≠ 0)) = true
  · by_cases hw : (s.threadStates i).waitingMutex ≠ 0
    · simp only [if_pos hheld, if_pos hw, reportLockHeldAtThreadExit, VerifierState.setThread,
        Function.update_self, Function.update_idem, if_true]
      rfl
    · simp only [if_pos hheld, if_neg hw, reportLockHeldAtThreadExit, VerifierState.setThread]
      rfl
  · by_cases hw : (s.threadStates i).waitingMutex ≠ 0
    · simp only [if_neg hheld, if_pos hw, VerifierState.setThread, Function.update_self,
        Function.update_idem, if_true, List.append_nil]
      rfl
    · simp only [if_neg hheld, if_neg hw, VerifierState.setThread, List.append_nil]
      rfl

theorem handleLockFailed_eq (hfind : find threadLayout s.threadStates event.threadId = some i)
    (htype : event.eventType = .lockFailed) :
    handleLockFailed s event = handledThread s i event := by
  unfold handleLockFailed handledThread
  simp only [findThread_found hfind, handleThread, waitingAfter, handlerReports, bump, htype,
    clearThreadWaiting_eq, List.append_nil]
  rfl

theorem handleUnlockFailed_eq (htype : event.eventType = .unlockFailed) :
    handleUnlockFailed s event = handledThread s i event := by
  unfold handleUnlockFailed handledThread
  simp only [handleThread, waitingAfter, handlerReports, bump, htype, setThread_self]
  by_cases hperm : event.result = ePerm
  · simp only [if_pos hperm, reportNonOwnerUnlock]
    rfl
  · simp only [if_neg hperm, List.append_nil]
    rfl

theorem handledThread_ignored
    (htype : event.eventType = .unlockRequest ∨ event.eventType = .invalid) :
    handledThread s i event = s := by
  unfold handledThread
  rcases htype with htype | htype <;>
    simp only [handleThread, waitingAfter, handlerReports, bump, htype, setThread_self,
      List.append_nil] <;> rfl

/-- A handler that does not look at the mutex table. -/
theorem handleEvent_plain (hfind : find threadLayout s.threadStates event.threadId = some i)
    (htouch : touchesMutex event = false) : handleEvent s event = handledThread s i event := by
  unfold handleEvent
  cases htype : event.eventType <;> simp only [touchesMutex, htype, Bool.true_eq_false] at htouch
  case threadStart => exact handleThreadStart_eq hfind htype
  case threadExit => exact handleThreadExit_eq hfind htype
  case lockFailed => exact handleLockFailed_eq hfind htype
  case unlockFailed => exact handleUnlockFailed_eq htype
  case unlockRequest => exact (handledThread_ignored (Or.inl htype)).symm
  case invalid => exact (handledThread_ignored (Or.inr htype)).symm

theorem findMutex_threadStates {s' : VerifierState} {address : ℕ} {create : Bool}
    {j : Option (Fin verifierMaxMutexes)} (h : findMutex s address create = (s', j)) :
    s'.threadStates = s.threadStates ∧ s'.maxHoldNs = s.maxHoldNs := by
  unfold findMutex at h
  split at h
  · cases h
    exact ⟨rfl, rfl⟩
  · split at h
    · split at h <;> cases h <;> exact ⟨rfl, rfl⟩
    · cases h
      exact ⟨rfl, rfl⟩

/-- The table after the handler has looked at the entry of its mutex. -/
def handledMutex (s : VerifierState) (j : Fin verifierMaxMutexes)
    (thread : VerifierThreadState) (event : MonitorEvent) : VerifierState :=
  s.setMutex j (handleMutex (s.mutexStates j) thread event)

theorem updateOwner_eq (j : Fin verifierMaxMutexes) (owner : ℕ) :
    updateOwner s j event owner = s.setMutex j (newOwner (s.mutexStates j) event owner) := by
  unfold updateOwner newOwner
  by_cases h : event.sequenceId ≥ (s.mutexStates j).lastStateSequence
  · simp only [if_pos h]
  · simp only [if_neg h, VerifierState.setMutex, Function.update_eq_self]

theorem handleLockRequest_eq {s' : VerifierState} {j : Option (Fin verifierMaxMutexes)}
    (hfind : find threadLayout s.threadStates event.threadId = some i)
    (hmutex : findMutex s event.objectAddress true = (s', j))
    (htype : event.eventType = .lockRequest) :
    handleLockRequest s event = handledThread s' i event := by
  unfold handleLockRequest handledThread
  simp only [findThread_found hfind, hmutex, setThreadWaiting, handleThread, waitingAfter,
    handlerReports, bump, htype]
  by_cases hself : (!(s'.threadStates i).traceTainted &&
      (findHeldMutex (s'.threadStates i) event.objectAddress).isSome) = true
  · by_cases hw : (s'.threadStates i).waitingMutex = 0
    · simp only [if_pos hself, reportSelfDeadlockCandidate, if_pos hw]
      rfl
    · simp only [if_pos hself, reportSelfDeadlockCandidate, if_neg hw]
      rfl
  · by_cases hw : (s'.threadStates i).waitingMutex = 0
    · simp only [if_neg hself, if_pos hw, List.append_nil]
      rfl
    · simp only [if_neg hself, if_neg hw, List.append_nil]
      rfl

theorem handleLockAcquired_eq {s' : VerifierState} {j : Fin verifierMaxMutexes}
    (hfind : find threadLayout s.threadStates event.threadId = some i)
    (hmutex : findMutex s event.objectAddress true = (s', some j))
    (htype : event.eventType = .lockAcquired) :
    handleLockAcquired s event =
      handledMutex (handledThread s' i event) j (s'.threadStates i) event := by
  unfold handleLockAcquired handledMutex handledThread
  simp only [findThread_found hfind, hmutex, clearThreadWaiting_eq, addHeldMutex_eq,
    updateOwner_eq, handleThread, waitingAfter, handlerReports, handleMutex, bump, htype,
    List.append_nil]
  have hoverflow : ∀ address, heldOverflow (clearWaiting (s'.threadStates i) address) address =
      heldOverflow (s'.threadStates i) address := by
    intro address
    unfold heldOverflow clearWaiting
    split <;> rfl
  simp only [VerifierState.setThread, Function.update_self, Function.update_idem, hoverflow,
    VerifierState.setMutex, true_and]
  rfl

theorem handleUnlocked_eq {s' : VerifierState} {j : Fin verifierMaxMutexes}
    (hfind : find threadLayout s.threadStates event.threadId = some i)
    (hmutex : findMutex s event.objectAddress true = (s', some j))
    (htype : event.eventType = .unlocked) :
    handleUnlocked s event =
      handledMutex (handledThread s' i event) j (s'.threadStates i) event := by
  unfold handleUnlocked handledMutex handledThread
  simp only [findThread_found hfind, hmutex, releaseHeldMutex_eq, updateOwner_eq, handleThread,
    waitingAfter, handlerReports, handleMutex, bump, htype]
  cases holdViolation s'.maxHoldNs (s'.threadStates i) event with
  | none => rfl
  | some heldNs => rfl

/-- A handler that finds the entry of its mutex. -/
theorem handleEvent_touch {s' : VerifierState} {j : Fin verifierMaxMutexes}
    (hfind : find threadLayout s.threadStates event.threadId = some i)
    (hmutex : findMutex s event.objectAddress true = (s', some j))
    (htouch : touchesMutex event = true) :
    handleEvent s event =
      handledMutex (handledThread s' i event) j (s'.threadStates i) event := by
  unfold handleEvent
  cases htype : event.eventType <;>
    simp only [touchesMutex, htype, Bool.false_eq_true] at htouch
  case lockRequest =>
    rw [handleLockRequest_eq hfind hmutex htype]
    simp only [handledMutex, handleMutex, htype, VerifierState.setMutex, Function.update_eq_self]
  case lockAcquired => exact handleLockAcquired_eq hfind hmutex htype
  case unlocked => exact handleUnlocked_eq hfind hmutex htype

/-- A handler that finds neither the entry of its mutex nor room for it: an
acquisition returns early, a request and a release keep their thread part. -/
theorem handleEvent_full {s' : VerifierState}
    (hfind : find threadLayout s.threadStates event.threadId = some i)
    (hmutex : findMutex s event.objectAddress true = (s', none))
    (htouch : touchesMutex event = true) :
    handleEvent s event =
      if event.eventType = .lockAcquired then s' else handledThread s' i event := by
  unfold handleEvent
  cases htype : event.eventType <;>
    simp only [touchesMutex, htype, Bool.false_eq_true] at htouch
  case lockRequest =>
    rw [if_neg (by decide)]
    exact handleLockRequest_eq hfind hmutex htype
  case lockAcquired =>
    rw [if_pos rfl]
    unfold handleLockAcquired
    rw [findThread_found hfind]
    dsimp only
    rw [hmutex]
  case unlocked =>
    rw [if_neg (by decide)]
    unfold handleUnlocked handledThread
    simp only [findThread_found hfind, hmutex, releaseHeldMutex_eq, handleThread, waitingAfter,
      handlerReports, bump, htype, reduceCtorEq, false_and, if_false]
    cases holdViolation s'.maxHoldNs (s'.threadStates i) event with
    | none => simp only [Option.isSome_none, List.any_nil, Bool.false_eq_true, if_false]; rfl
    | some heldNs => rfl

end Equations

end RuntimeMonitor.VerifierSteps
