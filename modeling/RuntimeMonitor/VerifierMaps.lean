import RuntimeMonitor.VerifierInvariant

/-!
The verifier's tables as maps. An event whose thread has a slot rewrites the
entry of its thread, may invalidate the mutexes of a tainted thread, and rewrites
the entry of its mutex; all other fields follow from these entries. This is the
view in which runs are compared.
-/
namespace RuntimeMonitor.VerifierMaps

open EventRecord SlotTables VerifierTables VerifierEvents VerifierSteps VerifierCycles
open HeldTables VerifierInvariant

/-- The entry of a thread, or the one its slot would be created with. -/
def threadAt (s : VerifierState) (threadId : ℕ) : VerifierThreadState :=
  (s.threadOf threadId).getD (freshThread threadId)

/-- There is a slot for the thread or room to create one. -/
def ThreadRoom (s : VerifierState) (threadId : ℕ) : Prop :=
  s.threadOf threadId = none → free threadLayout s.threadStates ≠ none

/-- The entry of the event's thread after the sequence check. -/
def observed (s : VerifierState) (event : MonitorEvent) : VerifierThreadState :=
  observeThread (threadAt s event.threadId) event

/-- The sequence check taints a stream that was not tainted before. -/
def taints (thread : VerifierThreadState) (event : MonitorEvent) : Bool :=
  hasGap thread event && !thread.traceTainted

/-- The mutex entries after the sequence check. -/
def checkedMutexes (s : VerifierState) (event : MonitorEvent) : ℕ → Option VerifierMutexState :=
  fun address =>
    if taints (threadAt s event.threadId) event then
      (s.mutexOf address).map fun mutex =>
        invalidateMutex mutex event.threadId event.sequenceId
    else s.mutexOf address

/-- The event needs an entry for its mutex and the table has no room for it. -/
def mutexRefused (s : VerifierState) (event : MonitorEvent) : Bool :=
  touchesMutex event && (s.mutexOf event.objectAddress).isNone &&
    (free mutexLayout s.mutexStates).isNone

/-- An update is given up for lack of space in the mutex or the held table. -/
def discarded (s : VerifierState) (event : MonitorEvent) : Bool :=
  mutexRefused s event ||
    (decide (event.eventType = .lockAcquired) &&
      heldOverflow (observed s event) event.objectAddress)

/-- The entry of the event's thread after the event. -/
def processedThread (s : VerifierState) (event : MonitorEvent) : VerifierThreadState :=
  if mutexRefused s event && decide (event.eventType = .lockAcquired) then observed s event
  else handleThread (observed s event) event

/-- The mutex entries after the event. -/
def processedMutexes (s : VerifierState) (event : MonitorEvent) :
    ℕ → Option VerifierMutexState :=
  if touchesMutex event && !mutexRefused s event then
    Function.update (checkedMutexes s event) event.objectAddress
      (some (handleMutex
        ((checkedMutexes s event event.objectAddress).getD (freshMutex event.objectAddress))
        (observed s event) event))
  else checkedMutexes s event

/-- The reports made for the event. -/
def reportsMade (s : VerifierState) (event : MonitorEvent) : List Report :=
  handlerReports s.maxHoldNs (observed s event) event

/-- The state handed to the switch over the event type. -/
structure Admitted (s : VerifierState) (event : MonitorEvent) (s' : VerifierState)
    (i : Fin verifierMaxThreads) : Prop where
  well_formed : WellFormed s'
  found : find threadLayout s'.threadStates event.threadId = some i
  slot : s'.threadStates i = observed s event
  threads : s'.threadOf = Function.update s.threadOf event.threadId (some (observed s event))
  mutexes : s'.mutexOf = checkedMutexes s event
  mutex_free : free mutexLayout s'.mutexStates = free mutexLayout s.mutexStates
  rest : s' = { s with
    threadStates := s'.threadStates
    mutexStates := s'.mutexStates
    waitingThreadCount := s'.waitingThreadCount
    taintedThreadStreams := s'.taintedThreadStreams
    processedEvents := succ64 s.processedEvents
    lastProcessedSequence :=
      if event.sequenceId > s.lastProcessedSequence then event.sequenceId
      else s.lastProcessedSequence
    detectedStreamGaps :=
      if hasGap (threadAt s event.threadId) event then succ64 s.detectedStreamGaps
      else s.detectedStreamGaps
    candidateCycleMask := 0
    candidateCycleConfirmations := 0 }

/-- Everything that one event does, for an event whose thread has a slot. -/
structure Processed (s : VerifierState) (event : MonitorEvent) (s' : VerifierState) : Prop where
  threads :
    s'.threadOf = Function.update s.threadOf event.threadId (some (processedThread s event))
  mutexes : s'.mutexOf = processedMutexes s event
  rest : s' = { s with
    threadStates := s'.threadStates
    mutexStates := s'.mutexStates
    waitingThreadCount := s'.waitingThreadCount
    taintedThreadStreams := s'.taintedThreadStreams
    processedEvents := succ64 s.processedEvents
    lastProcessedSequence :=
      if event.sequenceId > s.lastProcessedSequence then event.sequenceId
      else s.lastProcessedSequence
    detectedStreamGaps :=
      if hasGap (threadAt s event.threadId) event then succ64 s.detectedStreamGaps
      else s.detectedStreamGaps
    stateOverflowEvents :=
      if discarded s event then succ64 s.stateOverflowEvents else s.stateOverflowEvents
    selfDeadlockCandidates := bump .selfDeadlock (reportsMade s event) s.selfDeadlockCandidates
    nonOwnerUnlockViolations :=
      bump .nonOwnerUnlock (reportsMade s event) s.nonOwnerUnlockViolations
    holdTimeViolations := bump .holdTime (reportsMade s event) s.holdTimeViolations
    lockHeldAtExitViolations := bump .heldAtExit (reportsMade s event) s.lockHeldAtExitViolations
    candidateCycleMask := 0
    candidateCycleConfirmations := 0
    reports := s.reports ++ reportsMade s event }

variable {s s' : VerifierState} {event : MonitorEvent} {i : Fin verifierMaxThreads}

theorem threadOf_spec {threadId : ℕ} {thread : VerifierThreadState}
    (h : s.threadOf threadId = some thread) :
    thread.used = true ∧ thread.threadId = threadId := lookup_spec h

theorem mutexOf_spec {address : ℕ} {mutex : VerifierMutexState}
    (h : s.mutexOf address = some mutex) : mutex.used = true ∧ mutex.address = address :=
  lookup_spec h

theorem threadAt_spec (s : VerifierState) (threadId : ℕ) :
    (threadAt s threadId).used = true ∧ (threadAt s threadId).threadId = threadId := by
  unfold threadAt
  cases h : s.threadOf threadId with
  | none => exact ⟨rfl, rfl⟩
  | some thread => exact threadOf_spec h

theorem observed_spec (s : VerifierState) (event : MonitorEvent) :
    (observed s event).used = true ∧ (observed s event).threadId = event.threadId := by
  have hframe := observeThread_frame (threadAt s event.threadId) event
  have hspec := threadAt_spec s event.threadId
  exact ⟨hframe.1.trans hspec.1, hframe.2.1.trans hspec.2⟩

/-- Rewriting the slot of a thread rewrites its entry in the map. -/
theorem threadOf_rewrite (h : WellFormed s) {threadId : ℕ} {thread : VerifierThreadState}
    (hfind : find threadLayout s.threadStates threadId = some i)
    (hthreads : s'.threadStates = Function.update s.threadStates i thread)
    (hused : thread.used = true) (hid : thread.threadId = threadId) :
    s'.threadOf = Function.update s.threadOf threadId (some thread) := by
  obtain ⟨hold, hkey⟩ := find_spec hfind
  change lookup threadLayout s'.threadStates =
    Function.update (lookup threadLayout s.threadStates) threadId (some thread)
  rw [hthreads, lookup_update h.threads_distinct hold hused (hid.trans hkey.symm)]
  exact congrArg (fun k => Function.update _ k _) hkey

theorem threadAt_of_find {threadId : ℕ}
    (hfind : find threadLayout s.threadStates threadId = some i) :
    threadAt s threadId = s.threadStates i := by
  simp [threadAt, VerifierState.threadOf, lookup, hfind]

/-- Looking a thread up, with creation, gives a slot that holds its entry. -/
theorem findThread_admits (h : WellFormed s) {threadId : ℕ}
    (hfind : findThread s threadId true = (s', some i)) :
    WellFormed s' ∧ find threadLayout s'.threadStates threadId = some i ∧
      s'.threadStates i = threadAt s threadId ∧
      s'.threadOf = Function.update s.threadOf threadId (some (threadAt s threadId)) ∧
      s' = { s with threadStates := s'.threadStates } := by
  rcases findThread_cases s threadId with ⟨k, hk, heq⟩ | ⟨k, hnew, hfree, heq⟩ | ⟨-, -, heq⟩ <;>
    rw [heq] at hfind <;> cases hfind
  · have hat := threadAt_of_find hk
    have hof : s.threadOf threadId = some (threadAt s threadId) := by
      rw [hat]
      simp [VerifierState.threadOf, lookup, hk]
    refine ⟨h, hk, hat.symm, ?_, rfl⟩
    rw [← hof, Function.update_eq_self]
  · have hnone : s.threadOf threadId = none := lookup_eq_none_iff.mpr hnew
    have hat : threadAt s threadId = freshThread threadId := by simp [threadAt, hnone]
    refine ⟨h.insert hnew hfree, find_setThread h hnew, ?_, ?_, rfl⟩
    · rw [hat, setThread_threadStates]
    · rw [hat]
      exact lookup_insert h.threads_distinct (free_spec hfree) rfl hnew

theorem invalidateMutex_frame (mutex : VerifierMutexState) (threadId barrier : ℕ) :
    (invalidateMutex mutex threadId barrier).used = mutex.used ∧
      (invalidateMutex mutex threadId barrier).address = mutex.address := by
  unfold invalidateMutex
  split <;> exact ⟨rfl, rfl⟩

/-- The invalidation of a tainted thread's mutexes in the map view. -/
theorem mutexOf_invalidate (threadId barrier address : ℕ)
    (hmutexes : s'.mutexStates = fun j => invalidateMutex (s.mutexStates j) threadId barrier) :
    s'.mutexOf address = (s.mutexOf address).map fun mutex =>
      invalidateMutex mutex threadId barrier := by
  have hframe := fun mutex => invalidateMutex_frame mutex threadId barrier
  have hlookup := @lookup_map _ _ _ _ mutexLayout s.mutexStates
    (fun mutex => invalidateMutex mutex threadId barrier)
    (fun mutex => (hframe mutex).1) (fun mutex => (hframe mutex).2) address
  unfold VerifierState.mutexOf
  rw [hmutexes, hlookup]

theorem free_invalidate (slots : Fin verifierMaxMutexes → VerifierMutexState)
    (threadId barrier : ℕ) :
    free mutexLayout (fun j => invalidateMutex (slots j) threadId barrier) =
      free mutexLayout slots := by
  simp only [free, (invalidateMutex_frame _ _ _).1]

/-- An event whose thread finds no slot is counted and otherwise ignored. -/
theorem processEvent_noRoom (h : WellFormed s) (hroom : ¬ ThreadRoom s event.threadId) :
    monitorVerifierProcessEvent s event =
      { countEvent s event with stateOverflowEvents := succ64 s.stateOverflowEvents } := by
  rcases processEvent_cases h event with ⟨-, -, heq⟩ | ⟨s₁, i, hfind, -⟩
  · exact heq
  · exfalso
    apply hroom
    intro hnone hfull
    have hnew : find threadLayout (countEvent s event).threadStates event.threadId = none :=
      lookup_eq_none_iff.mp hnone
    have hfull' : free threadLayout (countEvent s event).threadStates = none := hfull
    unfold findThread at hfind
    rw [hnew, if_pos rfl, hfull'] at hfind
    simp at hfind

/-- The state that the sequence check leaves to the switch. -/
theorem admitted_observed (h : WellFormed s) {s₁ : VerifierState}
    (hfind : findThread (countEvent s event) event.threadId true = (s₁, some i)) :
    Admitted s event (resetCandidate (observedThread s₁ i event)) i := by
  obtain ⟨h₁, hfound, hslot, hthreads, hrest⟩ :=
    findThread_admits (wellFormed_countEvent h event) hfind
  obtain ⟨hused, hkey⟩ := find_spec hfound
  have hslot' : s₁.threadStates i = threadAt s event.threadId := hslot
  have hobserved : observeThread (s₁.threadStates i) event = observed s event := by
    rw [hslot']
    rfl
  have hmutexes : s₁.mutexStates = s.mutexStates := by rw [hrest]; rfl
  constructor
  · exact wellFormed_resetCandidate (wellFormed_observedThread h₁ hused event)
  · exact find_observedThread h₁ hfound
  · rw [← hobserved]
    exact Function.update_self ..
  · have hspec := observed_spec s event
    rw [← hobserved] at hspec
    have hwrite : (resetCandidate (observedThread s₁ i event)).threadStates =
        Function.update s₁.threadStates i (observeThread (s₁.threadStates i) event) := rfl
    rw [threadOf_rewrite h₁ hfound hwrite hspec.1 hspec.2, hthreads, hobserved,
      Function.update_idem]
    rfl
  · funext address
    have hid : (s₁.threadStates i).threadId = event.threadId := hkey
    have hlookup : s₁.mutexOf address = s.mutexOf address := by
      unfold VerifierState.mutexOf
      rw [hmutexes]
    unfold checkedMutexes
    by_cases htaint : taints (threadAt s event.threadId) event = true
    · rw [if_pos htaint, ← hlookup]
      apply mutexOf_invalidate
      unfold resetCandidate observedThread
      dsimp only
      rw [hid, hslot']
      exact if_pos htaint
    · rw [if_neg htaint, ← hlookup]
      unfold VerifierState.mutexOf resetCandidate observedThread
      dsimp only
      rw [hslot']
      exact congrArg (fun slots => lookup mutexLayout slots address) (if_neg htaint)
  · rw [← hmutexes]
    unfold resetCandidate observedThread
    dsimp only
    split
    · exact free_invalidate ..
    · rfl
  · unfold resetCandidate observedThread
    dsimp only
    rw [hslot', hrest]
    rfl

/-- The event reaches the switch in an admitted state. -/
theorem processEvent_admitted (h : WellFormed s) (hroom : ThreadRoom s event.threadId) :
    ∃ s' i, Admitted s event s' i ∧
      monitorVerifierProcessEvent s event = handleEvent s' event := by
  rcases processEvent_cases h event with ⟨hnew, hfull, -⟩ | ⟨s₁, i, hfind, -, -, heq⟩
  · exact absurd hfull (hroom (lookup_eq_none_iff.mpr hnew))
  · exact ⟨_, i, admitted_observed h hfind, heq⟩

/-- Looking a mutex up, with creation, gives a slot that holds its entry. -/
theorem findMutex_admits (h : WellFormed s) {address : ℕ} {j : Fin verifierMaxMutexes}
    (hfind : findMutex s address true = (s', some j)) :
    find mutexLayout s'.mutexStates address = some j ∧
      s'.mutexStates j = (s.mutexOf address).getD (freshMutex address) ∧
      s'.mutexOf = Function.update s.mutexOf address (some (s'.mutexStates j)) ∧
      s' = { s with mutexStates := s'.mutexStates } ∧
      ¬ (s.mutexOf address = none ∧ free mutexLayout s.mutexStates = none) := by
  have hwf := wellFormed_findMutex h hfind
  have hentry := findMutex_entry hfind
  have hfound : find mutexLayout s'.mutexStates address = some j :=
    (find_eq_some_iff hwf.mutexes_distinct).mpr hentry
  refine ⟨hfound, ?_⟩
  rcases findMutex_cases s address with ⟨k, hk, heq⟩ | ⟨k, hnew, hfree, heq⟩ | ⟨-, -, heq⟩ <;>
    rw [heq] at hfind <;> cases hfind
  · have hof : s.mutexOf address = some (s.mutexStates j) := by
      simp [VerifierState.mutexOf, lookup, hk]
    refine ⟨by rw [hof]; rfl, ?_, rfl, by simp [hof]⟩
    rw [← hof, Function.update_eq_self]
  · have hnone : s.mutexOf address = none := lookup_eq_none_iff.mpr hnew
    have hslot : (s.setMutex j (freshMutex address)).mutexStates j = freshMutex address :=
      Function.update_self ..
    refine ⟨by rw [hslot, hnone]; rfl, ?_, rfl, by simp [hfree]⟩
    rw [hslot]
    exact lookup_insert h.mutexes_distinct (free_spec hfree) rfl hnew

theorem findMutex_refused {address : ℕ}
    (hfind : findMutex s address true = (s', none)) :
    s.mutexOf address = none ∧ free mutexLayout s.mutexStates = none ∧
      s' = { s with stateOverflowEvents := succ64 s.stateOverflowEvents } := by
  rcases findMutex_cases s address with ⟨k, -, heq⟩ | ⟨k, -, -, heq⟩ | ⟨hnew, hfull, heq⟩ <;>
    rw [heq] at hfind <;> cases hfind
  exact ⟨lookup_eq_none_iff.mpr hnew, hfull, rfl⟩

theorem mutexOf_rewrite (h : Distinct mutexLayout s.mutexStates) {address : ℕ}
    {j : Fin verifierMaxMutexes} {mutex : VerifierMutexState}
    (hfind : find mutexLayout s.mutexStates address = some j)
    (hmutexes : s'.mutexStates = Function.update s.mutexStates j mutex)
    (hused : mutex.used = true) (haddress : mutex.address = address) :
    s'.mutexOf = Function.update s.mutexOf address (some mutex) := by
  obtain ⟨hold, hkey⟩ := find_spec hfind
  change lookup mutexLayout s'.mutexStates =
    Function.update (lookup mutexLayout s.mutexStates) address (some mutex)
  rw [hmutexes, lookup_update h hold hused (haddress.trans hkey.symm)]
  exact congrArg (fun k => Function.update _ k _) hkey

/-- The thread part of the switch, from an admitted state. -/
theorem handledThread_threads {s₁ : VerifierState} (hadmitted : Admitted s event s₁ i)
    (hs' : s'.threadStates = Function.update s₁.threadStates i
      (handleThread (observed s event) event)) :
    s'.threadOf = Function.update s.threadOf event.threadId
      (some (handleThread (observed s event) event)) := by
  have hframe := handleThread_frame (observed s event) event
  have hspec := observed_spec s event
  rw [threadOf_rewrite hadmitted.well_formed hadmitted.found hs' (hframe.1.trans hspec.1)
    (hframe.2.1.trans hspec.2), hadmitted.threads, Function.update_idem]

theorem checkedMutexes_eq_none_iff {address : ℕ} :
    checkedMutexes s event address = none ↔ s.mutexOf address = none := by
  unfold checkedMutexes
  split <;> simp

theorem processed_plain {s₁ : VerifierState} (hadmitted : Admitted s event s₁ i)
    (htouch : touchesMutex event = false) :
    Processed s event (handledThread s₁ i event) := by
  have hrefused : mutexRefused s event = false := by simp [mutexRefused, htouch]
  have hacquired : decide (event.eventType = .lockAcquired) = false := by
    cases htype : event.eventType <;> simp [touchesMutex, htype] at htouch ⊢
  have hslot := hadmitted.slot
  have hrest := hadmitted.rest
  constructor
  · have hthread : processedThread s event = handleThread (observed s event) event := by
      simp [processedThread, hrefused]
    rw [hthread]
    apply handledThread_threads hadmitted
    rw [← hslot]
    rfl
  · have hmutexes : processedMutexes s event = checkedMutexes s event := by
      simp [processedMutexes, htouch]
    rw [hmutexes, ← hadmitted.mutexes]
    rfl
  · have hdiscarded : discarded s event = false := by
      simp [discarded, hrefused, hacquired]
    have hover : ¬ (event.eventType = .lockAcquired ∧
        heldOverflow (observed s event) event.objectAddress = true) := by
      simp only [decide_eq_false_iff_not] at hacquired
      exact fun hcon => hacquired hcon.1
    unfold handledThread
    rw [hslot]
    simp only [if_neg hover, hdiscarded, Bool.false_eq_true, if_false]
    rw [hrest]
    rfl

theorem processed_touch {s₁ s₂ : VerifierState} {j : Fin verifierMaxMutexes}
    (hadmitted : Admitted s event s₁ i)
    (hfind : findMutex s₁ event.objectAddress true = (s₂, some j))
    (htouch : touchesMutex event = true) :
    Processed s event (handledMutex (handledThread s₂ i event) j (s₂.threadStates i) event) := by
  obtain ⟨hfound, hentry, hmutexes, hs₂, hroom⟩ :=
    findMutex_admits hadmitted.well_formed hfind
  rw [hadmitted.mutexes, checkedMutexes_eq_none_iff, hadmitted.mutex_free] at hroom
  have hrefused : mutexRefused s event = false := by
    simp only [mutexRefused, htouch, Bool.true_and, Bool.and_eq_false_iff,
      Option.isNone_eq_false_iff, Option.isSome_iff_ne_none]
    by_cases hnone : s.mutexOf event.objectAddress = none
    · exact Or.inr fun hfull => hroom ⟨hnone, hfull⟩
    · exact Or.inl hnone
  have hthreads := (findMutex_threadStates hfind).1
  have hslot : s₂.threadStates i = observed s event := by rw [hthreads, hadmitted.slot]
  have hwf := wellFormed_findMutex hadmitted.well_formed hfind
  rw [hadmitted.mutexes] at hentry hmutexes
  constructor
  · have hthread : processedThread s event = handleThread (observed s event) event := by
      simp [processedThread, hrefused]
    rw [hthread]
    apply handledThread_threads hadmitted
    rw [← hthreads, ← hslot]
    rfl
  · have hframe := handleMutex_frame (s₂.mutexStates j) (s₂.threadStates i) event
    have hspec : (s₂.mutexStates j).used = true ∧
        (s₂.mutexStates j).address = event.objectAddress := find_spec hfound
    have hwrite : (handledMutex (handledThread s₂ i event) j (s₂.threadStates i)
        event).mutexStates = Function.update s₂.mutexStates j
          (handleMutex (s₂.mutexStates j) (s₂.threadStates i) event) := rfl
    rw [mutexOf_rewrite hwf.mutexes_distinct hfound hwrite (hframe.1.trans hspec.1)
      (hframe.2.trans hspec.2), hmutexes, Function.update_idem]
    simp only [processedMutexes, htouch, hrefused, Bool.not_false, Bool.and_self, if_true,
      hslot, hentry]
  · unfold handledMutex handledThread
    rw [hslot, hs₂, hadmitted.rest]
    simp only [discarded, hrefused, Bool.false_or, Bool.and_eq_true, decide_eq_true_eq]
    rfl

theorem processed_full {s₁ s₂ : VerifierState} (hadmitted : Admitted s event s₁ i)
    (hfind : findMutex s₁ event.objectAddress true = (s₂, none))
    (htouch : touchesMutex event = true) :
    Processed s event
      (if event.eventType = .lockAcquired then s₂ else handledThread s₂ i event) := by
  obtain ⟨hnone, hfull, hs₂⟩ := findMutex_refused hfind
  rw [hadmitted.mutexes, checkedMutexes_eq_none_iff] at hnone
  rw [hadmitted.mutex_free] at hfull
  have hrefused : mutexRefused s event = true := by
    simp [mutexRefused, htouch, hnone, hfull]
  have hmutexes : processedMutexes s event = checkedMutexes s event := by
    simp [processedMutexes, hrefused]
  have hthreads := (findMutex_threadStates hfind).1
  have hslot : s₂.threadStates i = observed s event := by rw [hthreads, hadmitted.slot]
  have hsame : s₂.mutexOf = s₁.mutexOf := by rw [hs₂]; rfl
  by_cases htype : event.eventType = .lockAcquired
  · have hmade : reportsMade s event = [] := by simp [reportsMade, handlerReports, htype]
    rw [if_pos htype]
    constructor
    · have hthread : processedThread s event = observed s event := by
        simp [processedThread, hrefused, htype]
      rw [hthread, ← hadmitted.threads]
      unfold VerifierState.threadOf
      rw [hthreads]
    · rw [hmutexes, hsame, hadmitted.mutexes]
    · rw [hmade, hs₂, hadmitted.rest]
      simp only [discarded, hrefused, Bool.true_or, if_true, List.append_nil]
      rfl
  · rw [if_neg htype]
    constructor
    · have hthread : processedThread s event = handleThread (observed s event) event := by
        simp [processedThread, htype]
      rw [hthread]
      apply handledThread_threads hadmitted
      rw [← hthreads, ← hslot]
      rfl
    · rw [hmutexes, ← hadmitted.mutexes, ← hsame]
      rfl
    · unfold handledThread
      rw [hslot, hs₂, hadmitted.rest]
      simp only [discarded, hrefused, Bool.true_or, if_true, htype, false_and, if_false]
      rfl

/-- The one equation for an event that finds or gets a slot for its thread. -/
theorem processEvent_processed (h : WellFormed s) (hroom : ThreadRoom s event.threadId) :
    Processed s event (monitorVerifierProcessEvent s event) := by
  obtain ⟨s₁, i, hadmitted, heq⟩ := processEvent_admitted h hroom
  rw [heq]
  cases htouch : touchesMutex event with
  | false =>
    rw [handleEvent_plain hadmitted.found htouch]
    exact processed_plain hadmitted htouch
  | true =>
    rcases hfind : findMutex s₁ event.objectAddress true with ⟨s₂, j⟩
    cases j with
    | none =>
      rw [handleEvent_full hadmitted.found hfind htouch]
      exact processed_full hadmitted hfind htouch
    | some j =>
      rw [handleEvent_touch hadmitted.found hfind htouch]
      exact processed_touch hadmitted hfind htouch

end RuntimeMonitor.VerifierMaps
