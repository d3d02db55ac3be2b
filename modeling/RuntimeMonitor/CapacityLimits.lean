import RuntimeMonitor.AuthoritativeTraces
import RuntimeMonitor.UnboundedVerifier

/-!
The capacities of the verifier are exact unless their overflow is counted. A bounded
state is the front of an unbounded one, and as long as no update is given up every
function of the bounded verifier does to the front what the unbounded one does.
-/
namespace RuntimeMonitor.CapacityLimits

open EventRecord SlotTables GrowingTables VerifierTables VerifierEvents VerifierSteps
open VerifierCycles HeldTables VerifierInvariant VerifierMaps AuthoritativeTraces
open UnboundedVerifier

/-- The unbounded state that a bounded one is the front of. -/
def widen (s : VerifierState) : UnboundedState where
  threadStates := grow threadLayout {} s.threadStates
  mutexStates := grow mutexLayout {} s.mutexStates
  processedEvents := s.processedEvents
  deadlockCycleViolations := s.deadlockCycleViolations
  nonOwnerUnlockViolations := s.nonOwnerUnlockViolations
  selfDeadlockCandidates := s.selfDeadlockCandidates
  lockHeldAtExitViolations := s.lockHeldAtExitViolations
  holdTimeViolations := s.holdTimeViolations
  detectedStreamGaps := s.detectedStreamGaps
  taintedThreadStreams := s.taintedThreadStreams
  maxHoldNs := s.maxHoldNs
  waitingThreadCount := s.waitingThreadCount
  candidateCycleMask := s.candidateCycleMask
  candidateCycleConfirmations := s.candidateCycleConfirmations
  reportedCycleMask := s.reportedCycleMask
  lastProcessedSequence := s.lastProcessedSequence
  reports := s.reports

/-- The bounded state shows all of the unbounded one, with its tables filled in order. -/
structure Sim (s : VerifierState) (u : UnboundedState) : Prop where
  state : widen s = u
  threads : Packed threadLayout s.threadStates
  mutexes : Packed mutexLayout s.mutexStates

/-- The same, and slot `i` is in use. -/
structure SimAt (i : Fin verifierMaxThreads) (s : VerifierState) (u : UnboundedState) : Prop
    extends Sim s u where
  used : (s.threadStates i).used = true

/-- No mutex is held recursively 2^32 or more times. -/
def DepthsBelow (u : UnboundedState) : Prop :=
  ∀ i k, ((u.threadStates.slots i).heldMutexes k).depth < 2 ^ 32

variable {s s' : VerifierState} {u u' : UnboundedState} {event : MonitorEvent}
  {i : Fin verifierMaxThreads} {j : Fin verifierMaxMutexes}

section Tables

theorem Sim.slot (h : Sim s u) (i : Fin verifierMaxThreads) :
    u.threadStates.slots i.val = s.threadStates i := by
  rw [← h.state]
  exact grow_slot ..

theorem Sim.mutexSlot (h : Sim s u) (j : Fin verifierMaxMutexes) :
    u.mutexStates.slots j.val = s.mutexStates j := by
  rw [← h.state]
  exact grow_slot ..

theorem Sim.findSlot (h : Sim s u) (threadId : ℕ) : u.threadStates.find threadLayout threadId =
    (find threadLayout s.threadStates threadId).map Fin.val := by
  rw [← h.state]
  exact grow_find h.threads _ threadId

theorem Sim.findMutexSlot (h : Sim s u) (address : ℕ) : u.mutexStates.find mutexLayout address =
    (find mutexLayout s.mutexStates address).map Fin.val := by
  rw [← h.state]
  exact grow_find h.mutexes _ address

theorem SimAt.setThread (h : SimAt i s u) {thread : VerifierThreadState}
    (hused : thread.used = true) : SimAt i (s.setThread i thread) (u.setThread i thread) := by
  obtain ⟨⟨rfl, hthreads, hmutexes⟩, hold⟩ := h
  have hgrow : grow threadLayout {} (Function.update s.threadStates i thread) =
      (grow threadLayout {} s.threadStates).set i thread := grow_set _ hold hused
  refine ⟨⟨?_, hthreads.congr (used_update hold hused), hmutexes⟩, ?_⟩
  · simp only [widen, VerifierState.setThread, UnboundedState.setThread, hgrow]
  · show (Function.update s.threadStates i thread i).used = true
    rw [Function.update_self]
    exact hused

theorem Sim.setMutex (h : Sim s u) (hold : (s.mutexStates j).used = true)
    {mutex : VerifierMutexState} (hused : mutex.used = true) :
    Sim (s.setMutex j mutex) (u.setMutex j mutex) := by
  obtain ⟨rfl, hthreads, hmutexes⟩ := h
  have hgrow : grow mutexLayout {} (Function.update s.mutexStates j mutex) =
      (grow mutexLayout {} s.mutexStates).set j mutex := grow_set _ hold hused
  refine ⟨?_, hthreads, hmutexes.congr (used_update hold hused)⟩
  simp only [widen, VerifierState.setMutex, UnboundedState.setMutex, hgrow]

theorem Sim.findThread_found (h : Sim s u) {threadId : ℕ}
    (hfind : find threadLayout s.threadStates threadId = some i) (create : Bool) :
    u.findThread threadId create = (u, some i.val) := by
  unfold UnboundedState.findThread
  rw [h.findSlot, hfind]
  rfl

/-- A lookup that finds room leaves both tables with the same new entry. -/
theorem Sim.findThread (h : Sim s u) {threadId : ℕ}
    (hfind : findThread s threadId true = (s', some i)) :
    ∃ u', u.findThread threadId true = (u', some i.val) ∧ SimAt i s' u' := by
  rcases findThread_cases s threadId with ⟨k, hk, heq⟩ | ⟨k, hnew, hfree, heq⟩ | ⟨-, -, heq⟩ <;>
    rw [heq] at hfind <;> cases hfind
  · exact ⟨u, h.findThread_found hk true, h, (find_spec hk).1⟩
  · have hnone : u.threadStates.find threadLayout threadId = none := by
      rw [h.findSlot, hnew]
      rfl
    obtain ⟨rfl, hthreads, hmutexes⟩ := h
    have hcount : (widen s).threadStates.count = i.val := by
      simp only [widen, grow_count, usedCount_of_free hfree]
    have hgrow : grow threadLayout {} (Function.update s.threadStates i (freshThread threadId)) =
        (grow threadLayout {} s.threadStates).insert (freshThread threadId) :=
      grow_insert hthreads _ hfree rfl
    refine ⟨{ widen s with threadStates := (widen s).threadStates.insert (freshThread threadId) },
      ?_, ⟨?_, hthreads.insert hfree rfl, hmutexes⟩, ?_⟩
    · unfold UnboundedState.findThread
      rw [hnone, if_pos rfl, hcount]
    · simp only [widen, VerifierState.setThread, hgrow]
    · rw [setThread_threadStates]
      rfl

theorem Sim.findMutex (h : Sim s u) {address : ℕ}
    (hfind : findMutex s address true = (s', some j)) :
    ∃ u', u.findMutex address true = (u', some j.val) ∧ Sim s' u' ∧
      (s'.mutexStates j).used = true := by
  rcases findMutex_cases s address with ⟨k, hk, heq⟩ | ⟨k, hnew, hfree, heq⟩ | ⟨-, -, heq⟩ <;>
    rw [heq] at hfind <;> cases hfind
  · refine ⟨u, ?_, h, (find_spec hk).1⟩
    unfold UnboundedState.findMutex
    rw [h.findMutexSlot, hk]
    rfl
  · have hnone : u.mutexStates.find mutexLayout address = none := by
      rw [h.findMutexSlot, hnew]
      rfl
    obtain ⟨rfl, hthreads, hmutexes⟩ := h
    have hcount : (widen s).mutexStates.count = j.val := by
      simp only [widen, grow_count, usedCount_of_free hfree]
    have hgrow : grow mutexLayout {} (Function.update s.mutexStates j (freshMutex address)) =
        (grow mutexLayout {} s.mutexStates).insert (freshMutex address) :=
      grow_insert hmutexes _ hfree rfl
    refine ⟨{ widen s with mutexStates := (widen s).mutexStates.insert (freshMutex address) },
      ?_, ⟨?_, hthreads, hmutexes.insert hfree rfl⟩, ?_⟩
    · unfold UnboundedState.findMutex
      rw [hnone, if_pos rfl, hcount]
    · simp only [widen, VerifierState.setMutex, hgrow]
    · show (Function.update s.mutexStates j (freshMutex address) j).used = true
      rw [Function.update_self]
      rfl

end Tables

section Functions

theorem SimAt.ite {c : Prop} [Decidable c] (hpos : c → SimAt i s u) (hneg : ¬c → SimAt i s' u') :
    SimAt i (if c then s else s') (if c then u else u') := by
  by_cases hc : c
  · rw [if_pos hc, if_pos hc]
    exact hpos hc
  · rw [if_neg hc, if_neg hc]
    exact hneg hc

theorem SimAt.decrementWaiting (h : SimAt i s u) :
    SimAt i (decrementWaiting s) u.decrementWaiting := by
  obtain ⟨⟨rfl, hthreads, hmutexes⟩, hused⟩ := h
  exact SimAt.ite (fun _ => ⟨⟨rfl, hthreads, hmutexes⟩, hused⟩)
    fun _ => ⟨⟨rfl, hthreads, hmutexes⟩, hused⟩

theorem SimAt.invalidate (h : SimAt i s u) (threadId barrier : ℕ) :
    SimAt i (invalidateMutexesOwnedByThread s threadId barrier)
      (u.invalidateMutexesOwnedByThread threadId barrier) := by
  obtain ⟨⟨rfl, hthreads, hmutexes⟩, hused⟩ := h
  have hframe : ∀ mutex : VerifierMutexState,
      (invalidateMutex mutex threadId barrier).used = mutex.used :=
    fun mutex => (invalidateMutex_frame mutex threadId barrier).1
  have hgrow : grow mutexLayout {} (fun j => invalidateMutex (s.mutexStates j) threadId barrier) =
      (grow mutexLayout {} s.mutexStates).map fun mutex =>
        invalidateMutex mutex threadId barrier :=
    grow_map (f := fun mutex => invalidateMutex mutex threadId barrier) hframe rfl
  refine ⟨⟨?_, hthreads, hmutexes.congr fun j => hframe _⟩, hused⟩
  simp only [widen, invalidateMutexesOwnedByThread, UnboundedState.invalidateMutexesOwnedByThread,
    hgrow]

theorem SimAt.markThreadStreamTainted (h : SimAt i s u) (barrier : ℕ) :
    SimAt i (markThreadStreamTainted s i barrier) (u.markThreadStreamTainted i barrier) := by
  unfold VerifierEvents.markThreadStreamTainted UnboundedState.markThreadStreamTainted
  dsimp only
  rw [h.slot i]
  refine SimAt.ite (fun _ => h) fun _ => ?_
  have hcounted : SimAt i { s with taintedThreadStreams := succ32 s.taintedThreadStreams }
      { u with taintedThreadStreams := succ32 u.taintedThreadStreams } := by
    obtain ⟨⟨rfl, hthreads, hmutexes⟩, hused⟩ := h
    exact ⟨⟨rfl, hthreads, hmutexes⟩, hused⟩
  have hwaiting := SimAt.ite (c := (s.threadStates i).waitingMutex ≠ 0)
    (fun _ => hcounted.decrementWaiting) (fun _ => hcounted)
  have htainted : (taintThread (s.threadStates i)).used = true := h.used
  exact (hwaiting.setThread htainted).invalidate _ _

theorem SimAt.observeThreadSequence {s₁ : VerifierState} {u₁ : UnboundedState}
    (h : SimAt i s₁ u₁) (hs : findThread s event.threadId true = (s₁, some i))
    (hu : u.findThread event.threadId true = (u₁, some i.val)) :
    ∃ u', u.observeThreadSequence event = (u', some i.val) ∧
      SimAt i (observedThread s₁ i event) u' := by
  have heq := observeThreadSequence_eq hs
  unfold VerifierEvents.observeThreadSequence at heq
  unfold UnboundedState.observeThreadSequence
  simp only [hs, Prod.mk.injEq, and_true] at heq
  simp only [hu, h.slot i]
  refine ⟨_, rfl, ?_⟩
  rw [← heq]
  have hinit : SimAt i (s₁.setThread i { s₁.threadStates i with sequenceInitialized := true })
      (u₁.setThread i { s₁.threadStates i with sequenceInitialized := true }) :=
    h.setThread h.used
  have hgapped : SimAt i
      { s₁.setThread i { s₁.threadStates i with sequenceInitialized := true } with
        detectedStreamGaps := succ64 (s₁.setThread i
          { s₁.threadStates i with sequenceInitialized := true }).detectedStreamGaps }
      { u₁.setThread i { s₁.threadStates i with sequenceInitialized := true } with
        detectedStreamGaps := succ64 (u₁.setThread i
          { s₁.threadStates i with sequenceInitialized := true }).detectedStreamGaps } := by
    obtain ⟨⟨hstate, hthreads, hmutexes⟩, hused⟩ := hinit
    rw [← hstate]
    exact ⟨⟨rfl, hthreads, hmutexes⟩, hused⟩
  have hchecked := SimAt.ite (c := hasGap (s₁.threadStates i) event = true)
    (fun _ => hgapped.markThreadStreamTainted event.sequenceId) (fun _ => hinit)
  rw [hchecked.slot i]
  exact hchecked.setThread hchecked.used

theorem SimAt.setMutex (h : SimAt i s u) (hold : (s.mutexStates j).used = true)
    {mutex : VerifierMutexState} (hused : mutex.used = true) :
    SimAt i (s.setMutex j mutex) (u.setMutex j mutex) :=
  ⟨h.toSim.setMutex hold hused, h.used⟩

theorem SimAt.clearThreadWaiting (h : SimAt i s u) (address : ℕ) :
    SimAt i (clearThreadWaiting s i address) (u.clearThreadWaiting i address) := by
  unfold VerifierEvents.clearThreadWaiting UnboundedState.clearThreadWaiting
  dsimp only
  rw [h.slot i]
  refine SimAt.ite (fun _ => h) fun _ => ?_
  have hcleared : SimAt i
      (s.setThread i { s.threadStates i with waitingMutex := 0, waitingSequence := 0 })
      (u.setThread i { s.threadStates i with waitingMutex := 0, waitingSequence := 0 }) :=
    h.setThread h.used
  exact hcleared.decrementWaiting

theorem SimAt.setThreadWaiting (h : SimAt i s u) (address sequence : ℕ) :
    SimAt i (setThreadWaiting s i address sequence) (u.setThreadWaiting i address sequence) := by
  unfold VerifierEvents.setThreadWaiting UnboundedState.setThreadWaiting
  dsimp only
  rw [h.slot i]
  have hcounted : SimAt i { s with waitingThreadCount := succ32 s.waitingThreadCount }
      { u with waitingThreadCount := succ32 u.waitingThreadCount } := by
    obtain ⟨⟨rfl, hthreads, hmutexes⟩, hused⟩ := h
    exact ⟨⟨rfl, hthreads, hmutexes⟩, hused⟩
  have hwaiting := SimAt.ite (c := (s.threadStates i).waitingMutex = 0)
    (fun _ => hcounted) (fun _ => h)
  exact hwaiting.setThread h.used

theorem setThread_slot (u : UnboundedState) (i : ℕ) (thread : VerifierThreadState) :
    (u.setThread i thread).threadStates.slots i = thread := Function.update_self ..

/-- The held table has room and the depth stays below 2^32, so neither limit shows. -/
theorem SimAt.addHeldMutex (h : SimAt i s u) {address : ℕ} (timestampNs : ℕ)
    (hroom : heldOverflow (s.threadStates i) address = false)
    (hdepth : ∀ k, (((u.addHeldMutex i address timestampNs).threadStates.slots i).heldMutexes
      k).depth < 2 ^ 32) :
    SimAt i (addHeldMutex s i address timestampNs) (u.addHeldMutex i address timestampNs) := by
  unfold VerifierEvents.addHeldMutex
  unfold UnboundedState.addHeldMutex at hdepth ⊢
  unfold heldOverflow at hroom
  dsimp only at hdepth ⊢
  rw [h.slot i] at hdepth ⊢
  refine SimAt.ite (fun _ => h) fun hclean => ?_
  rw [if_neg hclean] at hdepth
  cases hfind : findHeldMutex (s.threadStates i) address with
  | some k =>
    simp only [hfind] at hdepth ⊢
    have hbelow := hdepth k
    rw [setThread_slot] at hbelow
    simp only [Function.update_self] at hbelow
    have hdeep : ((s.threadStates i).heldMutexes k).depth < uint32Max := by
      unfold uint32Max
      omega
    rw [if_pos hdeep]
    exact h.setThread h.used
  | none =>
    have hcount : ¬ (s.threadStates i).heldCount ≥ verifierMaxHeldMutexes := by
      simpa [hclean, hfind] using hroom
    simp only [if_neg hcount]
    exact h.setThread h.used

theorem SimAt.releaseHeldMutex (h : SimAt i s u) (event : MonitorEvent) :
    ∃ s' u' flag, releaseHeldMutex s i event = (s', flag) ∧
      u.releaseHeldMutex event i = (u', flag) ∧ SimAt i s' u' := by
  have hmax : u.maxHoldNs = s.maxHoldNs := by rw [← h.state]; rfl
  unfold VerifierEvents.releaseHeldMutex UnboundedState.releaseHeldMutex
  dsimp only
  rw [h.slot i, hmax]
  by_cases htaint : (s.threadStates i).traceTainted = true
  · rw [if_pos htaint, if_pos htaint]
    exact ⟨_, _, _, rfl, rfl, h⟩
  · rw [if_neg htaint, if_neg htaint]
    cases findHeldMutex (s.threadStates i) event.objectAddress with
    | none => exact ⟨_, _, _, rfl, rfl, h⟩
    | some k =>
      simp only
      by_cases hdeep : ((s.threadStates i).heldMutexes k).depth > 1
      · rw [if_pos hdeep, if_pos hdeep]
        exact ⟨_, _, _, rfl, rfl, h.setThread h.used⟩
      · rw [if_neg hdeep, if_neg hdeep]
        have hreported : SimAt i
            (reportHoldTimeViolation s event
              (heldDuration ((s.threadStates i).heldMutexes k) event))
            (u.reportHoldTimeViolation event
              (heldDuration ((s.threadStates i).heldMutexes k) event)) := by
          obtain ⟨⟨rfl, hthreads, hmutexes⟩, hused⟩ := h
          exact ⟨⟨rfl, hthreads, hmutexes⟩, hused⟩
        have hlate := SimAt.ite (c := s.maxHoldNs ≠ 0 ∧
          heldDuration ((s.threadStates i).heldMutexes k) event > s.maxHoldNs)
          (fun _ => hreported) (fun _ => h)
        have hremoved : (removeHeldMutex (s.threadStates i) k).used = true := h.used
        exact ⟨_, _, _, rfl, rfl, hlate.setThread hremoved⟩

theorem SimAt.updateOwner (h : SimAt i s u) (hused : (s.mutexStates j).used = true)
    (event : MonitorEvent) (owner : ℕ) :
    SimAt i (updateOwner s j event owner) (u.updateOwner event j owner) := by
  unfold VerifierEvents.updateOwner UnboundedState.updateOwner
  dsimp only
  rw [h.mutexSlot j]
  exact SimAt.ite (fun _ => h.setMutex hused hused) fun _ => h

end Functions

section Handlers

theorem SimAt.findMutex (h : SimAt i s u) {address : ℕ}
    (hfind : findMutex s address true = (s', some j)) :
    ∃ u', u.findMutex address true = (u', some j.val) ∧ SimAt i s' u' ∧
      (s'.mutexStates j).used = true ∧ s'.threadStates = s.threadStates := by
  obtain ⟨u', hu, hsim, hused⟩ := h.toSim.findMutex hfind
  have hthreads := (findMutex_threadStates hfind).1
  refine ⟨u', hu, ⟨hsim, ?_⟩, hused, hthreads⟩
  rw [hthreads]
  exact h.used

theorem SimAt.handleThreadStart (h : SimAt i s u)
    (hfind : find threadLayout s.threadStates event.threadId = some i) :
    SimAt i (handleThreadStart s event) (u.handleThreadStart event) := by
  unfold VerifierEvents.handleThreadStart UnboundedState.handleThreadStart
  rw [findThread_found hfind, h.findThread_found hfind]
  simp only [h.slot i]
  exact h.setThread h.used

theorem SimAt.handleThreadExit (h : SimAt i s u)
    (hfind : find threadLayout s.threadStates event.threadId = some i) :
    SimAt i (handleThreadExit s event) (u.handleThreadExit event) := by
  unfold VerifierEvents.handleThreadExit UnboundedState.handleThreadExit
  rw [findThread_found hfind, h.findThread_found hfind]
  simp only [h.slot i]
  have hreported : SimAt i (reportLockHeldAtThreadExit s event (s.threadStates i))
      (u.reportLockHeldAtThreadExit event (s.threadStates i)) := by
    obtain ⟨⟨rfl, hthreads, hmutexes⟩, hused⟩ := h
    exact ⟨⟨rfl, hthreads, hmutexes⟩, hused⟩
  have hchecked := SimAt.ite (c := (!(s.threadStates i).traceTainted &&
    decide ((s.threadStates i).heldCount ≠ 0)) = true) (fun _ => hreported) (fun _ => h)
  have hcleared := SimAt.ite (c := (s.threadStates i).waitingMutex ≠ 0)
    (fun _ => hchecked.clearThreadWaiting (s.threadStates i).waitingMutex) (fun _ => hchecked)
  rw [hcleared.slot i]
  exact hcleared.setThread hcleared.used

theorem SimAt.handleLockRequest (h : SimAt i s u)
    (hfind : find threadLayout s.threadStates event.threadId = some i)
    (hmutex : VerifierTables.findMutex s event.objectAddress true = (s', some j)) :
    SimAt i (handleLockRequest s event) (u.handleLockRequest event) := by
  obtain ⟨u', hu, h', -, -⟩ := h.findMutex hmutex
  unfold VerifierEvents.handleLockRequest UnboundedState.handleLockRequest
  rw [findThread_found hfind, h.findThread_found hfind]
  simp only [hmutex, hu, h'.slot i]
  have hreported : SimAt i (reportSelfDeadlockCandidate s' event)
      (u'.reportSelfDeadlockCandidate event) := by
    obtain ⟨⟨rfl, hthreads, hmutexes⟩, hused⟩ := h'
    exact ⟨⟨rfl, hthreads, hmutexes⟩, hused⟩
  have hchecked := SimAt.ite (c := (!(s'.threadStates i).traceTainted &&
    (findHeldMutex (s'.threadStates i) event.objectAddress).isSome) = true)
    (fun _ => hreported) (fun _ => h')
  exact hchecked.setThreadWaiting _ _

theorem updateOwner_threadStates (u : UnboundedState) (event : MonitorEvent) (j owner : ℕ) :
    (u.updateOwner event j owner).threadStates = u.threadStates := by
  unfold UnboundedState.updateOwner
  dsimp only
  split <;> rfl

theorem SimAt.handleLockAcquired (h : SimAt i s u)
    (hfind : find threadLayout s.threadStates event.threadId = some i)
    (hmutex : VerifierTables.findMutex s event.objectAddress true = (s', some j))
    (hroom : heldOverflow (s.threadStates i) event.objectAddress = false)
    (hdepth : DepthsBelow (u.handleLockAcquired event)) :
    SimAt i (handleLockAcquired s event) (u.handleLockAcquired event) := by
  obtain ⟨u', hu, h', hused, hthreads⟩ := h.findMutex hmutex
  unfold VerifierEvents.handleLockAcquired
  unfold UnboundedState.handleLockAcquired at hdepth ⊢
  rw [h.findThread_found hfind] at hdepth ⊢
  rw [findThread_found hfind]
  simp only [hmutex, hu] at hdepth ⊢
  have hcleared := h'.clearThreadWaiting event.objectAddress
  have hroom' : heldOverflow ((VerifierEvents.clearThreadWaiting s' i
      event.objectAddress).threadStates i) event.objectAddress = false := by
    rw [clearThreadWaiting_eq]
    show heldOverflow ((s'.setThread i
      (clearWaiting (s'.threadStates i) event.objectAddress)).threadStates i)
      event.objectAddress = false
    rw [setThread_threadStates, heldOverflow_clearWaiting, hthreads]
    exact hroom
  have hadded := hcleared.addHeldMutex event.timestampNs hroom' (by
    intro k
    have hbelow := hdepth i k
    rwa [updateOwner_threadStates] at hbelow)
  have hmutexes : (VerifierEvents.addHeldMutex
      (VerifierEvents.clearThreadWaiting s' i event.objectAddress) i event.objectAddress
      event.timestampNs).mutexStates = s'.mutexStates := by
    rw [addHeldMutex_eq, clearThreadWaiting_eq]
    rfl
  exact hadded.updateOwner (by rw [hmutexes]; exact hused) event event.threadId

theorem SimAt.handleLockFailed (h : SimAt i s u)
    (hfind : find threadLayout s.threadStates event.threadId = some i) :
    SimAt i (handleLockFailed s event) (u.handleLockFailed event) := by
  unfold VerifierEvents.handleLockFailed UnboundedState.handleLockFailed
  rw [findThread_found hfind, h.findThread_found hfind]
  exact h.clearThreadWaiting event.objectAddress

theorem SimAt.handleUnlocked (h : SimAt i s u)
    (hfind : find threadLayout s.threadStates event.threadId = some i)
    (hmutex : VerifierTables.findMutex s event.objectAddress true = (s', some j)) :
    SimAt i (handleUnlocked s event) (u.handleUnlocked event) := by
  obtain ⟨u', hu, h', hused, -⟩ := h.findMutex hmutex
  unfold VerifierEvents.handleUnlocked UnboundedState.handleUnlocked
  rw [findThread_found hfind, h.findThread_found hfind]
  obtain ⟨s₂, u₂, flag, hs₂, hu₂, h₂⟩ := h'.releaseHeldMutex event
  simp only [hmutex, hu, hs₂, hu₂]
  have hmutexes : s₂.mutexStates = s'.mutexStates := by
    rw [releaseHeldMutex_eq, Prod.mk.injEq] at hs₂
    rw [← hs₂.1]
    rfl
  exact h₂.updateOwner (by rw [hmutexes]; exact hused) event _

theorem SimAt.handleUnlockFailed (h : SimAt i s u) (event : MonitorEvent) :
    SimAt i (handleUnlockFailed s event) (u.handleUnlockFailed event) := by
  unfold VerifierEvents.handleUnlockFailed UnboundedState.handleUnlockFailed
  refine SimAt.ite (fun _ => ?_) fun _ => h
  obtain ⟨⟨rfl, hthreads, hmutexes⟩, hused⟩ := h
  exact ⟨⟨rfl, hthreads, hmutexes⟩, hused⟩

/-- The switch, where neither the mutex table nor the held table refuses the event. -/
theorem SimAt.handleEvent (h : SimAt i s u)
    (hfind : find threadLayout s.threadStates event.threadId = some i)
    (hmutex : touchesMutex event = true →
      ∃ s' j, VerifierTables.findMutex s event.objectAddress true = (s', some j))
    (hroom : event.eventType = .lockAcquired →
      heldOverflow (s.threadStates i) event.objectAddress = false)
    (hdepth : DepthsBelow (u.handleEvent event)) :
    SimAt i (handleEvent s event) (u.handleEvent event) := by
  unfold VerifierEvents.handleEvent
  unfold UnboundedState.handleEvent at hdepth ⊢
  cases htype : event.eventType with
  | threadStart => exact h.handleThreadStart hfind
  | threadExit => exact h.handleThreadExit hfind
  | lockRequest =>
    obtain ⟨s', j, hs'⟩ := hmutex (by simp [touchesMutex, htype])
    exact h.handleLockRequest hfind hs'
  | lockAcquired =>
    obtain ⟨s', j, hs'⟩ := hmutex (by simp [touchesMutex, htype])
    simp only [htype] at hdepth
    exact h.handleLockAcquired hfind hs' (hroom htype) hdepth
  | lockFailed => exact h.handleLockFailed hfind
  | unlocked =>
    obtain ⟨s', j, hs'⟩ := hmutex (by simp [touchesMutex, htype])
    exact h.handleUnlocked hfind hs'
  | unlockFailed => exact h.handleUnlockFailed event
  | unlockRequest | invalid => exact h

end Handlers

section Events

theorem Sim.countEvent (h : Sim s u) (event : MonitorEvent) :
    Sim (countEvent s event) (u.countEvent event) := by
  obtain ⟨rfl, hthreads, hmutexes⟩ := h
  exact ⟨rfl, hthreads, hmutexes⟩

theorem SimAt.resetCandidate (h : SimAt i s u) : SimAt i (resetCandidate s) u.resetCandidate := by
  obtain ⟨⟨rfl, hthreads, hmutexes⟩, hused⟩ := h
  exact ⟨⟨rfl, hthreads, hmutexes⟩, hused⟩

/-- An admitted event finds room for its mutex unless it is refused. -/
theorem findMutex_admitted (h : Admitted s event s' i)
    (htouch : touchesMutex event = true) (hrefused : mutexRefused s event = false) :
    ∃ s₂ j, VerifierTables.findMutex s' event.objectAddress true = (s₂, some j) := by
  cases hfind : VerifierTables.findMutex s' event.objectAddress true with
  | mk s₂ slot =>
    cases slot with
    | some j => exact ⟨s₂, j, rfl⟩
    | none =>
      exfalso
      obtain ⟨hnew, hfull, -⟩ := findMutex_refused hfind
      rw [h.mutexes, checkedMutexes_eq_none_iff] at hnew
      rw [h.mutex_free] at hfull
      simp [mutexRefused, htouch, hnew, hfull] at hrefused

/-- An event that gives up no update is processed alike by both verifiers. -/
theorem Sim.processEvent (h : Sim s u) (hwf : WellFormed s) (hkept : ¬ UpdateDiscarded s event)
    (hdepth : DepthsBelow (u.processEvent event)) :
    Sim (monitorVerifierProcessEvent s event) (u.processEvent event) := by
  unfold UpdateDiscarded at hkept
  rw [not_or, not_not, Bool.not_eq_true] at hkept
  obtain ⟨hroom, hdiscarded⟩ := hkept
  unfold discarded at hdiscarded
  rw [Bool.or_eq_false_iff] at hdiscarded
  obtain ⟨hrefused, hheld⟩ := hdiscarded
  rcases processEvent_cases hwf event with ⟨hnew, hfull, -⟩ | ⟨s₁, i, hfind, -, -, heq⟩
  · exact absurd hfull (hroom (lookup_eq_none_iff.mpr hnew))
  · have hadmitted := admitted_observed hwf hfind
    obtain ⟨u₁, hu₁, h₁⟩ := (h.countEvent event).findThread hfind
    obtain ⟨u₂, hu₂, h₂⟩ := h₁.observeThreadSequence hfind hu₁
    have heq' : u.processEvent event = u₂.resetCandidate.handleEvent event := by
      unfold UnboundedState.processEvent
      rw [hu₂]
    rw [heq'] at hdepth ⊢
    rw [heq]
    refine (h₂.resetCandidate.handleEvent hadmitted.found ?_ ?_ hdepth).toSim
    · intro htouch
      exact findMutex_admitted hadmitted htouch hrefused
    · intro hlock
      rw [hadmitted.slot]
      simpa [hlock] using hheld

end Events

end RuntimeMonitor.CapacityLimits
