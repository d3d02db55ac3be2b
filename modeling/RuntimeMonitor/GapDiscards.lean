import RuntimeMonitor.RepresentationInvariant
import RuntimeMonitor.VerifierMaps

/-!
What a detected gap leaves of a thread's state. The first gap of a stream discards
the waiting mutex, the held table and the ownership that came from the stream. A
later one discards nothing, as the thread is tainted already, while the handlers
in between go on recording wait states and owners of tainted threads; so there the
state is clean exactly when it was clean before.
-/
namespace RuntimeMonitor.GapDiscards

open EventRecord SlotTables VerifierTables VerifierEvents VerifierSteps VerifierCycles
open HeldTables VerifierInvariant VerifierMaps RepresentationInvariant

/-- The state between the sequence check and the handler. -/
def checked (s : VerifierState) (event : MonitorEvent) : VerifierState :=
  (observeThreadSequence (countEvent s event) event).1

/-- The sequence check counts a discontinuity. -/
def DetectsGap (s : VerifierState) (event : MonitorEvent) : Prop :=
  (checked s event).detectedStreamGaps ≠ s.detectedStreamGaps

instance (s : VerifierState) (event : MonitorEvent) : Decidable (DetectsGap s event) :=
  inferInstanceAs (Decidable (_ ≠ _))

/-- Nothing is left that relied on the thread's stream. That the thread is not counted
as waiting is said of runs in which the count has a meaning. -/
structure Discarded (calls : List Call) (s : VerifierState) (threadId : ℕ) : Prop where
  waiting : ∀ i, (s.threadStates i).used = true → (s.threadStates i).threadId = threadId →
    (s.threadStates i).waitingMutex = 0
  held : ∀ i, (s.threadStates i).used = true → (s.threadStates i).threadId = threadId →
    (s.threadStates i).heldCount = 0 ∧ ∀ k, (s.threadStates i).heldMutexes k = {}
  not_counted : (∀ call ∈ calls, NamedCall call) →
    s.waitingThreadCount = (Finset.univ.filter fun i => (s.threadStates i).used = true ∧
      (s.threadStates i).threadId ≠ threadId ∧ (s.threadStates i).waitingMutex ≠ 0).card
  owners : ∀ j, (s.mutexStates j).used = true → (s.mutexStates j).ownerKnown = true →
    (s.mutexStates j).ownerThreadId ≠ threadId

/-- The thread is not tainted yet, or it neither waits nor is the known owner of a
mutex. -/
def CleanIfTainted (s : VerifierState) (threadId : ℕ) : Prop :=
  ∀ i, (s.threadStates i).used = true → (s.threadStates i).threadId = threadId →
    (s.threadStates i).traceTainted = true →
    (s.threadStates i).waitingMutex = 0 ∧
      ∀ j, (s.mutexStates j).used = true → (s.mutexStates j).ownerKnown = true →
        (s.mutexStates j).ownerThreadId ≠ threadId

variable {s s₁ : VerifierState} {event : MonitorEvent} {i : Fin verifierMaxThreads}
  {calls : List Call} {threadId : ℕ}

theorem invalidateMutex_not_owner (mutex : VerifierMutexState) (barrier : ℕ)
    (hused : mutex.used = true)
    (hknown : (invalidateMutex mutex threadId barrier).ownerKnown = true) :
    (invalidateMutex mutex threadId barrier).ownerThreadId ≠ threadId := by
  unfold invalidateMutex at hknown ⊢
  split at hknown
  · simp at hknown
  · rename_i hother
    rw [if_neg hother]
    simp only [Bool.and_eq_true, decide_eq_true_eq, not_and] at hother
    exact hother ⟨hused, hknown⟩

/-- The entry of a thread is empty after a gap, by the check or by the invariant. -/
theorem observeThread_gap {thread : VerifierThreadState} (h : ThreadOk thread)
    (hgap : hasGap thread event = true) :
    (observeThread thread event).heldCount = 0 ∧
      (∀ k, (observeThread thread event).heldMutexes k = {}) ∧
      ((observeThread thread event).waitingMutex = 0 ↔
        (thread.traceTainted = true → thread.waitingMutex = 0)) := by
  unfold observeThread
  by_cases ht : thread.traceTainted = true
  · have hcount := h.tainted_empty ht
    have hcond : ¬ (hasGap thread event && !thread.traceTainted) = true := by simp [ht]
    rw [if_neg hcond]
    refine ⟨hcount, fun k => h.held_ok.zero_beyond k (by omega), ?_⟩
    simp [ht]
  · have hcond : (hasGap thread event && !thread.traceTainted) = true := by simp [ht, hgap]
    rw [if_pos hcond]
    refine ⟨rfl, fun k => rfl, ?_⟩
    simp [taintThread, ht]

/-- The sequence check on the slot of the event's thread. -/
theorem discarded_observedThread (hwf : WellFormed s₁)
    (hcounted : (∀ call ∈ calls, NamedCall call) → WaitingCounted s₁)
    (hused : (s₁.threadStates i).used = true)
    (hid : (s₁.threadStates i).threadId = event.threadId)
    (hgap : hasGap (s₁.threadStates i) event = true) :
    Discarded calls (observedThread s₁ i event) event.threadId ↔
      ((s₁.threadStates i).traceTainted = true → (s₁.threadStates i).waitingMutex = 0 ∧
        ∀ j, (s₁.mutexStates j).used = true → (s₁.mutexStates j).ownerKnown = true →
          (s₁.mutexStates j).ownerThreadId ≠ event.threadId) := by
  obtain ⟨hcount, hheld, hwaiting⟩ := observeThread_gap (hwf.thread_ok i hused) hgap
  have hframe := observeThread_frame (s₁.threadStates i) event
  have hwf' := wellFormed_observedThread hwf hused event
  have hslot : (observedThread s₁ i event).threadStates i =
      observeThread (s₁.threadStates i) event := Function.update_self ..
  have hself : ((observedThread s₁ i event).threadStates i).used = true ∧
      ((observedThread s₁ i event).threadStates i).threadId = event.threadId := by
    rw [hslot]
    exact ⟨hframe.1.trans hused, hframe.2.1.trans hid⟩
  have honly : ∀ k, ((observedThread s₁ i event).threadStates k).used = true →
      ((observedThread s₁ i event).threadStates k).threadId = event.threadId → k = i :=
    fun k hk hkid => hwf'.threads_distinct k i hk hself.1 (hkid.trans hself.2.symm)
  have howners : (∀ j, ((observedThread s₁ i event).mutexStates j).used = true →
      ((observedThread s₁ i event).mutexStates j).ownerKnown = true →
      ((observedThread s₁ i event).mutexStates j).ownerThreadId ≠ event.threadId) ↔
      ((s₁.threadStates i).traceTainted = true →
        ∀ j, (s₁.mutexStates j).used = true → (s₁.mutexStates j).ownerKnown = true →
          (s₁.mutexStates j).ownerThreadId ≠ event.threadId) := by
    cases ht : (s₁.threadStates i).traceTainted with
    | true =>
      have hsame : (observedThread s₁ i event).mutexStates = s₁.mutexStates := by
        unfold observedThread
        dsimp only
        rw [ht, Bool.not_true, Bool.and_false, if_neg (by simp)]
      rw [hsame]
      simp only [forall_const]
    | false =>
      have hinvalid : (observedThread s₁ i event).mutexStates = fun j =>
          invalidateMutex (s₁.mutexStates j) event.threadId event.sequenceId := by
        unfold observedThread
        dsimp only
        rw [ht, hgap, hid, Bool.not_false, Bool.and_true, if_pos rfl]
      refine ⟨fun _ hcon => absurd hcon (by simp), fun _ j hjused hknown => ?_⟩
      rw [hinvalid] at hjused hknown ⊢
      have hmutex := invalidateMutex_frame (s₁.mutexStates j) event.threadId event.sequenceId
      have husedj : (s₁.mutexStates j).used = true := hmutex.1.symm.trans hjused
      exact invalidateMutex_not_owner _ _ husedj hknown
  constructor
  · intro h ht
    have hzero := h.waiting i hself.1 hself.2
    rw [hslot] at hzero
    exact ⟨hwaiting.mp hzero ht, howners.mp h.owners ht⟩
  · intro h
    have hzero : (observeThread (s₁.threadStates i) event).waitingMutex = 0 :=
      hwaiting.mpr fun ht => (h ht).1
    constructor
    · intro k hk hkid
      rw [honly k hk hkid, hslot]
      exact hzero
    · intro k hk hkid
      rw [honly k hk hkid, hslot]
      exact ⟨hcount, hheld⟩
    · intro hnamed
      have hafter := waitingCounted_observedThread (hcounted hnamed) hused event
      rw [hafter, countWhere]
      congr 1
      apply Finset.filter_congr
      intro k _
      simp only [isWaiting, Bool.and_eq_true, decide_eq_true_eq]
      refine and_congr_right fun hk => ⟨fun hw => ⟨?_, hw⟩, fun hw => hw.2⟩
      intro hkid
      rw [honly k hk hkid, hslot] at hw
      exact hw hzero
    · exact howners.mpr fun ht => (h ht).2

/-- A gap is counted exactly when the check finds one in the slot of the thread. -/
theorem detectsGap_iff (h : findThread (countEvent s event) event.threadId true = (s₁, some i))
    (hgaps : s₁.detectedStreamGaps = s.detectedStreamGaps) :
    DetectsGap s event ↔ hasGap (s₁.threadStates i) event = true := by
  unfold DetectsGap checked
  rw [observeThreadSequence_eq h]
  unfold observedThread
  dsimp only
  cases hgap : hasGap (s₁.threadStates i) event with
  | false => simp [hgaps]
  | true =>
    simp only [if_true, hgaps, succ64, ne_eq, iff_true]
    omega

/-- After a detected gap the state of the thread is discarded if and only if the gap
is the first one or the tainted thread had neither a waiting mutex nor a known
ownership. -/
theorem gap_discards_iff (maxHoldNs : ℕ) (calls : List Call) (event : MonitorEvent)
    (hgap : DetectsGap (runCalls (monitorVerifierInit maxHoldNs) calls) event) :
    Discarded calls (checked (runCalls (monitorVerifierInit maxHoldNs) calls) event)
        event.threadId ↔
      CleanIfTainted (runCalls (monitorVerifierInit maxHoldNs) calls) event.threadId := by
  have hinit := wellFormed_init maxHoldNs
  have hwf := wellFormed_runCalls hinit calls
  have hcounted : (∀ call ∈ calls, NamedCall call) →
      WaitingCounted (runCalls (monitorVerifierInit maxHoldNs) calls) :=
    fun hnamed => waitingCounted_runCalls hinit (waitingCounted_init maxHoldNs) hnamed
  generalize runCalls (monitorVerifierInit maxHoldNs) calls = s at *
  have hcountWf := wellFormed_countEvent hwf event
  rcases findThread_cases (countEvent s event) event.threadId with
    ⟨i, hfind, heq⟩ | ⟨i, hnew, hfree, heq⟩ | ⟨hnew, hfree, heq⟩
  · have hhas := (detectsGap_iff heq rfl).mp hgap
    have hspec : (s.threadStates i).used = true ∧ (s.threadStates i).threadId = event.threadId :=
      find_spec hfind
    unfold checked
    rw [observeThreadSequence_eq heq, discarded_observedThread hcountWf
      (fun hnamed => (hcounted hnamed).congr rfl rfl) hspec.1 hspec.2 hhas]
    constructor
    · intro h k hk hkid ht
      have hki : k = i := hwf.threads_distinct k i hk hspec.1 (hkid.trans hspec.2.symm)
      rw [hki] at ht ⊢
      exact h ht
    · intro h ht
      exact h i hspec.1 hspec.2 ht
  · have hhas := (detectsGap_iff heq rfl).mp hgap
    obtain ⟨hused, hkey⟩ := find_spec (find_setThread (i := i) hcountWf hnew)
    have hfresh : ((countEvent s event).setThread i (freshThread event.threadId)).threadStates i =
        freshThread event.threadId := setThread_threadStates _
    unfold checked
    rw [observeThreadSequence_eq heq, discarded_observedThread (hcountWf.insert hnew hfree)
      (fun hnamed =>
        ((hcounted hnamed).congr rfl rfl : WaitingCounted (countEvent s event)).insert
        hfree) hused hkey hhas]
    refine ⟨fun _ k hk hkid => absurd hkid (find_eq_none_iff.mp hnew k hk), fun _ ht => ?_⟩
    rw [hfresh] at ht
    simp [freshThread] at ht
  · exfalso
    apply hgap
    unfold checked
    rw [observeThreadSequence_none heq]
    rfl

/-- A first gap; then the tainted thread acquires a mutex and asks for another one. -/
def eventsAfterFirstGap : List Call :=
  [.processEvent (sampleEvent 0 1 0 0 .threadStart),
    .processEvent (sampleEvent 1 1 2 100 .lockRequest),
    .processEvent (sampleEvent 2 1 3 100 .lockAcquired),
    .processEvent (sampleEvent 3 1 4 200 .lockRequest)]

/-- The event behind the second gap. -/
def behindSecondGap : MonitorEvent := sampleEvent 4 1 6 100 .unlockRequest

theorem gap_discards_iff_second :
    ¬ Discarded eventsAfterFirstGap
      (checked (runCalls (monitorVerifierInit 0) eventsAfterFirstGap) behindSecondGap) 1 := by
  have hiff := gap_discards_iff 0 eventsAfterFirstGap behindSecondGap (by decide +kernel)
  rw [show behindSecondGap.threadId = 1 from rfl] at hiff
  rw [hiff]
  intro h
  have hslot := h 0 (by decide +kernel) (by decide +kernel) (by decide +kernel)
  revert hslot
  decide +kernel

/-- The second gap leaves the waiting mutex and the recorded ownership in place. -/
theorem second_gap_keeps_state :
    ¬ ∀ (maxHoldNs : ℕ) (calls : List Call) (event : MonitorEvent),
      DetectsGap (runCalls (monitorVerifierInit maxHoldNs) calls) event →
      Discarded calls (checked (runCalls (monitorVerifierInit maxHoldNs) calls) event)
        event.threadId := by
  intro hall
  have h := hall 0 eventsAfterFirstGap behindSecondGap (by decide +kernel)
  have hwaiting := h.waiting 0 (by decide +kernel) (by decide +kernel)
  revert hwaiting
  decide +kernel

end RuntimeMonitor.GapDiscards
