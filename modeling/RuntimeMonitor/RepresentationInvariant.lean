import RuntimeMonitor.VerifierInvariant

/-!
The representation invariant over whole runs, with the unused slots included: an
event rewrites at most the thread slot of its own thread, so a slot that is not
used is still as it was initialised, and what holds of used slots holds of all.
-/
namespace RuntimeMonitor.RepresentationInvariant

open EventRecord SlotTables VerifierTables VerifierEvents VerifierSteps VerifierCycles
open HeldTables VerifierInvariant

/-- The thread table after an event: one slot, used before or the first free one,
holds the event's thread. -/
def OneSlotWritten (s s' : VerifierState) (threadId : ℕ) : Prop :=
  s'.threadStates = s.threadStates ∨ ∃ i thread,
    ((s.threadStates i).used = true ∨ free threadLayout s.threadStates = some i) ∧
    thread.used = true ∧ thread.threadId = threadId ∧
    ((s.threadStates i).used = true → (s.threadStates i).threadId = threadId) ∧
    s'.threadStates = Function.update s.threadStates i thread

/-- A slot that has never been claimed is zero. -/
def UnusedZero (s : VerifierState) : Prop :=
  ∀ i, (s.threadStates i).used = false → s.threadStates i = {}

/-- What the claim of a well-kept table comes to, slot by slot. -/
structure Representation (s : VerifierState) : Prop where
  thread_ids : ∀ i j, (s.threadStates i).used = true → (s.threadStates j).used = true →
    (s.threadStates i).threadId = (s.threadStates j).threadId → i = j
  addresses : ∀ i j, (s.mutexStates i).used = true → (s.mutexStates j).used = true →
    (s.mutexStates i).address = (s.mutexStates j).address → i = j
  held_count : ∀ i, (s.threadStates i).heldCount ≤ verifierMaxHeldMutexes
  held_distinct : ∀ i a b, a < (s.threadStates i).heldCount → b < (s.threadStates i).heldCount →
    ((s.threadStates i).heldMutexes a).address = ((s.threadStates i).heldMutexes b).address →
    a = b
  held_depth : ∀ i a, a < (s.threadStates i).heldCount →
    1 ≤ ((s.threadStates i).heldMutexes a).depth
  held_zero : ∀ i a, (s.threadStates i).heldCount ≤ a → (s.threadStates i).heldMutexes a = {}
  tainted_empty : ∀ i, (s.threadStates i).traceTainted = true → (s.threadStates i).heldCount = 0
  waiting_count : s.waitingThreadCount = (Finset.univ.filter fun i =>
    (s.threadStates i).used = true ∧ (s.threadStates i).waitingMutex ≠ 0).card
  tainted_count : s.taintedThreadStreams = (Finset.univ.filter fun i =>
    (s.threadStates i).used = true ∧ (s.threadStates i).traceTainted = true).card

/-- A waiting thread is counted, so no decrement on its behalf meets the guard. -/
def Unguarded (s : VerifierState) : Prop :=
  ∀ i, (s.threadStates i).used = true → (s.threadStates i).waitingMutex ≠ 0 →
    s.waitingThreadCount ≠ 0

variable {s s' : VerifierState} {event : MonitorEvent} {i : Fin verifierMaxThreads}

theorem handleEvent_threadStates
    (hfind : find threadLayout s.threadStates event.threadId = some i) :
    ∃ thread, thread.used = true ∧ thread.threadId = event.threadId ∧
      (handleEvent s event).threadStates = Function.update s.threadStates i thread := by
  obtain ⟨hused, hkey⟩ := find_spec hfind
  have hframe := handleThread_frame (s.threadStates i) event
  have hhandled : ∃ thread : VerifierThreadState, thread.used = true ∧
      thread.threadId = event.threadId ∧
      (handledThread s i event).threadStates = Function.update s.threadStates i thread :=
    ⟨_, hframe.1.trans hused, hframe.2.1.trans hkey, rfl⟩
  cases htouch : touchesMutex event with
  | false =>
    rw [handleEvent_plain hfind htouch]
    exact hhandled
  | true =>
    rcases hmutex : findMutex s event.objectAddress true with ⟨s', j⟩
    have hsame := (findMutex_threadStates hmutex).1
    have hhandled' : ∃ thread : VerifierThreadState, thread.used = true ∧
        thread.threadId = event.threadId ∧
        (handledThread s' i event).threadStates = Function.update s.threadStates i thread := by
      obtain ⟨thread, hthread, hid, heq⟩ := hhandled
      refine ⟨handleThread (s'.threadStates i) event, ?_, ?_, ?_⟩
      · rw [hsame]
        exact hframe.1.trans hused
      · rw [hsame]
        exact hframe.2.1.trans hkey
      · rw [← hsame]
        rfl
    cases j with
    | none =>
      rw [handleEvent_full hfind hmutex htouch]
      split
      · refine ⟨s.threadStates i, hused, hkey, ?_⟩
        rw [hsame, Function.update_eq_self]
      · exact hhandled'
    | some j =>
      rw [handleEvent_touch hfind hmutex htouch]
      exact hhandled'

theorem findThread_threadStates {threadId : ℕ}
    (hfind : findThread s threadId true = (s', some i)) :
    ((s.threadStates i).used = true ∨ free threadLayout s.threadStates = some i) ∧
      ((s.threadStates i).used = true → (s.threadStates i).threadId = threadId) ∧
      ∃ thread : VerifierThreadState,
        s'.threadStates = Function.update s.threadStates i thread := by
  rcases findThread_cases s threadId with ⟨k, hk, heq⟩ | ⟨k, -, hfree, heq⟩ | ⟨-, -, heq⟩ <;>
    rw [heq] at hfind <;> cases hfind
  · obtain ⟨hused, hkey⟩ := find_spec hk
    exact ⟨Or.inl hused, fun _ => hkey, _, (Function.update_eq_self i s.threadStates).symm⟩
  · have hunused : (s.threadStates i).used = false := free_spec hfree
    refine ⟨Or.inr hfree, ?_, _, rfl⟩
    intro hused
    rw [hunused] at hused
    simp at hused

theorem processEvent_threadStates (h : WellFormed s) (event : MonitorEvent) :
    OneSlotWritten s (monitorVerifierProcessEvent s event) event.threadId := by
  rcases processEvent_cases h event with ⟨-, -, heq⟩ | ⟨s₁, i, hlookup, h₁, hfind, heq⟩
  · exact Or.inl (by rw [heq]; rfl)
  · obtain ⟨hslot, hkey, entry, hentry⟩ := findThread_threadStates hlookup
    obtain ⟨thread, hused, hid, hthreads⟩ :=
      handleEvent_threadStates (find_observedThread h₁ hfind)
    refine Or.inr ⟨i, thread, hslot, hused, hid, hkey, ?_⟩
    have hobserved : (resetCandidate (observedThread s₁ i event)).threadStates =
        Function.update s₁.threadStates i (observeThread (s₁.threadStates i) event) := rfl
    have hcount : (countEvent s event).threadStates = s.threadStates := rfl
    rw [heq, hthreads, hobserved, hentry, hcount, Function.update_idem, Function.update_idem]

theorem UnusedZero.processEvent (hzero : UnusedZero s) (h : WellFormed s)
    (event : MonitorEvent) : UnusedZero (monitorVerifierProcessEvent s event) := by
  intro j hunused
  rcases processEvent_threadStates h event with hsame | ⟨i, thread, -, hused, -, -, hwrite⟩
  · rw [hsame] at hunused ⊢
    exact hzero j hunused
  · rw [hwrite] at hunused ⊢
    by_cases hji : j = i
    · subst hji
      rw [Function.update_self, hused] at hunused
      simp at hunused
    · rw [Function.update_of_ne hji] at hunused ⊢
      exact hzero j hunused

theorem unusedZero_runCalls (hzero : UnusedZero s) (h : WellFormed s) (calls : List Call) :
    UnusedZero (runCalls s calls) := by
  induction calls generalizing s with
  | nil => exact hzero
  | cons call rest ih =>
    rw [runCalls_cons]
    cases call with
    | processEvent event =>
      exact ih (hzero.processEvent h event) (wellFormed_processEvent h event)
    | checkDeadlocks =>
      have hthreads := (check_frame s).1
      apply ih _ (wellFormed_check h)
      intro i hunused
      rw [hthreads]
      apply hzero
      rw [← hthreads]
      exact hunused

/-- Every slot, used or zero, is in order. -/
theorem threadOk_of_unusedZero (h : WellFormed s) (hzero : UnusedZero s)
    (i : Fin verifierMaxThreads) : ThreadOk (s.threadStates i) := by
  cases hused : (s.threadStates i).used with
  | true => exact h.thread_ok i hused
  | false =>
    rw [hzero i hused]
    have hfresh := threadOk_fresh 0
    exact ⟨heldOk_congr hfresh.held_ok rfl rfl, fun ht => rfl⟩

theorem representation_of (h : WellFormed s) (hcounted : WaitingCounted s)
    (hzero : UnusedZero s) : Representation s := by
  have hok := threadOk_of_unusedZero h hzero
  constructor
  · exact h.threads_distinct
  · exact h.mutexes_distinct
  · exact fun i => (hok i).held_ok.count_le
  · exact fun i => (hok i).held_ok.distinct
  · exact fun i => (hok i).held_ok.depth_pos
  · exact fun i => (hok i).held_ok.zero_beyond
  · exact fun i => (hok i).tainted_empty
  · rw [hcounted, countWhere]
    simp only [isWaiting, Bool.and_eq_true, decide_eq_true_eq]
  · rw [h.tainted_count, countWhere]
    simp only [Bool.and_eq_true]

theorem WaitingCounted.unguarded (h : WaitingCounted s) : Unguarded s := by
  intro i hused hwaiting
  have hpos := h.pos hused (by simpa [isWaiting] using hwaiting)
  omega

theorem waitingCounted_observeThreadSequence (h : WellFormed s) (hcounted : WaitingCounted s)
    (event : MonitorEvent) :
    WaitingCounted (observeThreadSequence (countEvent s event) event).1 := by
  have hcount : WaitingCounted (countEvent s event) := hcounted.congr rfl rfl
  rcases findThread_cases (countEvent s event) event.threadId with
    ⟨i, hfind, heq⟩ | ⟨i, hnew, hfree, heq⟩ | ⟨hnew, hfree, heq⟩
  · rw [observeThreadSequence_eq heq]
    exact waitingCounted_observedThread hcount (find_spec hfind).1 event
  · rw [observeThreadSequence_eq heq]
    have hslot := find_setThread (i := i) (wellFormed_countEvent h event) hnew
    exact waitingCounted_observedThread (hcount.insert hfree) (find_spec hslot).1 event
  · rw [observeThreadSequence_none heq]
    exact hcount.congr rfl rfl

/-- The representation invariant of every reachable state; the count of waiting
threads is positive wherever a waiting thread is about to be taken off it, before
the sequence check of an event and after it. -/
theorem representation_invariant (maxHoldNs : ℕ) (calls : List Call)
    (hnamed : ∀ call ∈ calls, NamedCall call) :
    Representation (runCalls (monitorVerifierInit maxHoldNs) calls) ∧
      Unguarded (runCalls (monitorVerifierInit maxHoldNs) calls) ∧
      ∀ event, Unguarded (observeThreadSequence
        (countEvent (runCalls (monitorVerifierInit maxHoldNs) calls) event) event).1 := by
  have hinit := wellFormed_init maxHoldNs
  have hwf := wellFormed_runCalls hinit calls
  have hcounted := waitingCounted_runCalls hinit (waitingCounted_init maxHoldNs) hnamed
  have hzero : UnusedZero (runCalls (monitorVerifierInit maxHoldNs) calls) :=
    unusedZero_runCalls (fun _ _ => rfl) hinit calls
  refine ⟨representation_of hwf hcounted hzero, WaitingCounted.unguarded hcounted, ?_⟩
  intro event
  exact WaitingCounted.unguarded (waitingCounted_observeThreadSequence hwf hcounted event)

/-- A thread asks for a second mutex while it waits for a first one, and is tainted by
a gap while it waits. -/
def requestsAcrossGap : List Call :=
  [.processEvent (sampleEvent 0 1 0 100 .lockRequest),
    .processEvent (sampleEvent 1 1 1 200 .lockRequest), .checkDeadlocks,
    .processEvent (sampleEvent 2 1 5 100 .lockRequest)]

theorem representation_invariant_gap :
    Representation (runCalls (monitorVerifierInit 0) requestsAcrossGap) ∧
      Unguarded (runCalls (monitorVerifierInit 0) requestsAcrossGap) ∧
      ∀ event, Unguarded (observeThreadSequence
        (countEvent (runCalls (monitorVerifierInit 0) requestsAcrossGap) event) event).1 :=
  representation_invariant 0 requestsAcrossGap (by decide)

end RuntimeMonitor.RepresentationInvariant
