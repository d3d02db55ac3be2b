import RuntimeMonitor.StreamReplay

/-!
Discontinuities of a thread's stream. A stream numbered 0, 1, 2, ... modulo 2^32
shows no gap; a stream whose next event skips fewer than 2^32 numbers shows one,
taints the thread before the event is handled, and a tainted thread stays tainted
and makes no report that depends on its own state.
-/
namespace RuntimeMonitor.SequenceGaps

open EventRecord SlotTables VerifierTables VerifierEvents VerifierSteps VerifierCycles
open HeldTables VerifierInvariant VerifierMaps KeyedStreams StreamReplay

/-- The thread sequences are `n`, `n + 1`, ... on `uint32_t`. -/
def NumberedFrom : ℕ → List MonitorEvent → Prop
  | _, [] => True
  | n, event :: rest => event.threadSequence = n % 2 ^ 32 ∧ NumberedFrom (n + 1) rest

/-- The entry of a thread that has received the events numbered below `n`. -/
def Expecting (n : ℕ) (thread : VerifierThreadState) : Prop :=
  (thread.sequenceInitialized = true ↔ 0 < n) ∧
    (0 < n → thread.nextExpectedSequence = n % 2 ^ 32)

variable {n : ℕ} {thread : VerifierThreadState} {event : MonitorEvent}

theorem numberedFrom_append {first second : List MonitorEvent} :
    NumberedFrom n (first ++ second) ↔
      NumberedFrom n first ∧ NumberedFrom (n + first.length) second := by
  induction first generalizing n with
  | nil => simp [NumberedFrom]
  | cons event rest ih =>
    simp only [List.cons_append, NumberedFrom, ih, List.length_cons, and_assoc]
    rw [Nat.add_assoc n 1, Nat.add_comm 1]

theorem expecting_fresh (threadId : ℕ) : Expecting 0 (freshThread threadId) := by
  simp [Expecting, freshThread]

/-- A gap shows exactly when the number is not the expected one. -/
theorem hasGap_iff (h : Expecting n thread) :
    hasGap thread event = true ↔ event.threadSequence ≠ n % 2 ^ 32 := by
  obtain ⟨hinit, hnext⟩ := h
  unfold hasGap
  by_cases hn : 0 < n
  · rw [if_pos (hinit.mpr hn), hnext hn, decide_eq_true_eq]
  · have hzero : n = 0 := by omega
    have hfalse : ¬ thread.sequenceInitialized = true := fun hcon => hn (hinit.mp hcon)
    rw [if_neg hfalse, decide_eq_true_eq, hzero, Nat.zero_mod]

theorem handleThread_sequence (thread : VerifierThreadState) (event : MonitorEvent) :
    (handleThread thread event).sequenceInitialized = thread.sequenceInitialized ∧
      (handleThread thread event).nextExpectedSequence = thread.nextExpectedSequence := by
  have hclear : ∀ address,
      (clearWaiting thread address).sequenceInitialized = thread.sequenceInitialized ∧
      (clearWaiting thread address).nextExpectedSequence = thread.nextExpectedSequence := by
    intro address
    unfold clearWaiting
    split <;> exact ⟨rfl, rfl⟩
  have hadd : ∀ (t : VerifierThreadState) address timestampNs,
      (addHeld t address timestampNs).sequenceInitialized = t.sequenceInitialized ∧
      (addHeld t address timestampNs).nextExpectedSequence = t.nextExpectedSequence := by
    intro t address timestampNs
    unfold addHeld
    split
    · exact ⟨rfl, rfl⟩
    · split <;> split <;> exact ⟨rfl, rfl⟩
  have hrelease : ∀ address,
      (releaseHeld thread address).sequenceInitialized = thread.sequenceInitialized ∧
      (releaseHeld thread address).nextExpectedSequence = thread.nextExpectedSequence := by
    intro address
    unfold releaseHeld
    split
    · exact ⟨rfl, rfl⟩
    · split
      · exact ⟨rfl, rfl⟩
      · split <;> exact ⟨rfl, rfl⟩
  unfold handleThread
  cases event.eventType with
  | threadExit =>
    simp only
    split
    · exact hclear _
    · exact ⟨rfl, rfl⟩
  | lockAcquired =>
    have h₁ := hadd (clearWaiting thread event.objectAddress) event.objectAddress
      event.timestampNs
    have h₂ := hclear event.objectAddress
    exact ⟨h₁.1.trans h₂.1, h₁.2.trans h₂.2⟩
  | lockFailed => exact hclear _
  | unlocked => exact hrelease _
  | _ => exact ⟨rfl, rfl⟩

theorem observeThread_sequence (thread : VerifierThreadState) (event : MonitorEvent) :
    (observeThread thread event).sequenceInitialized = true ∧
      (observeThread thread event).nextExpectedSequence = succ32 event.threadSequence := by
  unfold observeThread
  split <;> exact ⟨rfl, rfl⟩

/-- After an event the next number is expected, gap or not. -/
theorem expecting_next (hseq : event.threadSequence = n % 2 ^ 32) :
    Expecting (n + 1) (observeThread thread event) ∧
      Expecting (n + 1) (handleThread (observeThread thread event) event) := by
  have hobserve := observeThread_sequence thread event
  have hhandle := handleThread_sequence (observeThread thread event) event
  have hnext : succ32 event.threadSequence = (n + 1) % 2 ^ 32 := by
    rw [hseq, succ32]
    omega
  constructor
  · exact ⟨by simp [hobserve.1], fun _ => hobserve.2.trans hnext⟩
  · exact ⟨by simp [hhandle.1, hobserve.1], fun _ => (hhandle.2.trans hobserve.2).trans hnext⟩

/-- The entry of a thread, created on its first event. -/
def entryOf (threadId : ℕ) (thread : Option VerifierThreadState) : VerifierThreadState :=
  thread.getD (freshThread threadId)

theorem replayGaps_numbered {threadId : ℕ} {stored : Option VerifierThreadState}
    (h : Expecting n (entryOf threadId stored)) {stream : List MonitorEvent}
    (hkeyed : ∀ event ∈ stream, event.threadId = threadId) (hnumbered : NumberedFrom n stream) :
    outputs replayStep replayGaps stored stream = [] := by
  induction stream generalizing n stored with
  | nil => rfl
  | cons event rest ih =>
    obtain ⟨hseq, hrest⟩ := hnumbered
    have htid := hkeyed event (List.mem_cons_self ..)
    have hnone : replayGaps stored event = [] := by
      unfold replayGaps
      rw [htid, if_neg]
      intro hgap
      exact (hasGap_iff h).mp hgap hseq
    have hnext : Expecting (n + 1) (entryOf threadId (replayStep stored event)) :=
      (expecting_next hseq).2
    rw [outputs, hnone, List.nil_append]
    exact ih hnext (fun e he => hkeyed e (List.mem_cons_of_mem _ he)) hrest

/-- The sequence check taints the thread at a gap, and taint is never undone. -/
theorem replayStep_tainted {stored : Option VerifierThreadState}
    (h : (entryOf event.threadId stored).traceTainted = true ∨
      hasGap (entryOf event.threadId stored) event = true) :
    (replayObserved stored event).traceTainted = true ∧
      (entryOf event.threadId (replayStep stored event)).traceTainted = true := by
  have hobserve := (observeThread_frame (entryOf event.threadId stored) event).2.2
  have htainted : (replayObserved stored event).traceTainted = true := by
    change (observeThread (entryOf event.threadId stored) event).traceTainted = true
    rw [hobserve]
    rcases h with h | h <;> simp [h]
  refine ⟨htainted, ?_⟩
  have hhandle := (handleThread_frame (replayObserved stored event) event).2.2
  exact hhandle.trans htainted

end RuntimeMonitor.SequenceGaps
