import RuntimeMonitor.ProgramStreams
import RuntimeMonitor.RuntimeRounds

/-!
A program whose only thread unlocks a mutex that it does not hold, again and again. Each
call fails and takes a sequence number, and the consumer keeps up with the thread: any
number of numbers can be used up in a run without drops, and the verifier only counts.
-/
namespace RuntimeMonitor.FailedUnlocks

open TransitionRuns EventRecord SlotTables VerifierTables VerifierEvents VerifierSteps
open VerifierCycles MonitorRuntime RuntimeStreams RuntimeAccounts RuntimeRounds InterposedCalls
open InterposedProgram ProgramStreams

/-- The thread is between its calls and has the only slot. -/
structure Alone (p : Program) (thread : ℕ) : Prop where
  call : p.calls thread = .outside
  emits : Emits p.runtime thread 0
  count : p.runtime.nextThreadSlot = 1
  running : p.runtime.consumerRunning = true
  active : (p.runtime.threadContexts 0).active = true

/-- The program with another position of the thread, of its context and of the consumer. -/
def placed (p : Program) (thread : ℕ) (context : MonitorThreadContext) (sequence : ℕ)
    (pc : ProducerPc) (call : CallPc) (consumer : ConsumerPc) (verifier : VerifierState) :
    Program :=
  { p with
    runtime := { p.runtime with
      threadContexts := Function.update p.runtime.threadContexts 0 context
      globalSequence := sequence
      threads :=
        Function.update p.runtime.threads thread { p.runtime.threads thread with pc := pc }
      consumer := consumer
      verifier := verifier }
    calls := Function.update p.calls thread call }

variable {p : Program} {thread mutex sequence : ℕ} {rc : ℤ} {context : MonitorThreadContext}
  {verifier : VerifierState}

/-- The result of an unlock that fails is pushed. -/
theorem run_unlockFailed (h : Alone p thread) (hrc : rc ≠ 0) (hqueue : context.queue = []) :
    let event := buildEvent sequence 0 context (unlockReturned mutex rc)
    Run (programStep id) (placed p thread context sequence .outside .outside .loadCount verifier)
      [.unlockReturned thread mutex rc, .runtime (.reserved thread 0 event),
        .runtime (.pushed thread 0 event), .runtime (.returned thread 0)]
      (placed p thread { context with
          nextThreadSequence := succ32 context.nextThreadSequence
          generated := succ64 context.generated
          queue := [event] }
        (succ64 sequence) .outside .outside .loadCount verifier) := by
  intro event
  have hunlock : programStep id
      (placed p thread context sequence .outside .outside .loadCount verifier)
      (.unlock thread mutex rc) =
      some (placed p thread context sequence .outside (.unlocked mutex rc) .loadCount verifier,
        [.unlockReturned thread mutex rc]) := by
    simp [programStep, placed, realPthreadMutexUnlock, Program.goto, Program.setMutex, hrc]
  have hreport : programStep id
      (placed p thread context sequence .outside (.unlocked mutex rc) .loadCount verifier)
      (.report thread) =
      some (placed p thread context sequence (.reserve 0 (unlockReturned mutex rc) .leave)
        .outside
        .loadCount verifier, []) := by
    simp [programStep, placed, Program.emit, Program.goto, monitorRuntimeEmit,
      registerCurrentThread, Runtime.goto, Runtime.setThread, h.emits.accepting,
      h.emits.internal, h.emits.context]
  have hreserve : programStep id
      (placed p thread context sequence (.reserve 0 (unlockReturned mutex rc) .leave) .outside
        .loadCount verifier) (.producer thread {}) =
      some (placed p thread
        { context with nextThreadSequence := succ32 context.nextThreadSequence }
        (succ64 sequence) (.countGenerated 0 event .leave) .outside .loadCount verifier,
        [.runtime (.reserved thread 0 event)]) := by
    simp [programStep, placed, producerStep, Runtime.goto, Runtime.setThread, Runtime.setContext,
      event]
  have hcount : programStep id
      (placed p thread { context with nextThreadSequence := succ32 context.nextThreadSequence }
        (succ64 sequence) (.countGenerated 0 event .leave) .outside .loadCount verifier)
      (.producer thread {}) =
      some (placed p thread { context with
          nextThreadSequence := succ32 context.nextThreadSequence
          generated := succ64 context.generated }
        (succ64 sequence) (.push 0 event .leave) .outside .loadCount verifier, []) := by
    simp [programStep, placed, producerStep, Runtime.goto, Runtime.setThread, Runtime.setContext]
  have hpush : programStep id
      (placed p thread { context with
          nextThreadSequence := succ32 context.nextThreadSequence
          generated := succ64 context.generated }
        (succ64 sequence) (.push 0 event .leave) .outside .loadCount verifier)
      (.producer thread {}) =
      some (placed p thread { context with
          nextThreadSequence := succ32 context.nextThreadSequence
          generated := succ64 context.generated
          queue := [event] }
        (succ64 sequence) (.leave 0) .outside .loadCount verifier,
        [.runtime (.pushed thread 0 event)]) := by
    simp [programStep, placed, producerStep, Runtime.goto, Runtime.setThread, Runtime.setContext,
      AfterEmission.resume, hqueue]
  have hleave : programStep id
      (placed p thread { context with
          nextThreadSequence := succ32 context.nextThreadSequence
          generated := succ64 context.generated
          queue := [event] }
        (succ64 sequence) (.leave 0) .outside .loadCount verifier) (.producer thread {}) =
      some (placed p thread { context with
          nextThreadSequence := succ32 context.nextThreadSequence
          generated := succ64 context.generated
          queue := [event] }
        (succ64 sequence) .outside .outside .loadCount verifier,
        [.runtime (.returned thread 0)]) := by
    simp [programStep, placed, producerStep, Runtime.goto, Runtime.setThread]
  have hcalled := (Run.single hunlock).trans (Run.single hreport)
  exact (((hcalled.trans (Run.single hreserve)).trans (Run.single hcount)).trans
    (Run.single hpush)).trans (Run.single hleave)

/-- A round of the consumer with one event. -/
theorem run_round {event : MonitorEvent} (h : Alone p thread) (hactive : context.active = true)
    (hqueue : context.queue = [event]) :
    Run (programStep id) (placed p thread context sequence .outside .outside .loadCount verifier)
      [.runtime .roundStarted, .runtime (.processed 0 event)]
      (placed p thread { context with queue := [], consumed := succ64 context.consumed } sequence
        .outside .outside .loadCount (monitorVerifierProcessEvent verifier event)) := by
  have hload : programStep id
      (placed p thread context sequence .outside .outside .loadCount verifier) .consumer =
      some (placed p thread context sequence .outside .outside (.poll ⟨0, 1, false⟩) verifier,
        [.runtime .roundStarted]) := by
    simp [programStep, placed, consumerStep, h.count]
  have hpoll : programStep id
      (placed p thread context sequence .outside .outside (.poll ⟨0, 1, false⟩) verifier)
      .consumer =
      some (placed p thread context sequence .outside .outside (.drain ⟨0, 1, false⟩ 0) verifier,
        []) := by
    simp [programStep, placed, consumerStep, hactive]
  have hpop : programStep id
      (placed p thread context sequence .outside .outside (.drain ⟨0, 1, false⟩ 0) verifier)
      .consumer =
      some (placed p thread { context with queue := [] } sequence .outside .outside
        (.process ⟨0, 1, false⟩ 0 event) verifier, []) := by
    simp [programStep, placed, consumerStep, Runtime.setContext, hqueue]
  have hprocess : programStep id
      (placed p thread { context with queue := [] } sequence .outside .outside
        (.process ⟨0, 1, false⟩ 0 event) verifier) .consumer =
      some (placed p thread { context with queue := [] } sequence .outside .outside
        (.account ⟨0, 1, false⟩ 0) (monitorVerifierProcessEvent verifier event),
        [.runtime (.processed 0 event)]) := by
    simp [programStep, placed, consumerStep, applyCall]
  generalize monitorVerifierProcessEvent verifier event = next at hprocess ⊢
  have haccount : programStep id
      (placed p thread { context with queue := [] } sequence .outside .outside
        (.account ⟨0, 1, false⟩ 0) next) .consumer =
      some (placed p thread { context with queue := [], consumed := succ64 context.consumed }
        sequence .outside .outside (.drain ⟨0, 1, false⟩ 1) next, []) := by
    simp [programStep, placed, consumerStep, Runtime.setContext]
  have hend : programStep id
      (placed p thread { context with queue := [], consumed := succ64 context.consumed } sequence
        .outside .outside (.drain ⟨0, 1, false⟩ 1) next) .consumer =
      some (placed p thread { context with queue := [], consumed := succ64 context.consumed }
        sequence .outside .outside (.poll ⟨1, 1, true⟩) next, []) := by
    simp [programStep, placed, consumerStep, Round.next]
  have hbusy : programStep id
      (placed p thread { context with queue := [], consumed := succ64 context.consumed } sequence
        .outside .outside (.poll ⟨1, 1, true⟩) next) .consumer =
      some (placed p thread { context with queue := [], consumed := succ64 context.consumed }
        sequence .outside .outside (.loadRunning true) next, []) := by
    simp [programStep, placed, consumerStep]
  have hagain : programStep id
      (placed p thread { context with queue := [], consumed := succ64 context.consumed } sequence
        .outside .outside (.loadRunning true) next) .consumer =
      some (placed p thread { context with queue := [], consumed := succ64 context.consumed }
        sequence .outside .outside .loadCount next, []) := by
    simp [programStep, placed, consumerStep]
  have hpopped := ((Run.single hload).trans (Run.single hpoll)).trans (Run.single hpop)
  have hdone := (hpopped.trans (Run.single hprocess)).trans (Run.single haccount)
  exact ((hdone.trans (Run.single hend)).trans (Run.single hbusy)).trans (Run.single hagain)

/-- The verifier with `n` failed unlocks more of the first thread in the table. -/
def failedVerifier (s : VerifierState) (n : ℕ) : VerifierState :=
  { s with
    threadStates := Function.update s.threadStates 0
      { s.threadStates 0 with nextExpectedSequence := (2 + n) % 2 ^ 32 }
    processedEvents := (2 + n) % 2 ^ 64
    lastProcessedSequence := 1 + n }

def failedContext (context : MonitorThreadContext) (n : ℕ) : MonitorThreadContext :=
  { context with
    generated := (2 + n) % 2 ^ 64
    nextThreadSequence := (2 + n) % 2 ^ 32
    consumed := (2 + n) % 2 ^ 64 }

/-- The program with `n` failed unlocks more. -/
def failedUnlocks (p : Program) (n : ℕ) : Program :=
  placed p 1 (failedContext (p.runtime.threadContexts 0) n) ((2 + n) % 2 ^ 64) .outside .outside
    .loadCount (failedVerifier p.runtime.verifier n)

/-- Thread 1 has started, an unlock of it has failed, and both events are processed. -/
structure FailedOnce (p : Program) : Prop where
  alone : Alone p 1
  queue : (p.runtime.threadContexts 0).queue = []
  identity : (p.runtime.threadContexts 0).threadId = 1
  generated : (p.runtime.threadContexts 0).generated = 2
  next : (p.runtime.threadContexts 0).nextThreadSequence = 2
  consumed : (p.runtime.threadContexts 0).consumed = 2
  sequence : p.runtime.globalSequence = 2
  consumer : p.runtime.consumer = .loadCount
  used : (p.runtime.verifier.threadStates 0).used = true
  threadId : (p.runtime.verifier.threadStates 0).threadId = 1
  initialised : (p.runtime.verifier.threadStates 0).sequenceInitialized = true
  expected : (p.runtime.verifier.threadStates 0).nextExpectedSequence = 2
  processed : p.runtime.verifier.processedEvents = 2
  latest : p.runtime.verifier.lastProcessedSequence = 1
  candidate : p.runtime.verifier.candidateCycleMask = 0
  confirmations : p.runtime.verifier.candidateCycleConfirmations = 0

theorem failedVerifier_zero (h : FailedOnce p) :
    failedVerifier p.runtime.verifier 0 = p.runtime.verifier := by
  have hthread : { p.runtime.verifier.threadStates 0 with
      nextExpectedSequence := (2 + 0) % 2 ^ 32 } = p.runtime.verifier.threadStates 0 := by
    rw [show (2 + 0) % 2 ^ 32 = (p.runtime.verifier.threadStates 0).nextExpectedSequence from
      h.expected.symm]
  unfold failedVerifier
  rw [hthread, Function.update_eq_self,
    show (2 + 0) % 2 ^ 64 = p.runtime.verifier.processedEvents from h.processed.symm,
    show 1 + 0 = p.runtime.verifier.lastProcessedSequence from h.latest.symm]

theorem failedUnlocks_zero (h : FailedOnce p) : failedUnlocks p 0 = p := by
  have hcontext : ∀ context : MonitorThreadContext, context.generated = 2 →
      context.nextThreadSequence = 2 → context.consumed = 2 →
        failedContext context 0 = context := by
    intro context hgenerated hnext hconsumed
    cases context
    simp_all [failedContext]
  have hlocals : { p.runtime.threads 1 with pc := .outside } = p.runtime.threads 1 := by
    rw [← h.alone.emits.pc]
  unfold failedUnlocks placed
  rw [hcontext _ h.generated h.next h.consumed, hlocals, ← h.alone.call, ← h.consumer,
    failedVerifier_zero h, Function.update_eq_self, Function.update_eq_self,
    Function.update_eq_self,
    show (2 + 0) % 2 ^ 64 = p.runtime.globalSequence from h.sequence.symm]

theorem failedVerifier_thread (s : VerifierState) (n : ℕ) : (failedVerifier s n).threadStates 0 =
      { s.threadStates 0 with nextExpectedSequence := (2 + n) % 2 ^ 32 } := by
  unfold failedVerifier
  simp

theorem failedVerifier_succ (h : FailedOnce p) (n : ℕ) :
    monitorVerifierProcessEvent (failedVerifier p.runtime.verifier n)
      ⟨2 + n, 0, 1, 100, .unlockFailed, 22, 0, (2 + n) % 2 ^ 32⟩ =
      failedVerifier p.runtime.verifier (n + 1) := by
  generalize hfailure : (⟨2 + n, 0, 1, 100, .unlockFailed, 22, 0, (2 + n) % 2 ^ 32⟩ :
    MonitorEvent) = event
  have hthread := failedVerifier_thread p.runtime.verifier n
  have hfind : find threadLayout (failedVerifier p.runtime.verifier n).threadStates
      event.threadId = some 0 := by
    refine Fin.find?_eq_some_iff.mpr ⟨?_, by simp⟩
    rw [hthread, ← hfailure]
    simp [h.used, h.threadId]
  have hgap : hasGap ((failedVerifier p.runtime.verifier n).threadStates 0) event = false := by
    unfold hasGap
    rw [hthread, ← hfailure]
    simp [h.initialised]
  have hquiet : ∀ s, handleEvent s event = s := by
    intro s
    rw [← hfailure]
    show handleUnlockFailed s _ = s
    unfold handleUnlockFailed
    exact if_neg (show ¬ (22 : ℤ) = ePerm by decide)
  have hnext : succ32 event.threadSequence = (2 + (n + 1)) % 2 ^ 32 := by
    rw [← hfailure]
    show ((2 + n) % 2 ^ 32 + 1) % 2 ^ 32 = (2 + (n + 1)) % 2 ^ 32
    omega
  have hprocessed : succ64 ((2 + n) % 2 ^ 64) = (2 + (n + 1)) % 2 ^ 64 := by
    unfold succ64
    omega
  have hlater : event.sequenceId > 1 + n := by
    rw [← hfailure]
    show 2 + n > 1 + n
    omega
  have hlatest : event.sequenceId = 1 + (n + 1) := by
    rw [← hfailure]
    show 2 + n = 1 + (n + 1)
    omega
  rw [processEvent_followed hfind hgap, hquiet, hthread]
  unfold resetCandidate VerifierState.setThread countEvent failedVerifier
  simp only [if_pos hlater]
  simp only [Function.update_idem, hnext, hprocessed, hlatest, h.candidate, h.confirmations,
    h.initialised]

/-- A first unlock that fails. -/
def failedUnlock : Program × List ProgramObservation :=
  after (programStep id) (programStart 0) (.unlock 1 100 22 :: .report 1 ::
    List.replicate 12 (.producer 1 {}) ++ List.replicate 11 .consumer)

/-- What the lock calls have returned. -/
def lockResults (tr : List ProgramObservation) : List ℤ :=
  tr.filterMap fun | .lockReturned _ _ rc => some rc | _ => none

/-- Nothing is dropped or refused, and no lock call returns. -/
structure Uneventful (tr : List ProgramObservation) : Prop where
  lossless : (runtimeTrace tr).filterMap droppedEvent = []
  accepted : refusals (runtimeTrace tr) = []
  unreturned : lockResults tr = []

theorem Uneventful.append {first second : List ProgramObservation} (h : Uneventful first)
    (h' : Uneventful second) : Uneventful (first ++ second) := by
  constructor
  · rw [runtimeTrace_append, List.filterMap_append, h.lossless, h'.lossless, List.append_nil]
  · rw [runtimeTrace_append, refusals_append, h.accepted, h'.accepted, List.append_nil]
  · have hfirst := h.unreturned
    have hsecond := h'.unreturned
    unfold lockResults at hfirst hsecond ⊢
    rw [List.filterMap_append, hfirst, hsecond, List.append_nil]

/-- Failed unlocks can use up any number of numbers. -/
theorem run_failedUnlocks (h : FailedOnce p) (n : ℕ) (hn : 2 + n ≤ 2 ^ 64) :
    ∃ tr, Run (programStep id) p tr (failedUnlocks p n) ∧ Uneventful tr := by
  induction n with
  | zero =>
    rw [failedUnlocks_zero h]
    exact ⟨[], Run.nil _, rfl, rfl, rfl⟩
  | succ n ih =>
    obtain ⟨tr, hrun, hquiet⟩ := ih (by omega)
    have hevent : buildEvent ((2 + n) % 2 ^ 64) 0
        (failedContext (p.runtime.threadContexts 0) n) (unlockReturned 100 22) =
        ⟨2 + n, 0, 1, 100, .unlockFailed, 22, 0, (2 + n) % 2 ^ 32⟩ := by
      simp only [buildEvent, Nat.mod_eq_of_lt (show 2 + n < 2 ^ 64 by omega), failedContext,
        h.identity]
      rfl
    have hunlock := @run_unlockFailed p 1 100 ((2 + n) % 2 ^ 64) 22
      (failedContext (p.runtime.threadContexts 0) n) (failedVerifier p.runtime.verifier n) h.alone
      (by decide) h.queue
    simp only [hevent] at hunlock
    have hround := hunlock.trans (run_round h.alone h.alone.active rfl)
    rw [failedVerifier_succ h] at hround
    have hcounts : succ64 ((2 + n) % 2 ^ 64) = (2 + (n + 1)) % 2 ^ 64 := by
      unfold succ64
      omega
    have hnext : succ32 ((2 + n) % 2 ^ 32) = (2 + (n + 1)) % 2 ^ 32 := by
      unfold succ32
      omega
    have hcontext : { failedContext (p.runtime.threadContexts 0) n with
        nextThreadSequence := succ32 ((2 + n) % 2 ^ 32)
        generated := succ64 ((2 + n) % 2 ^ 64)
        queue := []
        consumed := succ64 ((2 + n) % 2 ^ 64) } =
        failedContext (p.runtime.threadContexts 0) (n + 1) := by
      unfold failedContext
      rw [hcounts, hnext, h.queue]
    change Run _ _ _ (placed p 1 { failedContext (p.runtime.threadContexts 0) n with
      nextThreadSequence := succ32 ((2 + n) % 2 ^ 32)
      generated := succ64 ((2 + n) % 2 ^ 64)
      queue := []
      consumed := succ64 ((2 + n) % 2 ^ 64) } (succ64 ((2 + n) % 2 ^ 64)) _ _ _ _) at hround
    rw [hcontext, hcounts] at hround
    exact ⟨_, hrun.trans hround, hquiet.append ⟨rfl, rfl, rfl⟩⟩

end RuntimeMonitor.FailedUnlocks
