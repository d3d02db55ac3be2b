import RuntimeMonitor.RuntimeAccounts

/-!
The single-producer discipline. Slots are handed out in order, one thread each, and a
claim fails only when all are taken; a queue is filled by the thread that has claimed
its slot and emptied only after that thread has initialised it. Every emit call that
passes the two tests at its start is counted once. The calls and the counter updates
are recorded in a history beside the state, which the steps do not read.
-/
namespace RuntimeMonitor.SingleProducer

open TransitionRuns EventRecord VerifierTables VerifierCycles MonitorRuntime RuntimeSteps
open SlotOwnership RuntimeStreams EventNumbers RuntimeAccounts

/-- What the history records: a call that has passed the tests of `monitor_runtime_emit`,
an event counted in `generated`, a call counted in `unregistered_events`. -/
inductive Note where
  | passed (thread : ℕ) (request : EmitRequest)
  | generated (thread slot : ℕ) (event : MonitorEvent) (after : AfterEmission)
  | unregistered (thread : ℕ) (request : EmitRequest)
  deriving DecidableEq, Repr

/-- What the next step of a thread at this position counts. -/
def notedAt (thread : ℕ) : ProducerPc → List Note
  | .countGenerated slot event after => [.generated thread slot event after]
  | .refuse request => [.unregistered thread request]
  | _ => []

/-- The notes of one step, read off the state before it. -/
def noted (rt : Runtime) : Action → List Note
  | .call thread request =>
    if !rt.acceptEvents || (rt.threads thread).tlsInternalThread then []
    else [.passed thread request]
  | .producer thread _ => notedAt thread (rt.threads thread).pc
  | _ => []

/-- The runtime with its history. -/
def watchedStep (gettid : ℕ → ℕ) : Stepper (Runtime × List Note) Action Observation :=
  fun watched action => (step gettid watched.1 action).map fun result =>
    ((result.1, watched.2 ++ noted watched.1 action), result.2)

/-- The call that a thread at this position has yet to count. -/
def pendingCall : ProducerPc → List EmitRequest
  | .loadSlot request | .exchangeSlot request _ | .refuse request => [request]
  | .initialise request _ | .activate request _ | .setKey request _ => [request]
  | .reserve _ request .leave => [request]
  | .countGenerated _ event .leave => [requestOf event]
  | .reserve _ _ (.emit request) | .countGenerated _ _ (.emit request) => [request]
  | .push _ _ (.emit request) | .countDropped _ (.emit request) => [request]
  | _ => []

/-- The slot whose THREAD_START a thread at this position has yet to count. -/
def pendingStart : ProducerPc → List ℕ
  | .initialise _ slot | .activate _ slot | .setKey _ slot => [slot]
  | .reserve slot _ (.emit _) | .countGenerated slot _ (.emit _) => [slot]
  | _ => []

/-- The calls of a thread that have passed the tests. -/
def passedBy (thread : ℕ) (notes : List Note) : List EmitRequest :=
  notes.filterMap fun
    | .passed thread' request => if thread' = thread then some request else none
    | _ => none

/-- The calls of a thread that have been counted, in one counter or the other. -/
def countedBy (thread : ℕ) (notes : List Note) : List EmitRequest :=
  notes.filterMap fun
    | .generated thread' _ event .leave =>
      if thread' = thread then some (requestOf event) else none
    | .unregistered thread' request => if thread' = thread then some request else none
    | _ => none

/-- The slots on which a thread has counted the event that its registration emits. -/
def startsOf (thread : ℕ) (notes : List Note) : List ℕ :=
  notes.filterMap fun
    | .generated thread' slot _ (.emit _) => if thread' = thread then some slot else none
    | _ => none

/-- The events counted in the `generated` counter of a slot. -/
def generatedOn (slot : ℕ) (notes : List Note) : List MonitorEvent :=
  notes.filterMap fun
    | .generated _ slot' event _ => if slot' = slot then some event else none
    | _ => none

/-- The calls counted in `unregistered_events`. -/
def unregisteredCalls (notes : List Note) : List EmitRequest :=
  notes.filterMap fun | .unregistered _ request => some request | _ => none

/-- The slots that a thread has claimed. -/
def claimedBy (thread : ℕ) (tr : List Observation) : List ℕ :=
  tr.filterMap fun
    | .claimed thread' slot => if thread' = thread then some slot else none
    | _ => none

/-- All slots that have been claimed, in the order of the claims. -/
def claimedSlots (tr : List Observation) : List ℕ :=
  tr.filterMap fun | .claimed _ slot => some slot | _ => none

/-- The claim of a slot has failed, at this access or earlier. -/
def ClaimRefused (locals : ThreadLocals) : Prop :=
  (∃ request expected, locals.pc = .exchangeSlot request expected ∧
      monitorMaxThreads ≤ expected) ∨
    (∃ request, locals.pc = .refuse request) ∨ locals.tlsRegistrationFailed = true

/-- The context of a slot is initialised and published by its owner, and nobody is
about to initialise it. -/
def Initialised (gettid : ℕ → ℕ) (rt : Runtime) (owner slot : ℕ) : Prop :=
  (rt.threadContexts slot).active = true ∧ (rt.threadContexts slot).threadId = gettid owner ∧
    ∀ thread, freshSlot (rt.threads thread).pc ≠ some slot

variable {gettid : ℕ → ℕ} {maxHoldNs : ℕ} {rt rt' : Runtime} {tr os : List Observation}
  {notes : List Note} {slot thread : ℕ}

/-- The history does not influence the steps. -/
theorem run_of_watched {first last : Runtime × List Note}
    (hrun : Run (watchedStep gettid) first tr last) : Run (step gettid) first.1 tr last.1 := by
  induction hrun with
  | nil => exact Run.nil _
  | snoc hfirst hlast ih =>
    simp only [watchedStep, Option.map_eq_some_iff] at hlast
    obtain ⟨result, hstep, heq⟩ := hlast
    rw [Prod.mk.injEq] at heq
    obtain ⟨rfl, rfl⟩ := heq
    exact ih.snoc hstep

/-- Every run has a history. -/
theorem watched_of_run (hrun : Run (step gettid) rt tr rt') (notes : List Note) :
    ∃ notes', Run (watchedStep gettid) (rt, notes) tr (rt', notes') := by
  induction hrun with
  | nil => exact ⟨notes, Run.nil _⟩
  | @snoc s' s'' tr a os hfirst hlast ih =>
    obtain ⟨notes', hwatched⟩ := ih
    refine ⟨notes' ++ noted s' a, hwatched.snoc (a := a) ?_⟩
    simp only [watchedStep, hlast, Option.map_some]

section Accounts

/-- What one step does to the calls of a thread: what was pending or passes in it is
counted in it or stays pending. -/
structure Balanced (rt rt' : Runtime) (os : List Observation) (notes : List Note)
    (thread : ℕ) : Prop where
  calls : pendingCall (rt.threads thread).pc ++ passedBy thread notes =
    countedBy thread notes ++ pendingCall (rt'.threads thread).pc
  starts : pendingStart (rt.threads thread).pc ++ claimedBy thread os =
    startsOf thread notes ++ pendingStart (rt'.threads thread).pc

theorem Balanced.same (hthreads : rt'.threads thread = rt.threads thread)
    (hclaimed : claimedBy thread os = []) (hpassed : passedBy thread notes = [])
    (hcounted : countedBy thread notes = []) (hstarts : startsOf thread notes = []) :
    Balanced rt rt' os notes thread := by
  constructor
  · rw [hpassed, hcounted, hthreads, List.append_nil, List.nil_append]
  · rw [hclaimed, hstarts, hthreads, List.append_nil, List.nil_append]

theorem register_pending (locals : ThreadLocals) (request : EmitRequest) :
    pendingCall (registerCurrentThread locals request) = [request] ∧
      pendingStart (registerCurrentThread locals request) = [] := by
  unfold registerCurrentThread
  cases locals.tlsContext with
  | some slot => exact ⟨rfl, rfl⟩
  | none => by_cases hfailed : locals.tlsRegistrationFailed = true <;>
      simp [hfailed, pendingCall, pendingStart]

theorem call_balanced {actor : ℕ} {request : EmitRequest}
    (hstep : monitorRuntimeEmit rt actor request = some (rt', os)) (thread : ℕ) :
    Balanced rt rt' os (noted rt (.call actor request)) thread := by
  unfold monitorRuntimeEmit at hstep
  by_cases hpc : (rt.threads actor).pc = .outside
  · simp only [hpc, ne_eq, not_true_eq_false, if_false] at hstep
    simp only [noted]
    by_cases htest : (!rt.acceptEvents || (rt.threads actor).tlsInternalThread) = true
    · rw [if_pos htest, Option.some.injEq, Prod.mk.injEq] at hstep
      obtain ⟨rfl, rfl⟩ := hstep
      rw [if_pos htest]
      exact Balanced.same rfl rfl rfl rfl rfl
    · rw [if_neg htest, Option.some.injEq, Prod.mk.injEq] at hstep
      obtain ⟨rfl, rfl⟩ := hstep
      rw [if_neg htest]
      by_cases heq : thread = actor
      · subst heq
        obtain ⟨hcall, hstart⟩ := register_pending (rt.threads thread) request
        constructor
        · rw [Runtime.goto_threads, Function.update_self, hcall, hpc]
          simp [pendingCall, passedBy, countedBy]
        · rw [Runtime.goto_threads, Function.update_self, hstart, hpc]
          rfl
      · apply Balanced.same
        · rw [Runtime.goto_threads, Function.update_of_ne heq]
        · rfl
        · simp [passedBy, Ne.symm heq]
        · rfl
        · rfl
  · simp [hpc] at hstep

theorem exit_balanced {actor : ℕ}
    (hstep : monitorThreadExitDestructor rt actor = some (rt', os)) (thread : ℕ) :
    Balanced rt rt' os (noted rt (.exit actor)) thread := by
  unfold monitorThreadExitDestructor at hstep
  cases hkey : (rt.threads actor).exitKeyValue with
  | none => simp [hkey] at hstep
  | some slot =>
    simp only [hkey] at hstep
    by_cases hpc : (rt.threads actor).pc = .outside
    · by_cases hready : rt.threadExitKeyReady = true
      · simp only [hpc, hready, ne_eq, not_true_eq_false, decide_false, Bool.not_true,
          Bool.or_false, Bool.false_eq_true, if_false, Option.some.injEq, Prod.mk.injEq] at hstep
        obtain ⟨rfl, rfl⟩ := hstep
        by_cases heq : thread = actor
        · subst heq
          constructor
          · rw [Runtime.setThread_threads, Function.update_self, hpc]
            by_cases haccept : rt.acceptEvents = true <;>
              simp [haccept, pendingCall, noted, passedBy, countedBy]
          · rw [Runtime.setThread_threads, Function.update_self, hpc]
            by_cases haccept : rt.acceptEvents = true <;>
              simp [haccept, pendingStart, noted, claimedBy, startsOf]
        · apply Balanced.same
          · rw [Runtime.setThread_threads, Function.update_of_ne heq]
          · rfl
          · rfl
          · rfl
          · rfl
      · simp [hready] at hstep
    · simp [hpc] at hstep

/-- A step of a thread concerns its own calls only. -/
theorem producer_other {environment : Environment} {actor : ℕ}
    (hstep : producerStep gettid rt actor environment = some (rt', os)) (hne : thread ≠ actor) :
    Balanced rt rt' os (noted rt (.producer actor environment)) thread := by
  have hthreads : rt'.threads thread = rt.threads thread ∧ claimedBy thread os = [] := by
    unfold producerStep at hstep
    cases hpc : (rt.threads actor).pc with
    | outside => simp [hpc] at hstep
    | exchangeSlot request expected =>
      simp only [hpc] at hstep
      split at hstep
      · rw [Option.some.injEq, Prod.mk.injEq] at hstep
        obtain ⟨rfl, rfl⟩ := hstep
        simp [hne, claimedBy]
      · split at hstep
        · rw [Option.some.injEq, Prod.mk.injEq] at hstep
          obtain ⟨rfl, rfl⟩ := hstep
          simp [hne, claimedBy]
        · rw [Option.some.injEq, Prod.mk.injEq] at hstep
          obtain ⟨rfl, rfl⟩ := hstep
          simp [hne, claimedBy, Ne.symm hne]
    | setKey request slot =>
      simp only [hpc] at hstep
      split at hstep
      · rw [Option.some.injEq, Prod.mk.injEq] at hstep
        obtain ⟨rfl, rfl⟩ := hstep
        simp [hne, claimedBy]
      · rw [Option.some.injEq, Prod.mk.injEq] at hstep
        obtain ⟨rfl, rfl⟩ := hstep
        simp [hne, claimedBy]
    | push slot event after =>
      simp only [hpc] at hstep
      split at hstep
      · rw [Option.some.injEq, Prod.mk.injEq] at hstep
        obtain ⟨rfl, rfl⟩ := hstep
        simp [hne, claimedBy]
      · rw [Option.some.injEq, Prod.mk.injEq] at hstep
        obtain ⟨rfl, rfl⟩ := hstep
        simp [hne, claimedBy]
    | _ =>
      simp only [hpc, Option.some.injEq, Prod.mk.injEq] at hstep
      obtain ⟨rfl, rfl⟩ := hstep
      simp [hne, claimedBy]
  simp only [noted]
  apply Balanced.same hthreads.1 hthreads.2
  · cases (rt.threads actor).pc <;> rfl
  · cases (rt.threads actor).pc with
    | countGenerated slot event after => cases after <;> simp [notedAt, countedBy, Ne.symm hne]
    | refuse request => simp [notedAt, countedBy, Ne.symm hne]
    | _ => rfl
  · cases (rt.threads actor).pc with
    | countGenerated slot event after => cases after <;> simp [notedAt, startsOf, Ne.symm hne]
    | _ => rfl

/-- A step of a thread and its own calls. -/
theorem producer_own {environment : Environment}
    (hstep : producerStep gettid rt thread environment = some (rt', os)) :
    Balanced rt rt' os (noted rt (.producer thread environment)) thread := by
  unfold producerStep at hstep
  simp only [noted]
  cases hpc : (rt.threads thread).pc with
  | outside => simp [hpc] at hstep
  | exchangeSlot request expected =>
    simp only [hpc] at hstep
    split at hstep
    · rw [Option.some.injEq, Prod.mk.injEq] at hstep
      obtain ⟨rfl, rfl⟩ := hstep
      constructor <;>
        simp [hpc, notedAt, pendingCall, pendingStart, passedBy, countedBy, claimedBy, startsOf]
    · split at hstep
      · rw [Option.some.injEq, Prod.mk.injEq] at hstep
        obtain ⟨rfl, rfl⟩ := hstep
        constructor <;>
          simp [hpc, notedAt, pendingCall, pendingStart, passedBy, countedBy, claimedBy, startsOf]
      · rw [Option.some.injEq, Prod.mk.injEq] at hstep
        obtain ⟨rfl, rfl⟩ := hstep
        constructor <;>
          simp [hpc, notedAt, pendingCall, pendingStart, passedBy, countedBy, claimedBy, startsOf]
  | setKey request slot =>
    simp only [hpc] at hstep
    split at hstep
    · rw [Option.some.injEq, Prod.mk.injEq] at hstep
      obtain ⟨rfl, rfl⟩ := hstep
      constructor <;>
        simp [hpc, notedAt, pendingCall, pendingStart, passedBy, countedBy, claimedBy, startsOf]
    · rw [Option.some.injEq, Prod.mk.injEq] at hstep
      obtain ⟨rfl, rfl⟩ := hstep
      constructor <;>
        simp [hpc, notedAt, pendingCall, pendingStart, passedBy, countedBy, claimedBy, startsOf]
  | push slot event after =>
    simp only [hpc] at hstep
    split at hstep
    · rw [Option.some.injEq, Prod.mk.injEq] at hstep
      obtain ⟨rfl, rfl⟩ := hstep
      constructor <;> cases after <;>
        simp [hpc, notedAt, AfterEmission.resume, pendingCall, pendingStart,
        passedBy, countedBy, claimedBy, startsOf]
    · rw [Option.some.injEq, Prod.mk.injEq] at hstep
      obtain ⟨rfl, rfl⟩ := hstep
      constructor <;> cases after <;>
        simp [hpc, notedAt, pendingCall, pendingStart, passedBy, countedBy,
        claimedBy, startsOf]
  | countDropped slot after =>
    simp only [hpc, Option.some.injEq, Prod.mk.injEq] at hstep
    obtain ⟨rfl, rfl⟩ := hstep
    constructor <;> cases after <;>
      simp [hpc, notedAt, AfterEmission.resume, pendingCall, pendingStart,
      passedBy, countedBy, claimedBy, startsOf]
  | reserve slot request after =>
    simp only [hpc, Option.some.injEq, Prod.mk.injEq] at hstep
    obtain ⟨rfl, rfl⟩ := hstep
    constructor <;> cases after <;>
      simp [hpc, notedAt, requestOf, buildEvent, pendingCall, pendingStart,
      passedBy, countedBy, claimedBy, startsOf]
  | countGenerated slot event after =>
    simp only [hpc, Option.some.injEq, Prod.mk.injEq] at hstep
    obtain ⟨rfl, rfl⟩ := hstep
    constructor <;> cases after <;>
      simp [hpc, notedAt, pendingCall, pendingStart, passedBy, countedBy,
      claimedBy, startsOf]
  | _ =>
    simp only [hpc, Option.some.injEq, Prod.mk.injEq] at hstep
    obtain ⟨rfl, rfl⟩ := hstep
    constructor <;>
      simp [hpc, notedAt, pendingCall, pendingStart, passedBy, countedBy, claimedBy, startsOf]

theorem consumer_frame (hstep : consumerStep rt = some (rt', os)) :
    rt'.threads = rt.threads ∧ rt'.unregisteredEvents = rt.unregisteredEvents ∧
      (∀ slot, (rt'.threadContexts slot).generated = (rt.threadContexts slot).generated) ∧
      ∀ thread, claimedBy thread os = [] := by
  unfold consumerStep at hstep
  cases hpc : rt.consumer with
  | poll round =>
    simp only [hpc] at hstep
    repeat' split at hstep
    all_goals cases hstep
    all_goals exact ⟨rfl, rfl, fun _ => rfl, fun _ => rfl⟩
  | drain round popped =>
    simp only [hpc] at hstep
    repeat' split at hstep
    all_goals cases hstep
    · exact ⟨rfl, rfl, fun _ => rfl, fun _ => rfl⟩
    · exact ⟨rfl, rfl, fun _ => rfl, fun _ => rfl⟩
    · exact ⟨rfl, rfl, fun _ => setContext_agrees (·.generated) rfl, fun _ => rfl⟩
  | loadRunning consumedAny =>
    simp only [hpc] at hstep
    split at hstep
    all_goals cases hstep
    all_goals exact ⟨rfl, rfl, fun _ => rfl, fun _ => rfl⟩
  | account round popped =>
    simp only [hpc, Option.some.injEq, Prod.mk.injEq] at hstep
    obtain ⟨rfl, rfl⟩ := hstep
    exact ⟨rfl, rfl, fun _ => setContext_agrees (·.generated) rfl, fun _ => rfl⟩
  | returned => simp [hpc] at hstep
  | _ =>
    simp only [hpc, Option.some.injEq, Prod.mk.injEq] at hstep
    obtain ⟨rfl, rfl⟩ := hstep
    exact ⟨rfl, rfl, fun _ => rfl, fun _ => rfl⟩

theorem stop_frame (hstep : stopStep rt = some (rt', os)) :
    rt'.threads = rt.threads ∧ rt'.unregisteredEvents = rt.unregisteredEvents ∧
      (∀ slot, (rt'.threadContexts slot).generated = (rt.threadContexts slot).generated) ∧
      ∀ thread, claimedBy thread os = [] := by
  unfold stopStep at hstep
  cases hpc : rt.stopper with
  | join | loadActive slot count lines =>
    simp only [hpc] at hstep
    repeat' split at hstep
    all_goals cases hstep
    all_goals exact ⟨rfl, rfl, fun _ => rfl, fun _ => rfl⟩
  | finished transport => simp [hpc] at hstep
  | _ =>
    simp only [hpc, Option.some.injEq, Prod.mk.injEq] at hstep
    obtain ⟨rfl, rfl⟩ := hstep
    exact ⟨rfl, rfl, fun _ => rfl, fun _ => rfl⟩

/-- Every step balances the calls of every thread. -/
theorem step_balanced {action : Action} (hstep : step gettid rt action = some (rt', os))
    (thread : ℕ) : Balanced rt rt' os (noted rt action) thread := by
  cases action with
  | call actor request => exact call_balanced hstep thread
  | exit actor => exact exit_balanced hstep thread
  | producer actor environment =>
    by_cases heq : thread = actor
    · subst heq
      exact producer_own hstep
    · exact producer_other hstep heq
  | consumer =>
    obtain ⟨hthreads, -, -, hclaimed⟩ := consumer_frame hstep
    exact Balanced.same (by rw [hthreads]) (hclaimed thread) rfl rfl rfl
  | stop =>
    obtain ⟨hthreads, -, -, hclaimed⟩ := stop_frame hstep
    exact Balanced.same (by rw [hthreads]) (hclaimed thread) rfl rfl rfl

/-- What one step adds to the two counters of calls is what it notes. -/
structure Counted (rt rt' : Runtime) (notes : List Note) : Prop where
  generated : ∀ slot n, (rt.threadContexts slot).generated = n % 2 ^ 64 →
    (rt'.threadContexts slot).generated = (n + (generatedOn slot notes).length) % 2 ^ 64
  unregistered : ∀ n, rt.unregisteredEvents = n % 2 ^ 64 →
    rt'.unregisteredEvents = (n + (unregisteredCalls notes).length) % 2 ^ 64

theorem Counted.same
    (hgenerated : ∀ slot, (rt'.threadContexts slot).generated =
      (rt.threadContexts slot).generated)
    (hunregistered : rt'.unregisteredEvents = rt.unregisteredEvents)
    (hnone : ∀ slot, generatedOn slot notes = []) (hcalls : unregisteredCalls notes = []) :
    Counted rt rt' notes := by
  constructor
  · intro slot n hn
    rw [hgenerated, hnone, List.length_nil, Nat.add_zero]
    exact hn
  · intro n hn
    rw [hunregistered, hcalls, List.length_nil, Nat.add_zero]
    exact hn

theorem producer_counted {environment : Environment} (howned : SlotsOwned rt tr)
    (hstep : producerStep gettid rt thread environment = some (rt', os)) :
    Counted rt rt' (noted rt (.producer thread environment)) := by
  unfold producerStep at hstep
  simp only [noted]
  cases hpc : (rt.threads thread).pc with
  | outside => simp [hpc] at hstep
  | refuse request =>
    simp only [hpc, Option.some.injEq, Prod.mk.injEq] at hstep
    obtain ⟨rfl, rfl⟩ := hstep
    constructor
    · intro slot n hn
      exact hn
    · intro n hn
      show succ64 rt.unregisteredEvents = (n + 1) % 2 ^ 64
      rw [hn, succ64]
      omega
  | countGenerated slot' event after =>
    simp only [hpc, Option.some.injEq, Prod.mk.injEq] at hstep
    obtain ⟨rfl, rfl⟩ := hstep
    constructor
    · intro slot n hn
      by_cases heq : slot = slot'
      · subst heq
        simp only [notedAt, generatedOn, List.filterMap_cons, if_true, List.filterMap_nil,
          List.length_singleton, Runtime.goto_threadContexts, Runtime.setContext_threadContexts,
          Function.update_self, succ64, hn]
        omega
      · simp only [notedAt, generatedOn, List.filterMap_cons, if_neg (Ne.symm heq),
          List.filterMap_nil, List.length_nil, Nat.add_zero, Runtime.goto_threadContexts,
          Runtime.setContext_threadContexts, Function.update_of_ne heq]
        exact hn
    · intro n hn
      exact hn
  | initialise request slot' =>
    simp only [hpc, Option.some.injEq, Prod.mk.injEq] at hstep
    obtain ⟨rfl, rfl⟩ := hstep
    -- the claimed context is not active yet, so its counter is zero already
    have hheld : heldSlot (rt.threads thread) = some slot' := by simp [heldSlot, hpc, freshSlot]
    have htls := (howned.locals thread).context none (by rw [hpc]; rfl)
    have hunused := howned.unused slot' (howned.dormant thread slot' hheld htls)
    exact Counted.same (fun _ => setContext_agrees (·.generated) hunused.2.1.symm) rfl
      (fun _ => rfl) rfl
  | activate request slot' | reserve slot' request after =>
    simp only [hpc, Option.some.injEq, Prod.mk.injEq] at hstep
    obtain ⟨rfl, rfl⟩ := hstep
    exact Counted.same (fun _ => setContext_agrees (·.generated) rfl) rfl (fun _ => rfl) rfl
  | countDropped slot' after =>
    simp only [hpc, Option.some.injEq, Prod.mk.injEq] at hstep
    obtain ⟨rfl, rfl⟩ := hstep
    exact Counted.same (fun _ => setContext_agrees (·.generated) rfl) rfl (fun _ => rfl) rfl
  | push slot' event after =>
    simp only [hpc] at hstep
    split at hstep
    · rw [Option.some.injEq, Prod.mk.injEq] at hstep
      obtain ⟨rfl, rfl⟩ := hstep
      exact Counted.same (fun _ => setContext_agrees (·.generated) rfl) rfl (fun _ => rfl) rfl
    · rw [Option.some.injEq, Prod.mk.injEq] at hstep
      obtain ⟨rfl, rfl⟩ := hstep
      exact Counted.same (fun _ => rfl) rfl (fun _ => rfl) rfl
  | exchangeSlot request expected | setKey request slot' =>
    simp only [hpc] at hstep
    repeat' split at hstep
    all_goals cases hstep
    all_goals exact Counted.same (fun _ => rfl) rfl (fun _ => rfl) rfl
  | _ =>
    simp only [hpc, Option.some.injEq, Prod.mk.injEq] at hstep
    obtain ⟨rfl, rfl⟩ := hstep
    exact Counted.same (fun _ => rfl) rfl (fun _ => rfl) rfl

theorem step_counted {action : Action} (howned : SlotsOwned rt tr)
    (hstep : step gettid rt action = some (rt', os)) : Counted rt rt' (noted rt action) := by
  cases action with
  | call actor request =>
    have hframe : rt'.threadContexts = rt.threadContexts ∧
        rt'.unregisteredEvents = rt.unregisteredEvents := by
      simp only [step, monitorRuntimeEmit] at hstep
      repeat' split at hstep
      all_goals cases hstep
      all_goals exact ⟨rfl, rfl⟩
    have hnone : (∀ slot, generatedOn slot (noted rt (.call actor request)) = []) ∧
        unregisteredCalls (noted rt (.call actor request)) = [] := by
      simp only [noted]
      split <;> exact ⟨fun _ => rfl, rfl⟩
    exact Counted.same (fun _ => by rw [hframe.1]) hframe.2 hnone.1 hnone.2
  | exit actor =>
    have hframe : rt'.threadContexts = rt.threadContexts ∧
        rt'.unregisteredEvents = rt.unregisteredEvents := by
      simp only [step, monitorThreadExitDestructor] at hstep
      repeat' split at hstep
      all_goals cases hstep
      all_goals exact ⟨rfl, rfl⟩
    exact Counted.same (fun _ => by rw [hframe.1]) hframe.2 (fun _ => rfl) rfl
  | producer actor environment => exact producer_counted howned hstep
  | consumer =>
    obtain ⟨-, hunregistered, hgenerated, -⟩ := consumer_frame hstep
    exact Counted.same hgenerated hunregistered (fun _ => rfl) rfl
  | stop =>
    obtain ⟨-, hunregistered, hgenerated, -⟩ := stop_frame hstep
    exact Counted.same hgenerated hunregistered (fun _ => rfl) rfl

end Accounts

section Claims

/-- What a thread knows about the count of slots, and which event its registration
emits. -/
structure Lawful (next : ℕ) (locals : ThreadLocals) : Prop where
  expected : ∀ request expected, locals.pc = .exchangeSlot request expected → expected ≤ next
  refused : ClaimRefused locals → monitorMaxThreads ≤ next
  start : ∀ slot request request', locals.pc = .reserve slot request (.emit request') →
    request = threadStart
  event : ∀ slot event request', locals.pc = .countGenerated slot event (.emit request') →
    requestOf event = threadStart

def AllLawful (rt : Runtime) : Prop := ∀ thread, Lawful rt.nextThreadSlot (rt.threads thread)

/-- The positions of which `Lawful` says nothing. -/
def Ordinary : ProducerPc → Prop
  | .exchangeSlot .. | .refuse _ => False
  | .reserve _ _ (.emit _) | .countGenerated _ _ (.emit _) => False
  | _ => True

variable {locals locals' : ThreadLocals} {next next' : ℕ}

theorem Lawful.mono (h : Lawful next locals) (hle : next ≤ next') : Lawful next' locals :=
  ⟨fun request expected hpc => (h.expected request expected hpc).trans hle,
    fun hrefused => (h.refused hrefused).trans hle, h.start, h.event⟩

theorem Lawful.ordinary (h : Lawful next locals) (hpc : Ordinary locals'.pc)
    (hfailed : locals'.tlsRegistrationFailed = locals.tlsRegistrationFailed) :
    Lawful next locals' := by
  constructor
  · intro request expected heq
    rw [heq] at hpc
    exact hpc.elim
  · rintro (⟨request, expected, heq, -⟩ | ⟨request, heq⟩ | hset)
    · rw [heq] at hpc
      exact hpc.elim
    · rw [heq] at hpc
      exact hpc.elim
    · rw [hfailed] at hset
      exact h.refused (Or.inr (Or.inr hset))
  · intro slot request request' heq
    rw [heq] at hpc
    exact hpc.elim
  · intro slot event request' heq
    rw [heq] at hpc
    exact hpc.elim

/-- A thread gives up for lack of slots, or remembers that it did. -/
theorem lawful_refuse {request : EmitRequest} (hpc : locals.pc = .refuse request)
    (hfull : monitorMaxThreads ≤ next) : Lawful next locals := by
  refine ⟨?_, fun _ => hfull, ?_, ?_⟩
  · intro request expected heq
    simp [hpc] at heq
  · intro slot request request' heq
    simp [hpc] at heq
  · intro slot event request' heq
    simp [hpc] at heq

/-- A thread has just loaded the count of slots. -/
theorem Lawful.loaded (h : Lawful next locals) {request : EmitRequest} :
    Lawful next { locals with pc := .exchangeSlot request next } := by
  constructor
  · intro request' expected heq
    simp only [ProducerPc.exchangeSlot.injEq] at heq
    omega
  · rintro (⟨request', expected, heq, hfull⟩ | ⟨request', heq⟩ | hset)
    · simp only [ProducerPc.exchangeSlot.injEq] at heq
      omega
    · simp at heq
    · exact h.refused (Or.inr (Or.inr hset))
  · intro slot request' request'' heq
    simp at heq
  · intro slot event request' heq
    simp at heq

/-- A registration goes on to its THREAD_START. -/
theorem Lawful.begin (h : Lawful next locals) {request : EmitRequest}
    (hpc : locals'.pc = .reserve slot threadStart (.emit request))
    (hfailed : locals'.tlsRegistrationFailed = locals.tlsRegistrationFailed) :
    Lawful next locals' := by
  constructor
  · intro request' expected heq
    simp [hpc] at heq
  · rintro (⟨request', expected, heq, hfull⟩ | ⟨request', heq⟩ | hset)
    · simp [hpc] at heq
    · simp [hpc] at heq
    · rw [hfailed] at hset
      exact h.refused (Or.inr (Or.inr hset))
  · intro slot' request' request'' heq
    simp only [hpc, ProducerPc.reserve.injEq] at heq
    exact heq.2.1.symm
  · intro slot' event request' heq
    simp [hpc] at heq

theorem ordinary_resume (slot : ℕ) (after : AfterEmission) : Ordinary (after.resume slot) := by
  cases after <;> trivial

theorem localMove_lawful (h : Lawful rt.nextThreadSlot locals)
    (hmove : LocalMove rt locals locals') : Lawful rt.nextThreadSlot locals' := by
  cases hmove with
  | @called request hpc haccept hinternal =>
    by_cases hnew : locals.tlsContext = none ∧ locals.tlsRegistrationFailed = true
    · have hrefuse : registerCurrentThread locals request = .refuse request := by
        simp [registerCurrentThread, hnew.1, hnew.2]
      exact lawful_refuse hrefuse (h.refused (Or.inr (Or.inr hnew.2)))
    · refine h.ordinary ?_ rfl
      unfold registerCurrentThread
      cases htls : locals.tlsContext with
      | some slot => trivial
      | none =>
        rw [htls] at hnew
        simp only [true_and] at hnew
        simp [hnew, Ordinary]
  | exiting hpc hkey hready =>
    refine h.ordinary ?_ rfl
    by_cases haccept : rt.acceptEvents = true <;> simp [haccept, Ordinary]
  | slotLoaded hpc => exact h.loaded
  | full hpc hfull =>
    exact lawful_refuse rfl (hfull.trans (h.expected _ _ hpc))
  | retried hpc hlt => exact h.loaded
  | keySet hpc hready => exact h.begin rfl rfl
  | closed hpc => exact h.ordinary trivial rfl

/-- One thread moves. -/
theorem AllLawful.moved (h : AllLawful rt)
    (hthreads : rt'.threads = Function.update rt.threads thread locals)
    (hnext : rt'.nextThreadSlot = rt.nextThreadSlot) (hlocals : Lawful rt.nextThreadSlot locals) :
    AllLawful rt' := by
  intro other
  rw [hthreads, hnext]
  by_cases heq : other = thread
  · rw [heq, Function.update_self]
    exact hlocals
  · rw [Function.update_of_ne heq]
    exact h other

theorem AllLawful.step (h : AllLawful rt) (ht : Transition gettid rt rt' os) : AllLawful rt' := by
  cases ht with
  | moved hmove => exact h.moved rfl rfl (localMove_lawful (h _) hmove)
  | @claimed thread request hpc hlt =>
    intro other
    show Lawful (rt.nextThreadSlot + 1) (Function.update rt.threads thread
      { rt.threads thread with pc := .initialise request rt.nextThreadSlot } other)
    by_cases heq : other = thread
    · have hkept : Lawful rt.nextThreadSlot
          { rt.threads thread with pc := .initialise request rt.nextThreadSlot } :=
        (h thread).ordinary trivial rfl
      rw [heq, Function.update_self]
      exact hkept.mono (Nat.le_succ _)
    · rw [Function.update_of_ne heq]
      exact (h other).mono (Nat.le_succ _)
  | refused hpc | initialised hpc | activated hpc | dropped hpc hfull | left hpc =>
    exact h.moved rfl rfl ((h _).ordinary trivial rfl)
  | keyFailed hpc => exact h.moved rfl rfl ((h _).begin rfl rfl)
  | @reserved thread slot request after event hpc timestampNs hevent =>
    refine h.moved rfl rfl ?_
    cases after with
    | emit request' =>
      refine ⟨fun _ _ heq => by simp at heq, ?_, fun _ _ _ heq => by simp at heq, ?_⟩
      · rintro (⟨request'', expected, heq, hfull⟩ | ⟨request'', heq⟩ | hset)
        · simp at heq
        · simp at heq
        · exact (h thread).refused (Or.inr (Or.inr hset))
      · intro slot' event' request'' heq
        simp only [ProducerPc.countGenerated.injEq] at heq
        have hstart := (h thread).start _ _ _ hpc
        rw [← heq.2.1, hevent, hstart]
        rfl
    | leave | close => exact (h _).ordinary trivial rfl
  | counted hpc => exact h.moved rfl rfl ((h _).ordinary trivial rfl)
  | @pushed thread slot event after hpc hroom =>
    exact h.moved rfl rfl ((h _).ordinary (ordinary_resume slot after) rfl)
  | @dropCounted thread slot after hpc =>
    exact h.moved rfl rfl ((h _).ordinary (ordinary_resume slot after) rfl)
  | _ => exact h

/-- The claims of a run, thread and slot. -/
def claims (tr : List Observation) : List (ℕ × ℕ) :=
  tr.filterMap fun | .claimed thread slot => some (thread, slot) | _ => none

theorem claimants_eq (tr : List Observation) : claimants tr = (claims tr).map Prod.fst := by
  unfold claimants claims
  rw [List.map_filterMap]
  apply List.filterMap_congr
  intro o _
  cases o <;> rfl

theorem claimedSlots_eq (tr : List Observation) : claimedSlots tr = (claims tr).map Prod.snd := by
  unfold claimedSlots claims
  rw [List.map_filterMap]
  apply List.filterMap_congr
  intro o _
  cases o <;> rfl

theorem mem_claims : (thread, slot) ∈ claims tr ↔ .claimed thread slot ∈ tr := by
  unfold claims
  rw [List.mem_filterMap]
  constructor
  · rintro ⟨o, ho, heq⟩
    cases o with
    | claimed thread' slot' =>
      rw [Option.some.injEq, Prod.mk.injEq] at heq
      rwa [heq.1, heq.2] at ho
    | _ => simp at heq
  · intro hmem
    exact ⟨_, hmem, rfl⟩

/-- Slots are handed out in order. -/
theorem claimedSlots_step (h : claimedSlots tr = List.range rt.nextThreadSlot)
    (ht : Transition gettid rt rt' os) :
    claimedSlots (tr ++ os) = List.range rt'.nextThreadSlot := by
  have happend : claimedSlots (tr ++ os) = claimedSlots tr ++ claimedSlots os :=
    List.filterMap_append ..
  rw [happend, h]
  cases ht with
  | claimed hpc hlt => exact List.range_succ.symm
  | _ => exact List.append_nil _

/-- The slot of a claim is its place among the claims. -/
theorem claimed_iff (h : claimedSlots tr = List.range rt.nextThreadSlot) :
    .claimed thread slot ∈ tr ↔ (claimants tr)[slot]? = some thread := by
  have hplace : ∀ i (claim : ℕ × ℕ), (claims tr)[i]? = some claim → claim.2 = i := by
    intro i claim hi
    have hslot : (claimedSlots tr)[i]? = some claim.2 := by
      rw [claimedSlots_eq, List.getElem?_map, hi, Option.map_some]
    rw [h] at hslot
    obtain ⟨hlt, heq⟩ := List.getElem?_eq_some_iff.mp hslot
    rw [List.getElem_range] at heq
    exact heq.symm
  rw [← mem_claims, claimants_eq, List.getElem?_map, List.mem_iff_getElem?]
  constructor
  · rintro ⟨i, hi⟩
    have hslot : slot = i := hplace i _ hi
    rw [hslot, hi, Option.map_some]
  · intro hmap
    obtain ⟨claim, hclaim, hthread⟩ := Option.map_eq_some_iff.mp hmap
    refine ⟨slot, ?_⟩
    rw [hclaim, ← hthread, ← hplace slot claim hclaim]

end Claims

/-- The history agrees with the state and the observations. -/
structure HistoryExact (rt : Runtime) (notes : List Note) (tr : List Observation) : Prop where
  calls : ∀ thread, passedBy thread notes =
    countedBy thread notes ++ pendingCall (rt.threads thread).pc
  starts : ∀ thread, claimedBy thread tr =
    startsOf thread notes ++ pendingStart (rt.threads thread).pc
  generated : ∀ slot, (rt.threadContexts slot).generated =
    (generatedOn slot notes).length % 2 ^ 64
  unregistered : rt.unregisteredEvents = (unregisteredCalls notes).length % 2 ^ 64
  owned : ∀ thread slot event after, .generated thread slot event after ∈ notes →
    (claimants tr)[slot]? = some thread ∧
      ∀ request, after = .emit request → requestOf event = threadStart
  pushes : ∀ thread slot event, .pushed thread slot event ∈ tr →
    (claimants tr)[slot]? = some thread
  ordered : claimedSlots tr = List.range rt.nextThreadSlot

theorem generated_noted {action : Action} {event : MonitorEvent} {after : AfterEmission}
    (hmem : .generated thread slot event after ∈ noted rt action) :
    (rt.threads thread).pc = .countGenerated slot event after := by
  cases action with
  | call actor request =>
    simp only [noted] at hmem
    split at hmem <;> simp at hmem
  | producer actor environment =>
    simp only [noted] at hmem
    cases hpc : (rt.threads actor).pc with
    | countGenerated slot' event' after' =>
      simp only [hpc, notedAt, List.mem_singleton, Note.generated.injEq] at hmem
      obtain ⟨rfl, rfl, rfl, rfl⟩ := hmem
      exact hpc
    | _ => simp [hpc, notedAt] at hmem
  | _ => simp [noted] at hmem

theorem pushed_owner (howned : SlotsOwned rt tr) (ht : Transition gettid rt rt' os)
    {event : MonitorEvent} (hmem : .pushed thread slot event ∈ os) :
    (claimants tr)[slot]? = some thread := by
  cases ht with
  | pushed hpc hroom =>
    simp only [List.mem_singleton, Observation.pushed.injEq] at hmem
    obtain ⟨rfl, rfl, rfl⟩ := hmem
    exact (howned.works _ (by rw [hpc]; rfl)).2.2
  | _ => simp at hmem

theorem HistoryExact.step (h : HistoryExact rt notes tr) (howned : SlotsOwned rt tr)
    (hlawful : AllLawful rt) {action : Action} (hstep : step gettid rt action = some (rt', os)) :
    HistoryExact rt' (notes ++ noted rt action) (tr ++ os) := by
  have hbalanced := step_balanced hstep
  have hcounted := step_counted howned hstep
  constructor
  · intro thread
    have hsplit : ∀ first second, passedBy thread (first ++ second) =
        passedBy thread first ++ passedBy thread second := fun _ _ => List.filterMap_append ..
    have hsplit' : ∀ first second, countedBy thread (first ++ second) =
        countedBy thread first ++ countedBy thread second := fun _ _ => List.filterMap_append ..
    rw [hsplit, hsplit', h.calls, List.append_assoc, (hbalanced thread).calls, List.append_assoc]
  · intro thread
    have hsplit : ∀ first second, claimedBy thread (first ++ second) =
        claimedBy thread first ++ claimedBy thread second := fun _ _ => List.filterMap_append ..
    have hsplit' : ∀ first second, startsOf thread (first ++ second) =
        startsOf thread first ++ startsOf thread second := fun _ _ => List.filterMap_append ..
    rw [hsplit, hsplit', h.starts, List.append_assoc, (hbalanced thread).starts,
      List.append_assoc]
  · intro slot
    have hsplit : generatedOn slot (notes ++ noted rt action) =
        generatedOn slot notes ++ generatedOn slot (noted rt action) := List.filterMap_append ..
    rw [hsplit, List.length_append]
    exact hcounted.generated slot _ (h.generated slot)
  · have hsplit : unregisteredCalls (notes ++ noted rt action) =
        unregisteredCalls notes ++ unregisteredCalls (noted rt action) := List.filterMap_append ..
    rw [hsplit, List.length_append]
    exact hcounted.unregistered _ h.unregistered
  · intro thread slot event after hmem
    rcases List.mem_append.mp hmem with hold | hnew
    · exact ⟨claimant_append (h.owned thread slot event after hold).1 os,
        (h.owned thread slot event after hold).2⟩
    · have hpc := generated_noted hnew
      refine ⟨claimant_append (howned.works slot (by rw [hpc]; rfl)).2.2 os, ?_⟩
      intro request hafter
      rw [hafter] at hpc
      exact (hlawful thread).event _ _ _ hpc
  · intro thread slot event hmem
    rcases List.mem_append.mp hmem with hold | hnew
    · exact claimant_append (h.pushes thread slot event hold) os
    · exact claimant_append (pushed_owner howned (step_transition hstep) hnew) os
  · exact claimedSlots_step h.ordered (step_transition hstep)

theorem history_run (hrun : Run (watchedStep gettid) (monitorRuntimeStart maxHoldNs, []) tr
      (rt, notes)) : AllLawful rt ∧ HistoryExact rt notes tr := by
  have hall := hrun.invariant (I := fun watched tr =>
      SlotsOwned watched.1 tr ∧ AllLawful watched.1 ∧ HistoryExact watched.1 watched.2 tr)
    (by
      intro watched tr action watched' os ⟨howned, hlawful, hexact⟩ hwatched
      simp only [watchedStep, Option.map_eq_some_iff] at hwatched
      obtain ⟨result, hstep, heq⟩ := hwatched
      rw [Prod.mk.injEq] at heq
      obtain ⟨rfl, rfl⟩ := heq
      exact ⟨howned.step (step_transition hstep), hlawful.step (step_transition hstep),
        hexact.step howned hlawful hstep⟩)
    ⟨slotsOwned_start maxHoldNs, ?_, ?_⟩
  · exact hall.2
  · intro thread
    refine ⟨fun _ _ heq => by simp [monitorRuntimeStart] at heq, ?_,
      fun _ _ _ heq => by simp [monitorRuntimeStart] at heq,
      fun _ _ _ heq => by simp [monitorRuntimeStart] at heq⟩
    rintro (⟨request, expected, heq, -⟩ | ⟨request, heq⟩ | hset)
    · simp [monitorRuntimeStart] at heq
    · simp [monitorRuntimeStart] at heq
    · simp [monitorRuntimeStart] at hset
  · exact ⟨fun _ => rfl, fun _ => rfl, fun _ => rfl, rfl, fun _ _ _ _ hmem => by simp at hmem,
      fun _ _ _ hmem => by simp at hmem, rfl⟩

/-- The consumer reads contexts that their owners have initialised. -/
theorem consumer_initialised (h : Reached gettid maxHoldNs rt tr)
    (hslot : consumerSlot rt.consumer = some slot) :
    ∃ owner, (claimants tr)[slot]? = some owner ∧ Initialised gettid rt owner slot := by
  have hactive := h.owned.consumer slot hslot
  have hlt : slot < (claimants tr).length := by
    rw [h.owned.claimed]
    by_contra hge
    rw [h.owned.unclaimed slot (by omega)] at hactive
    simp at hactive
  have howner := List.getElem?_eq_getElem hlt
  refine ⟨(claimants tr)[slot], howner, hactive,
    h.identified.context _ slot howner (Or.inl hactive), ?_⟩
  intro thread hfresh
  have hheld : heldSlot (rt.threads thread) = some slot := by
    rw [heldSlot, hfresh, Option.some_or]
  have hexpected : expectedContext (rt.threads thread).pc = some none := by
    by_contra hne
    rw [freshSlot_of_expected hne] at hfresh
    simp at hfresh
  have htls := (h.owned.locals thread).context none hexpected
  rw [h.owned.dormant thread slot hheld htls] at hactive
  simp at hactive

/-- The single-producer discipline, in every state of every run: slots are handed out in
order and at most 16 times, a claim fails only when all are taken, a queue is filled by
the claimant of its slot only and emptied only once it is initialised; the calls of a
thread that have passed the tests are those counted, on its own slots or as
unregistered, and the one in progress; a registration counts one THREAD_START. -/
theorem single_producer (gettid : ℕ → ℕ) (maxHoldNs : ℕ) {tr : List Observation}
    {rt : Runtime} {notes : List Note}
    (hrun : Run (watchedStep gettid) (monitorRuntimeStart maxHoldNs, []) tr (rt, notes)) :
    claimedSlots tr = List.range rt.nextThreadSlot ∧
    (∀ first second slot, .claimed first slot ∈ tr → .claimed second slot ∈ tr →
      first = second) ∧
    rt.nextThreadSlot ≤ monitorMaxThreads ∧
    (∀ thread, ClaimRefused (rt.threads thread) → rt.nextThreadSlot = monitorMaxThreads) ∧
    (∀ thread slot event, .pushed thread slot event ∈ tr → .claimed thread slot ∈ tr) ∧
    (∀ slot, consumerSlot rt.consumer = some slot →
      ∃ owner, .claimed owner slot ∈ tr ∧ Initialised gettid rt owner slot) ∧
    (∀ thread, passedBy thread notes =
      countedBy thread notes ++ pendingCall (rt.threads thread).pc) ∧
    (∀ thread, claimedBy thread tr =
      startsOf thread notes ++ pendingStart (rt.threads thread).pc) ∧
    (∀ thread slot event after, .generated thread slot event after ∈ notes →
      .claimed thread slot ∈ tr ∧ ∀ request, after = .emit request →
        requestOf event = threadStart) ∧
    (∀ slot, (rt.threadContexts slot).generated =
      (generatedOn slot notes).length % 2 ^ 64) ∧
    rt.unregisteredEvents = (unregisteredCalls notes).length % 2 ^ 64 := by
  have h := reached_run (run_of_watched hrun)
  obtain ⟨hlawful, hexact⟩ := history_run hrun
  have hclaimed : ∀ {thread slot}, .claimed thread slot ∈ tr ↔
      (claimants tr)[slot]? = some thread := claimed_iff hexact.ordered
  refine ⟨hexact.ordered, ?_, h.owned.bound, ?_, ?_, ?_, hexact.calls, hexact.starts, ?_,
    hexact.generated, hexact.unregistered⟩
  · intro first second slot hfirst hsecond
    rw [hclaimed] at hfirst hsecond
    rw [hfirst, Option.some.injEq] at hsecond
    exact hsecond
  · intro thread hrefused
    exact le_antisymm h.owned.bound ((hlawful thread).refused hrefused)
  · intro thread slot event hmem
    exact hclaimed.mpr (hexact.pushes thread slot event hmem)
  · intro slot hslot
    obtain ⟨owner, howner, hinitialised⟩ := consumer_initialised h hslot
    exact ⟨owner, hclaimed.mpr howner, hinitialised⟩
  · intro thread slot event after hmem
    obtain ⟨howner, hstart⟩ := hexact.owned thread slot event after hmem
    exact ⟨hclaimed.mpr howner, hstart⟩

/-- Two threads register at the same time: thread 2 loses the exchange once, to thread 1,
and once to a weak failure. The consumer is about to process the first event. -/
def contendedClaims : (Runtime × List Note) × List Observation :=
  after (watchedStep id) (monitorRuntimeStart 0, [])
    (.call 1 ⟨.lockRequest, 100, 0⟩ :: .call 2 ⟨.lockRequest, 200, 0⟩ ::
      .producer 1 {} :: .producer 2 {} :: .producer 1 {} :: .producer 2 {} ::
      .producer 2 { exchangeFails := true } :: List.replicate 10 (.producer 1 {}) ++
      List.replicate 11 (.producer 2 {}) ++ List.replicate 3 .consumer)

theorem single_producer_contended :
    claimedSlots contendedClaims.2 = [0, 1] ∧
    passedBy 2 contendedClaims.1.2 = [⟨.lockRequest, 200, 0⟩] ∧
    countedBy 2 contendedClaims.1.2 = [⟨.lockRequest, 200, 0⟩] ∧
    startsOf 2 contendedClaims.1.2 = [1] ∧
    ∃ owner, .claimed owner 0 ∈ contendedClaims.2 ∧
      Initialised id contendedClaims.1.1 owner 0 := by
  have hrun : Run (watchedStep id) (monitorRuntimeStart 0, []) contendedClaims.2
      (contendedClaims.1.1, contendedClaims.1.2) := run_after (by decide +kernel)
  obtain ⟨hslots, -, -, -, -, hread, hcalls, hstarts, -⟩ := single_producer id 0 hrun
  have hnext : contendedClaims.1.1.nextThreadSlot = 2 := by decide +kernel
  have hout : (contendedClaims.1.1.threads 2).pc = .outside := by decide +kernel
  have hcounted : countedBy 2 contendedClaims.1.2 = [⟨.lockRequest, 200, 0⟩] := by decide +kernel
  rw [hnext] at hslots
  refine ⟨hslots, ?_, hcounted, by decide +kernel, hread 0 (by decide +kernel)⟩
  rw [hcalls 2, hcounted, hout]
  rfl

end RuntimeMonitor.SingleProducer
