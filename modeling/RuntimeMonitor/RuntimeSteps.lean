import RuntimeMonitor.MonitorRuntime

/-!
What one step of the runtime can do, said once: the moves of one thread's locals,
the moves of the consumer and of the stopping thread that leave shared memory as
it is, and one constructor for every step that writes it or is observed. The
invariants of runs are case analyses on these relations.
-/
namespace RuntimeMonitor.RuntimeSteps

open TransitionRuns EventRecord VerifierTables VerifierCycles MonitorRuntime
open RingBuffer (spscRingCapacity)

/-- The steps of a thread that change its own variables only. -/
inductive LocalMove (rt : Runtime) (locals : ThreadLocals) : ThreadLocals → Prop
  | called {request : EmitRequest} (hpc : locals.pc = .outside) (haccept : rt.acceptEvents = true)
      (hinternal : locals.tlsInternalThread = false) :
      LocalMove rt locals { locals with pc := registerCurrentThread locals request }
  | exiting {slot : ℕ} (hpc : locals.pc = .outside) (hkey : locals.exitKeyValue = some slot)
      (hready : rt.threadExitKeyReady = true) :
      LocalMove rt locals { locals with
        exitKeyValue := none
        pc := if rt.acceptEvents then .reserve slot threadExit .close else .close slot }
  | slotLoaded {request : EmitRequest} (hpc : locals.pc = .loadSlot request) :
      LocalMove rt locals { locals with pc := .exchangeSlot request rt.nextThreadSlot }
  | full {request : EmitRequest} {expected : ℕ} (hpc : locals.pc = .exchangeSlot request expected)
      (hfull : monitorMaxThreads ≤ expected) :
      LocalMove rt locals { locals with tlsRegistrationFailed := true, pc := .refuse request }
  | retried {request : EmitRequest} {expected : ℕ}
      (hpc : locals.pc = .exchangeSlot request expected) (hlt : expected < monitorMaxThreads) :
      LocalMove rt locals { locals with pc := .exchangeSlot request rt.nextThreadSlot }
  | keySet {request : EmitRequest} {slot : ℕ} (hpc : locals.pc = .setKey request slot)
      (hready : rt.threadExitKeyReady = true) :
      LocalMove rt locals { locals with
        exitKeyValue := some slot, pc := .reserve slot threadStart (.emit request) }
  | closed {slot : ℕ} (hpc : locals.pc = .close slot) :
      LocalMove rt locals { locals with tlsContext := none, pc := .outside }

/-- The steps of the consumer that change its position only. -/
inductive ConsumerMove (rt : Runtime) : ConsumerPc → ConsumerPc → Prop
  | active {round : Round} (hslot : round.slot < round.count)
      (hactive : (rt.threadContexts round.slot).active = true) :
      ConsumerMove rt (.poll round) (.drain round 0)
  | inactive {round : Round} (hslot : round.slot < round.count)
      (hactive : (rt.threadContexts round.slot).active = false) :
      ConsumerMove rt (.poll round) (.poll (round.next 0))
  | busy {round : Round} (hslot : round.count ≤ round.slot) (hany : round.consumedAny = true) :
      ConsumerMove rt (.poll round) (.loadRunning true)
  | idle {round : Round} (hslot : round.count ≤ round.slot) (hany : round.consumedAny = false) :
      ConsumerMove rt (.poll round) .check
  | batch {round : Round} {popped : ℕ} (hpopped : monitorDrainBatch ≤ popped) :
      ConsumerMove rt (.drain round popped) (.poll (round.next popped))
  | empty {round : Round} {popped : ℕ} (hqueue : (rt.threadContexts round.slot).queue = []) :
      ConsumerMove rt (.drain round popped) (.poll (round.next popped))
  | again {consumedAny : Bool} (hgo : rt.consumerRunning = true ∨ consumedAny = true) :
      ConsumerMove rt (.loadRunning consumedAny) .loadCount

/-- The steps of the stopping thread that change its position only. -/
inductive StopMove (rt : Runtime) : StopPc → StopPc → Prop
  | joined (hreturned : rt.consumer = .returned) : StopMove rt .join .loadCount
  | counted : StopMove rt .loadCount (.loadActive 0 rt.nextThreadSlot [])
  | active {slot count : ℕ} {lines : List ContextLine} (hslot : slot < count)
      (hactive : (rt.threadContexts slot).active = true) :
      StopMove rt (.loadActive slot count lines) (.loadGenerated slot count lines)
  | inactive {slot count : ℕ} {lines : List ContextLine} (hslot : slot < count)
      (hactive : (rt.threadContexts slot).active = false) :
      StopMove rt (.loadActive slot count lines) (.loadActive (slot + 1) count lines)
  | all {slot count : ℕ} {lines : List ContextLine} (hslot : count ≤ slot) :
      StopMove rt (.loadActive slot count lines) (.loadUnregistered lines)
  | generated {slot count : ℕ} {lines : List ContextLine} :
      StopMove rt (.loadGenerated slot count lines)
        (.loadConsumed slot count lines (rt.threadContexts slot).generated)
  | consumed {slot count generated : ℕ} {lines : List ContextLine} :
      StopMove rt (.loadConsumed slot count lines generated)
        (.loadDropped slot count lines generated (rt.threadContexts slot).consumed)
  | dropped {slot count generated consumed : ℕ} {lines : List ContextLine} :
      StopMove rt (.loadDropped slot count lines generated consumed)
        (.loadActive (slot + 1) count (lines ++ [⟨slot, (rt.threadContexts slot).threadId,
          generated, consumed, (rt.threadContexts slot).dropped⟩]))
  | lifecycle {lines : List ContextLine} {rejected : ℕ} :
      StopMove rt (.loadLifecycle lines rejected)
        (.deleteKey ⟨lines, rejected, rt.lifecycleRegistrationFailures⟩)

/-- Everything that one step can do. -/
inductive Transition (gettid : ℕ → ℕ) (rt : Runtime) : Runtime → List Observation → Prop
  | ignored : Transition gettid rt rt []
  | moved {thread : ℕ} {locals : ThreadLocals} (hmove : LocalMove rt (rt.threads thread) locals) :
      Transition gettid rt (rt.setThread thread locals) []
  | claimed {thread : ℕ} {request : EmitRequest}
      (hpc : (rt.threads thread).pc = .exchangeSlot request rt.nextThreadSlot)
      (hlt : rt.nextThreadSlot < monitorMaxThreads) :
      Transition gettid rt { rt.goto thread (.initialise request rt.nextThreadSlot) with
        nextThreadSlot := rt.nextThreadSlot + 1 } [.claimed thread rt.nextThreadSlot]
  | refused {thread : ℕ} {request : EmitRequest}
      (hpc : (rt.threads thread).pc = .refuse request) :
      Transition gettid rt { rt.goto thread .outside with
        unregisteredEvents := succ64 rt.unregisteredEvents } [.refused thread request]
  | initialised {thread slot : ℕ} {request : EmitRequest}
      (hpc : (rt.threads thread).pc = .initialise request slot) :
      Transition gettid rt ((rt.setContext slot { rt.threadContexts slot with
        queue := []
        threadId := gettid thread
        generated := 0
        dropped := 0
        nextThreadSequence := 0
        consumed := 0 }).goto thread (.activate request slot)) []
  | activated {thread slot : ℕ} {request : EmitRequest}
      (hpc : (rt.threads thread).pc = .activate request slot) :
      Transition gettid rt ((rt.setContext slot { rt.threadContexts slot with
        active := true }).setThread thread { rt.threads thread with
          tlsContext := some slot, pc := .setKey request slot }) []
  | keyFailed {thread slot : ℕ} {request : EmitRequest}
      (hpc : (rt.threads thread).pc = .setKey request slot) :
      Transition gettid rt { rt.goto thread (.reserve slot threadStart (.emit request)) with
        lifecycleRegistrationFailures := succ64 rt.lifecycleRegistrationFailures } []
  | reserved {thread slot : ℕ} {request : EmitRequest} {after : AfterEmission}
      {event : MonitorEvent}
      (hpc : (rt.threads thread).pc = .reserve slot request after) (timestampNs : ℕ)
      (hevent : event =
        buildEvent rt.globalSequence timestampNs (rt.threadContexts slot) request) :
      Transition gettid rt { (rt.setContext slot { rt.threadContexts slot with
          nextThreadSequence := succ32 (rt.threadContexts slot).nextThreadSequence }).goto thread
            (.countGenerated slot event after) with
        globalSequence := succ64 rt.globalSequence } [.reserved thread slot event]
  | counted {thread slot : ℕ} {event : MonitorEvent} {after : AfterEmission}
      (hpc : (rt.threads thread).pc = .countGenerated slot event after) :
      Transition gettid rt ((rt.setContext slot { rt.threadContexts slot with
        generated := succ64 (rt.threadContexts slot).generated }).goto thread
          (.push slot event after)) []
  | pushed {thread slot : ℕ} {event : MonitorEvent} {after : AfterEmission}
      (hpc : (rt.threads thread).pc = .push slot event after)
      (hroom : (rt.threadContexts slot).queue.length < spscRingCapacity) :
      Transition gettid rt ((rt.setContext slot { rt.threadContexts slot with
        queue := (rt.threadContexts slot).queue ++ [event] }).goto thread (after.resume slot))
        [.pushed thread slot event]
  | dropped {thread slot : ℕ} {event : MonitorEvent} {after : AfterEmission}
      (hpc : (rt.threads thread).pc = .push slot event after)
      (hfull : spscRingCapacity ≤ (rt.threadContexts slot).queue.length) :
      Transition gettid rt (rt.goto thread (.countDropped slot after))
        [.dropped thread slot event]
  | dropCounted {thread slot : ℕ} {after : AfterEmission}
      (hpc : (rt.threads thread).pc = .countDropped slot after) :
      Transition gettid rt ((rt.setContext slot { rt.threadContexts slot with
        dropped := succ64 (rt.threadContexts slot).dropped }).goto thread (after.resume slot)) []
  | left {thread slot : ℕ} (hpc : (rt.threads thread).pc = .leave slot) :
      Transition gettid rt (rt.goto thread .outside) [.returned thread slot]
  | roundStarted (hpc : rt.consumer = .loadCount) :
      Transition gettid rt { rt with consumer := .poll ⟨0, rt.nextThreadSlot, false⟩ }
        [.roundStarted]
  | consumerMoved {pc : ConsumerPc} (hmove : ConsumerMove rt rt.consumer pc) :
      Transition gettid rt { rt with consumer := pc } []
  | popped {round : Round} {popped : ℕ} {event : MonitorEvent} {rest : List MonitorEvent}
      (hpc : rt.consumer = .drain round popped)
      (hqueue : (rt.threadContexts round.slot).queue = event :: rest) :
      Transition gettid rt { rt.setContext round.slot { rt.threadContexts round.slot with
        queue := rest } with consumer := .process round popped event } []
  | processed {round : Round} {popped : ℕ} {event : MonitorEvent}
      (hpc : rt.consumer = .process round popped event) :
      Transition gettid rt { rt with
        verifier := applyCall rt.verifier (.processEvent event)
        consumer := .account round popped } [.processed round.slot event]
  | accounted {round : Round} {popped : ℕ} (hpc : rt.consumer = .account round popped) :
      Transition gettid rt { rt.setContext round.slot { rt.threadContexts round.slot with
        consumed := succ64 (rt.threadContexts round.slot).consumed } with
          consumer := .drain round (popped + 1) } []
  | checked (hpc : rt.consumer = .check) :
      Transition gettid rt { rt with
        verifier := applyCall rt.verifier .checkDeadlocks
        consumer := .loadRunning false } [.checked]
  | consumerReturned (hpc : rt.consumer = .loadRunning false)
      (hstopped : rt.consumerRunning = false) :
      Transition gettid rt { rt with consumer := .returned } [.consumerReturned]
  | stopCalled (hpc : rt.stopper = .notCalled) :
      Transition gettid rt { rt with acceptEvents := false, stopper := .storeRunning }
        [.stopCalled]
  | consumerStopped (hpc : rt.stopper = .storeRunning) :
      Transition gettid rt { rt with consumerRunning := false, stopper := .join } []
  | stopMoved {pc : StopPc} (hmove : StopMove rt rt.stopper pc) :
      Transition gettid rt { rt with stopper := pc } []
  | unregisteredRead {lines : List ContextLine} (hpc : rt.stopper = .loadUnregistered lines) :
      Transition gettid rt { rt with stopper := .loadLifecycle lines rt.unregisteredEvents }
        [.unregisteredRead]
  | keyDeleted {transport : TransportSummary} (hpc : rt.stopper = .deleteKey transport) :
      Transition gettid rt { rt with
        threadExitKeyReady := false, stopper := .finished transport } []

variable {gettid : ℕ → ℕ} {rt rt' : Runtime} {thread : ℕ} {os : List Observation}

theorem emit_transition {request : EmitRequest}
    (h : monitorRuntimeEmit rt thread request = some (rt', os)) :
    Transition gettid rt rt' os := by
  unfold monitorRuntimeEmit at h
  dsimp only at h
  split at h
  · simp at h
  rename_i hpc
  rw [not_not] at hpc
  split at h
  · cases h
    exact .ignored
  · rename_i htests
    simp only [Bool.or_eq_true, Bool.not_eq_true', not_or, Bool.not_eq_false,
      Bool.not_eq_true] at htests
    cases h
    exact .moved (.called hpc htests.1 htests.2)

theorem destructor_transition (h : monitorThreadExitDestructor rt thread = some (rt', os)) :
    Transition gettid rt rt' os := by
  unfold monitorThreadExitDestructor at h
  dsimp only at h
  split at h
  · simp at h
  rename_i slot hkey
  split at h
  · simp at h
  rename_i htests
  simp only [Bool.or_eq_true, decide_eq_true_eq, Bool.not_eq_true', not_or, not_not,
    Bool.not_eq_false] at htests
  cases h
  exact .moved (.exiting htests.1 hkey htests.2)

theorem producer_transition {environment : Environment}
    (h : producerStep gettid rt thread environment = some (rt', os)) :
    Transition gettid rt rt' os := by
  unfold producerStep at h
  dsimp only at h
  cases hpc : (rt.threads thread).pc with
  | outside => simp [hpc] at h
  | loadSlot request =>
    rw [hpc] at h
    cases h
    exact .moved (.slotLoaded hpc)
  | exchangeSlot request expected =>
    simp only [hpc] at h
    by_cases hfull : expected ≥ monitorMaxThreads
    · rw [if_pos hfull] at h
      cases h
      exact .moved (.full hpc hfull)
    rw [if_neg hfull] at h
    split at h
    · cases h
      exact .moved (.retried hpc (by omega))
    · rename_i hsame
      simp only [Bool.or_eq_true, decide_eq_true_eq, not_or, not_not] at hsame
      cases h
      obtain ⟨-, rfl⟩ := hsame
      exact .claimed hpc (by omega)
  | refuse request =>
    rw [hpc] at h
    cases h
    exact .refused hpc
  | initialise request slot =>
    rw [hpc] at h
    cases h
    exact .initialised hpc
  | activate request slot =>
    rw [hpc] at h
    cases h
    exact .activated hpc
  | setKey request slot =>
    simp only [hpc] at h
    split at h
    · rename_i hset
      cases h
      exact .moved (.keySet hpc hset.1)
    · cases h
      exact .keyFailed hpc
  | reserve slot request after =>
    rw [hpc] at h
    cases h
    exact .reserved hpc environment.timestampNs rfl
  | countGenerated slot event after =>
    rw [hpc] at h
    cases h
    exact .counted hpc
  | push slot event after =>
    simp only [hpc] at h
    split at h
    · rename_i hroom
      cases h
      exact .pushed hpc hroom
    · rename_i hfull
      cases h
      exact .dropped hpc (by omega)
  | countDropped slot after =>
    rw [hpc] at h
    cases h
    exact .dropCounted hpc
  | leave slot =>
    rw [hpc] at h
    cases h
    exact .left hpc
  | close slot =>
    rw [hpc] at h
    cases h
    exact .moved (.closed hpc)

theorem consumer_transition (h : consumerStep rt = some (rt', os)) :
    Transition gettid rt rt' os := by
  unfold consumerStep at h
  cases hpc : rt.consumer with
  | loadCount =>
    rw [hpc] at h
    cases h
    exact .roundStarted hpc
  | poll round =>
    simp only [hpc] at h
    by_cases hslot : round.slot < round.count
    · rw [if_pos hslot] at h
      split at h
      · rename_i hactive
        cases h
        exact .consumerMoved (hpc ▸ .active hslot hactive)
      · rename_i hactive
        cases h
        exact .consumerMoved (hpc ▸ .inactive hslot (by simpa using hactive))
    · rw [if_neg hslot] at h
      split at h
      · rename_i hany
        cases h
        exact .consumerMoved (hpc ▸ .busy (by omega) hany)
      · rename_i hany
        cases h
        exact .consumerMoved (hpc ▸ .idle (by omega) (by simpa using hany))
  | drain round popped =>
    simp only [hpc] at h
    split at h
    · rename_i hpopped
      cases h
      exact .consumerMoved (hpc ▸ .batch hpopped)
    · split at h
      · rename_i hqueue
        cases h
        exact .consumerMoved (hpc ▸ .empty hqueue)
      · rename_i event rest hqueue
        cases h
        exact .popped hpc hqueue
  | process round popped event =>
    rw [hpc] at h
    cases h
    exact .processed hpc
  | account round popped =>
    rw [hpc] at h
    cases h
    exact .accounted hpc
  | check =>
    rw [hpc] at h
    cases h
    exact .checked hpc
  | loadRunning consumedAny =>
    simp only [hpc] at h
    split at h
    · rename_i hstop
      simp only [Bool.and_eq_true, Bool.not_eq_true'] at hstop
      cases h
      exact .consumerReturned (hpc.trans (by rw [hstop.2])) hstop.1
    · rename_i hgo
      simp only [Bool.and_eq_true, Bool.not_eq_true', not_and_or, Bool.not_eq_false] at hgo
      cases h
      exact .consumerMoved (hpc ▸ .again hgo)
  | returned => simp [hpc] at h

theorem stop_transition (h : stopStep rt = some (rt', os)) : Transition gettid rt rt' os := by
  unfold stopStep at h
  cases hpc : rt.stopper with
  | notCalled =>
    rw [hpc] at h
    cases h
    exact .stopCalled hpc
  | storeRunning =>
    rw [hpc] at h
    cases h
    exact .consumerStopped hpc
  | join =>
    simp only [hpc] at h
    split at h
    · rename_i hreturned
      cases h
      exact .stopMoved (hpc ▸ .joined hreturned)
    · simp at h
  | loadCount =>
    rw [hpc] at h
    cases h
    exact .stopMoved (hpc ▸ .counted)
  | loadActive slot count lines =>
    simp only [hpc] at h
    by_cases hslot : slot < count
    · rw [if_pos hslot] at h
      split at h
      · rename_i hactive
        cases h
        exact .stopMoved (hpc ▸ .active hslot hactive)
      · rename_i hactive
        cases h
        exact .stopMoved (hpc ▸ .inactive hslot (by simpa using hactive))
    · rw [if_neg hslot] at h
      cases h
      exact .stopMoved (hpc ▸ .all (by omega))
  | loadGenerated slot count lines =>
    rw [hpc] at h
    cases h
    exact .stopMoved (hpc ▸ .generated)
  | loadConsumed slot count lines generated =>
    rw [hpc] at h
    cases h
    exact .stopMoved (hpc ▸ .consumed)
  | loadDropped slot count lines generated consumed =>
    rw [hpc] at h
    cases h
    exact .stopMoved (hpc ▸ .dropped)
  | loadUnregistered lines =>
    rw [hpc] at h
    cases h
    exact .unregisteredRead hpc
  | loadLifecycle lines rejected =>
    rw [hpc] at h
    cases h
    exact .stopMoved (hpc ▸ .lifecycle)
  | deleteKey transport =>
    rw [hpc] at h
    cases h
    exact .keyDeleted hpc
  | finished transport => simp [hpc] at h

theorem step_transition {action : Action} (h : step gettid rt action = some (rt', os)) :
    Transition gettid rt rt' os := by
  cases action with
  | call thread request => exact emit_transition h
  | exit thread => exact destructor_transition h
  | producer thread environment => exact producer_transition h
  | consumer => exact consumer_transition h
  | stop => exact stop_transition h

end RuntimeMonitor.RuntimeSteps
