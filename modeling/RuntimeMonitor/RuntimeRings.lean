import RuntimeMonitor.RingBufferRuns
import RuntimeMonitor.SingleProducer

/-!
The runtime over its ring buffers. In the runtime so far a queue operation is one step on
a list. Here each access of `spsc_ring_buffer_try_push` and `spsc_ring_buffer_try_pop` is
a step, and between two of them all other threads may run. An emission takes effect where
it publishes its event or finds the queue full, a drain where it releases the slot or finds
the queue empty: both systems make the same observations in the same order.
-/
namespace RuntimeMonitor.RuntimeRings

open TransitionRuns EventRecord VerifierCycles MonitorRuntime RuntimeSteps SlotOwnership
open RuntimeStreams RuntimeAccounts SingleProducer
open RingBuffer (spscRingCapacity)

/-- The queues of the contexts stay empty; their events are in the rings. -/
structure RingRuntime where
  runtime : Runtime
  rings : ℕ → RingBuffer.SpscRingBuffer MonitorEvent
  pushing : ℕ → RingBuffer.ProducerPc MonitorEvent := fun _ => .idle
  popping : RingBuffer.ConsumerPc MonitorEvent := .idle

/-- The contexts are static data, so the indices of their rings are zero at first. -/
def ringRuntimeStart (maxHoldNs : ℕ) (slots : ℕ → ℕ → MonitorEvent) : RingRuntime where
  runtime := monitorRuntimeStart maxHoldNs
  rings slot := ⟨0, 0, slots slot⟩

def RingRuntime.setRing (c : RingRuntime) (slot : ℕ)
    (ring : RingBuffer.SpscRingBuffer MonitorEvent) : RingRuntime :=
  { c with rings := Function.update c.rings slot ring }

def RingRuntime.setPushing (c : RingRuntime) (thread : ℕ)
    (pc : RingBuffer.ProducerPc MonitorEvent) : RingRuntime :=
  { c with pushing := Function.update c.pushing thread pc }

/-- What `emit_event_to_context` does next in view of the value that the push returns. -/
def afterPush (rt : Runtime) (thread slot : ℕ) (after : AfterEmission) :
    List (RingBuffer.Obs MonitorEvent) → Runtime × List Observation
  | [.pushed event] => (rt.goto thread (after.resume slot), [.pushed thread slot event])
  | [.refused event] => (rt.goto thread (.countDropped slot after), [.dropped thread slot event])
  | _ => (rt, [])

/-- One access of the push in `emit_event_to_context`. -/
def pushStep (c : RingRuntime) (thread slot : ℕ) (event : MonitorEvent) (after : AfterEmission) :
    Option (RingRuntime × List Observation) :=
  match c.pushing thread with
  | .idle => some (c.setPushing thread (.loadTail event (c.rings slot).head), [])
  | pc => (RingBuffer.tryPush (c.rings slot) pc).map fun made =>
    let next := afterPush c.runtime thread slot after made.2.2
    ({ (c.setRing slot made.1).setPushing thread made.2.1 with runtime := next.1 }, next.2)

/-- What `drain_context` does next in view of the value that the pop returns. -/
def afterPop (rt : Runtime) (round : Round) (popped : ℕ) :
    List (RingBuffer.Obs MonitorEvent) → Runtime
  | [.popped event] => { rt with consumer := .process round popped event }
  | [.foundEmpty] => { rt with consumer := .poll (round.next popped) }
  | _ => rt

/-- One access of the loop in `drain_context`. -/
def popStep (c : RingRuntime) (round : Round) (popped : ℕ) : RingRuntime :=
  if popped ≥ monitorDrainBatch then
    { c with runtime := { c.runtime with consumer := .poll (round.next popped) } }
  else
    let made := RingBuffer.tryPop (c.rings round.slot) c.popping
    { c.setRing round.slot made.1 with
      popping := made.2.1
      runtime := afterPop c.runtime round popped made.2.2 }

def ringStep (gettid : ℕ → ℕ) : Stepper RingRuntime Action Observation
  | c, .producer thread environment =>
    match (c.runtime.threads thread).pc with
    | .push slot event after => pushStep c thread slot event after
    | .initialise _ slot => (producerStep gettid c.runtime thread environment).map fun made =>
      ({ c.setRing slot (RingBuffer.spscRingBufferInit (c.rings slot).slots) with
        runtime := made.1 }, made.2)
    | _ => (producerStep gettid c.runtime thread environment).map fun made =>
      ({ c with runtime := made.1 }, made.2)
  | c, .consumer =>
    match c.runtime.consumer with
    | .drain round popped => some (popStep c round popped, [])
    | _ => (consumerStep c.runtime).map fun made => ({ c with runtime := made.1 }, made.2)
  | c, action => (step gettid c.runtime action).map fun made =>
    ({ c with runtime := made.1 }, made.2)

/-- The runtime with its queues taken out. -/
def withoutQueues (rt : Runtime) : Runtime :=
  { rt with threadContexts := fun slot => { rt.threadContexts slot with queue := [] } }

/-- The position of the consumer in a pop from the ring of a slot. -/
def poppingOn (c : RingRuntime) (slot : ℕ) : RingBuffer.ConsumerPc MonitorEvent :=
  match c.runtime.consumer with
  | .drain round _ => if round.slot = slot then c.popping else .idle
  | _ => .idle

/-- The position in a push to the ring of a slot: that of the thread that is pushing, and
idle if there is none. -/
def PushingOn (c : RingRuntime) (slot : ℕ) (pc : RingBuffer.ProducerPc MonitorEvent) : Prop :=
  (∃ thread event after, (c.runtime.threads thread).pc = .push slot event after ∧
    pc = c.pushing thread) ∨
  pc = .idle ∧ ∀ thread event after, (c.runtime.threads thread).pc ≠ .push slot event after

/-- A push that is under way has this event. -/
def Carries (event : MonitorEvent) : RingBuffer.ProducerPc MonitorEvent → Prop
  | .idle => True
  | .loadTail carried _ | .copySlot carried _ | .publish carried _ => carried = event

/-- The accesses that a push has left at most. -/
def pushDue : RingBuffer.ProducerPc MonitorEvent → ℕ
  | .idle => 4
  | .loadTail _ _ => 3
  | .copySlot _ _ => 2
  | .publish _ _ => 1

/-- The accesses that a pop has left at most. -/
def popDue : RingBuffer.ConsumerPc MonitorEvent → ℕ
  | .idle => 4
  | .loadHead _ => 3
  | .copySlot _ => 2
  | .publish _ _ => 1

/-- The rings hold what the queues have, and operations are under way only where the
threads are at their pushes and the consumer at its pop. -/
structure Refines (c : RingRuntime) (rt : Runtime) : Prop where
  runtime : c.runtime = withoutQueues rt
  stored : ∀ slot pc, PushingOn c slot pc →
    RingBuffer.Contains ⟨c.rings slot, pc, poppingOn c slot⟩ (rt.threadContexts slot).queue
  carries : ∀ thread slot event after, (rt.threads thread).pc = .push slot event after →
    Carries event (c.pushing thread)
  unpushing : ∀ thread, (∀ slot event after, (rt.threads thread).pc ≠ .push slot event after) →
    c.pushing thread = .idle
  unpopping : c.popping ≠ .idle →
    ∃ round popped, rt.consumer = .drain round popped ∧ popped < monitorDrainBatch

variable {gettid : ℕ → ℕ} {maxHoldNs thread slot popped : ℕ} {rt rt' : Runtime}
  {c c' : RingRuntime} {tr os : List Observation} {event : MonitorEvent}

/-- The step neither touches a queue nor a thread at its push. -/
structure Quiet (rt rt' : Runtime) : Prop where
  queues : ∀ slot, (rt'.threadContexts slot).queue = (rt.threadContexts slot).queue
  threads : ∀ thread, (rt'.threads thread).pc = (rt.threads thread).pc ∨
    (∀ slot event after, (rt.threads thread).pc ≠ .push slot event after) ∧
      ∀ slot event after, (rt'.threads thread).pc = .push slot event after →
        (rt.threads thread).pc = .countGenerated slot event after
  consumer : rt'.consumer = rt.consumer ∨ ∀ round popped, rt.consumer ≠ .drain round popped

section Quiet

/-- The action makes no access to a queue. -/
def OffQueues (rt : Runtime) : Action → Prop
  | .producer thread _ => (∀ slot event after, (rt.threads thread).pc ≠ .push slot event after) ∧
    ∀ request slot, (rt.threads thread).pc ≠ .initialise request slot
  | .consumer => ∀ round popped, rt.consumer ≠ .drain round popped
  | _ => True

theorem withoutQueues_setContext (rt : Runtime) (slot : ℕ) (context : MonitorThreadContext) :
    withoutQueues (rt.setContext slot context) =
      (withoutQueues rt).setContext slot { context with queue := [] } := by
  have hcontexts :
      (fun i => { Function.update rt.threadContexts slot context i with queue := [] }) =
      Function.update (fun i => { rt.threadContexts i with queue := [] }) slot
        { context with queue := [] } := by
    funext i
    by_cases hi : i = slot
    · subst hi
      rw [Function.update_self, Function.update_self]
    · rw [Function.update_of_ne hi, Function.update_of_ne hi]
  unfold withoutQueues Runtime.setContext
  simp only [hcontexts]

theorem emit_withoutQueues (request : EmitRequest) :
    monitorRuntimeEmit (withoutQueues rt) thread request =
      (monitorRuntimeEmit rt thread request).map fun made => (withoutQueues made.1, made.2) := by
  have hthreads : (withoutQueues rt).threads = rt.threads := rfl
  have haccept : (withoutQueues rt).acceptEvents = rt.acceptEvents := rfl
  unfold monitorRuntimeEmit
  simp only [hthreads, haccept]
  by_cases hpc : (rt.threads thread).pc ≠ .outside
  · rw [if_pos hpc, if_pos hpc, Option.map_none]
  · rw [if_neg hpc, if_neg hpc]
    by_cases hclosed : (!rt.acceptEvents || (rt.threads thread).tlsInternalThread) = true
    · rw [if_pos hclosed, if_pos hclosed, Option.map_some]
    · rw [if_neg hclosed, if_neg hclosed, Option.map_some]
      rfl

theorem exit_withoutQueues :
    monitorThreadExitDestructor (withoutQueues rt) thread =
      (monitorThreadExitDestructor rt thread).map fun made => (withoutQueues made.1, made.2) := by
  have hthreads : (withoutQueues rt).threads = rt.threads := rfl
  have hready : (withoutQueues rt).threadExitKeyReady = rt.threadExitKeyReady := rfl
  unfold monitorThreadExitDestructor
  simp only [hthreads, hready]
  cases (rt.threads thread).exitKeyValue with
  | none => rfl
  | some slot =>
    by_cases hpc : (decide ((rt.threads thread).pc ≠ .outside) || !rt.threadExitKeyReady) = true
    · simp only [if_pos hpc, Option.map_none]
    · simp only [if_neg hpc, Option.map_some]
      rfl

theorem stop_withoutQueues :
    stopStep (withoutQueues rt) =
      (stopStep rt).map fun made => (withoutQueues made.1, made.2) := by
  have hstopper : (withoutQueues rt).stopper = rt.stopper := rfl
  have hconsumer : (withoutQueues rt).consumer = rt.consumer := rfl
  have hactive : ∀ slot, ((withoutQueues rt).threadContexts slot).active =
      (rt.threadContexts slot).active := fun _ => rfl
  unfold stopStep
  simp only [hstopper]
  cases rt.stopper with
  | join =>
    simp only [hconsumer]
    by_cases hreturned : rt.consumer = .returned
    · rw [if_pos hreturned, if_pos hreturned]
      rfl
    · rw [if_neg hreturned, if_neg hreturned]
      rfl
  | loadActive slot count lines =>
    simp only [hactive]
    by_cases hlt : slot < count
    · rw [if_pos hlt, if_pos hlt]
      by_cases hon : (rt.threadContexts slot).active = true
      · rw [if_pos hon, if_pos hon]
        rfl
      · rw [if_neg hon, if_neg hon]
        rfl
    · rw [if_neg hlt, if_neg hlt]
      rfl
  | _ => rfl

theorem consumer_withoutQueues (hoff : ∀ round popped, rt.consumer ≠ .drain round popped) :
    consumerStep (withoutQueues rt) =
      (consumerStep rt).map fun made => (withoutQueues made.1, made.2) := by
  have hconsumer : (withoutQueues rt).consumer = rt.consumer := rfl
  have hactive : ∀ slot, ((withoutQueues rt).threadContexts slot).active =
      (rt.threadContexts slot).active := fun _ => rfl
  have hrunning : (withoutQueues rt).consumerRunning = rt.consumerRunning := rfl
  unfold consumerStep
  simp only [hconsumer]
  cases hpc : rt.consumer with
  | drain round popped => exact absurd hpc (hoff round popped)
  | poll round =>
    simp only [hactive]
    by_cases hlt : round.slot < round.count
    · rw [if_pos hlt, if_pos hlt]
      by_cases hon : (rt.threadContexts round.slot).active = true
      · rw [if_pos hon, if_pos hon]
        rfl
      · rw [if_neg hon, if_neg hon]
        rfl
    · rw [if_neg hlt, if_neg hlt]
      by_cases hany : round.consumedAny = true
      · rw [if_pos hany, if_pos hany]
        rfl
      · rw [if_neg hany, if_neg hany]
        rfl
  | account round popped =>
    have hcontext := withoutQueues_setContext rt round.slot
      { rt.threadContexts round.slot with
        consumed := succ64 (rt.threadContexts round.slot).consumed }
    simp only [Option.map_some, Option.some.injEq, Prod.mk.injEq, and_true]
    exact congrArg (fun q : Runtime => { q with consumer := .drain round (popped + 1) })
      hcontext.symm
  | loadRunning any =>
    simp only [hrunning]
    by_cases hstop : (!rt.consumerRunning && !any) = true
    · rw [if_pos hstop, if_pos hstop]
      rfl
    · rw [if_neg hstop, if_neg hstop]
      rfl
  | _ => rfl

theorem producer_withoutQueues (environment : Environment)
    (hpush : ∀ slot event after, (rt.threads thread).pc ≠ .push slot event after) :
    producerStep gettid (withoutQueues rt) thread environment =
      (producerStep gettid rt thread environment).map fun made =>
        (withoutQueues made.1, made.2) := by
  have hthreads : (withoutQueues rt).threads = rt.threads := rfl
  have hnext : (withoutQueues rt).nextThreadSlot = rt.nextThreadSlot := rfl
  have hready : (withoutQueues rt).threadExitKeyReady = rt.threadExitKeyReady := rfl
  have hcontext : ∀ slot context pc, ((withoutQueues rt).setContext slot
      { context with queue := [] }).goto thread pc =
        withoutQueues ((rt.setContext slot context).goto thread pc) := by
    intro slot context pc
    rw [← withoutQueues_setContext]
    rfl
  unfold producerStep
  simp only [hthreads]
  cases hpc : (rt.threads thread).pc with
  | push slot event after => exact absurd hpc (hpush slot event after)
  | exchangeSlot request expected =>
    simp only [hnext]
    by_cases hfull : expected ≥ monitorMaxThreads
    · rw [if_pos hfull, if_pos hfull]
      rfl
    · rw [if_neg hfull, if_neg hfull]
      by_cases hlost : (environment.exchangeFails || decide (rt.nextThreadSlot ≠ expected)) = true
      · rw [if_pos hlost, if_pos hlost]
        rfl
      · rw [if_neg hlost, if_neg hlost]
        rfl
  | setKey request slot =>
    simp only [hready]
    by_cases hset : rt.threadExitKeyReady = true ∧ environment.setspecificResult = 0
    · rw [if_pos hset, if_pos hset]
      rfl
    · rw [if_neg hset, if_neg hset]
      rfl
  | initialise request slot | countGenerated slot event after | countDropped slot after =>
    simp only [Option.map_some, ← hcontext]
    rfl
  | activate request slot =>
    have hactive :=
      withoutQueues_setContext rt slot { rt.threadContexts slot with active := true }
    simp only [Option.map_some, Option.some.injEq, Prod.mk.injEq, and_true]
    exact congrArg (fun q : Runtime => q.setThread thread { rt.threads thread with
      tlsContext := some slot, pc := .setKey request slot }) hactive.symm
  | reserve slot request after =>
    simp only [Option.map_some, Option.some.injEq, Prod.mk.injEq]
    refine ⟨?_, rfl⟩
    exact congrArg (fun q : Runtime => { q with globalSequence := succ64 rt.globalSequence })
      (hcontext slot { rt.threadContexts slot with
        nextThreadSequence := succ32 (rt.threadContexts slot).nextThreadSequence } _)
  | _ => rfl

/-- Away from the queues the runtime does not notice that they are gone. -/
theorem step_withoutQueues {action : Action} (hoff : OffQueues rt action) :
    step gettid (withoutQueues rt) action =
      (step gettid rt action).map fun made => (withoutQueues made.1, made.2) := by
  cases action with
  | call thread request => exact emit_withoutQueues request
  | exit thread => exact exit_withoutQueues
  | stop => exact stop_withoutQueues
  | consumer => exact consumer_withoutQueues hoff
  | producer thread environment => exact producer_withoutQueues environment hoff.1

theorem quiet_thread {locals : ThreadLocals} (hthreads : rt'.threads =
      Function.update rt.threads thread locals)
    (hpush : ∀ slot event after, (rt.threads thread).pc ≠ .push slot event after)
    (hnext : ∀ slot event after, locals.pc = .push slot event after →
      (rt.threads thread).pc = .countGenerated slot event after) (other : ℕ) :
    (rt'.threads other).pc = (rt.threads other).pc ∨
      (∀ slot event after, (rt.threads other).pc ≠ .push slot event after) ∧
        ∀ slot event after, (rt'.threads other).pc = .push slot event after →
          (rt.threads other).pc = .countGenerated slot event after := by
  rw [hthreads]
  by_cases hother : other = thread
  · subst hother
    rw [Function.update_self]
    exact Or.inr ⟨hpush, hnext⟩
  · rw [Function.update_of_ne hother]
    exact Or.inl rfl

theorem call_quiet {request : EmitRequest}
    (hstep : monitorRuntimeEmit rt thread request = some (rt', os)) : Quiet rt rt' := by
  unfold monitorRuntimeEmit at hstep
  dsimp only at hstep
  split at hstep
  · cases hstep
  · rename_i hpc
    rw [not_not] at hpc
    split at hstep
    all_goals cases hstep
    · exact ⟨fun _ => rfl, fun _ => Or.inl rfl, Or.inl rfl⟩
    · refine ⟨fun _ => rfl, quiet_thread rfl (by simp [hpc]) ?_, Or.inl rfl⟩
      intro slot event after hpush
      unfold registerCurrentThread at hpush
      split at hpush
      · cases hpush
      · split at hpush <;> cases hpush

theorem exit_quiet (hstep : monitorThreadExitDestructor rt thread = some (rt', os)) :
    Quiet rt rt' := by
  unfold monitorThreadExitDestructor at hstep
  dsimp only at hstep
  split at hstep
  · cases hstep
  · split at hstep
    · cases hstep
    · rename_i hpc
      simp only [Bool.or_eq_true, decide_eq_true_eq, not_or, not_not] at hpc
      cases hstep
      refine ⟨fun _ => rfl, quiet_thread rfl (by simp [hpc.1]) ?_, Or.inl rfl⟩
      intro slot event after hpush
      by_cases haccept : rt.acceptEvents = true
      · simp [haccept] at hpush
      · simp [haccept] at hpush

theorem stop_quiet (hstep : stopStep rt = some (rt', os)) : Quiet rt rt' := by
  unfold stopStep at hstep
  cases hpc : rt.stopper with
  | join | loadActive slot count lines =>
    simp only [hpc] at hstep
    repeat' split at hstep
    all_goals cases hstep
    all_goals exact ⟨fun _ => rfl, fun _ => Or.inl rfl, Or.inl rfl⟩
  | finished transport => simp [hpc] at hstep
  | _ =>
    simp only [hpc, Option.some.injEq, Prod.mk.injEq] at hstep
    obtain ⟨rfl, rfl⟩ := hstep
    exact ⟨fun _ => rfl, fun _ => Or.inl rfl, Or.inl rfl⟩

theorem consumer_quiet (hoff : ∀ round popped, rt.consumer ≠ .drain round popped)
    (hstep : consumerStep rt = some (rt', os)) : Quiet rt rt' := by
  have hthreads := (consumer_frame hstep).1
  refine ⟨fun slot => ?_, fun thread => Or.inl (by rw [hthreads]), Or.inr hoff⟩
  unfold consumerStep at hstep
  cases hpc : rt.consumer with
  | drain round popped => exact absurd hpc (hoff round popped)
  | poll round | loadRunning any =>
    simp only [hpc] at hstep
    repeat' split at hstep
    all_goals cases hstep
    all_goals rfl
  | returned => simp [hpc] at hstep
  | account round popped =>
    simp only [hpc, Option.some.injEq, Prod.mk.injEq] at hstep
    obtain ⟨rfl, rfl⟩ := hstep
    exact setContext_agrees (·.queue) rfl
  | _ =>
    simp only [hpc, Option.some.injEq, Prod.mk.injEq] at hstep
    obtain ⟨rfl, rfl⟩ := hstep
    rfl

theorem producer_quiet {environment : Environment}
    (hpush : ∀ slot event after, (rt.threads thread).pc ≠ .push slot event after)
    (hinit : ∀ request slot, (rt.threads thread).pc ≠ .initialise request slot)
    (hstep : producerStep gettid rt thread environment = some (rt', os)) : Quiet rt rt' := by
  unfold producerStep at hstep
  dsimp only at hstep
  cases hpc : (rt.threads thread).pc with
  | outside => simp [hpc] at hstep
  | push slot event after => exact absurd hpc (hpush slot event after)
  | initialise request slot => exact absurd hpc (hinit request slot)
  | exchangeSlot request expected =>
    simp only [hpc] at hstep
    repeat' split at hstep
    all_goals cases hstep
    all_goals exact ⟨fun _ => rfl, quiet_thread rfl hpush (by simp), Or.inl rfl⟩
  | setKey request slot =>
    simp only [hpc] at hstep
    split at hstep
    all_goals cases hstep
    all_goals exact ⟨fun _ => rfl, quiet_thread rfl hpush (by simp), Or.inl rfl⟩
  | countGenerated slot event after =>
    simp only [hpc, Option.some.injEq, Prod.mk.injEq] at hstep
    obtain ⟨rfl, rfl⟩ := hstep
    refine ⟨fun _ => setContext_agrees (·.queue) rfl, quiet_thread rfl hpush ?_, Or.inl rfl⟩
    intro slot' event' after' hnext
    cases hnext
    exact hpc
  | reserve slot request after | activate request slot =>
    simp only [hpc, Option.some.injEq, Prod.mk.injEq] at hstep
    obtain ⟨rfl, rfl⟩ := hstep
    exact ⟨fun _ => setContext_agrees (·.queue) rfl, quiet_thread rfl hpush (by simp), Or.inl rfl⟩
  | countDropped slot after =>
    simp only [hpc, Option.some.injEq, Prod.mk.injEq] at hstep
    obtain ⟨rfl, rfl⟩ := hstep
    refine ⟨fun _ => setContext_agrees (·.queue) rfl, quiet_thread rfl hpush ?_, Or.inl rfl⟩
    intro slot' event' after' hnext
    cases after <;> cases hnext
  | _ =>
    simp only [hpc, Option.some.injEq, Prod.mk.injEq] at hstep
    obtain ⟨rfl, rfl⟩ := hstep
    exact ⟨fun _ => rfl, quiet_thread rfl hpush (by simp), Or.inl rfl⟩

theorem step_quiet {action : Action} (hoff : OffQueues rt action)
    (hstep : step gettid rt action = some (rt', os)) : Quiet rt rt' := by
  cases action with
  | call thread request => exact call_quiet hstep
  | exit thread => exact exit_quiet hstep
  | stop => exact stop_quiet hstep
  | consumer => exact consumer_quiet hoff hstep
  | producer thread environment => exact producer_quiet hoff.1 hoff.2 hstep

end Quiet

end RuntimeMonitor.RuntimeRings
