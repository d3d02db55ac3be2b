import RuntimeMonitor.RingBuffer
import RuntimeMonitor.VerifierCycles

/-!
The runtime as a transition system: application threads inside
`monitor_runtime_emit` or the exit destructor, the consumer loop and
`monitor_runtime_stop`, each at the granularity of its accesses to shared memory.
A queue operation is one step on a bounded list. A pointer to a context is the
index of its slot. Time stamps and the results of library calls come from the
environment.
-/
namespace RuntimeMonitor.MonitorRuntime

open TransitionRuns EventRecord VerifierTables VerifierCycles
open RingBuffer (spscRingCapacity)

abbrev monitorMaxThreads : ℕ := 16

abbrev monitorDrainBatch : ℕ := 64

structure MonitorThreadContext where
  active : Bool := false
  threadId : ℕ := 0
  queue : List MonitorEvent := []
  generated : ℕ := 0
  dropped : ℕ := 0
  nextThreadSequence : ℕ := 0
  consumed : ℕ := 0
  deriving DecidableEq, Repr

/-- The arguments of one `monitor_runtime_emit` call. -/
structure EmitRequest where
  eventType : MonitorEventType
  objectAddress : ℕ
  result : ℤ
  deriving DecidableEq, Repr

/-- The arguments from which an event was built. -/
def requestOf (event : MonitorEvent) : EmitRequest :=
  ⟨event.eventType, event.objectAddress, event.result⟩

/-- What a thread does after the emission of an event. -/
inductive AfterEmission where
  | emit (request : EmitRequest)
  | leave
  | close
  deriving DecidableEq, Repr

/-- The next access of an application thread. -/
inductive ProducerPc where
  | outside
  | loadSlot (request : EmitRequest)
  | exchangeSlot (request : EmitRequest) (expected : ℕ)
  | refuse (request : EmitRequest)
  | initialise (request : EmitRequest) (slot : ℕ)
  | activate (request : EmitRequest) (slot : ℕ)
  | setKey (request : EmitRequest) (slot : ℕ)
  | reserve (slot : ℕ) (request : EmitRequest) (after : AfterEmission)
  | countGenerated (slot : ℕ) (event : MonitorEvent) (after : AfterEmission)
  | push (slot : ℕ) (event : MonitorEvent) (after : AfterEmission)
  | countDropped (slot : ℕ) (after : AfterEmission)
  | leave (slot : ℕ)
  | close (slot : ℕ)
  deriving DecidableEq, Repr

/-- The thread-local variables of one application thread and its position. -/
structure ThreadLocals where
  tlsContext : Option ℕ := none
  tlsRegistrationFailed : Bool := false
  tlsInternalThread : Bool := false
  exitKeyValue : Option ℕ := none
  pc : ProducerPc := .outside
  deriving DecidableEq, Repr

/-- The locals of one round of the consumer. -/
structure Round where
  slot : ℕ
  count : ℕ
  consumedAny : Bool
  deriving DecidableEq, Repr

/-- The next access of the consumer; `popped` is the loop counter of `drain_context`. -/
inductive ConsumerPc where
  | loadCount
  | poll (round : Round)
  | drain (round : Round) (popped : ℕ)
  | process (round : Round) (popped : ℕ) (event : MonitorEvent)
  | account (round : Round) (popped : ℕ)
  | check
  | loadRunning (consumedAny : Bool)
  | returned
  deriving DecidableEq, Repr

/-- One line of the per-thread statistics. -/
structure ContextLine where
  slot : ℕ
  threadId : ℕ
  generated : ℕ
  consumed : ℕ
  dropped : ℕ
  deriving DecidableEq, Repr

/-- The values that `print_transport_summary` has read. -/
structure TransportSummary where
  lines : List ContextLine
  rejected : ℕ
  lifecycleFailures : ℕ
  deriving DecidableEq, Repr

/-- The next access of the thread that calls `monitor_runtime_stop`. -/
inductive StopPc where
  | notCalled
  | storeRunning
  | join
  | loadCount
  | loadActive (slot count : ℕ) (lines : List ContextLine)
  | loadGenerated (slot count : ℕ) (lines : List ContextLine)
  | loadConsumed (slot count : ℕ) (lines : List ContextLine) (generated : ℕ)
  | loadDropped (slot count : ℕ) (lines : List ContextLine) (generated consumed : ℕ)
  | loadUnregistered (lines : List ContextLine)
  | loadLifecycle (lines : List ContextLine) (rejected : ℕ)
  | deleteKey (transport : TransportSummary)
  | finished (transport : TransportSummary)
  deriving DecidableEq, Repr

structure Runtime where
  threadContexts : ℕ → MonitorThreadContext := fun _ => {}
  nextThreadSlot : ℕ := 0
  globalSequence : ℕ := 0
  unregisteredEvents : ℕ := 0
  lifecycleRegistrationFailures : ℕ := 0
  acceptEvents : Bool := true
  consumerRunning : Bool := true
  threadExitKeyReady : Bool := true
  threads : ℕ → ThreadLocals := fun _ => {}
  consumer : ConsumerPc := .loadCount
  stopper : StopPc := .notCalled
  verifier : VerifierState

/-- The state in which `monitor_runtime_start` returns zero. Rounds that the
consumer made before find no context and leave it as it is. -/
def monitorRuntimeStart (maxHoldNs : ℕ) : Runtime :=
  { verifier := monitorVerifierInit maxHoldNs }

/-- What the environment returns during a step of a thread. -/
structure Environment where
  timestampNs : ℕ := 0
  exchangeFails : Bool := false
  setspecificResult : ℤ := 0
  deriving DecidableEq, Repr

inductive Action where
  | call (thread : ℕ) (request : EmitRequest)
  | exit (thread : ℕ)
  | producer (thread : ℕ) (environment : Environment)
  | consumer
  | stop
  deriving DecidableEq, Repr

inductive Observation where
  | claimed (thread slot : ℕ)
  | refused (thread : ℕ) (request : EmitRequest)
  | reserved (thread slot : ℕ) (event : MonitorEvent)
  | pushed (thread slot : ℕ) (event : MonitorEvent)
  | dropped (thread slot : ℕ) (event : MonitorEvent)
  | returned (thread slot : ℕ)
  | roundStarted
  | processed (slot : ℕ) (event : MonitorEvent)
  | checked
  | consumerReturned
  | stopCalled
  | unregisteredRead
  deriving DecidableEq, Repr

def Runtime.setContext (rt : Runtime) (slot : ℕ) (context : MonitorThreadContext) : Runtime :=
  { rt with threadContexts := Function.update rt.threadContexts slot context }

def Runtime.setThread (rt : Runtime) (thread : ℕ) (locals : ThreadLocals) : Runtime :=
  { rt with threads := Function.update rt.threads thread locals }

def Runtime.goto (rt : Runtime) (thread : ℕ) (pc : ProducerPc) : Runtime :=
  rt.setThread thread { rt.threads thread with pc := pc }

section Fields

variable (rt : Runtime) (slot thread : ℕ) (context : MonitorThreadContext)
  (locals : ThreadLocals) (pc : ProducerPc)

@[simp] theorem Runtime.setContext_threadContexts :
    (rt.setContext slot context).threadContexts =
      Function.update rt.threadContexts slot context := rfl

@[simp] theorem Runtime.setContext_threads :
    (rt.setContext slot context).threads = rt.threads := rfl

@[simp] theorem Runtime.setContext_consumer :
    (rt.setContext slot context).consumer = rt.consumer := rfl

@[simp] theorem Runtime.setContext_nextThreadSlot :
    (rt.setContext slot context).nextThreadSlot = rt.nextThreadSlot := rfl

@[simp] theorem Runtime.setThread_threads :
    (rt.setThread thread locals).threads = Function.update rt.threads thread locals := rfl

@[simp] theorem Runtime.setThread_threadContexts :
    (rt.setThread thread locals).threadContexts = rt.threadContexts := rfl

@[simp] theorem Runtime.setThread_consumer :
    (rt.setThread thread locals).consumer = rt.consumer := rfl

@[simp] theorem Runtime.setThread_nextThreadSlot :
    (rt.setThread thread locals).nextThreadSlot = rt.nextThreadSlot := rfl

@[simp] theorem Runtime.goto_threads :
    (rt.goto thread pc).threads =
      Function.update rt.threads thread { rt.threads thread with pc := pc } := rfl

@[simp] theorem Runtime.goto_threadContexts :
    (rt.goto thread pc).threadContexts = rt.threadContexts := rfl

@[simp] theorem Runtime.goto_consumer : (rt.goto thread pc).consumer = rt.consumer := rfl

@[simp] theorem Runtime.goto_nextThreadSlot :
    (rt.goto thread pc).nextThreadSlot = rt.nextThreadSlot := rfl

end Fields

/-- Where a thread goes on after the emission of an event to its context. -/
def AfterEmission.resume (slot : ℕ) : AfterEmission → ProducerPc
  | .emit request => .reserve slot request .leave
  | .leave => .leave slot
  | .close => .close slot

/-- The part of `register_current_thread` before the claim of a slot. -/
def registerCurrentThread (locals : ThreadLocals) (request : EmitRequest) : ProducerPc :=
  match locals.tlsContext with
  | some slot => .reserve slot request .leave
  | none => if locals.tlsRegistrationFailed then .refuse request else .loadSlot request

def threadStart : EmitRequest := ⟨.threadStart, 0, 0⟩

def threadExit : EmitRequest := ⟨.threadExit, 0, 0⟩

/-- The two tests at the start of `monitor_runtime_emit`. -/
def monitorRuntimeEmit (rt : Runtime) (thread : ℕ) (request : EmitRequest) :
    Option (Runtime × List Observation) :=
  let locals := rt.threads thread
  if locals.pc ≠ .outside then none
  else if !rt.acceptEvents || locals.tlsInternalThread then some (rt, [])
  else some (rt.goto thread (registerCurrentThread locals request), [])

/-- The start of `monitor_thread_exit_destructor`, which the thread library calls
for a value that has been set while the key exists, after it has cleared it. -/
def monitorThreadExitDestructor (rt : Runtime) (thread : ℕ) :
    Option (Runtime × List Observation) :=
  let locals := rt.threads thread
  match locals.exitKeyValue with
  | none => none
  | some slot =>
    if locals.pc ≠ .outside || !rt.threadExitKeyReady then none
    else
      some (rt.setThread thread { locals with
        exitKeyValue := none
        pc := if rt.acceptEvents then .reserve slot threadExit .close else .close slot }, [])

/-- The event that `emit_event_to_context` builds. -/
def buildEvent (sequenceId timestampNs : ℕ) (context : MonitorThreadContext)
    (request : EmitRequest) : MonitorEvent where
  sequenceId := sequenceId
  timestampNs := timestampNs
  threadId := context.threadId
  objectAddress := request.objectAddress
  eventType := request.eventType
  result := request.result
  flags := 0
  threadSequence := context.nextThreadSequence

/-- One access of `claim_thread_slot`, `register_current_thread`,
`emit_event_to_context` or the end of the destructor. -/
def producerStep (gettid : ℕ → ℕ) (rt : Runtime) (thread : ℕ) (environment : Environment) :
    Option (Runtime × List Observation) :=
  let locals := rt.threads thread
  match locals.pc with
  | .outside => none
  | .loadSlot request => some (rt.goto thread (.exchangeSlot request rt.nextThreadSlot), [])
  | .exchangeSlot request expected =>
    if expected ≥ monitorMaxThreads then
      some (rt.setThread thread { locals with
        tlsRegistrationFailed := true, pc := .refuse request }, [])
    else if environment.exchangeFails || decide (rt.nextThreadSlot ≠ expected) then
      some (rt.goto thread (.exchangeSlot request rt.nextThreadSlot), [])
    else
      some ({ rt.goto thread (.initialise request expected) with
        nextThreadSlot := expected + 1 }, [.claimed thread expected])
  | .refuse request =>
    some ({ rt.goto thread .outside with
      unregisteredEvents := succ64 rt.unregisteredEvents }, [.refused thread request])
  | .initialise request slot =>
    some ((rt.setContext slot { rt.threadContexts slot with
      queue := []
      threadId := gettid thread
      generated := 0
      dropped := 0
      nextThreadSequence := 0
      consumed := 0 }).goto thread (.activate request slot), [])
  | .activate request slot =>
    some ((rt.setContext slot { rt.threadContexts slot with active := true }).setThread thread
      { locals with tlsContext := some slot, pc := .setKey request slot }, [])
  | .setKey request slot =>
    if rt.threadExitKeyReady ∧ environment.setspecificResult = 0 then
      some (rt.setThread thread { locals with
        exitKeyValue := some slot, pc := .reserve slot threadStart (.emit request) }, [])
    else
      some ({ rt.goto thread (.reserve slot threadStart (.emit request)) with
        lifecycleRegistrationFailures := succ64 rt.lifecycleRegistrationFailures }, [])
  | .reserve slot request after =>
    let context := rt.threadContexts slot
    let event := buildEvent rt.globalSequence environment.timestampNs context request
    some ({ (rt.setContext slot { context with
        nextThreadSequence := succ32 context.nextThreadSequence }).goto thread
          (.countGenerated slot event after) with
      globalSequence := succ64 rt.globalSequence }, [.reserved thread slot event])
  | .countGenerated slot event after =>
    let context := rt.threadContexts slot
    some ((rt.setContext slot { context with generated := succ64 context.generated }).goto
      thread (.push slot event after), [])
  | .push slot event after =>
    let context := rt.threadContexts slot
    if context.queue.length < spscRingCapacity then
      some ((rt.setContext slot { context with queue := context.queue ++ [event] }).goto thread
        (after.resume slot), [.pushed thread slot event])
    else some (rt.goto thread (.countDropped slot after), [.dropped thread slot event])
  | .countDropped slot after =>
    let context := rt.threadContexts slot
    some ((rt.setContext slot { context with dropped := succ64 context.dropped }).goto thread
      (after.resume slot), [])
  | .leave slot => some (rt.goto thread .outside, [.returned thread slot])
  | .close _ =>
    some (rt.setThread thread { locals with tlsContext := none, pc := .outside }, [])

/-- The round goes on with the next slot. -/
def Round.next (round : Round) (popped : ℕ) : Round :=
  { round with slot := round.slot + 1, consumedAny := round.consumedAny || decide (0 < popped) }

/-- One access of `monitor_consumer_main` and `drain_context`. -/
def consumerStep (rt : Runtime) : Option (Runtime × List Observation) :=
  match rt.consumer with
  | .loadCount =>
    some ({ rt with consumer := .poll ⟨0, rt.nextThreadSlot, false⟩ }, [.roundStarted])
  | .poll round =>
    if round.slot < round.count then
      if (rt.threadContexts round.slot).active then
        some ({ rt with consumer := .drain round 0 }, [])
      else some ({ rt with consumer := .poll (round.next 0) }, [])
    else if round.consumedAny then some ({ rt with consumer := .loadRunning true }, [])
    else some ({ rt with consumer := .check }, [])
  | .drain round popped =>
    let context := rt.threadContexts round.slot
    if popped ≥ monitorDrainBatch then
      some ({ rt with consumer := .poll (round.next popped) }, [])
    else
      match context.queue with
      | [] => some ({ rt with consumer := .poll (round.next popped) }, [])
      | event :: rest =>
        some ({ rt.setContext round.slot { context with queue := rest } with
          consumer := .process round popped event }, [])
  | .process round popped event =>
    some ({ rt with
      verifier := applyCall rt.verifier (.processEvent event)
      consumer := .account round popped }, [.processed round.slot event])
  | .account round popped =>
    let context := rt.threadContexts round.slot
    some ({ rt.setContext round.slot { context with consumed := succ64 context.consumed } with
      consumer := .drain round (popped + 1) }, [])
  | .check =>
    some ({ rt with
      verifier := applyCall rt.verifier .checkDeadlocks
      consumer := .loadRunning false }, [.checked])
  | .loadRunning consumedAny =>
    if !rt.consumerRunning && !consumedAny then
      some ({ rt with consumer := .returned }, [.consumerReturned])
    else some ({ rt with consumer := .loadCount }, [])
  | .returned => none

/-- One access of `monitor_runtime_stop` and `print_transport_summary`. -/
def stopStep (rt : Runtime) : Option (Runtime × List Observation) :=
  match rt.stopper with
  | .notCalled =>
    some ({ rt with acceptEvents := false, stopper := .storeRunning }, [.stopCalled])
  | .storeRunning => some ({ rt with consumerRunning := false, stopper := .join }, [])
  | .join =>
    if rt.consumer = .returned then some ({ rt with stopper := .loadCount }, []) else none
  | .loadCount => some ({ rt with stopper := .loadActive 0 rt.nextThreadSlot [] }, [])
  | .loadActive slot count lines =>
    if slot < count then
      if (rt.threadContexts slot).active then
        some ({ rt with stopper := .loadGenerated slot count lines }, [])
      else some ({ rt with stopper := .loadActive (slot + 1) count lines }, [])
    else some ({ rt with stopper := .loadUnregistered lines }, [])
  | .loadGenerated slot count lines =>
    some ({ rt with
      stopper := .loadConsumed slot count lines (rt.threadContexts slot).generated }, [])
  | .loadConsumed slot count lines generated =>
    some ({ rt with
      stopper := .loadDropped slot count lines generated (rt.threadContexts slot).consumed }, [])
  | .loadDropped slot count lines generated consumed =>
    let context := rt.threadContexts slot
    some ({ rt with
      stopper := .loadActive (slot + 1) count
        (lines ++ [⟨slot, context.threadId, generated, consumed, context.dropped⟩]) }, [])
  | .loadUnregistered lines =>
    some ({ rt with stopper := .loadLifecycle lines rt.unregisteredEvents }, [.unregisteredRead])
  | .loadLifecycle lines rejected =>
    some ({ rt with
      stopper := .deleteKey ⟨lines, rejected, rt.lifecycleRegistrationFailures⟩ }, [])
  | .deleteKey transport =>
    some ({ rt with threadExitKeyReady := false, stopper := .finished transport }, [])
  | .finished _ => none

def step (gettid : ℕ → ℕ) : Stepper Runtime Action Observation
  | rt, .call thread request => monitorRuntimeEmit rt thread request
  | rt, .exit thread => monitorThreadExitDestructor rt thread
  | rt, .producer thread environment => producerStep gettid rt thread environment
  | rt, .consumer => consumerStep rt
  | rt, .stop => stopStep rt

/-- An emit call of an example run, with the steps of the thread that complete it. -/
def emission (thread : ℕ) (type : MonitorEventType) (address steps : ℕ) : List Action :=
  .call thread ⟨type, address, 0⟩ :: List.replicate steps (.producer thread {})

/-- The first emit call of a thread, with its registration. -/
def firstEmission (thread : ℕ) (type : MonitorEventType) (address : ℕ) : List Action :=
  emission thread type address 12

/-- A later emit call of a registered thread. -/
def laterEmission (thread : ℕ) (type : MonitorEventType) (address : ℕ) : List Action :=
  emission thread type address 4

end RuntimeMonitor.MonitorRuntime
