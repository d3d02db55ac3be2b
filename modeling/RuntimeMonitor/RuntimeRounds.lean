import RuntimeMonitor.RuntimeAccounts

/-!
Runs made of whole calls and rounds: an emission to a queue with room, an emission to a
full queue, rounds that take whole batches from one queue, and a round that finds every
queue empty.
-/
namespace RuntimeMonitor.RuntimeRounds

open TransitionRuns EventRecord VerifierEvents VerifierCycles MonitorRuntime SlotOwnership
open RuntimeStreams
open RingBuffer (spscRingCapacity)

variable {gettid : ℕ → ℕ} {rt : Runtime} {thread slot : ℕ}

/-- The thread is between its calls and emits to the slot. -/
structure Emits (rt : Runtime) (thread slot : ℕ) : Prop where
  pc : (rt.threads thread).pc = .outside
  context : (rt.threads thread).tlsContext = some slot
  internal : (rt.threads thread).tlsInternalThread = false
  accepting : rt.acceptEvents = true

/-- The event that the next emission builds. -/
def nextEvent (rt : Runtime) (slot : ℕ) (type : MonitorEventType) (address : ℕ) : MonitorEvent :=
  buildEvent rt.globalSequence 0 (rt.threadContexts slot) ⟨type, address, 0⟩

/-- The state behind an emission, whether its event was accepted or dropped. -/
structure Emitted (rt rt' : Runtime) (thread slot : ℕ) (queue : List MonitorEvent) : Prop where
  emits : Emits rt' thread slot
  queued : (rt'.threadContexts slot).queue = queue
  others : ∀ slot', slot' ≠ slot → rt'.threadContexts slot' = rt.threadContexts slot'
  active : (rt'.threadContexts slot).active = (rt.threadContexts slot).active
  identity : (rt'.threadContexts slot).threadId = (rt.threadContexts slot).threadId
  local_ : (rt'.threadContexts slot).nextThreadSequence =
    succ32 (rt.threadContexts slot).nextThreadSequence
  global : rt'.globalSequence = succ64 rt.globalSequence
  count : rt'.nextThreadSlot = rt.nextThreadSlot
  running : rt'.consumerRunning = rt.consumerRunning
  consumer : rt'.consumer = rt.consumer
  verifier : rt'.verifier = rt.verifier

/-- The emission up to the push. -/
def beforePush (rt : Runtime) (thread slot : ℕ) (event : MonitorEvent) : Runtime :=
  { rt.setContext slot { rt.threadContexts slot with
      nextThreadSequence := succ32 (rt.threadContexts slot).nextThreadSequence
      generated := succ64 (rt.threadContexts slot).generated } with
    globalSequence := succ64 rt.globalSequence
    threads := Function.update rt.threads thread
      { rt.threads thread with pc := .push slot event .leave } }

theorem run_beforePush (h : Emits rt thread slot) (type : MonitorEventType) (address : ℕ) :
    Run (step gettid) rt [.reserved thread slot (nextEvent rt slot type address)]
      (beforePush rt thread slot (nextEvent rt slot type address)) := by
  have hcall : step gettid rt (.call thread ⟨type, address, 0⟩) =
      some (rt.goto thread (.reserve slot ⟨type, address, 0⟩ .leave), []) := by
    simp [step, monitorRuntimeEmit, registerCurrentThread, h.pc, h.context, h.internal,
      h.accepting]
  have hreserve : step gettid (rt.goto thread (.reserve slot ⟨type, address, 0⟩ .leave))
      (.producer thread {}) =
      some ({ rt.setContext slot { rt.threadContexts slot with
          nextThreadSequence := succ32 (rt.threadContexts slot).nextThreadSequence } with
        globalSequence := succ64 rt.globalSequence
        threads := Function.update rt.threads thread { rt.threads thread with
          pc := .countGenerated slot (nextEvent rt slot type address) .leave } },
        [.reserved thread slot (nextEvent rt slot type address)]) := by
    simp [step, producerStep, nextEvent, Runtime.goto, Runtime.setThread, Runtime.setContext]
  have hcount : step gettid { rt.setContext slot { rt.threadContexts slot with
          nextThreadSequence := succ32 (rt.threadContexts slot).nextThreadSequence } with
        globalSequence := succ64 rt.globalSequence
        threads := Function.update rt.threads thread { rt.threads thread with
          pc := .countGenerated slot (nextEvent rt slot type address) .leave } }
      (.producer thread {}) =
      some (beforePush rt thread slot (nextEvent rt slot type address), []) := by
    simp [step, producerStep, beforePush, Runtime.goto, Runtime.setThread, Runtime.setContext]
  exact ((Run.single hcall).trans (Run.single hreserve)).trans (Run.single hcount)

theorem beforePush_emitted (h : Emits rt thread slot) (event : MonitorEvent)
    {context : MonitorThreadContext} {rt' : Runtime}
    (hactive : context.active = (rt.threadContexts slot).active)
    (hidentity : context.threadId = (rt.threadContexts slot).threadId)
    (hlocal : context.nextThreadSequence =
      succ32 (rt.threadContexts slot).nextThreadSequence)
    (heq : rt' = { (beforePush rt thread slot event).setContext slot context with
      threads := rt.threads }) : Emitted rt rt' thread slot context.queue := by
  subst heq
  constructor
  · exact ⟨h.pc, h.context, h.internal, h.accepting⟩
  · simp
  · intro slot' hne
    simp [beforePush, Function.update_of_ne hne]
  · simp [hactive]
  · simp [hidentity]
  · simp [hlocal]
  all_goals rfl

theorem leave_threads (h : Emits rt thread slot) (pc : ProducerPc) :
    Function.update (Function.update rt.threads thread { rt.threads thread with pc := pc }) thread
      { rt.threads thread with pc := .outside } = rt.threads := by
  have hsame : { rt.threads thread with pc := .outside } = rt.threads thread := by
    rw [← h.pc]
  rw [Function.update_idem, hsame, Function.update_eq_self]

theorem run_leave (h : Emits rt thread slot) {rt' : Runtime}
    (hthreads : rt'.threads =
      Function.update rt.threads thread { rt.threads thread with pc := .leave slot }) :
    Run (step gettid) rt' [.returned thread slot] { rt' with threads := rt.threads } := by
  have hsame := leave_threads h (.leave slot)
  have hstep : step gettid rt' (.producer thread {}) =
      some ({ rt' with threads := rt.threads }, [.returned thread slot]) := by
    simp only [step, producerStep, hthreads, Function.update_self, Runtime.goto,
      Runtime.setThread, hsame]
  exact Run.single hstep

/-- An emission to a queue with room. -/
theorem run_pushed (h : Emits rt thread slot) (type : MonitorEventType) (address : ℕ)
    (hroom : (rt.threadContexts slot).queue.length < spscRingCapacity) :
    ∃ rt', Run (step gettid) rt [.reserved thread slot (nextEvent rt slot type address),
        .pushed thread slot (nextEvent rt slot type address), .returned thread slot] rt' ∧
      Emitted rt rt' thread slot
        ((rt.threadContexts slot).queue ++ [nextEvent rt slot type address]) := by
  generalize hevent : nextEvent rt slot type address = event
  have hbefore := @run_beforePush gettid _ _ _ h type address
  rw [hevent] at hbefore
  have hpush : step gettid (beforePush rt thread slot event) (.producer thread {}) =
      some ({ (beforePush rt thread slot event).setContext slot
          { (beforePush rt thread slot event).threadContexts slot with
            queue := (rt.threadContexts slot).queue ++ [event] } with
        threads := Function.update rt.threads thread
          { rt.threads thread with pc := .leave slot } }, [.pushed thread slot event]) := by
    simp [step, producerStep, beforePush, Runtime.goto, Runtime.setThread, Runtime.setContext,
      AfterEmission.resume, hroom]
  refine ⟨_, (hbefore.trans (Run.single hpush)).trans (run_leave h rfl), ?_⟩
  refine beforePush_emitted h event ?_ ?_ ?_ rfl <;> simp [beforePush]

/-- An emission to a full queue. -/
theorem run_dropped (h : Emits rt thread slot) (type : MonitorEventType) (address : ℕ)
    (hfull : ¬ (rt.threadContexts slot).queue.length < spscRingCapacity) :
    ∃ rt', Run (step gettid) rt [.reserved thread slot (nextEvent rt slot type address),
        .dropped thread slot (nextEvent rt slot type address), .returned thread slot] rt' ∧
      Emitted rt rt' thread slot (rt.threadContexts slot).queue := by
  generalize hevent : nextEvent rt slot type address = event
  have hbefore := @run_beforePush gettid _ _ _ h type address
  rw [hevent] at hbefore
  have hpush : step gettid (beforePush rt thread slot event) (.producer thread {}) =
      some ({ beforePush rt thread slot event with
        threads := Function.update rt.threads thread
          { rt.threads thread with pc := .countDropped slot .leave } },
        [.dropped thread slot event]) := by
    simp [step, producerStep, beforePush, Runtime.goto, Runtime.setThread, Runtime.setContext,
      hfull]
  have hcount : step gettid { beforePush rt thread slot event with
        threads := Function.update rt.threads thread
          { rt.threads thread with pc := .countDropped slot .leave } } (.producer thread {}) =
      some ({ (beforePush rt thread slot event).setContext slot
          { (beforePush rt thread slot event).threadContexts slot with
            dropped := succ64 (rt.threadContexts slot).dropped } with
        threads := Function.update rt.threads thread
          { rt.threads thread with pc := .leave slot } }, []) := by
    simp [step, producerStep, beforePush, Runtime.goto, Runtime.setThread, Runtime.setContext,
      AfterEmission.resume]
  refine ⟨_, ((hbefore.trans (Run.single hpush)).trans (Run.single hcount)).trans
    (run_leave h rfl), ?_⟩
  have hqueue : ({ (beforePush rt thread slot event).threadContexts slot with
      dropped := succ64 (rt.threadContexts slot).dropped } : MonitorThreadContext).queue =
      (rt.threadContexts slot).queue := by simp [beforePush]
  rw [← hqueue]
  refine beforePush_emitted h event ?_ ?_ ?_ rfl <;> simp [beforePush]

/-- The events of a number of emissions in a row that build the same request. -/
def burst (rt : Runtime) (slot : ℕ) (type : MonitorEventType) (address count : ℕ) :
    List MonitorEvent :=
  (List.range count).map fun k => { nextEvent rt slot type address with
    sequenceId := rt.globalSequence + k
    threadSequence := (rt.threadContexts slot).nextThreadSequence + k }

/-- What is observed of emissions to a queue with room. -/
def pushedEach (thread slot : ℕ) (events : List MonitorEvent) : List Observation :=
  events.flatMap fun event =>
    [.reserved thread slot event, .pushed thread slot event, .returned thread slot]

theorem pushedEach_attempted (thread slot : ℕ) (events : List MonitorEvent) :
    claimants (pushedEach thread slot events) = [] ∧
      (pushedEach thread slot events).filterMap attemptedEvent = events.map ((slot, ·)) := by
  induction events with
  | nil => exact ⟨rfl, rfl⟩
  | cons event rest ih =>
    obtain ⟨hclaims, hattempts⟩ := ih
    exact ⟨hclaims, congrArg ((slot, event) :: ·) hattempts⟩

/-- The state behind a number of emissions. -/
structure BurstEmitted (rt rt' : Runtime) (thread slot count : ℕ) (queue : List MonitorEvent) :
    Prop where
  emits : Emits rt' thread slot
  queued : (rt'.threadContexts slot).queue = queue
  others : ∀ slot', slot' ≠ slot → rt'.threadContexts slot' = rt.threadContexts slot'
  active : (rt'.threadContexts slot).active = (rt.threadContexts slot).active
  identity : (rt'.threadContexts slot).threadId = (rt.threadContexts slot).threadId
  local_ : (rt'.threadContexts slot).nextThreadSequence =
    (rt.threadContexts slot).nextThreadSequence + count
  global : rt'.globalSequence = rt.globalSequence + count
  count : rt'.nextThreadSlot = rt.nextThreadSlot
  running : rt'.consumerRunning = rt.consumerRunning
  consumer : rt'.consumer = rt.consumer
  verifier : rt'.verifier = rt.verifier

theorem burst_length (rt : Runtime) (slot : ℕ) (type : MonitorEventType) (address count : ℕ) :
    (burst rt slot type address count).length = count := by
  rw [burst, List.length_map, List.length_range]

theorem burst_succ (rt : Runtime) (slot : ℕ) (type : MonitorEventType) (address count : ℕ) :
    burst rt slot type address (count + 1) = burst rt slot type address count ++
      [{ nextEvent rt slot type address with
        sequenceId := rt.globalSequence + count
        threadSequence := (rt.threadContexts slot).nextThreadSequence + count }] := by
  unfold burst
  rw [List.range_succ, List.map_append]
  rfl

theorem mem_burst {type : MonitorEventType} {address count : ℕ} {event : MonitorEvent}
    (h : event ∈ burst rt slot type address count) :
    event.eventType = type ∧ event.objectAddress = address := by
  obtain ⟨k, -, rfl⟩ := List.mem_map.mp h
  exact ⟨rfl, rfl⟩

/-- Emissions in a row to a queue with room for all of them, without wrap-around. -/
theorem run_burst (h : Emits rt thread slot) (type : MonitorEventType) (address count : ℕ)
    (hroom : (rt.threadContexts slot).queue.length + count ≤ spscRingCapacity)
    (hlocal : (rt.threadContexts slot).nextThreadSequence + count < 2 ^ 32)
    (hglobal : rt.globalSequence + count < 2 ^ 64) :
    ∃ rt', Run (step gettid) rt
        (pushedEach thread slot (burst rt slot type address count)) rt' ∧
      BurstEmitted rt rt' thread slot count
        ((rt.threadContexts slot).queue ++ burst rt slot type address count) := by
  induction count with
  | zero =>
    exact ⟨rt, Run.nil rt, h, (List.append_nil _).symm, fun _ _ => rfl, rfl, rfl, rfl, rfl, rfl,
      rfl, rfl, rfl⟩
  | succ count ih =>
    obtain ⟨rt₁, hrun, hb⟩ := ih (by omega) (by omega) (by omega)
    obtain ⟨rt₂, hstep, he⟩ := @run_pushed gettid rt₁ thread slot hb.emits type address (by
      rw [hb.queued, List.length_append, burst_length]
      omega)
    have hevent : nextEvent rt₁ slot type address = { nextEvent rt slot type address with
        sequenceId := rt.globalSequence + count
        threadSequence := (rt.threadContexts slot).nextThreadSequence + count } := by
      unfold nextEvent buildEvent
      rw [hb.global, hb.local_, hb.identity]
    rw [hevent] at hstep he
    rw [hb.queued, List.append_assoc, ← burst_succ] at he
    refine ⟨rt₂, ?_, he.emits, he.queued, fun slot' hne => (he.others slot' hne).trans
      (hb.others slot' hne), he.active.trans hb.active, he.identity.trans hb.identity, ?_, ?_,
      he.count.trans hb.count, he.running.trans hb.running, he.consumer.trans hb.consumer,
      he.verifier.trans hb.verifier⟩
    · rw [burst_succ, pushedEach, List.flatMap_append]
      exact hrun.trans hstep
    · rw [he.local_, hb.local_]
      unfold succ32
      omega
    · rw [he.global, hb.global]
      unfold succ64
      omega

/-- The threads are where they were. -/
structure SameThreads (rt rt' : Runtime) : Prop where
  threads : rt'.threads = rt.threads
  accepting : rt'.acceptEvents = rt.acceptEvents

theorem SameThreads.trans {rt' rt'' : Runtime} (h : SameThreads rt rt')
    (h' : SameThreads rt' rt'') : SameThreads rt rt'' :=
  ⟨h'.threads.trans h.threads, h'.accepting.trans h.accepting⟩

theorem SameThreads.emits {rt' : Runtime} (h : SameThreads rt rt') (he : Emits rt thread slot) :
    Emits rt' thread slot := by
  constructor
  · rw [h.threads]
    exact he.pc
  · rw [h.threads]
    exact he.context
  · rw [h.threads]
    exact he.internal
  · rw [h.accepting]
    exact he.accepting

/-- What the consumer leaves alone while it takes events from the queue of a slot. -/
structure TakesFrom (rt rt' : Runtime) (slot : ℕ) : Prop where
  same : SameThreads rt rt'
  count : rt'.nextThreadSlot = rt.nextThreadSlot
  running : rt'.consumerRunning = rt.consumerRunning
  active : ∀ slot', (rt'.threadContexts slot').active = (rt.threadContexts slot').active
  others : ∀ slot', slot' ≠ slot →
    (rt'.threadContexts slot').queue = (rt.threadContexts slot').queue

theorem TakesFrom.trans {rt' rt'' : Runtime} (h : TakesFrom rt rt' slot)
    (h' : TakesFrom rt' rt'' slot) : TakesFrom rt rt'' slot where
  same := h.same.trans h'.same
  count := h'.count.trans h.count
  running := h'.running.trans h.running
  active slot' := (h'.active slot').trans (h.active slot')
  others slot' hne := (h'.others slot' hne).trans (h.others slot' hne)

theorem takesFrom_setContext {context : MonitorThreadContext} {rt' : Runtime}
    (hsame : SameThreads rt rt')
    (hcontexts : rt'.threadContexts = Function.update rt.threadContexts slot context)
    (hactive : context.active = (rt.threadContexts slot).active)
    (hcount : rt'.nextThreadSlot = rt.nextThreadSlot)
    (hrunning : rt'.consumerRunning = rt.consumerRunning) : TakesFrom rt rt' slot := by
  refine ⟨hsame, hcount, hrunning, fun slot' => ?_, fun slot' hne => ?_⟩
  · rw [hcontexts]
    by_cases heq : slot' = slot
    · rw [heq, Function.update_self, hactive]
    · rw [Function.update_of_ne heq]
  · rw [hcontexts, Function.update_of_ne hne]

/-- The three steps that take one event from the queue and process it. -/
theorem run_pop {round : Round} {popped : ℕ} {event : MonitorEvent} {rest : List MonitorEvent}
    (hpc : rt.consumer = .drain round popped) (hbatch : popped < monitorDrainBatch)
    (hqueue : (rt.threadContexts round.slot).queue = event :: rest) :
    ∃ rt', Run (step gettid) rt [.processed round.slot event] rt' ∧
      TakesFrom rt rt' round.slot ∧ rt'.consumer = .drain round (popped + 1) ∧
      (rt'.threadContexts round.slot).queue = rest ∧
      rt'.verifier = monitorVerifierProcessEvent rt.verifier event := by
  have hpop : step gettid rt .consumer =
      some ({ rt.setContext round.slot { rt.threadContexts round.slot with queue := rest } with
        consumer := .process round popped event }, []) := by
    simp [step, consumerStep, hpc, hqueue, hbatch]
  have hprocess : step gettid
      { rt.setContext round.slot { rt.threadContexts round.slot with queue := rest } with
        consumer := .process round popped event } .consumer =
      some ({ rt.setContext round.slot { rt.threadContexts round.slot with queue := rest } with
        verifier := monitorVerifierProcessEvent rt.verifier event
        consumer := .account round popped }, [.processed round.slot event]) := rfl
  have haccount : step gettid
      { rt.setContext round.slot { rt.threadContexts round.slot with queue := rest } with
        verifier := monitorVerifierProcessEvent rt.verifier event
        consumer := .account round popped } .consumer =
      some ({ rt.setContext round.slot { rt.threadContexts round.slot with
          queue := rest
          consumed := succ64 (rt.threadContexts round.slot).consumed } with
        verifier := monitorVerifierProcessEvent rt.verifier event
        consumer := .drain round (popped + 1) }, []) := by
    simp [step, consumerStep, Runtime.setContext]
  refine ⟨_, ((Run.single hpop).trans (Run.single hprocess)).trans (Run.single haccount),
    takesFrom_setContext ⟨rfl, rfl⟩ rfl rfl rfl rfl, rfl, ?_, rfl⟩
  simp

/-- A part of a batch. -/
theorem run_pops {round : Round} {popped : ℕ} {events rest : List MonitorEvent}
    (hpc : rt.consumer = .drain round popped)
    (hbatch : popped + events.length ≤ monitorDrainBatch)
    (hqueue : (rt.threadContexts round.slot).queue = events ++ rest) :
    ∃ rt', Run (step gettid) rt (events.map (.processed round.slot)) rt' ∧
      TakesFrom rt rt' round.slot ∧ rt'.consumer = .drain round (popped + events.length) ∧
      (rt'.threadContexts round.slot).queue = rest ∧
      rt'.verifier = processAll rt.verifier events := by
  induction events generalizing rt popped with
  | nil =>
    exact ⟨rt, Run.nil rt, ⟨⟨rfl, rfl⟩, rfl, rfl, fun _ => rfl, fun _ _ => rfl⟩, hpc, hqueue, rfl⟩
  | cons event events ih =>
    rw [List.length_cons] at hbatch
    obtain ⟨rt₁, hfirst, htakes, hpc₁, hqueue₁, hverifier₁⟩ :=
      @run_pop gettid rt round popped event (events ++ rest) hpc (by omega) hqueue
    obtain ⟨rt₂, hrest, htakes', hpc₂, hqueue₂, hverifier₂⟩ := ih hpc₁ (by omega) hqueue₁
    refine ⟨rt₂, hfirst.trans hrest, htakes.trans htakes', ?_, hqueue₂, ?_⟩
    · rw [hpc₂, List.length_cons, Nat.add_assoc, Nat.add_comm 1]
    · rw [hverifier₂, hverifier₁]
      rfl

/-- The consumer is about to begin a round, with events in the queue of the first slot
only. -/
structure Draining (rt : Runtime) (slots : ℕ) (queue : List MonitorEvent) : Prop where
  consumer : rt.consumer = .loadCount
  count : rt.nextThreadSlot = slots
  some_slot : 0 < slots
  running : rt.consumerRunning = true
  active : ∀ slot < slots, (rt.threadContexts slot).active = true
  first : (rt.threadContexts 0).queue = queue
  others : ∀ slot < slots, 0 < slot → (rt.threadContexts slot).queue = []

/-- Another content of the first queue. -/
theorem Draining.refill {rt' : Runtime} {slots : ℕ} {queue queue' : List MonitorEvent}
    (h : Draining rt slots queue) (hqueued : (rt'.threadContexts 0).queue = queue')
    (hactive : (rt'.threadContexts 0).active = (rt.threadContexts 0).active)
    (hothers : ∀ slot, slot ≠ 0 → rt'.threadContexts slot = rt.threadContexts slot)
    (hcount : rt'.nextThreadSlot = rt.nextThreadSlot)
    (hrunning : rt'.consumerRunning = rt.consumerRunning)
    (hconsumer : rt'.consumer = rt.consumer) : Draining rt' slots queue' where
  consumer := hconsumer.trans h.consumer
  count := hcount.trans h.count
  some_slot := h.some_slot
  running := hrunning.trans h.running
  active slot hlt := by
    rcases Nat.eq_zero_or_pos slot with rfl | hpos
    · rw [hactive]
      exact h.active 0 hlt
    · rw [hothers slot hpos.ne']
      exact h.active slot hlt
  first := hqueued
  others slot hlt hpos := by
    rw [hothers slot hpos.ne']
    exact h.others slot hlt hpos

theorem Emitted.draining {rt' : Runtime} {slots : ℕ} {queue queue' : List MonitorEvent}
    (he : Emitted rt rt' thread 0 queue') (h : Draining rt slots queue) :
    Draining rt' slots queue' :=
  h.refill he.queued he.active he.others he.count he.running he.consumer

theorem BurstEmitted.draining {rt' : Runtime} {slots count : ℕ} {queue queue' : List MonitorEvent}
    (hb : BurstEmitted rt rt' thread 0 count queue') (h : Draining rt slots queue) :
    Draining rt' slots queue' :=
  h.refill hb.queued hb.active hb.others hb.count hb.running hb.consumer

/-- The event that a thread builds behind as many events as a queue holds. -/
def lostEvent (rt : Runtime) (type : MonitorEventType) (address : ℕ) : MonitorEvent :=
  { nextEvent rt 0 type address with
    sequenceId := rt.globalSequence + spscRingCapacity
    threadSequence := (rt.threadContexts 0).nextThreadSequence + spscRingCapacity }

/-- A thread fills the queue of the first slot and loses its next event. -/
theorem run_overfilled {slots : ℕ} (hd : Draining rt slots []) (h : Emits rt thread 0)
    (hlocal : (rt.threadContexts 0).nextThreadSequence + spscRingCapacity < 2 ^ 32)
    (hglobal : rt.globalSequence + spscRingCapacity < 2 ^ 64) (type : MonitorEventType)
    (address : ℕ) {fills : List MonitorEvent} {lost : MonitorEvent}
    (hfills : burst rt 0 .unlockRequest 0 spscRingCapacity = fills)
    (hlost : lostEvent rt type address = lost) :
    ∃ rt', Run (step gettid) rt (pushedEach thread 0 fills ++
        [.reserved thread 0 lost, .dropped thread 0 lost, .returned thread 0]) rt' ∧
      Draining rt' slots fills ∧ Emits rt' thread 0 ∧ rt'.verifier = rt.verifier := by
  obtain ⟨rt₁, hfill, hb⟩ := @run_burst gettid rt thread 0 h .unlockRequest 0 spscRingCapacity
    (by rw [hd.first]; exact (Nat.zero_add _).le) hlocal hglobal
  rw [hd.first, List.nil_append, hfills] at hb
  rw [hfills] at hfill
  obtain ⟨rt₂, hdrop, he⟩ := @run_dropped gettid rt₁ thread 0 hb.emits type address (by
    rw [hb.queued, ← hfills, burst_length]
    exact lt_irrefl _)
  have hnext : nextEvent rt₁ 0 type address = lost := by
    rw [← hlost]
    unfold lostEvent nextEvent buildEvent
    rw [hb.global, hb.local_, hb.identity]
  rw [hnext] at hdrop
  rw [hb.queued] at he
  exact ⟨rt₂, hfill.trans hdrop, he.draining (hb.draining hd), he.emits,
    he.verifier.trans hb.verifier⟩

/-- The rest of a round that finds its queues empty. -/
theorem run_polls {round : Round} (slots : ℕ) (hcount : round.count = round.slot + slots)
    (hactive : ∀ slot, round.slot ≤ slot → slot < round.count →
      (rt.threadContexts slot).active = true)
    (hempty : ∀ slot, round.slot ≤ slot → slot < round.count →
      (rt.threadContexts slot).queue = []) :
    Run (step gettid) { rt with consumer := .poll round } []
      { rt with consumer := .poll { round with slot := round.count } } := by
  induction slots generalizing round with
  | zero =>
    have hlast : { round with slot := round.count } = round := by
      obtain ⟨slot, count, consumedAny⟩ := round
      obtain rfl : count = slot := hcount
      rfl
    rw [hlast]
    exact Run.nil _
  | succ slots ih =>
    have hpoll : step gettid { rt with consumer := .poll round } .consumer =
        some ({ rt with consumer := .drain round 0 }, []) := by
      have hlt : round.slot < round.count := by omega
      simp [step, consumerStep, hlt, hactive round.slot le_rfl hlt]
    have hnext : step gettid { rt with consumer := .drain round 0 } .consumer =
        some ({ rt with consumer := .poll { round with slot := round.slot + 1 } }, []) := by
      simp [step, consumerStep, hempty round.slot le_rfl (by omega), Round.next]
    have hrest := @ih { round with slot := round.slot + 1 } (by dsimp only; omega)
      (fun slot hle hlt => hactive slot (Nat.le_of_succ_le hle) hlt)
      (fun slot hle hlt => hempty slot (Nat.le_of_succ_le hle) hlt)
    exact ((Run.single hpoll).trans (Run.single hnext)).trans hrest

/-- A round that takes a whole batch, or the last events, from the first slot. -/
theorem run_batch {slots : ℕ} {events rest : List MonitorEvent}
    (h : Draining rt slots (events ++ rest)) (hsome : 0 < events.length)
    (hbatch : events.length ≤ monitorDrainBatch)
    (hends : events.length = monitorDrainBatch ∨ rest = []) :
    ∃ rt', Run (step gettid) rt (.roundStarted :: events.map (.processed 0)) rt' ∧
      Draining rt' slots rest ∧ rt'.verifier = processAll rt.verifier events ∧
      SameThreads rt rt' := by
  have hload : step gettid rt .consumer =
      some ({ rt with consumer := .poll ⟨0, slots, false⟩ }, [.roundStarted]) := by
    simp [step, consumerStep, h.consumer, h.count]
  have hpoll : step gettid { rt with consumer := .poll ⟨0, slots, false⟩ } .consumer =
      some ({ rt with consumer := .drain ⟨0, slots, false⟩ 0 }, []) := by
    simp [step, consumerStep, h.some_slot, h.active 0 h.some_slot]
  obtain ⟨rt₁, hpops, htakes, hpc, hqueue, hverifier⟩ :=
    @run_pops gettid { rt with consumer := .drain ⟨0, slots, false⟩ 0 } ⟨0, slots, false⟩ 0
      events rest rfl (by omega) h.first
  have hactive : ∀ slot < slots, (rt₁.threadContexts slot).active = true := fun slot hslot =>
    (htakes.active slot).trans (h.active slot hslot)
  have hothers : ∀ slot < slots, 0 < slot → (rt₁.threadContexts slot).queue = [] :=
    fun slot hslot hpos => (htakes.others slot hpos.ne').trans (h.others slot hslot hpos)
  have hend : step gettid rt₁ .consumer =
      some ({ rt₁ with consumer := .poll ⟨1, slots, true⟩ }, []) := by
    rcases hends with hwhole | rfl
    · simp [step, consumerStep, hpc, hwhole, Round.next]
    · by_cases hwhole : events.length = monitorDrainBatch
      · simp [step, consumerStep, hpc, hwhole, Round.next]
      · have hlt : ¬ monitorDrainBatch ≤ events.length := by omega
        simp [step, consumerStep, hpc, hlt, hqueue, Round.next, hsome]
  have hpolls := @run_polls gettid rt₁ ⟨1, slots, true⟩ (slots - 1)
    (by have := h.some_slot; dsimp only; omega) (fun slot _ hlt => hactive slot hlt)
    (fun slot hle hlt => hothers slot hlt hle)
  have hbusy : step gettid { rt₁ with consumer := .poll ⟨slots, slots, true⟩ } .consumer =
      some ({ rt₁ with consumer := .loadRunning true }, []) := by
    simp [step, consumerStep]
  have hagain : step gettid { rt₁ with consumer := .loadRunning true } .consumer =
      some ({ rt₁ with consumer := .loadCount }, []) := by
    simp [step, consumerStep]
  have hpolled := ((Run.single hload).trans (Run.single hpoll)).trans hpops
  have hrun := (((hpolled.trans (Run.single hend)).trans hpolls).trans
    (Run.single hbusy)).trans (Run.single hagain)
  simp only [List.append_nil] at hrun
  exact ⟨_, hrun, ⟨rfl, htakes.count.trans h.count, h.some_slot, htakes.running.trans h.running,
    hactive, hqueue, hothers⟩, hverifier, ⟨htakes.same.threads, htakes.same.accepting⟩⟩

/-- No slot is claimed and no push attempted. -/
def NoAttempts (tr : List Observation) : Prop :=
  claimants tr = [] ∧ tr.filterMap attemptedEvent = []

theorem NoAttempts.append {first second : List Observation} (h : NoAttempts first)
    (h' : NoAttempts second) : NoAttempts (first ++ second) := by
  constructor
  · rw [claimants_append, h.1, h'.1, List.append_nil]
  · rw [List.filterMap_append, h.2, h'.2, List.append_nil]

theorem noAttempts_batch (events : List MonitorEvent) :
    NoAttempts (.roundStarted :: events.map (.processed 0)) := by
  induction events with
  | nil => exact ⟨rfl, rfl⟩
  | cons event rest ih => exact ih

theorem run_batches {slots : ℕ} {queue : List MonitorEvent} (batches : ℕ)
    (h : Draining rt slots queue) (hlength : queue.length = batches * monitorDrainBatch) :
    ∃ rt' tr, Run (step gettid) rt tr rt' ∧ Draining rt' slots [] ∧
      rt'.verifier = processAll rt.verifier queue ∧ SameThreads rt rt' ∧ NoAttempts tr := by
  induction batches generalizing rt queue with
  | zero =>
    rw [Nat.zero_mul, List.length_eq_zero_iff] at hlength
    subst hlength
    exact ⟨rt, [], Run.nil rt, h, rfl, ⟨rfl, rfl⟩, rfl, rfl⟩
  | succ batches ih =>
    rw [← List.take_append_drop monitorDrainBatch queue] at h
    have hbatch : (queue.take monitorDrainBatch).length = monitorDrainBatch := by
      rw [List.length_take, hlength, Nat.succ_mul]
      omega
    obtain ⟨rt₁, hfirst, h₁, hverifier₁, hsame₁⟩ := @run_batch gettid rt _ _ _ h (by
      rw [hbatch]
      decide) hbatch.le (Or.inl hbatch)
    obtain ⟨rt₂, tr, hrest, h₂, hverifier₂, hsame₂, hquiet⟩ := ih h₁ (by
      rw [List.length_drop, hlength, Nat.succ_mul]
      omega)
    refine ⟨rt₂, _, hfirst.trans hrest, h₂, ?_, hsame₁.trans hsame₂,
      (noAttempts_batch _).append hquiet⟩
    rw [hverifier₂, hverifier₁, ← processAll_append, List.take_append_drop]

/-- The steps of a round that finds every queue empty, up to the check. -/
theorem run_idle {slots : ℕ} (h : Draining rt slots []) :
    step gettid rt .consumer =
        some ({ rt with consumer := .poll ⟨0, slots, false⟩ }, [.roundStarted]) ∧
      Run (step gettid) { rt with consumer := .poll ⟨0, slots, false⟩ } []
        { rt with consumer := .check } := by
  have hload : step gettid rt .consumer =
      some ({ rt with consumer := .poll ⟨0, slots, false⟩ }, [.roundStarted]) := by
    simp [step, consumerStep, h.consumer, h.count]
  have hempty : ∀ slot < slots, (rt.threadContexts slot).queue = [] := by
    intro slot hslot
    rcases Nat.eq_zero_or_pos slot with rfl | hpos
    · exact h.first
    · exact h.others slot hslot hpos
  have hpolls := @run_polls gettid rt ⟨0, slots, false⟩ slots (Nat.zero_add slots).symm
    (fun slot _ hlt => h.active slot hlt) (fun slot _ hlt => hempty slot hlt)
  have hidle : step gettid { rt with consumer := .poll ⟨slots, slots, false⟩ } .consumer =
      some ({ rt with consumer := .check }, []) := by
    simp [step, consumerStep]
  exact ⟨hload, hpolls.trans (Run.single hidle)⟩

/-- A round that finds every queue empty. -/
theorem run_checked {slots : ℕ} (h : Draining rt slots []) :
    ∃ rt', Run (step gettid) rt [.roundStarted, .checked] rt' ∧ Draining rt' slots [] ∧
      rt'.verifier = monitorVerifierCheckDeadlocks rt.verifier := by
  obtain ⟨hload, hidle⟩ := @run_idle gettid rt slots h
  have hcheck : step gettid { rt with consumer := .check } .consumer =
      some ({ rt with
        verifier := monitorVerifierCheckDeadlocks rt.verifier
        consumer := .loadRunning false }, [.checked]) := rfl
  have hagain : step gettid { rt with
        verifier := monitorVerifierCheckDeadlocks rt.verifier
        consumer := .loadRunning false } .consumer =
      some ({ rt with
        verifier := monitorVerifierCheckDeadlocks rt.verifier
        consumer := .loadCount }, []) := by
    simp [step, consumerStep, h.running]
  have hrun := (((Run.single hload).trans hidle).trans (Run.single hcheck)).trans
    (Run.single hagain)
  exact ⟨_, hrun, ⟨rfl, h.count, h.some_slot, h.running, h.active, h.first, h.others⟩, rfl⟩

end RuntimeMonitor.RuntimeRounds
