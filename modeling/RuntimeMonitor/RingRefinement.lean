import RuntimeMonitor.RuntimeRings

/-!
The runtime over its rings refines the runtime. Every access of a push or a pop keeps the
rings in step with the queues: most of them leave the queues alone, and the one that
decides the operation is the step of the runtime on the list.
-/
namespace RuntimeMonitor.RingRefinement

open TransitionRuns EventRecord VerifierCycles MonitorRuntime RuntimeSteps SlotOwnership
open RuntimeStreams RuntimeAccounts SingleProducer RuntimeRings
open RingBuffer (spscRingCapacity)

variable {gettid : ℕ → ℕ} {maxHoldNs thread slot popped : ℕ} {rt rt' : Runtime}
  {c c' : RingRuntime} {tr os : List Observation} {event : MonitorEvent}

section Rings

variable {ring ring' : RingBuffer.SpscRingBuffer MonitorEvent}
  {pushing pushing' : RingBuffer.ProducerPc MonitorEvent}
  {popping : RingBuffer.ConsumerPc MonitorEvent} {queue queue' : List MonitorEvent}
  {made : List (RingBuffer.Obs MonitorEvent)}

theorem push_started (h : RingBuffer.Contains ⟨ring, .idle, popping⟩ queue)
    (event : MonitorEvent) :
    RingBuffer.Contains ⟨ring, .loadTail event ring.head, popping⟩ queue := by
  obtain ⟨queue', hfifo, hcontains⟩ := RingBuffer.fifo_step h
    (show RingBuffer.step ⟨ring, .idle, popping⟩ (.push event) = _ from rfl)
  rwa [BoundedFifo.run_silent hfifo] at hcontains

/-- One access of a push, with what it does to the queue. -/
theorem push_moved (h : RingBuffer.Contains ⟨ring, pushing, popping⟩ queue)
    (hpush : RingBuffer.tryPush ring pushing = some (ring', pushing', made)) :
    (∃ event head, pushing = .publish event head ∧ pushing' = .idle ∧ made = [.pushed event] ∧
        queue.length < spscRingCapacity ∧
        RingBuffer.Contains ⟨ring', .idle, popping⟩ (queue ++ [event])) ∨
      (∃ event head, pushing = .loadTail event head ∧ pushing' = .idle ∧ made = [.refused event] ∧
        spscRingCapacity ≤ queue.length ∧ RingBuffer.Contains ⟨ring', .idle, popping⟩ queue) ∨
      (∀ rt thread slot after, afterPush rt thread slot after made = (rt, [])) ∧
        (∀ event, Carries event pushing → Carries event pushing') ∧
        pushDue pushing' < pushDue pushing ∧
        RingBuffer.Contains ⟨ring', pushing', popping⟩ queue := by
  have hstep : RingBuffer.step ⟨ring, pushing, popping⟩ .producer =
      some (⟨ring', pushing', popping⟩, made) := by
    simp only [RingBuffer.step, hpush, Option.map_some]
  obtain ⟨queue', hfifo, hcontains⟩ := RingBuffer.fifo_step h hstep
  cases pushing with
  | idle => cases hpush
  | loadTail event head =>
    simp only [RingBuffer.tryPush] at hpush
    split at hpush
    · cases hpush
      obtain ⟨hfull, rfl⟩ := BoundedFifo.run_rejected hfifo
      exact Or.inr (Or.inl ⟨event, head, rfl, rfl, rfl, hfull, hcontains⟩)
    · cases hpush
      rw [BoundedFifo.run_silent hfifo] at hcontains
      exact Or.inr (Or.inr ⟨fun _ _ _ _ => rfl, fun _ hcarries => hcarries, by simp [pushDue],
        hcontains⟩)
  | copySlot event head =>
    cases hpush
    rw [BoundedFifo.run_silent hfifo] at hcontains
    exact Or.inr (Or.inr ⟨fun _ _ _ _ => rfl, fun _ hcarries => hcarries, by simp [pushDue],
      hcontains⟩)
  | publish event head =>
    cases hpush
    obtain ⟨hroom, rfl⟩ := BoundedFifo.run_accepted hfifo
    exact Or.inl ⟨event, head, rfl, rfl, rfl, hroom, hcontains⟩

/-- One access of a pop, with what it does to the queue. -/
theorem pop_moved (h : RingBuffer.Contains ⟨ring, pushing, popping⟩ queue) :
    let made := RingBuffer.tryPop ring popping
    (∃ event rest, made.2.1 = .idle ∧ made.2.2 = [.popped event] ∧ queue = event :: rest ∧
        RingBuffer.Contains ⟨made.1, pushing, .idle⟩ rest) ∨
      (made.2.1 = .idle ∧ made.2.2 = [.foundEmpty] ∧ queue = [] ∧
        RingBuffer.Contains ⟨made.1, pushing, .idle⟩ []) ∨
      (∀ rt round popped, afterPop rt round popped made.2.2 = rt) ∧
        popDue made.2.1 < popDue popping ∧
        RingBuffer.Contains ⟨made.1, pushing, made.2.1⟩ queue := by
  obtain ⟨queue', hfifo, hcontains⟩ := RingBuffer.fifo_step h
    (show RingBuffer.step ⟨ring, pushing, popping⟩ .consumer = _ from rfl)
  intro made
  cases popping with
  | idle | copySlot tail =>
    rw [BoundedFifo.run_silent hfifo] at hcontains
    exact Or.inr (Or.inr ⟨fun _ _ _ => rfl, by simp [made, RingBuffer.tryPop, popDue], hcontains⟩)
  | loadHead tail =>
    by_cases hempty : tail = ring.head
    · simp only [RingBuffer.tryPop, if_pos hempty] at hfifo hcontains
      obtain ⟨rfl, rfl⟩ := BoundedFifo.run_empty hfifo
      refine Or.inr (Or.inl ?_)
      simp only [made, RingBuffer.tryPop, if_pos hempty, true_and]
      exact hcontains
    · simp only [RingBuffer.tryPop, if_neg hempty] at hfifo hcontains
      rw [BoundedFifo.run_silent hfifo] at hcontains
      refine Or.inr (Or.inr ?_)
      simp only [made, RingBuffer.tryPop, if_neg hempty]
      exact ⟨fun _ _ _ => rfl, by simp [popDue], hcontains⟩
  | publish tail event =>
    obtain rfl := BoundedFifo.run_popped hfifo
    exact Or.inl ⟨event, queue', rfl, rfl, rfl, hcontains⟩

end Rings

section Refinement

variable {pc : RingBuffer.ProducerPc MonitorEvent} {after : AfterEmission}

theorem push_owner (howned : SlotsOwned rt tr)
    (hpc : (rt.threads thread).pc = .push slot event after) :
    (claimants tr)[slot]? = some thread :=
  (howned.works slot (by rw [hpc]; rfl)).2.2

/-- One thread pushes to a slot at a time. -/
theorem push_unique (howned : SlotsOwned rt tr) {other : ℕ} {event' : MonitorEvent}
    {after' : AfterEmission} (hpc : (rt.threads thread).pc = .push slot event after)
    (hother : (rt.threads other).pc = .push slot event' after') : other = thread := by
  have hsame := (push_owner howned hother).symm.trans (push_owner howned hpc)
  rwa [Option.some.injEq] at hsame

theorem refines_start (maxHoldNs : ℕ) (slots : ℕ → ℕ → MonitorEvent) :
    Refines (ringRuntimeStart maxHoldNs slots) (monitorRuntimeStart maxHoldNs) := by
  refine ⟨rfl, fun slot pc hpushing => ?_, fun thread slot event after hpc => ?_, fun _ _ => rfl,
    fun hpopping => absurd rfl hpopping⟩
  · rcases hpushing with ⟨thread, event, after, hpc, -⟩ | ⟨rfl, -⟩
    · cases hpc
    · exact ⟨[], RingBuffer.inv_initial (slots slot), rfl⟩
  · cases hpc

/-- A step away from the queues. -/
theorem refines_quiet (h : Refines c rt) (howned : SlotsOwned rt tr) (hquiet : Quiet rt rt') :
    Refines { c with runtime := withoutQueues rt' } rt' := by
  have hcthreads : c.runtime.threads = rt.threads := by rw [h.runtime]; rfl
  have hkept : ∀ thread slot event after, (rt.threads thread).pc = .push slot event after →
      (rt'.threads thread).pc = .push slot event after := by
    intro thread slot event after hpc
    rcases hquiet.threads thread with hsame | ⟨hnot, -⟩
    · rwa [hsame]
    · exact absurd hpc (hnot slot event after)
  have hbegun : ∀ thread slot event after, (rt'.threads thread).pc = .push slot event after →
      (rt.threads thread).pc = .push slot event after ∨
        (rt.threads thread).pc = .countGenerated slot event after ∧ c.pushing thread = .idle := by
    intro thread slot event after hpc
    rcases hquiet.threads thread with hsame | ⟨hnot, hnext⟩
    · exact Or.inl (hsame ▸ hpc)
    · exact Or.inr ⟨hnext slot event after hpc, h.unpushing thread hnot⟩
  have hconsumer : rt'.consumer = rt.consumer ∨ c.popping = .idle := by
    rcases hquiet.consumer with hsame | hnot
    · exact Or.inl hsame
    · by_contra hne
      rw [not_or] at hne
      obtain ⟨round, popped, hdrain, -⟩ := h.unpopping hne.2
      exact hnot round popped hdrain
  have hpopping : ∀ slot, poppingOn { c with runtime := withoutQueues rt' } slot =
      poppingOn c slot := by
    intro slot
    have hcconsumer : c.runtime.consumer = rt.consumer := by rw [h.runtime]; rfl
    have hnew : (withoutQueues rt').consumer = rt'.consumer := rfl
    unfold poppingOn
    rw [hcconsumer, hnew]
    rcases hconsumer with hsame | hidle
    · rw [hsame]
    · rw [hidle]
      cases rt'.consumer <;> cases rt.consumer <;> simp
  refine ⟨rfl, fun slot pc hpushing => ?_, fun thread slot event after hpc => ?_,
    fun thread hnot => ?_, fun hne => ?_⟩
  · rw [hpopping, hquiet.queues slot]
    apply h.stored
    rcases hpushing with ⟨thread, event, after, hpc, rfl⟩ | ⟨rfl, hnone⟩
    · rcases hbegun thread slot event after hpc with hold | ⟨hold, hidle⟩
      · exact Or.inl ⟨thread, event, after, by rw [hcthreads]; exact hold, rfl⟩
      · refine Or.inr ⟨hidle, fun other event' after' hother => ?_⟩
        rw [hcthreads] at hother
        have hboth := (push_owner howned hother).symm.trans
          (howned.works slot (by rw [hold]; rfl)).2.2
        rw [Option.some.injEq] at hboth
        rw [hboth, hold] at hother
        cases hother
    · refine Or.inr ⟨rfl, fun other event' after' hother => ?_⟩
      rw [hcthreads] at hother
      exact hnone other event' after' (hkept other slot event' after' hother)
  · rcases hbegun thread slot event after hpc with hold | ⟨-, hidle⟩
    · exact h.carries thread slot event after hold
    · show Carries event (c.pushing thread)
      rw [hidle]
      trivial
  · exact h.unpushing thread fun slot event after hpc => hnot slot event after
      (hkept thread slot event after hpc)
  · rcases hconsumer with hsame | hidle
    · rw [hsame]
      exact h.unpopping hne
    · exact absurd hidle hne

/-- A step of the thread that pushes to a slot: it goes on pushing or is done. -/
theorem refines_pushed (h : Refines c rt) (howned : SlotsOwned rt tr)
    (hpc : (rt.threads thread).pc = .push slot event after)
    {ring : RingBuffer.SpscRingBuffer MonitorEvent}
    (hothers : ∀ other, other ≠ thread → rt'.threads other = rt.threads other)
    (hnext : (rt'.threads thread).pc = .push slot event after ∧ Carries event pc ∨
      (∀ slot event after, (rt'.threads thread).pc ≠ .push slot event after) ∧ pc = .idle)
    (hqueues : ∀ other, other ≠ slot →
      (rt'.threadContexts other).queue = (rt.threadContexts other).queue)
    (hconsumer : rt'.consumer = rt.consumer)
    (hstored : RingBuffer.Contains ⟨ring, pc, poppingOn c slot⟩ (rt'.threadContexts slot).queue) :
    Refines { (c.setRing slot ring).setPushing thread pc with
      runtime := withoutQueues rt' } rt' := by
  have hcthreads : c.runtime.threads = rt.threads := by rw [h.runtime]; rfl
  have hpopping : ∀ other, poppingOn
      { (c.setRing slot ring).setPushing thread pc with runtime := withoutQueues rt' } other =
        poppingOn c other := by
    intro other
    have hcconsumer : c.runtime.consumer = rt'.consumer := by
      rw [h.runtime, hconsumer]
      rfl
    unfold poppingOn
    rw [hcconsumer]
    rfl
  have hmine : ∀ other event' after', (rt'.threads other).pc = .push slot event' after' →
      other = thread := by
    intro other event' after' hother
    by_contra hne
    rw [hothers other hne] at hother
    exact hne (push_unique howned hpc hother)
  refine ⟨rfl, fun slot' pc' hpushing => ?_, fun other slot' event' after' hother => ?_,
    fun other hnot => ?_, fun hne => ?_⟩
  · rw [hpopping]
    by_cases hslot : slot' = slot
    · subst hslot
      have hsame : pc' = pc := by
        rcases hpushing with ⟨other, event', after', hother, heq⟩ | ⟨heq, hnone⟩
        · obtain rfl := hmine other event' after' hother
          rw [heq]
          exact Function.update_self ..
        · rcases hnext with ⟨hstill, -⟩ | ⟨-, hidle⟩
          · exact absurd hstill (hnone thread event after)
          · exact heq.trans hidle.symm
      subst hsame
      have hring : (c.setRing slot' ring).rings slot' = ring := Function.update_self ..
      show RingBuffer.Contains ⟨(c.setRing slot' ring).rings slot', _, _⟩ _
      rw [hring]
      exact hstored
    · have hring : (c.setRing slot ring).rings slot' = c.rings slot' :=
        Function.update_of_ne hslot ..
      show RingBuffer.Contains ⟨(c.setRing slot ring).rings slot', _, _⟩ _
      rw [hring, hqueues slot' hslot]
      apply h.stored
      rcases hpushing with ⟨other, event', after', hother, rfl⟩ | ⟨rfl, hnone⟩
      · have hne : other ≠ thread := by
          rintro rfl
          rcases hnext with ⟨hstill, -⟩ | ⟨hnot, -⟩
          · have hthreads : ({ (c.setRing slot ring).setPushing other pc with
                runtime := withoutQueues rt' } : RingRuntime).runtime.threads = rt'.threads := rfl
            rw [hthreads, hstill] at hother
            cases hother
            exact hslot rfl
          · exact hnot slot' event' after' hother
        refine Or.inl ⟨other, event', after', ?_, (Function.update_of_ne hne ..)⟩
        rw [hcthreads, ← hothers other hne]
        exact hother
      · refine Or.inr ⟨rfl, fun other event' after' hother => ?_⟩
        rw [hcthreads] at hother
        by_cases hne : other = thread
        · subst hne
          rw [hpc] at hother
          cases hother
          exact hslot rfl
        · rw [← hothers other hne] at hother
          exact hnone other event' after' hother
  · by_cases hne : other = thread
    · subst hne
      rcases hnext with ⟨hstill, hcarries⟩ | ⟨hnot, -⟩
      · rw [hstill] at hother
        cases hother
        show Carries event (Function.update c.pushing other pc other)
        rw [Function.update_self]
        exact hcarries
      · exact absurd hother (hnot slot' event' after')
    · show Carries event' (Function.update c.pushing thread pc other)
      rw [Function.update_of_ne hne]
      rw [hothers other hne] at hother
      exact h.carries other slot' event' after' hother
  · show Function.update c.pushing thread pc other = .idle
    by_cases hne : other = thread
    · subst hne
      rcases hnext with ⟨hstill, -⟩ | ⟨-, hidle⟩
      · exact absurd hstill (hnot slot event after)
      · rw [Function.update_self, hidle]
    · rw [Function.update_of_ne hne]
      rw [hothers other hne] at hnot
      exact h.unpushing other hnot
  · rw [hconsumer]
    exact h.unpopping hne

/-- A step of the consumer in a pop: it goes on popping or is done. -/
theorem refines_drained (h : Refines c rt) {round : Round}
    (hpc : rt.consumer = .drain round popped) {ring : RingBuffer.SpscRingBuffer MonitorEvent}
    {popping : RingBuffer.ConsumerPc MonitorEvent} (hthreads : rt'.threads = rt.threads)
    (hnext : rt'.consumer = .drain round popped ∧ popped < monitorDrainBatch ∨
      (∀ round popped, rt'.consumer ≠ .drain round popped) ∧ popping = .idle)
    (hqueues : ∀ other, other ≠ round.slot →
      (rt'.threadContexts other).queue = (rt.threadContexts other).queue)
    (hstored : ∀ pc, PushingOn c round.slot pc →
      RingBuffer.Contains ⟨ring, pc, popping⟩ (rt'.threadContexts round.slot).queue) :
    Refines { c.setRing round.slot ring with popping := popping, runtime := withoutQueues rt' }
      rt' := by
  have hcthreads : c.runtime.threads = rt.threads := by rw [h.runtime]; rfl
  have hcconsumer : c.runtime.consumer = .drain round popped := by
    rw [h.runtime, ← hpc]
    rfl
  have hpushing : ∀ slot pc, PushingOn { c.setRing round.slot ring with
      popping := popping, runtime := withoutQueues rt' } slot pc → PushingOn c slot pc := by
    intro slot pc hpushing
    unfold PushingOn
    rw [hcthreads, ← hthreads]
    exact hpushing
  refine ⟨rfl, fun slot pc hpc' => ?_, fun thread slot event after hpush => ?_,
    fun thread hnot => ?_, fun hne => ?_⟩
  · have hbefore := hpushing slot pc hpc'
    by_cases hslot : slot = round.slot
    · subst hslot
      have hring : (c.setRing round.slot ring).rings round.slot = ring := Function.update_self ..
      have hposition : poppingOn { c.setRing round.slot ring with
          popping := popping, runtime := withoutQueues rt' } round.slot = popping := by
        have hconsumer : (withoutQueues rt').consumer = rt'.consumer := rfl
        unfold poppingOn
        rw [hconsumer]
        rcases hnext with ⟨hstill, -⟩ | ⟨hnot, hidle⟩
        · rw [hstill]
          exact if_pos rfl
        · rw [hidle]
          cases hnew : rt'.consumer with
          | drain other count => exact absurd hnew (hnot other count)
          | _ => rfl
      rw [hposition]
      show RingBuffer.Contains ⟨(c.setRing round.slot ring).rings round.slot, _, _⟩ _
      rw [hring]
      exact hstored pc hbefore
    · have hring : (c.setRing round.slot ring).rings slot = c.rings slot :=
        Function.update_of_ne hslot ..
      have hidle : poppingOn { c.setRing round.slot ring with
          popping := popping, runtime := withoutQueues rt' } slot = .idle := by
        have hconsumer : (withoutQueues rt').consumer = rt'.consumer := rfl
        unfold poppingOn
        rw [hconsumer]
        rcases hnext with ⟨hstill, -⟩ | ⟨hnot, -⟩
        · rw [hstill]
          exact if_neg (Ne.symm hslot)
        · cases hnew : rt'.consumer with
          | drain other count => exact absurd hnew (hnot other count)
          | _ => rfl
      have hidle' : poppingOn c slot = .idle := by
        unfold poppingOn
        rw [hcconsumer]
        exact if_neg (Ne.symm hslot)
      have hkept := h.stored slot pc hbefore
      rw [hidle'] at hkept
      rw [hidle, hqueues slot hslot]
      show RingBuffer.Contains ⟨(c.setRing round.slot ring).rings slot, _, _⟩ _
      rw [hring]
      exact hkept
  · rw [hthreads] at hpush
    exact h.carries thread slot event after hpush
  · rw [hthreads] at hnot
    exact h.unpushing thread hnot
  · rcases hnext with ⟨hstill, hlt⟩ | ⟨-, hidle⟩
    · exact ⟨round, popped, hstill, hlt⟩
    · exact absurd hidle hne

/-- The initialisation of a context, whose ring no other thread accesses yet. -/
theorem refines_initialised (h : Refines c rt) (hreached : Reached gettid maxHoldNs rt tr)
    {request : EmitRequest} {environment : Environment}
    (hpc : (rt.threads thread).pc = .initialise request slot)
    (hstep : producerStep gettid rt thread environment = some (rt', os)) :
    Refines { c.setRing slot (RingBuffer.spscRingBufferInit (c.rings slot).slots) with
      runtime := withoutQueues rt' } rt' := by
  have howned := hreached.owned
  have hcthreads : c.runtime.threads = rt.threads := by rw [h.runtime]; rfl
  have hcconsumer : c.runtime.consumer = rt.consumer := by rw [h.runtime]; rfl
  have hfresh : heldSlot (rt.threads thread) = some slot := by
    unfold heldSlot
    rw [hpc]
    rfl
  have hunpushed : ∀ other event after, (rt.threads other).pc ≠ .push slot event after := by
    intro other event after hother
    have hsame := (push_owner howned hother).symm.trans (howned.held thread slot hfresh)
    rw [Option.some.injEq] at hsame
    rw [hsame, hpc] at hother
    cases hother
  have hunread : poppingOn c slot = .idle := by
    unfold poppingOn
    rw [hcconsumer]
    cases hconsumer : rt.consumer with
    | drain round popped =>
      refine if_neg fun hslot => ?_
      obtain ⟨owner, -, -, -, hnobody⟩ := consumer_initialised hreached
        (by rw [hconsumer]; exact congrArg some hslot)
      exact hnobody thread (by rw [hpc]; rfl)
    | _ => rfl
  unfold producerStep at hstep
  simp only [hpc, Option.some.injEq, Prod.mk.injEq] at hstep
  obtain ⟨rfl, -⟩ := hstep
  have hpopping : ∀ other, poppingOn { c.setRing slot (RingBuffer.spscRingBufferInit
      (c.rings slot).slots) with runtime := withoutQueues ((rt.setContext slot
        { rt.threadContexts slot with
          queue := []
          threadId := gettid thread
          generated := 0
          dropped := 0
          nextThreadSequence := 0
          consumed := 0 }).goto thread (.activate request slot)) } other = poppingOn c other := by
    intro other
    unfold poppingOn
    rw [hcconsumer]
    rfl
  have hkept : ∀ other slot' event after, (Function.update rt.threads thread
      { rt.threads thread with pc := .activate request slot } other).pc =
        .push slot' event after ↔
        (rt.threads other).pc = .push slot' event after := by
    intro other slot' event after
    by_cases hother : other = thread
    · subst hother
      rw [Function.update_self, hpc]
      simp
    · rw [Function.update_of_ne hother]
  refine ⟨rfl, fun slot' pc hpushing => ?_, fun other slot' event after hother => ?_,
    fun other hnot => ?_, h.unpopping⟩
  · have hbefore : PushingOn c slot' pc := by
      rcases hpushing with ⟨other, event, after, hother, heq⟩ | ⟨heq, hnone⟩
      · refine Or.inl ⟨other, event, after, ?_, heq⟩
        rw [hcthreads]
        exact (hkept other slot' event after).mp hother
      · refine Or.inr ⟨heq, fun other event after hother => hnone other event after ?_⟩
        rw [hcthreads] at hother
        exact (hkept other slot' event after).mpr hother
    rw [hpopping]
    by_cases hslot : slot' = slot
    · subst hslot
      have hidle : pc = .idle := by
        rcases hbefore with ⟨other, event, after, hother, -⟩ | ⟨heq, -⟩
        · rw [hcthreads] at hother
          exact absurd hother (hunpushed other event after)
        · exact heq
      rw [hidle, hunread]
      show RingBuffer.Contains ⟨Function.update c.rings slot' _ slot', _, _⟩
        (Function.update rt.threadContexts slot' _ slot').queue
      rw [Function.update_self, Function.update_self]
      exact ⟨[], RingBuffer.inv_initial _, rfl⟩
    · have hstored := h.stored slot' pc hbefore
      show RingBuffer.Contains ⟨Function.update c.rings slot _ slot', _, _⟩
        (Function.update rt.threadContexts slot _ slot').queue
      rwa [Function.update_of_ne hslot, Function.update_of_ne hslot]
  · exact h.carries other slot' event after ((hkept other slot' event after).mp hother)
  · exact h.unpushing other fun slot' event after hother =>
      hnot slot' event after ((hkept other slot' event after).mpr hother)

theorem withoutQueues_setQueue (rt : Runtime) (slot : ℕ) (queue : List MonitorEvent) :
    withoutQueues (rt.setContext slot { rt.threadContexts slot with queue := queue }) =
      withoutQueues rt := by
  rw [withoutQueues_setContext]
  unfold withoutQueues Runtime.setContext
  simp only [Function.update_eq_self]

/-- Each access of a push brings it nearer to its end or is the step of the runtime that
publishes or drops the event. -/
theorem refines_pushStep (h : Refines c rt) (howned : SlotsOwned rt tr)
    (hpc : (rt.threads thread).pc = .push slot event after)
    (hstep : pushStep c thread slot event after = some (c', os)) :
    (os = [] ∧ Refines c' rt ∧ pushDue (c'.pushing thread) < pushDue (c.pushing thread)) ∨
      ∃ rt', (∀ gettid environment, producerStep gettid rt thread environment = some (rt', os)) ∧
        Refines c' rt' := by
  have hcthreads : c.runtime.threads = rt.threads := by rw [h.runtime]; rfl
  have hstored := h.stored slot (c.pushing thread)
    (Or.inl ⟨thread, event, after, by rw [hcthreads]; exact hpc, rfl⟩)
  have hcarries := h.carries thread slot event after hpc
  have hstay : ∀ ring pc, Carries event pc →
      RingBuffer.Contains ⟨ring, pc, poppingOn c slot⟩ (rt.threadContexts slot).queue →
        Refines { (c.setRing slot ring).setPushing thread pc with runtime := c.runtime } rt := by
    intro ring pc hcarries hcontains
    rw [h.runtime]
    exact refines_pushed h howned hpc (fun _ _ => rfl) (Or.inl ⟨hpc, hcarries⟩)
      (fun _ _ => rfl) rfl
      hcontains
  have haway : ∀ queue next, (∀ slot event after, next ≠ .push slot event after) →
      ∀ ring, RingBuffer.Contains ⟨ring, .idle, poppingOn c slot⟩ queue →
        Refines { (c.setRing slot ring).setPushing thread .idle with
          runtime := c.runtime.goto thread next }
          ((rt.setContext slot { rt.threadContexts slot with queue := queue }).goto thread
            next) := by
    intro queue next hnext ring hcontains
    have hruntime : c.runtime.goto thread next = withoutQueues
        ((rt.setContext slot { rt.threadContexts slot with queue := queue }).goto thread
          next) := by
      rw [h.runtime, ← withoutQueues_setQueue rt slot queue]
      rfl
    rw [hruntime]
    refine refines_pushed h howned hpc (fun other hne => Function.update_of_ne hne ..)
      (Or.inr ⟨?_, rfl⟩)
      (fun other hne => ?_) rfl ?_
    · intro slot' event' after'
      rw [Runtime.goto_threads, Function.update_self]
      exact hnext slot' event' after'
    · rw [Runtime.goto_threadContexts, Runtime.setContext_threadContexts,
        Function.update_of_ne hne]
    · rw [Runtime.goto_threadContexts, Runtime.setContext_threadContexts, Function.update_self]
      exact hcontains
  unfold RuntimeRings.pushStep at hstep
  split at hstep
  · rename_i hidle
    cases hstep
    rw [hidle] at hstored
    have hsame : c.setRing slot (c.rings slot) = c := by
      unfold RingRuntime.setRing
      rw [Function.update_eq_self]
    have hkept := hstay _ (.loadTail event (c.rings slot).head) rfl (push_started hstored event)
    rw [hsame] at hkept
    refine Or.inl ⟨rfl, hkept, ?_⟩
    simp only [RingRuntime.setPushing, Function.update_self, hidle, pushDue]
    omega
  · rw [Option.map_eq_some_iff] at hstep
    obtain ⟨⟨ring, pc, made⟩, hpush, heq⟩ := hstep
    rw [Prod.mk.injEq] at heq
    obtain ⟨rfl, rfl⟩ := heq
    rcases push_moved hstored hpush with ⟨carried, head, hbefore, rfl, rfl, hroom, hcontains⟩ |
      ⟨carried, head, hbefore, rfl, rfl, hfull, hcontains⟩ | ⟨hnone, hcarried, hdue, hcontains⟩
    · rw [hbefore] at hcarries
      obtain rfl : carried = event := hcarries
      refine Or.inr ⟨_, fun gettid environment => ?_,
        haway _ (after.resume slot) ?_ ring hcontains⟩
      · simp only [producerStep, hpc, hroom, if_true, afterPush]
      · cases after <;> simp [AfterEmission.resume]
    · rw [hbefore] at hcarries
      obtain rfl : carried = event := hcarries
      have hsame : rt.setContext slot { rt.threadContexts slot with
          queue := (rt.threadContexts slot).queue } = rt := by
        unfold Runtime.setContext
        simp only [Function.update_eq_self]
      have hdropped := haway _ (.countDropped slot after) (by simp) ring hcontains
      rw [hsame] at hdropped
      refine Or.inr ⟨_, fun gettid environment => ?_, hdropped⟩
      simp only [producerStep, hpc, Nat.not_lt.mpr hfull, if_false, afterPush]
    · rw [hnone]
      refine Or.inl ⟨rfl, hstay ring pc (hcarried event hcarries) hcontains, ?_⟩
      rwa [show ({ (c.setRing slot ring).setPushing thread pc with
        runtime := c.runtime } : RingRuntime).pushing thread = pc from Function.update_self ..]

theorem exists_pushingOn (c : RingRuntime) (slot : ℕ) : ∃ pc, PushingOn c slot pc := by
  by_cases hbusy : ∃ thread event after, (c.runtime.threads thread).pc = .push slot event after
  · obtain ⟨thread, event, after, hpc⟩ := hbusy
    exact ⟨_, Or.inl ⟨thread, event, after, hpc, rfl⟩⟩
  · exact ⟨_, Or.inr ⟨rfl, fun thread event after hpc => hbusy ⟨thread, event, after, hpc⟩⟩⟩

theorem pushingOn_unique {pc' : RingBuffer.ProducerPc MonitorEvent}
    (howned : SlotsOwned rt tr) (hthreads : c.runtime.threads = rt.threads)
    (h : PushingOn c slot pc) (h' : PushingOn c slot pc') : pc' = pc := by
  unfold PushingOn at h h'
  rw [hthreads] at h h'
  rcases h with ⟨thread, event, after, hpc, rfl⟩ | ⟨rfl, hnone⟩
  · rcases h' with ⟨other, event', after', hother, rfl⟩ | ⟨rfl, hnone⟩
    · rw [push_unique howned hpc hother]
    · exact absurd hpc (hnone thread event after)
  · rcases h' with ⟨other, event', after', hother, rfl⟩ | ⟨rfl, -⟩
    · exact absurd hother (hnone other event' after')
    · rfl

/-- Each access of a pop brings it nearer to its end or is the step of the runtime that
takes an event or finds none. -/
theorem refines_popStep (h : Refines c rt) (howned : SlotsOwned rt tr) {round : Round}
    (hpc : rt.consumer = .drain round popped) :
    (Refines (popStep c round popped) rt ∧
        popDue (popStep c round popped).popping < popDue c.popping) ∨
      ∃ rt', consumerStep rt = some (rt', []) ∧ Refines (popStep c round popped) rt' := by
  have hcthreads : c.runtime.threads = rt.threads := by rw [h.runtime]; rfl
  have hposition : poppingOn c round.slot = c.popping := by
    have hcconsumer : c.runtime.consumer = .drain round popped := by
      rw [h.runtime, ← hpc]
      rfl
    unfold poppingOn
    rw [hcconsumer]
    exact if_pos rfl
  obtain ⟨pushing, hpushing⟩ := exists_pushingOn c round.slot
  have hstored := h.stored round.slot pushing hpushing
  rw [hposition] at hstored
  have hall : ∀ {ring popping queue}, RingBuffer.Contains ⟨ring, pushing, popping⟩ queue →
      ∀ pc, PushingOn c round.slot pc → RingBuffer.Contains ⟨ring, pc, popping⟩ queue := by
    intro ring popping queue hcontains pc hpc
    rwa [pushingOn_unique howned hcthreads hpushing hpc]
  have hdone : ∀ queue next, (∀ round popped, next ≠ .drain round popped) →
      ∀ ring, RingBuffer.Contains ⟨ring, pushing, .idle⟩ queue →
        Refines { c.setRing round.slot ring with
          popping := .idle, runtime := { c.runtime with consumer := next } }
          { rt.setContext round.slot { rt.threadContexts round.slot with queue := queue } with
            consumer := next } := by
    intro queue next hnext ring hcontains
    have hruntime : { c.runtime with consumer := next } = withoutQueues
        { rt.setContext round.slot { rt.threadContexts round.slot with queue := queue } with
          consumer := next } := by
      rw [h.runtime, ← withoutQueues_setQueue rt round.slot queue]
      rfl
    rw [hruntime]
    refine refines_drained h hpc rfl (Or.inr ⟨hnext, rfl⟩) (fun other hne => ?_) (hall ?_)
    · rw [Runtime.setContext_threadContexts, Function.update_of_ne hne]
    · rw [Runtime.setContext_threadContexts, Function.update_self]
      exact hcontains
  have hsame : rt.setContext round.slot { rt.threadContexts round.slot with
      queue := (rt.threadContexts round.slot).queue } = rt := by
    unfold Runtime.setContext
    simp only [Function.update_eq_self]
  unfold RuntimeRings.popStep
  by_cases hbatch : popped ≥ monitorDrainBatch
  · rw [if_pos hbatch]
    have hidle : c.popping = .idle := by
      by_contra hne
      obtain ⟨round', popped', hdrain, hlt⟩ := h.unpopping hne
      rw [hpc] at hdrain
      cases hdrain
      omega
    have hring : c.setRing round.slot (c.rings round.slot) = c := by
      unfold RingRuntime.setRing
      rw [Function.update_eq_self]
    rw [hidle] at hstored
    have hpolled := hdone _ (.poll (round.next popped)) (by simp) _ hstored
    rw [hsame, hring, ← hidle] at hpolled
    exact Or.inr ⟨_, by simp only [consumerStep, hpc, hbatch, if_true], hpolled⟩
  · rw [if_neg hbatch]
    rcases pop_moved hstored with ⟨event, rest, hidle, hmade, hqueue, hcontains⟩ |
      ⟨hidle, hmade, hqueue, hcontains⟩ | ⟨hnone, hdue, hcontains⟩
    · simp only [hidle, hmade, afterPop]
      refine Or.inr ⟨_, ?_, hdone rest (.process round popped event) (by simp) _ hcontains⟩
      simp only [consumerStep, hpc, hbatch, if_false, hqueue]
    · simp only [hidle, hmade, afterPop]
      rw [← hqueue] at hcontains
      have hpolled := hdone _ (.poll (round.next popped)) (by simp) _ hcontains
      rw [hsame] at hpolled
      refine Or.inr ⟨_, ?_, hpolled⟩
      simp only [consumerStep, hpc, hbatch, if_false, hqueue]
    · simp only [hnone]
      have hkept := refines_drained h hpc rfl (Or.inl ⟨hpc, by omega⟩) (fun _ _ => rfl)
        (hall hcontains)
      rw [← h.runtime] at hkept
      exact Or.inl ⟨hkept, hdue⟩

/-- The actions on queues: pushes, initialisations and pops. -/
theorem offQueues_or (rt : Runtime) (action : Action) : OffQueues rt action ∨
    (∃ thread environment slot event after, action = .producer thread environment ∧
      (rt.threads thread).pc = .push slot event after) ∨
    (∃ thread environment request slot, action = .producer thread environment ∧
      (rt.threads thread).pc = .initialise request slot) ∨
    ∃ round popped, action = .consumer ∧ rt.consumer = .drain round popped := by
  by_contra hnone
  simp only [not_or, not_exists, not_and] at hnone
  obtain ⟨hqueue, hpush, hinit, hpop⟩ := hnone
  apply hqueue
  cases action with
  | producer thread environment =>
    exact ⟨fun slot event after => hpush thread environment slot event after rfl,
      fun request slot => hinit thread environment request slot rfl⟩
  | consumer => exact fun round popped => hpop round popped rfl
  | _ => trivial

theorem ringStep_off {action : Action} (h : Refines c rt) (hoff : OffQueues rt action) :
    ringStep gettid c action =
      (step gettid rt action).map fun made =>
        ({ c with runtime := withoutQueues made.1 }, made.2) := by
  have hblind :
      (step gettid c.runtime action).map (fun made => ({ c with runtime := made.1 }, made.2)) =
        (step gettid rt action).map fun made =>
          ({ c with runtime := withoutQueues made.1 }, made.2) := by
    rw [h.runtime, step_withoutQueues hoff, Option.map_map]
    rfl
  have hcthreads : c.runtime.threads = rt.threads := by rw [h.runtime]; rfl
  have hcconsumer : c.runtime.consumer = rt.consumer := by rw [h.runtime]; rfl
  rw [← hblind]
  cases action with
  | consumer =>
    simp only [ringStep, hcconsumer]
    cases hpc : rt.consumer with
    | drain round popped => exact absurd hpc (hoff round popped)
    | _ => rfl
  | producer thread environment =>
    simp only [ringStep, hcthreads]
    cases hpc : (rt.threads thread).pc with
    | push slot event after => exact absurd hpc (hoff.1 slot event after)
    | initialise request slot => exact absurd hpc (hoff.2 request slot)
    | _ => rfl
  | _ => rfl

theorem ringStep_initialise (h : Refines c rt) {request : EmitRequest}
    (environment : Environment) (hpc : (rt.threads thread).pc = .initialise request slot) :
    ringStep gettid c (.producer thread environment) =
      (producerStep gettid rt thread environment).map fun made =>
        ({ c.setRing slot (RingBuffer.spscRingBufferInit (c.rings slot).slots) with
          runtime := withoutQueues made.1 }, made.2) := by
  have hblind : producerStep gettid (withoutQueues rt) thread environment =
      (producerStep gettid rt thread environment).map fun made =>
        (withoutQueues made.1, made.2) :=
    producer_withoutQueues environment (by simp [hpc])
  have hcthreads : c.runtime.threads = rt.threads := by rw [h.runtime]; rfl
  simp only [ringStep, hcthreads, hpc]
  rw [h.runtime, hblind, Option.map_map]
  rfl

/-- A step over the rings is a step of the runtime with the same observations, or none. -/
theorem refines_step {action : Action} (h : Refines c rt)
    (hrun : Run (step gettid) (monitorRuntimeStart maxHoldNs) tr rt)
    (hstep : ringStep gettid c action = some (c', os)) :
    ∃ rt', Run (step gettid) rt os rt' ∧ Refines c' rt' := by
  have hreached := reached_run hrun
  have hcthreads : c.runtime.threads = rt.threads := by rw [h.runtime]; rfl
  have hcconsumer : c.runtime.consumer = rt.consumer := by rw [h.runtime]; rfl
  rcases offQueues_or rt action with hoff | ⟨thread, environment, slot, event, after, rfl, hpc⟩ |
    ⟨thread, environment, request, slot, rfl, hpc⟩ | ⟨round, popped, rfl, hpc⟩
  · rw [ringStep_off h hoff, Option.map_eq_some_iff] at hstep
    obtain ⟨⟨rt', made⟩, hinner, heq⟩ := hstep
    cases heq
    exact ⟨rt', Run.single hinner, refines_quiet h hreached.owned (step_quiet hoff hinner)⟩
  · simp only [ringStep, hcthreads, hpc] at hstep
    rcases refines_pushStep h hreached.owned hpc hstep with
      ⟨rfl, hkept, -⟩ | ⟨rt', hproducer, hmoved⟩
    · exact ⟨rt, Run.nil rt, hkept⟩
    · have hinner : step gettid rt (.producer thread environment) = some (rt', os) :=
        hproducer gettid environment
      exact ⟨rt', Run.single hinner, hmoved⟩
  · rw [ringStep_initialise h environment hpc, Option.map_eq_some_iff] at hstep
    obtain ⟨⟨rt', made⟩, hproducer, heq⟩ := hstep
    cases heq
    have hinner : step gettid rt (.producer thread environment) = some (rt', made) := hproducer
    exact ⟨rt', Run.single hinner, refines_initialised h hreached hpc hproducer⟩
  · simp only [ringStep, hcconsumer, hpc, Option.some.injEq, Prod.mk.injEq] at hstep
    obtain ⟨rfl, rfl⟩ := hstep
    rcases refines_popStep h hreached.owned hpc with ⟨hkept, -⟩ | ⟨rt', hconsumer, hmoved⟩
    · exact ⟨rt, Run.nil rt, hkept⟩
    · have hinner : step gettid rt .consumer = some (rt', []) := hconsumer
      exact ⟨rt', Run.single hinner, hmoved⟩

/-- Every run over the rings is one of the runtime. -/
theorem refines_run (h : Refines c rt)
    (hrun : Run (step gettid) (monitorRuntimeStart maxHoldNs) tr rt)
    (hring : Run (ringStep gettid) c os c') :
    ∃ rt', Run (step gettid) rt os rt' ∧ Refines c' rt' := by
  induction hring with
  | nil => exact ⟨rt, Run.nil rt, h⟩
  | snoc _ hlast ih =>
    obtain ⟨mid, hbefore, hrefines⟩ := ih
    obtain ⟨rt', hafter, hrefines'⟩ := refines_step hrefines (hrun.trans hbefore) hlast
    exact ⟨rt', hbefore.trans hafter, hrefines'⟩

end Refinement

end RuntimeMonitor.RingRefinement
