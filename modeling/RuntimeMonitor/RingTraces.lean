import RuntimeMonitor.RingRefinement

/-!
The runtime over its rings has the traces of the runtime. A thread at its push and a
consumer at its pop can always make their next access, and after four accesses at most the
operation is decided; so each step of the runtime is matched by accesses to the rings.
-/
namespace RuntimeMonitor.RingTraces

open TransitionRuns EventRecord VerifierCycles MonitorRuntime RuntimeSteps SlotOwnership
open RuntimeStreams RuntimeAccounts SingleProducer RuntimeRings RingRefinement
open RingBuffer (spscRingCapacity)

variable {gettid : ℕ → ℕ} {maxHoldNs thread slot popped : ℕ} {rt rt' : Runtime}
  {c c' : RingRuntime} {tr os : List Observation} {event : MonitorEvent} {after : AfterEmission}

theorem pushStep_enabled (c : RingRuntime) (thread slot : ℕ) (event : MonitorEvent)
    (after : AfterEmission) : ∃ c' os, pushStep c thread slot event after = some (c', os) := by
  unfold pushStep
  cases c.pushing thread with
  | idle => exact ⟨_, _, rfl⟩
  | loadTail carried head =>
    by_cases hfull : RingBuffer.occupancy head (c.rings slot).tail ≥ RingBuffer.spscRingCapacity
    · simp only [RingBuffer.tryPush, if_pos hfull, Option.map_some]
      exact ⟨_, _, rfl⟩
    · simp only [RingBuffer.tryPush, if_neg hfull, Option.map_some]
      exact ⟨_, _, rfl⟩
  | copySlot carried head | publish carried head => exact ⟨_, _, rfl⟩

/-- A push that is left to itself is decided. -/
theorem push_decided (h : Refines c rt) (howned : SlotsOwned rt tr)
    (hpc : (rt.threads thread).pc = .push slot event after) :
    ∃ c' os, Run (ringStep gettid) c os c' ∧ ∃ rt',
      (∀ gettid environment, producerStep gettid rt thread environment = some (rt', os)) ∧
        Refines c' rt' := by
  refine run_ranked (Refines · rt) (fun c => pushDue (c.pushing thread)) (fun c h => ?_) h
  obtain ⟨c', os, hstep⟩ := pushStep_enabled c thread slot event after
  have hcthreads : c.runtime.threads = rt.threads := by rw [h.runtime]; rfl
  refine ⟨.producer thread {}, c', os, ?_, refines_pushStep h howned hpc hstep⟩
  simp only [ringStep, hcthreads, hpc]
  exact hstep

/-- A pop that is left to itself is decided. -/
theorem pop_decided (h : Refines c rt) (howned : SlotsOwned rt tr) {round : Round}
    (hpc : rt.consumer = .drain round popped) :
    ∃ c' os, Run (ringStep gettid) c os c' ∧ ∃ rt', consumerStep rt = some (rt', os) ∧
      Refines c' rt' := by
  refine run_ranked (Refines · rt) (fun c => popDue c.popping) (fun c h => ?_) h
  have hcconsumer : c.runtime.consumer = rt.consumer := by rw [h.runtime]; rfl
  refine ⟨.consumer, popStep c round popped, [], ?_, ?_⟩
  · simp only [ringStep, hcconsumer, hpc]
  · rcases refines_popStep h howned hpc with ⟨hkept, hdue⟩ | hmoved
    · exact Or.inl ⟨rfl, hkept, hdue⟩
    · exact Or.inr hmoved

/-- Each step of the runtime is matched by accesses to the rings. -/
theorem refines_back {action : Action} (h : Refines c rt)
    (hrun : Run (step gettid) (monitorRuntimeStart maxHoldNs) tr rt)
    (hstep : step gettid rt action = some (rt', os)) :
    ∃ c', Run (ringStep gettid) c os c' ∧ Refines c' rt' := by
  have hreached := reached_run hrun
  rcases offQueues_or rt action with hoff | ⟨thread, environment, slot, event, after, rfl, hpc⟩ |
    ⟨thread, environment, request, slot, rfl, hpc⟩ | ⟨round, popped, rfl, hpc⟩
  · have hring : ringStep gettid c action =
        some ({ c with runtime := withoutQueues rt' }, os) := by
      rw [ringStep_off h hoff, hstep]
      rfl
    exact ⟨_, Run.single hring, refines_quiet h hreached.owned (step_quiet hoff hstep)⟩
  · obtain ⟨c', made, hring, rt'', hproducer, hrefines⟩ := push_decided h hreached.owned hpc
    have hsame : some (rt'', made) = some (rt', os) :=
      (hproducer gettid environment).symm.trans hstep
    cases hsame
    exact ⟨c', hring, hrefines⟩
  · have hproducer : producerStep gettid rt thread environment = some (rt', os) := hstep
    have hring : ringStep gettid c (.producer thread environment) = _ :=
      ringStep_initialise h environment hpc
    rw [hproducer, Option.map_some] at hring
    exact ⟨_, Run.single hring, refines_initialised h hreached hpc hproducer⟩
  · obtain ⟨c', made, hring, rt'', hconsumer, hrefines⟩ := pop_decided h hreached.owned hpc
    have hsame : some (rt'', made) = some (rt', os) := hconsumer.symm.trans hstep
    cases hsame
    exact ⟨c', hring, hrefines⟩

/-- From related states both systems make the same observations. -/
theorem same_futures (h : Refines c rt)
    (hrun : Run (step gettid) (monitorRuntimeStart maxHoldNs) tr rt) (made : List Observation) :
    (∃ c', Run (ringStep gettid) c made c') ↔ ∃ rt', Run (step gettid) rt made rt' := by
  constructor
  · rintro ⟨c', hring⟩
    obtain ⟨rt', hmade, -⟩ := refines_run h hrun hring
    exact ⟨rt', hmade⟩
  · rintro ⟨rt', hmade⟩
    suffices hback : ∃ c', Run (ringStep gettid) c made c' ∧ Refines c' rt' by
      obtain ⟨c', hring, -⟩ := hback
      exact ⟨c', hring⟩
    induction hmade with
    | nil => exact ⟨c, Run.nil c, h⟩
    | snoc hbefore hlast ih =>
      obtain ⟨c', hring, hrefines⟩ := ih
      obtain ⟨c'', hmatched, hrefines'⟩ := refines_back hrefines (hrun.trans hbefore) hlast
      exact ⟨c'', hring.trans hmatched, hrefines'⟩

/-- The indices of a ring tell how long its queue is and where its events are. -/
theorem contains_slots {α : Type*} {s : RingBuffer.Spsc α} {queue : List α}
    (h : RingBuffer.Contains s queue) :
    RingBuffer.occupancy s.buffer.head s.buffer.tail = queue.length ∧
      ∀ k event, queue[k]? = some event →
        s.buffer.slots ((s.buffer.tail + k) % spscRingCapacity) = event := by
  obtain ⟨tr, hinv, hcontents⟩ := h
  have hlength := RingBuffer.contents_length hcontents
  refine ⟨by rw [hinv.occupancy_eq]; omega, fun k event hk => ?_⟩
  have hindex : (s.buffer.tail + k) % spscRingCapacity =
      ((RingBuffer.popped tr).length + k) % spscRingCapacity := by
    rw [hinv.tail_eq]
    unfold spscRingCapacity
    omega
  rw [hindex]
  apply hinv.slot_holds _ _ (Nat.le_add_right _ _)
  rw [hcontents, List.getElem?_append_right (Nat.le_add_right _ _), Nat.add_sub_cancel_left]
  exact hk

/-- Where each access of a push and of a pop is a step that all other threads may
interrupt, the runtime has the same traces as with queue operations in one piece, and at
every moment its rings hold the queues of a run that has the same past and the same
futures. -/
theorem ring_runtime_traces (gettid : ℕ → ℕ) (maxHoldNs : ℕ) (slots : ℕ → ℕ → MonitorEvent) :
    (∀ tr, (∃ c, Run (ringStep gettid) (ringRuntimeStart maxHoldNs slots) tr c) ↔
      ∃ rt, Run (step gettid) (monitorRuntimeStart maxHoldNs) tr rt) ∧
    ∀ tr c, Run (ringStep gettid) (ringRuntimeStart maxHoldNs slots) tr c →
      ∃ rt, Run (step gettid) (monitorRuntimeStart maxHoldNs) tr rt ∧
        c.runtime = withoutQueues rt ∧
        (∀ slot, RingBuffer.occupancy (c.rings slot).head (c.rings slot).tail =
            (rt.threadContexts slot).queue.length ∧
          ∀ k event, (rt.threadContexts slot).queue[k]? = some event →
            (c.rings slot).slots (((c.rings slot).tail + k) % spscRingCapacity) = event) ∧
        ∀ made, (∃ c', Run (ringStep gettid) c made c') ↔
          ∃ rt', Run (step gettid) rt made rt' := by
  have hstart := refines_start maxHoldNs slots
  refine ⟨fun tr => same_futures hstart (Run.nil _) tr, fun tr c hring => ?_⟩
  obtain ⟨rt, hrun, hrefines⟩ := refines_run hstart (Run.nil _) hring
  refine ⟨rt, hrun, hrefines.runtime, fun slot => ?_, same_futures hrefines hrun⟩
  obtain ⟨pc, hpushing⟩ := exists_pushingOn c slot
  exact contains_slots (hrefines.stored slot pc hpushing)

end RuntimeMonitor.RingTraces
