import RuntimeMonitor.RoundSnapshots

/-!
What the consumer has drained when it returns. The exit test combines a flag
loaded at the end of a round with the emptiness of each queue at its own poll, so
an event that reaches a queue behind the consumer's position is drained only if a
later round follows. The main theorem says when that is guaranteed.
-/
namespace RuntimeMonitor.ShutdownDrain

open TransitionRuns EventRecord VerifierTables VerifierCycles MonitorRuntime RuntimeSteps
open SlotOwnership RuntimeStreams EventNumbers RuntimeAccounts RoundSnapshots

def isReturn (slot : ℕ) : Observation → Bool
  | .returned _ slot' => decide (slot' = slot)
  | _ => false

/-- The run up to the last return of an emit call on a slot. -/
def untilReturn (slot : ℕ) (tr : List Observation) : List Observation :=
  (tr.reverse.dropWhile fun o => !isReturn slot o).reverse

/-- The events accepted by the queue of a slot whose emit call has returned. -/
def returnedPushes (slot : ℕ) (tr : List Observation) : List MonitorEvent :=
  eventsOn pushedEvent slot (untilReturn slot tr)

/-- The slots that a round without events has still to poll; nothing when the
round has found an event or the next round has yet to begin. -/
def unpolled : ConsumerPc → Option (ℕ × ℕ)
  | .poll round => if round.consumedAny then none else some (round.slot, round.count)
  | .drain round popped =>
    if round.consumedAny || decide (0 < popped) then none else some (round.slot, round.count)
  | .check | .loadRunning false | .returned => some (0, 0)
  | _ => none

/-- All slots outside a range have been drained up to `length`. -/
def DrainedOutside (length : ℕ → ℕ) (tr : List Observation) (range : ℕ × ℕ) : Prop :=
  ∀ slot, slot < range.1 ∨ range.2 ≤ slot →
    length slot ≤ (eventsOn processedEvent slot tr).length

/-- The consumer's round is idle so far and all queues it has still to poll are
empty, but a queue that it has passed or not counted holds an event whose emit
call has returned. -/
def Overtaken (rt : Runtime) (tr : List Observation) : Prop :=
  ∃ range, unpolled rt.consumer = some range ∧
    (∀ i, range.1 ≤ i → i < range.2 → (rt.threadContexts i).queue = []) ∧
    ¬ DrainedOutside (fun slot => (returnedPushes slot tr).length) tr range

/-- The round in progress will find an event or has drained what it has passed. -/
def Draining (length : ℕ → ℕ) (rt : Runtime) (tr : List Observation) : Prop :=
  ∀ range, unpolled rt.consumer = some range →
    (∃ i, range.1 ≤ i ∧ i < range.2 ∧ (rt.threadContexts i).queue ≠ []) ∨
      DrainedOutside length tr range

variable {gettid : ℕ → ℕ} {maxHoldNs : ℕ} {rt rt' : Runtime} {tr os before : List Observation}
  {slot : ℕ} {length : ℕ → ℕ}

theorem untilReturn_initial (slot : ℕ) (tr : List Observation) : untilReturn slot tr <+: tr := by
  unfold untilReturn
  rw [← List.reverse_suffix, List.reverse_reverse]
  exact List.dropWhile_suffix _

theorem returnedPushes_initial (slot : ℕ) (tr : List Observation) :
    returnedPushes slot tr <+: eventsOn pushedEvent slot tr := by
  obtain ⟨rest, hrest⟩ := untilReturn_initial slot tr
  unfold returnedPushes
  conv_rhs => rw [← hrest]
  rw [eventsOn_append]
  exact List.prefix_append ..

theorem draining_of_not_overtaken (h : ¬ Overtaken rt tr) :
    Draining (fun slot => (returnedPushes slot tr).length) rt tr := by
  intro range hrange
  by_contra hcon
  rw [not_or] at hcon
  apply h
  refine ⟨range, hrange, ?_, hcon.2⟩
  intro i hle hlt
  by_contra hqueue
  exact hcon.1 ⟨i, hle, hlt, hqueue⟩

theorem DrainedOutside.extend {range : ℕ × ℕ} (h : DrainedOutside length tr range)
    (os : List Observation) : DrainedOutside length (tr ++ os) range := by
  intro slot hslot
  rw [eventsOn_append, List.length_append]
  exact (h slot hslot).trans (Nat.le_add_right ..)

/-- The steps of the other parties: queues only grow. -/
theorem Draining.grow (h : Draining length rt tr) (hconsumer : rt'.consumer = rt.consumer)
    (hqueue : ∀ i, (rt.threadContexts i).queue ≠ [] → (rt'.threadContexts i).queue ≠ []) :
    Draining length rt' (tr ++ os) := by
  intro range hrange
  rw [hconsumer] at hrange
  rcases h range hrange with ⟨i, hle, hlt, hne⟩ | hdrained
  · exact Or.inl ⟨i, hle, hlt, hqueue i hne⟩
  · exact Or.inr (hdrained.extend os)

theorem Draining.keep (h : Draining length rt tr) (hconsumer : rt'.consumer = rt.consumer)
    (hqueue : ∀ i, (rt'.threadContexts i).queue = (rt.threadContexts i).queue) :
    Draining length rt' (tr ++ os) :=
  h.grow hconsumer fun i hne => by rwa [hqueue i]

/-- The consumer finds nothing on the slot at its position. -/
theorem Draining.pass {i count : ℕ} (h : (∃ j, i ≤ j ∧ j < count ∧
      (rt.threadContexts j).queue ≠ []) ∨ DrainedOutside length tr (i, count))
    (hempty : (rt.threadContexts i).queue = [])
    (hdrained : length i ≤ (eventsOn processedEvent i tr).length) :
    (∃ j, i + 1 ≤ j ∧ j < count ∧ (rt.threadContexts j).queue ≠ []) ∨
      DrainedOutside length tr (i + 1, count) := by
  rcases h with ⟨j, hle, hlt, hne⟩ | houtside
  · have hij : j ≠ i := by
      intro heq
      rw [heq] at hne
      exact hne hempty
    exact Or.inl ⟨j, by omega, hlt, hne⟩
  · refine Or.inr fun slot hslot => ?_
    by_cases heq : slot = i
    · rw [heq]
      exact hdrained
    · exact houtside slot (by
        simp only at hslot ⊢
        omega)

theorem Draining.move {pc : ConsumerPc} (h : Draining length rt tr)
    (hreached : Reached gettid maxHoldNs rt tr)
    (hlength : ∀ slot, length slot ≤ (eventsOn pushedEvent slot tr).length)
    (hmove : ConsumerMove rt rt.consumer pc) : Draining length { rt with consumer := pc } tr := by
  intro range hrange
  have hqueued := hreached.queued
  cases hpc : rt.consumer with
  | poll round =>
    rw [hpc] at hmove
    have hbefore : round.consumedAny = false → (∃ j, round.slot ≤ j ∧ j < round.count ∧
        (rt.threadContexts j).queue ≠ []) ∨
        DrainedOutside length tr (round.slot, round.count) := by
      intro hany
      exact h (round.slot, round.count) (by rw [hpc]; simp [unpolled, hany])
    cases hmove with
    | active hslot hactive =>
      simp only [unpolled, Nat.lt_irrefl, decide_false, Bool.or_false,
        Option.ite_none_left_eq_some, Bool.not_eq_true, Option.some.injEq] at hrange
      rw [← hrange.2]
      exact hbefore hrange.1
    | inactive hslot hactive =>
      simp only [unpolled, Round.next, Nat.lt_irrefl, decide_false, Bool.or_false,
        Option.ite_none_left_eq_some, Bool.not_eq_true, Option.some.injEq] at hrange
      rw [← hrange.2]
      refine Draining.pass (hbefore hrange.1) (hreached.owned.unused _ hactive).1 ?_
      have hnone := hlength round.slot
      rw [pushed_of_inactive hreached hactive] at hnone
      exact hnone.trans (Nat.zero_le _)
    | busy hslot hany => simp [unpolled] at hrange
    | idle hslot hany =>
      right
      rcases hbefore hany with ⟨j, hle, hlt, -⟩ | hdrained
      · omega
      · intro slot _
        exact hdrained slot (by
          simp only
          omega)
  | drain round popped =>
    rw [hpc] at hmove
    cases hmove with
    | batch hpopped =>
      have hpositive : 0 < popped := lt_of_lt_of_le (by decide) hpopped
      simp [unpolled, Round.next, hpositive] at hrange
    | empty hqueue =>
      rw [unpolled, Option.ite_none_left_eq_some, Option.some.injEq] at hrange
      have hbefore := h (round.slot, round.count) (by
        rw [hpc]
        exact if_neg hrange.1)
      rw [← hrange.2]
      refine Draining.pass hbefore hqueue ?_
      have hpushed := hlength round.slot
      rw [hqueued round.slot, hpc, hqueue] at hpushed
      simpa [inHand] using hpushed
  | loadRunning consumedAny =>
    rw [hpc] at hmove
    cases hmove
    simp [unpolled] at hrange
  | loadCount | process | account | check | returned =>
    rw [hpc] at hmove
    cases hmove

theorem Draining.step (h : Draining length rt tr) (hreached : Reached gettid maxHoldNs rt tr)
    (hlength : ∀ slot, length slot ≤ (eventsOn pushedEvent slot tr).length)
    (ht : Transition gettid rt rt' os) : Draining length rt' (tr ++ os) := by
  cases ht with
  | @initialised thread slot request hpc =>
    have hheld : heldSlot (rt.threads thread) = some slot := by simp [heldSlot, hpc, freshSlot]
    have htls := (hreached.owned.locals thread).context none (by rw [hpc]; rfl)
    have hunused := hreached.owned.unused slot (hreached.owned.dormant thread slot hheld htls)
    exact h.keep rfl fun _ => setContext_agrees (·.queue) hunused.1.symm
  | @pushed thread slot event after hpc hroom =>
    refine h.grow rfl fun i hne => ?_
    by_cases heq : i = slot
    · subst heq
      simp
    · simpa [Function.update_of_ne heq] using hne
  | activated hpc | reserved hpc timestampNs hevent | counted hpc | dropCounted hpc =>
    exact h.keep rfl fun _ => setContext_agrees (·.queue) rfl
  | roundStarted hpc =>
    intro range hrange
    simp only [unpolled, Bool.false_eq_true, if_false, Option.some.injEq] at hrange
    right
    intro slot hslot
    rw [← hrange] at hslot
    have hoff := hreached.owned.unclaimed slot (by
      simp only at hslot
      omega)
    have hnone := hlength slot
    rw [pushed_of_inactive hreached hoff] at hnone
    exact hnone.trans (Nat.zero_le _)
  | consumerMoved hmove =>
    rw [List.append_nil]
    exact h.move hreached hlength hmove
  | popped hpc hqueue =>
    intro range hrange
    simp [unpolled] at hrange
  | processed hpc =>
    intro range hrange
    simp [unpolled] at hrange
  | accounted hpc =>
    intro range hrange
    simp [unpolled] at hrange
  | checked hpc =>
    intro range hrange
    have hbefore := h (0, 0) (by rw [hpc]; rfl)
    simp only [unpolled, Option.some.injEq] at hrange
    rw [← hrange]
    exact hbefore.imp id (DrainedOutside.extend · _)
  | consumerReturned hpc hstopped =>
    intro range hrange
    have hbefore := h (0, 0) (by rw [hpc]; rfl)
    simp only [unpolled, Option.some.injEq] at hrange
    rw [← hrange]
    exact hbefore.imp id (DrainedOutside.extend · _)
  | _ => exact h.keep rfl (fun _ => rfl)

theorem draining_run {after : List Observation} (hreached : Reached gettid maxHoldNs rt tr)
    (h : Draining length rt tr)
    (hlength : ∀ slot, length slot ≤ (eventsOn pushedEvent slot tr).length)
    (hrun : Run (step gettid) rt after rt') :
    Reached gettid maxHoldNs rt' (tr ++ after) ∧ Draining length rt' (tr ++ after) := by
  have hinvariant := hrun.invariant_after (I := fun rt tr => Reached gettid maxHoldNs rt tr ∧
    Draining length rt tr ∧ ∀ slot, length slot ≤ (eventsOn pushedEvent slot tr).length)
    (by
      intro rt tr a rt' os ⟨hreached, hdraining, hlength⟩ hstep
      have ht := step_transition hstep
      refine ⟨hreached.step ht, hdraining.step hreached hlength ht, fun slot => ?_⟩
      rw [eventsOn_append, List.length_append]
      exact (hlength slot).trans (Nat.le_add_right ..)) tr ⟨hreached, h, hlength⟩
  exact ⟨hinvariant.1, hinvariant.2.1⟩

/-- If the consumer is not overtaken when `monitor_runtime_stop` is called, then by
the time it returns it has processed every event that a queue had accepted and
whose emit call had returned before. -/
theorem shutdown_drains (gettid : ℕ → ℕ) (maxHoldNs : ℕ) {before after : List Observation}
    {rt rt₁ rt₂ : Runtime}
    (hbefore : Run (step gettid) (monitorRuntimeStart maxHoldNs) before rt)
    (hstop : step gettid rt .stop = some (rt₁, [.stopCalled]))
    (hovertaken : ¬ Overtaken rt before) (hafter : Run (step gettid) rt₁ after rt₂)
    (hreturned : rt₂.consumer = .returned) (slot : ℕ) :
    returnedPushes slot before <+:
      eventsOn processedEvent slot (before ++ [.stopCalled] ++ after) := by
  have hreached := reached_run hbefore
  have hinitial := returnedPushes_initial slot before
  obtain ⟨hend, hdrained⟩ := draining_run hreached (draining_of_not_overtaken hovertaken)
    (fun slot => (returnedPushes_initial slot before).length_le) ((Run.single hstop).trans hafter)
  rw [← List.append_assoc] at hend hdrained
  have hpushed : returnedPushes slot before <+:
      eventsOn pushedEvent slot (before ++ [.stopCalled] ++ after) := by
    rw [List.append_assoc, eventsOn_append]
    exact hinitial.trans (List.prefix_append ..)
  have hprocessed := hend.processed_prefix slot
  rcases hdrained (0, 0) (by rw [hreturned]; rfl) with ⟨i, -, hlt, -⟩ | hall
  · omega
  · exact List.prefix_of_prefix_length_le hpushed hprocessed
      (hall slot (Or.inr (Nat.zero_le slot)))

/-- The consumer drains counted slots only. -/
def DrainsCounted : ConsumerPc → Prop
  | .drain round _ | .process round _ _ | .account round _ => round.slot < round.count
  | _ => True

theorem consumerMove_counted {pc pc' : ConsumerPc} (hmove : ConsumerMove rt pc pc') :
    DrainsCounted pc' := by
  cases hmove with
  | active hslot hactive => exact hslot
  | _ => trivial

theorem drainsCounted_run (hrun : Run (step gettid) (monitorRuntimeStart maxHoldNs) tr rt) :
    DrainsCounted rt.consumer := by
  apply hrun.state_invariant (I := fun rt => DrainsCounted rt.consumer)
  · intro rt a rt' os h hstep
    cases step_transition hstep with
    | consumerMoved hmove => exact consumerMove_counted hmove
    | popped hpc hqueue | processed hpc | accounted hpc =>
      rw [hpc] at h
      exact h
    | roundStarted | checked | consumerReturned => trivial
    | _ => exact h
  · trivial

/-- The consumer goes over empty queues to the end of an idle round. -/
theorem idle_round_ends (slot count : ℕ)
    (hempty : ∀ i, slot ≤ i → i < count → (rt.threadContexts i).queue = [])
    (hpc : rt.consumer = .poll ⟨slot, count, false⟩) :
    Run (step gettid) rt [] { rt with consumer := .check } := by
  induction hleft : count - slot generalizing slot rt with
  | zero =>
    apply Run.single (a := .consumer)
    have hslot : ¬ slot < count := by omega
    simp [step, consumerStep, hpc, hslot]
  | succ left ih =>
    have hslot : slot < count := by omega
    have hnext : Run (step gettid) rt []
        { rt with consumer := .poll ⟨slot + 1, count, false⟩ } := by
      by_cases hactive : (rt.threadContexts slot).active = true
      · have hpoll : step gettid rt .consumer =
            some ({ rt with consumer := .drain ⟨slot, count, false⟩ 0 }, []) := by
          simp [step, consumerStep, hpc, hslot, hactive]
        refine (Run.single hpoll).trans (Run.single (a := .consumer) ?_)
        have hqueue := hempty slot le_rfl hslot
        simp [step, consumerStep, hqueue, Round.next, monitorDrainBatch]
      · apply Run.single (a := .consumer)
        rw [Bool.not_eq_true] at hactive
        simp [step, consumerStep, hpc, hslot, hactive, Round.next]
    exact hnext.trans (ih (slot + 1) (fun i hle hlt => hempty i (by omega) hlt) rfl (by omega))

theorem idle_flag_ends (hpc : rt.consumer = .loadRunning false)
    (hstopped : rt.consumerRunning = false) :
    Run (step gettid) rt [.consumerReturned] { rt with consumer := .returned } := by
  apply Run.single (a := .consumer)
  simp [step, consumerStep, hpc, hstopped]

theorem idle_check_ends (gettid : ℕ → ℕ) (rt : Runtime) (hpc : rt.consumer = .check)
    (hstopped : rt.consumerRunning = false) :
    ∃ rt', Run (step gettid) rt [.checked, .consumerReturned] rt' ∧ rt'.consumer = .returned := by
  have hcheck : step gettid rt .consumer = some ({ rt with
      verifier := applyCall rt.verifier .checkDeadlocks
      consumer := .loadRunning false }, [.checked]) := by
    simp [step, consumerStep, hpc]
  exact ⟨_, (Run.single hcheck).trans (idle_flag_ends rfl hstopped), rfl⟩

/-- With the flag cleared and nothing left to find, the consumer returns without
another event. -/
theorem idle_round_returns (gettid : ℕ → ℕ) (rt : Runtime) {range : ℕ × ℕ}
    (hrange : unpolled rt.consumer = some range)
    (hempty : ∀ i, range.1 ≤ i → i < range.2 → (rt.threadContexts i).queue = [])
    (hcounted : DrainsCounted rt.consumer) (hstopped : rt.consumerRunning = false) :
    ∃ after rt', Run (step gettid) rt after rt' ∧ rt'.consumer = .returned ∧
      ∀ slot, eventsOn processedEvent slot after = [] := by
  cases hpc : rt.consumer with
  | poll round =>
    rw [hpc, unpolled, Option.ite_none_left_eq_some, Option.some.injEq] at hrange
    obtain ⟨hany, rfl⟩ := hrange
    rw [Bool.not_eq_true] at hany
    have hround : Run (step gettid) rt [] { rt with consumer := .check } :=
      idle_round_ends round.slot round.count hempty (by rw [hpc, ← hany])
    obtain ⟨rt', hend, hreturned⟩ := idle_check_ends gettid
      { rt with consumer := .check } rfl hstopped
    exact ⟨_, rt', hround.trans hend, hreturned, fun _ => rfl⟩
  | drain round popped =>
    rw [hpc, unpolled, Option.ite_none_left_eq_some, Option.some.injEq] at hrange
    obtain ⟨hany, rfl⟩ := hrange
    rw [Bool.not_eq_true, Bool.or_eq_false_iff, decide_eq_false_iff_not, Nat.not_lt,
      Nat.le_zero] at hany
    rw [hpc] at hcounted
    have hqueue := hempty round.slot le_rfl hcounted
    have hdrain : step gettid rt .consumer =
        some ({ rt with consumer := .poll (round.next 0) }, []) := by
      simp [step, consumerStep, hpc, hqueue, hany.2]
    have hround : Run (step gettid) { rt with consumer := .poll (round.next 0) } []
        { rt with consumer := .check } :=
      idle_round_ends (round.slot + 1) round.count
        (fun i hle hlt => hempty i (by simp only; omega) hlt)
        (by simp [Round.next, hany.1])
    obtain ⟨rt', hend, hreturned⟩ := idle_check_ends gettid
      { rt with consumer := .check } rfl hstopped
    exact ⟨_, rt', ((Run.single hdrain).trans hround).trans hend, hreturned, fun _ => rfl⟩
  | check =>
    obtain ⟨rt', hend, hreturned⟩ := idle_check_ends gettid rt hpc hstopped
    exact ⟨_, rt', hend, hreturned, fun _ => rfl⟩
  | loadRunning consumedAny =>
    cases consumedAny with
    | false => exact ⟨_, _, idle_flag_ends hpc hstopped, rfl, fun _ => rfl⟩
    | true =>
      rw [hpc] at hrange
      simp [unpolled] at hrange
  | returned => exact ⟨[], rt, Run.nil rt, hpc, fun _ => rfl⟩
  | loadCount | process | account =>
    rw [hpc] at hrange
    simp [unpolled] at hrange

/-- The condition is exact: wherever the consumer is overtaken, the runtime can stop
without the verifier having processed the event. -/
theorem overtaken_loses_event (hrun : Run (step gettid) (monitorRuntimeStart maxHoldNs) tr rt)
    (hcall : rt.stopper = .notCalled) (h : Overtaken rt tr) :
    ∃ rt₁ after rt₂ slot, step gettid rt .stop = some (rt₁, [.stopCalled]) ∧
      Run (step gettid) rt₁ after rt₂ ∧ rt₂.consumer = .returned ∧
      ¬ returnedPushes slot tr <+:
        eventsOn processedEvent slot (tr ++ [.stopCalled] ++ after) := by
  obtain ⟨range, hrange, hempty, houtside⟩ := h
  simp only [DrainedOutside, not_forall, not_le] at houtside
  obtain ⟨slot, -, hlost⟩ := houtside
  have hcounted := drainsCounted_run hrun
  let rt₁ : Runtime := { rt with acceptEvents := false, stopper := .storeRunning }
  let rt₂ : Runtime := { rt₁ with consumerRunning := false, stopper := .join }
  have hcalled : step gettid rt .stop = some (rt₁, [.stopCalled]) := by
    simp [step, stopStep, hcall, rt₁]
  have hcleared : step gettid rt₁ .stop = some (rt₂, []) := by
    simp [step, stopStep, rt₁, rt₂]
  obtain ⟨after, rt₃, hend, hreturned, hnone⟩ := idle_round_returns gettid rt₂ hrange hempty
    hcounted rfl
  refine ⟨rt₁, after, rt₃, slot, hcalled, (Run.single hcleared).trans hend, hreturned, ?_⟩
  intro hinitial
  have hlength := hinitial.length_le
  rw [eventsOn_append, eventsOn_append, hnone, List.append_nil] at hlength
  have hstop : eventsOn processedEvent slot [Observation.stopCalled] = [] := rfl
  rw [hstop, List.append_nil] at hlength
  omega

/-- A thread registers and its first emit call returns between two rounds. -/
def emittedBetweenRounds : Runtime × List Observation :=
  after (step id) (monitorRuntimeStart 0) (firstEmission 1 .lockRequest 100)

/-- The same after the consumer has found no context to poll. -/
def emittedBehindPoll : Runtime × List Observation :=
  after (step id) (monitorRuntimeStart 0)
    (List.replicate 2 .consumer ++ firstEmission 1 .lockRequest 100)

/-- The state after the call of `monitor_runtime_stop`. -/
def stopping (rt : Runtime) : Runtime :=
  { rt with acceptEvents := false, stopper := .storeRunning }

/-- The flag is cleared and the consumer goes on. -/
def shutdown (rt : Runtime) (steps : ℕ) : Runtime × List Observation :=
  after (step id) (stopping rt) (.stop :: List.replicate steps .consumer)

theorem stop_stopping {rt : Runtime} (h : rt.stopper = .notCalled) :
    step gettid rt .stop = some (stopping rt, [.stopCalled]) := by
  simp [step, stopStep, h, stopping]

theorem not_overtaken_between_rounds :
    ¬ Overtaken emittedBetweenRounds.1 emittedBetweenRounds.2 := by
  have hpc : emittedBetweenRounds.1.consumer = .loadCount := by decide +kernel
  intro ⟨range, hrange, _⟩
  rw [hpc] at hrange
  simp [unpolled] at hrange

theorem shutdown_drains_between_rounds :
    (returnedPushes 0 emittedBetweenRounds.2).length = 2 ∧
      returnedPushes 0 emittedBetweenRounds.2 <+: eventsOn processedEvent 0
        (emittedBetweenRounds.2 ++ [.stopCalled] ++ (shutdown emittedBetweenRounds.1 17).2) := by
  refine ⟨by decide +kernel, ?_⟩
  exact shutdown_drains id 0 (run_after (by decide +kernel))
    (stop_stopping (by decide +kernel)) not_overtaken_between_rounds
    (run_after (by decide +kernel)) (by decide +kernel) 0

/-- An event that reaches a queue after its poll, in a round that stays idle, is left
in the queue when the flag is cleared before the end of that round. -/
theorem returned_event_left_in_queue :
    ¬ ∀ (gettid : ℕ → ℕ) (maxHoldNs : ℕ) (before after : List Observation)
      (rt rt₁ rt₂ : Runtime), Run (step gettid) (monitorRuntimeStart maxHoldNs) before rt →
      step gettid rt .stop = some (rt₁, [.stopCalled]) → Run (step gettid) rt₁ after rt₂ →
      rt₂.consumer = .returned → ∀ slot,
      returnedPushes slot before <+: eventsOn processedEvent slot
        (before ++ [.stopCalled] ++ after) := by
  intro hall
  have hinitial := hall id 0 emittedBehindPoll.2 (shutdown emittedBehindPoll.1 2).2
    emittedBehindPoll.1 (stopping emittedBehindPoll.1) (shutdown emittedBehindPoll.1 2).1
    (run_after (by decide +kernel)) (stop_stopping (by decide +kernel))
    (run_after (by decide +kernel)) (by decide +kernel) 0
  revert hinitial
  decide +kernel

end RuntimeMonitor.ShutdownDrain
