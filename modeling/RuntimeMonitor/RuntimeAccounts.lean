import RuntimeMonitor.EventNumbers

/-!
The accounts of a run: the consumer's counters and the verifier follow from what
has been processed, and all invariants of the runtime hold in every state that a
run reaches. The streams of a slot are ordered: what is processed is a prefix of
what was pushed, which is part of what was attempted, a prefix of what was
reserved.
-/
namespace RuntimeMonitor.RuntimeAccounts

open TransitionRuns EventRecord VerifierTables VerifierCycles MonitorRuntime RuntimeSteps
open SlotOwnership RuntimeStreams EventNumbers

/-- The emissions that were refused for lack of a slot. -/
def refusals (tr : List Observation) : List EmitRequest :=
  tr.filterMap fun | .refused _ request => some request | _ => none

/-- The counters of the consumer and of refused emissions, and the verifier. -/
structure Accounted (maxHoldNs : ℕ) (rt : Runtime) (tr : List Observation) : Prop where
  verifier : rt.verifier = runCalls (monitorVerifierInit maxHoldNs) (verifierCalls tr)
  counted : ∀ slot, awaitingCount rt.consumer slot ≤ (eventsOn processedEvent slot tr).length
  consumed : ∀ slot, (rt.threadContexts slot).consumed =
    ((eventsOn processedEvent slot tr).length - awaitingCount rt.consumer slot) % 2 ^ 64
  unregistered : rt.unregisteredEvents = (refusals tr).length % 2 ^ 64

variable {gettid : ℕ → ℕ} {maxHoldNs : ℕ} {rt rt' : Runtime} {tr os : List Observation}
  {slot : ℕ}

theorem refusals_append (tr os : List Observation) :
    refusals (tr ++ os) = refusals tr ++ refusals os := List.filterMap_append ..

theorem Accounted.keep (h : Accounted maxHoldNs rt tr) (hcalls : verifierCalls os = [])
    (hprocessed : ∀ slot, eventsOn processedEvent slot os = []) (hrefused : refusals os = [])
    (hverifier : rt'.verifier = rt.verifier)
    (hawaiting : ∀ slot, awaitingCount rt'.consumer slot = awaitingCount rt.consumer slot)
    (hconsumed : ∀ slot, (rt'.threadContexts slot).consumed = (rt.threadContexts slot).consumed)
    (hunregistered : rt'.unregisteredEvents = rt.unregisteredEvents) :
    Accounted maxHoldNs rt' (tr ++ os) := by
  constructor
  · rw [verifierCalls_append, hcalls, List.append_nil, hverifier]
    exact h.verifier
  · intro slot
    rw [eventsOn_append, hprocessed, List.append_nil, hawaiting]
    exact h.counted slot
  · intro slot
    rw [eventsOn_append, hprocessed, List.append_nil, hawaiting, hconsumed]
    exact h.consumed slot
  · rw [refusals_append, hrefused, List.append_nil, hunregistered]
    exact h.unregistered

theorem Accounted.step (h : Accounted maxHoldNs rt tr) (howned : SlotsOwned rt tr)
    (ht : Transition gettid rt rt' os) : Accounted maxHoldNs rt' (tr ++ os) := by
  cases ht with
  | @refused thread request hpc =>
    constructor
    · exact h.verifier.trans (by simp [verifierCalls])
    · intro slot
      rw [eventsOn_other rfl]
      exact h.counted slot
    · intro slot
      rw [eventsOn_other rfl]
      exact h.consumed slot
    · have hcount := h.unregistered
      have hone : refusals [Observation.refused thread request] = [request] := rfl
      rw [refusals_append, hone, List.length_append, List.length_singleton]
      change succ64 rt.unregisteredEvents = _
      rw [hcount]
      unfold succ64
      omega
  | @initialised thread slot request hpc =>
    have hheld : heldSlot (rt.threads thread) = some slot := by simp [heldSlot, hpc, freshSlot]
    have htls := (howned.locals thread).context none (by rw [hpc]; rfl)
    have hunused := howned.unused slot (howned.dormant thread slot hheld htls)
    exact h.keep rfl (fun _ => rfl) rfl rfl (fun _ => rfl)
      (fun _ => setContext_agrees (·.consumed) hunused.2.2.2.2.symm) rfl
  | activated hpc | reserved hpc timestampNs hevent | counted hpc | pushed hpc hroom =>
    exact h.keep rfl (fun _ => rfl) rfl rfl (fun _ => rfl)
      (fun _ => setContext_agrees (·.consumed) rfl) rfl
  | dropCounted hpc =>
    exact h.keep rfl (fun _ => rfl) rfl rfl (fun _ => rfl)
      (fun _ => setContext_agrees (·.consumed) rfl) rfl
  | roundStarted hpc =>
    exact h.keep rfl (fun _ => rfl) rfl rfl (fun _ => by rw [hpc]; rfl) (fun _ => rfl) rfl
  | consumerMoved hmove =>
    refine h.keep rfl (fun _ => rfl) rfl rfl (fun slot => ?_) (fun _ => rfl) rfl
    obtain ⟨-, -, hbefore, hafter⟩ := consumerMove_hands hmove slot
    rw [hbefore, hafter]
  | popped hpc hqueue =>
    exact h.keep rfl (fun _ => rfl) rfl rfl (fun _ => by rw [hpc]; rfl)
      (fun _ => setContext_agrees (·.consumed) rfl) rfl
  | @processed round popped event hpc =>
    constructor
    · rw [verifierCalls_append, runCalls_append, ← h.verifier]
      rfl
    · intro slot
      rw [eventsOn_snoc rfl]
      by_cases heq : round.slot = slot <;> simp [awaitingCount, heq]
    · intro slot
      have hslot := h.consumed slot
      rw [hpc] at hslot
      rw [eventsOn_snoc rfl]
      by_cases heq : round.slot = slot
      · simpa [awaitingCount, heq] using hslot
      · simpa [awaitingCount, heq] using hslot
    · exact h.unregistered.trans (by simp [refusals])
  | @accounted round popped hpc =>
    constructor
    · exact h.verifier.trans (by simp [verifierCalls])
    · intro slot
      exact Nat.zero_le _
    · intro slot
      have hslot := h.consumed slot
      have hcounted := h.counted slot
      rw [hpc] at hslot hcounted
      rw [List.append_nil]
      by_cases heq : round.slot = slot
      · subst heq
        simp only [awaitingCount, if_true] at hslot hcounted
        simp only [Runtime.setContext_threadContexts, Function.update_self, hslot, succ64,
          awaitingCount]
        omega
      · simp only [awaitingCount, if_neg heq] at hslot
        simp only [Runtime.setContext_threadContexts, Function.update_of_ne (Ne.symm heq), hslot,
          awaitingCount]
    · exact h.unregistered.trans (by simp [refusals])
  | checked hpc =>
    constructor
    · rw [verifierCalls_append, runCalls_append, ← h.verifier]
      rfl
    · intro slot
      exact Nat.zero_le _
    · intro slot
      have hslot := h.consumed slot
      rw [hpc] at hslot
      rw [eventsOn_other rfl]
      exact hslot
    · exact h.unregistered.trans (by simp [refusals])
  | consumerReturned hpc hstopped =>
    exact h.keep rfl (fun _ => rfl) rfl rfl (fun _ => by rw [hpc]; rfl) (fun _ => rfl) rfl
  | _ => exact h.keep rfl (fun _ => rfl) rfl rfl (fun _ => rfl) (fun _ => rfl) rfl

/-- All invariants of the runtime in a state with the run that led to it. -/
structure Reached (gettid : ℕ → ℕ) (maxHoldNs : ℕ) (rt : Runtime) (tr : List Observation) :
    Prop where
  owned : SlotsOwned rt tr
  fifo : ∀ slot, FifoQueue rt tr slot
  attempted : Attempted rt tr
  numbered : Numbered rt tr
  identified : Identified gettid rt tr
  accounted : Accounted maxHoldNs rt tr

theorem reached_start (gettid : ℕ → ℕ) (maxHoldNs : ℕ) :
    Reached gettid maxHoldNs (monitorRuntimeStart maxHoldNs) [] where
  owned := slotsOwned_start maxHoldNs
  fifo _ := ⟨[], Run.nil _, rfl, rfl, rfl⟩
  attempted := ⟨fun _ => rfl, fun _ => rfl⟩
  numbered := ⟨rfl, rfl, fun _ => rfl, fun _ => rfl⟩
  identified := ⟨fun _ _ hown => by simp [claimants] at hown, fun _ _ hmem => by simp at hmem,
    fun _ _ => rfl⟩
  accounted := ⟨rfl, fun _ => le_rfl, fun _ => rfl, rfl⟩

theorem Reached.step (h : Reached gettid maxHoldNs rt tr) (ht : Transition gettid rt rt' os) :
    Reached gettid maxHoldNs rt' (tr ++ os) where
  owned := h.owned.step ht
  fifo slot := (h.fifo slot).step h.owned ht
  attempted := h.attempted.step h.owned ht
  numbered := h.numbered.step h.owned ht
  identified := h.identified.step h.owned ht
  accounted := h.accounted.step h.owned ht

/-- The invariants hold along every run. -/
theorem reached_run (hrun : Run (step gettid) (monitorRuntimeStart maxHoldNs) tr rt) :
    Reached gettid maxHoldNs rt tr :=
  hrun.invariant (fun _ _ _ _ _ h hstep => h.step (step_transition hstep))
    (reached_start gettid maxHoldNs)

theorem Reached.queued (h : Reached gettid maxHoldNs rt tr) (slot : ℕ) :
    eventsOn pushedEvent slot tr = eventsOn processedEvent slot tr ++ inHand rt.consumer slot ++
      (rt.threadContexts slot).queue := (h.fifo slot).conserved

theorem Reached.processed_prefix (h : Reached gettid maxHoldNs rt tr) (slot : ℕ) :
    eventsOn processedEvent slot tr <+: eventsOn pushedEvent slot tr := by
  rw [h.queued slot, List.append_assoc]
  exact List.prefix_append ..

theorem Reached.attempted_prefix (h : Reached gettid maxHoldNs rt tr) (slot : ℕ) :
    eventsOn attemptedEvent slot tr <+: eventsOn reservedEvent slot tr := by
  rw [h.attempted.reserved slot]
  exact List.prefix_append ..

theorem pushed_sublist (slot : ℕ) (tr : List Observation) :
    (eventsOn pushedEvent slot tr).Sublist (eventsOn attemptedEvent slot tr) := by
  induction tr with
  | nil => exact List.Sublist.refl _
  | cons o rest ih =>
    have hcons : ∀ kind, eventsOn kind slot (o :: rest) =
        eventsOn kind slot [o] ++ eventsOn kind slot rest :=
      fun kind => eventsOn_append kind slot [o] rest
    rw [hcons, hcons]
    refine List.Sublist.append ?_ ih
    cases o with
    | dropped thread slot' event => exact List.nil_sublist _
    | _ => exact List.Sublist.refl _

/-- Without drops everything attempted was pushed. -/
theorem pushed_eq_attempted (hdrops : eventsOn droppedEvent slot tr = []) :
    eventsOn pushedEvent slot tr = eventsOn attemptedEvent slot tr := by
  unfold eventsOn at hdrops ⊢
  rw [List.filterMap_eq_nil_iff] at hdrops
  apply List.filterMap_congr
  intro o ho
  have hnone := hdrops o ho
  cases o with
  | dropped thread slot' event =>
    simp only [droppedEvent, Option.bind_some, ite_eq_right_iff] at hnone
    simp only [pushedEvent, attemptedEvent, Option.bind_none, Option.bind_some]
    by_cases heq : slot' = slot
    · simp [heq] at hnone
    · simp [heq]
  | _ => rfl

end RuntimeMonitor.RuntimeAccounts
