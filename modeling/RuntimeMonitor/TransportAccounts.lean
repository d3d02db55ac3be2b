import RuntimeMonitor.RuntimeAccounts

/-!
Conservation of events in transport. On every slot, what the owner has generated is
what it has dropped, what the queue has accepted and the event on its way; what the
queue has accepted is what the consumer has consumed, what the queue holds and the
event in the consumer's hands. All counters are taken modulo 2^64.
-/
namespace RuntimeMonitor.TransportAccounts

open TransitionRuns EventRecord VerifierTables VerifierCycles MonitorRuntime RuntimeSteps
open SlotOwnership RuntimeStreams EventNumbers RuntimeAccounts

/-- The drop that has been decided but not counted. -/
def awaitingDrop (pc : ProducerPc) (slot : ℕ) : ℕ :=
  match pc with
  | .countDropped slot' _ => if slot' = slot then 1 else 0
  | _ => 0

/-- Some thread has counted an event of the slot as generated, and the event has
neither been accepted nor counted as dropped. -/
def Emitting (rt : Runtime) (slot : ℕ) : Prop :=
  ∃ thread, (∃ event after, (rt.threads thread).pc = .push slot event after) ∨
    ∃ after, (rt.threads thread).pc = .countDropped slot after

/-- The consumer has popped an event of the slot and not counted it as consumed. -/
def Consuming (rt : Runtime) (slot : ℕ) : Prop :=
  ∃ round : Round, round.slot = slot ∧
    ((∃ popped event, rt.consumer = .process round popped event) ∨
      ∃ popped, rt.consumer = .account round popped)

/-- The counter of drops is behind the drops by the one that is not counted yet. -/
def DropsCounted (rt : Runtime) (tr : List Observation) : Prop :=
  ∀ slot, ((rt.threadContexts slot).dropped + awaitingDrop (ownerPc rt tr slot) slot) % 2 ^ 64 =
    (eventsOn droppedEvent slot tr).length % 2 ^ 64

variable {gettid : ℕ → ℕ} {maxHoldNs : ℕ} {rt rt' : Runtime} {tr os : List Observation} {slot : ℕ}

theorem DropsCounted.keep (h : DropsCounted rt tr)
    (hdrops : ∀ slot, eventsOn droppedEvent slot os = [])
    (hawaiting : ∀ slot, awaitingDrop (ownerPc rt' (tr ++ os) slot) slot =
      awaitingDrop (ownerPc rt tr slot) slot)
    (hdropped : ∀ slot, (rt'.threadContexts slot).dropped = (rt.threadContexts slot).dropped) :
    DropsCounted rt' (tr ++ os) := by
  intro slot
  rw [eventsOn_append, hdrops, List.append_nil, hawaiting, hdropped]
  exact h slot

/-- A thread moves between positions without a drop on its hands. -/
theorem DropsCounted.quiet (h : DropsCounted rt tr) {thread : ℕ} {locals : ThreadLocals}
    (hthreads : rt'.threads = Function.update rt.threads thread locals)
    (hclaim : claimants os = []) (hdrops : ∀ slot, eventsOn droppedEvent slot os = [])
    (hbefore : ∀ slot, awaitingDrop (rt.threads thread).pc slot = 0)
    (hafter : ∀ slot, awaitingDrop locals.pc slot = 0)
    (hdropped : ∀ slot, (rt'.threadContexts slot).dropped = (rt.threadContexts slot).dropped) :
    DropsCounted rt' (tr ++ os) := by
  apply h.keep hdrops _ hdropped
  apply ownerView_moved awaitingDrop hthreads hclaim
  intro slot
  rw [hbefore, hafter]

theorem awaitingDrop_resume (slot' : ℕ) (after : AfterEmission) (slot : ℕ) :
    awaitingDrop (after.resume slot') slot = 0 := by
  cases after <;> rfl

theorem localMove_awaitingDrop {locals locals' : ThreadLocals}
    (hmove : LocalMove rt locals locals') (slot : ℕ) :
    awaitingDrop locals.pc slot = 0 ∧ awaitingDrop locals'.pc slot = 0 := by
  cases hmove with
  | @called request hpc haccept hinternal =>
    rw [hpc]
    refine ⟨rfl, ?_⟩
    unfold registerCurrentThread
    cases locals.tlsContext with
    | some slot => rfl
    | none =>
      by_cases hfailed : locals.tlsRegistrationFailed = true <;> simp [hfailed, awaitingDrop]
  | exiting hpc hkey hready =>
    rw [hpc]
    refine ⟨rfl, ?_⟩
    by_cases haccept : rt.acceptEvents = true <;> simp [haccept, awaitingDrop]
  | slotLoaded hpc | full hpc hfull | retried hpc hlt | keySet hpc hready | closed hpc =>
    rw [hpc]
    exact ⟨rfl, rfl⟩

theorem DropsCounted.step (h : DropsCounted rt tr) (howned : SlotsOwned rt tr)
    (ht : Transition gettid rt rt' os) : DropsCounted rt' (tr ++ os) := by
  cases ht with
  | @moved thread locals hmove =>
    exact h.quiet rfl rfl (fun _ => rfl) (fun slot => (localMove_awaitingDrop hmove slot).1)
      (fun slot => (localMove_awaitingDrop hmove slot).2) (fun _ => rfl)
  | claimed hpc hlt =>
    refine h.keep (fun _ => rfl) ?_ (fun _ => rfl)
    exact ownerView_claimed awaitingDrop howned (fun _ => rfl) (fun _ => by rw [hpc]; rfl)
  | @initialised thread slot request hpc =>
    have hheld : heldSlot (rt.threads thread) = some slot := by simp [heldSlot, hpc, freshSlot]
    have htls := (howned.locals thread).context none (by rw [hpc]; rfl)
    have hunused := howned.unused slot (howned.dormant thread slot hheld htls)
    exact h.quiet rfl rfl (fun _ => rfl) (fun _ => by rw [hpc]; rfl) (fun _ => rfl)
      (fun _ => setContext_agrees (·.dropped) hunused.2.2.1.symm)
  | refused hpc | keyFailed hpc | left hpc =>
    exact h.quiet rfl rfl (fun _ => rfl) (fun _ => by rw [hpc]; rfl) (fun _ => rfl) (fun _ => rfl)
  | activated hpc | counted hpc | reserved hpc timestampNs hevent =>
    exact h.quiet rfl rfl (fun _ => rfl) (fun _ => by rw [hpc]; rfl) (fun _ => rfl)
      (fun _ => setContext_agrees (·.dropped) rfl)
  | @pushed thread slot' event after hpc hroom =>
    exact h.quiet rfl rfl (fun _ => rfl) (fun _ => by rw [hpc]; rfl)
      (awaitingDrop_resume slot' after)
      (fun _ => setContext_agrees (·.dropped) rfl)
  | @dropped thread slot' event after hpc hfull =>
    have hown := (howned.works slot' (by rw [hpc]; rfl)).2.2
    intro slot
    rw [ownerView_works rt awaitingDrop rfl rfl hown
      (fun slot hne => by rw [hpc]; simp [awaitingDrop, Ne.symm hne]), eventsOn_snoc rfl]
    have hslot := h slot
    by_cases heq : slot = slot'
    · subst heq
      rw [ownerPc_own rt hown, hpc] at hslot
      simp only [awaitingDrop, if_true, List.length_append, List.length_singleton] at hslot ⊢
      show ((rt.threadContexts slot).dropped + 1) % 2 ^ 64 = _
      omega
    · simp only [if_neg heq, if_neg (Ne.symm heq), List.append_nil]
      exact hslot
  | @dropCounted thread slot' after hpc =>
    have hown := (howned.works slot' (by rw [hpc]; rfl)).2.2
    intro slot
    rw [ownerView_works rt awaitingDrop rfl rfl hown
      (fun slot hne => by rw [hpc, awaitingDrop_resume]; simp [awaitingDrop, Ne.symm hne]),
      List.append_nil, awaitingDrop_resume]
    have hslot := h slot
    by_cases heq : slot = slot'
    · subst heq
      rw [ownerPc_own rt hown, hpc] at hslot
      simp only [awaitingDrop, if_true] at hslot ⊢
      simp only [Runtime.goto_threadContexts, Runtime.setContext_threadContexts,
        Function.update_self, succ64]
      omega
    · rw [if_neg heq]
      simp only [Runtime.goto_threadContexts, Runtime.setContext_threadContexts,
        Function.update_of_ne heq]
      exact hslot
  | popped hpc hqueue | accounted hpc =>
    exact h.keep (fun _ => rfl) (ownerView_same awaitingDrop rfl rfl)
      (fun _ => setContext_agrees (·.dropped) rfl)
  | _ => exact h.keep (fun _ => rfl) (ownerView_same awaitingDrop rfl rfl) (fun _ => rfl)

theorem dropsCounted_run (hrun : Run (step gettid) (monitorRuntimeStart maxHoldNs) tr rt) :
    DropsCounted rt tr := by
  have hboth := hrun.invariant (I := fun rt tr => SlotsOwned rt tr ∧ DropsCounted rt tr)
    (fun _ _ _ _ _ h hstep =>
      ⟨h.1.step (step_transition hstep), h.2.step h.1 (step_transition hstep)⟩)
    ⟨slotsOwned_start maxHoldNs, fun _ => rfl⟩
  exact hboth.2

/-- An attempt is a push or a drop. -/
theorem attempted_length (slot : ℕ) (tr : List Observation) :
    (eventsOn attemptedEvent slot tr).length =
      (eventsOn droppedEvent slot tr).length + (eventsOn pushedEvent slot tr).length := by
  induction tr with
  | nil => rfl
  | cons o rest ih =>
    have hcons : ∀ kind, (eventsOn kind slot (o :: rest)).length =
        (eventsOn kind slot [o]).length + (eventsOn kind slot rest).length := by
      intro kind
      have happend := eventsOn_append kind slot [o] rest
      rw [List.singleton_append] at happend
      rw [happend, List.length_append]
    have hone : (eventsOn attemptedEvent slot [o]).length =
        (eventsOn droppedEvent slot [o]).length + (eventsOn pushedEvent slot [o]).length := by
      cases o with
      | pushed thread slot' event => exact (Nat.zero_add _).symm
      | _ => rfl
    rw [hcons, hcons, hcons, ih, hone]
    omega

/-- The owner's event on its way, as a number. -/
theorem emitting_count (howned : SlotsOwned rt tr) (slot : ℕ) :
    (awaitingPush (ownerPc rt tr slot) slot + awaitingDrop (ownerPc rt tr slot) slot = 1 ↔
        Emitting rt slot) ∧
      awaitingPush (ownerPc rt tr slot) slot + awaitingDrop (ownerPc rt tr slot) slot ≤ 1 := by
  constructor
  · constructor
    · intro hone
      unfold ownerPc at hone
      cases hown : (claimants tr)[slot]? with
      | none => simp [hown, awaitingPush, awaitingDrop] at hone
      | some thread =>
        rw [hown] at hone
        refine ⟨thread, ?_⟩
        cases hpc : (rt.threads thread).pc with
        | push slot' event after =>
          by_cases heq : slot' = slot
          · subst heq
            exact Or.inl ⟨event, after, rfl⟩
          · simp [hpc, awaitingPush, awaitingDrop, heq] at hone
        | countDropped slot' after =>
          by_cases heq : slot' = slot
          · subst heq
            exact Or.inr ⟨after, rfl⟩
          · simp [hpc, awaitingPush, awaitingDrop, heq] at hone
        | _ => simp [hpc, awaitingPush, awaitingDrop] at hone
    · rintro ⟨thread, ⟨event, after, hpc⟩ | ⟨after, hpc⟩⟩
      · have hown := (howned.works slot (by rw [hpc]; rfl)).2.2
        rw [ownerPc_own rt hown, hpc]
        simp [awaitingPush, awaitingDrop]
      · have hown := (howned.works slot (by rw [hpc]; rfl)).2.2
        rw [ownerPc_own rt hown, hpc]
        simp [awaitingPush, awaitingDrop]
  · cases ownerPc rt tr slot with
    | push slot' event after =>
      by_cases heq : slot' = slot <;> simp [awaitingPush, awaitingDrop, heq]
    | countDropped slot' after =>
      by_cases heq : slot' = slot <;> simp [awaitingPush, awaitingDrop, heq]
    | _ => simp [awaitingPush, awaitingDrop]

/-- The event in the consumer's hands, as a number. -/
theorem consuming_count (rt : Runtime) (slot : ℕ) :
    ((inHand rt.consumer slot).length + awaitingCount rt.consumer slot = 1 ↔ Consuming rt slot) ∧
      (inHand rt.consumer slot).length + awaitingCount rt.consumer slot ≤ 1 := by
  unfold Consuming
  cases rt.consumer with
  | process round popped event =>
    by_cases heq : round.slot = slot <;> simp [inHand, awaitingCount, heq]
  | account round popped =>
    by_cases heq : round.slot = slot <;> simp [inHand, awaitingCount, heq]
  | _ => simp [inHand, awaitingCount]

/-- Transport conserves events: in every state of every run and on every slot, the
counters, the queue and the two events in mid-step add up modulo 2^64. -/
theorem transport_conserves_events (gettid : ℕ → ℕ) (maxHoldNs : ℕ) {tr : List Observation}
    {rt : Runtime} (hrun : Run (step gettid) (monitorRuntimeStart maxHoldNs) tr rt) (slot : ℕ) :
    (∃ f g, (f = 1 ↔ Emitting rt slot) ∧ f ≤ 1 ∧ (g = 1 ↔ Consuming rt slot) ∧ g ≤ 1 ∧
      (rt.threadContexts slot).generated = ((rt.threadContexts slot).dropped +
        (eventsOn pushedEvent slot tr).length + f) % 2 ^ 64 ∧
      (eventsOn pushedEvent slot tr).length % 2 ^ 64 = ((rt.threadContexts slot).consumed +
        (rt.threadContexts slot).queue.length + g) % 2 ^ 64) ∧
    (¬ Emitting rt slot → ¬ Consuming rt slot → (rt.threadContexts slot).queue = [] →
      (rt.threadContexts slot).generated =
        ((rt.threadContexts slot).consumed + (rt.threadContexts slot).dropped) % 2 ^ 64) := by
  have h := reached_run hrun
  obtain ⟨hemitting, hf⟩ := emitting_count h.owned slot
  obtain ⟨hconsuming, hg⟩ := consuming_count rt slot
  have hdrops := dropsCounted_run hrun slot
  have hgenerated := h.attempted.generated slot
  have hattempts := attempted_length slot tr
  have hqueued := congrArg List.length (h.queued slot)
  rw [List.length_append, List.length_append] at hqueued
  have hcounted := h.accounted.counted slot
  have hconsumed := h.accounted.consumed slot
  constructor
  · refine ⟨_, _, hemitting, hf, hconsuming, hg, ?_, ?_⟩
    · omega
    · omega
  · intro hidle hdone hempty
    rw [← hemitting] at hidle
    rw [← hconsuming] at hdone
    rw [hempty, List.length_nil] at hqueued
    omega

/-- The consumer has popped the first event of thread 1, which is about to push its
third one. -/
def bothInMidStep : Runtime × List Observation :=
  after (step id) (monitorRuntimeStart 0) (firstEmission 1 .lockRequest 100 ++
    List.replicate 3 .consumer ++ emission 1 .lockAcquired 100 2)

theorem transport_conserves_events_midway :
    (bothInMidStep.1.threadContexts 0).generated = ((bothInMidStep.1.threadContexts 0).dropped +
        (eventsOn pushedEvent 0 bothInMidStep.2).length + 1) % 2 ^ 64 ∧
      (eventsOn pushedEvent 0 bothInMidStep.2).length % 2 ^ 64 =
        ((bothInMidStep.1.threadContexts 0).consumed +
          (bothInMidStep.1.threadContexts 0).queue.length + 1) % 2 ^ 64 := by
  have hrun : Run (step id) (monitorRuntimeStart 0) bothInMidStep.2 bothInMidStep.1 :=
    run_after (by decide +kernel)
  have hpush : (bothInMidStep.1.threads 1).pc =
      .push 0 ⟨2, 0, 1, 100, .lockAcquired, 0, 0, 2⟩ .leave := by decide +kernel
  have hpopped : bothInMidStep.1.consumer =
      .process ⟨0, 1, false⟩ 0 ⟨0, 0, 1, 0, .threadStart, 0, 0, 0⟩ := by decide +kernel
  obtain ⟨⟨f, g, hemitting, -, hconsuming, -, hgenerated, haccepted⟩, -⟩ :=
    transport_conserves_events id 0 hrun 0
  rw [hemitting.mpr ⟨1, Or.inl ⟨_, _, hpush⟩⟩] at hgenerated
  rw [hconsuming.mpr ⟨_, rfl, Or.inl ⟨_, _, hpopped⟩⟩] at haccepted
  exact ⟨hgenerated, haccepted⟩

end RuntimeMonitor.TransportAccounts
