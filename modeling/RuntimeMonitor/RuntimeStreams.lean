import RuntimeMonitor.SlotOwnership

/-!
The streams of a run. The queue of a slot is a bounded queue, so what has been pushed
to it is what the verifier has processed, followed by the event in the consumer's hands
and the contents of the queue; what has been reserved on a slot is what has been
attempted there and the event in flight. The counters of a context count these streams.
-/
namespace RuntimeMonitor.RuntimeStreams

open TransitionRuns EventRecord VerifierTables VerifierCycles MonitorRuntime RuntimeSteps
open SlotOwnership
open RingBuffer (spscRingCapacity)

def pushedEvent : Observation → Option (ℕ × MonitorEvent)
  | .pushed _ slot event => some (slot, event)
  | _ => none

def attemptedEvent : Observation → Option (ℕ × MonitorEvent)
  | .pushed _ slot event | .dropped _ slot event => some (slot, event)
  | _ => none

def droppedEvent : Observation → Option (ℕ × MonitorEvent)
  | .dropped _ slot event => some (slot, event)
  | _ => none

def reservedEvent : Observation → Option (ℕ × MonitorEvent)
  | .reserved _ slot event => some (slot, event)
  | _ => none

def processedEvent : Observation → Option (ℕ × MonitorEvent)
  | .processed slot event => some (slot, event)
  | _ => none

/-- The events of one kind on one slot, in the order of the run. -/
def eventsOn (kind : Observation → Option (ℕ × MonitorEvent)) (slot : ℕ)
    (tr : List Observation) : List MonitorEvent :=
  tr.filterMap fun o => (kind o).bind fun entry => if entry.1 = slot then some entry.2 else none

/-- The calls that the consumer has made to the verifier. -/
def verifierCalls (tr : List Observation) : List Call :=
  tr.filterMap fun
    | .processed _ event => some (.processEvent event)
    | .checked => some .checkDeadlocks
    | _ => none

/-- The position of the thread that has claimed a slot. -/
def ownerPc (rt : Runtime) (tr : List Observation) (slot : ℕ) : ProducerPc :=
  match (claimants tr)[slot]? with
  | some thread => (rt.threads thread).pc
  | none => .outside

/-- The event that has its numbers but has not reached the queue. -/
def inFlight (pc : ProducerPc) (slot : ℕ) : List MonitorEvent :=
  match pc with
  | .countGenerated slot' event _ | .push slot' event _ => if slot' = slot then [event] else []
  | _ => []

/-- The event that is counted as generated but has not reached the queue. -/
def awaitingPush (pc : ProducerPc) (slot : ℕ) : ℕ :=
  match pc with
  | .push slot' _ _ => if slot' = slot then 1 else 0
  | _ => 0

/-- The event that the consumer has popped but not processed. -/
def inHand (pc : ConsumerPc) (slot : ℕ) : List MonitorEvent :=
  match pc with
  | .process round _ event => if round.slot = slot then [event] else []
  | _ => []

/-- The event that the consumer has processed but not counted. -/
def awaitingCount (pc : ConsumerPc) (slot : ℕ) : ℕ :=
  match pc with
  | .account round _ => if round.slot = slot then 1 else 0
  | _ => 0

variable {gettid : ℕ → ℕ} {rt rt' : Runtime} {tr os : List Observation} {slot : ℕ}

theorem eventsOn_append (kind : Observation → Option (ℕ × MonitorEvent)) (slot : ℕ)
    (tr os : List Observation) :
    eventsOn kind slot (tr ++ os) = eventsOn kind slot tr ++ eventsOn kind slot os :=
  List.filterMap_append ..

theorem verifierCalls_append (tr os : List Observation) :
    verifierCalls (tr ++ os) = verifierCalls tr ++ verifierCalls os := List.filterMap_append ..

@[simp] theorem eventsOn_nil (kind : Observation → Option (ℕ × MonitorEvent)) (slot : ℕ) :
    eventsOn kind slot [] = [] := rfl

/-- An observation of another kind. -/
theorem eventsOn_other {kind : Observation → Option (ℕ × MonitorEvent)} {o : Observation}
    (h : kind o = none) (slot : ℕ) (tr : List Observation) :
    eventsOn kind slot (tr ++ [o]) = eventsOn kind slot tr := by
  simp [eventsOn, h]

/-- An observation of this kind. -/
theorem eventsOn_snoc {kind : Observation → Option (ℕ × MonitorEvent)} {o : Observation}
    {slot' : ℕ} {event : MonitorEvent} (h : kind o = some (slot', event)) (slot : ℕ)
    (tr : List Observation) :
    eventsOn kind slot (tr ++ [o]) =
      eventsOn kind slot tr ++ if slot' = slot then [event] else [] := by
  by_cases heq : slot' = slot <;> simp [eventsOn, h, heq]

theorem mem_eventsOn {kind : Observation → Option (ℕ × MonitorEvent)} {event : MonitorEvent} :
    event ∈ eventsOn kind slot tr ↔ ∃ o ∈ tr, kind o = some (slot, event) := by
  simp only [eventsOn, List.mem_filterMap, Option.bind_eq_some_iff,
    Option.ite_none_right_eq_some, Option.some.injEq]
  constructor
  · rintro ⟨o, ho, ⟨slot', event'⟩, hkind, rfl, rfl⟩
    exact ⟨o, ho, hkind⟩
  · rintro ⟨o, ho, hkind⟩
    exact ⟨o, ho, (slot, event), hkind, rfl, rfl⟩

/-- A rewritten context keeps what its new value agrees on. -/
theorem setContext_agrees {β : Type*} (f : MonitorThreadContext → β)
    {context : MonitorThreadContext} {slot' : ℕ} (h : f context = f (rt.threadContexts slot')) :
    f ((rt.setContext slot' context).threadContexts slot) = f (rt.threadContexts slot) := by
  rw [Runtime.setContext_threadContexts]
  by_cases heq : slot = slot'
  · subst heq
    rw [Function.update_self]
    exact h
  · rw [Function.update_of_ne heq]

/-- One thread moves, no slot is claimed: the view of the owners' positions. -/
theorem ownerPc_moved {thread : ℕ} {locals : ThreadLocals}
    (hthreads : rt'.threads = Function.update rt.threads thread locals)
    (hclaim : claimants os = []) (slot : ℕ) :
    ownerPc rt' (tr ++ os) slot =
      if (claimants tr)[slot]? = some thread then locals.pc else ownerPc rt tr slot := by
  unfold ownerPc
  rw [claimants_append, hclaim, List.append_nil, hthreads]
  cases hcase : (claimants tr)[slot]? with
  | none => simp
  | some owner =>
    by_cases heq : owner = thread
    · subst heq
      simp
    · simp [heq]

/-- A view of the owners' positions that the moving thread does not change. -/
theorem ownerView_moved {β : Type*} (f : ProducerPc → ℕ → β) {thread : ℕ} {locals : ThreadLocals}
    (hthreads : rt'.threads = Function.update rt.threads thread locals)
    (hclaim : claimants os = [])
    (hview : ∀ slot, f locals.pc slot = f (rt.threads thread).pc slot)
    (slot : ℕ) : f (ownerPc rt' (tr ++ os) slot) slot = f (ownerPc rt tr slot) slot := by
  rw [ownerPc_moved hthreads hclaim]
  split
  · rename_i hown
    rw [hview]
    unfold ownerPc
    rw [hown]
  · rfl

theorem ownerView_same {β : Type*} (f : ProducerPc → ℕ → β) (hthreads : rt'.threads = rt.threads)
    (hclaim : claimants os = []) (slot : ℕ) :
    f (ownerPc rt' (tr ++ os) slot) slot = f (ownerPc rt tr slot) slot := by
  unfold ownerPc
  rw [claimants_append, hclaim, List.append_nil, hthreads]

/-- A claim gives the next slot an owner that is not yet at work. -/
theorem ownerView_claimed {β : Type*} (f : ProducerPc → ℕ → β) (h : SlotsOwned rt tr) {thread : ℕ}
    {pc : ProducerPc} (hfresh : ∀ slot, f pc slot = f .outside slot)
    (hbefore : ∀ slot, f (rt.threads thread).pc slot = f .outside slot) (slot : ℕ) :
    f (ownerPc { rt.goto thread pc with nextThreadSlot := rt.nextThreadSlot + 1 }
      (tr ++ [.claimed thread rt.nextThreadSlot]) slot) slot = f (ownerPc rt tr slot) slot := by
  have hclaimants : claimants (tr ++ [.claimed thread rt.nextThreadSlot]) =
      claimants tr ++ [thread] := claimants_append ..
  unfold ownerPc
  rw [hclaimants]
  have hlength := h.claimed
  rcases Nat.lt_trichotomy slot rt.nextThreadSlot with hlt | heq | hgt
  · rw [List.getElem?_append_left (by omega)]
    cases hcase : (claimants tr)[slot]? with
    | none => rfl
    | some owner =>
      by_cases hsame : owner = thread
      · subst hsame
        simp [hfresh, hbefore]
      · simp [Function.update_of_ne hsame]
  · rw [List.getElem?_append_right (by omega), heq, hlength,
      List.getElem?_eq_none (l := claimants tr) (by omega)]
    simp [hfresh]
  · rw [List.getElem?_eq_none (by
      rw [List.length_append, List.length_singleton]
      omega), List.getElem?_eq_none (l := claimants tr) (by omega)]

theorem consumerMove_hands {pc pc' : ConsumerPc} (hmove : ConsumerMove rt pc pc') (slot : ℕ) :
    inHand pc slot = [] ∧ inHand pc' slot = [] ∧
      awaitingCount pc slot = 0 ∧ awaitingCount pc' slot = 0 := by
  cases hmove <;> exact ⟨rfl, rfl, rfl, rfl⟩

/-- The queue of a slot is a bounded queue: it is what a run of its operations leaves,
which are the pushes on the slot that succeeded, those that failed, and the pops. -/
def FifoQueue (rt : Runtime) (tr : List Observation) (slot : ℕ) : Prop :=
  ∃ outcomes, Run (BoundedFifo.step spscRingCapacity) [] outcomes (rt.threadContexts slot).queue ∧
    BoundedFifo.accepted outcomes = eventsOn pushedEvent slot tr ∧
    BoundedFifo.rejected outcomes = eventsOn droppedEvent slot tr ∧
    BoundedFifo.popped outcomes = eventsOn processedEvent slot tr ++ inHand rt.consumer slot

namespace FifoQueue

/-- What was pushed is what was processed, what is in hand and what is queued. -/
theorem conserved (h : FifoQueue rt tr slot) :
    eventsOn pushedEvent slot tr = eventsOn processedEvent slot tr ++ inHand rt.consumer slot ++
      (rt.threadContexts slot).queue := by
  obtain ⟨outcomes, hrun, haccepted, -, hpopped⟩ := h
  rw [← haccepted, ← hpopped]
  exact BoundedFifo.run_conserves hrun

theorem bounded (h : FifoQueue rt tr slot) :
    (rt.threadContexts slot).queue.length ≤ spscRingCapacity := by
  obtain ⟨outcomes, hrun, -⟩ := h
  exact BoundedFifo.run_bounded hrun

theorem keep (h : FifoQueue rt tr slot)
    (hpushed : eventsOn pushedEvent slot os = [])
    (hdropped : eventsOn droppedEvent slot os = [])
    (hprocessed : eventsOn processedEvent slot os = [])
    (hhand : inHand rt'.consumer slot = inHand rt.consumer slot)
    (hqueue : (rt'.threadContexts slot).queue = (rt.threadContexts slot).queue) :
    FifoQueue rt' (tr ++ os) slot := by
  obtain ⟨outcomes, hrun, haccepted, hrejected, hpopped⟩ := h
  refine ⟨outcomes, ?_, ?_, ?_, ?_⟩
  · rwa [hqueue]
  · rw [eventsOn_append, hpushed, List.append_nil, haccepted]
  · rw [eventsOn_append, hdropped, List.append_nil, hrejected]
  · rw [eventsOn_append, hprocessed, List.append_nil, hhand, hpopped]

/-- One operation on the queue. -/
theorem operate (h : FifoQueue rt tr slot) (op : BoundedFifo.Op MonitorEvent)
    (outcome : BoundedFifo.Outcome MonitorEvent)
    (hop : BoundedFifo.step spscRingCapacity (rt.threadContexts slot).queue op =
      some ((rt'.threadContexts slot).queue, [outcome]))
    (hpushed : eventsOn pushedEvent slot os = BoundedFifo.accepted [outcome])
    (hdropped : eventsOn droppedEvent slot os = BoundedFifo.rejected [outcome])
    (hprocessed : eventsOn processedEvent slot os = [])
    (hhand : inHand rt'.consumer slot =
      inHand rt.consumer slot ++ BoundedFifo.popped [outcome]) :
    FifoQueue rt' (tr ++ os) slot := by
  obtain ⟨outcomes, hrun, haccepted, hrejected, hpopped⟩ := h
  refine ⟨outcomes ++ [outcome], hrun.snoc hop, ?_, ?_, ?_⟩
  · rw [eventsOn_append, hpushed, BoundedFifo.accepted_append, haccepted]
  · rw [eventsOn_append, hdropped, BoundedFifo.rejected_append, hrejected]
  · rw [eventsOn_append, hprocessed, List.append_nil, hhand, BoundedFifo.popped_append, hpopped,
      List.append_assoc]

theorem step (h : FifoQueue rt tr slot) (howned : SlotsOwned rt tr)
    (ht : Transition gettid rt rt' os) : FifoQueue rt' (tr ++ os) slot := by
  cases ht with
  | @initialised thread claimed request hpc =>
    -- the claimed context is not active yet, so its queue is empty already
    have hheld : heldSlot (rt.threads thread) = some claimed := by
      simp [heldSlot, hpc, freshSlot]
    have htls := (howned.locals thread).context none (by rw [hpc]; rfl)
    have hunused := howned.unused claimed (howned.dormant thread claimed hheld htls)
    exact h.keep rfl rfl rfl rfl (setContext_agrees (·.queue) hunused.1.symm)
  | activated hpc => exact h.keep rfl rfl rfl rfl (setContext_agrees (·.queue) rfl)
  | reserved hpc timestampNs hevent =>
    exact h.keep rfl rfl rfl rfl (setContext_agrees (·.queue) rfl)
  | counted hpc => exact h.keep rfl rfl rfl rfl (setContext_agrees (·.queue) rfl)
  | dropCounted hpc => exact h.keep rfl rfl rfl rfl (setContext_agrees (·.queue) rfl)
  | @pushed thread pushedTo event after hpc hroom =>
    by_cases heq : pushedTo = slot
    · subst heq
      apply h.operate (.enqueue event) (.accepted event)
      · simp [BoundedFifo.step, hroom]
      · simp [eventsOn, pushedEvent, BoundedFifo.accepted]
      · rfl
      · rfl
      · exact (List.append_nil _).symm
    · apply h.keep
      · simp [eventsOn, pushedEvent, heq]
      · rfl
      · rfl
      · rfl
      · simp [Ne.symm heq]
  | @dropped thread refusedOn event after hpc hfull =>
    by_cases heq : refusedOn = slot
    · subst heq
      apply h.operate (.enqueue event) (.rejected event)
      · simp [BoundedFifo.step, Nat.not_lt_of_le hfull]
      · rfl
      · simp [eventsOn, droppedEvent, BoundedFifo.rejected]
      · rfl
      · exact (List.append_nil _).symm
    · apply h.keep
      · rfl
      · simp [eventsOn, droppedEvent, heq]
      · rfl
      · rfl
      · rfl
  | roundStarted hpc => exact h.keep rfl rfl rfl (by rw [hpc]; rfl) rfl
  | consumerMoved hmove =>
    obtain ⟨hbefore, hafter, -⟩ := consumerMove_hands hmove slot
    exact h.keep rfl rfl rfl (hafter.trans hbefore.symm) rfl
  | @popped round popped event rest hpc hqueue =>
    by_cases heq : round.slot = slot
    · subst heq
      apply h.operate .dequeue (.popped event)
      · simp [BoundedFifo.step, hqueue]
      · rfl
      · rfl
      · rfl
      · simp [hpc, inHand, BoundedFifo.popped]
    · apply h.keep rfl rfl rfl
      · simp [hpc, inHand, heq]
      · simp [Ne.symm heq]
  | @processed round popped event hpc =>
    obtain ⟨outcomes, hrun, haccepted, hrejected, hpopped⟩ := h
    refine ⟨outcomes, hrun, ?_, ?_, ?_⟩
    · rw [eventsOn_other rfl, haccepted]
    · rw [eventsOn_other rfl, hrejected]
    · rw [eventsOn_snoc rfl, hpopped, hpc]
      exact (List.append_nil _).symm
  | accounted hpc => exact h.keep rfl rfl rfl (by rw [hpc]; rfl) (setContext_agrees (·.queue) rfl)
  | checked hpc => exact h.keep rfl rfl rfl (by rw [hpc]; rfl) rfl
  | consumerReturned hpc hstopped => exact h.keep rfl rfl rfl (by rw [hpc]; rfl) rfl
  | _ => exact h.keep rfl rfl rfl rfl rfl

end FifoQueue

/-- What was reserved is what was attempted and what is in flight; the counter of
generated events is ahead of the attempts by the event at the push. -/
structure Attempted (rt : Runtime) (tr : List Observation) : Prop where
  reserved : ∀ slot, eventsOn reservedEvent slot tr =
    eventsOn attemptedEvent slot tr ++ inFlight (ownerPc rt tr slot) slot
  generated : ∀ slot, (rt.threadContexts slot).generated =
    ((eventsOn attemptedEvent slot tr).length + awaitingPush (ownerPc rt tr slot) slot) % 2 ^ 64

theorem Attempted.keep (h : Attempted rt tr)
    (hreserved : ∀ slot, eventsOn reservedEvent slot os = [])
    (hattempted : ∀ slot, eventsOn attemptedEvent slot os = [])
    (hflight : ∀ slot, inFlight (ownerPc rt' (tr ++ os) slot) slot =
      inFlight (ownerPc rt tr slot) slot)
    (hpush : ∀ slot, awaitingPush (ownerPc rt' (tr ++ os) slot) slot =
      awaitingPush (ownerPc rt tr slot) slot)
    (hgenerated : ∀ slot, (rt'.threadContexts slot).generated =
      (rt.threadContexts slot).generated) : Attempted rt' (tr ++ os) := by
  constructor
  · intro slot
    rw [eventsOn_append, eventsOn_append, hreserved, hattempted, hflight, List.append_nil,
      List.append_nil]
    exact h.reserved slot
  · intro slot
    rw [eventsOn_append, hattempted, hpush, hgenerated, List.append_nil]
    exact h.generated slot

/-- A position without an event on its way. -/
def noEvent (pc : ProducerPc) : Prop := ∀ slot, inFlight pc slot = [] ∧ awaitingPush pc slot = 0

theorem localMove_noEvent {locals locals' : ThreadLocals} (hmove : LocalMove rt locals locals') :
    noEvent locals.pc ∧ noEvent locals'.pc := by
  cases hmove with
  | @called request hpc haccept hinternal =>
    rw [hpc]
    refine ⟨fun _ => ⟨rfl, rfl⟩, ?_⟩
    unfold registerCurrentThread
    intro slot
    cases htls : locals.tlsContext with
    | some slot => exact ⟨rfl, rfl⟩
    | none =>
      by_cases hfailed : locals.tlsRegistrationFailed = true <;>
        simp [hfailed, inFlight, awaitingPush]
  | exiting hpc hkey hready =>
    rw [hpc]
    refine ⟨fun _ => ⟨rfl, rfl⟩, fun slot => ?_⟩
    by_cases haccept : rt.acceptEvents = true <;> simp [haccept, inFlight, awaitingPush]
  | slotLoaded hpc | full hpc hfull | retried hpc hlt | keySet hpc hready | closed hpc =>
    rw [hpc]
    exact ⟨fun _ => ⟨rfl, rfl⟩, fun _ => ⟨rfl, rfl⟩⟩

theorem noEvent_resume (slot : ℕ) (after : AfterEmission) : noEvent (after.resume slot) := by
  intro slot
  cases after <;> exact ⟨rfl, rfl⟩

/-- A thread moves between positions without an event on its way. -/
theorem Attempted.quiet (h : Attempted rt tr) {thread : ℕ} {locals : ThreadLocals}
    (hthreads : rt'.threads = Function.update rt.threads thread locals)
    (hclaim : claimants os = [])
    (hreserved : ∀ slot, eventsOn reservedEvent slot os = [])
    (hattempted : ∀ slot, eventsOn attemptedEvent slot os = [])
    (hbefore : noEvent (rt.threads thread).pc) (hafter : noEvent locals.pc)
    (hgenerated : ∀ slot, (rt'.threadContexts slot).generated =
      (rt.threadContexts slot).generated) : Attempted rt' (tr ++ os) := by
  apply h.keep hreserved hattempted _ _ hgenerated
  · apply ownerView_moved inFlight hthreads hclaim
    intro slot
    rw [(hbefore slot).1, (hafter slot).1]
  · apply ownerView_moved awaitingPush hthreads hclaim
    intro slot
    rw [(hbefore slot).2, (hafter slot).2]

theorem ownerPc_own (rt : Runtime) {thread : ℕ} (hown : (claimants tr)[slot]? = some thread) :
    ownerPc rt tr slot = (rt.threads thread).pc := by
  unfold ownerPc
  rw [hown]

/-- The view of a thread at work on `slot'` after its move. -/
theorem ownerView_works {β : Type*} (rt : Runtime) (f : ProducerPc → ℕ → β) {thread slot' : ℕ}
    {pc : ProducerPc}
    (hthreads : rt'.threads =
      Function.update rt.threads thread { rt.threads thread with pc := pc })
    (hclaim : claimants os = []) (hown : (claimants tr)[slot']? = some thread)
    (hother : ∀ slot, slot ≠ slot' → f pc slot = f (rt.threads thread).pc slot) (slot : ℕ) :
    f (ownerPc rt' (tr ++ os) slot) slot =
      if slot = slot' then f pc slot else f (ownerPc rt tr slot) slot := by
  rw [ownerPc_moved hthreads hclaim]
  by_cases heq : slot = slot'
  · rw [if_pos heq, heq, if_pos hown]
  · rw [if_neg heq]
    split
    · rename_i hsame
      rw [ownerPc_own _ hsame]
      exact hother slot heq
    · rfl

theorem Attempted.step (h : Attempted rt tr) (howned : SlotsOwned rt tr)
    (ht : Transition gettid rt rt' os) : Attempted rt' (tr ++ os) := by
  cases ht with
  | @moved thread locals hmove =>
    obtain ⟨hbefore, hafter⟩ := localMove_noEvent hmove
    exact h.quiet rfl rfl (fun _ => rfl) (fun _ => rfl) hbefore hafter (fun _ => rfl)
  | @claimed thread request hpc hlt =>
    refine h.keep (fun _ => rfl) (fun _ => rfl) ?_ ?_ (fun _ => rfl)
    · exact ownerView_claimed inFlight howned (fun _ => rfl) (fun _ => by rw [hpc]; rfl)
    · exact ownerView_claimed awaitingPush howned (fun _ => rfl) (fun _ => by rw [hpc]; rfl)
  | @refused thread request hpc =>
    exact h.quiet rfl rfl (fun _ => rfl) (fun _ => rfl) (by rw [hpc]; exact fun _ => ⟨rfl, rfl⟩)
      (fun _ => ⟨rfl, rfl⟩) (fun _ => rfl)
  | @initialised thread slot request hpc =>
    have hheld : heldSlot (rt.threads thread) = some slot := by simp [heldSlot, hpc, freshSlot]
    have htls := (howned.locals thread).context none (by rw [hpc]; rfl)
    have hunused := howned.unused slot (howned.dormant thread slot hheld htls)
    exact h.quiet rfl rfl (fun _ => rfl) (fun _ => rfl) (by rw [hpc]; exact fun _ => ⟨rfl, rfl⟩)
      (fun _ => ⟨rfl, rfl⟩) (fun _ => setContext_agrees (·.generated) hunused.2.1.symm)
  | @activated thread slot request hpc =>
    exact h.quiet rfl rfl (fun _ => rfl) (fun _ => rfl) (by rw [hpc]; exact fun _ => ⟨rfl, rfl⟩)
      (fun _ => ⟨rfl, rfl⟩) (fun _ => setContext_agrees (·.generated) rfl)
  | @keyFailed thread slot request hpc =>
    exact h.quiet rfl rfl (fun _ => rfl) (fun _ => rfl) (by rw [hpc]; exact fun _ => ⟨rfl, rfl⟩)
      (fun _ => ⟨rfl, rfl⟩) (fun _ => rfl)
  | @dropCounted thread slot after hpc =>
    exact h.quiet rfl rfl (fun _ => rfl) (fun _ => rfl) (by rw [hpc]; exact fun _ => ⟨rfl, rfl⟩)
      (noEvent_resume slot after) (fun _ => setContext_agrees (·.generated) rfl)
  | @left thread slot hpc =>
    exact h.quiet rfl rfl (fun _ => rfl) (fun _ => rfl) (by rw [hpc]; exact fun _ => ⟨rfl, rfl⟩)
      (fun _ => ⟨rfl, rfl⟩) (fun _ => rfl)
  | @reserved thread slot' request after event hpc timestampNs hevent =>
    have hown := (howned.works slot' (by rw [hpc]; rfl)).2.2
    have hold := ownerPc_own rt hown
    constructor
    · intro slot
      rw [ownerView_works rt inFlight rfl rfl hown
        (fun slot hne => by rw [hpc]; simp [inFlight, Ne.symm hne]), eventsOn_snoc rfl,
        eventsOn_other rfl, h.reserved slot]
      by_cases heq : slot = slot'
      · subst heq
        rw [hold, hpc]
        simp [inFlight]
      · simp [heq, Ne.symm heq]
    · intro slot
      rw [ownerView_works rt awaitingPush rfl rfl hown
        (fun slot hne => by rw [hpc]; simp [awaitingPush]), eventsOn_other rfl]
      have hslot := h.generated slot
      have hsame : ((rt.setContext slot' { rt.threadContexts slot' with
          nextThreadSequence := succ32 (rt.threadContexts slot').nextThreadSequence
          }).threadContexts slot).generated = (rt.threadContexts slot).generated :=
        setContext_agrees (·.generated) rfl
      by_cases heq : slot = slot'
      · subst heq
        rw [hold, hpc] at hslot
        rw [if_pos rfl]
        exact hsame.trans hslot
      · rw [if_neg heq]
        exact hsame.trans hslot
  | @counted thread slot' event after hpc =>
    have hown := (howned.works slot' (by rw [hpc]; rfl)).2.2
    have hold := ownerPc_own rt hown
    constructor
    · intro slot
      rw [ownerView_works rt inFlight rfl rfl hown
        (fun slot hne => by rw [hpc]; simp [inFlight, Ne.symm hne]), List.append_nil,
        h.reserved slot]
      by_cases heq : slot = slot'
      · subst heq
        rw [hold, hpc]
        simp [inFlight]
      · rw [if_neg heq]
    · intro slot
      rw [ownerView_works rt awaitingPush rfl rfl hown
        (fun slot hne => by rw [hpc]; simp [awaitingPush, Ne.symm hne]), List.append_nil]
      have hslot := h.generated slot
      by_cases heq : slot = slot'
      · subst heq
        rw [hold, hpc] at hslot
        simp only [awaitingPush, Nat.add_zero] at hslot
        simp [awaitingPush, hslot, succ64]
      · simp [heq, hslot]
  | @pushed thread slot' event after hpc hroom =>
    have hown := (howned.works slot' (by rw [hpc]; rfl)).2.2
    have hold := ownerPc_own rt hown
    have hquiet := noEvent_resume slot' after
    constructor
    · intro slot
      rw [ownerView_works rt inFlight rfl rfl hown
        (fun slot hne => by rw [hpc, (hquiet slot).1]; simp [inFlight, Ne.symm hne]),
        eventsOn_other rfl, eventsOn_snoc rfl, h.reserved slot]
      by_cases heq : slot = slot'
      · subst heq
        rw [hold, hpc, (hquiet slot).1]
        simp [inFlight]
      · simp [heq, Ne.symm heq]
    · intro slot
      rw [ownerView_works rt awaitingPush rfl rfl hown
        (fun slot hne => by rw [hpc, (hquiet slot).2]; simp [awaitingPush, Ne.symm hne]),
        eventsOn_snoc rfl]
      have hslot := h.generated slot
      have hsame : ((rt.setContext slot' { rt.threadContexts slot' with
          queue := (rt.threadContexts slot').queue ++ [event] }).threadContexts slot).generated =
          (rt.threadContexts slot).generated := setContext_agrees (·.generated) rfl
      apply hsame.trans
      rw [hslot]
      by_cases heq : slot = slot'
      · subst heq
        rw [hold, hpc, (hquiet slot).2]
        simp [awaitingPush]
      · simp [heq, Ne.symm heq]
  | @dropped thread slot' event after hpc hfull =>
    have hown := (howned.works slot' (by rw [hpc]; rfl)).2.2
    have hold := ownerPc_own rt hown
    constructor
    · intro slot
      rw [ownerView_works rt inFlight rfl rfl hown
        (fun slot hne => by rw [hpc]; simp [inFlight, Ne.symm hne]),
        eventsOn_other rfl, eventsOn_snoc rfl, h.reserved slot]
      by_cases heq : slot = slot'
      · subst heq
        rw [hold, hpc]
        simp [inFlight]
      · simp [heq, Ne.symm heq]
    · intro slot
      rw [ownerView_works rt awaitingPush rfl rfl hown
        (fun slot hne => by rw [hpc]; simp [awaitingPush, Ne.symm hne]), eventsOn_snoc rfl]
      have hslot := h.generated slot
      apply hslot.trans
      by_cases heq : slot = slot'
      · subst heq
        rw [hold, hpc]
        simp [awaitingPush]
      · simp [heq, Ne.symm heq]
  | @popped round popped event rest hpc hqueue =>
    exact h.keep (fun _ => rfl) (fun _ => rfl) (ownerView_same inFlight rfl rfl)
      (ownerView_same awaitingPush rfl rfl) (fun _ => setContext_agrees (·.generated) rfl)
  | @accounted round popped hpc =>
    exact h.keep (fun _ => rfl) (fun _ => rfl) (ownerView_same inFlight rfl rfl)
      (ownerView_same awaitingPush rfl rfl) (fun _ => setContext_agrees (·.generated) rfl)
  | _ =>
    exact h.keep (fun _ => rfl) (fun _ => rfl) (ownerView_same inFlight rfl rfl)
      (ownerView_same awaitingPush rfl rfl) (fun _ => rfl)

end RuntimeMonitor.RuntimeStreams
