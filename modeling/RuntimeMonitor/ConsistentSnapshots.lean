import RuntimeMonitor.GapDetection
import RuntimeMonitor.RoundSnapshots

/-!
Deadlock checks run on a consistent cut. A round that ends in a check has found every
queue it polled empty; as only the consumer takes events out, none of these queues
had got an event between the start of the round and its own poll, and what the
verifier has processed is what had been pushed when the round began.
-/
namespace RuntimeMonitor.ConsistentSnapshots

open TransitionRuns EventRecord VerifierTables VerifierCycles MonitorRuntime RuntimeSteps
open SlotOwnership RuntimeStreams RuntimeAccounts RoundSnapshots AuthoritativeTraces
open GapDetection

/-- The round in progress has popped an event or is about to. -/
def Busy (rt : Runtime) : Prop :=
  match rt.consumer with
  | .poll round => round.consumedAny = true
  | .drain round popped =>
    0 < popped ∨ round.consumedAny = true ∨ (rt.threadContexts round.slot).queue ≠ []
  | .loadRunning consumedAny => consumedAny = true
  | .process .. | .account .. | .loadCount => True
  | .check | .returned => False

variable {gettid : ℕ → ℕ} {maxHoldNs : ℕ} {rt rt' mid last : Runtime}
  {tr os before during more : List Observation}

theorem last_occurrence {α : Type*} {a : α} {first second first' second' : List α}
    (h : first ++ a :: second = first' ++ a :: second') (hlast : a ∉ second)
    (hlast' : a ∉ second') : first = first' := by
  rcases List.append_eq_append_iff.mp h with ⟨middle, hfirst, hsecond⟩ | ⟨middle, hfirst, hsecond⟩
  · cases middle with
    | nil => rw [hfirst, List.append_nil]
    | cons b middle =>
      rw [List.cons_append, List.cons.injEq] at hsecond
      exact absurd (by rw [hsecond.2]; simp) hlast
  · cases middle with
    | nil => rw [hfirst, List.append_nil]
    | cons b middle =>
      rw [List.cons_append, List.cons.injEq] at hsecond
      exact absurd (by rw [hsecond.2]; simp) hlast'

/-- The steps of the other parties, which take nothing out of the polled queue. -/
theorem Busy.keep (h : Busy rt) (hconsumer : rt'.consumer = rt.consumer)
    (hqueue : ∀ round popped, rt.consumer = .drain round popped →
      (rt.threadContexts round.slot).queue ≠ [] → (rt'.threadContexts round.slot).queue ≠ []) :
    Busy rt' := by
  unfold Busy at h ⊢
  rw [hconsumer]
  cases hpc : rt.consumer with
  | drain round popped =>
    simp only [hpc] at h ⊢
    rcases h with h | h | h
    · exact Or.inl h
    · exact Or.inr (Or.inl h)
    · exact Or.inr (Or.inr (hqueue round popped hpc h))
  | _ =>
    simp only [hpc] at h ⊢
    try exact h

theorem Busy.keep_queues (h : Busy rt) (hconsumer : rt'.consumer = rt.consumer)
    (hqueue : ∀ slot, (rt'.threadContexts slot).queue = (rt.threadContexts slot).queue) :
    Busy rt' :=
  h.keep hconsumer fun round _ _ hne => by rwa [hqueue round.slot]

theorem Busy.move {pc : ConsumerPc} (h : Busy rt) (hmove : ConsumerMove rt rt.consumer pc) :
    Busy { rt with consumer := pc } := by
  unfold Busy at h
  cases hpc : rt.consumer with
  | poll round =>
    simp only [hpc] at h
    rw [hpc] at hmove
    cases hmove with
    | active hslot hactive => exact Or.inr (Or.inl h)
    | inactive hslot hactive => simpa [Busy, Round.next] using h
    | busy hslot hany => exact rfl
    | idle hslot hany =>
      rw [h] at hany
      simp at hany
  | drain round popped =>
    simp only [hpc] at h
    rw [hpc] at hmove
    cases hmove with
    | batch hpopped =>
      have hpositive : 0 < popped := lt_of_lt_of_le (by decide) hpopped
      simp [Busy, Round.next, hpositive]
    | empty hqueue =>
      rcases h with h | h | h
      · simp [Busy, Round.next, h]
      · simp [Busy, Round.next, h]
      · exact absurd hqueue h
  | loadRunning consumedAny =>
    rw [hpc] at hmove
    cases hmove
    trivial
  | loadCount | process | account | check | returned =>
    rw [hpc] at hmove
    cases hmove

/-- A round that has an event to process does not come to the check. -/
theorem Busy.step (h : Busy rt) (howned : SlotsOwned rt tr) (ht : Transition gettid rt rt' os)
    (hround : .roundStarted ∉ os) : Busy rt' := by
  cases ht with
  | roundStarted hpc => simp at hround
  | @initialised thread slot request hpc =>
    refine h.keep rfl fun round popped hdrain hne => ?_
    have hheld : heldSlot (rt.threads thread) = some slot := by simp [heldSlot, hpc, freshSlot]
    have htls := (howned.locals thread).context none (by rw [hpc]; rfl)
    have hoff := howned.dormant thread slot hheld htls
    have hon := howned.consumer round.slot (by rw [hdrain]; rfl)
    have hslot : round.slot ≠ slot := by
      intro heq
      rw [heq, hoff] at hon
      simp at hon
    simpa [Function.update_of_ne hslot] using hne
  | activated hpc => exact h.keep_queues rfl fun _ => setContext_agrees (·.queue) rfl
  | reserved hpc timestampNs hevent =>
    exact h.keep_queues rfl fun _ => setContext_agrees (·.queue) rfl
  | counted hpc => exact h.keep_queues rfl fun _ => setContext_agrees (·.queue) rfl
  | dropCounted hpc => exact h.keep_queues rfl fun _ => setContext_agrees (·.queue) rfl
  | @pushed thread slot event after hpc hroom =>
    refine h.keep rfl fun round popped hdrain hne => ?_
    by_cases hslot : round.slot = slot
    · rw [hslot]
      simp
    · simpa [Function.update_of_ne hslot] using hne
  | consumerMoved hmove => exact h.move hmove
  | popped hpc hqueue => trivial
  | processed hpc => trivial
  | accounted hpc => exact Or.inl (Nat.succ_pos _)
  | checked hpc =>
    unfold Busy at h
    rw [hpc] at h
    exact h.elim
  | consumerReturned hpc hstopped =>
    unfold Busy at h
    rw [hpc] at h
    simp at h
  | _ => exact h.keep_queues rfl fun _ => rfl

theorem reached_more (h : Reached gettid maxHoldNs rt tr) (hrun : Run (step gettid) rt more rt') :
    Reached gettid maxHoldNs rt' (tr ++ more) :=
  hrun.invariant_after (fun _ _ _ _ _ h hstep => h.step (step_transition hstep)) tr h

theorem busy_run (h : Reached gettid maxHoldNs rt tr) (hbusy : Busy rt)
    (hrun : Run (step gettid) rt more rt') (hround : .roundStarted ∉ more) : Busy rt' := by
  induction hrun with
  | nil => exact hbusy
  | snoc hfirst hlast ih =>
    rw [List.mem_append, not_or] at hround
    exact (ih hround.1).step (reached_more h hfirst).owned (step_transition hlast) hround.2

/-- At a check the verifier has processed on each slot what had been pushed when the round
began. -/
theorem slots_at_check {start begun : Runtime}
    (hbefore : Run (step gettid) (monitorRuntimeStart maxHoldNs) before start)
    (hbegin : step gettid start .consumer = some (begun, [.roundStarted]))
    (hduring : Run (step gettid) begun during last) (hround : .roundStarted ∉ during)
    (hcheck : last.consumer = .check) :
    Reached gettid maxHoldNs last (before ++ .roundStarted :: during) ∧
      ∀ slot, eventsOn processedEvent slot (before ++ .roundStarted :: during) =
        eventsOn pushedEvent slot before := by
  have hrun : Run (step gettid) (monitorRuntimeStart maxHoldNs)
      (before ++ .roundStarted :: during) last := by
    have htrans := (hbefore.trans (Run.single hbegin)).trans hduring
    rwa [List.append_assoc] at htrans
  obtain ⟨before', during', hin, hall⟩ := check_snapshot hrun hcheck
  have hsame := last_occurrence hin.split hround hin.last
  refine ⟨reached_run hrun, fun slot => ?_⟩
  rw [← hall slot, hsame]

/-- What has been processed are events that had been pushed when the round began. -/
theorem processed_iff_pushed
    (hslots : ∀ slot, eventsOn processedEvent slot tr = eventsOn pushedEvent slot before)
    (event : MonitorEvent) : event ∈ callEvents (verifierCalls tr) ↔
      ∃ slot, event ∈ eventsOn pushedEvent slot before := by
  rw [callEvents_eq]
  constructor
  · intro hmem
    obtain ⟨⟨slot, event⟩, hentry, rfl⟩ := List.mem_map.mp hmem
    obtain ⟨o, ho, hkind⟩ := List.mem_filterMap.mp hentry
    refine ⟨slot, ?_⟩
    rw [← hslots]
    exact mem_eventsOn.mpr ⟨o, ho, hkind⟩
  · rintro ⟨slot, hmem⟩
    rw [← hslots] at hmem
    obtain ⟨o, ho, hkind⟩ := mem_eventsOn.mp hmem
    exact List.mem_map.mpr ⟨(slot, event), List.mem_filterMap.mpr ⟨o, ho, hkind⟩, rfl⟩

/-- Whenever the consumer calls the check, the verifier has processed exactly the events
whose pushes had completed when the round began, and no thread polled in the round
completed a push between the start of the round and the poll of its queue. -/
theorem check_on_consistent_snapshot (gettid : ℕ → ℕ) (maxHoldNs : ℕ)
    {start begun last : Runtime} {before during : List Observation}
    (hbefore : Run (step gettid) (monitorRuntimeStart maxHoldNs) before start)
    (hbegin : step gettid start .consumer = some (begun, [.roundStarted]))
    (hduring : Run (step gettid) begun during last) (hround : .roundStarted ∉ during)
    (hcheck : last.consumer = .check) :
    (∀ slot, eventsOn processedEvent slot (before ++ .roundStarted :: during) =
      eventsOn pushedEvent slot before) ∧
    last.verifier = runCalls (monitorVerifierInit maxHoldNs)
      (verifierCalls (before ++ .roundStarted :: during)) ∧
    (∀ event, event ∈ callEvents (verifierCalls (before ++ .roundStarted :: during)) ↔
      ∃ slot, event ∈ eventsOn pushedEvent slot before) ∧
    ∀ (mid : Runtime) (round : Round) (untilPoll afterPoll : List Observation),
      during = untilPoll ++ afterPoll → Run (step gettid) begun untilPoll mid →
      mid.consumer = .drain round 0 → Run (step gettid) mid afterPoll last →
      eventsOn pushedEvent round.slot untilPoll = [] := by
  have hstarted := hbefore.trans (Run.single hbegin)
  obtain ⟨h, hslots⟩ := slots_at_check hbefore hbegin hduring hround hcheck
  refine ⟨hslots, h.accounted.verifier, processed_iff_pushed hslots, ?_⟩
  intro mid round untilPoll afterPoll hsplit huntil hdrain hafter
  have hmid := reached_more (reached_run hstarted) huntil
  rw [hsplit, List.mem_append, not_or] at hround
  have hempty : (mid.threadContexts round.slot).queue = [] := by
    by_contra hne
    have hbusy : Busy mid := by
      unfold Busy
      rw [hdrain]
      exact Or.inr (Or.inr hne)
    have hlast := busy_run hmid hbusy hafter hround.2
    unfold Busy at hlast
    rw [hcheck] at hlast
    exact hlast
  have hqueued := hmid.queued round.slot
  have hhand : inHand (.drain round 0) round.slot = [] := rfl
  rw [hdrain, hempty, hhand, List.append_nil, List.append_nil, List.append_assoc,
    eventsOn_append] at hqueued
  have hprocessed := hslots round.slot
  rw [hsplit, ← List.singleton_append, ← List.append_assoc, ← List.append_assoc,
    eventsOn_append] at hprocessed
  have hpushed : eventsOn pushedEvent round.slot ([.roundStarted] ++ untilPoll) =
      eventsOn pushedEvent round.slot untilPoll := rfl
  rw [hpushed, ← List.append_assoc] at hqueued
  rw [← hqueued, List.append_assoc] at hprocessed
  have hlength := congrArg List.length hprocessed
  rw [List.length_append, List.length_append] at hlength
  apply List.eq_nil_of_length_eq_zero
  omega

/-- Thread 1 has asked for a mutex, the consumer has processed its events and is about to
begin a round. -/
def beforeRound : Runtime × List Observation :=
  after (step id) (monitorRuntimeStart 0)
    (firstEmission 1 .lockRequest 100 ++ List.replicate 11 .consumer)

def lateRoundBegun : Runtime :=
  { beforeRound.1 with consumer := .poll ⟨0, beforeRound.1.nextThreadSlot, false⟩ }

/-- Thread 2 registers and asks for a mutex in mid-round, the consumer polls slot 0 only. -/
def midRound : Runtime × List Observation :=
  after (step id) lateRoundBegun (firstEmission 2 .lockRequest 200 ++ List.replicate 3 .consumer)

theorem check_on_consistent_snapshot_late :
    (∀ slot, eventsOn processedEvent slot
        (beforeRound.2 ++ .roundStarted :: midRound.2) =
      eventsOn pushedEvent slot beforeRound.2) ∧
    eventsOn pushedEvent 1 midRound.2 ≠ [] := by
  have hbefore : Run (step id) (monitorRuntimeStart 0) beforeRound.2 beforeRound.1 :=
    run_after (by decide +kernel)
  have hpc : beforeRound.1.consumer = .loadCount := by decide +kernel
  have hbegin : step id beforeRound.1 .consumer = some (lateRoundBegun, [.roundStarted]) := by
    simp only [step, consumerStep, hpc]
    rfl
  have hduring : Run (step id) lateRoundBegun midRound.2 midRound.1 :=
    run_after (by decide +kernel)
  have hsnapshot := check_on_consistent_snapshot id 0 hbefore hbegin hduring
    (by decide +kernel) (by decide +kernel)
  exact ⟨hsnapshot.1, by decide +kernel⟩

end RuntimeMonitor.ConsistentSnapshots
