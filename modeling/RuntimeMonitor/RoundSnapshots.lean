import RuntimeMonitor.RuntimeAccounts

/-!
Idle rounds see a snapshot. While a round of the consumer has popped nothing, the
slots it has passed hold nothing that was pushed before the round began; when it
reaches the deadlock check, what the verifier has processed is what had been
pushed at the start of the round, on every slot.
-/
namespace RuntimeMonitor.RoundSnapshots

open TransitionRuns EventRecord VerifierTables VerifierCycles MonitorRuntime RuntimeSteps
open SlotOwnership RuntimeStreams EventNumbers RuntimeAccounts

/-- The part of a run before its last round and the part after that round's start,
in which the verifier was not called. -/
structure InRound (before during tr : List Observation) : Prop where
  split : tr = before ++ .roundStarted :: during
  last : .roundStarted ∉ during
  idle : verifierCalls during = []
  ordered : ∀ slot, eventsOn processedEvent slot before <+: eventsOn pushedEvent slot before

/-- Below `slot` everything pushed before the round is processed, and nothing was
pushed at all from slot `count` on. -/
structure Scanned (before tr : List Observation) (slot count : ℕ) : Prop where
  passed : ∀ i < slot, eventsOn pushedEvent i before = eventsOn processedEvent i tr
  beyond : ∀ i, count ≤ i → eventsOn pushedEvent i before = []

/-- What an idle round has established at the consumer's position. -/
def IdleRound (rt : Runtime) (tr : List Observation) : Prop :=
  match rt.consumer with
  | .poll round => round.consumedAny = false →
    ∃ before during, InRound before during tr ∧ Scanned before tr round.slot round.count
  | .drain round popped => round.consumedAny = false → popped = 0 →
    ∃ before during, InRound before during tr ∧ Scanned before tr round.slot round.count
  | .check => ∃ before during, InRound before during tr ∧
    ∀ slot, eventsOn pushedEvent slot before = eventsOn processedEvent slot tr
  | _ => True

variable {gettid : ℕ → ℕ} {maxHoldNs : ℕ} {rt rt' : Runtime}
  {tr os before during : List Observation}
  {slot count : ℕ}

theorem processedOn_of_idle (h : verifierCalls os = []) (slot : ℕ) :
    eventsOn processedEvent slot os = [] := by
  unfold verifierCalls at h
  rw [List.filterMap_eq_nil_iff] at h
  unfold eventsOn
  rw [List.filterMap_eq_nil_iff]
  intro o ho
  have hnone := h o ho
  cases o with
  | processed slot' event => simp at hnone
  | _ => rfl

theorem InRound.processed (h : InRound before during tr) (slot : ℕ) :
    eventsOn processedEvent slot tr = eventsOn processedEvent slot before := by
  rw [h.split, eventsOn_append]
  have hduring := processedOn_of_idle h.idle slot
  have hstart : eventsOn processedEvent slot (.roundStarted :: during) =
      eventsOn processedEvent slot during := rfl
  rw [hstart, hduring, List.append_nil]

theorem InRound.pushed_prefix (h : InRound before during tr) (slot : ℕ) :
    eventsOn pushedEvent slot before <+: eventsOn pushedEvent slot tr := by
  rw [h.split, eventsOn_append]
  exact List.prefix_append ..

/-- A step of another party extends the round. -/
theorem InRound.extend (h : InRound before during tr) (hcalls : verifierCalls os = [])
    (hround : .roundStarted ∉ os) : InRound before (during ++ os) (tr ++ os) := by
  constructor
  · rw [h.split, List.append_assoc, List.cons_append]
  · rw [List.mem_append]
    exact fun hmem => hmem.elim h.last hround
  · rw [verifierCalls_append, h.idle, hcalls]
    rfl
  · exact h.ordered

theorem Scanned.extend (h : Scanned before tr slot count)
    (hprocessed : ∀ i, eventsOn processedEvent i os = []) :
    Scanned before (tr ++ os) slot count := by
  constructor
  · intro i hi
    rw [eventsOn_append, hprocessed, List.append_nil]
    exact h.passed i hi
  · exact h.beyond

/-- The slot at the consumer's position is found without events. -/
theorem Scanned.pass (h : Scanned before tr slot count) (hin : InRound before during tr)
    (hempty : eventsOn pushedEvent slot tr = eventsOn processedEvent slot tr) :
    Scanned before tr (slot + 1) count := by
  constructor
  · intro i hi
    rcases Nat.lt_succ_iff_lt_or_eq.mp hi with hlt | heq
    · exact h.passed i hlt
    · subst heq
      apply List.IsPrefix.eq_of_length_le
      · rw [← hempty]
        exact hin.pushed_prefix i
      · rw [hin.processed]
        exact (hin.ordered i).length_le
  · exact h.beyond

/-- All slots are passed. -/
theorem Scanned.all (h : Scanned before tr slot count) (hin : InRound before during tr)
    (hslot : count ≤ slot) (i : ℕ) :
    eventsOn pushedEvent i before = eventsOn processedEvent i tr := by
  by_cases hi : i < slot
  · exact h.passed i hi
  · have hnone := h.beyond i (by omega)
    have hinitial := hin.ordered i
    rw [hnone, List.prefix_nil] at hinitial
    rw [hin.processed, hnone, hinitial]

/-- A slot that is not active has seen no push. -/
theorem pushed_of_inactive (h : Reached gettid maxHoldNs rt tr)
    (hoff : (rt.threadContexts slot).active = false) : eventsOn pushedEvent slot tr = [] := by
  have hreserved := h.identified.silent slot hoff
  have hinitial := h.attempted_prefix slot
  rw [hreserved, List.prefix_nil] at hinitial
  have hsublist := pushed_sublist slot tr
  rw [hinitial, List.sublist_nil] at hsublist
  exact hsublist

/-- The steps of the other parties. -/
theorem IdleRound.keep (h : IdleRound rt tr) (hconsumer : rt'.consumer = rt.consumer)
    (hcalls : verifierCalls os = []) (hround : .roundStarted ∉ os) :
    IdleRound rt' (tr ++ os) := by
  unfold IdleRound at h ⊢
  rw [hconsumer]
  cases hpc : rt.consumer with
  | poll round =>
    simp only [hpc] at h ⊢
    intro hany
    obtain ⟨before, during, hin, hscan⟩ := h hany
    exact ⟨before, during ++ os, hin.extend hcalls hround,
      hscan.extend (processedOn_of_idle hcalls)⟩
  | drain round popped =>
    simp only [hpc] at h ⊢
    intro hany hpopped
    obtain ⟨before, during, hin, hscan⟩ := h hany hpopped
    exact ⟨before, during ++ os, hin.extend hcalls hround,
      hscan.extend (processedOn_of_idle hcalls)⟩
  | check =>
    simp only [hpc] at h ⊢
    obtain ⟨before, during, hin, hall⟩ := h
    refine ⟨before, during ++ os, hin.extend hcalls hround, fun slot => ?_⟩
    rw [eventsOn_append, processedOn_of_idle hcalls, List.append_nil]
    exact hall slot
  | _ => trivial

theorem IdleRound.move {pc : ConsumerPc} (h : IdleRound rt tr)
    (hreached : Reached gettid maxHoldNs rt tr) (hmove : ConsumerMove rt rt.consumer pc) :
    IdleRound { rt with consumer := pc } (tr ++ []) := by
  rw [List.append_nil]
  unfold IdleRound at h ⊢
  have hqueued := hreached.queued
  cases hpc : rt.consumer with
  | poll round =>
    simp only [hpc] at h
    rw [hpc] at hmove
    cases hmove with
    | active hslot hactive =>
      intro hany hpopped
      exact h hany
    | inactive hslot hactive =>
      intro hany
      simp only [Round.next, Nat.lt_irrefl, decide_false, Bool.or_false] at hany ⊢
      obtain ⟨before, during, hin, hscan⟩ := h hany
      refine ⟨before, during, hin, hscan.pass hin ?_⟩
      have hnone := pushed_of_inactive hreached hactive
      have hinitial := hreached.processed_prefix round.slot
      rw [hnone, List.prefix_nil] at hinitial
      rw [hnone, hinitial]
    | busy hslot hany => trivial
    | idle hslot hany =>
      obtain ⟨before, during, hin, hscan⟩ := h hany
      exact ⟨before, during, hin, hscan.all hin hslot⟩
  | drain round popped =>
    simp only [hpc] at h
    rw [hpc] at hmove
    cases hmove with
    | batch hpopped =>
      intro hany
      have hpositive : 0 < popped := lt_of_lt_of_le (by decide) hpopped
      simp [Round.next, hpositive] at hany
    | empty hqueue =>
      intro hany
      simp only [Round.next, Bool.or_eq_false_iff, decide_eq_false_iff_not, Nat.not_lt,
        Nat.le_zero] at hany ⊢
      obtain ⟨before, during, hin, hscan⟩ := h hany.1 hany.2
      refine ⟨before, during, hin, hscan.pass hin ?_⟩
      rw [hqueued round.slot, hpc, hqueue]
      simp [inHand]
  | loadRunning consumedAny =>
    rw [hpc] at hmove
    cases hmove
    trivial
  | loadCount | process | account | check | returned =>
    rw [hpc] at hmove
    cases hmove

theorem IdleRound.step (h : IdleRound rt tr) (hreached : Reached gettid maxHoldNs rt tr)
    (ht : Transition gettid rt rt' os) : IdleRound rt' (tr ++ os) := by
  cases ht with
  | roundStarted hpc =>
    intro hany
    refine ⟨tr, [], ⟨rfl, by simp, rfl, hreached.processed_prefix⟩,
      fun i hi => ?_, fun i hi => ?_⟩
    · exact absurd hi (Nat.not_lt_zero i)
    · exact pushed_of_inactive hreached (hreached.owned.unclaimed i hi)
  | consumerMoved hmove => exact h.move hreached hmove
  | popped hpc hqueue => trivial
  | processed hpc => trivial
  | accounted hpc =>
    intro hany hpopped
    simp at hpopped
  | checked hpc => trivial
  | consumerReturned hpc hstopped => trivial
  | _ => exact h.keep rfl rfl (by simp)

theorem idleRound_run (hrun : Run (step gettid) (monitorRuntimeStart maxHoldNs) tr rt) :
    Reached gettid maxHoldNs rt tr ∧ IdleRound rt tr := by
  refine hrun.invariant (I := fun rt tr => Reached gettid maxHoldNs rt tr ∧ IdleRound rt tr) ?_ ?_
  · intro rt tr a rt' os h hstep
    exact ⟨h.1.step (step_transition hstep), h.2.step h.1 (step_transition hstep)⟩
  · exact ⟨reached_start gettid maxHoldNs, trivial⟩

/-- At a deadlock check the verifier has processed exactly what had been pushed at
the start of the round, and the round has not called it before. -/
theorem check_snapshot (hrun : Run (step gettid) (monitorRuntimeStart maxHoldNs) tr rt)
    (hcheck : rt.consumer = .check) :
    ∃ before during, InRound before during tr ∧
      ∀ slot, eventsOn pushedEvent slot before = eventsOn processedEvent slot tr := by
  have h := (idleRound_run hrun).2
  unfold IdleRound at h
  rw [hcheck] at h
  exact h

end RuntimeMonitor.RoundSnapshots
