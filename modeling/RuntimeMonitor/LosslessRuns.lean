import RuntimeMonitor.GapDetection

/-!
Runs in which every push succeeds. The producer numbers events per context and the
verifier checks the numbering per thread id; while no slot is claimed under a thread
id that an earlier slot carries, every stream is seen without a gap. A thread that
registers again behind its exit destructor, or that has been given the id of a thread
that exited, starts a second numbering under the same id, and is tainted without any
loss.
-/
namespace RuntimeMonitor.LosslessRuns

open TransitionRuns EventRecord SlotTables VerifierTables VerifierEvents VerifierCycles
open VerifierInvariant VerifierMaps KeyedStreams SequenceGaps EventLoss MonitorRuntime
open SlotOwnership RuntimeStreams EventNumbers RuntimeAccounts AuthoritativeTraces
open StreamTracking GapDetection

/-- Every push has succeeded. -/
def Lossless (tr : List Observation) : Prop :=
  ∀ slot, eventsOn droppedEvent slot tr = []

/-- No slot was claimed under a thread id that an earlier slot carries. -/
def FreshIds (gettid : ℕ → ℕ) (tr : List Observation) : Prop :=
  ((claimants tr).map gettid).Nodup

instance (gettid : ℕ → ℕ) (tr : List Observation) : Decidable (FreshIds gettid tr) :=
  inferInstanceAs (Decidable (List.Nodup _))

variable {gettid : ℕ → ℕ} {maxHoldNs slot thread threadId : ℕ} {rt : Runtime}
  {tr : List Observation} {s : VerifierState} {calls : List Call}

theorem FreshIds.ownId (h : FreshIds gettid tr) (hown : (claimants tr)[slot]? = some thread) :
    OwnId gettid tr slot thread := by
  refine ⟨hown, ?_⟩
  intro slot' other hother hid
  have hlt := (List.getElem?_eq_some_iff.mp hother).1
  apply (List.getElem?_inj (by rwa [List.length_map]) h).mp
  rw [List.getElem?_map, List.getElem?_map, hother, hown, Option.map_some, Option.map_some, hid]

theorem lossless_of_none (h : tr.filterMap droppedEvent = []) : Lossless tr := by
  intro slot
  unfold eventsOn
  rw [List.filterMap_eq_nil_iff] at h ⊢
  intro o ho
  rw [h o ho, Option.bind_none]

theorem Lossless.before {later : List Observation} (h : Lossless (tr ++ later)) :
    Lossless tr := fun slot => by
  have hall := h slot
  rw [eventsOn_append, List.append_eq_nil_iff] at hall
  exact hall.1

theorem Lossless.accepted (h : Lossless tr) :
    ∀ attempt ∈ attemptsOn slot tr, attempt.2 = true := by
  intro attempt hmem
  obtain ⟨o, ho, hattempt⟩ := List.mem_filterMap.mp hmem
  have hnone := h slot
  unfold eventsOn at hnone
  rw [List.filterMap_eq_nil_iff] at hnone
  have hdropped := hnone o ho
  cases o with
  | pushed thread slot' event =>
    simp only [Option.ite_none_right_eq_some, Option.some.injEq] at hattempt
    rw [← hattempt.2]
  | dropped thread slot' event =>
    simp only [Option.ite_none_right_eq_some, Option.some.injEq] at hattempt
    simp [droppedEvent, hattempt.1] at hdropped
  | _ => simp at hattempt

/-- What has been followed of a lossless stream holds no drop. -/
theorem Lossless.followed (h : Lossless tr) (hreached : Reached gettid maxHoldNs rt tr)
    (hown : OwnId gettid tr slot thread) :
    gapsCounted (gettid thread) (monitorVerifierInit maxHoldNs) (verifierCalls tr) = 0 ∧
      (threadAt (runCalls (monitorVerifierInit maxHoldNs) (verifierCalls tr))
        (gettid thread)).traceTainted = false := by
  obtain ⟨handled, rest, hfollowed⟩ := followed_runCalls maxHoldNs
    (registeredIds_card hreached) (callEvents_registered hreached)
    (delivered_of_done hreached hown (List.append_nil _).symm) (numbered_attempts hreached slot)
    (by
      intro before dropped after heq hdropped
      rcases dropped with _ | ⟨attempt, more⟩
      · exact Nat.two_pow_pos 32
      · have hmem : attempt ∈ attemptsOn slot tr := by
          rw [heq]
          simp
        have haccepted := h.accepted attempt hmem
        rw [hdropped attempt (List.mem_cons_self ..)] at haccepted
        simp at haccepted)
  have haccepted : ∀ attempt ∈ handled, attempt.2 = true := by
    intro attempt hmem
    have hattempt : attempt ∈ attemptsOn slot tr := by
      rw [hfollowed.split]
      exact List.mem_append_left _ hmem
    exact h.accepted attempt hattempt
  constructor
  · rw [hfollowed.gaps, dropRuns_lossless haccepted]
  · rw [← Bool.not_eq_true, hfollowed.tracked.tainted]
    rintro ⟨attempt, hmem, hdropped⟩
    rw [haccepted attempt hmem] at hdropped
    simp at hdropped

/-- If no gap is counted for any thread that occurs, the counter of gaps stands still. -/
theorem gaps_of_counted (h : ∀ event ∈ callEvents calls, gapsCounted event.threadId s calls = 0) :
    (runCalls s calls).detectedStreamGaps = s.detectedStreamGaps := by
  induction calls generalizing s with
  | nil => rfl
  | cons call rest ih =>
    have hrest : ∀ event ∈ callEvents rest,
        gapsCounted event.threadId (applyCall s call) rest = 0 := by
      intro event hmem
      have hcount := h event (by
        have happend := callEvents_append [call] rest
        rw [List.singleton_append] at happend
        rw [happend]
        exact List.mem_append_right _ hmem)
      rw [gapsCounted] at hcount
      omega
    rw [runCalls_cons, ih hrest]
    cases call with
    | checkDeadlocks => exact (check_frame s).2.2.2.2.2.1
    | processEvent event =>
      have hcount := h event (List.mem_cons_self ..)
      rw [gapsCounted] at hcount
      by_contra hne
      have hcounted : countsGapOf event.threadId s (.processEvent event) = true := by
        simp [countsGapOf, hne]
      rw [if_pos hcounted] at hcount
      omega

/-- No used slot is tainted. -/
theorem tainted_zero (h : WellFormed s)
    (hclean : ∀ threadId, s.threadOf threadId ≠ none →
      (threadAt s threadId).traceTainted = false) : s.taintedThreadStreams = 0 := by
  rw [h.tainted_count, countWhere, Finset.card_eq_zero, Finset.filter_eq_empty_iff]
  intro i _ htaint
  rw [Bool.and_eq_true] at htaint
  have hslot : s.threadOf (s.threadStates i).threadId = some (s.threadStates i) :=
    lookup_slot h.threads_distinct htaint.1
  have hfalse := hclean (s.threadStates i).threadId (by
    rw [hslot]
    simp)
  unfold threadAt at hfalse
  rw [hslot, Option.getD_some, htaint.2] at hfalse
  simp at hfalse

/-- A run in which every push succeeds and no slot is claimed under a thread id that
is in use counts no gap and taints no thread. -/
theorem lossless_run_undegraded (gettid : ℕ → ℕ) (maxHoldNs : ℕ) {rt : Runtime}
    {tr : List Observation} (hrun : Run (step gettid) (monitorRuntimeStart maxHoldNs) tr rt)
    (hlossless : Lossless tr) (hfresh : FreshIds gettid tr) :
    rt.verifier.detectedStreamGaps = 0 ∧ rt.verifier.taintedThreadStreams = 0 := by
  have h := reached_run hrun
  have hinit := wellFormed_init maxHoldNs
  have hthread : ∀ threadId ∈ registeredIds gettid tr,
      gapsCounted threadId (monitorVerifierInit maxHoldNs) (verifierCalls tr) = 0 ∧
        (threadAt (runCalls (monitorVerifierInit maxHoldNs) (verifierCalls tr))
          threadId).traceTainted = false := by
    intro threadId hmem
    rw [registeredIds, List.mem_toFinset, List.mem_map] at hmem
    obtain ⟨thread, hclaimed, rfl⟩ := hmem
    obtain ⟨slot, hslot⟩ := List.getElem?_of_mem hclaimed
    exact hlossless.followed h (hfresh.ownId hslot)
  have hregistered := callEvents_registered h
  have hknown := knownThreads_runCalls (knownThreads_init (registeredIds gettid tr) maxHoldNs)
    hinit hregistered
  rw [h.accounted.verifier]
  constructor
  · exact gaps_of_counted fun event hmem => (hthread _ (hregistered event hmem)).1
  · exact tainted_zero (wellFormed_runCalls hinit _)
      fun threadId hused => (hthread threadId (hknown threadId hused)).2

/-- Threads 1 and 2 emit two events each, which the consumer processes. -/
def pairDelivered : Runtime × List Observation :=
  after (step id) (monitorRuntimeStart 0) (firstEmission 1 .lockRequest 100 ++
    firstEmission 2 .lockRequest 200 ++ List.replicate 19 .consumer)

theorem lossless_run_undegraded_two : claimants pairDelivered.2 = [1, 2] ∧
    pairDelivered.1.verifier.processedEvents = 4 ∧
      pairDelivered.1.verifier.detectedStreamGaps = 0 ∧
      pairDelivered.1.verifier.taintedThreadStreams = 0 :=
  ⟨by decide +kernel, by decide +kernel, lossless_run_undegraded id 0
    (run_after (by decide +kernel)) (lossless_of_none (by decide +kernel)) (by decide +kernel)⟩

/-- The thread locks a mutex in a destructor that runs behind the exit destructor. -/
def lockBehindExit : Runtime × List Observation :=
  after (step id) (monitorRuntimeStart 0)
    (firstEmission 1 .lockRequest 100 ++ .exit 1 :: List.replicate 4 (.producer 1 {}) ++
      firstEmission 1 .lockRequest 100 ++ List.replicate 22 .consumer)

/-- Without a drop or a refusal, the events behind the exit destructor show a gap. -/
theorem registered_again_tainted :
    ¬ ∀ (gettid : ℕ → ℕ) (maxHoldNs : ℕ) (tr : List Observation) (rt : Runtime),
      Run (step gettid) (monitorRuntimeStart maxHoldNs) tr rt → Lossless tr → refusals tr = [] →
      rt.verifier.detectedStreamGaps = 0 ∧ rt.verifier.taintedThreadStreams = 0 := by
  intro hall
  have hrun : Run (step id) (monitorRuntimeStart 0) lockBehindExit.2 lockBehindExit.1 :=
    run_after (by decide +kernel)
  have hlossless : Lossless lockBehindExit.2 := lossless_of_none (by decide +kernel)
  have hgaps := (hall id 0 _ _ hrun hlossless (by decide +kernel)).1
  revert hgaps
  decide +kernel

end RuntimeMonitor.LosslessRuns
