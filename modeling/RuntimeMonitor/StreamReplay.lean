import RuntimeMonitor.KeyedStreams
import RuntimeMonitor.VerifierMaps

/-!
The verifier as a machine that replays each thread's stream on its own. As long
as the tables have room for all threads and mutexes that occur, the entry of a
thread, the reports about it and the ownership changes it proposes depend on its
stream alone; the violation counters count the reports.
-/
namespace RuntimeMonitor.StreamReplay

open EventRecord SlotTables VerifierTables VerifierEvents VerifierSteps VerifierCycles
open HeldTables VerifierInvariant VerifierMaps KeyedStreams

/-- The keys that occur are among the threads `T` and the mutexes `A`. -/
structure Fits (T A : Finset ℕ) (s : VerifierState) : Prop where
  threads : ∀ threadId, s.threadOf threadId ≠ none → threadId ∈ T
  mutexes : ∀ address, s.mutexOf address ≠ none → address ∈ A

def EventIn (T A : Finset ℕ) (event : MonitorEvent) : Prop :=
  event.threadId ∈ T ∧ (touchesMutex event = true → event.objectAddress ∈ A)

/-- The entry of the event's thread after the sequence check. -/
def replayObserved (thread : Option VerifierThreadState) (event : MonitorEvent) :
    VerifierThreadState :=
  observeThread (thread.getD (freshThread event.threadId)) event

/-- One event replayed in the entry of its thread. -/
def replayStep (thread : Option VerifierThreadState) (event : MonitorEvent) :
    Option VerifierThreadState :=
  some (handleThread (replayObserved thread event) event)

def replayReports (maxHoldNs : ℕ) (thread : Option VerifierThreadState) (event : MonitorEvent) :
    List (MonitorEvent × Report) :=
  (handlerReports maxHoldNs (replayObserved thread event) event).map fun report => (event, report)

def replayGaps (thread : Option VerifierThreadState) (event : MonitorEvent) :
    List MonitorEvent :=
  if hasGap (thread.getD (freshThread event.threadId)) event then [event] else []

/-- The machine on the whole thread table. -/
abbrev replayAll : (ℕ → Option VerifierThreadState) → MonitorEvent →
    ℕ → Option VerifierThreadState :=
  mapStep (fun event : MonitorEvent => event.threadId) replayStep

variable {T A : Finset ℕ} {s : VerifierState} {event : MonitorEvent}

theorem init_threadOf (maxHoldNs threadId : ℕ) :
    (monitorVerifierInit maxHoldNs).threadOf threadId = none := by
  apply lookup_eq_none_iff.mpr
  apply find_eq_none_iff.mpr
  simp [monitorVerifierInit]

theorem init_mutexOf (maxHoldNs address : ℕ) :
    (monitorVerifierInit maxHoldNs).mutexOf address = none := by
  apply lookup_eq_none_iff.mpr
  apply find_eq_none_iff.mpr
  simp [monitorVerifierInit]

theorem fits_init (T A : Finset ℕ) (maxHoldNs : ℕ) :
    Fits T A (monitorVerifierInit maxHoldNs) where
  threads threadId hused := absurd (init_threadOf maxHoldNs threadId) hused
  mutexes address hused := absurd (init_mutexOf maxHoldNs address) hused

theorem Fits.threadRoom (hfits : Fits T A s) (h : WellFormed s) (hT : T.card ≤ verifierMaxThreads)
    {threadId : ℕ} (hmem : threadId ∈ T) : ThreadRoom s threadId := by
  intro hnone hfull
  have hkeys : ∀ i, threadLayout.used (s.threadStates i) = true →
      threadLayout.key (s.threadStates i) ∈ T := by
    intro i hused
    apply hfits.threads
    have hslot := lookup_slot h.threads_distinct hused
    unfold VerifierState.threadOf
    rw [hslot]
    simp
  obtain ⟨i, hi⟩ := exists_free_of_card h.threads_distinct hT hkeys hmem
    (lookup_eq_none_iff.mp hnone)
  rw [hi] at hfull
  simp at hfull

theorem Fits.not_refused (hfits : Fits T A s) (h : WellFormed s)
    (hA : A.card ≤ verifierMaxMutexes) (hin : EventIn T A event) :
    mutexRefused s event = false := by
  by_contra hcon
  simp only [Bool.not_eq_false, mutexRefused, Bool.and_eq_true, Option.isNone_iff_eq_none] at hcon
  obtain ⟨⟨htouch, hnone⟩, hfull⟩ := hcon
  have hkeys : ∀ j, mutexLayout.used (s.mutexStates j) = true →
      mutexLayout.key (s.mutexStates j) ∈ A := by
    intro j hused
    apply hfits.mutexes
    have hslot := lookup_slot h.mutexes_distinct hused
    unfold VerifierState.mutexOf
    rw [hslot]
    simp
  obtain ⟨j, hj⟩ := exists_free_of_card h.mutexes_distinct hA hkeys (hin.2 htouch)
    (lookup_eq_none_iff.mp hnone)
  rw [hj] at hfull
  simp at hfull

/-- One event, in tables with room, as one step of the replay. -/
theorem processEvent_replay (h : WellFormed s) (hfits : Fits T A s)
    (hT : T.card ≤ verifierMaxThreads) (hA : A.card ≤ verifierMaxMutexes)
    (hin : EventIn T A event) :
    Processed s event (monitorVerifierProcessEvent s event) ∧
      mutexRefused s event = false ∧
      (monitorVerifierProcessEvent s event).threadOf = replayAll s.threadOf event := by
  have hprocessed := processEvent_processed h (hfits.threadRoom h hT hin.1)
  have hrefused := hfits.not_refused h hA hin
  refine ⟨hprocessed, hrefused, ?_⟩
  rw [hprocessed.threads]
  simp only [processedThread, hrefused, Bool.false_and, Bool.false_eq_true, if_false]
  rfl

theorem Fits.processEvent (hfits : Fits T A s) (h : WellFormed s)
    (hT : T.card ≤ verifierMaxThreads) (hA : A.card ≤ verifierMaxMutexes)
    (hin : EventIn T A event) : Fits T A (monitorVerifierProcessEvent s event) := by
  obtain ⟨hprocessed, -, -⟩ := processEvent_replay h hfits hT hA hin
  constructor
  · intro threadId hused
    by_cases heq : threadId = event.threadId
    · rw [heq]
      exact hin.1
    · rw [hprocessed.threads, Function.update_of_ne heq] at hused
      exact hfits.threads threadId hused
  · intro address hused
    rw [hprocessed.mutexes, processedMutexes] at hused
    have hchecked : checkedMutexes s event address ≠ none → address ∈ A := by
      intro hne
      rw [ne_eq, checkedMutexes_eq_none_iff] at hne
      exact hfits.mutexes address hne
    split at hused
    · rename_i htouch
      simp only [Bool.and_eq_true] at htouch
      by_cases heq : address = event.objectAddress
      · rw [heq]
        exact hin.2 htouch.1
      · rw [Function.update_of_ne heq] at hused
        exact hchecked hused
    · exact hchecked hused

/-- What a run in tables with room does, as outputs of the replay. -/
structure Replayed (s : VerifierState) (events : List MonitorEvent) (s' : VerifierState) :
    Prop where
  threads : s'.threadOf = events.foldl replayAll s.threadOf
  reports : s'.reports = s.reports ++
    (outputs replayAll (mapOut (·.threadId) (replayReports s.maxHoldNs)) s.threadOf events).map
      Prod.snd
  gaps : s'.detectedStreamGaps = (s.detectedStreamGaps +
    (outputs replayAll (mapOut (·.threadId) replayGaps) s.threadOf events).length) % 2 ^ 64
  max_hold : s'.maxHoldNs = s.maxHoldNs

theorem processAll_replayed (h : WellFormed s) (hfits : Fits T A s)
    (hT : T.card ≤ verifierMaxThreads) (hA : A.card ≤ verifierMaxMutexes)
    (hgaps : s.detectedStreamGaps < 2 ^ 64) {events : List MonitorEvent}
    (hin : ∀ event ∈ events, EventIn T A event) :
    Replayed s events (processAll s events) := by
  induction events generalizing s with
  | nil =>
    refine ⟨rfl, by simp [outputs], ?_, rfl⟩
    simp only [processAll_nil, outputs, List.length_nil, Nat.add_zero]
    omega
  | cons event rest ih =>
    have hevent := hin event (List.mem_cons_self ..)
    obtain ⟨hprocessed, -, hthreads⟩ := processEvent_replay h hfits hT hA hevent
    have hrest := hprocessed.rest
    have hgaps' : (monitorVerifierProcessEvent s event).detectedStreamGaps =
        (s.detectedStreamGaps + (mapOut (·.threadId) replayGaps s.threadOf event).length) %
          2 ^ 64 := by
      rw [hrest]
      dsimp only
      unfold mapOut replayGaps
      change (if hasGap (threadAt s event.threadId) event = true then _ else _) =
        (s.detectedStreamGaps +
          (if hasGap (threadAt s event.threadId) event = true then [event] else []).length) % _
      split
      · rfl
      · simp only [List.length_nil, Nat.add_zero]
        omega
    have hmax : (monitorVerifierProcessEvent s event).maxHoldNs = s.maxHoldNs := by rw [hrest]
    have hreports : (monitorVerifierProcessEvent s event).reports = s.reports ++
        (mapOut (·.threadId) (replayReports s.maxHoldNs) s.threadOf event).map Prod.snd := by
      rw [hrest]
      simp only [mapOut, replayReports, List.map_map]
      exact congrArg (s.reports ++ ·) (List.map_id _).symm
    have hlt : (monitorVerifierProcessEvent s event).detectedStreamGaps < 2 ^ 64 := by
      rw [hgaps']
      exact Nat.mod_lt _ (by decide)
    obtain ⟨hthreads', hreports', hgapsrest, hmaxrest⟩ :=
      ih (wellFormed_processEvent h event) (hfits.processEvent h hT hA hevent) hlt
        fun e he => hin e (List.mem_cons_of_mem _ he)
    change Replayed s (event :: rest) (processAll (monitorVerifierProcessEvent s event) rest)
    constructor
    · rw [hthreads', hthreads, List.foldl_cons]
    · rw [hreports', hreports, hmax, hthreads, outputs, List.map_append, List.append_assoc]
    · rw [hgapsrest, hgaps', hthreads, outputs, List.length_append, Nat.mod_add_mod,
        Nat.add_assoc]
    · rw [hmaxrest, hmax]

theorem replayed_init (maxHoldNs : ℕ) (hT : T.card ≤ verifierMaxThreads)
    (hA : A.card ≤ verifierMaxMutexes) {events : List MonitorEvent}
    (hin : ∀ event ∈ events, EventIn T A event) :
    Replayed (monitorVerifierInit maxHoldNs) events
      (processAll (monitorVerifierInit maxHoldNs) events) :=
  processAll_replayed (wellFormed_init maxHoldNs) (fits_init T A maxHoldNs) hT hA
    (by simp [monitorVerifierInit]) hin

/-- The statistics counter of a kind of violation. -/
def counterOf (s : VerifierState) : ViolationKind → ℕ
  | .selfDeadlock => s.selfDeadlockCandidates
  | .nonOwnerUnlock => s.nonOwnerUnlockViolations
  | .holdTime => s.holdTimeViolations
  | .heldAtExit => s.lockHeldAtExitViolations
  | .deadlockCycle => s.deadlockCycleViolations

def reportCount (reports : List Report) (kind : ViolationKind) : ℕ :=
  reports.countP fun report => reportKind report = kind

/-- Each counter is the number of reports of its kind. -/
def CountersAgree (s : VerifierState) : Prop :=
  ∀ kind, counterOf s kind = reportCount s.reports kind % 2 ^ 64

theorem countersAgree_init (maxHoldNs : ℕ) : CountersAgree (monitorVerifierInit maxHoldNs) := by
  intro kind
  cases kind <;> rfl

theorem handlerReports_length (maxHoldNs : ℕ) (thread : VerifierThreadState)
    (event : MonitorEvent) : (handlerReports maxHoldNs thread event).length ≤ 1 := by
  unfold handlerReports
  split
  · split <;> simp
  · split <;> simp
  · split <;> simp
  · split <;> simp
  · simp

/-- A handler never reports a cycle. -/
theorem handlerReports_kind {maxHoldNs : ℕ} {thread : VerifierThreadState} {report : Report}
    (h : report ∈ handlerReports maxHoldNs thread event) :
    reportKind report ≠ .deadlockCycle := by
  unfold handlerReports at h
  split at h
  · split at h <;> simp only [List.mem_singleton, List.not_mem_nil] at h
    simp [h, reportKind]
  · split at h <;> simp only [List.mem_singleton, List.not_mem_nil] at h
    simp [h, reportKind]
  · split at h <;> simp only [List.mem_singleton, List.not_mem_nil] at h
    simp [h, reportKind]
  · split at h <;> simp only [List.mem_singleton, List.not_mem_nil] at h
    simp [h, reportKind]
  · simp at h

theorem bump_eq {kind : ViolationKind} {made : List Report} (hmade : made.length ≤ 1)
    {count : ℕ} : bump kind made (count % 2 ^ 64) = (count + reportCount made kind) % 2 ^ 64 := by
  rcases made with _ | ⟨report, rest⟩
  · simp [bump, reportCount]
  · have hrest : rest = [] := by
      simp only [List.length_cons] at hmade
      exact List.length_eq_zero_iff.mp (by omega)
    subst hrest
    by_cases hkind : reportKind report = kind
    · simp [bump, reportCount, hkind, succ64]
    · simp [bump, reportCount, hkind]

theorem CountersAgree.processEvent (hagree : CountersAgree s) (h : WellFormed s)
    (event : MonitorEvent) : CountersAgree (monitorVerifierProcessEvent s event) := by
  by_cases hroom : ThreadRoom s event.threadId
  · have hrest := (processEvent_processed h hroom).rest
    have hlength := handlerReports_length s.maxHoldNs (observed s event) event
    have hcycle : reportCount (reportsMade s event) .deadlockCycle = 0 := by
      apply List.countP_eq_zero.mpr
      intro report hreport
      simpa using handlerReports_kind hreport
    intro kind
    have hkind := hagree kind
    rw [hrest]
    unfold reportCount at *
    rw [List.countP_append]
    cases kind <;> simp only [counterOf] at hkind ⊢
    case deadlockCycle => rw [hkind, hcycle, Nat.add_zero]
    all_goals
      rw [hkind]
      exact bump_eq hlength
  · rw [processEvent_noRoom h hroom]
    intro kind
    have hkind := hagree kind
    cases kind <;> exact hkind

theorem CountersAgree.check (hagree : CountersAgree s) :
    CountersAgree (monitorVerifierCheckDeadlocks s) := by
  have hsame : ∀ {s' : VerifierState}, s'.reports = s.reports →
      counterOf s' = counterOf s → CountersAgree s' := by
    intro s' hreports hcounter kind
    rw [hreports, hcounter]
    exact hagree kind
  unfold monitorVerifierCheckDeadlocks
  split
  · exact hsame rfl rfl
  split
  · exact hsame rfl rfl
  unfold confirmCycle
  dsimp only
  split
  · exact hsame rfl rfl
  split <;> split <;> try split
  all_goals first
    | exact hsame rfl rfl
    | skip
  all_goals
    intro kind
    have hkind := hagree kind
    cases kind <;> simp only [counterOf, reportDeadlockCycle, reportCount, List.countP_append]
      at hkind ⊢ <;> rw [hkind] <;> simp [reportKind, succ64]

theorem countersAgree_runCalls (hagree : CountersAgree s) (h : WellFormed s)
    (calls : List Call) : CountersAgree (runCalls s calls) := by
  induction calls generalizing s with
  | nil => exact hagree
  | cons call rest ih =>
    rw [runCalls_cons]
    cases call with
    | processEvent event =>
      exact ih (hagree.processEvent h event) (wellFormed_processEvent h event)
    | checkDeadlocks => exact ih hagree.check (wellFormed_check h)

end RuntimeMonitor.StreamReplay
