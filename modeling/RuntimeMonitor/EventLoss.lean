import RuntimeMonitor.ConsumptionOrder
import Mathlib.Data.List.TakeWhile

/-!
Lossy runs compared with complete ones, thread by thread. A stream is a list of
push attempts, each accepted or dropped. Until its first drop a thread is treated
as in the complete run; from the next delivered event on it is tainted, and a
tainted thread makes none of the reports that depend on its own state.
-/
namespace RuntimeMonitor.EventLoss

open EventRecord SlotTables VerifierTables VerifierEvents VerifierSteps VerifierCycles
open HeldTables VerifierInvariant VerifierMaps KeyedStreams StreamReplay SequenceGaps
open ConsumptionOrder

def generated (attempts : List (MonitorEvent × Bool)) : List MonitorEvent :=
  attempts.map Prod.fst

def delivered (attempts : List (MonitorEvent × Bool)) : List MonitorEvent :=
  (attempts.filter Prod.snd).map Prod.fst

/-- The number of events generated before the first dropped one. -/
def firstDrop (attempts : List (MonitorEvent × Bool)) : ℕ :=
  (attempts.takeWhile Prod.snd).length

/-- Generated streams, numbered as the emission numbers them, with a drop pattern
that never drops 2^32 consecutive events of a stream. -/
structure LossyFamily where
  threads : Finset ℕ
  attempts : ℕ → List (MonitorEvent × Bool)
  keyed : ∀ threadId, ∀ attempt ∈ attempts threadId, attempt.1.threadId = threadId
  outside : ∀ threadId, threadId ∉ threads → attempts threadId = []
  numbered : ∀ threadId, NumberedFrom 0 (generated (attempts threadId))
  drop_runs : ∀ threadId before dropped after,
    attempts threadId = before ++ dropped ++ after → (∀ attempt ∈ dropped, attempt.2 = false) →
      dropped.length < 2 ^ 32

def LossyFamily.complete (family : LossyFamily) : StreamFamily where
  threads := family.threads
  streams threadId := generated (family.attempts threadId)
  keyed threadId event hmem := by
    obtain ⟨attempt, hattempt, rfl⟩ := List.mem_map.mp hmem
    exact family.keyed threadId attempt hattempt
  outside threadId hout := by
    rw [family.outside threadId hout]
    rfl

def LossyFamily.lossy (family : LossyFamily) : StreamFamily where
  threads := family.threads
  streams threadId := delivered (family.attempts threadId)
  keyed threadId event hmem := by
    obtain ⟨attempt, hattempt, rfl⟩ := List.mem_map.mp hmem
    exact family.keyed threadId attempt (List.mem_of_mem_filter hattempt)
  outside threadId hout := by
    rw [family.outside threadId hout]
    rfl

/-- The kinds of reports that depend on one thread's own state. -/
def isThreadLocal (report : Report) : Bool :=
  match reportKind report with
  | .selfDeadlock | .heldAtExit | .holdTime => true
  | .nonOwnerUnlock | .deadlockCycle => false

/-- The thread that a report names, if it names a single one. -/
def reportThread : Report → Option ℕ
  | .selfDeadlockCandidate _ thread _ => some thread
  | .nonOwnerUnlock _ thread _ _ => some thread
  | .holdTimeViolation _ thread _ _ _ => some thread
  | .lockHeldAtThreadExit _ thread _ _ => some thread
  | .deadlockCycle .. => none

/-- The thread-local reports about a thread in the verifier's output. -/
def localReportsOf (s : VerifierState) (threadId : ℕ) : List Report :=
  s.reports.filter fun report => isThreadLocal report && reportThread report == some threadId

/-- The reports made while processing each event. -/
def reportsDuring (s : VerifierState) : List MonitorEvent → List (MonitorEvent × List Report)
  | [] => []
  | event :: rest =>
    (event, (monitorVerifierProcessEvent s event).reports.drop s.reports.length) ::
      reportsDuring (monitorVerifierProcessEvent s event) rest

/-- For each event of a thread, in order, the thread-local reports made for it. -/
def localReportLog (s : VerifierState) (events : List MonitorEvent) (threadId : ℕ) :
    List (List Report) :=
  (stream (fun entry : MonitorEvent × List Report => entry.1.threadId) threadId
    (reportsDuring s events)).map fun entry => entry.2.filter isThreadLocal

def replayEntry (maxHoldNs : ℕ) (thread : Option VerifierThreadState) (event : MonitorEvent) :
    List (MonitorEvent × List Report) :=
  [(event, handlerReports maxHoldNs (replayObserved thread event) event)]

/-- The log of one stream replayed on its own. -/
def replayLog (maxHoldNs : ℕ) (thread : Option VerifierThreadState)
    (events : List MonitorEvent) : List (List Report) :=
  (outputs replayStep (replayEntry maxHoldNs) thread events).map
    fun entry => entry.2.filter isThreadLocal

variable {T A : Finset ℕ} {s : VerifierState} {events : List MonitorEvent} {maxHoldNs : ℕ}

theorem reportsDuring_replay (h : WellFormed s) (hfits : Fits T A s)
    (hT : T.card ≤ verifierMaxThreads) (hA : A.card ≤ verifierMaxMutexes)
    (hin : ∀ event ∈ events, EventIn T A event) :
    reportsDuring s events =
      outputs replayAll (mapOut (·.threadId) (replayEntry s.maxHoldNs)) s.threadOf events := by
  induction events generalizing s with
  | nil => rfl
  | cons event rest ih =>
    have hevent := hin event (List.mem_cons_self ..)
    obtain ⟨hprocessed, -, hthreads⟩ := processEvent_replay h hfits hT hA hevent
    have hmax : (monitorVerifierProcessEvent s event).maxHoldNs = s.maxHoldNs := by
      rw [hprocessed.rest]
    have hreports : (monitorVerifierProcessEvent s event).reports =
        s.reports ++ reportsMade s event := by rw [hprocessed.rest]
    rw [reportsDuring, ih (wellFormed_processEvent h event) (hfits.processEvent h hT hA hevent)
      (fun e he => hin e (List.mem_cons_of_mem _ he)), hreports, List.drop_left, hmax, hthreads]
    rfl

theorem localReportLog_eq (maxHoldNs : ℕ) (hT : T.card ≤ verifierMaxThreads)
    (hA : A.card ≤ verifierMaxMutexes)
    (hin : ∀ event ∈ events, EventIn T A event) (threadId : ℕ) :
    localReportLog (monitorVerifierInit maxHoldNs) events threadId =
      replayLog maxHoldNs none
        (stream (fun event : MonitorEvent => event.threadId) threadId events) := by
  have hkey : ∀ x event (entry : MonitorEvent × List Report),
      entry ∈ replayEntry maxHoldNs x event → entry.1.threadId = event.threadId := by
    intro x event entry hmem
    rw [List.mem_singleton.mp hmem]
  have hmax : (monitorVerifierInit maxHoldNs).maxHoldNs = maxHoldNs := rfl
  unfold localReportLog replayLog
  rw [reportsDuring_replay (wellFormed_init maxHoldNs) (fits_init T A maxHoldNs) hT hA hin, hmax,
    stream_outputs hkey, init_threadOf]

/-- A tainted thread makes no thread-local report. -/
theorem tainted_silent {thread : VerifierThreadState} (ht : thread.traceTainted = true)
    (maxHoldNs : ℕ) (event : MonitorEvent) :
    (handlerReports maxHoldNs thread event).filter isThreadLocal = [] := by
  unfold handlerReports
  cases event.eventType with
  | threadExit => simp [ht]
  | lockRequest => simp [ht]
  | unlocked => simp [holdViolation, ht]
  | unlockFailed =>
    simp only
    split <;> simp [isThreadLocal, reportKind]
  | _ => rfl

theorem replayLog_cons (maxHoldNs : ℕ) (stored : Option VerifierThreadState)
    (event : MonitorEvent) (rest : List MonitorEvent) :
    replayLog maxHoldNs stored (event :: rest) =
      (handlerReports maxHoldNs (replayObserved stored event) event).filter isThreadLocal ::
        replayLog maxHoldNs (replayStep stored event) rest := rfl

theorem replayLog_append (maxHoldNs : ℕ) (stored : Option VerifierThreadState)
    (first second : List MonitorEvent) :
    replayLog maxHoldNs stored (first ++ second) =
      replayLog maxHoldNs stored first ++
        replayLog maxHoldNs (first.foldl replayStep stored) second := by
  unfold replayLog
  rw [outputs_append, List.map_append]

theorem replayLog_length (maxHoldNs : ℕ) (stored : Option VerifierThreadState)
    (events : List MonitorEvent) :
    (replayLog maxHoldNs stored events).length = events.length := by
  induction events generalizing stored with
  | nil => rfl
  | cons event rest ih => rw [replayLog_cons, List.length_cons, List.length_cons, ih]

/-- Once a delivered event shows a gap, the rest of the stream is silent. -/
theorem silent_after_gap {threadId : ℕ} {stored : Option VerifierThreadState}
    (hkeyed : ∀ event ∈ events, event.threadId = threadId)
    (h : (entryOf threadId stored).traceTainted = true ∨
      ∀ event ∈ events.head?, hasGap (entryOf threadId stored) event = true) :
    (replayLog maxHoldNs stored events).flatten = [] := by
  induction events generalizing stored with
  | nil => rfl
  | cons event rest ih =>
    have htid := hkeyed event (List.mem_cons_self ..)
    subst htid
    have hgap : (entryOf event.threadId stored).traceTainted = true ∨
        hasGap (entryOf event.threadId stored) event = true := by
      rcases h with h | h
      · exact Or.inl h
      · exact Or.inr (h event rfl)
    obtain ⟨hobserved, hnext⟩ := replayStep_tainted hgap
    rw [replayLog_cons, List.flatten_cons, tainted_silent hobserved, List.nil_append]
    exact ih (fun e he => hkeyed e (List.mem_cons_of_mem _ he)) (Or.inl hnext)

/-- The state of a stream that has delivered its events without a gap. -/
theorem expecting_foldl {threadId n : ℕ} {stored : Option VerifierThreadState}
    (h : Expecting n (entryOf threadId stored))
    (hkeyed : ∀ event ∈ events, event.threadId = threadId) (hnumbered : NumberedFrom n events) :
    Expecting (n + events.length) (entryOf threadId (events.foldl replayStep stored)) := by
  induction events generalizing n stored with
  | nil => exact h
  | cons event rest ih =>
    obtain ⟨hseq, hrest⟩ := hnumbered
    have htid := hkeyed event (List.mem_cons_self ..)
    subst htid
    have hnext : Expecting (n + 1) (entryOf event.threadId (replayStep stored event)) :=
      (expecting_next hseq).2
    have hlast := ih hnext (fun e he => hkeyed e (List.mem_cons_of_mem _ he)) hrest
    rw [List.length_cons, Nat.add_comm rest.length, ← Nat.add_assoc]
    exact hlast

/-- After a first drop the next delivered event is not the expected one, as fewer
than 2^32 events are dropped in a row. -/
theorem gap_after_drop {n : ℕ} {thread : VerifierThreadState}
    (h : Expecting n thread) {attempts : List (MonitorEvent × Bool)}
    (hnumbered : NumberedFrom n (generated attempts))
    (hfirst : ∀ attempt ∈ attempts.head?, attempt.2 = false)
    (hruns : ∀ dropped after, attempts = dropped ++ after →
      (∀ attempt ∈ dropped, attempt.2 = false) → dropped.length < 2 ^ 32) :
    ∀ event ∈ (delivered attempts).head?, hasGap thread event = true := by
  intro event hevent
  -- split off the run of dropped events in front of the delivered one
  have hsplit := List.takeWhile_append_dropWhile (p := fun a => !a.2) (l := attempts)
  generalize hdropped : attempts.takeWhile (fun a => !a.2) = dropped at hsplit
  generalize hafter : attempts.dropWhile (fun a => !a.2) = after at hsplit
  have hall : ∀ attempt ∈ dropped, attempt.2 = false := by
    intro attempt hmem
    rw [← hdropped] at hmem
    simpa using List.mem_takeWhile_imp hmem
  have hshort := hruns dropped after hsplit.symm hall
  have hnone : delivered dropped = [] := by
    unfold delivered
    rw [List.filter_eq_nil_iff.mpr (fun a ha => by simp [hall a ha]), List.map_nil]
  have hdelivered : delivered attempts = delivered after := by
    rw [← hsplit]
    unfold delivered at *
    rw [List.filter_append, List.map_append, hnone, List.nil_append]
  rw [hdelivered] at hevent
  cases hcase : after with
  | nil =>
    rw [hcase] at hevent
    simp [delivered] at hevent
  | cons attempt rest =>
    have haccepted : attempt.2 = true := by
      have hhead := List.head?_dropWhile_not (fun a : MonitorEvent × Bool => !a.2) attempts
      rw [hafter, hcase] at hhead
      simpa using hhead
    have hself : event = attempt.1 := by
      rw [hcase] at hevent
      simp only [delivered, List.filter_cons, haccepted, if_true, List.map_cons,
        List.head?_cons, Option.mem_def, Option.some.injEq] at hevent
      exact hevent.symm
    have hpos : 0 < dropped.length := by
      apply List.length_pos_of_ne_nil
      intro hnil
      rw [hnil, List.nil_append, hcase] at hsplit
      have := hfirst attempt (by rw [← hsplit]; rfl)
      rw [haccepted] at this
      simp at this
    have hnumber : event.threadSequence = (n + dropped.length) % 2 ^ 32 := by
      rw [← hsplit, hcase] at hnumbered
      unfold generated at hnumbered
      rw [List.map_append, numberedFrom_append, List.length_map, List.map_cons] at hnumbered
      rw [hself]
      exact hnumbered.2.1
    rw [hasGap_iff h, hnumber]
    omega

/-- A lossy stream on its own: the complete log up to the first drop, then silence. -/
theorem replayLog_lossy {threadId : ℕ} {attempts : List (MonitorEvent × Bool)}
    (hkeyed : ∀ attempt ∈ attempts, attempt.1.threadId = threadId)
    (hnumbered : NumberedFrom 0 (generated attempts))
    (hruns : ∀ before dropped after, attempts = before ++ dropped ++ after →
      (∀ attempt ∈ dropped, attempt.2 = false) → dropped.length < 2 ^ 32) :
    (replayLog maxHoldNs none (delivered attempts)).flatten =
      ((replayLog maxHoldNs none (generated attempts)).take (firstDrop attempts)).flatten := by
  have hsplit := List.takeWhile_append_dropWhile (p := Prod.snd) (l := attempts)
  have hhead := List.head?_dropWhile_not (Prod.snd : MonitorEvent × Bool → Bool) attempts
  unfold firstDrop
  have hall : ∀ attempt ∈ attempts.takeWhile Prod.snd, attempt.2 = true := by
    intro attempt hmem
    exact List.mem_takeWhile_imp hmem
  generalize attempts.takeWhile Prod.snd = kept at hsplit hall
  generalize attempts.dropWhile Prod.snd = rest at hsplit hhead
  subst hsplit
  have hkept : delivered (kept ++ rest) = generated kept ++ delivered rest := by
    unfold delivered generated
    rw [List.filter_append, List.map_append, List.filter_eq_self.mpr hall]
  have hgenerated : generated (kept ++ rest) = generated kept ++ generated rest :=
    List.map_append
  have hkeyed_kept : ∀ event ∈ generated kept, event.threadId = threadId := by
    intro event hmem
    obtain ⟨attempt, hattempt, rfl⟩ := List.mem_map.mp hmem
    exact hkeyed attempt (List.mem_append_left _ hattempt)
  have hkeyed_rest : ∀ event ∈ delivered rest, event.threadId = threadId := by
    intro event hmem
    obtain ⟨attempt, hattempt, rfl⟩ := List.mem_map.mp hmem
    exact hkeyed attempt (List.mem_append_right _ (List.mem_of_mem_filter hattempt))
  rw [hgenerated, numberedFrom_append] at hnumbered
  have hexpecting := @expecting_foldl _ threadId 0 none (expecting_fresh threadId) hkeyed_kept
    hnumbered.1
  have hsilent : (replayLog maxHoldNs ((generated kept).foldl replayStep none)
      (delivered rest)).flatten = [] := by
    refine silent_after_gap hkeyed_rest (Or.inr ?_)
    refine gap_after_drop hexpecting hnumbered.2 ?_ ?_
    · intro attempt hattempt
      rw [Option.mem_def] at hattempt
      rw [hattempt] at hhead
      simpa using hhead
    · intro dropped after heq hdropped
      exact hruns kept dropped after (by rw [heq, List.append_assoc]) hdropped
  have hlength : (replayLog maxHoldNs none (generated kept)).length = kept.length := by
    rw [replayLog_length, generated, List.length_map]
  rw [hkept, hgenerated, replayLog_append, replayLog_append, List.flatten_append, hsilent,
    List.append_nil, ← hlength, List.take_left]

theorem handlerReports_thread {thread : VerifierThreadState} {event : MonitorEvent}
    {report : Report} (h : report ∈ handlerReports maxHoldNs thread event) :
    reportThread report = some event.threadId := by
  unfold handlerReports at h
  split at h
  · split at h <;> simp only [List.mem_singleton, List.not_mem_nil] at h
    simp [h, reportThread]
  · split at h <;> simp only [List.mem_singleton, List.not_mem_nil] at h
    simp [h, reportThread]
  · split at h <;> simp only [List.mem_singleton, List.not_mem_nil] at h
    simp [h, reportThread]
  · split at h <;> simp only [List.mem_singleton, List.not_mem_nil] at h
    simp [h, reportThread]
  · simp at h

/-- The verifier's output about a thread is its log. -/
theorem localReportsOf_processAll (h : WellFormed s) (hfits : Fits T A s)
    (hT : T.card ≤ verifierMaxThreads) (hA : A.card ≤ verifierMaxMutexes)
    (hin : ∀ event ∈ events, EventIn T A event) (threadId : ℕ) :
    localReportsOf (processAll s events) threadId =
      localReportsOf s threadId ++ (localReportLog s events threadId).flatten := by
  induction events generalizing s with
  | nil => simp [localReportLog, reportsDuring, stream]
  | cons event rest ih =>
    have hevent := hin event (List.mem_cons_self ..)
    obtain ⟨hprocessed, -, -⟩ := processEvent_replay h hfits hT hA hevent
    have hreports : (monitorVerifierProcessEvent s event).reports =
        s.reports ++ reportsMade s event := by rw [hprocessed.rest]
    have hnext := ih (wellFormed_processEvent h event) (hfits.processEvent h hT hA hevent)
      fun e he => hin e (List.mem_cons_of_mem _ he)
    change localReportsOf (processAll (monitorVerifierProcessEvent s event) rest) threadId = _
    have hlog : localReportLog s (event :: rest) threadId =
        (if event.threadId = threadId then [(reportsMade s event).filter isThreadLocal]
          else []) ++ localReportLog (monitorVerifierProcessEvent s event) rest threadId := by
      unfold localReportLog
      rw [reportsDuring, hreports, List.drop_left]
      by_cases heq : event.threadId = threadId
      · simp [stream, heq]
      · simp [stream, heq]
    have hmade : (reportsMade s event).filter (fun report => isThreadLocal report &&
        reportThread report == some threadId) =
        if event.threadId = threadId then (reportsMade s event).filter isThreadLocal else [] := by
      have hthread : ∀ report ∈ reportsMade s event,
          reportThread report = some event.threadId := fun report => handlerReports_thread
      by_cases heq : event.threadId = threadId
      · rw [if_pos heq]
        apply List.filter_congr
        intro report hreport
        simp [hthread report hreport, heq]
      · rw [if_neg heq]
        apply List.filter_eq_nil_iff.mpr
        intro report hreport
        simp [hthread report hreport, heq]
    rw [hnext, hlog, List.flatten_append, ← List.append_assoc]
    congr 1
    unfold localReportsOf
    rw [hreports, List.filter_append, hmade]
    split <;> simp

theorem LossyFamily.lossy_fits {family : LossyFamily} (h : family.complete.FitsTables) :
    family.lossy.FitsTables where
  few_threads := h.few_threads
  few_mutexes := by
    obtain ⟨addresses, hcard, haddresses⟩ := h.few_mutexes
    refine ⟨addresses, hcard, ?_⟩
    intro threadId event hmem
    obtain ⟨attempt, hattempt, rfl⟩ := List.mem_map.mp hmem
    exact haddresses threadId attempt.1 (List.mem_map_of_mem (List.mem_of_mem_filter hattempt))

/-- Loss fabricates no thread-local violation: the lossy run reports about a thread
exactly what the complete run reports for the events before its first drop. -/
theorem loss_fabricates_no_local_report (family : LossyFamily) (maxHoldNs : ℕ)
    (hfits : family.complete.FitsTables) (lossy complete : List MonitorEvent)
    (hlossy : family.lossy.Interleaving lossy) (hcomplete : family.complete.Interleaving complete)
    (threadId : ℕ) :
    localReportsOf (processAll (monitorVerifierInit maxHoldNs) lossy) threadId =
        ((localReportLog (monitorVerifierInit maxHoldNs) complete threadId).take
          (firstDrop (family.attempts threadId))).flatten ∧
      localReportsOf (processAll (monitorVerifierInit maxHoldNs) complete) threadId =
        (localReportLog (monitorVerifierInit maxHoldNs) complete threadId).flatten ∧
      ∀ report ∈ localReportsOf (processAll (monitorVerifierInit maxHoldNs) lossy) threadId,
        report ∈ localReportsOf (processAll (monitorVerifierInit maxHoldNs) complete)
          threadId := by
  obtain ⟨addresses, hcard, hin⟩ := hfits.eventIn
  obtain ⟨addresses', hcard', hin'⟩ := (LossyFamily.lossy_fits hfits).eventIn
  have hinit := wellFormed_init maxHoldNs
  have hnone : localReportsOf (monitorVerifierInit maxHoldNs) threadId = [] := rfl
  have hthreads : family.lossy.threads.card ≤ verifierMaxThreads := hfits.few_threads
  have hreports := localReportsOf_processAll hinit (fits_init _ _ maxHoldNs)
    hfits.few_threads hcard (hin complete hcomplete) threadId
  have hreports' := localReportsOf_processAll hinit (fits_init _ _ maxHoldNs)
    hthreads hcard' (hin' lossy hlossy) threadId
  rw [hnone, List.nil_append] at hreports hreports'
  have hlog :=
    localReportLog_eq maxHoldNs hfits.few_threads hcard (hin complete hcomplete) threadId
  have hlog' := localReportLog_eq maxHoldNs hthreads hcard' (hin' lossy hlossy) threadId
  rw [hcomplete threadId] at hlog
  rw [hlossy threadId] at hlog'
  have hfirst : localReportsOf (processAll (monitorVerifierInit maxHoldNs) lossy) threadId =
      ((localReportLog (monitorVerifierInit maxHoldNs) complete threadId).take
        (firstDrop (family.attempts threadId))).flatten := by
    rw [hreports', hlog', hlog]
    exact replayLog_lossy (family.keyed threadId) (family.numbered threadId)
      (family.drop_runs threadId)
  refine ⟨hfirst, hreports, ?_⟩
  intro report hmem
  rw [hfirst, List.mem_flatten] at hmem
  rw [hreports, List.mem_flatten]
  obtain ⟨entry, hentry, hreport⟩ := hmem
  exact ⟨entry, List.mem_of_mem_take hentry, hreport⟩

/-- Thread 1 locks mutex 500, asks for it again and exits; the second request is
dropped. -/
def relockAttempts : List (MonitorEvent × Bool) :=
  [(sampleEvent 0 1 0 0 .threadStart, true), (sampleEvent 1 1 1 500 .lockRequest, true),
    (sampleEvent 2 1 2 500 .lockAcquired, true), (sampleEvent 3 1 3 500 .lockRequest, false),
    (sampleEvent 4 1 4 0 .threadExit, true)]

theorem relock_drop {threadId : ℕ} {before dropped after : List (MonitorEvent × Bool)}
    (heq : (if threadId = 1 then relockAttempts else []) = before ++ dropped ++ after) :
    dropped.length < 2 ^ 32 := by
  have hlength := congrArg List.length heq
  simp only [List.length_append] at hlength
  have hle : (if threadId = 1 then relockAttempts else []).length ≤ 5 := by
    split <;> simp [relockAttempts]
  omega

def relockFamily : LossyFamily where
  threads := {1}
  attempts threadId := if threadId = 1 then relockAttempts else []
  keyed threadId attempt hmem := by
    split at hmem
    · rename_i h
      rw [h]
      revert attempt
      decide
    · simp at hmem
  outside threadId hout := if_neg (by simpa using hout)
  numbered threadId := by
    split
    · simp [relockAttempts, generated, NumberedFrom, sampleEvent]
    · trivial
  drop_runs _ _ _ _ heq _ := relock_drop heq

theorem relockFamily_fits : relockFamily.complete.FitsTables where
  few_threads := by decide
  few_mutexes := by
    refine ⟨{500}, by decide, ?_⟩
    intro threadId event hmem
    by_cases h : threadId = 1
    · subst h
      revert event
      decide
    · simp [relockFamily, LossyFamily.complete, generated, h] at hmem

theorem loss_fabricates_no_local_report_relock :
    localReportsOf (processAll (monitorVerifierInit defaultMaxHoldNs)
        (delivered relockAttempts)) 1 =
      ((localReportLog (monitorVerifierInit defaultMaxHoldNs) (generated relockAttempts) 1).take
        3).flatten :=
  (loss_fabricates_no_local_report relockFamily defaultMaxHoldNs relockFamily_fits
    (delivered relockAttempts) (generated relockAttempts)
    (relockFamily.lossy.interleaving_of_threads (by decide) (by decide))
    (relockFamily.complete.interleaving_of_threads (by decide) (by decide)) 1).1

end RuntimeMonitor.EventLoss
