import RuntimeMonitor.AuthoritativeTraces
import RuntimeMonitor.EventLoss
import RuntimeMonitor.GapDiscards

/-!
One thread's stream through a run of the verifier. Whatever the other threads do and
whatever room the mutex table has, the entry of a thread follows its own stream of
push attempts: it expects the next number in generation order, it is tainted once a
drop lies before a delivered event, and a gap is counted for each maximal run of
drops that a delivered event closes.
-/
namespace RuntimeMonitor.StreamTracking

open EventRecord SlotTables VerifierTables VerifierEvents VerifierSteps VerifierCycles
open VerifierInvariant VerifierMaps KeyedStreams SequenceGaps EventLoss GapDiscards
open AuthoritativeTraces

/-- All threads in the table are among `K`. -/
def KnownThreads (K : Finset ℕ) (s : VerifierState) : Prop :=
  ∀ threadId, s.threadOf threadId ≠ none → threadId ∈ K

/-- The number of maximal runs of dropped events, after a dropped event or not. -/
def dropRunsAfter : Bool → List (MonitorEvent × Bool) → ℕ
  | _, [] => 0
  | dropped, attempt :: rest =>
    (if !attempt.2 && !dropped then 1 else 0) + dropRunsAfter (!attempt.2) rest

/-- The number of maximal runs of dropped events. -/
def dropRuns (attempts : List (MonitorEvent × Bool)) : ℕ := dropRunsAfter false attempts

/-- The call is an event of the thread for which a gap is counted. -/
def countsGapOf (threadId : ℕ) (s : VerifierState) (call : Call) : Bool :=
  match call with
  | .processEvent event =>
    decide (event.threadId = threadId) &&
      decide ((applyCall s call).detectedStreamGaps ≠ s.detectedStreamGaps)
  | .checkDeadlocks => false

/-- The gaps counted during the events of one thread. -/
def gapsCounted (threadId : ℕ) : VerifierState → List Call → ℕ
  | _, [] => 0
  | s, call :: rest =>
    (if countsGapOf threadId s call then 1 else 0) + gapsCounted threadId (applyCall s call) rest

/-- The entry of a thread after the attempts up to a delivered event. -/
structure Tracked (threadId : ℕ) (attempts : List (MonitorEvent × Bool)) (s : VerifierState) :
    Prop where
  expecting : Expecting attempts.length (threadAt s threadId)
  tainted : (threadAt s threadId).traceTainted = true ↔ ∃ attempt ∈ attempts, attempt.2 = false

variable {K : Finset ℕ} {s : VerifierState} {event : MonitorEvent} {threadId : ℕ}
  {attempts dropped : List (MonitorEvent × Bool)}

theorem knownThreads_init (K : Finset ℕ) (maxHoldNs : ℕ) :
    KnownThreads K (monitorVerifierInit maxHoldNs) :=
  fun threadId hused => absurd (StreamReplay.init_threadOf maxHoldNs threadId) hused

theorem KnownThreads.room (hknown : KnownThreads K s) (h : WellFormed s)
    (hK : K.card ≤ verifierMaxThreads) (hmem : threadId ∈ K) : ThreadRoom s threadId := by
  intro hnone hfull
  have hkeys : ∀ i, threadLayout.used (s.threadStates i) = true →
      threadLayout.key (s.threadStates i) ∈ K := by
    intro i hused
    apply hknown
    have hslot := lookup_slot h.threads_distinct hused
    unfold VerifierState.threadOf
    rw [hslot]
    simp
  obtain ⟨i, hi⟩ := exists_free_of_card h.threads_distinct hK hkeys hmem
    (lookup_eq_none_iff.mp hnone)
  rw [hi] at hfull
  simp at hfull

theorem KnownThreads.processEvent (hknown : KnownThreads K s) (h : WellFormed s)
    (hmem : event.threadId ∈ K) : KnownThreads K (monitorVerifierProcessEvent s event) := by
  intro threadId hused
  by_cases hroom : ThreadRoom s event.threadId
  · by_cases heq : threadId = event.threadId
    · rwa [heq]
    · rw [(processEvent_processed h hroom).threads, Function.update_of_ne heq] at hused
      exact hknown threadId hused
  · rw [processEvent_noRoom h hroom] at hused
    exact hknown threadId hused

/-- The sequence check writes the observed entry. -/
theorem checked_threadOf (h : WellFormed s) (hroom : ThreadRoom s event.threadId) :
    (checked s event).threadOf =
      Function.update s.threadOf event.threadId (some (observed s event)) := by
  rcases hlookup : findThread (countEvent s event) event.threadId true with ⟨s₁, found⟩
  cases found with
  | none =>
    exfalso
    rcases findThread_cases (countEvent s event) event.threadId with
      ⟨i, -, heq⟩ | ⟨i, -, -, heq⟩ | ⟨hnew, hfull, -⟩
    · rw [heq] at hlookup
      simp at hlookup
    · rw [heq] at hlookup
      simp at hlookup
    · exact hroom (lookup_eq_none_iff.mpr hnew) hfull
  | some i =>
    obtain ⟨h₁, hfound, hslot, hthreads, -⟩ :=
      findThread_admits (wellFormed_countEvent h event) hlookup
    have hslot' : s₁.threadStates i = threadAt s event.threadId := hslot
    have hspec := observed_spec s event
    have hwrite : (observedThread s₁ i event).threadStates =
        Function.update s₁.threadStates i (observed s event) := by
      unfold observed
      rw [← hslot']
      rfl
    unfold checked
    rw [observeThreadSequence_eq hlookup, threadOf_rewrite h₁ hfound hwrite hspec.1 hspec.2,
      hthreads, Function.update_idem]
    rfl

theorem processedThread_frame (s : VerifierState) (event : MonitorEvent) :
    (processedThread s event).traceTainted =
        ((threadAt s event.threadId).traceTainted ||
          hasGap (threadAt s event.threadId) event) ∧
      (observed s event).traceTainted =
        ((threadAt s event.threadId).traceTainted ||
          hasGap (threadAt s event.threadId) event) := by
  have hobserve := (observeThread_frame (threadAt s event.threadId) event).2.2
  refine ⟨?_, hobserve⟩
  unfold processedThread
  split
  · exact hobserve
  · exact (handleThread_frame (observed s event) event).2.2.trans hobserve

theorem processedThread_expecting {n : ℕ} (hseq : event.threadSequence = n % 2 ^ 32) :
    Expecting (n + 1) (processedThread s event) := by
  have hnext : Expecting (n + 1) (observeThread (threadAt s event.threadId) event) ∧
      Expecting (n + 1) (handleThread (observeThread (threadAt s event.threadId) event) event) :=
    expecting_next hseq
  obtain ⟨hobserve, hhandle⟩ := hnext
  unfold processedThread
  split
  · exact hobserve
  · exact hhandle

/-- A gap is counted exactly when the check finds one. -/
theorem gapCounted_iff (h : WellFormed s) (hroom : ThreadRoom s event.threadId) :
    (monitorVerifierProcessEvent s event).detectedStreamGaps ≠ s.detectedStreamGaps ↔
      hasGap (threadAt s event.threadId) event = true := by
  have hcount : (monitorVerifierProcessEvent s event).detectedStreamGaps =
      if hasGap (threadAt s event.threadId) event then succ64 s.detectedStreamGaps
      else s.detectedStreamGaps := by rw [(processEvent_processed h hroom).rest]
  rw [hcount]
  cases hasGap (threadAt s event.threadId) event with
  | false => simp
  | true =>
    simp only [if_true, succ64, ne_eq, iff_true]
    omega

theorem countsGapOf_iff (h : WellFormed s) (hroom : ThreadRoom s event.threadId) :
    countsGapOf threadId s (.processEvent event) = true ↔
      event.threadId = threadId ∧ hasGap (threadAt s event.threadId) event = true := by
  rw [← gapCounted_iff h hroom, countsGapOf, Bool.and_eq_true, decide_eq_true_eq,
    decide_eq_true_eq]
  rfl

/-- The events of other threads leave the entry alone. -/
theorem threadAt_other (h : WellFormed s) (hne : event.threadId ≠ threadId) :
    threadAt (monitorVerifierProcessEvent s event) threadId = threadAt s threadId := by
  unfold threadAt
  by_cases hroom : ThreadRoom s event.threadId
  · rw [(processEvent_processed h hroom).threads, Function.update_of_ne (Ne.symm hne)]
  · rw [processEvent_noRoom h hroom]
    rfl

theorem threadAt_check (s : VerifierState) (threadId : ℕ) :
    threadAt (monitorVerifierCheckDeadlocks s) threadId = threadAt s threadId := by
  unfold threadAt VerifierState.threadOf
  rw [(check_frame s).1]

/-- The number of a delivered event behind a run of drops. -/
theorem hasGap_behind (h : Tracked threadId attempts s) (hshort : dropped.length < 2 ^ 32)
    (hseq : event.threadSequence = (attempts.length + dropped.length) % 2 ^ 32) :
    hasGap (threadAt s threadId) event = true ↔ dropped ≠ [] := by
  rw [hasGap_iff h.expecting, hseq, ← List.length_pos_iff]
  omega

/-- A delivered event extends the tracked attempts by the drops in front of it. -/
theorem Tracked.deliver (h : Tracked threadId attempts s) (hwf : WellFormed s)
    (hroom : ThreadRoom s event.threadId) (hid : event.threadId = threadId)
    (hdropped : ∀ attempt ∈ dropped, attempt.2 = false) (hshort : dropped.length < 2 ^ 32)
    (hseq : event.threadSequence = (attempts.length + dropped.length) % 2 ^ 32) :
    Tracked threadId (attempts ++ dropped ++ [(event, true)])
        (monitorVerifierProcessEvent s event) ∧
      ((observed s event).traceTainted = true ↔
        ∃ attempt ∈ attempts ++ dropped, attempt.2 = false) := by
  subst hid
  have hgap := hasGap_behind h hshort hseq
  obtain ⟨hprocessed, hobserved⟩ := processedThread_frame s event
  have htaint : ((threadAt s event.threadId).traceTainted ||
      hasGap (threadAt s event.threadId) event) = true ↔
      ∃ attempt ∈ attempts ++ dropped, attempt.2 = false := by
    rw [Bool.or_eq_true, h.tainted, hgap]
    constructor
    · rintro (⟨attempt, hmem, hdrop⟩ | hne)
      · exact ⟨attempt, List.mem_append_left _ hmem, hdrop⟩
      · obtain ⟨attempt, hmem⟩ := List.exists_mem_of_ne_nil _ hne
        exact ⟨attempt, List.mem_append_right _ hmem, hdropped attempt hmem⟩
    · rintro ⟨attempt, hmem, hdrop⟩
      rcases List.mem_append.mp hmem with hmem | hmem
      · exact Or.inl ⟨attempt, hmem, hdrop⟩
      · exact Or.inr (List.ne_nil_of_mem hmem)
  have hentry : threadAt (monitorVerifierProcessEvent s event) event.threadId =
      processedThread s event := by
    unfold threadAt
    rw [(processEvent_processed hwf hroom).threads, Function.update_self, Option.getD_some]
  refine ⟨⟨?_, ?_⟩, by rw [hobserved, htaint]⟩
  · have hlength : (attempts ++ dropped ++ [(event, true)]).length =
        attempts.length + dropped.length + 1 := by
      rw [List.length_append, List.length_append, List.length_singleton]
    rw [hentry, hlength]
    exact processedThread_expecting hseq
  · rw [hentry, hprocessed, htaint]
    simp

theorem dropRunsAfter_append (last : Bool) (first second : List (MonitorEvent × Bool)) :
    dropRunsAfter last (first ++ second) = dropRunsAfter last first +
      dropRunsAfter (first.foldl (fun _ attempt => !attempt.2) last) second := by
  induction first generalizing last with
  | nil => simp [dropRunsAfter]
  | cons attempt rest ih =>
    rw [List.cons_append, dropRunsAfter, dropRunsAfter, ih, List.foldl_cons, Nat.add_assoc]

/-- A run of drops that follows another drop counts nothing. -/
theorem dropRunsAfter_dropped (hdropped : ∀ attempt ∈ dropped, attempt.2 = false) :
    dropRunsAfter true dropped = 0 := by
  induction dropped with
  | nil => rfl
  | cons attempt rest ih =>
    have hfirst := hdropped attempt (List.mem_cons_self ..)
    have hrest := ih fun a ha => hdropped a (List.mem_cons_of_mem _ ha)
    rw [dropRunsAfter, hfirst, Bool.not_false, hrest]
    rfl

theorem dropRuns_behind (hlast : ∀ attempt ∈ attempts.getLast?, attempt.2 = true)
    (hdropped : ∀ attempt ∈ dropped, attempt.2 = false) :
    dropRuns (attempts ++ dropped) = dropRuns attempts + if dropped = [] then 0 else 1 := by
  have hflag : attempts.foldl (fun _ attempt => !attempt.2) false = false := by
    rcases List.eq_nil_or_concat attempts with rfl | ⟨front, attempt, rfl⟩
    · rfl
    · rw [List.concat_eq_append] at hlast ⊢
      rw [List.foldl_append, List.foldl_cons, List.foldl_nil, hlast attempt (by simp),
        Bool.not_true]
  unfold dropRuns
  rw [dropRunsAfter_append, hflag]
  congr 1
  cases dropped with
  | nil => rfl
  | cons attempt rest =>
    have hfirst := hdropped attempt (List.mem_cons_self ..)
    have hrest := dropRunsAfter_dropped fun a ha => hdropped a (List.mem_cons_of_mem _ ha)
    rw [dropRunsAfter, hfirst, Bool.not_false, hrest]
    rfl

theorem dropRuns_lossless (h : ∀ attempt ∈ attempts, attempt.2 = true) :
    dropRuns attempts = 0 := by
  have hnone : ∀ last, dropRunsAfter last attempts = 0 := by
    intro last
    induction attempts generalizing last with
    | nil => rfl
    | cons attempt more ih =>
      have hfirst := h attempt (List.mem_cons_self ..)
      rw [dropRunsAfter, hfirst, ih fun a ha => h a (List.mem_cons_of_mem _ ha)]
      rfl
  exact hnone false

theorem dropRuns_accepted (attempts : List (MonitorEvent × Bool)) (event : MonitorEvent) :
    dropRuns (attempts ++ [(event, true)]) = dropRuns attempts := by
  unfold dropRuns
  rw [dropRunsAfter_append]
  simp [dropRunsAfter]

theorem gapsCounted_append (threadId : ℕ) (s : VerifierState) (first second : List Call) :
    gapsCounted threadId s (first ++ second) =
      gapsCounted threadId s first + gapsCounted threadId (runCalls s first) second := by
  induction first generalizing s with
  | nil => simp [gapsCounted]
  | cons call rest ih =>
    rw [List.cons_append, gapsCounted, gapsCounted, ih, runCalls_cons, Nat.add_assoc]

/-- The attempts up to the next delivered event. -/
theorem delivered_split {event : MonitorEvent} {more : List MonitorEvent}
    (h : delivered attempts = event :: more) :
    ∃ dropped after, attempts = dropped ++ (event, true) :: after ∧
      (∀ attempt ∈ dropped, attempt.2 = false) ∧ delivered after = more := by
  induction attempts with
  | nil => simp [delivered] at h
  | cons attempt rest ih =>
    obtain ⟨first, accepted⟩ := attempt
    cases accepted with
    | true =>
      have hcons : delivered ((first, true) :: rest) = first :: delivered rest := rfl
      rw [hcons, List.cons.injEq] at h
      exact ⟨[], rest, by rw [h.1]; rfl, by simp, h.2⟩
    | false =>
      have hcons : delivered ((first, false) :: rest) = delivered rest := rfl
      rw [hcons] at h
      obtain ⟨dropped, after, hsplit, hdropped, hmore⟩ := ih h
      refine ⟨(first, false) :: dropped, after, by rw [hsplit]; rfl, ?_, hmore⟩
      intro attempt hmem
      rcases List.mem_cons.mp hmem with rfl | hmem
      · rfl
      · exact hdropped attempt hmem

theorem delivered_append (first second : List (MonitorEvent × Bool)) :
    delivered (first ++ second) = delivered first ++ delivered second := by
  unfold delivered
  rw [List.filter_append, List.map_append]

theorem delivered_dropped (hdropped : ∀ attempt ∈ dropped, attempt.2 = false) :
    delivered dropped = [] := by
  unfold delivered
  rw [List.filter_eq_nil_iff.mpr (fun a ha => by simp [hdropped a ha]), List.map_nil]

theorem callEvents_append (first second : List Call) :
    callEvents (first ++ second) = callEvents first ++ callEvents second :=
  List.filterMap_append ..

theorem knownThreads_runCalls (hknown : KnownThreads K s) (h : WellFormed s) {calls : List Call}
    (hcalls : ∀ event ∈ callEvents calls, event.threadId ∈ K) :
    KnownThreads K (runCalls s calls) := by
  induction calls generalizing s with
  | nil => exact hknown
  | cons call rest ih =>
    rw [runCalls_cons]
    cases call with
    | processEvent event =>
      have hmem := hcalls event (List.mem_cons_self ..)
      exact ih (hknown.processEvent h hmem) (wellFormed_processEvent h event)
        fun e he => hcalls e (List.mem_cons_of_mem _ he)
    | checkDeadlocks =>
      refine ih ?_ (wellFormed_check h) hcalls
      intro threadId hused
      apply hknown
      unfold VerifierState.threadOf at hused ⊢
      rwa [show (applyCall s .checkDeadlocks).threadStates = s.threadStates from
        (check_frame s).1] at hused

/-- The stream of a thread that the calls deliver. -/
abbrev deliveredTo (threadId : ℕ) (calls : List Call) : List MonitorEvent :=
  stream (fun event : MonitorEvent => event.threadId) threadId (callEvents calls)

/-- What the run of the calls has established about one thread whose push attempts
are `attempts`. -/
structure Followed (threadId : ℕ) (attempts : List (MonitorEvent × Bool)) (maxHoldNs : ℕ)
    (calls : List Call) (handled rest : List (MonitorEvent × Bool)) : Prop where
  split : attempts = handled ++ rest
  delivered_eq : delivered handled = deliveredTo threadId calls
  last : ∀ attempt ∈ handled.getLast?, attempt.2 = true
  tracked : Tracked threadId handled (runCalls (monitorVerifierInit maxHoldNs) calls)
  gaps : gapsCounted threadId (monitorVerifierInit maxHoldNs) calls = dropRuns handled

variable {maxHoldNs : ℕ} {calls : List Call} {handled rest : List (MonitorEvent × Bool)}

theorem Followed.keep {call : Call} (h : Followed threadId attempts maxHoldNs calls handled rest)
    (hnone : deliveredTo threadId [call] = [])
    (hentry : threadAt (runCalls (monitorVerifierInit maxHoldNs) (calls ++ [call])) threadId =
      threadAt (runCalls (monitorVerifierInit maxHoldNs) calls) threadId)
    (hcount : countsGapOf threadId (runCalls (monitorVerifierInit maxHoldNs) calls) call =
      false) :
    Followed threadId attempts maxHoldNs (calls ++ [call]) handled rest where
  split := h.split
  delivered_eq := by
    have happend : deliveredTo threadId (calls ++ [call]) =
        deliveredTo threadId calls ++ deliveredTo threadId [call] := by
      rw [deliveredTo, callEvents_append, stream_append]
    rw [happend, hnone, List.append_nil, h.delivered_eq]
  last := h.last
  tracked := by
    constructor
    · rw [hentry]
      exact h.tracked.expecting
    · rw [hentry]
      exact h.tracked.tainted
  gaps := by
    rw [gapsCounted_append, h.gaps, gapsCounted, hcount, gapsCounted, if_neg (by simp),
      Nat.add_zero]

/-- The next delivered event of the thread and the drops in front of it. -/
theorem Followed.next (h : Followed threadId attempts maxHoldNs calls handled rest)
    {more : List MonitorEvent} (hid : event.threadId = threadId)
    (hmore : delivered attempts = deliveredTo threadId calls ++ event :: more)
    (hnumbered : NumberedFrom 0 (generated attempts))
    (hruns : ∀ before dropped after, attempts = before ++ dropped ++ after →
      (∀ attempt ∈ dropped, attempt.2 = false) → dropped.length < 2 ^ 32)
    (hroom : ThreadRoom (runCalls (monitorVerifierInit maxHoldNs) calls) event.threadId) :
    ∃ dropped after, rest = dropped ++ (event, true) :: after ∧
      (∀ attempt ∈ dropped, attempt.2 = false) ∧
      Followed threadId attempts maxHoldNs (calls ++ [.processEvent event])
        (handled ++ dropped ++ [(event, true)]) after ∧
      ((observed (runCalls (monitorVerifierInit maxHoldNs) calls) event).traceTainted = true ↔
        ∃ attempt ∈ handled ++ dropped, attempt.2 = false) ∧
      gapsCounted threadId (monitorVerifierInit maxHoldNs) (calls ++ [.processEvent event]) =
        dropRuns (handled ++ dropped) := by
  have hwf := wellFormed_runCalls (wellFormed_init maxHoldNs) calls
  have hrest : delivered rest = event :: more := by
    rw [h.split, delivered_append, h.delivered_eq] at hmore
    exact List.append_cancel_left hmore
  obtain ⟨dropped, after, hsplit, hdropped, -⟩ := delivered_split hrest
  have hattempts : attempts = handled ++ dropped ++ (event, true) :: after := by
    rw [h.split, hsplit, List.append_assoc]
  have hshort := hruns handled dropped _ hattempts hdropped
  have hseq : event.threadSequence = (handled.length + dropped.length) % 2 ^ 32 := by
    have hmap : generated attempts =
        generated (handled ++ dropped) ++ event :: generated after := by
      rw [hattempts]
      unfold generated
      rw [List.map_append, List.map_cons]
    rw [hmap, numberedFrom_append] at hnumbered
    have hnumber := hnumbered.2.1
    rw [generated, List.length_map, List.length_append, Nat.zero_add] at hnumber
    exact hnumber
  obtain ⟨htracked, htaint⟩ := h.tracked.deliver hwf hroom hid hdropped hshort hseq
  have hgap : countsGapOf threadId (runCalls (monitorVerifierInit maxHoldNs) calls)
      (.processEvent event) = true ↔ dropped ≠ [] := by
    rw [← hasGap_behind h.tracked hshort hseq, countsGapOf_iff hwf hroom, hid]
    exact and_iff_right rfl
  have hcount : gapsCounted threadId (monitorVerifierInit maxHoldNs)
      (calls ++ [.processEvent event]) = dropRuns (handled ++ dropped) := by
    rw [gapsCounted_append, h.gaps, dropRuns_behind h.last hdropped, gapsCounted, gapsCounted,
      Nat.add_zero]
    congr 1
    by_cases hnil : dropped = []
    · rw [if_pos hnil, if_neg (by rw [hgap]; exact fun hne => hne hnil)]
    · rw [if_neg hnil, if_pos (hgap.mpr hnil)]
  refine ⟨dropped, after, hsplit, hdropped, ?_, htaint, hcount⟩
  constructor
  · rw [hattempts, List.append_assoc, List.append_assoc, List.append_assoc]
    rfl
  · have hone : delivered (dropped ++ [(event, true)]) = [event] := by
      rw [delivered_append, delivered_dropped hdropped]
      rfl
    have hmine : deliveredTo threadId [.processEvent event] = [event] := by
      simp [deliveredTo, callEvents, stream, hid]
    rw [List.append_assoc, delivered_append, hone, h.delivered_eq, deliveredTo, deliveredTo,
      callEvents_append, stream_append]
    exact congrArg _ hmine.symm
  · simp
  · rw [runCalls_append]
    exact htracked
  · rw [hcount, dropRuns_accepted]

/-- Any run that delivers a part of the thread's accepted attempts follows them. -/
theorem followed_runCalls (maxHoldNs : ℕ) (hK : K.card ≤ verifierMaxThreads)
    (hcalls : ∀ event ∈ callEvents calls, event.threadId ∈ K)
    (hdelivered : deliveredTo threadId calls <+: delivered attempts)
    (hnumbered : NumberedFrom 0 (generated attempts))
    (hruns : ∀ before dropped after, attempts = before ++ dropped ++ after →
      (∀ attempt ∈ dropped, attempt.2 = false) → dropped.length < 2 ^ 32) :
    ∃ handled rest, Followed threadId attempts maxHoldNs calls handled rest := by
  induction calls using List.reverseRecOn with
  | nil =>
    refine ⟨[], attempts, rfl, rfl, by simp, ⟨?_, ?_⟩, rfl⟩
    · have hfresh : threadAt (monitorVerifierInit maxHoldNs) threadId = freshThread threadId := by
        unfold threadAt
        rw [StreamReplay.init_threadOf]
        rfl
      rw [runCalls_nil, hfresh]
      exact expecting_fresh threadId
    · have hfresh : threadAt (monitorVerifierInit maxHoldNs) threadId = freshThread threadId := by
        unfold threadAt
        rw [StreamReplay.init_threadOf]
        rfl
      rw [runCalls_nil, hfresh]
      simp [freshThread]
  | append_singleton calls call ih =>
    have happend : deliveredTo threadId (calls ++ [call]) =
        deliveredTo threadId calls ++ deliveredTo threadId [call] := by
      rw [deliveredTo, callEvents_append, stream_append]
    rw [callEvents_append] at hcalls
    rw [happend] at hdelivered
    have hbefore : ∀ event ∈ callEvents calls, event.threadId ∈ K :=
      fun e he => hcalls e (List.mem_append_left _ he)
    obtain ⟨handled, rest, h⟩ := ih hbefore ((List.prefix_append _ _).trans hdelivered)
    have hwf := wellFormed_runCalls (wellFormed_init maxHoldNs) calls
    cases call with
    | checkDeadlocks =>
      refine ⟨handled, rest, h.keep rfl ?_ rfl⟩
      rw [runCalls_append]
      exact threadAt_check _ _
    | processEvent event =>
      by_cases hid : event.threadId = threadId
      · have hmine : deliveredTo threadId [.processEvent event] = [event] := by
          simp [deliveredTo, callEvents, stream, hid]
        rw [hmine] at hdelivered
        obtain ⟨more, hmore⟩ := hdelivered
        rw [List.append_assoc] at hmore
        have hknown := knownThreads_runCalls (knownThreads_init K maxHoldNs)
          (wellFormed_init maxHoldNs) hbefore
        have hmem : event.threadId ∈ K := hcalls event (List.mem_append_right _ (by
          simp [callEvents]))
        obtain ⟨dropped, after, -, -, hnext, -⟩ :=
          h.next hid hmore.symm hnumbered hruns (hknown.room hwf hK hmem)
        exact ⟨_, _, hnext⟩
      · refine ⟨handled, rest, h.keep ?_ ?_ ?_⟩
        · simp [deliveredTo, callEvents, stream, hid]
        · rw [runCalls_append]
          exact threadAt_other hwf hid
        · simp [countsGapOf, hid]

end RuntimeMonitor.StreamTracking
