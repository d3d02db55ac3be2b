import RuntimeMonitor.StreamTracking

/-!
The thread-local verdicts and their reference semantics. What a thread holds of a mutex
is a depth, which an acquisition increments and an unlock decrements when it is
positive, and the time of the acquisition that took the depth from zero to one. On a
stream without gaps the held table lists exactly the mutexes with positive depth, and
the three thread-local reports are made exactly when the depths say so.
-/
namespace RuntimeMonitor.ThreadVerdicts

open EventRecord SlotTables VerifierTables VerifierEvents VerifierSteps VerifierCycles
open HeldTables VerifierInvariant VerifierMaps KeyedStreams StreamReplay SequenceGaps
open AuthoritativeTraces StreamTracking

/-- How often a thread holds a mutex and since when. -/
structure Holding where
  depth : ℕ := 0
  since : ℕ := 0
  deriving DecidableEq, Repr

/-- The effect of one event of the thread on what it holds of a mutex. -/
def Holding.next (address : ℕ) (holding : Holding) (event : MonitorEvent) : Holding :=
  if event.objectAddress = address then
    match event.eventType with
    | .lockAcquired =>
      ⟨holding.depth + 1, if holding.depth = 0 then event.timestampNs else holding.since⟩
    | .unlocked => { holding with depth := holding.depth - 1 }
    | _ => holding
  else holding

/-- What a thread holds of a mutex after its events. -/
def holdingOf (events : List MonitorEvent) (address : ℕ) : Holding :=
  events.foldl (Holding.next address) {}

/-- The table entry that stands for a holding. -/
def Holding.entry (address : ℕ) (holding : Holding) : Option VerifierHeldMutex :=
  if 0 < holding.depth then some ⟨address, holding.since, holding.depth⟩ else none

/-- The held table lists the addresses with positive depth, each once, with its depth and
the time of its first acquisition. -/
structure HeldExactly (thread : VerifierThreadState) (holding : ℕ → Holding) : Prop where
  listed : ∀ k, k < thread.heldCount → ∃ address, 0 < (holding address).depth ∧
    thread.heldMutexes k = ⟨address, (holding address).since, (holding address).depth⟩
  complete : ∀ address, 0 < (holding address).depth →
    ∃! k, k < thread.heldCount ∧ (thread.heldMutexes k).address = address

/-- The reports that the verifier makes while it processes an event. -/
def madeFor (s : VerifierState) (event : MonitorEvent) : List Report :=
  (monitorVerifierProcessEvent s event).reports.drop s.reports.length

/-- A report of this kind is among the reports. -/
def Includes (made : List Report) (kind : ViolationKind) : Prop :=
  ∃ report ∈ made, reportKind report = kind

/-- The entry of the thread follows the reference after the calls. -/
structure Referenced (threadId : ℕ) (calls : List Call) (s : VerifierState) : Prop where
  expecting : Expecting (deliveredTo threadId calls).length (threadAt s threadId)
  clean : (threadAt s threadId).traceTainted = false
  held : ∀ address, heldEntry (threadAt s threadId) address =
    (holdingOf (deliveredTo threadId calls) address).entry address

variable {s : VerifierState} {thread : VerifierThreadState} {event : MonitorEvent}
  {holding : ℕ → Holding} {threadId maxHoldNs : ℕ} {calls : List Call}

theorem holdingOf_snoc (events : List MonitorEvent) (event : MonitorEvent) (address : ℕ) :
    holdingOf (events ++ [event]) address = (holdingOf events address).next address event := by
  unfold holdingOf
  rw [List.foldl_append, List.foldl_cons, List.foldl_nil]

section Held

theorem next_other {address : ℕ} (h : event.objectAddress ≠ address) (held : Holding) :
    held.next address event = held := if_neg h

/-- The acquisition of a mutex, in the table and in the reference. -/
theorem entry_acquired {address : ℕ} (held : Holding) (htype : event.eventType = .lockAcquired)
    (haddress : event.objectAddress = address)
    (hdepth : (held.next address event).depth < 2 ^ 32) :
    (held.next address event).entry address =
      some (match held.entry address with
        | some entry => deepen entry
        | none => ⟨address, event.timestampNs, 1⟩) := by
  unfold Holding.next at hdepth ⊢
  rw [if_pos haddress, htype] at hdepth ⊢
  unfold Holding.entry
  by_cases hheld : 0 < held.depth
  · have hroom : held.depth < uint32Max := by
      unfold uint32Max
      simp only at hdepth
      omega
    have hne : held.depth ≠ 0 := by omega
    simp only [Nat.succ_pos, if_true, if_pos hheld, if_neg hne, deepen, if_pos hroom]
  · have hzero : held.depth = 0 := by omega
    simp [hzero]

/-- The release of a mutex, in the table and in the reference. -/
theorem entry_released {address : ℕ} (held : Holding) (htype : event.eventType = .unlocked)
    (haddress : event.objectAddress = address) :
    (held.next address event).entry address = (held.entry address).bind shallow := by
  unfold Holding.next Holding.entry
  rw [if_pos haddress, htype]
  by_cases hheld : 0 < held.depth
  · rw [if_pos hheld, Option.bind_some, shallow]
    by_cases hdeep : held.depth > 1
    · have hpos : 0 < held.depth - 1 := by omega
      simp only [if_pos hpos, if_pos hdeep]
    · have hzero : ¬ 0 < held.depth - 1 := by omega
      simp only [if_neg hzero, if_neg hdeep]
  · have hzero : ¬ 0 < held.depth - 1 := by omega
    simp only [if_neg hheld, if_neg hzero, Option.bind_none]

theorem next_plain {address : ℕ} (held : Holding) (hlock : event.eventType ≠ .lockAcquired)
    (hunlock : event.eventType ≠ .unlocked) : held.next address event = held := by
  unfold Holding.next
  split
  · cases htype : event.eventType <;> simp_all
  · rfl

/-- The other events leave the held table alone. -/
theorem heldEntry_plain (hlock : event.eventType ≠ .lockAcquired)
    (hunlock : event.eventType ≠ .unlocked) :
    heldEntry (handleThread thread event) = heldEntry thread := by
  unfold handleThread
  cases htype : event.eventType with
  | lockAcquired => exact absurd htype hlock
  | unlocked => exact absurd htype hunlock
  | threadExit =>
    simp only
    split
    · obtain ⟨-, -, -, -, hmutexes, hcount⟩ := clearWaiting_frame thread thread.waitingMutex
      exact heldEntry_congr hmutexes hcount
    · exact heldEntry_congr rfl rfl
  | lockFailed =>
    obtain ⟨-, -, -, -, hmutexes, hcount⟩ := clearWaiting_frame thread event.objectAddress
    exact heldEntry_congr hmutexes hcount
  | _ => exact heldEntry_congr rfl rfl

/-- An acquisition with room in the held table, in the map view. -/
theorem heldEntry_acquired (hok : HeldOk thread) (hclean : thread.traceTainted = false)
    (hlock : event.eventType = .lockAcquired)
    (hroom : heldOverflow thread event.objectAddress = false) :
    heldEntry (handleThread thread event) = Function.update (heldEntry thread) event.objectAddress
      (some (match heldEntry thread event.objectAddress with
        | some held => deepen held
        | none => ⟨event.objectAddress, event.timestampNs, 1⟩)) := by
  obtain ⟨-, -, htaint, -, hmutexes, hcount⟩ := clearWaiting_frame thread event.objectAddress
  have hroom' : heldOverflow (clearWaiting thread event.objectAddress) event.objectAddress =
      false := by rw [heldOverflow_clearWaiting, hroom]
  have hstep : handleThread thread event =
      addHeld (clearWaiting thread event.objectAddress) event.objectAddress
        event.timestampNs := by
    unfold handleThread
    rw [hlock]
  have hadded := heldEntry_addHeld (heldOk_congr hok hmutexes hcount) (htaint.trans hclean)
    hroom' event.timestampNs
  rw [heldEntry_congr hmutexes hcount] at hadded
  rw [hstep]
  exact hadded

/-- A release in the map view. -/
theorem heldEntry_released (hok : HeldOk thread) (hclean : thread.traceTainted = false)
    (hunlock : event.eventType = .unlocked) :
    heldEntry (handleThread thread event) = Function.update (heldEntry thread) event.objectAddress
      ((heldEntry thread event.objectAddress).bind shallow) := by
  have hstep : handleThread thread event = releaseHeld thread event.objectAddress := by
    unfold handleThread
    rw [hunlock]
  rw [hstep, heldEntry_releaseHeld hok hclean]

/-- A handled event changes the held table as the reference says. -/
theorem heldEntry_handled (hok : HeldOk thread) (hclean : thread.traceTainted = false)
    (hheld : ∀ address, heldEntry thread address = (holding address).entry address)
    (hroom : event.eventType = .lockAcquired → heldOverflow thread event.objectAddress = false)
    (hdepth : ∀ address, ((holding address).next address event).depth < 2 ^ 32) (address : ℕ) :
    heldEntry (handleThread thread event) address =
      ((holding address).next address event).entry address := by
  by_cases hlock : event.eventType = .lockAcquired
  · rw [heldEntry_acquired hok hclean hlock (hroom hlock), hheld]
    by_cases haddress : event.objectAddress = address
    · rw [← haddress, Function.update_self]
      exact (entry_acquired _ hlock rfl (hdepth _)).symm
    · rw [Function.update_of_ne (Ne.symm haddress), next_other haddress, hheld]
  · by_cases hunlock : event.eventType = .unlocked
    · rw [heldEntry_released hok hclean hunlock, hheld]
      by_cases haddress : event.objectAddress = address
      · rw [← haddress, Function.update_self, entry_released _ hunlock rfl]
      · rw [Function.update_of_ne (Ne.symm haddress), next_other haddress, hheld]
    · rw [next_plain _ hlock hunlock, ← hheld, heldEntry_plain hlock hunlock]

/-- The table view of the reference. -/
theorem heldExactly_of_entries (hok : HeldOk thread)
    (hheld : ∀ address, heldEntry thread address = (holding address).entry address) :
    HeldExactly thread holding := by
  constructor
  · intro k hk
    refine ⟨(thread.heldMutexes k).address, ?_⟩
    have hentry := hheld (thread.heldMutexes k).address
    rw [hok.heldEntry_eq_some_iff.mpr ⟨k, hk, rfl, rfl⟩] at hentry
    unfold Holding.entry at hentry
    by_cases hpos : 0 < (holding (thread.heldMutexes k).address).depth
    · rw [if_pos hpos, Option.some.injEq] at hentry
      exact ⟨hpos, hentry⟩
    · rw [if_neg hpos] at hentry
      simp at hentry
  · intro address hpos
    have hentry := hheld address
    rw [Holding.entry, if_pos hpos, hok.heldEntry_eq_some_iff] at hentry
    obtain ⟨k, hk, heq, -⟩ := hentry
    refine ⟨k, ⟨hk, by rw [heq]⟩, ?_⟩
    rintro j ⟨hj, haddress⟩
    exact hok.distinct j k hj hk (by rw [haddress, heq])

end Held

section Reports

/-- What the lookup in the held table finds. -/
theorem findHeldMutex_reference
    (hheld : ∀ address, heldEntry thread address = (holding address).entry address)
    (address : ℕ) :
    (findHeldMutex thread address = none ∧ (holding address).depth = 0) ∨
      ∃ k, findHeldMutex thread address = some k ∧ 0 < (holding address).depth ∧
        thread.heldMutexes k = ⟨address, (holding address).since, (holding address).depth⟩ := by
  have hentry := hheld address
  unfold heldEntry Holding.entry at hentry
  by_cases hpos : 0 < (holding address).depth
  · rw [if_pos hpos, Option.map_eq_some_iff] at hentry
    obtain ⟨k, hfind, heq⟩ := hentry
    exact Or.inr ⟨k, hfind, hpos, heq⟩
  · rw [if_neg hpos, Option.map_eq_none_iff] at hentry
    exact Or.inl ⟨hentry, by omega⟩

theorem selfDeadlock_iff (hclean : thread.traceTainted = false)
    (hheld : ∀ address, heldEntry thread address = (holding address).entry address) :
    Includes (handlerReports maxHoldNs thread event) .selfDeadlock ↔
      event.eventType = .lockRequest ∧ 0 < (holding event.objectAddress).depth := by
  unfold Includes handlerReports
  cases htype : event.eventType with
  | lockRequest =>
    rcases findHeldMutex_reference hheld event.objectAddress with
      ⟨hfind, hzero⟩ | ⟨k, hfind, hpos, -⟩
    · simp [hfind, hzero]
    · simp [hfind, hpos, hclean, reportKind]
  | threadExit | unlockFailed =>
    simp only
    split <;> simp [reportKind]
  | unlocked =>
    simp only
    cases holdViolation maxHoldNs thread event <;> simp [reportKind]
  | _ => simp

theorem holdViolation_reference (hclean : thread.traceTainted = false)
    (hheld : ∀ address, heldEntry thread address = (holding address).entry address) :
    (holdViolation maxHoldNs thread event).isSome = true ↔
      (holding event.objectAddress).depth = 1 ∧ maxHoldNs ≠ 0 ∧
        (holding event.objectAddress).since + maxHoldNs < event.timestampNs := by
  unfold holdViolation
  rw [if_neg (by simp [hclean])]
  rcases findHeldMutex_reference hheld event.objectAddress with
    ⟨hfind, hzero⟩ | ⟨k, hfind, hpos, heq⟩
  · rw [hfind, hzero]
    simp
  · rw [hfind]
    simp only [heq, heldDuration]
    by_cases hdeep : (holding event.objectAddress).depth > 1
    · rw [if_pos hdeep]
      simp only [Option.isSome_none, Bool.false_eq_true, false_iff]
      omega
    · rw [if_neg hdeep]
      by_cases hlate : event.timestampNs ≥ (holding event.objectAddress).since
      · rw [if_pos hlate]
        split
        · simp only [Option.isSome_some, true_iff]
          omega
        · simp only [Option.isSome_none, Bool.false_eq_true, false_iff]
          omega
      · rw [if_neg hlate]
        split
        · omega
        · simp only [Option.isSome_none, Bool.false_eq_true, false_iff]
          omega

theorem holdTime_iff (hclean : thread.traceTainted = false)
    (hheld : ∀ address, heldEntry thread address = (holding address).entry address) :
    Includes (handlerReports maxHoldNs thread event) .holdTime ↔
      event.eventType = .unlocked ∧ (holding event.objectAddress).depth = 1 ∧ maxHoldNs ≠ 0 ∧
        (holding event.objectAddress).since + maxHoldNs < event.timestampNs := by
  have hviolation : (holdViolation maxHoldNs thread event).isSome = true ↔ _ :=
    holdViolation_reference hclean hheld
  unfold Includes handlerReports
  cases htype : event.eventType with
  | unlocked =>
    rw [← hviolation]
    cases holdViolation maxHoldNs thread event <;> simp [reportKind]
  | threadExit | unlockFailed | lockRequest =>
    simp only
    split <;> simp [reportKind]
  | _ => simp

theorem heldAtExit_iff (hok : HeldOk thread) (hclean : thread.traceTainted = false)
    (hheld : ∀ address, heldEntry thread address = (holding address).entry address) :
    Includes (handlerReports maxHoldNs thread event) .heldAtExit ↔
      event.eventType = .threadExit ∧ ∃ address, 0 < (holding address).depth := by
  have hcount : thread.heldCount ≠ 0 ↔ ∃ address, 0 < (holding address).depth := by
    obtain ⟨hlisted, hcomplete⟩ := heldExactly_of_entries hok hheld
    constructor
    · intro hne
      obtain ⟨address, hpos, -⟩ := hlisted 0 (by omega)
      exact ⟨address, hpos⟩
    · rintro ⟨address, hpos⟩
      obtain ⟨k, ⟨hk, -⟩, -⟩ := hcomplete address hpos
      omega
  unfold Includes handlerReports
  cases htype : event.eventType with
  | threadExit =>
    rw [← hcount]
    by_cases hzero : thread.heldCount = 0 <;> simp [hzero, hclean, reportKind]
  | unlockFailed | lockRequest =>
    simp only
    split <;> simp [reportKind]
  | unlocked =>
    simp only
    cases holdViolation maxHoldNs thread event <;> simp [reportKind]
  | _ => simp

end Reports

section Runs

theorem threadAt_heldOk (h : WellFormed s) (threadId : ℕ) : HeldOk (threadAt s threadId) := by
  unfold threadAt
  cases hentry : s.threadOf threadId with
  | none => exact heldOk_fresh threadId
  | some thread =>
    obtain ⟨i, hused, -, rfl⟩ := (lookup_eq_some_iff h.threads_distinct).mp hentry
    exact (h.thread_ok i hused).held_ok

/-- Without an overflow the event is admitted and no update is given up. -/
theorem admitted_of_noOverflow (h : WellFormed s) (hbefore : s.stateOverflowEvents = 0)
    (hafter : (monitorVerifierProcessEvent s event).stateOverflowEvents = 0) :
    ThreadRoom s event.threadId ∧ discarded s event = false := by
  rcases processEvent_overflow h event with ⟨-, hcount⟩ | ⟨hkept, -⟩
  · rw [hcount, hbefore] at hafter
    simp [succ64] at hafter
  · unfold UpdateDiscarded at hkept
    rw [not_or, not_not, Bool.not_eq_true] at hkept
    exact hkept

/-- On the expected event the sequence check touches neither the taint nor the held
table. -/
theorem observed_expected {n : ℕ} (h : Expecting n (threadAt s event.threadId))
    (hseq : event.threadSequence = n % 2 ^ 32) :
    (observed s event).traceTainted = (threadAt s event.threadId).traceTainted ∧
      heldEntry (observed s event) = heldEntry (threadAt s event.threadId) := by
  have hgap : hasGap (threadAt s event.threadId) event = false := by
    rw [← Bool.not_eq_true, hasGap_iff h]
    exact fun hne => hne hseq
  unfold observed observeThread
  rw [hgap]
  exact ⟨rfl, heldEntry_congr rfl rfl⟩

theorem processEvent_maxHoldNs (h : WellFormed s) (event : MonitorEvent) :
    (monitorVerifierProcessEvent s event).maxHoldNs = s.maxHoldNs := by
  by_cases hroom : ThreadRoom s event.threadId
  · rw [(processEvent_processed h hroom).rest]
  · rw [processEvent_noRoom h hroom]
    rfl

theorem check_maxHoldNs (s : VerifierState) :
    (monitorVerifierCheckDeadlocks s).maxHoldNs = s.maxHoldNs := by
  unfold monitorVerifierCheckDeadlocks confirmCycle
  dsimp only
  repeat' split
  all_goals rfl

theorem runCalls_maxHoldNs (h : WellFormed s) (calls : List Call) :
    (runCalls s calls).maxHoldNs = s.maxHoldNs := by
  induction calls generalizing s with
  | nil => rfl
  | cons call rest ih =>
    rw [runCalls_cons]
    cases call with
    | processEvent event =>
      exact (ih (wellFormed_processEvent h event)).trans (processEvent_maxHoldNs h event)
    | checkDeadlocks => exact (ih (wellFormed_check h)).trans (check_maxHoldNs s)

theorem deliveredTo_own (hid : event.threadId = threadId) (calls : List Call) :
    deliveredTo threadId (calls ++ [.processEvent event]) =
      deliveredTo threadId calls ++ [event] := by
  rw [deliveredTo, callEvents_append, stream_append]
  simp [callEvents, stream, hid]

theorem deliveredTo_other {call : Call} (hother : ∀ event, call = .processEvent event →
      event.threadId ≠ threadId) (calls : List Call) :
    deliveredTo threadId (calls ++ [call]) = deliveredTo threadId calls := by
  rw [deliveredTo, callEvents_append, stream_append]
  cases call with
  | checkDeadlocks => simp [callEvents, stream]
  | processEvent event => simp [callEvents, stream, hother event rfl]

theorem numbered_initial {first second : List Call}
    (h : NumberedFrom 0 (deliveredTo threadId (first ++ second))) :
    NumberedFrom 0 (deliveredTo threadId first) := by
  rw [deliveredTo, callEvents_append, stream_append, numberedFrom_append] at h
  exact h.1

/-- The thread's own event extends the reference by one step. -/
theorem Referenced.own (h : Referenced threadId calls s) (hwf : WellFormed s)
    (hid : event.threadId = threadId) (hroom : ThreadRoom s event.threadId)
    (hkept : discarded s event = false)
    (hseq : event.threadSequence = (deliveredTo threadId calls).length % 2 ^ 32)
    (hdepth : ∀ address, (holdingOf (deliveredTo threadId (calls ++ [.processEvent event]))
      address).depth < 2 ^ 32) :
    Referenced threadId (calls ++ [.processEvent event])
      (monitorVerifierProcessEvent s event) := by
  have hentry : threadAt (monitorVerifierProcessEvent s event) threadId =
      processedThread s event := by
    unfold threadAt
    rw [(processEvent_processed hwf hroom).threads, hid, Function.update_self, Option.getD_some]
  rw [deliveredTo_own hid] at hdepth
  subst hid
  obtain ⟨htaint, hobserved⟩ := observed_expected h.expecting hseq
  obtain ⟨hprocessed, hsame⟩ := processedThread_frame s event
  simp only [discarded, Bool.or_eq_false_iff, Bool.and_eq_false_iff, decide_eq_false_iff_not]
    at hkept
  constructor
  · rw [deliveredTo_own rfl, List.length_append, List.length_singleton, hentry]
    exact processedThread_expecting hseq
  · rw [hentry, hprocessed, ← hsame, htaint]
    exact h.clean
  · intro address
    have hstep : processedThread s event = handleThread (observed s event) event := by
      unfold processedThread
      rw [hkept.1, Bool.false_and]
      rfl
    rw [hentry, hstep, deliveredTo_own rfl, holdingOf_snoc]
    apply heldEntry_handled
    · exact (threadOk_observe event ⟨threadAt_heldOk hwf _, fun hon => by
        rw [h.clean] at hon
        simp at hon⟩).held_ok
    · rw [htaint]
      exact h.clean
    · intro a
      rw [hobserved]
      exact h.held a
    · intro hlock
      rcases hkept.2 with hno | hno
      · exact absurd hlock hno
      · exact hno
    · intro a
      rw [← holdingOf_snoc]
      exact hdepth a

/-- The entry of a thread with a gap-free stream follows the reference. -/
theorem referenced_runCalls (maxHoldNs : ℕ)
    (hgapfree : NumberedFrom 0 (deliveredTo threadId calls))
    (hoverflow : ∀ done rest, calls = done ++ rest →
      (runCalls (monitorVerifierInit maxHoldNs) done).stateOverflowEvents = 0)
    (hdepth : ∀ done rest, calls = done ++ rest → ∀ address,
      (holdingOf (deliveredTo threadId done) address).depth < 2 ^ 32) :
    Referenced threadId calls (runCalls (monitorVerifierInit maxHoldNs) calls) := by
  induction calls using List.reverseRecOn with
  | nil =>
    have hfresh : threadAt (monitorVerifierInit maxHoldNs) threadId = freshThread threadId := by
      unfold threadAt
      rw [init_threadOf]
      rfl
    constructor
    · rw [runCalls, List.foldl_nil, hfresh]
      exact expecting_fresh threadId
    · rw [runCalls, List.foldl_nil, hfresh]
      rfl
    · intro address
      rw [runCalls, List.foldl_nil, hfresh]
      rfl
  | append_singleton calls call ih =>
    have hwf := wellFormed_runCalls (wellFormed_init maxHoldNs) calls
    have hnow := hoverflow calls [call] rfl
    have hnext := hoverflow (calls ++ [call]) [] (List.append_nil _).symm
    have hdeep := hdepth (calls ++ [call]) [] (List.append_nil _).symm
    have hbefore :
        Referenced threadId calls (runCalls (monitorVerifierInit maxHoldNs) calls) := by
      apply ih
      · exact numbered_initial hgapfree
      · intro done rest heq
        exact hoverflow done (rest ++ [call]) (by rw [heq, List.append_assoc])
      · intro done rest heq
        exact hdepth done (rest ++ [call]) (by rw [heq, List.append_assoc])
    rw [runCalls_append, runCalls_cons] at hnext ⊢
    generalize runCalls (monitorVerifierInit maxHoldNs) calls = s at *
    cases call with
    | checkDeadlocks =>
      have hsame : deliveredTo threadId (calls ++ [.checkDeadlocks]) =
          deliveredTo threadId calls := deliveredTo_other (by simp) calls
      have hentry : threadAt (applyCall s .checkDeadlocks) threadId = threadAt s threadId :=
        threadAt_check s threadId
      constructor
      · rw [hsame, runCalls, List.foldl_nil, hentry]
        exact hbefore.expecting
      · rw [runCalls, List.foldl_nil, hentry]
        exact hbefore.clean
      · intro address
        rw [hsame, runCalls, List.foldl_nil, hentry]
        exact hbefore.held address
    | processEvent event =>
      by_cases hid : event.threadId = threadId
      · obtain ⟨hroom, hkept⟩ := admitted_of_noOverflow hwf hnow hnext
        rw [deliveredTo_own hid, numberedFrom_append, Nat.zero_add] at hgapfree
        exact hbefore.own hwf hid hroom hkept hgapfree.2.1 hdeep
      · have hsame : deliveredTo threadId (calls ++ [.processEvent event]) =
            deliveredTo threadId calls := deliveredTo_other (by simp [hid]) calls
        have hentry : threadAt (applyCall s (.processEvent event)) threadId =
            threadAt s threadId := threadAt_other hwf hid
        constructor
        · rw [hsame, runCalls, List.foldl_nil, hentry]
          exact hbefore.expecting
        · rw [runCalls, List.foldl_nil, hentry]
          exact hbefore.clean
        · intro address
          rw [hsame, runCalls, List.foldl_nil, hentry]
          exact hbefore.held address

/-- The recorded depths are those of the reference. -/
theorem Referenced.heldDepth_eq (h : Referenced threadId calls s) (address : ℕ) :
    heldDepth (threadAt s threadId) address =
      (holdingOf (deliveredTo threadId calls) address).depth := by
  unfold heldDepth
  rw [h.held]
  unfold Holding.entry
  split
  · rename_i held hentry
    split at hentry
    · rw [← Option.some.inj hentry]
    · simp at hentry
  · rename_i hentry
    split at hentry
    · simp at hentry
    · omega

theorem madeFor_eq (h : WellFormed s) (hroom : ThreadRoom s event.threadId) :
    madeFor s event = handlerReports s.maxHoldNs (observed s event) event := by
  unfold madeFor
  rw [(processEvent_processed h hroom).rest]
  exact List.drop_left

end Runs

/-- The thread-local verdicts match the reference: on a stream without gaps and without
an overflow, a self-deadlock candidate is reported at the requests of a held mutex, a
hold time violation at the last unlock after more than the threshold, a lock held at exit
at an exit with some mutex held, and the held table always lists what is held. -/
theorem thread_verdicts_match (maxHoldNs : ℕ) {calls : List Call} {threadId : ℕ}
    (hgapfree : NumberedFrom 0 (deliveredTo threadId calls))
    (hoverflow : ∀ done rest, calls = done ++ rest →
      (runCalls (monitorVerifierInit maxHoldNs) done).stateOverflowEvents = 0)
    (hdepth : ∀ done rest, calls = done ++ rest → ∀ address,
      (holdingOf (deliveredTo threadId done) address).depth < 2 ^ 32) :
    (∀ done event rest, calls = done ++ .processEvent event :: rest →
      event.threadId = threadId →
      (Includes (madeFor (runCalls (monitorVerifierInit maxHoldNs) done) event) .selfDeadlock ↔
        event.eventType = .lockRequest ∧
          0 < (holdingOf (deliveredTo threadId done) event.objectAddress).depth) ∧
      (Includes (madeFor (runCalls (monitorVerifierInit maxHoldNs) done) event) .holdTime ↔
        event.eventType = .unlocked ∧
          (holdingOf (deliveredTo threadId done) event.objectAddress).depth = 1 ∧
          maxHoldNs ≠ 0 ∧
          (holdingOf (deliveredTo threadId done) event.objectAddress).since + maxHoldNs <
            event.timestampNs) ∧
      (Includes (madeFor (runCalls (monitorVerifierInit maxHoldNs) done) event) .heldAtExit ↔
        event.eventType = .threadExit ∧
          ∃ address, 0 < (holdingOf (deliveredTo threadId done) address).depth)) ∧
    ∀ done rest, calls = done ++ rest →
      HeldExactly (threadAt (runCalls (monitorVerifierInit maxHoldNs) done) threadId)
        (holdingOf (deliveredTo threadId done)) := by
  have hreferenced : ∀ done rest, calls = done ++ rest →
      Referenced threadId done (runCalls (monitorVerifierInit maxHoldNs) done) := by
    intro done rest heq
    apply referenced_runCalls
    · rw [heq] at hgapfree
      exact numbered_initial hgapfree
    · intro first second hsplit
      exact hoverflow first (second ++ rest) (by rw [heq, hsplit, List.append_assoc])
    · intro first second hsplit
      exact hdepth first (second ++ rest) (by rw [heq, hsplit, List.append_assoc])
  have hwf := fun done => wellFormed_runCalls (wellFormed_init maxHoldNs) done
  constructor
  · intro done event rest heq hid
    have hnext : calls = (done ++ [.processEvent event]) ++ rest := by
      rw [heq, List.append_assoc]
      rfl
    have hbefore := hreferenced done _ heq
    have hnow := hoverflow done _ heq
    have hafter := hoverflow _ _ hnext
    have hmax := runCalls_maxHoldNs (wellFormed_init maxHoldNs) done
    have hok := hwf done
    rw [hnext] at hgapfree
    have hseq := numbered_initial hgapfree
    rw [deliveredTo_own hid, numberedFrom_append, Nat.zero_add] at hseq
    rw [runCalls_append, runCalls_cons] at hafter
    generalize runCalls (monitorVerifierInit maxHoldNs) done = s at *
    obtain ⟨hroom, -⟩ := admitted_of_noOverflow hok hnow hafter
    subst hid
    obtain ⟨htaint, hobserved⟩ := observed_expected hbefore.expecting hseq.2.1
    have hclean : (observed s event).traceTainted = false := htaint.trans hbefore.clean
    have hheld : ∀ address, heldEntry (observed s event) address =
        (holdingOf (deliveredTo event.threadId done) address).entry address := by
      intro address
      rw [hobserved]
      exact hbefore.held address
    have hheldOk : HeldOk (observed s event) := (threadOk_observe event
      ⟨threadAt_heldOk hok _, fun hon => by
        rw [hbefore.clean] at hon
        simp at hon⟩).held_ok
    have hinit : s.maxHoldNs = maxHoldNs := hmax
    rw [madeFor_eq hok hroom, hinit]
    exact ⟨selfDeadlock_iff hclean hheld, holdTime_iff hclean hheld,
      heldAtExit_iff hheldOk hclean hheld⟩
  · intro done rest heq
    exact heldExactly_of_entries (threadAt_heldOk (hwf done) threadId)
      (hreferenced done rest heq).held

theorem holdingOf_depth_le (events : List MonitorEvent) (address : ℕ) :
    (holdingOf events address).depth ≤ events.length := by
  induction events using List.reverseRecOn with
  | nil => exact le_rfl
  | append_singleton events event ih =>
    rw [holdingOf_snoc, List.length_append, List.length_singleton]
    have hstep : ((holdingOf events address).next address event).depth ≤
        (holdingOf events address).depth + 1 := by
      unfold Holding.next
      split
      · cases event.eventType with
        | unlocked =>
          show (holdingOf events address).depth - 1 ≤ _
          omega
        | lockAcquired => exact le_rfl
        | _ => exact Nat.le_succ _
      · exact Nat.le_succ _
    omega

/-- Thread 1 locks mutex 100 twice and releases it late, takes mutex 200 and exits; an
event of thread 2 and a check come in between. -/
def lateRelease : List Call :=
  [.processEvent (sampleEvent 0 1 0 0 .threadStart),
    .processEvent (sampleEvent 1 1 1 100 .lockRequest),
    .processEvent (sampleEvent 2 1 2 100 .lockAcquired),
    .processEvent (sampleEvent 3 2 0 0 .threadStart),
    .processEvent (sampleEvent 4 1 3 100 .lockRequest),
    .processEvent (sampleEvent 5 1 4 100 .lockAcquired), .checkDeadlocks,
    .processEvent (sampleEvent 6 1 5 100 .unlocked),
    .processEvent (sampleEvent 20 1 6 100 .unlocked),
    .processEvent (sampleEvent 21 1 7 200 .lockAcquired),
    .processEvent (sampleEvent 22 1 8 0 .threadExit)]

theorem thread_verdicts_match_late :
    Includes (madeFor (runCalls (monitorVerifierInit 10) (lateRelease.take 8))
        (sampleEvent 20 1 6 100 .unlocked)) .holdTime ∧
      ¬ Includes (madeFor (runCalls (monitorVerifierInit 10) (lateRelease.take 7))
        (sampleEvent 6 1 5 100 .unlocked)) .holdTime ∧
      HeldExactly (threadAt (runCalls (monitorVerifierInit 10) lateRelease) 1)
        (holdingOf (deliveredTo 1 lateRelease)) := by
  have hinits : ∀ done rest, lateRelease = done ++ rest → done ∈ lateRelease.inits := by
    intro done rest heq
    rw [List.mem_inits, heq]
    exact List.prefix_append done rest
  have hverdicts := @thread_verdicts_match 10 lateRelease 1
    (by simp [lateRelease, callEvents, stream, sampleEvent, NumberedFrom])
    (by
      have hall : ∀ done ∈ lateRelease.inits,
          (runCalls (monitorVerifierInit 10) done).stateOverflowEvents = 0 := by decide +kernel
      exact fun done rest heq => hall done (hinits done rest heq))
    (by
      have hall : ∀ done ∈ lateRelease.inits, (deliveredTo 1 done).length < 2 ^ 32 := by
        decide +kernel
      exact fun done rest heq address =>
        (holdingOf_depth_le _ address).trans_lt (hall done (hinits done rest heq)))
  refine ⟨?_, ?_, hverdicts.2 lateRelease [] (List.append_nil _).symm⟩
  · rw [(hverdicts.1 (lateRelease.take 8) _ (lateRelease.drop 9) rfl rfl).2.1]
    decide +kernel
  · rw [(hverdicts.1 (lateRelease.take 7) _ (lateRelease.drop 8) rfl rfl).2.1]
    decide +kernel

end RuntimeMonitor.ThreadVerdicts
