import RuntimeMonitor.OwnershipRecords
import RuntimeMonitor.ThreadVerdicts
import RuntimeMonitor.WaitForCycles

/-!
The two records of ownership. The mutex table names as owner the thread of the newest
update, the held table follows the thread's own order. A thread that is named has not
released the mutex by its own events, and unless it is tainted its held table lists the
mutex: its later events carry greater numbers, so none of them is beaten.
-/
namespace RuntimeMonitor.RecordAgreement

open EventRecord SlotTables VerifierTables VerifierEvents VerifierSteps VerifierCycles
open HeldTables VerifierInvariant VerifierMaps WaitForCycles KeyedStreams StreamReplay
open OwnershipRecords SequenceGaps AuthoritativeTraces StreamTracking ThreadVerdicts

/-- The events of each thread come with increasing numbers. -/
def StreamsOrdered (calls : List Call) : Prop :=
  ∀ threadId, (deliveredTo threadId calls).Pairwise fun event later =>
    event.sequenceId < later.sequenceId

/-- There is a slot for the thread of every event. -/
def AllAdmitted (maxHoldNs : ℕ) (calls : List Call) : Prop :=
  ∀ earlier event later, calls = earlier ++ .processEvent event :: later →
    ThreadRoom (runCalls (monitorVerifierInit maxHoldNs) earlier) event.threadId

/-- No update is given up for lack of space. -/
def AllKept (maxHoldNs : ℕ) (calls : List Call) : Prop :=
  ∀ earlier event later, calls = earlier ++ .processEvent event :: later →
    discarded (runCalls (monitorVerifierInit maxHoldNs) earlier) event = false

/-- What stands behind a known owner. -/
structure OwnerBacked (complete : Prop) (calls : List Call) (s : VerifierState) (address : ℕ)
    (mutex : VerifierMutexState) : Prop where
  updated : ∃ event ∈ deliveredTo mutex.ownerThreadId calls,
    event.objectAddress = address ∧ event.sequenceId = mutex.lastStateSequence
  streamed : 0 < (holdingOf (deliveredTo mutex.ownerThreadId calls) address).depth
  recorded : complete → (threadAt s mutex.ownerThreadId).traceTainted = false →
    0 < heldDepth (threadAt s mutex.ownerThreadId) address

/-- The held tables are bounded by the streams and every known owner is backed. -/
structure Agree (complete : Prop) (calls : List Call) (s : VerifierState) : Prop where
  held : ∀ threadId address, heldDepth (threadAt s threadId) address ≤
    (holdingOf (deliveredTo threadId calls) address).depth
  owners : ∀ address mutex, s.mutexOf address = some mutex → mutex.ownerKnown = true →
    mutex.ownerThreadId ≠ 0 → OwnerBacked complete calls s address mutex

variable {s s' : VerifierState} {thread : VerifierThreadState} {event : MonitorEvent}
  {address maxHoldNs : ℕ} {calls : List Call} {complete : Prop}

section Depths

theorem heldDepth_of_empty (h : thread.heldCount = 0) : heldDepth thread address = 0 := by
  have hnone : heldEntry thread address = none := by
    rw [heldEntry_eq_none_iff, findHeldMutex_eq_none_iff]
    intro i hi
    omega
  unfold heldDepth
  rw [hnone]

theorem heldDepth_congr {thread' : VerifierThreadState}
    (h : heldEntry thread' address = heldEntry thread address) :
    heldDepth thread' address = heldDepth thread address := by
  unfold heldDepth
  rw [h]

/-- The sequence check empties a held table or leaves it alone. -/
theorem heldDepth_observed (thread : VerifierThreadState) (event : MonitorEvent) (address : ℕ) :
    heldDepth (observeThread thread event) address ≤ heldDepth thread address ∧
      (hasGap thread event = false →
        heldDepth (observeThread thread event) address = heldDepth thread address) := by
  unfold observeThread
  by_cases htaint : (hasGap thread event && !thread.traceTainted) = true
  · rw [if_pos htaint, heldDepth_of_empty rfl]
    refine ⟨Nat.zero_le _, ?_⟩
    intro hgap
    rw [hgap] at htaint
    simp at htaint
  · rw [if_neg htaint]
    exact ⟨le_rfl, fun _ => rfl⟩

/-- Events other than an acquisition or a release of the mutex keep its depth. -/
theorem depth_next_other (holding : Holding)
    (h : ¬ ((event.eventType = .lockAcquired ∨ event.eventType = .unlocked) ∧
      event.objectAddress = address)) : holding.next address event = holding := by
  by_cases haddress : event.objectAddress = address
  · rw [not_and_or, not_or] at h
    rcases h with ⟨hlock, hunlock⟩ | hne
    · exact next_plain _ hlock hunlock
    · exact absurd haddress hne
  · exact next_other haddress _

/-- An acquisition beyond the held table's limit is not recorded. -/
theorem heldEntry_overflow (hclean : thread.traceTainted = false)
    (hlock : event.eventType = .lockAcquired)
    (hfull : heldOverflow thread event.objectAddress = true) :
    heldEntry (handleThread thread event) = heldEntry thread := by
  obtain ⟨-, -, htaint, -, hmutexes, hcount⟩ := clearWaiting_frame thread event.objectAddress
  have hfull' : heldOverflow (clearWaiting thread event.objectAddress) event.objectAddress =
      true := by rw [heldOverflow_clearWaiting, hfull]
  have hsame : handleThread thread event = clearWaiting thread event.objectAddress := by
    unfold handleThread
    rw [hlock]
    rcases addHeld_cases (htaint.trans hclean) event.objectAddress event.timestampNs with
      ⟨k, hfind, -⟩ | ⟨-, hfits, -⟩ | ⟨-, -, heq⟩
    · simp [heldOverflow, hfind] at hfull'
    · rw [hfull'] at hfits
      simp at hfits
    · exact heq
  rw [hsame, heldEntry_congr hmutexes hcount]

theorem heldDepth_handled_other (hok : ThreadOk thread)
    (h : ¬ ((event.eventType = .lockAcquired ∨ event.eventType = .unlocked) ∧
      event.objectAddress = address)) :
    heldDepth (handleThread thread event) address = heldDepth thread address := by
  by_cases htaint : thread.traceTainted = true
  · have hkept := (handleThread_frame thread event).2.2
    rw [heldDepth_of_empty ((threadOk_handle event hok).tainted_empty (hkept.trans htaint)),
      heldDepth_of_empty (hok.tainted_empty htaint)]
  rw [Bool.not_eq_true] at htaint
  apply heldDepth_congr
  by_cases hlock : event.eventType = .lockAcquired
  · have hne : address ≠ event.objectAddress := fun heq => h ⟨Or.inl hlock, heq.symm⟩
    by_cases hroom : heldOverflow thread event.objectAddress = true
    · rw [heldEntry_overflow htaint hlock hroom]
    · rw [Bool.not_eq_true] at hroom
      rw [heldEntry_acquired hok.held_ok htaint hlock hroom, Function.update_of_ne hne]
  · by_cases hunlock : event.eventType = .unlocked
    · have hne : address ≠ event.objectAddress := fun heq => h ⟨Or.inr hunlock, heq.symm⟩
      rw [heldEntry_released hok.held_ok htaint hunlock, Function.update_of_ne hne]
    · rw [heldEntry_plain hlock hunlock]

/-- A handled acquisition with room lists the mutex, at most one level deeper. -/
theorem heldDepth_acquired (hok : ThreadOk thread) (hlock : event.eventType = .lockAcquired)
    (hclean : thread.traceTainted = false)
    (hroom : heldOverflow thread event.objectAddress = false) :
    0 < heldDepth (handleThread thread event) event.objectAddress ∧
      heldDepth (handleThread thread event) event.objectAddress ≤
        heldDepth thread event.objectAddress + 1 := by
  have hpositive : 0 < heldDepth (handleThread thread event) event.objectAddress ↔
      (heldEntry (handleThread thread event) event.objectAddress).isSome :=
    (threadOk_handle event hok).held_ok.heldDepth_pos_iff
  have hentry := heldEntry_acquired hok.held_ok hclean hlock hroom
  have hdeep : ∀ held : VerifierHeldMutex, (deepen held).depth ≤ held.depth + 1 := by
    intro held
    unfold deepen
    split
    · exact le_rfl
    · exact Nat.le_succ _
  constructor
  · rw [hpositive, hentry, Function.update_self]
    rfl
  · unfold heldDepth
    rw [hentry, Function.update_self]
    cases heldEntry thread event.objectAddress with
    | none => exact le_rfl
    | some held => exact hdeep held

theorem heldDepth_released (hok : ThreadOk thread) (hunlock : event.eventType = .unlocked) :
    heldDepth (handleThread thread event) event.objectAddress =
      heldDepth thread event.objectAddress - 1 := by
  by_cases htaint : thread.traceTainted = true
  · have hkept := (handleThread_frame thread event).2.2
    rw [heldDepth_of_empty ((threadOk_handle event hok).tainted_empty (hkept.trans htaint)),
      heldDepth_of_empty (hok.tainted_empty htaint)]
  rw [Bool.not_eq_true] at htaint
  unfold heldDepth
  rw [heldEntry_released hok.held_ok htaint hunlock, Function.update_self]
  cases hentry : heldEntry thread event.objectAddress with
  | none => rfl
  | some held =>
    simp only [Option.bind_some, shallow]
    by_cases hdeep : held.depth > 1
    · rw [if_pos hdeep]
    · rw [if_neg hdeep]
      show 0 = held.depth - 1
      omega

/-- The held table never gets ahead of the stream. -/
theorem heldDepth_handled_le (hok : ThreadOk thread) {holding : Holding}
    (h : heldDepth thread address ≤ holding.depth) :
    heldDepth (handleThread thread event) address ≤ (holding.next address event).depth := by
  by_cases hmoves : (event.eventType = .lockAcquired ∨ event.eventType = .unlocked) ∧
      event.objectAddress = address
  · obtain ⟨htype, rfl⟩ := hmoves
    rcases htype with hlock | hunlock
    · have hnext : (holding.next event.objectAddress event).depth = holding.depth + 1 := by
        simp [Holding.next, hlock]
      have hkept := (handleThread_frame thread event).2.2
      rw [hnext]
      by_cases htaint : thread.traceTainted = true
      · rw [heldDepth_of_empty ((threadOk_handle event hok).tainted_empty (hkept.trans htaint))]
        exact Nat.zero_le _
      rw [Bool.not_eq_true] at htaint
      by_cases hroom : heldOverflow thread event.objectAddress = true
      · rw [heldDepth_congr (congrFun (heldEntry_overflow htaint hlock hroom) _)]
        omega
      · rw [Bool.not_eq_true] at hroom
        have hstep := (heldDepth_acquired hok hlock htaint hroom).2
        omega
    · have hnext : (holding.next event.objectAddress event).depth = holding.depth - 1 := by
        simp [Holding.next, hunlock]
      rw [hnext, heldDepth_released hok hunlock]
      omega
  · rw [heldDepth_handled_other hok hmoves, depth_next_other _ hmoves]
    exact h

end Depths

section Steps

theorem threadAt_ok (h : WellFormed s) (threadId : ℕ) : ThreadOk (threadAt s threadId) := by
  unfold threadAt
  cases hentry : s.threadOf threadId with
  | none => exact threadOk_fresh threadId
  | some thread =>
    obtain ⟨i, hused, -, rfl⟩ := (lookup_eq_some_iff h.threads_distinct).mp hentry
    exact h.thread_ok i hused

theorem observed_ok (h : WellFormed s) (event : MonitorEvent) : ThreadOk (observed s event) :=
  threadOk_observe event (threadAt_ok h event.threadId)

theorem threadAt_own (h : WellFormed s) (hroom : ThreadRoom s event.threadId) :
    threadAt (monitorVerifierProcessEvent s event) event.threadId = processedThread s event := by
  unfold threadAt
  rw [(processEvent_processed h hroom).threads, Function.update_self, Option.getD_some]

/-- The held table of the event's thread stays behind its stream. -/
theorem heldDepth_processed_le (h : WellFormed s) {holding : Holding}
    (hheld : heldDepth (threadAt s event.threadId) address ≤ holding.depth) :
    heldDepth (processedThread s event) address ≤ (holding.next address event).depth := by
  have hobserved : heldDepth (observed s event) address ≤ holding.depth :=
    (heldDepth_observed (threadAt s event.threadId) event address).1.trans hheld
  unfold processedThread
  by_cases hrefused : (mutexRefused s event && decide (event.eventType = .lockAcquired)) = true
  · rw [if_pos hrefused]
    rw [Bool.and_eq_true, decide_eq_true_eq] at hrefused
    have hnext : holding.depth ≤ (holding.next address event).depth := by
      by_cases haddress : event.objectAddress = address
      · simp [Holding.next, haddress, hrefused.2]
      · rw [next_other haddress]
    exact hobserved.trans hnext
  · rw [if_neg hrefused]
    exact heldDepth_handled_le (observed_ok h event) hobserved

theorem checked_known {mutex : VerifierMutexState}
    (h : checkedMutexes s event address = some mutex) (hknown : mutex.ownerKnown = true) :
    s.mutexOf address = some mutex := by
  unfold checkedMutexes at h
  by_cases htaint : taints (threadAt s event.threadId) event = true
  · rw [if_pos htaint, Option.map_eq_some_iff] at h
    obtain ⟨old, hold, hmutex⟩ := h
    rcases invalidateMutex_cases old event.threadId event.sequenceId with ⟨hforget, -⟩ | hsame
    · rw [hmutex, hknown] at hforget
      simp at hforget
    · have heq : old = mutex := hsame.symm.trans hmutex
      exact heq ▸ hold
  · simp only [if_neg htaint] at h
    exact h

/-- An untainted thread has been observed without a gap. -/
theorem untainted_before (h : (processedThread s event).traceTainted = false) :
    (threadAt s event.threadId).traceTainted = false ∧
      hasGap (threadAt s event.threadId) event = false ∧
      (observed s event).traceTainted = false := by
  obtain ⟨hprocessed, hobserved⟩ := processedThread_frame s event
  rw [h] at hprocessed
  have hboth := Bool.or_eq_false_iff.mp hprocessed.symm
  rw [← hprocessed] at hobserved
  exact ⟨hboth.1, hboth.2, hobserved⟩

/-- An entry that the event does not update stays backed, unless the event is one of its
owner on the mutex. -/
theorem OwnerBacked.keep {mutex : VerifierMutexState}
    (h : OwnerBacked complete calls s address mutex) (hwf : WellFormed s)
    (hroom : ThreadRoom s event.threadId)
    (hother : mutex.ownerThreadId ≠ event.threadId ∨
      ¬ ((event.eventType = .lockAcquired ∨ event.eventType = .unlocked) ∧
        event.objectAddress = address)) :
    OwnerBacked complete (calls ++ [.processEvent event]) (monitorVerifierProcessEvent s event)
      address mutex := by
  by_cases hown : mutex.ownerThreadId = event.threadId
  · have hmoves := hother.resolve_left fun hne => hne hown
    have hdelivered : deliveredTo mutex.ownerThreadId (calls ++ [.processEvent event]) =
        deliveredTo mutex.ownerThreadId calls ++ [event] := deliveredTo_own hown.symm calls
    obtain ⟨⟨updating, hmem, haddress, hlast⟩, hstreamed, hrecorded⟩ := h
    constructor
    · rw [hdelivered]
      exact ⟨updating, List.mem_append_left _ hmem, haddress, hlast⟩
    · rw [hdelivered, holdingOf_snoc, depth_next_other _ hmoves]
      exact hstreamed
    · rw [hown, threadAt_own hwf hroom]
      intro hcomplete hclean
      obtain ⟨hbefore, hgap, -⟩ := untainted_before hclean
      rw [hown] at hrecorded
      have hpositive : 0 < heldDepth (observed s event) address := by
        unfold observed
        rw [(heldDepth_observed (threadAt s event.threadId) event address).2 hgap]
        exact hrecorded hcomplete hbefore
      unfold processedThread
      by_cases hrefused : (mutexRefused s event && decide (event.eventType = .lockAcquired)) =
        true
      · rw [if_pos hrefused]
        exact hpositive
      · rw [if_neg hrefused, heldDepth_handled_other (observed_ok hwf event) hmoves]
        exact hpositive
  · have hdelivered : deliveredTo mutex.ownerThreadId (calls ++ [.processEvent event]) =
        deliveredTo mutex.ownerThreadId calls := by
      apply deliveredTo_other
      intro other heq
      rw [Call.processEvent.injEq] at heq
      rw [← heq]
      exact Ne.symm hown
    have hentry := threadAt_other hwf (Ne.symm hown)
    constructor
    · rw [hdelivered]
      exact h.updated
    · rw [hdelivered]
      exact h.streamed
    · rw [hentry]
      exact h.recorded

/-- The owner that an event proposes is backed once it is recorded. -/
theorem backed_proposal {mutex : VerifierMutexState} {owner : ℕ} (h : Agree complete calls s)
    (hwf : WellFormed s) (hroom : ThreadRoom s event.threadId)
    (hkept : complete → discarded s event = false)
    (hproposed : proposedOwner (observed s event) event = some owner)
    (hrefused : mutexRefused s event = false) (hzero : owner ≠ 0)
    (howner : mutex.ownerThreadId = owner) (hlast : mutex.lastStateSequence = event.sequenceId) :
    OwnerBacked complete (calls ++ [.processEvent event]) (monitorVerifierProcessEvent s event)
      event.objectAddress mutex := by
  have hok := observed_ok hwf event
  have hprocessed : processedThread s event = handleThread (observed s event) event := by
    unfold processedThread
    rw [hrefused, Bool.false_and]
    rfl
  have hheld := h.held event.threadId event.objectAddress
  have hobserved : heldDepth (observed s event) event.objectAddress ≤
      heldDepth (threadAt s event.threadId) event.objectAddress :=
    (heldDepth_observed (threadAt s event.threadId) event event.objectAddress).1
  have hcases : owner = event.threadId ∧
      (event.eventType = .lockAcquired ∨ event.eventType = .unlocked ∧
        1 < heldDepth (observed s event) event.objectAddress) := by
    unfold proposedOwner at hproposed
    split at hproposed
    · rename_i hlock
      rw [Option.some.injEq] at hproposed
      exact ⟨hproposed.symm, Or.inl hlock⟩
    · rename_i hunlock
      rw [Option.some.injEq] at hproposed
      split at hproposed
      · exact absurd hproposed.symm hzero
      · rename_i hreleased
        refine ⟨hproposed.symm, Or.inr ⟨hunlock, ?_⟩⟩
        have hclean : (observed s event).traceTainted = false := by
          by_contra htaint
          rw [Bool.not_eq_false] at htaint
          apply hreleased
          unfold fullyReleased
          rw [if_pos htaint]
        rw [fullyReleased_eq hclean] at hreleased
        simpa using hreleased
    · simp at hproposed
  obtain ⟨hid, htype⟩ := hcases
  have hown : mutex.ownerThreadId = event.threadId := howner.trans hid
  have hdelivered : deliveredTo mutex.ownerThreadId (calls ++ [.processEvent event]) =
      deliveredTo event.threadId calls ++ [event] := by
    rw [hown]
    exact deliveredTo_own rfl calls
  constructor
  · rw [hdelivered]
    exact ⟨event, by simp, rfl, hlast.symm⟩
  · rw [hdelivered, holdingOf_snoc]
    rcases htype with hlock | ⟨hunlock, hdeep⟩
    · simp [Holding.next, hlock]
    · have hnext : ((holdingOf (deliveredTo event.threadId calls) event.objectAddress).next
          event.objectAddress event).depth =
          (holdingOf (deliveredTo event.threadId calls) event.objectAddress).depth - 1 := by
        simp [Holding.next, hunlock]
      rw [hnext]
      omega
  · rw [hown, threadAt_own hwf hroom, hprocessed]
    intro hcomplete hclean
    rcases htype with hlock | ⟨hunlock, hdeep⟩
    · have hroom' : heldOverflow (observed s event) event.objectAddress = false := by
        have hdiscarded := hkept hcomplete
        simp only [discarded, hlock, decide_true, Bool.true_and,
          Bool.or_eq_false_iff] at hdiscarded
        exact hdiscarded.2
      rw [← hprocessed] at hclean
      exact (heldDepth_acquired hok hlock (untainted_before hclean).2.2 hroom').1
    · rw [heldDepth_released hok hunlock]
      omega

/-- One event keeps the agreement. -/
theorem Agree.processEvent (h : Agree complete calls s) (hwf : WellFormed s)
    (hroom : ThreadRoom s event.threadId) (hkept : complete → discarded s event = false)
    (hlate : ∀ earlier ∈ deliveredTo event.threadId calls,
      earlier.sequenceId < event.sequenceId) :
    Agree complete (calls ++ [.processEvent event]) (monitorVerifierProcessEvent s event) := by
  have hp := processEvent_processed hwf hroom
  constructor
  · intro threadId address
    by_cases hid : event.threadId = threadId
    · subst hid
      rw [threadAt_own hwf hroom, deliveredTo_own rfl, holdingOf_snoc]
      exact heldDepth_processed_le hwf (h.held _ _)
    · rw [threadAt_other hwf hid, deliveredTo_other (by
        intro other heq
        rw [Call.processEvent.injEq] at heq
        rw [← heq]
        exact hid)]
      exact h.held _ _
  · intro address mutex hmutex hknown hzero
    rw [hp.mutexes] at hmutex
    rcases proposals_cases s event with hnone | ⟨owner, hone⟩
    · rcases processedMutexes_plain hnone address with hsame | ⟨-, hfresh⟩
      · rw [hsame] at hmutex
        have hold := checked_known hmutex hknown
        refine (h.owners address mutex hold hknown hzero).keep hwf hroom (Or.inr ?_)
        -- an event that updates nothing is refused or moves no ownership
        rintro ⟨htype, rfl⟩
        have hnot : mutexRefused s event = false := by
          simp [mutexRefused, hold]
        unfold proposals at hnone
        rw [hnot] at hnone
        rcases htype with htype | htype
        · simp [proposedOwner, htype] at hnone
        · simp [proposedOwner, htype] at hnone
      · rw [hfresh, Option.some.injEq] at hmutex
        rw [← hmutex] at hknown
        simp [freshMutex] at hknown
    · have hmade := processedMutexes_proposal hone
      rw [hmade] at hmutex
      by_cases haddress : address = event.objectAddress
      · subst haddress
        rw [Function.update_self, Option.some.injEq] at hmutex
        generalize hbase : (checkedMutexes s event event.objectAddress).getD
          (freshMutex event.objectAddress) = base at hmutex
        have hproposal : mutexRefused s event = false ∧
            proposedOwner (observed s event) event = some owner := by
          unfold proposals at hone
          split at hone
          · simp at hone
          · rename_i hrefused
            rw [Bool.not_eq_true] at hrefused
            refine ⟨hrefused, ?_⟩
            cases hproposed : proposedOwner (observed s event) event with
            | none => simp [hproposed] at hone
            | some other => simpa [hproposed] using hone
        rcases newOwner_cases base event owner with ⟨-, -, howner, hlast⟩ | ⟨hbeaten, hsame⟩
        · rw [hmutex] at howner hlast
          rw [howner] at hzero
          exact backed_proposal h hwf hroom hkept hproposal.2 hproposal.1 hzero howner hlast
        · rw [hsame] at hmutex
          subst hmutex
          have hchecked : checkedMutexes s event event.objectAddress = some base := by
            cases hcase : checkedMutexes s event event.objectAddress with
            | none =>
              rw [hcase] at hbase
              rw [← hbase] at hknown
              simp [freshMutex] at hknown
            | some old =>
              rw [hcase, Option.getD_some] at hbase
              rw [hbase]
          have hbacked := h.owners _ base (checked_known hchecked hknown) hknown hzero
          refine hbacked.keep hwf hroom (Or.inl ?_)
          -- the owner's own events are newer than the recorded one
          intro hown
          obtain ⟨updating, hmem, -, hlast⟩ := hbacked.updated
          rw [hown] at hmem
          have hnewer := hlate updating hmem
          omega
      · rw [Function.update_of_ne haddress] at hmutex
        have hold := checked_known hmutex hknown
        refine (h.owners address mutex hold hknown hzero).keep hwf hroom (Or.inr ?_)
        rintro ⟨-, heq⟩
        exact haddress heq.symm

theorem Agree.check (h : Agree complete calls s) :
    Agree complete (calls ++ [.checkDeadlocks]) (monitorVerifierCheckDeadlocks s) := by
  have hdelivered : ∀ threadId, deliveredTo threadId (calls ++ [.checkDeadlocks]) =
      deliveredTo threadId calls := fun threadId => deliveredTo_other (by simp) calls
  have hmutexes : (monitorVerifierCheckDeadlocks s).mutexOf = s.mutexOf := by
    unfold VerifierState.mutexOf
    rw [(check_frame s).2.1]
  constructor
  · intro threadId address
    rw [threadAt_check, hdelivered]
    exact h.held threadId address
  · intro address mutex hmutex hknown hzero
    rw [hmutexes] at hmutex
    obtain ⟨hupdated, hstreamed, hrecorded⟩ := h.owners address mutex hmutex hknown hzero
    constructor
    · rw [hdelivered]
      exact hupdated
    · rw [hdelivered]
      exact hstreamed
    · rw [threadAt_check]
      exact hrecorded

theorem Agree.mono {complete' : Prop} (h : Agree complete calls s) (himp : complete' → complete) :
    Agree complete' calls s := by
  refine ⟨h.held, ?_⟩
  intro address mutex hmutex hknown hzero
  obtain ⟨hupdated, hstreamed, hrecorded⟩ := h.owners address mutex hmutex hknown hzero
  exact ⟨hupdated, hstreamed, fun hcomplete => hrecorded (himp hcomplete)⟩

end Steps

section Runs

theorem StreamsOrdered.initial {first second : List Call}
    (h : StreamsOrdered (first ++ second)) : StreamsOrdered first := by
  intro threadId
  have hboth := h threadId
  rw [deliveredTo, callEvents_append, stream_append, List.pairwise_append] at hboth
  exact hboth.1

/-- The agreement holds after every sequence of calls with ordered streams. -/
theorem agree_runCalls (hadmitted : AllAdmitted maxHoldNs calls)
    (hordered : StreamsOrdered calls) :
    Agree (AllKept maxHoldNs calls) calls (runCalls (monitorVerifierInit maxHoldNs) calls) := by
  induction calls using List.reverseRecOn with
  | nil =>
    constructor
    · intro threadId address
      have hfresh : threadAt (monitorVerifierInit maxHoldNs) threadId = freshThread threadId := by
        unfold threadAt
        rw [init_threadOf]
        rfl
      rw [runCalls_nil, hfresh, heldDepth_of_empty rfl]
      exact Nat.zero_le _
    · intro address mutex hmutex
      rw [runCalls_nil, init_mutexOf] at hmutex
      simp at hmutex
  | append_singleton calls call ih =>
    have hbefore : Agree (AllKept maxHoldNs calls) calls
        (runCalls (monitorVerifierInit maxHoldNs) calls) := by
      apply ih
      · intro earlier event later heq
        exact hadmitted earlier event (later ++ [call]) (by rw [heq, List.append_assoc]; rfl)
      · exact hordered.initial
    have hkept : Agree (AllKept maxHoldNs (calls ++ [call])) calls
        (runCalls (monitorVerifierInit maxHoldNs) calls) := by
      apply hbefore.mono
      intro hall earlier event later heq
      exact hall earlier event (later ++ [call]) (by rw [heq, List.append_assoc]; rfl)
    have hwf := wellFormed_runCalls (wellFormed_init maxHoldNs) calls
    rw [runCalls_append]
    cases call with
    | checkDeadlocks => exact hkept.check
    | processEvent event =>
      refine hkept.processEvent hwf (hadmitted calls event [] rfl)
        (fun hall => hall calls event [] rfl) ?_
      intro earlier hmem
      have hpairs := hordered event.threadId
      rw [deliveredTo_own rfl, List.pairwise_append] at hpairs
      exact hpairs.2.2 earlier hmem event (List.mem_singleton_self event)

/-- No event has been let in. -/
structure Blank (s : VerifierState) : Prop where
  threads : ∀ i, s.threadStates i = {}
  mutexes : ∀ j, s.mutexStates j = {}
  overflow : s.stateOverflowEvents = 0

theorem Blank.kept (h : Blank s) (event : MonitorEvent) : ¬ UpdateDiscarded s event := by
  have hthread : free threadLayout s.threadStates ≠ none := by
    intro hnone
    have hused := free_eq_none_iff.mp hnone 0
    rw [h.threads] at hused
    simp at hused
  have hmutex : free mutexLayout s.mutexStates ≠ none := by
    intro hnone
    have hused := free_eq_none_iff.mp hnone 0
    rw [h.mutexes] at hused
    simp at hused
  have hnew : s.threadOf event.threadId = none := by
    apply lookup_eq_none_iff.mpr
    rw [find_eq_none_iff]
    intro i hused
    rw [h.threads] at hused
    simp at hused
  have hcount : (observed s event).heldCount = 0 := by
    unfold observed threadAt observeThread
    rw [hnew]
    split
    · rfl
    · rfl
  unfold UpdateDiscarded
  rw [not_or, not_not]
  refine ⟨fun _ => hthread, ?_⟩
  have hrefused : mutexRefused s event = false := by
    have hfree : (free mutexLayout s.mutexStates).isNone = false := by
      rw [Option.isNone_eq_false_iff, Option.isSome_iff_ne_none]
      exact hmutex
    simp only [mutexRefused, hfree, Bool.and_false]
  have hroom : heldOverflow (observed s event) event.objectAddress = false := by
    simp [heldOverflow, hcount]
  simp [discarded, hrefused, hroom]

/-- With at most `2 ^ 64` events the counter is back at zero only if it never moved: the
first event finds empty tables. -/
theorem Blank.zero_kept (h : Blank s) (hwf : WellFormed s)
    (hbound : (callEvents calls).length ≤ 2 ^ 64)
    (hzero : (runCalls s calls).stateOverflowEvents = 0) {earlier later : List Call}
    (heq : calls = earlier ++ .processEvent event :: later) :
    ¬ UpdateDiscarded (runCalls s earlier) event := by
  induction calls generalizing s earlier with
  | nil => simp at heq
  | cons call rest ih =>
    cases call with
    | checkDeadlocks =>
      obtain ⟨hthreads, hmutexes, -, -, hoverflow, -⟩ := check_frame s
      have hblank : Blank (monitorVerifierCheckDeadlocks s) := by
        constructor
        · rw [hthreads]
          exact h.threads
        · rw [hmutexes]
          exact h.mutexes
        · rw [hoverflow]
          exact h.overflow
      cases earlier with
      | nil => simp at heq
      | cons first more =>
        rw [List.cons_append, List.cons.injEq] at heq
        obtain ⟨rfl, hrest⟩ := heq
        exact ih hblank (wellFormed_check hwf) hbound hzero hrest
    | processEvent first =>
      have hfirst := h.kept first
      have hcount : (monitorVerifierProcessEvent s first).stateOverflowEvents = 0 := by
        rcases processEvent_overflow hwf first with ⟨hdiscarded, -⟩ | ⟨-, hsame⟩
        · exact absurd hdiscarded hfirst
        · rw [hsame, h.overflow]
      have hlength : (callEvents rest).length + 1 ≤ 2 ^ 64 := hbound
      cases earlier with
      | nil =>
        rw [List.nil_append, List.cons.injEq, Call.processEvent.injEq] at heq
        rw [← heq.1]
        exact hfirst
      | cons call more =>
        rw [List.cons_append, List.cons.injEq] at heq
        obtain ⟨rfl, hrest⟩ := heq
        have hroom : (monitorVerifierProcessEvent s first).stateOverflowEvents +
            (callEvents rest).length < 2 ^ 64 := by
          rw [hcount]
          omega
        have hall := (overflow_runCalls (wellFormed_processEvent hwf first) hroom).2
        exact hall (hzero.trans hcount.symm) more event later hrest

theorem blank_init (maxHoldNs : ℕ) : Blank (monitorVerifierInit maxHoldNs) :=
  ⟨fun _ => rfl, fun _ => rfl, rfl⟩

/-- Distinct numbers of 64 bits make at most `2 ^ 64` events. -/
theorem length_of_distinct {events : List MonitorEvent}
    (hdistinct : (events.map (·.sequenceId)).Nodup)
    (hbounded : ∀ event ∈ events, event.sequenceId < 2 ^ 64) : events.length ≤ 2 ^ 64 := by
  have hsubset : (events.map (·.sequenceId)).toFinset ⊆ Finset.range (2 ^ 64) := by
    intro sequence hmem
    rw [List.mem_toFinset] at hmem
    obtain ⟨event, hevent, rfl⟩ := List.mem_map.mp hmem
    exact Finset.mem_range.mpr (hbounded event hevent)
  have hcard := Finset.card_le_card hsubset
  rwa [List.toFinset_card_of_nodup hdistinct, List.length_map, Finset.card_range] at hcard

/-- The two records of ownership agree: while no update has been given up, the held table
of an untainted owner lists the mutex and the recorded number is that of one of its events
on it, so that no wait leads to a thread that has released the mutex by its own stream. -/
theorem ownership_records_agree (maxHoldNs : ℕ) {calls : List Call}
    (hordered : StreamsOrdered calls)
    (hdistinct : ((callEvents calls).map (·.sequenceId)).Nodup)
    (hbounded : ∀ event ∈ callEvents calls, event.sequenceId < 2 ^ 64)
    (hoverflow : (runCalls (monitorVerifierInit maxHoldNs) calls).stateOverflowEvents = 0) :
    let s := runCalls (monitorVerifierInit maxHoldNs) calls
    (∀ address mutex, s.mutexOf address = some mutex → mutex.ownerKnown = true →
      mutex.ownerThreadId ≠ 0 → (threadAt s mutex.ownerThreadId).traceTainted = false →
      (∃ held, heldEntry (threadAt s mutex.ownerThreadId) address = some held ∧
        1 ≤ held.depth) ∧
      ∃ event ∈ callEvents calls, event.threadId = mutex.ownerThreadId ∧
        event.objectAddress = address ∧ event.sequenceId = mutex.lastStateSequence) ∧
    ∀ threadId owner, waitsFor s threadId = some owner →
      (threadAt s owner).traceTainted = false ∧
        0 < (holdingOf (deliveredTo owner calls) (waitOf s threadId).2).depth := by
  intro s
  have hkept : ∀ earlier event later, calls = earlier ++ .processEvent event :: later →
      ¬ UpdateDiscarded (runCalls (monitorVerifierInit maxHoldNs) earlier) event := by
    intro earlier event later heq
    exact (blank_init maxHoldNs).zero_kept (wellFormed_init maxHoldNs)
      (length_of_distinct hdistinct hbounded) hoverflow heq
  have hadmitted : AllAdmitted maxHoldNs calls := by
    intro earlier event later heq
    have hnot := hkept earlier event later heq
    unfold UpdateDiscarded at hnot
    rw [not_or, not_not] at hnot
    exact hnot.1
  have hall : AllKept maxHoldNs calls := by
    intro earlier event later heq
    have hnot := hkept earlier event later heq
    unfold UpdateDiscarded at hnot
    rw [not_or, Bool.not_eq_true] at hnot
    exact hnot.2
  have hagree := agree_runCalls hadmitted hordered
  have hwf : WellFormed s := wellFormed_runCalls (wellFormed_init maxHoldNs) calls
  constructor
  · intro address mutex hmutex hknown hzero hclean
    obtain ⟨⟨event, hmem, haddress, hlast⟩, -, hrecorded⟩ :=
      hagree.owners address mutex hmutex hknown hzero
    have hdepth : 0 < heldDepth (threadAt s mutex.ownerThreadId) address := hrecorded hall hclean
    obtain ⟨hevent, hid⟩ := mem_stream.mp hmem
    refine ⟨?_, event, hevent, hid, haddress, hlast⟩
    unfold heldDepth at hdepth
    cases hentry : heldEntry (threadAt s mutex.ownerThreadId) address with
    | none =>
      rw [hentry] at hdepth
      exact absurd hdepth (Nat.lt_irrefl 0)
    | some held =>
      rw [hentry] at hdepth
      exact ⟨held, rfl, hdepth⟩
  · intro threadId owner hwaits
    obtain ⟨thread, mutex, ownerThread, hthread, -, -, hmutex, hknown, rfl, hzero, hownerThread,
      hgraph⟩ := waitsFor_eq_some_iff.mp hwaits
    have haddress : (waitOf s threadId).2 = thread.waitingMutex := by
      unfold waitOf threadAt
      rw [hthread, Option.getD_some]
    constructor
    · unfold threadAt
      rw [hownerThread, Option.getD_some]
      unfold onGraph at hgraph
      rw [Bool.and_eq_true, Bool.not_eq_true'] at hgraph
      exact hgraph.1
    · rw [haddress]
      exact (hagree.owners _ mutex hmutex hknown hzero).streamed

theorem streamsOrdered_of_pairwise (h : (callEvents calls).Pairwise fun event later =>
    event.threadId = later.threadId → event.sequenceId < later.sequenceId) :
    StreamsOrdered calls := by
  intro threadId
  have hstream := h.sublist (List.filter_sublist (l := callEvents calls)
    (p := fun event => event.threadId = threadId))
  apply hstream.imp_of_mem
  intro event later hevent hlater hpair
  exact hpair ((mem_stream.mp hevent).2.trans (mem_stream.mp hlater).2.symm)

/-- Thread 1 holds mutex 100 twice and releases it once, thread 2 is tainted by a gap and
thread 3 asks for the mutex. -/
def gappedCalls : List Call :=
  [.processEvent (sampleEvent 0 1 0 0 .threadStart),
    .processEvent (sampleEvent 2 1 1 100 .lockAcquired),
    .processEvent (sampleEvent 3 1 2 100 .lockAcquired),
    .processEvent (sampleEvent 1 2 0 0 .threadStart),
    .processEvent (sampleEvent 6 2 2 200 .lockAcquired),
    .processEvent (sampleEvent 5 1 3 100 .unlocked), .checkDeadlocks,
    .processEvent (sampleEvent 4 3 0 0 .threadStart),
    .processEvent (sampleEvent 7 3 1 100 .lockRequest)]

theorem ownership_records_agree_gapped :
    (∃ held, heldEntry (threadAt (runCalls (monitorVerifierInit 0) gappedCalls) 1) 100 =
        some held ∧ 1 ≤ held.depth) ∧
      0 < (holdingOf (deliveredTo 1 gappedCalls) 100).depth := by
  obtain ⟨hheld, hwaits⟩ := @ownership_records_agree 0 gappedCalls
    (streamsOrdered_of_pairwise (by decide +kernel)) (by decide +kernel) (by decide +kernel)
    (by decide +kernel)
  have hmutex : (runCalls (monitorVerifierInit 0) gappedCalls).mutexOf 100 =
      some ⟨true, true, 100, 1, 5⟩ := by decide +kernel
  have hedge : waitsFor (runCalls (monitorVerifierInit 0) gappedCalls) 3 = some 1 := by
    decide +kernel
  refine ⟨(hheld 100 _ hmutex rfl (by decide) (by decide +kernel)).1, ?_⟩
  have hdepth := (hwaits 3 1 hedge).2
  have haddress : (waitOf (runCalls (monitorVerifierInit 0) gappedCalls) 3).2 = 100 := by
    decide +kernel
  rw [haddress] at hdepth
  exact hdepth

end Runs

end RuntimeMonitor.RecordAgreement
