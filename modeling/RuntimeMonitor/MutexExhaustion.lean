import RuntimeMonitor.EventLoss
import RuntimeMonitor.RecordAgreement

/-!
A full mutex table and the state of the threads. The reference is the verifier whose
mutex table is a map that never refuses an address. Of the handlers that look a mutex up,
only the one for acquisitions gives up the thread's own update when the lookup fails, so
a run follows the reference exactly as long as no acquisition is refused.
-/
namespace RuntimeMonitor.MutexExhaustion

open EventRecord SlotTables VerifierTables VerifierEvents VerifierSteps VerifierCycles
open VerifierInvariant VerifierMaps KeyedStreams StreamReplay SequenceGaps EventLoss
open StreamTracking ThreadVerdicts RecordAgreement

/-- The tables and the reports of a verifier with room for every mutex. -/
structure RoomyState where
  threads : ℕ → Option VerifierThreadState := fun _ => none
  mutexes : ℕ → Option VerifierMutexState := fun _ => none
  reports : List Report := []

def RoomyState.threadAt (r : RoomyState) (threadId : ℕ) : VerifierThreadState :=
  (r.threads threadId).getD (freshThread threadId)

/-- The mutex entries after the sequence check. -/
def RoomyState.checkedMutexes (r : RoomyState) (event : MonitorEvent) :
    ℕ → Option VerifierMutexState :=
  fun address =>
    if taints (r.threadAt event.threadId) event then
      (r.mutexes address).map fun mutex => invalidateMutex mutex event.threadId event.sequenceId
    else r.mutexes address

/-- One event; an address without an entry gets a fresh one. -/
def roomyEvent (maxHoldNs : ℕ) (r : RoomyState) (event : MonitorEvent) : RoomyState :=
  let thread := observeThread (r.threadAt event.threadId) event
  let mutexes := r.checkedMutexes event
  { threads := Function.update r.threads event.threadId (some (handleThread thread event))
    mutexes :=
      if touchesMutex event then
        Function.update mutexes event.objectAddress (some (handleMutex
          ((mutexes event.objectAddress).getD (freshMutex event.objectAddress)) thread event))
      else mutexes
    reports := r.reports ++ handlerReports maxHoldNs thread event }

def roomyRun (maxHoldNs : ℕ) (events : List MonitorEvent) : RoomyState :=
  events.foldl (roomyEvent maxHoldNs) {}

/-- The mutex of the latest lock event, if that is a request. -/
def pendingRequest (events : List MonitorEvent) : Option ℕ :=
  events.foldl (fun pending event =>
    match event.eventType with
    | .lockRequest => some event.objectAddress
    | .lockAcquired | .lockFailed => none
    | _ => pending) none

/-- The event is the result of a lock call. -/
def answersRequest (event : MonitorEvent) : Bool :=
  match event.eventType with
  | .lockAcquired | .lockFailed => true
  | _ => false

/-- A request is followed by the result of its call, for the same mutex, and there are no
other results; an acquired mutex is not null. -/
def CallShaped (events : List MonitorEvent) : Prop :=
  ∀ before event after, events = before ++ event :: after →
    (answersRequest event = true ↔ (pendingRequest before).isSome = true) ∧
    (∀ address ∈ pendingRequest before, event.objectAddress = address) ∧
    (event.eventType = .lockAcquired → event.objectAddress ≠ 0)

/-- The first 128 addresses that the events look up, which are those the table keeps. -/
def firstAddresses (events : List MonitorEvent) : List ℕ :=
  events.foldl (fun addresses event =>
    if touchesMutex event && !addresses.contains event.objectAddress &&
        decide (addresses.length < verifierMaxMutexes) then
      addresses ++ [event.objectAddress]
    else addresses) []

abbrev streamOf (threadId : ℕ) (events : List MonitorEvent) : List MonitorEvent :=
  stream (fun event : MonitorEvent => event.threadId) threadId events

/-- Events of the threads `T` as the interceptor emits them, with no gap in a stream. -/
structure Emitted (T : Finset ℕ) (events : List MonitorEvent) : Prop where
  threads : ∀ event ∈ events, event.threadId ∈ T
  numbered : ∀ threadId, NumberedFrom 0 (streamOf threadId events)
  shaped : ∀ threadId, CallShaped (streamOf threadId events)

/-- The threads wait for what they have requested, and their held tables and the
thread-local reports are those of the verifier with room. -/
structure Unharmed (maxHoldNs : ℕ) (events : List MonitorEvent) : Prop where
  waiting : ∀ threadId,
    (threadAt (processAll (monitorVerifierInit maxHoldNs) events) threadId).waitingMutex =
      (pendingRequest (streamOf threadId events)).getD 0
  held_count : ∀ threadId,
    (threadAt (processAll (monitorVerifierInit maxHoldNs) events) threadId).heldCount =
      ((roomyRun maxHoldNs events).threadAt threadId).heldCount
  held_mutexes : ∀ threadId,
    (threadAt (processAll (monitorVerifierInit maxHoldNs) events) threadId).heldMutexes =
      ((roomyRun maxHoldNs events).threadAt threadId).heldMutexes
  reports : (processAll (monitorVerifierInit maxHoldNs) events).reports.filter isThreadLocal =
    (roomyRun maxHoldNs events).reports.filter isThreadLocal

/-- The state agrees with the reference in all that concerns the threads. -/
structure Mirrors (maxHoldNs : ℕ) (s : VerifierState) (r : RoomyState) : Prop where
  threads : s.threadOf = r.threads
  reports : s.reports = r.reports
  max_hold : s.maxHoldNs = maxHoldNs

/-- The mutex table has the first addresses as its keys. -/
structure Addressed (events : List MonitorEvent) (s : VerifierState) : Prop where
  nodup : (firstAddresses events).Nodup
  present : ∀ address, address ∈ firstAddresses events ↔ s.mutexOf address ≠ none

/-- What the events so far say about the tables, whatever has been refused. -/
structure Gapless (T : Finset ℕ) (events : List MonitorEvent) (s : VerifierState) : Prop where
  well_formed : WellFormed s
  known : KnownThreads T s
  addressed : Addressed events s
  expecting : ∀ threadId, Expecting (streamOf threadId events).length (threadAt s threadId)

variable {T : Finset ℕ} {s : VerifierState} {r : RoomyState} {event : MonitorEvent}
  {events : List MonitorEvent} {maxHoldNs threadId : ℕ}

section Reference

theorem mirrors_init (maxHoldNs : ℕ) : Mirrors maxHoldNs (monitorVerifierInit maxHoldNs) {} where
  threads := funext (init_threadOf maxHoldNs)
  reports := rfl
  max_hold := rfl

theorem Mirrors.threadAt (h : Mirrors maxHoldNs s r) (threadId : ℕ) :
    VerifierMaps.threadAt s threadId = r.threadAt threadId := by
  unfold VerifierMaps.threadAt RoomyState.threadAt
  rw [h.threads]

theorem processedThread_kept
    (hkept : event.eventType = .lockAcquired → mutexRefused s event = false) :
    processedThread s event = handleThread (observed s event) event := by
  unfold processedThread
  by_cases hlock : event.eventType = .lockAcquired
  · rw [hkept hlock]
    rfl
  · simp [hlock]

/-- An event follows the reference unless it is a refused acquisition. -/
theorem Mirrors.processEvent (h : Mirrors maxHoldNs s r) (hwf : WellFormed s)
    (hroom : ThreadRoom s event.threadId)
    (hkept : event.eventType = .lockAcquired → mutexRefused s event = false) :
    Mirrors maxHoldNs (monitorVerifierProcessEvent s event) (roomyEvent maxHoldNs r event) := by
  have hprocessed := processEvent_processed hwf hroom
  have hentry := h.threadAt event.threadId
  constructor
  · rw [hprocessed.threads, processedThread_kept hkept, h.threads, observed, hentry]
    rfl
  · rw [hprocessed.rest]
    show s.reports ++ handlerReports s.maxHoldNs (observed s event) event = _
    rw [h.reports, h.max_hold, observed, hentry]
    rfl
  · rw [hprocessed.rest]
    exact h.max_hold

/-- With room for the mutex the event does to the mutex table what it does in the
reference. -/
theorem Mirrors.mutexes (h : Mirrors maxHoldNs s r) (hwf : WellFormed s)
    (hroom : ThreadRoom s event.threadId) (hkept : mutexRefused s event = false)
    (hmutexes : s.mutexOf = r.mutexes) :
    (monitorVerifierProcessEvent s event).mutexOf = (roomyEvent maxHoldNs r event).mutexes := by
  have hentry := h.threadAt event.threadId
  have hchecked : VerifierMaps.checkedMutexes s event = r.checkedMutexes event := by
    unfold VerifierMaps.checkedMutexes RoomyState.checkedMutexes
    rw [hentry, hmutexes]
  rw [(processEvent_processed hwf hroom).mutexes, processedMutexes, hkept, hchecked, observed,
    hentry, Bool.not_false, Bool.and_true]
  rfl

end Reference

section Addresses

theorem firstAddresses_snoc (events : List MonitorEvent) (event : MonitorEvent) :
    firstAddresses (events ++ [event]) =
      if touchesMutex event && !(firstAddresses events).contains event.objectAddress &&
          decide ((firstAddresses events).length < verifierMaxMutexes) then
        firstAddresses events ++ [event.objectAddress]
      else firstAddresses events := by
  unfold firstAddresses
  rw [List.foldl_append, List.foldl_cons, List.foldl_nil]

theorem Addressed.full_iff (h : Addressed events s) (hwf : WellFormed s) :
    free mutexLayout s.mutexStates = none ↔
      verifierMaxMutexes ≤ (firstAddresses events).length := by
  rw [free_eq_none_iff_card (K := (firstAddresses events).toFinset) hwf.mutexes_distinct,
    List.toFinset_card_of_nodup h.nodup]
  intro address
  rw [List.mem_toFinset]
  exact h.present address

theorem Addressed.refused_iff (h : Addressed events s) (hwf : WellFormed s) :
    mutexRefused s event = true ↔ touchesMutex event = true ∧
      event.objectAddress ∉ firstAddresses events ∧
      verifierMaxMutexes ≤ (firstAddresses events).length := by
  unfold mutexRefused
  rw [Bool.and_eq_true, Bool.and_eq_true, Option.isNone_iff_eq_none, Option.isNone_iff_eq_none,
    h.full_iff hwf, h.present, not_not, and_assoc]

theorem Addressed.processEvent (h : Addressed events s) (hwf : WellFormed s)
    (hroom : ThreadRoom s event.threadId) :
    Addressed (events ++ [event]) (monitorVerifierProcessEvent s event) := by
  have hrefused : mutexRefused s event = true ↔ _ := h.refused_iff hwf
  have hchecked : ∀ address, address ∈ firstAddresses events ↔
      VerifierMaps.checkedMutexes s event address ≠ none := by
    intro address
    rw [h.present, ne_eq, ne_eq, checkedMutexes_eq_none_iff]
  have hmutexes := (processEvent_processed hwf hroom).mutexes
  rw [processedMutexes] at hmutexes
  by_cases hnew : touchesMutex event = true ∧ event.objectAddress ∉ firstAddresses events ∧
      (firstAddresses events).length < verifierMaxMutexes
  · obtain ⟨htouch, hfresh, hspace⟩ := hnew
    have hkept : mutexRefused s event = false := by
      rw [← Bool.not_eq_true, hrefused]
      rintro ⟨-, -, hfull⟩
      omega
    have hsnoc : firstAddresses (events ++ [event]) =
        firstAddresses events ++ [event.objectAddress] := by
      rw [firstAddresses_snoc]
      simp [htouch, hfresh, hspace]
    rw [htouch, hkept, Bool.not_false, Bool.and_true, if_pos rfl] at hmutexes
    constructor
    · rw [hsnoc]
      simpa using List.Nodup.concat hfresh h.nodup
    · intro address
      rw [hsnoc, hmutexes, List.mem_append, List.mem_singleton]
      by_cases haddress : address = event.objectAddress
      · simp [haddress]
      · rw [Function.update_of_ne haddress, ← hchecked]
        simp [haddress]
  · have hsnoc : firstAddresses (events ++ [event]) = firstAddresses events := by
      rw [firstAddresses_snoc, if_neg]
      simpa [and_assoc] using hnew
    constructor
    · rw [hsnoc]
      exact h.nodup
    · intro address
      rw [hsnoc, hchecked, hmutexes]
      split
      · rename_i hupdate
        rw [Bool.and_eq_true, Bool.not_eq_true', ← Bool.not_eq_true, hrefused] at hupdate
        obtain ⟨htouch, hkept⟩ := hupdate
        have hmem : event.objectAddress ∈ firstAddresses events := by
          by_contra hfresh
          have hfull : ¬ (firstAddresses events).length < verifierMaxMutexes :=
            fun hspace => hnew ⟨htouch, hfresh, hspace⟩
          exact hkept ⟨htouch, hfresh, by omega⟩
        by_cases haddress : address = event.objectAddress
        · subst haddress
          rw [Function.update_self]
          simpa using (hchecked _).mp hmem
        · rw [Function.update_of_ne haddress]
      · rfl

/-- An address that has been looked up is kept, or others fill the table. -/
theorem firstAddresses_of_touched (hmem : event ∈ events) (htouch : touchesMutex event = true) :
    event.objectAddress ∈ firstAddresses events ∨
      verifierMaxMutexes ≤ (firstAddresses events).length := by
  induction events using List.reverseRecOn with
  | nil => simp at hmem
  | append_singleton events last ih =>
    rw [firstAddresses_snoc]
    rcases List.mem_append.mp hmem with hearlier | hlast
    · have hbefore := ih hearlier
      split
      · rw [List.mem_append, List.length_append, List.length_singleton]
        exact hbefore.imp Or.inl fun hfull => by omega
      · exact hbefore
    · rw [List.mem_singleton] at hlast
      subst hlast
      split
      · exact Or.inl (List.mem_append_right _ List.mem_cons_self)
      · rename_i hkept
        by_contra hcon
        rw [not_or, not_le] at hcon
        simp [htouch, hcon] at hkept

end Addresses

section Streams

theorem streamOf_own (hid : event.threadId = threadId) (events : List MonitorEvent) :
    streamOf threadId (events ++ [event]) = streamOf threadId events ++ [event] := by
  rw [streamOf, stream_append]
  simp [stream, hid]

theorem streamOf_other (hid : event.threadId ≠ threadId) (events : List MonitorEvent) :
    streamOf threadId (events ++ [event]) = streamOf threadId events := by
  rw [streamOf, stream_append]
  simp [stream, hid]

theorem CallShaped.initial {more : List MonitorEvent} (h : CallShaped (events ++ more)) :
    CallShaped events := by
  intro before event after heq
  exact h before event (after ++ more) (by rw [heq, List.append_assoc, List.cons_append])

theorem Emitted.initial {more : List MonitorEvent} (h : Emitted T (events ++ more)) :
    Emitted T events where
  threads event hmem := h.threads event (List.mem_append_left _ hmem)
  numbered threadId := by
    have hall := h.numbered threadId
    rw [streamOf, stream_append, numberedFrom_append] at hall
    exact hall.1
  shaped threadId := by
    have hall := h.shaped threadId
    rw [streamOf, stream_append] at hall
    exact hall.initial

theorem emitted_nil (T : Finset ℕ) : Emitted T [] where
  threads event hmem := absurd hmem List.not_mem_nil
  numbered threadId := trivial
  shaped threadId before event after heq := by simp [stream] at heq

theorem CallShaped.snoc (h : CallShaped events)
    (hanswer : answersRequest event = true ↔ (pendingRequest events).isSome = true)
    (haddress : ∀ address ∈ pendingRequest events, event.objectAddress = address)
    (hnull : event.eventType = .lockAcquired → event.objectAddress ≠ 0) :
    CallShaped (events ++ [event]) :=
  forall_split_snoc.mpr ⟨h, hanswer, haddress, hnull⟩

/-- The events of a single thread are its stream. -/
theorem Emitted.single (h : Emitted {threadId} events) : streamOf threadId events = events :=
  List.filter_eq_self.mpr fun event hmem => by
    simpa using h.threads event hmem

/-- The next event of a single thread. -/
theorem Emitted.snoc (h : Emitted {threadId} events) (hid : event.threadId = threadId)
    (hseq : event.threadSequence = events.length % 2 ^ 32)
    (hanswer : answersRequest event = true ↔ (pendingRequest events).isSome = true)
    (haddress : ∀ address ∈ pendingRequest events, event.objectAddress = address)
    (hnull : event.eventType = .lockAcquired → event.objectAddress ≠ 0) :
    Emitted {threadId} (events ++ [event]) where
  threads e he := by
    rcases List.mem_append.mp he with hbefore | hlast
    · exact h.threads e hbefore
    · rw [List.mem_singleton.mp hlast, hid]
      exact Finset.mem_singleton_self _
  numbered other := by
    by_cases hother : event.threadId = other
    · rw [streamOf_own hother, ← hother, hid, h.single, numberedFrom_append, Nat.zero_add]
      have hnumbered := h.numbered threadId
      rw [h.single] at hnumbered
      exact ⟨hnumbered, hseq, trivial⟩
    · rw [streamOf_other hother]
      exact h.numbered other
  shaped other := by
    by_cases hother : event.threadId = other
    · rw [streamOf_own hother, ← hother, hid, h.single]
      have hshaped := h.shaped threadId
      rw [h.single] at hshaped
      exact hshaped.snoc hanswer haddress hnull
    · rw [streamOf_other hother]
      exact h.shaped other

theorem pendingRequest_snoc (events : List MonitorEvent) (event : MonitorEvent) :
    pendingRequest (events ++ [event]) =
      match event.eventType with
      | .lockRequest => some event.objectAddress
      | .lockAcquired | .lockFailed => none
      | _ => pendingRequest events := by
  unfold pendingRequest
  rw [List.foldl_append, List.foldl_cons, List.foldl_nil]

theorem exists_request {address : ℕ} (h : pendingRequest events = some address) :
    ∃ request ∈ events, request.eventType = .lockRequest ∧ request.objectAddress = address := by
  induction events using List.reverseRecOn with
  | nil => simp [pendingRequest] at h
  | append_singleton events event ih =>
    have hearlier : pendingRequest events = some address → ∃ request ∈ events ++ [event],
        request.eventType = .lockRequest ∧ request.objectAddress = address := by
      intro hbefore
      obtain ⟨request, hmem, hrequest⟩ := ih hbefore
      exact ⟨request, List.mem_append_left _ hmem, hrequest⟩
    rw [pendingRequest_snoc] at h
    cases htype : event.eventType with
    | lockRequest =>
      simp only [htype, Option.some.injEq] at h
      exact ⟨event, List.mem_append_right _ List.mem_cons_self, htype, h⟩
    | lockAcquired | lockFailed => simp [htype] at h
    | _ =>
      simp only [htype] at h
      exact hearlier h

/-- A thread that acquires a mutex has a pending request for it. -/
theorem Emitted.pending (h : Emitted T (events ++ [event]))
    (hlock : event.eventType = .lockAcquired) :
    pendingRequest (streamOf event.threadId events) = some event.objectAddress ∧
      event.objectAddress ≠ 0 := by
  obtain ⟨hanswer, haddress, hnull⟩ := h.shaped event.threadId
    (streamOf event.threadId events) event [] (streamOf_own rfl events)
  simp only [answersRequest, hlock, true_iff] at hanswer
  obtain ⟨address, hpending⟩ := Option.isSome_iff_exists.mp hanswer
  rw [haddress address hpending]
  rw [haddress address hpending] at hnull
  exact ⟨hpending, hnull hlock⟩

end Streams

section Runs

theorem processAll_snoc (s : VerifierState) (events : List MonitorEvent) (event : MonitorEvent) :
    processAll s (events ++ [event]) = monitorVerifierProcessEvent (processAll s events) event :=
  processAll_append s events [event]

theorem roomyRun_snoc (maxHoldNs : ℕ) (events : List MonitorEvent) (event : MonitorEvent) :
    roomyRun maxHoldNs (events ++ [event]) =
      roomyEvent maxHoldNs (roomyRun maxHoldNs events) event := by
  unfold roomyRun
  rw [List.foldl_append, List.foldl_cons, List.foldl_nil]

theorem Gapless.room (h : Gapless T events s) (hT : T.card ≤ verifierMaxThreads)
    (hemitted : Emitted T (events ++ [event])) : ThreadRoom s event.threadId :=
  h.known.room h.well_formed hT (hemitted.threads event (by simp))

/-- On a stream without gaps the sequence check lets the event pass. -/
theorem Gapless.not_gap (h : Gapless T events s) (hemitted : Emitted T (events ++ [event])) :
    event.threadSequence = (streamOf event.threadId events).length % 2 ^ 32 ∧
      hasGap (threadAt s event.threadId) event = false := by
  have hgapfree := hemitted.numbered event.threadId
  rw [streamOf_own rfl, numberedFrom_append, Nat.zero_add] at hgapfree
  have hseq := hgapfree.2.1
  refine ⟨hseq, ?_⟩
  rw [← Bool.not_eq_true, hasGap_iff (h.expecting event.threadId)]
  exact fun hne => hne hseq

theorem Gapless.processEvent (h : Gapless T events s) (hT : T.card ≤ verifierMaxThreads)
    (hemitted : Emitted T (events ++ [event])) :
    Gapless T (events ++ [event]) (monitorVerifierProcessEvent s event) where
  well_formed := wellFormed_processEvent h.well_formed event
  known := h.known.processEvent h.well_formed (hemitted.threads event (by simp))
  addressed := h.addressed.processEvent h.well_formed (h.room hT hemitted)
  expecting threadId := by
    by_cases hid : event.threadId = threadId
    · rw [streamOf_own hid, List.length_append, List.length_singleton]
      rw [← hid, threadAt_own h.well_formed (h.room hT hemitted)]
      exact processedThread_expecting (h.not_gap hemitted).1
    · rw [streamOf_other hid, threadAt_other h.well_formed hid]
      exact h.expecting threadId

theorem gapless_processAll (maxHoldNs : ℕ) (hT : T.card ≤ verifierMaxThreads)
    (hemitted : Emitted T events) :
    Gapless T events (processAll (monitorVerifierInit maxHoldNs) events) := by
  induction events using List.reverseRecOn with
  | nil =>
    constructor
    · exact wellFormed_init maxHoldNs
    · exact knownThreads_init T maxHoldNs
    · refine ⟨List.nodup_nil, fun address => ?_⟩
      rw [processAll_nil, init_mutexOf]
      simp [firstAddresses]
    · intro threadId
      unfold threadAt
      rw [processAll_nil, init_threadOf]
      exact expecting_fresh threadId
  | append_singleton events event ih =>
    rw [processAll_snoc]
    exact (ih hemitted.initial).processEvent hT hemitted

/-- An acquisition is refused exactly when its mutex came after the table was full. -/
theorem Gapless.refused_iff (h : Gapless T events s) (hemitted : Emitted T (events ++ [event]))
    (hlock : event.eventType = .lockAcquired) :
    mutexRefused s event = true ↔ event.objectAddress ∉ firstAddresses events := by
  rw [h.addressed.refused_iff h.well_formed]
  constructor
  · exact fun hrefused => hrefused.2.1
  · intro hfresh
    refine ⟨by simp [touchesMutex, hlock], hfresh, ?_⟩
    obtain ⟨request, hmem, htype, haddress⟩ := exists_request (hemitted.pending hlock).1
    have hkept := firstAddresses_of_touched (mem_stream.mp hmem).1
      (by simp [touchesMutex, htype])
    rw [haddress] at hkept
    exact hkept.resolve_left hfresh

/-- The waiting state of a thread that has handled an event of its stream. -/
theorem waiting_handled {thread : VerifierThreadState} (hshape : CallShaped (events ++ [event]))
    (hwaiting : thread.waitingMutex = (pendingRequest events).getD 0) :
    (handleThread thread event).waitingMutex =
      (pendingRequest (events ++ [event])).getD 0 := by
  obtain ⟨hanswer, haddress, -⟩ := hshape events event [] rfl
  rw [handleThread_waiting, pendingRequest_snoc]
  unfold answersRequest at hanswer
  cases htype : event.eventType with
  | lockRequest => rfl
  | lockAcquired | lockFailed =>
    simp only [htype, true_iff] at hanswer
    obtain ⟨address, hpending⟩ := Option.isSome_iff_exists.mp hanswer
    rw [hpending, Option.getD_some, ← haddress address hpending] at hwaiting
    simp [hwaiting]
  | threadExit =>
    simp only [htype, Bool.false_eq_true, false_iff, Option.not_isSome_iff_eq_none] at hanswer
    simp [hanswer]
  | _ => exact hwaiting

/-- Without a gap the sequence check keeps what a thread waits for. -/
theorem observed_waiting (hgap : hasGap (threadAt s event.threadId) event = false) :
    (observed s event).waitingMutex = (threadAt s event.threadId).waitingMutex := by
  unfold observed observeThread
  rw [hgap]
  rfl

/-- A run without a refused acquisition follows the reference. -/
theorem mirrors_processAll (maxHoldNs : ℕ) (hT : T.card ≤ verifierMaxThreads)
    (hemitted : Emitted T events)
    (hkept : ∀ before event after, events = before ++ event :: after →
      event.eventType = .lockAcquired → event.objectAddress ∈ firstAddresses before) :
    Mirrors maxHoldNs (processAll (monitorVerifierInit maxHoldNs) events)
        (roomyRun maxHoldNs events) ∧
      ∀ threadId, (threadAt (processAll (monitorVerifierInit maxHoldNs) events)
        threadId).waitingMutex = (pendingRequest (streamOf threadId events)).getD 0 := by
  induction events using List.reverseRecOn with
  | nil =>
    refine ⟨mirrors_init maxHoldNs, fun threadId => ?_⟩
    unfold threadAt
    rw [processAll_nil, init_threadOf]
    rfl
  | append_singleton events event ih =>
    obtain ⟨hearlier, hlock⟩ := forall_split_snoc.mp hkept
    obtain ⟨hmirrors, hwaiting⟩ := ih hemitted.initial hearlier
    have hgapless := gapless_processAll maxHoldNs hT hemitted.initial
    have hroom := hgapless.room hT hemitted
    have hlast : event.eventType = .lockAcquired →
        mutexRefused (processAll (monitorVerifierInit maxHoldNs) events) event = false := by
      intro htype
      rw [← Bool.not_eq_true, hgapless.refused_iff hemitted htype]
      exact fun hfresh => hfresh (hlock htype)
    rw [processAll_snoc, roomyRun_snoc]
    refine ⟨hmirrors.processEvent hgapless.well_formed hroom hlast, fun threadId => ?_⟩
    by_cases hid : event.threadId = threadId
    · subst hid
      have hshape := hemitted.shaped event.threadId
      rw [streamOf_own rfl] at hshape ⊢
      rw [threadAt_own hgapless.well_formed hroom, processedThread_kept hlast]
      exact waiting_handled hshape
        ((observed_waiting (hgapless.not_gap hemitted).2).trans (hwaiting _))
    · rw [streamOf_other hid, threadAt_other hgapless.well_formed hid]
      exact hwaiting threadId

/-- With room for every mutex the mutex table follows the reference as well. -/
theorem mutexes_processAll (maxHoldNs : ℕ) (hT : T.card ≤ verifierMaxThreads)
    (hemitted : Emitted T events)
    (hroom : ∀ before event after, events = before ++ event :: after →
      touchesMutex event = true → event.objectAddress ∈ firstAddresses (before ++ [event])) :
    Mirrors maxHoldNs (processAll (monitorVerifierInit maxHoldNs) events)
        (roomyRun maxHoldNs events) ∧
      (processAll (monitorVerifierInit maxHoldNs) events).mutexOf =
        (roomyRun maxHoldNs events).mutexes := by
  induction events using List.reverseRecOn with
  | nil => exact ⟨mirrors_init maxHoldNs, funext (init_mutexOf maxHoldNs)⟩
  | append_singleton events event ih =>
    obtain ⟨hearlier, hlast⟩ := forall_split_snoc.mp hroom
    obtain ⟨hmirrors, hmutexes⟩ := ih hemitted.initial hearlier
    have hgapless := gapless_processAll maxHoldNs hT hemitted.initial
    have hthread := hgapless.room hT hemitted
    have hkept : mutexRefused (processAll (monitorVerifierInit maxHoldNs) events) event =
        false := by
      rw [← Bool.not_eq_true, hgapless.addressed.refused_iff hgapless.well_formed]
      rintro ⟨htouch, hfresh, hfull⟩
      have hmem := hlast htouch
      rw [firstAddresses_snoc, if_neg (by simp [hfull])] at hmem
      exact hfresh hmem
    rw [processAll_snoc, roomyRun_snoc]
    exact ⟨hmirrors.processEvent hgapless.well_formed hthread fun _ => hkept,
      hmirrors.mutexes hgapless.well_formed hthread hkept hmutexes⟩

theorem unharmed_of_mirrors
    (hmirrors : Mirrors maxHoldNs (processAll (monitorVerifierInit maxHoldNs) events)
      (roomyRun maxHoldNs events))
    (hwaiting : ∀ threadId, (threadAt (processAll (monitorVerifierInit maxHoldNs) events)
      threadId).waitingMutex = (pendingRequest (streamOf threadId events)).getD 0) :
    Unharmed maxHoldNs events := by
  constructor
  · exact hwaiting
  · intro threadId
    rw [hmirrors.threadAt]
  · intro threadId
    rw [hmirrors.threadAt]
  · rw [hmirrors.reports]

/-- A refused acquisition leaves its thread waiting. -/
theorem Gapless.stays_waiting (h : Gapless T events s) (hT : T.card ≤ verifierMaxThreads)
    (hemitted : Emitted T (events ++ [event])) (hlock : event.eventType = .lockAcquired)
    (hrefused : mutexRefused s event = true) :
    (threadAt (monitorVerifierProcessEvent s event) event.threadId).waitingMutex =
      (threadAt s event.threadId).waitingMutex := by
  rw [threadAt_own h.well_formed (h.room hT hemitted)]
  have hkept : processedThread s event = observed s event := by
    unfold processedThread
    simp [hrefused, hlock]
  rw [hkept, observed_waiting (h.not_gap hemitted).2]

end Runs

/-- Exhausting the mutex table leaves the threads' own tracking alone exactly as long as
only the first 128 mutexes are acquired: then, after every event, each thread waits for its
pending request, and the held tables and the thread-local reports are those of a verifier
with room for every mutex. -/
theorem unharmed_iff_first (maxHoldNs : ℕ) {events : List MonitorEvent} {T : Finset ℕ}
    (hT : T.card ≤ verifierMaxThreads) (hemitted : Emitted T events) :
    (∀ done rest, events = done ++ rest → Unharmed maxHoldNs done) ↔
      ∀ before event after, events = before ++ event :: after →
        event.eventType = .lockAcquired → event.objectAddress ∈ firstAddresses before := by
  constructor
  · intro hunharmed before event after heq hlock
    have hsplit : events = (before ++ [event]) ++ after := by
      rw [heq, List.append_assoc]
      rfl
    have hinitial : Emitted T (before ++ [event]) := by
      rw [hsplit] at hemitted
      exact hemitted.initial
    have hgapless := gapless_processAll maxHoldNs hT hinitial.initial
    obtain ⟨hpending, hnull⟩ := hinitial.pending hlock
    have hwaiting := (hunharmed before _ heq).waiting event.threadId
    have hcleared := (hunharmed (before ++ [event]) _ hsplit).waiting event.threadId
    rw [hpending, Option.getD_some] at hwaiting
    rw [streamOf_own rfl, pendingRequest_snoc, hlock, processAll_snoc] at hcleared
    by_contra hfresh
    rw [hgapless.stays_waiting hT hinitial hlock
      ((hgapless.refused_iff hinitial hlock).mpr hfresh),
      hwaiting] at hcleared
    exact hnull hcleared
  · intro hkept done rest heq
    rw [heq] at hemitted
    obtain ⟨hmirrors, hwaiting⟩ := mirrors_processAll maxHoldNs hT hemitted.initial (by
      intro before event after hdone
      exact hkept before event (after ++ rest)
        (by rw [heq, hdone, List.append_assoc, List.cons_append]))
    exact unharmed_of_mirrors hmirrors hwaiting

/-- Thread 1 asks for the mutexes 1 to `n` in vain. -/
def failedRequests (n : ℕ) : List MonitorEvent :=
  sampleEvent 0 1 0 0 .threadStart :: (List.range n).flatMap fun k =>
    [sampleEvent (2 * k + 1) 1 (2 * k + 1) (k + 1) .lockRequest,
      sampleEvent (2 * k + 2) 1 (2 * k + 2) (k + 1) .lockFailed]

theorem failedRequests_succ (n : ℕ) : failedRequests (n + 1) =
    failedRequests n ++ [sampleEvent (2 * n + 1) 1 (2 * n + 1) (n + 1) .lockRequest] ++
      [sampleEvent (2 * n + 2) 1 (2 * n + 2) (n + 1) .lockFailed] := by
  simp [failedRequests, List.range_succ]

theorem Emitted.request (h : Emitted {1} events) (hnone : pendingRequest events = none)
    (sequence mutex n : ℕ) (hn : events.length = n) (hbound : n < 2 ^ 32) :
    Emitted {1} (events ++ [sampleEvent sequence 1 n mutex .lockRequest]) ∧
      pendingRequest (events ++ [sampleEvent sequence 1 n mutex .lockRequest]) = some mutex := by
  refine ⟨?_, pendingRequest_snoc ..⟩
  apply h.snoc rfl
  · show n = _
    omega
  · simp [answersRequest, sampleEvent, hnone]
  · simp [hnone]
  · simp [sampleEvent]

theorem Emitted.answer {mutex : ℕ} (h : Emitted {1} events)
    (hpending : pendingRequest events = some mutex) (type : MonitorEventType)
    (htype : type = .lockFailed ∨ type = .lockAcquired ∧ mutex ≠ 0) (sequence n : ℕ)
    (hn : events.length = n) (hbound : n < 2 ^ 32) :
    Emitted {1} (events ++ [sampleEvent sequence 1 n mutex type]) ∧
      pendingRequest (events ++ [sampleEvent sequence 1 n mutex type]) = none := by
  constructor
  · apply h.snoc rfl
    · show n = _
      omega
    · rw [hpending]
      rcases htype with rfl | ⟨rfl, -⟩ <;> simp [answersRequest, sampleEvent]
    · rw [hpending]
      simp [sampleEvent]
    · intro hlock
      rcases htype with rfl | ⟨-, hnull⟩
      · simp [sampleEvent] at hlock
      · exact hnull
  · rw [pendingRequest_snoc]
    rcases htype with rfl | ⟨rfl, -⟩ <;> rfl

theorem emitted_failedRequests {n : ℕ} (hn : n < 1000) :
    Emitted {1} (failedRequests n) ∧ (failedRequests n).length = 2 * n + 1 ∧
      pendingRequest (failedRequests n) = none := by
  induction n with
  | zero =>
    have hstart : Emitted {1} ([] ++ [sampleEvent 0 1 0 0 .threadStart]) :=
      (emitted_nil {1}).snoc rfl rfl (by decide) (by decide) (by decide)
    exact ⟨hstart, rfl, rfl⟩
  | succ n ih =>
    obtain ⟨hemitted, hlength, hnone⟩ := ih (by omega)
    obtain ⟨hrequest, hpending⟩ := hemitted.request hnone (2 * n + 1) (n + 1) _ hlength (by omega)
    obtain ⟨hanswer, hanswered⟩ := hrequest.answer hpending _ (Or.inl rfl) (2 * n + 2) (2 * n + 2)
      (by rw [List.length_append, hlength]; rfl) (by omega)
    rw [failedRequests_succ]
    refine ⟨hanswer, ?_, hanswered⟩
    simp only [List.length_append, List.length_singleton, hlength]
    omega

/-- Only an acquisition has to be among the first addresses, and here is none. -/
theorem acquires_none (n : ℕ) (last : MonitorEvent) (hlast : last.eventType ≠ .lockAcquired) :
    ∀ before event after, failedRequests n ++ [last] = before ++ event :: after →
      event.eventType = .lockAcquired → event.objectAddress ∈ firstAddresses before := by
  intro before event after heq hlock
  have hmem : event ∈ failedRequests n ++ [last] := by
    rw [heq]
    simp
  simp only [failedRequests, List.mem_append, List.mem_cons, List.mem_flatMap, List.not_mem_nil,
    or_false] at hmem
  rcases hmem with (rfl | ⟨k, -, rfl | rfl⟩) | rfl
  · simp [sampleEvent] at hlock
  · simp [sampleEvent] at hlock
  · simp [sampleEvent] at hlock
  · exact absurd hlock hlast

/-- The first requests fill the table in their order. -/
theorem firstAddresses_failedRequests {n : ℕ} (hn : n ≤ verifierMaxMutexes) :
    firstAddresses (failedRequests n) = (List.range n).map (· + 1) := by
  induction n with
  | zero => rfl
  | succ n ih =>
    rw [failedRequests_succ, firstAddresses_snoc, firstAddresses_snoc, ih (by omega)]
    have hspace : n < verifierMaxMutexes := hn
    simp [sampleEvent, touchesMutex, List.range_succ, hspace]

/-- Thread 1 then takes a further mutex. -/
def crowdedTable : List MonitorEvent :=
  failedRequests 128 ++ [sampleEvent 257 1 257 129 .lockRequest] ++
    [sampleEvent 258 1 258 129 .lockAcquired]

theorem unharmed_iff_first_refused :
    ({1} : Finset ℕ).card ≤ verifierMaxThreads ∧ Emitted {1} crowdedTable ∧
      ¬ Unharmed 0 crowdedTable := by
  obtain ⟨hemitted, hlength, hnone⟩ := emitted_failedRequests (n := 128) (by decide)
  obtain ⟨hrequest, hpending⟩ := hemitted.request hnone 257 129 257 hlength (by decide)
  obtain ⟨hacquired, hanswered⟩ := hrequest.answer hpending .lockAcquired
    (Or.inr ⟨rfl, by decide⟩) 258 258 (by rw [List.length_append, hlength]; rfl) (by decide)
  refine ⟨by decide, hacquired, ?_⟩
  intro hunharmed
  have hwaiting :=
    (mirrors_processAll 0 (by decide) hrequest (acquires_none 128 _ (by decide))).2 1
  have hfresh : 129 ∉ firstAddresses (failedRequests 128 ++
      [sampleEvent 257 1 257 129 .lockRequest]) := by
    rw [firstAddresses_snoc, firstAddresses_failedRequests (by decide)]
    simp
  have hgapless := gapless_processAll 0 (by decide) hrequest
  have hstays := hgapless.stays_waiting (by decide) hacquired rfl
    ((hgapless.refused_iff hacquired rfl).mpr hfresh)
  have hcleared := hunharmed.waiting 1
  rw [hrequest.single, hpending] at hwaiting
  rw [crowdedTable, hacquired.single, hanswered, processAll_snoc] at hcleared
  have hsame := hcleared.symm.trans (hstays.trans hwaiting)
  simp at hsame

/-- With a full table thread 1 fails to take a further mutex and takes one in the table. -/
def fullTable : List MonitorEvent :=
  failedRequests 129 ++ [sampleEvent 259 1 259 1 .lockRequest] ++
    [sampleEvent 260 1 260 1 .lockAcquired]

theorem unharmed_iff_first_full : Unharmed 0 fullTable := by
  obtain ⟨hemitted, hlength, hnone⟩ := emitted_failedRequests (n := 129) (by decide)
  obtain ⟨hrequest, hpending⟩ := hemitted.request hnone 259 1 259 hlength (by decide)
  obtain ⟨hacquired, -⟩ := hrequest.answer hpending .lockAcquired
    (Or.inr ⟨rfl, by decide⟩) 260 260 (by rw [List.length_append, hlength]; rfl) (by decide)
  have hfirst : 1 ∈ firstAddresses (failedRequests 129 ++
      [sampleEvent 259 1 259 1 .lockRequest]) := by
    rw [failedRequests_succ, firstAddresses_snoc, firstAddresses_snoc, firstAddresses_snoc,
      firstAddresses_failedRequests (by decide)]
    simp
  refine (unharmed_iff_first 0 (by decide) hacquired).mpr ?_ fullTable [] (List.append_nil _).symm
  exact forall_split_snoc.mpr ⟨acquires_none 129 _ (by decide), fun _ => hfirst⟩

end RuntimeMonitor.MutexExhaustion
