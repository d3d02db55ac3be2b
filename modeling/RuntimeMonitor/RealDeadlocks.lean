import RuntimeMonitor.ConsistentSnapshots
import RuntimeMonitor.CycleDetection
import RuntimeMonitor.CycleReports
import RuntimeMonitor.FailedUnlocks
import RuntimeMonitor.MutexExhaustion
import RuntimeMonitor.ProgramStreams

/-!
Reported cycles and the real mutexes. A check runs on what had been pushed when its round
began, and then a thread whose last pushed lock event is a request is inside that call,
with everything it released before on record. The owner that the verifier knows therefore
really holds the mutex, and as the mutexes exclude each other the waiting thread does not.
-/
namespace RuntimeMonitor.RealDeadlocks

open TransitionRuns EventRecord VerifierTables VerifierEvents VerifierSteps VerifierCycles
open VerifierInvariant VerifierMaps WaitForCycles KeyedStreams StreamReplay SequenceGaps
open MonitorRuntime RuntimeSteps SlotOwnership RuntimeStreams EventNumbers RuntimeAccounts
open AuthoritativeTraces StreamTracking CycleReports CycleDetection GapDetection LosslessRuns
open ConsistentSnapshots ThreadVerdicts RecordAgreement MutexExhaustion
open InterposedCalls InterposedProgram ProgramStreams FailedUnlocks

/-- The address came after the table was full. -/
def Crowded (events : List MonitorEvent) (address : ℕ) : Prop :=
  address ∉ firstAddresses events ∧ verifierMaxMutexes ≤ (firstAddresses events).length

/-- Results of lock calls answer the pending request. -/
def Answered (events : List MonitorEvent) : Prop :=
  ∀ before event after, events = before ++ event :: after → answersRequest event = true →
    pendingRequest before = some event.objectAddress

/-- A thread waits for its pending request, or for a mutex that has no entry. -/
structure Waits (calls : List Call) (s : VerifierState) : Prop where
  addressed : Addressed (callEvents calls) s
  pending : ∀ threadId, (threadAt s threadId).waitingMutex ≠ 0 →
    pendingRequest (deliveredTo threadId calls) = some (threadAt s threadId).waitingMutex ∨
      Crowded (callEvents calls) (threadAt s threadId).waitingMutex

/-- The mutex of the latest lock request that has not been answered. -/
def pendingOf (requests : List EmitRequest) : Option ℕ :=
  requests.foldl (fun pending request =>
    match request.eventType with
    | .lockRequest => some request.objectAddress
    | .lockAcquired | .lockFailed => none
    | _ => pending) none

/-- The event that a thread is emitting, from its numbers to the queue. -/
def emitting : ProducerPc → List MonitorEvent
  | .countGenerated _ event _ | .push _ event _ => [event]
  | _ => []

/-- The requests of a thread that have not reached its queue. -/
def unpushed (p : Program) (thread : ℕ) : List EmitRequest :=
  (emitting (p.runtime.threads thread).pc).map requestOf ++
    unreserved (p.runtime.threads thread) ++ (p.calls thread).unreported

/-- An emission that is followed by another is that of THREAD_START. -/
def StartsFirst : ProducerPc → Prop
  | .reserve _ request (.emit _) => request = threadStart
  | .countGenerated _ event (.emit _) | .push _ event (.emit _) => requestOf event = threadStart
  | _ => True

/-- The real lock has returned a failure, which is all that the thread has not pushed. -/
def FailureUnpushed (p : Program) (thread mutex : ℕ) : Prop :=
  ∃ rc, rc ≠ 0 ∧ unpushed p thread = [lockReturned mutex rc]

/-- Every listed thread is inside a lock call of a mutex that another listed thread holds. -/
def Deadlocked (gettid : ℕ → ℕ) (p : Program) (cycle : List (ℕ × ℕ)) : Prop :=
  ∀ wait ∈ cycle, ∃ thread owner, gettid thread = wait.1 ∧ gettid owner ∈ cycle.map Prod.fst ∧
    owner ≠ thread ∧ p.calls thread = .requesting wait.2 ∧ 0 < p.levels owner wait.2

/-- A round that starts here reports the cycle, and no push fails up to its check. -/
def Reported (gettid : ℕ → ℕ) (maxHoldNs : ℕ) (before : List ProgramObservation)
    (start : Program) (cycle : List (ℕ × ℕ)) : Prop :=
  ∃ begun last during sequence owners,
    Run (programStep gettid) (programStart maxHoldNs) before start ∧
    programStep gettid start .consumer = some (begun, [.runtime .roundStarted]) ∧
    Run (programStep gettid) begun during last ∧ .runtime .roundStarted ∉ during ∧
    last.runtime.consumer = .check ∧
    Lossless (runtimeTrace (before ++ .runtime .roundStarted :: during)) ∧
    (monitorVerifierCheckDeadlocks last.runtime.verifier).reports =
      last.runtime.verifier.reports ++ [.deadlockCycle sequence cycle owners]

variable {s : VerifierState} {event : MonitorEvent} {events : List MonitorEvent}
  {calls : List Call} {maxHoldNs address threadId : ℕ}

section Waiting

theorem Crowded.snoc (h : Crowded events address) (event : MonitorEvent) :
    Crowded (events ++ [event]) address := by
  obtain ⟨hfresh, hfull⟩ := h
  have hsame : firstAddresses (events ++ [event]) = firstAddresses events := by
    rw [firstAddresses_snoc, if_neg (by simp [hfull])]
  unfold Crowded
  rw [hsame]
  exact ⟨hfresh, hfull⟩

theorem callEvents_snoc (calls : List Call) (event : MonitorEvent) :
    callEvents (calls ++ [.processEvent event]) = callEvents calls ++ [event] :=
  callEvents_append calls [.processEvent event]

/-- The sequence check keeps what a thread waits for or clears it. -/
theorem observed_waits (h : (observed s event).waitingMutex ≠ 0) :
    (observed s event).waitingMutex = (threadAt s event.threadId).waitingMutex := by
  unfold observed observeThread at h ⊢
  split at h
  · exact absurd rfl h
  · rename_i hkept
    rw [if_neg hkept]

theorem Waits.processEvent (h : Waits calls s) (hwf : WellFormed s)
    (hroom : ThreadRoom s event.threadId)
    (hanswer : answersRequest event = true →
      pendingRequest (deliveredTo event.threadId calls) = some event.objectAddress) :
    Waits (calls ++ [.processEvent event]) (monitorVerifierProcessEvent s event) := by
  constructor
  · rw [callEvents_snoc]
    exact h.addressed.processEvent hwf hroom
  intro threadId
  rw [callEvents_snoc]
  by_cases hid : event.threadId = threadId
  · subst hid
    rw [threadAt_own hwf hroom, deliveredTo_own rfl, pendingRequest_snoc]
    have hbefore : (observed s event).waitingMutex ≠ 0 →
        pendingRequest (deliveredTo event.threadId calls) =
            some (observed s event).waitingMutex ∨
          Crowded (callEvents calls ++ [event]) (observed s event).waitingMutex := by
      intro hne
      have hsame := observed_waits hne
      rw [hsame] at hne ⊢
      exact (h.pending event.threadId hne).imp_right fun hcrowded => hcrowded.snoc event
    unfold processedThread
    by_cases hrefused : (mutexRefused s event && decide (event.eventType = .lockAcquired)) = true
    · rw [if_pos hrefused]
      rw [Bool.and_eq_true, decide_eq_true_eq, h.addressed.refused_iff hwf] at hrefused
      obtain ⟨⟨-, hcrowded⟩, hlock⟩ := hrefused
      intro hne
      refine Or.inr ?_
      rcases hbefore hne with hpending | hdone
      · rw [hanswer (by simp [answersRequest, hlock]), Option.some.injEq] at hpending
        rw [← hpending]
        exact Crowded.snoc hcrowded event
      · exact hdone
    · rw [if_neg hrefused, handleThread_waiting]
      cases htype : event.eventType with
      | lockRequest => exact fun _ => Or.inl rfl
      | threadExit => exact fun hne => absurd rfl hne
      | lockAcquired | lockFailed =>
        simp only
        split
        · exact fun hne => absurd rfl hne
        · rename_i hother
          intro hne
          refine Or.inr ((hbefore hne).resolve_left ?_)
          rw [hanswer (by simp [answersRequest, htype]), Option.some.injEq]
          exact Ne.symm hother
      | _ => exact hbefore
  · rw [threadAt_other hwf hid, deliveredTo_other (by simp [hid])]
    exact fun hne => (h.pending threadId hne).imp_right fun hcrowded => hcrowded.snoc event

theorem Waits.check (h : Waits calls s) :
    Waits (calls ++ [.checkDeadlocks]) (monitorVerifierCheckDeadlocks s) := by
  have hevents : callEvents (calls ++ [.checkDeadlocks]) = callEvents calls := by
    rw [callEvents_append]
    exact List.append_nil _
  constructor
  · rw [hevents]
    refine ⟨h.addressed.nodup, ?_⟩
    unfold VerifierState.mutexOf
    rw [(check_frame s).2.1]
    exact h.addressed.present
  · intro threadId
    rw [threadAt_check, hevents, deliveredTo_other (by simp)]
    exact h.pending threadId

/-- What the threads wait for after every sequence of calls. -/
theorem waits_runCalls (hadmitted : AllAdmitted maxHoldNs calls)
    (hanswered : ∀ threadId, Answered (deliveredTo threadId calls)) :
    Waits calls (runCalls (monitorVerifierInit maxHoldNs) calls) := by
  induction calls using List.reverseRecOn with
  | nil =>
    constructor
    · refine ⟨List.nodup_nil, fun address => ?_⟩
      rw [runCalls_nil, init_mutexOf]
      simp [firstAddresses, callEvents]
    · intro threadId hne
      unfold threadAt at hne
      rw [runCalls_nil, init_threadOf] at hne
      exact absurd rfl hne
  | append_singleton calls call ih =>
    have hbefore : Waits calls (runCalls (monitorVerifierInit maxHoldNs) calls) := by
      apply ih
      · intro earlier event later heq
        exact hadmitted earlier event (later ++ [call]) (by rw [heq, List.append_assoc]; rfl)
      · intro threadId earlier event later heq
        have hall := hanswered threadId
        rw [deliveredTo, callEvents_append, stream_append] at hall
        exact hall earlier event (later ++ stream (fun event : MonitorEvent => event.threadId)
          threadId (callEvents [call])) (by
            rw [show stream _ threadId (callEvents calls) = _ from heq, List.append_assoc,
              List.cons_append])
    have hwf := wellFormed_runCalls (wellFormed_init maxHoldNs) calls
    rw [runCalls_append]
    cases call with
    | checkDeadlocks => exact hbefore.check
    | processEvent event =>
      refine hbefore.processEvent hwf (hadmitted calls event [] rfl) ?_
      exact hanswered event.threadId _ event [] (deliveredTo_own rfl calls)

end Waiting

section Requests

variable {history : List InterposedCall} {entered : Option ℕ} {requests : List EmitRequest}

theorem pendingRequest_requests (events : List MonitorEvent) :
    pendingRequest events = pendingOf (events.map requestOf) := by
  unfold pendingRequest pendingOf
  rw [List.foldl_map]
  rfl

theorem pendingOf_snoc (requests : List EmitRequest) (request : EmitRequest) :
    pendingOf (requests ++ [request]) =
      match request.eventType with
      | .lockRequest => some request.objectAddress
      | .lockAcquired | .lockFailed => none
      | _ => pendingOf requests := by
  unfold pendingOf
  rw [List.foldl_append, List.foldl_cons, List.foldl_nil]

theorem pendingOf_emissions (history : List InterposedCall) (entered : Option ℕ) :
    pendingOf (emissions history entered) = entered := by
  rw [emissions_entered]
  cases entered with
  | some mutex =>
    rw [Option.map_some, Option.toList_some, pendingOf_snoc]
    rfl
  | none =>
    rw [Option.map_none, Option.toList_none, List.append_nil]
    induction history using List.reverseRecOn with
    | nil => rfl
    | append_singleton history call ih =>
      rw [emissions_snoc]
      cases call with
      | lock mutex rc =>
        have hemits : (InterposedCall.lock mutex rc).emits =
            [InterposedCalls.lockRequest mutex] ++ [lockReturned mutex rc] := rfl
        rw [hemits, ← List.append_assoc, pendingOf_snoc]
        by_cases hrc : rc = 0 <;> simp [lockReturned, hrc]
      | unlock mutex rc =>
        have hemits : (InterposedCall.unlock mutex rc).emits = [unlockReturned mutex rc] := rfl
        rw [hemits, pendingOf_snoc, ih]
        by_cases hrc : rc = 0 <;> simp [unlockReturned, hrc]

/-- The last emission of some calls is a result only of a lock that was pending. -/
theorem pendingOf_before {request : EmitRequest}
    (h : requests ++ [request] = emissions history entered)
    (hanswer : request.eventType = .lockAcquired ∨ request.eventType = .lockFailed) :
    pendingOf requests = some request.objectAddress := by
  rw [emissions_entered] at h
  cases entered with
  | some mutex =>
    obtain ⟨-, rfl⟩ := List.append_inj' h rfl |>.imp_right List.singleton_inj.mp
    rcases hanswer with htype | htype <;> cases htype
  | none =>
    rw [Option.map_none, Option.toList_none, List.append_nil] at h
    rcases List.eq_nil_or_concat history with rfl | ⟨history, call, rfl⟩
    · obtain ⟨-, rfl⟩ :=
        List.append_inj' (show requests ++ [request] = [] ++ [threadStart] from h)
        rfl |>.imp_right List.singleton_inj.mp
      rcases hanswer with htype | htype <;> cases htype
    · rw [List.concat_eq_append, emissions_snoc] at h
      cases call with
      | lock mutex rc =>
        have hsplit : emissions history none ++ (InterposedCall.lock mutex rc).emits =
            emissions history (some mutex) ++ [lockReturned mutex rc] := by
          rw [emissions_entered history (some mutex), List.append_assoc]
          rfl
        rw [hsplit] at h
        obtain ⟨rfl, rfl⟩ := List.append_inj' h rfl |>.imp_right List.singleton_inj.mp
        rw [pendingOf_emissions]
        unfold lockReturned
        split <;> rfl
      | unlock mutex rc =>
        obtain ⟨-, rfl⟩ := List.append_inj' h rfl |>.imp_right List.singleton_inj.mp
        unfold unlockReturned at hanswer
        split at hanswer <;> simp at hanswer

theorem answered_of_prefix (h : events.map requestOf <+: emissions history entered) :
    Answered events := by
  intro before event after heq hanswer
  have hinitial : before.map requestOf ++ [requestOf event] <+: emissions history entered := by
    refine List.IsPrefix.trans ⟨after.map requestOf, ?_⟩ h
    rw [heq, List.map_append, List.map_cons, List.append_assoc]
    rfl
  rcases emittedBy_initial hinitial with hnone | ⟨completed, remaining, entered', -, hall⟩
  · simp at hnone
  · rw [pendingRequest_requests]
    refine pendingOf_before hall ?_
    show event.eventType = .lockAcquired ∨ event.eventType = .lockFailed
    unfold answersRequest at hanswer
    cases htype : event.eventType <;> simp_all

/-- After a pending request come its result and the emissions of later calls, if the lock
has returned. -/
theorem pending_rest {mutex : ℕ} {rest : List EmitRequest}
    (hpending : pendingOf requests = some mutex)
    (h : requests ++ rest = emissions history entered) :
    (rest = [] ∧ entered = some mutex ∧ requests = emissions history (some mutex)) ∨
      ∃ completed remaining rc, history = completed ++ .lock mutex rc :: remaining ∧
        requests = emissions completed (some mutex) ∧
        rest = lockReturned mutex rc ::
          (remaining.flatMap InterposedCall.emits ++ (entered.map lockRequest).toList) := by
  rcases emittedBy_initial (h ▸ List.prefix_append requests rest) with
    hnone | ⟨completed, remaining, entered', rfl, hrequests⟩
  · rw [hnone] at hpending
    cases hpending
  have hentered : entered' = some mutex := by
    rw [hrequests, pendingOf_emissions] at hpending
    exact hpending
  rw [hrequests, hentered] at h
  have hrest : lockRequest mutex :: rest =
      remaining.flatMap InterposedCall.emits ++ (entered.map lockRequest).toList := by
    unfold emissions at h
    simpa using h
  cases remaining with
  | nil =>
    left
    cases entered with
    | none => simp at hrest
    | some other =>
      simp only [List.flatMap_nil, List.nil_append, Option.map_some, Option.toList_some,
        List.cons.injEq, InterposedCalls.lockRequest, EmitRequest.mk.injEq, true_and, and_true]
        at hrest
      rw [hrequests, hentered, List.append_nil, hrest.1]
      exact ⟨hrest.2, rfl, rfl⟩
  | cons call remaining =>
    right
    cases call with
    | lock other rc =>
      have hemits : (InterposedCall.lock other rc).emits =
          [InterposedCalls.lockRequest other, lockReturned other rc] := rfl
      rw [List.flatMap_cons, hemits, List.cons_append, List.cons_append, List.cons.injEq] at hrest
      obtain ⟨hsame, hrest⟩ := hrest
      simp only [InterposedCalls.lockRequest, EmitRequest.mk.injEq, true_and, and_true] at hsame
      subst hsame
      exact ⟨completed, remaining, rc, rfl, by rw [hrequests, hentered], hrest⟩
    | unlock other rc =>
      have hemits : (InterposedCall.unlock other rc).emits = [unlockReturned other rc] := rfl
      rw [List.flatMap_cons, hemits, List.cons_append, List.cons_append, List.cons.injEq] at hrest
      have htype := congrArg EmitRequest.eventType hrest.1
      unfold unlockReturned at htype
      split at htype <;> cases htype

end Requests

section Positions

variable {gettid : ℕ → ℕ} {rt rt' : Runtime} {os : List Observation} {p : Program}
  {tr : List ProgramObservation} {thread slot mutex : ℕ}

theorem startsFirst_moved {locals : ThreadLocals} (h : ∀ other, StartsFirst (rt.threads other).pc)
    (hthreads : rt'.threads = Function.update rt.threads thread locals)
    (hmoved : StartsFirst locals.pc) (other : ℕ) : StartsFirst (rt'.threads other).pc := by
  rw [hthreads]
  by_cases hother : other = thread
  · subst hother
    rw [Function.update_self]
    exact hmoved
  · rw [Function.update_of_ne hother]
    exact h other

theorem startsFirst_resume (slot : ℕ) (after : AfterEmission) :
    StartsFirst (after.resume slot) := by
  cases after <;> trivial

theorem startsFirst_step (h : ∀ other, StartsFirst (rt.threads other).pc)
    (ht : Transition gettid rt rt' os) : ∀ other, StartsFirst (rt'.threads other).pc := by
  cases ht with
  | moved hmove =>
    apply startsFirst_moved h rfl
    cases hmove with
    | @called request hpc haccept hinternal =>
      show StartsFirst (registerCurrentThread _ request)
      unfold registerCurrentThread
      split
      · trivial
      · split <;> trivial
    | exiting hpc hkey hready =>
      show StartsFirst (if rt.acceptEvents then _ else _)
      split <;> trivial
    | keySet hpc hready => rfl
    | slotLoaded hpc | full hpc hfull | retried hpc hlt | closed hpc => trivial
  | claimed hpc hlt => exact startsFirst_moved h rfl trivial
  | refused hpc => exact startsFirst_moved h rfl trivial
  | initialised hpc => exact startsFirst_moved h rfl trivial
  | activated hpc => exact startsFirst_moved h rfl trivial
  | keyFailed hpc => exact startsFirst_moved h rfl rfl
  | @reserved thread slot request after event hpc timestampNs hevent =>
    have hbefore := h thread
    rw [hpc] at hbefore
    apply startsFirst_moved h rfl
    subst hevent
    cases after with
    | emit next => exact hbefore
    | leave | close => trivial
  | @counted thread slot event after hpc =>
    have hbefore := h thread
    rw [hpc] at hbefore
    apply startsFirst_moved h rfl
    cases after with
    | emit next => exact hbefore
    | leave | close => trivial
  | pushed hpc hroom => exact startsFirst_moved h rfl (startsFirst_resume _ _)
  | dropped hpc hfull => exact startsFirst_moved h rfl trivial
  | dropCounted hpc => exact startsFirst_moved h rfl (startsFirst_resume _ _)
  | left hpc => exact startsFirst_moved h rfl trivial
  | _ => exact h

theorem startsFirst_run (hrun : Run (step gettid) (monitorRuntimeStart maxHoldNs) os rt) :
    ∀ other, StartsFirst (rt.threads other).pc :=
  hrun.state_invariant (fun _ _ _ _ h hstep => startsFirst_step h (step_transition hstep))
    fun _ => trivial

/-- Behind the claim of its slot a thread has at most one request to push, or nothing is
pushed yet and THREAD_START comes first. -/
theorem unpushed_short (h : Traced p tr) (hstarts : StartsFirst (p.runtime.threads thread).pc)
    (hslot : (claimants (runtimeTrace tr))[slot]? = some thread) :
    (unpushed p thread).length ≤ 1 ∨ ∃ request, unpushed p thread = [threadStart, request] := by
  have hheld := h.held thread slot hslot
  have hquiet : (p.runtime.threads thread).pc ≠ .outside → (p.calls thread).unreported = [] := by
    intro hne
    by_contra hcon
    exact hne (h.still thread hcon)
  unfold unpushed
  cases hpc : (p.runtime.threads thread).pc with
  | outside =>
    have htls : (p.runtime.threads thread).tlsContext = some slot := by
      rwa [heldSlot_eq (by rw [hpc]; rfl)] at hheld
    left
    cases hcall : p.calls thread <;> simp [emitting, unreserved, hpc, htls, CallPc.unreported]
  | loadSlot request | exchangeSlot request _ | initialise request _ | activate request _
  | setKey request _ =>
    right
    refine ⟨request, ?_⟩
    rw [hquiet (by simp [hpc])]
    simp [emitting, unreserved, hpc]
  | refuse request | leave _ | close _ =>
    left
    rw [hquiet (by simp [hpc])]
    simp [emitting, unreserved, hpc]
  | countDropped _ after =>
    left
    rw [hquiet (by simp [hpc])]
    cases after <;> simp [emitting, unreserved, hpc, afterRequests]
  | reserve slot' request after =>
    rw [hpc] at hstarts
    rw [hquiet (by simp [hpc])]
    cases after with
    | emit next =>
      have hstart : request = threadStart := hstarts
      right
      refine ⟨next, ?_⟩
      simp [emitting, unreserved, hpc, afterRequests, hstart]
    | leave | close =>
      left
      simp [emitting, unreserved, hpc, afterRequests]
  | countGenerated slot' event after | push slot' event after =>
    rw [hpc] at hstarts
    rw [hquiet (by simp [hpc])]
    cases after with
    | emit next =>
      have hstart : requestOf event = threadStart := hstarts
      right
      refine ⟨next, ?_⟩
      simp [emitting, unreserved, hpc, afterRequests, hstart]
    | leave | close =>
      left
      simp [emitting, unreserved, hpc, afterRequests]

theorem inFlight_own (h : Traced p tr) (howned : SlotsOwned p.runtime (runtimeTrace tr))
    (hslot : (claimants (runtimeTrace tr))[slot]? = some thread) :
    inFlight (p.runtime.threads thread).pc slot = emitting (p.runtime.threads thread).pc := by
  have hworks : ∀ slot', expectedContext (p.runtime.threads thread).pc = some (some slot') →
      slot' = slot := fun slot' hpc => h.one_slot (howned.works slot' hpc).2.2 hslot
  cases hpc : (p.runtime.threads thread).pc with
  | countGenerated slot' event after | push slot' event after =>
    rw [hpc] at hworks
    simp [inFlight, emitting, hworks slot' rfl]
  | _ => rfl

/-- What a thread has pushed and what it has not are the emissions of its calls. -/
theorem unpushed_stream (hrun : Run (programStep gettid) (programStart maxHoldNs) tr p)
    (hlossless : Lossless (runtimeTrace tr))
    (hslot : (claimants (runtimeTrace tr))[slot]? = some thread) :
    (eventsOn pushedEvent slot (runtimeTrace tr)).map requestOf ++ unpushed p thread =
      emissions (callsOf thread tr) (p.calls thread).entered := by
  have h := traced_run hrun
  have hreached := program_reached hrun
  have hreserved := hreached.attempted.reserved slot
  rw [ownerPc_own _ hslot, inFlight_own h hreached.owned hslot,
    ← pushed_eq_attempted (hlossless slot)] at hreserved
  have hall := h.stream thread (h.registered hslot)
  rw [← h.reserved_eq hrun hslot, hreserved, List.map_append] at hall
  rw [← hall]
  unfold unpushed
  simp only [List.append_assoc]

/-- A thread whose last pushed lock event is a request is inside that call, or its lock has
returned and the result is all that it has not pushed. What it holds is what it has pushed,
and the mutex of the call in case the lock has returned zero. -/
theorem pending_call (hrun : Run (programStep gettid) (programStart maxHoldNs) tr p)
    (hlossless : Lossless (runtimeTrace tr))
    (hslot : (claimants (runtimeTrace tr))[slot]? = some thread)
    (hpending : pendingRequest (eventsOn pushedEvent slot (runtimeTrace tr)) = some mutex) :
    (p.calls thread = .requesting mutex ∧ ∀ address, p.levels thread address =
        depthOf ((eventsOn pushedEvent slot (runtimeTrace tr)).map requestOf) address) ∨
      ∃ rc, unpushed p thread = [lockReturned mutex rc] ∧ ∀ address, p.levels thread address =
        (InterposedCall.lock mutex rc).owns address
          (depthOf ((eventsOn pushedEvent slot (runtimeTrace tr)).map requestOf) address) := by
  have h := traced_run hrun
  have hstarts := startsFirst_run (runtime_run hrun) thread
  rw [pendingRequest_requests] at hpending
  rcases pending_rest hpending (unpushed_stream hrun hlossless hslot) with
    ⟨-, hentered, hpushed⟩ | ⟨completed, remaining, rc, hcalls, hpushed, hrest⟩
  · left
    constructor
    · cases hcall : p.calls thread <;> simp_all [CallPc.entered]
    · intro address
      rw [hpushed, depthOf_entered, depthOf_owned (h.alive thread), h.owned]
  · right
    have hone : remaining = [] ∧ ((p.calls thread).entered.map lockRequest).toList = [] := by
      rcases unpushed_short h hstarts hslot with hshort | ⟨request, htwo⟩
      · rw [hrest, List.length_cons] at hshort
        have hnil := List.eq_nil_of_length_eq_zero (show
          (remaining.flatMap InterposedCall.emits ++
            ((p.calls thread).entered.map lockRequest).toList).length = 0 by omega)
        rw [List.append_eq_nil_iff] at hnil
        refine ⟨?_, hnil.2⟩
        cases remaining with
        | nil => rfl
        | cons call more =>
          have hempty := (List.append_eq_nil_iff.mp (List.flatMap_cons ▸ hnil.1)).1
          cases call <;> cases hempty
      · rw [hrest, List.cons.injEq] at htwo
        have htype := congrArg EmitRequest.eventType htwo.1
        unfold lockReturned at htype
        split at htype <;> cases htype
    obtain ⟨rfl, hnone⟩ := hone
    refine ⟨rc, ?_, ?_⟩
    · rw [hrest, hnone]
      rfl
    · intro address
      have halive := h.alive thread
      rw [hcalls] at halive
      rw [h.owned, hcalls, owned_snoc, hpushed, depthOf_entered, depthOf_owned]
      exact fun mutex hmem => halive mutex (List.mem_append_left _ hmem)

end Positions

section Deadlocks

variable {gettid : ℕ → ℕ} {p p' : Program} {os : List ProgramObservation}
  {cycle : List (ℕ × ℕ)}

/-- No step of the program lets a deadlocked thread out of its call. -/
theorem Deadlocked.move (h : Deadlocked gettid p cycle) (hids : Function.Injective gettid)
    (hmove : ProgramMove gettid p p' os) : Deadlocked gettid p' cycle := by
  have hinside : ∀ thread, gettid thread ∈ cycle.map Prod.fst →
      ∃ mutex owner, owner ≠ thread ∧ p.calls thread = .requesting mutex ∧
        0 < p.levels owner mutex := by
    intro thread hmem
    obtain ⟨wait, hwait, hid⟩ := List.mem_map.mp hmem
    obtain ⟨thread', owner, hthread, -, hne, hcall, hheld⟩ := h wait hwait
    rw [hid] at hthread
    rw [hids hthread] at hne hcall
    exact ⟨wait.2, owner, hne, hcall, hheld⟩
  -- the thread that moves is not listed, and the others keep their calls and levels
  suffices hkeep : (∀ thread, gettid thread ∈ cycle.map Prod.fst →
      p'.calls thread = p.calls thread) ∧ ∀ owner mutex, gettid owner ∈ cycle.map Prod.fst →
      p'.levels owner mutex = p.levels owner mutex by
    intro wait hwait
    obtain ⟨thread, owner, hthread, howner, hne, hcall, hheld⟩ := h wait hwait
    refine ⟨thread, owner, hthread, howner, hne, ?_, ?_⟩
    · rw [hkeep.1 thread (hthread ▸ List.mem_map_of_mem hwait)]
      exact hcall
    · rw [hkeep.2 owner wait.2 howner]
      exact hheld
  cases hmove with
  | @emitted thread request call rt made hcall hemit =>
    refine ⟨fun other hmem => ?_, fun _ _ _ => rfl⟩
    obtain ⟨mutex, owner, -, hinside, -⟩ := hinside other hmem
    have hne : other ≠ thread := by
      rintro rfl
      rw [hinside] at hcall
      cases hcall
    exact Function.update_of_ne hne ..
  | @lockReturned thread mutex rc holder hcall hpc hreal =>
    have hother : ∀ other, gettid other ∈ cycle.map Prod.fst → other ≠ thread := by
      rintro other hmem rfl
      obtain ⟨mutex', owner, hne, hwaits, hheld⟩ := hinside other hmem
      rw [hwaits, CallPc.requesting.injEq] at hcall
      subst hcall
      have hfree : p.levels owner mutex' = 0 := lock_excludes hreal hne
      omega
    refine ⟨fun other hmem => Function.update_of_ne (hother other hmem) .., ?_⟩
    intro owner address hmem
    rw [levels_returned]
    split
    · rename_i haddress
      rw [(levelsOf_locked hreal owner).2, if_neg (fun hand => hother owner hmem hand.1),
        haddress]
      rfl
    · rfl
  | @unlockReturned thread mutex rc holder hcall hpc hreal =>
    have hother : ∀ other, gettid other ∈ cycle.map Prod.fst → other ≠ thread := by
      rintro other hmem rfl
      obtain ⟨mutex', owner, -, hwaits, -⟩ := hinside other hmem
      rw [hwaits] at hcall
      cases hcall
    refine ⟨fun other hmem => Function.update_of_ne (hother other hmem) .., ?_⟩
    intro owner address hmem
    rw [levels_returned]
    split
    · rename_i haddress
      rw [levelsOf_unlocked hreal owner, if_neg (fun hand => hother owner hmem hand.1), haddress]
      rfl
    · rfl
  | produced hstep | consumed hstep => exact ⟨fun _ _ => rfl, fun _ _ _ => rfl⟩

theorem Deadlocked.forever (h : Deadlocked gettid p cycle) (hids : Function.Injective gettid)
    (hrun : Run (programStep gettid) p os p') : Deadlocked gettid p' cycle :=
  hrun.state_invariant (I := fun q => Deadlocked gettid q cycle)
    (fun _ _ _ _ hbefore hstep => hbefore.move hids (programStep_move hstep)) h

end Deadlocks

section Checks

variable {gettid : ℕ → ℕ} {start begun last : Program} {before during : List ProgramObservation}
  {full : List ProgramObservation} {rt : Runtime} {tr : List Observation}
  {thread slot owner : ℕ} {cycle : List (ℕ × ℕ)}

theorem admitted_of_reached (h : Reached gettid maxHoldNs rt tr) :
    AllAdmitted maxHoldNs (verifierCalls tr) := by
  intro earlier event later heq
  have hregistered := callEvents_registered h
  rw [heq, callEvents_append] at hregistered
  have hinit := wellFormed_init maxHoldNs
  have hknown := knownThreads_runCalls (knownThreads_init (registeredIds gettid tr) maxHoldNs)
    hinit fun e he => hregistered e (List.mem_append_left _ he)
  exact hknown.room (wellFormed_runCalls hinit earlier) (registeredIds_card h)
    (hregistered event (List.mem_append_right _ (by simp [callEvents])))

/-- At most `2 ^ 64` numbers increase along the run. -/
theorem numbers_ordered (h : Reached gettid maxHoldNs rt tr)
    (hbound : (reservedAll tr).length ≤ 2 ^ 64) :
    (reservedAll tr).Pairwise fun event later => event.sequenceId < later.sequenceId := by
  rw [← List.pairwise_map (R := (· < ·)) (f := fun event : MonitorEvent => event.sequenceId),
    h.numbered.global, List.pairwise_map]
  refine List.pairwise_lt_range.imp_of_mem ?_
  intro n m _ hm hlt
  rw [List.mem_range] at hm
  rwa [Nat.mod_eq_of_lt (by omega), Nat.mod_eq_of_lt (by omega)]

theorem reserved_ordered (h : Reached gettid maxHoldNs rt tr)
    (hbound : (reservedAll tr).length ≤ 2 ^ 64) (slot : ℕ) :
    (eventsOn reservedEvent slot tr).Pairwise fun event later =>
      event.sequenceId < later.sequenceId :=
  (numbers_ordered h hbound).sublist (reservedOn_sublist slot tr)

/-- What a check in a run of the program has before it. -/
structure Checked (gettid : ℕ → ℕ) (maxHoldNs : ℕ) (start last : Program)
    (before full : List ProgramObservation) : Prop where
  started : Run (programStep gettid) (programStart maxHoldNs) before start
  reached : Run (programStep gettid) (programStart maxHoldNs) full last
  initial : before <+: full
  slots : ∀ slot, eventsOn processedEvent slot (runtimeTrace full) =
    eventsOn pushedEvent slot (runtimeTrace before)

theorem checked_of_round
    (hbefore : Run (programStep gettid) (programStart maxHoldNs) before start)
    (hbegin : programStep gettid start .consumer = some (begun, [.runtime .roundStarted]))
    (hduring : Run (programStep gettid) begun during last)
    (hround : .runtime .roundStarted ∉ during) (hcheck : last.runtime.consumer = .check) :
    Checked gettid maxHoldNs start last before (before ++ .runtime .roundStarted :: during) := by
  have hbegun : step gettid start.runtime .consumer = some (begun.runtime, [.roundStarted]) := by
    simp only [programStep, Option.map_eq_some_iff] at hbegin
    obtain ⟨⟨rt, made⟩, hstep, heq⟩ := hbegin
    rw [Prod.mk.injEq] at heq
    obtain ⟨rfl, hmade⟩ := heq
    have hruntime : runtimeTrace (made.map .runtime) = [.roundStarted] :=
      congrArg runtimeTrace hmade
    rw [runtimeTrace_runtime] at hruntime
    rw [hruntime] at hstep
    exact hstep
  have hquiet : .roundStarted ∉ runtimeTrace during := by
    intro hmem
    obtain ⟨o, ho, heq⟩ := List.mem_filterMap.mp hmem
    cases o with
    | runtime made =>
      cases heq
      exact hround ho
    | _ => cases heq
  have hfull := (hbefore.trans (Run.single hbegin)).trans hduring
  rw [List.append_assoc] at hfull
  refine ⟨hbefore, hfull, List.prefix_append .., ?_⟩
  obtain ⟨-, hslots⟩ := slots_at_check (runtime_run hbefore) hbegun (runtime_run hduring) hquiet
    hcheck
  rw [runtimeTrace_append]
  exact hslots

/-- What the verifier has of a thread id is what its thread had pushed. -/
theorem Checked.delivered (h : Checked gettid maxHoldNs start last before full)
    (hids : Function.Injective gettid) (threadId : ℕ) :
    deliveredTo threadId (verifierCalls (runtimeTrace full)) = [] ∨
      ∃ thread slot, gettid thread = threadId ∧
        (claimants (runtimeTrace before))[slot]? = some thread ∧
        deliveredTo threadId (verifierCalls (runtimeTrace full)) =
          eventsOn pushedEvent slot (runtimeTrace before) := by
  cases hdelivered : deliveredTo threadId (verifierCalls (runtimeTrace full)) with
  | nil => exact Or.inl rfl
  | cons event rest =>
    right
    have hmem : event ∈ deliveredTo threadId (verifierCalls (runtimeTrace full)) := by
      rw [hdelivered]
      exact List.mem_cons_self ..
    obtain ⟨hevent, hid⟩ := mem_stream.mp hmem
    obtain ⟨slot, hpushed⟩ := (processed_iff_pushed h.slots event).mp hevent
    have hstart := program_reached h.started
    obtain ⟨thread, hslot, hthread⟩ := hstart.identified.events slot event
      ((hstart.attempted_prefix slot).mem ((pushed_sublist slot _).mem hpushed))
    obtain ⟨more, rfl⟩ := h.initial
    have hlater : (claimants (runtimeTrace (before ++ more)))[slot]? = some thread := by
      rw [runtimeTrace_append]
      exact claimant_append hslot _
    refine ⟨thread, slot, hthread.symm.trans hid, hslot, ?_⟩
    rw [← hdelivered, ← hid, hthread, deliveredTo_eq (program_reached h.reached)
      ((traced_run h.reached).ownId hids hlater), h.slots]

/-- The checked state: the streams of its threads and what these wait for. -/
theorem Checked.verifier (h : Checked gettid maxHoldNs start last before full)
    (hids : Function.Injective gettid) (hlossless : Lossless (runtimeTrace before))
    (hbound : (reservedAll (runtimeTrace before)).length ≤ 2 ^ 64) :
    let calls := verifierCalls (runtimeTrace full)
    last.runtime.verifier = runCalls (monitorVerifierInit maxHoldNs) calls ∧
      Waits calls last.runtime.verifier ∧
      Agree (AllKept maxHoldNs calls) calls last.runtime.verifier := by
  intro calls
  have hstart := program_reached h.started
  have hlast := program_reached h.reached
  have hadmitted := admitted_of_reached hlast
  rw [hlast.accounted.verifier]
  refine ⟨rfl, waits_runCalls hadmitted fun threadId => ?_,
    agree_runCalls hadmitted fun threadId => ?_⟩
  · rcases h.delivered hids threadId with hnone | ⟨thread, slot, -, hslot, heq⟩
    · rw [hnone]
      intro earlier event later hsplit
      simp at hsplit
    · rw [heq]
      apply answered_of_prefix
      rw [← unpushed_stream h.started hlossless hslot]
      exact List.prefix_append ..
  · rcases h.delivered hids threadId with hnone | ⟨thread, slot, -, hslot, heq⟩
    · rw [hnone]
      exact List.Pairwise.nil
    · rw [heq, pushed_eq_attempted (hlossless slot)]
      exact (reserved_ordered hstart hbound slot).sublist (hstart.attempted_prefix slot).sublist

/-- An edge of the checked graph: its owner really holds the mutex, and its thread is
inside the call of its request or on the way back from a failure. -/
theorem Checked.edge (h : Checked gettid maxHoldNs start last before full)
    (hids : Function.Injective gettid) (hlossless : Lossless (runtimeTrace before))
    (hbound : (reservedAll (runtimeTrace before)).length ≤ 2 ^ 64)
    (hwaiting : ∃ next, waitsFor last.runtime.verifier owner = some next) (hne : threadId ≠ owner)
    (hedge : waitsFor last.runtime.verifier threadId = some owner)
    (haddress : waitOf last.runtime.verifier threadId = (threadId, address)) :
    ∃ thread holder, gettid thread = threadId ∧ gettid holder = owner ∧
      0 < start.levels holder address ∧
      (start.calls thread = .requesting address ∨ FailureUnpushed start thread address) := by
  obtain ⟨hverifier, hwaits, hagree⟩ := h.verifier hids hlossless hbound
  have hpending : ∀ id next, waitsFor last.runtime.verifier id = some next →
      ∃ thread slot, gettid thread = id ∧
        (claimants (runtimeTrace before))[slot]? = some thread ∧
        deliveredTo id (verifierCalls (runtimeTrace full)) =
          eventsOn pushedEvent slot (runtimeTrace before) ∧
        pendingRequest (eventsOn pushedEvent slot (runtimeTrace before)) =
          some (threadAt last.runtime.verifier id).waitingMutex := by
    intro id next hnext
    obtain ⟨entry, mutex, -, hentry, -, hzero, hmutex, -⟩ := waitsFor_eq_some_iff.mp hnext
    have hthread : threadAt last.runtime.verifier id = entry := by
      unfold threadAt
      rw [hentry, Option.getD_some]
    rw [hthread]
    rw [← hthread] at hzero hmutex
    have hrequest := (hwaits.pending id hzero).resolve_right (by
      rintro ⟨hfresh, -⟩
      rw [hwaits.addressed.present] at hfresh
      exact hfresh (by simp [hmutex]))
    rcases h.delivered hids id with hnone | ⟨thread, slot, hid, hslot, heq⟩
    · rw [hnone] at hrequest
      cases hrequest
    · rw [heq, hthread] at hrequest
      exact ⟨thread, slot, hid, hslot, heq, hrequest⟩
  obtain ⟨thread, slot, hid, hslot, -, hrequest⟩ := hpending threadId owner hedge
  obtain ⟨next, hnext⟩ := hwaiting
  obtain ⟨holder, slot', hid', hslot', heq', hrequest'⟩ := hpending owner next hnext
  have hmutex : (threadAt last.runtime.verifier threadId).waitingMutex = address :=
    congrArg Prod.snd haddress
  rw [hmutex] at hrequest
  have hheld : 0 < start.levels holder address := by
    obtain ⟨entry, mutex, -, hentry, -, -, hentry', hknown, rfl, hzero, -⟩ :=
      waitsFor_eq_some_iff.mp hedge
    have hthread : threadAt last.runtime.verifier threadId = entry := by
      unfold threadAt
      rw [hentry, Option.getD_some]
    rw [← hthread, hmutex] at hentry'
    have hstreamed := (hagree.owners address mutex hentry' hknown hzero).streamed
    rw [holdingOf_depth, heq'] at hstreamed
    rcases pending_call h.started hlossless hslot' hrequest' with ⟨-, hlevels⟩ | ⟨rc, -, hlevels⟩
    · rw [hlevels]
      exact hstreamed
    · rw [hlevels, owns_lock]
      split
      · exact Nat.succ_pos _
      · exact hstreamed
  refine ⟨thread, holder, hid, hid', hheld, ?_⟩
  rcases pending_call h.started hlossless hslot hrequest with ⟨hinside, -⟩ | ⟨rc, hrest, hlevels⟩
  · exact Or.inl hinside
  · refine Or.inr ⟨rc, ?_, hrest⟩
    rintro rfl
    have hown : 0 < start.levels thread address := by
      rw [hlevels, owns_lock, if_pos (by simp)]
      exact Nat.succ_pos _
    have hsame := levels_unique hown hheld
    exact hne (by rw [← hid, ← hid', hsame])

end Checks

/-- Whenever a cycle is reported in a run without drops, at the start of the round of the
check every listed thread really held the mutex that the one before it was requesting, and
every listed thread was inside its lock call, or had just been given a failure that it had
not pushed. Without such a failure none of these calls ever returns. -/
theorem reported_cycle_real (gettid : ℕ → ℕ) (hids : Function.Injective gettid) (maxHoldNs : ℕ)
    {before : List ProgramObservation} {start : Program} {cycle : List (ℕ × ℕ)}
    (hreported : Reported gettid maxHoldNs before start cycle)
    (hbound : (reservedAll (runtimeTrace before)).length ≤ 2 ^ 64) :
    (∀ i wait next, cycle[i]? = some wait → cycle[(i + 1) % cycle.length]? = some next →
      ∃ thread holder, gettid thread = wait.1 ∧ gettid holder = next.1 ∧
        0 < start.levels holder wait.2 ∧
        (start.calls thread = .requesting wait.2 ∨ FailureUnpushed start thread wait.2)) ∧
    ((∀ wait ∈ cycle, ∀ thread, gettid thread = wait.1 →
        ¬ FailureUnpushed start thread wait.2) →
      ∀ later p, Run (programStep gettid) start later p → ∀ wait ∈ cycle, ∀ thread,
        gettid thread = wait.1 → p.calls thread = .requesting wait.2) := by
  obtain ⟨begun, last, during, sequence, owners, hbefore, hbegin, hduring, hround, hcheck, hall,
    hreport⟩ := hreported
  rw [runtimeTrace_append] at hall
  have hlossless := hall.before
  have h := checked_of_round hbefore hbegin hduring hround hcheck
  have hfound := findAnyCycle_sound (check_reports hreport).2.1
  have hlong := hfound.long
  obtain ⟨hne, hnodup, -⟩ := hfound.closed
  have hedges := (isCycle_iff hne hnodup).mp hfound.closed
  rw [List.length_map] at hedges
  have hreal : ∀ i wait next, cycle[i]? = some wait → cycle[(i + 1) % cycle.length]? = some next →
      wait.1 ≠ next.1 ∧ ∃ thread holder, gettid thread = wait.1 ∧ gettid holder = next.1 ∧
        0 < start.levels holder wait.2 ∧
        (start.calls thread = .requesting wait.2 ∨ FailureUnpushed start thread wait.2) := by
    intro i wait next hwait hsucc
    have hi := (List.getElem?_eq_some_iff.mp hwait).1
    have hfirst : (cycle.map Prod.fst)[i]? = some wait.1 := by
      rw [List.getElem?_map, hwait, Option.map_some]
    have hsecond : (cycle.map Prod.fst)[(i + 1) % cycle.length]? = some next.1 := by
      rw [List.getElem?_map, hsucc, Option.map_some]
    have hdistinct : wait.1 ≠ next.1 := by
      intro heq
      have hsame := (List.getElem?_inj (by rwa [List.length_map]) hnodup).mp
        (hfirst.trans ((congrArg some heq).trans hsecond.symm))
      rcases Nat.lt_or_ge (i + 1) cycle.length with hlt | hge
      · rw [Nat.mod_eq_of_lt hlt] at hsame
        omega
      · have hlast : i + 1 = cycle.length := by omega
        rw [hlast, Nat.mod_self] at hsame
        omega
    obtain ⟨owner, -, hwaiting⟩ := hfound.closed.next_mem (List.mem_of_getElem? hsecond)
    exact ⟨hdistinct, h.edge hids hlossless hbound ⟨owner, hwaiting⟩ hdistinct
      (hedges i wait.1 next.1 hfirst hsecond) (hfound.mutexes wait (List.mem_of_getElem? hwait))⟩
  refine ⟨fun i wait next hwait hsucc => (hreal i wait next hwait hsucc).2, ?_⟩
  intro hnofailure later p hlater
  have hdeadlocked : Deadlocked gettid start cycle := by
    intro wait hmem
    obtain ⟨i, hwait⟩ := List.getElem?_of_mem hmem
    have hin : (i + 1) % cycle.length < cycle.length := Nat.mod_lt _ (by omega)
    obtain ⟨hdistinct, thread, holder, hthread, hholder, hheld, hcall⟩ :=
      hreal i wait _ hwait (List.getElem?_eq_getElem hin)
    refine ⟨thread, holder, hthread, ?_, ?_, ?_, hheld⟩
    · rw [hholder]
      exact List.mem_map_of_mem (List.getElem_mem hin)
    · rintro rfl
      exact hdistinct (hthread.symm.trans hholder)
    · exact hcall.resolve_right (hnofailure wait hmem thread hthread)
  intro wait hmem thread hthread
  obtain ⟨thread', holder, hthread', -, -, hcall, -⟩ := hdeadlocked.forever hids hlater wait hmem
  rw [hids (hthread.trans hthread'.symm)]
  exact hcall

/-- The consumer has begun a round. -/
def roundBegun (p : Program) : Program :=
  { p with runtime := { p.runtime with consumer := .poll ⟨0, p.runtime.nextThreadSlot, false⟩ } }

/-- The check of a round that finds two empty queues. -/
def idleEnd (p : Program) : Program × List ProgramObservation :=
  after (programStep id) (roundBegun p) (List.replicate 5 .consumer)

/-- Two idle rounds in a row, of which the second one reports. -/
structure IdleReport (p : Program) (sequence : ℕ) (cycle : List (ℕ × ℕ)) (owners : List ℕ) :
    Prop where
  waiting : p.runtime.consumer = .loadCount
  accepted : (exec (programStep id) (roundBegun p) (List.replicate 5 .consumer)).isSome = true
  quiet : (idleEnd p).2 = []
  check : (idleEnd p).1.runtime.consumer = .check
  report : (monitorVerifierCheckDeadlocks (idleEnd p).1.runtime.verifier).reports =
    (idleEnd p).1.runtime.verifier.reports ++ [.deadlockCycle sequence cycle owners]

theorem IdleReport.reported {p : Program} {before : List ProgramObservation} {sequence : ℕ}
    {cycle : List (ℕ × ℕ)} {owners : List ℕ} (h : IdleReport p sequence cycle owners)
    (hrun : Run (programStep id) (programStart 0) before p)
    (hlossless : (runtimeTrace before).filterMap droppedEvent = []) :
    Reported id 0 before p cycle := by
  have hbegin : programStep id p .consumer = some (roundBegun p, [.runtime .roundStarted]) := by
    simp only [programStep, consumerStep, h.waiting]
    rfl
  have hduring : Run (programStep id) (roundBegun p) [] (idleEnd p).1 := by
    rw [← h.quiet]
    exact run_after h.accepted
  refine ⟨_, _, _, _, _, hrun, hbegin, hduring, List.not_mem_nil, h.check, ?_, h.report⟩
  apply lossless_of_none
  rw [runtimeTrace_append, List.filterMap_append, hlossless]
  rfl

/-- The thread gets a mutex in its first call. -/
def firstLock (thread mutex : ℕ) : List ProgramAction :=
  .lock thread mutex :: List.replicate 12 (.producer thread {}) ++
    .lockReturns thread 0 :: .report thread :: List.replicate 4 (.producer thread {})

/-- The thread has pushed the request of a later call. -/
def laterRequest (thread mutex : ℕ) : List ProgramAction :=
  .lock thread mutex :: List.replicate 4 (.producer thread {})

/-- Threads 1 and 2 wait for each other, and one round has found the cycle. -/
def crossed : Program × List ProgramObservation :=
  after (programStep id) (programStart 0) (firstLock 1 100 ++ firstLock 2 200 ++
    laterRequest 1 200 ++ laterRequest 2 100 ++ List.replicate 39 .consumer)

theorem idleReport_crossed : IdleReport crossed.1 7 [(1, 200), (2, 100)] [2, 1] := by
  constructor <;> decide +kernel

theorem reported_cycle_real_crossed :
    0 < crossed.1.levels 2 200 ∧ ∀ later p, Run (programStep id) crossed.1 later p →
      p.calls 1 = .requesting 200 ∧ p.calls 2 = .requesting 100 := by
  have hreported := idleReport_crossed.reported (run_after (by decide +kernel))
    (by decide +kernel)
  obtain ⟨hheld, hforever⟩ :=
    reported_cycle_real id Function.injective_id 0 hreported (by decide +kernel)
  have hpushed : ∀ wait ∈ [(1, 200), (2, 100)], unpushed crossed.1 wait.1 = [] := by
    decide +kernel
  constructor
  · obtain ⟨-, holder, -, rfl, hlevels, -⟩ := hheld 0 (1, 200) (2, 100) rfl rfl
    exact hlevels
  · intro later p hlater
    have hnofailure : ∀ wait ∈ [(1, 200), (2, 100)], ∀ thread, id thread = wait.1 →
        ¬ FailureUnpushed crossed.1 thread wait.2 := by
      rintro wait hmem thread rfl ⟨rc, -, hrest⟩
      have hnone := (hpushed wait hmem).symm.trans hrest
      cases hnone
    have hwaits := hforever hnofailure later p hlater
    exact ⟨hwaits (1, 200) (by decide) 1 rfl, hwaits (2, 100) (by decide) 2 rfl⟩

/-- Thread 1 requests mutex 200 and is refused, but has not pushed the failure yet, when
thread 2 acquires the mutex and requests the one of thread 1. -/
def refusedRequest : Program × List ProgramObservation :=
  after (programStep id) (programStart 0) (firstLock 1 100 ++ laterRequest 1 200 ++
    .lockReturns 1 22 :: firstLock 2 200 ++ laterRequest 2 100 ++ List.replicate 39 .consumer)

theorem idleReport_refusedRequest :
    IdleReport refusedRequest.1 7 [(1, 200), (2, 100)] [2, 1] := by
  constructor <;> decide +kernel

/-- The call of thread 1 returns. -/
def refusalReturned : Program × List ProgramObservation :=
  after (programStep id) refusedRequest.1 (.report 1 :: List.replicate 4 (.producer 1 {}))

theorem failedOnce_failedUnlock : FailedOnce failedUnlock.1 := by
  refine ⟨⟨?_, ⟨?_, ?_, ?_, ?_⟩, ?_, ?_, ?_⟩, ?_, ?_, ?_, ?_, ?_, ?_, ?_, ?_, ?_, ?_, ?_, ?_,
    ?_, ?_, ?_⟩ <;> decide +kernel

/-- The numbers are all but used up when threads 1 and 2 lock their mutexes. Thread 1
releases its mutex under the number zero before it requests that of thread 2. -/
def wrappedActions : List ProgramAction :=
  laterRequest 1 100 ++ .lockReturns 1 0 :: .report 1 :: List.replicate 4 (.producer 1 {}) ++
    firstLock 2 200 ++ .unlock 1 100 0 :: .report 1 :: List.replicate 4 (.producer 1 {}) ++
    laterRequest 1 200 ++ laterRequest 2 100 ++ List.replicate 39 .consumer

def wrapped : Program × List ProgramObservation :=
  after (programStep id) (failedUnlocks failedUnlock.1 (2 ^ 64 - 7)) wrappedActions

theorem idleReport_wrapped :
    IdleReport wrapped.1 (2 ^ 64 - 1) [(1, 200), (2, 100)] [2, 1] := by
  constructor <;> decide +kernel

/-- A listed call may return when its failure has not been pushed yet; and behind 2^64
numbers a listed thread may hold no mutex, with all lock calls so far successful. -/
theorem reported_cycle_unreal :
    (¬ ∀ before start cycle, Reported id 0 before start cycle → ∀ wait ∈ cycle, ∀ later p,
      Run (programStep id) start later p →
        ¬ (p.calls wait.1 = .outside ∧ (p.runtime.threads wait.1).pc = .outside)) ∧
    ¬ ∀ before start cycle, Reported id 0 before start cycle →
      (∀ rc ∈ lockResults before, rc = 0) →
      ∀ i wait next, cycle[i]? = some wait → cycle[(i + 1) % cycle.length]? = some next →
        0 < start.levels next.1 wait.2 := by
  constructor
  · intro hall
    have hreported := idleReport_refusedRequest.reported (run_after (by decide +kernel))
      (by decide +kernel)
    exact hall _ _ _ hreported (1, 200) (by decide) _ _
      (run_after (by decide +kernel) : Run _ _ refusalReturned.2 refusalReturned.1)
      (by decide +kernel)
  · intro hall
    obtain ⟨tr, hmany, hquiet⟩ := run_failedUnlocks failedOnce_failedUnlock (2 ^ 64 - 7)
      (by omega)
    have hfirst : Run (programStep id) (programStart 0) failedUnlock.2 failedUnlock.1 :=
      run_after (by decide +kernel)
    have hlast : Run (programStep id) (failedUnlocks failedUnlock.1 (2 ^ 64 - 7)) wrapped.2
        wrapped.1 := run_after (by decide +kernel)
    have hlossless : (runtimeTrace (failedUnlock.2 ++ tr ++ wrapped.2)).filterMap droppedEvent =
        [] := by
      rw [runtimeTrace_append, runtimeTrace_append, List.filterMap_append, List.filterMap_append,
        hquiet.lossless]
      decide +kernel
    have hreported := idleReport_wrapped.reported ((hfirst.trans hmany).trans hlast) hlossless
    have hheld := hall _ _ _ hreported ?_ 1 (2, 100) (1, 200) rfl rfl
    · revert hheld
      decide +kernel
    · rw [lockResults, List.filterMap_append, List.filterMap_append]
      change ∀ rc ∈ lockResults failedUnlock.2 ++ lockResults tr ++ lockResults wrapped.2, rc = 0
      rw [hquiet.unreturned]
      decide +kernel

end RuntimeMonitor.RealDeadlocks
