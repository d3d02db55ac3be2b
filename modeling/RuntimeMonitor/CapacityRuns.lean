import RuntimeMonitor.CapacityLimits
import RuntimeMonitor.WaitForCycles

/-!
Whole runs of the verifier with and without capacities. The check for deadlocks meets no
limit at all, since the table bounds the length of every walk and the width of every mask;
so the two verifiers agree in every run in which the overflow counter stays at zero. The
counter is a 64-bit one: after 2^64 given up updates it is zero again.
-/
namespace RuntimeMonitor.CapacityRuns

open EventRecord SlotTables GrowingTables VerifierTables VerifierEvents VerifierSteps
open VerifierCycles HeldTables VerifierInvariant VerifierMaps AuthoritativeTraces
open WaitForCycles UnboundedVerifier CapacityLimits

variable {s : VerifierState} {u : UnboundedState} {event : MonitorEvent} {maxHoldNs : ℕ}
  {calls : List Call}

section Cycles

theorem findCyclePass_sim (h : Sim s u) (start current : ℕ) (path : List (ℕ × ℕ)) :
    findCyclePass s start current path = u.findCyclePass start current path := by
  unfold VerifierCycles.findCyclePass UnboundedState.findCyclePass
  simp only [UnboundedState.findThread_lookup, UnboundedState.findMutex_lookup, findThread_lookup,
    findMutex_lookup, h.findSlot, h.findMutexSlot]
  cases find threadLayout s.threadStates current with
  | none => rfl
  | some i =>
    simp only [Option.map_some, h.slot]
    cases find mutexLayout s.mutexStates (s.threadStates i).waitingMutex with
    | none => rfl
    | some j =>
      simp only [Option.map_some, h.mutexSlot]
      cases find threadLayout s.threadStates (s.mutexStates j).ownerThreadId with
      | none => rfl
      | some k => simp only [Option.map_some, h.slot]

theorem findCycleLoop_sim (h : Sim s u) (start steps current : ℕ) (path : List (ℕ × ℕ)) :
    findCycleLoop s start steps current path = u.findCycleLoop start steps current path := by
  induction steps generalizing current path with
  | zero => rfl
  | succ steps ih =>
    rw [VerifierCycles.findCycleLoop, UnboundedState.findCycleLoop, findCyclePass_sim h]
    exact congrArg _ (funext fun owner => funext fun path' => ih owner path')

/-- Sixteen passes are enough for a table of sixteen threads. -/
theorem findCycleFrom_sim (h : Sim s u) (start : ℕ) :
    findCycleFrom s start = u.findCycleFrom start := by
  have hcount : u.threadStates.count ≤ verifierMaxThreads := by
    rw [← h.state]
    exact usedCount_le ..
  rw [← UnboundedState.findCycleLoop_enough u start hcount]
  exact findCycleLoop_sim h start verifierMaxThreads start []

/-- A slot of the table has a bit in a mask of 32 bits. -/
theorem cycleMask_sim (h : Sim s u) (cycle : List (ℕ × ℕ)) :
    cycleMask s cycle = u.cycleMask cycle := by
  unfold VerifierCycles.cycleMask UnboundedState.cycleMask
  congr 1
  funext mask wait
  rw [h.findSlot]
  unfold threadIndex
  cases find threadLayout s.threadStates wait.1 with
  | none => rfl
  | some i =>
    have hbit : i.val < 32 := i.isLt.trans (by decide)
    simp only [Option.map_some, if_pos hbit]

theorem findAnyCycle_sim (h : Sim s u) : findAnyCycle s = u.findAnyCycle := by
  have hscan := grow_findSome (f := fun thread : VerifierThreadState =>
    if !thread.used || thread.traceTainted || decide (thread.waitingMutex = 0) then none
    else findCycleFrom s thread.threadId) h.threads {} (by
      intro thread hunused
      have hidle : thread.used = false := hunused
      simp [hidle])
  have hthreads : u.threadStates = grow threadLayout {} s.threadStates := by
    rw [← h.state]
    rfl
  unfold VerifierCycles.findAnyCycle UnboundedState.findAnyCycle
  simp only [← findCycleFrom_sim h, hthreads]
  exact hscan.symm

theorem printedOwner_sim (h : Sim s u) (address : ℕ) :
    printedOwner s address = u.printedOwner address := by
  unfold VerifierCycles.printedOwner UnboundedState.printedOwner
  rw [findMutex_lookup, UnboundedState.findMutex_lookup, h.findMutexSlot]
  cases find mutexLayout s.mutexStates address with
  | none => rfl
  | some j => simp only [Option.map_some, h.mutexSlot]

theorem ite_sim {c : Prop} [Decidable c] {s' : VerifierState} {u' : UnboundedState}
    (hpos : c → Sim s u) (hneg : ¬c → Sim s' u') :
    Sim (if c then s else s') (if c then u else u') := by
  by_cases hc : c
  · rw [if_pos hc, if_pos hc]
    exact hpos hc
  · rw [if_neg hc, if_neg hc]
    exact hneg hc

theorem resetCycles_sim (h : Sim s u) : Sim (resetCycles s) u.resetCycles := by
  obtain ⟨rfl, hthreads, hmutexes⟩ := h
  exact ⟨rfl, hthreads, hmutexes⟩

theorem reportDeadlockCycle_sim (h : Sim s u) (cycle : List (ℕ × ℕ)) :
    Sim (reportDeadlockCycle s cycle) (u.reportDeadlockCycle cycle) := by
  have howners := funext (printedOwner_sim h)
  obtain ⟨rfl, hthreads, hmutexes⟩ := h
  refine ⟨?_, hthreads, hmutexes⟩
  unfold VerifierCycles.reportDeadlockCycle UnboundedState.reportDeadlockCycle
  rw [howners]
  rfl

/-- The end of a confirmation, once the candidate has been counted. -/
theorem confirmed_sim (h : Sim s u) (cycle : List (ℕ × ℕ)) (mask : ℕ) :
    Sim (if s.candidateCycleConfirmations < deadlockConfirmationsRequired then s
        else if s.reportedCycleMask = mask then s
        else reportDeadlockCycle { s with reportedCycleMask := mask } cycle)
      (if u.candidateCycleConfirmations < deadlockConfirmationsRequired then u
        else if u.reportedCycleMask = mask then u
        else { u with reportedCycleMask := mask }.reportDeadlockCycle cycle) := by
  obtain ⟨rfl, hthreads, hmutexes⟩ := h
  refine ite_sim (fun _ => ⟨rfl, hthreads, hmutexes⟩) fun _ => ?_
  refine ite_sim (fun _ => ⟨rfl, hthreads, hmutexes⟩) fun _ => ?_
  have hreported : Sim { s with reportedCycleMask := mask }
      { widen s with reportedCycleMask := mask } := ⟨rfl, hthreads, hmutexes⟩
  exact reportDeadlockCycle_sim hreported cycle

theorem confirmCycle_sim (h : Sim s u) (cycle : List (ℕ × ℕ)) :
    Sim (confirmCycle s cycle) (u.confirmCycle cycle) := by
  have hmask := cycleMask_sim h cycle
  obtain ⟨rfl, hthreads, hmutexes⟩ := h
  unfold VerifierCycles.confirmCycle UnboundedState.confirmCycle
  dsimp only
  rw [hmask]
  have hcounted : Sim
      (if s.candidateCycleConfirmations < uint32Max then
        { s with candidateCycleConfirmations := s.candidateCycleConfirmations + 1 } else s)
      (if (widen s).candidateCycleConfirmations < uint32Max then
        { widen s with
          candidateCycleConfirmations := (widen s).candidateCycleConfirmations + 1 }
        else widen s) :=
    ite_sim (fun _ => ⟨rfl, hthreads, hmutexes⟩) fun _ => ⟨rfl, hthreads, hmutexes⟩
  exact ite_sim (fun _ => ⟨rfl, hthreads, hmutexes⟩) fun _ => confirmed_sim hcounted cycle _

/-- A check meets no capacity. -/
theorem check_sim (h : Sim s u) : Sim (monitorVerifierCheckDeadlocks s) u.checkDeadlocks := by
  have hany := findAnyCycle_sim h
  have hwaiting : u.waitingThreadCount = s.waitingThreadCount := by
    rw [← h.state]
    rfl
  unfold monitorVerifierCheckDeadlocks UnboundedState.checkDeadlocks
  rw [hwaiting]
  refine ite_sim (fun _ => resetCycles_sim h) fun _ => ?_
  rw [← hany]
  cases findAnyCycle s with
  | none => exact resetCycles_sim h
  | some cycle => exact confirmCycle_sim h cycle

end Cycles

section Runs

theorem init_sim (maxHoldNs : ℕ) :
    Sim (monitorVerifierInit maxHoldNs) (unboundedInit maxHoldNs) := by
  have hthreads : grow threadLayout {} (monitorVerifierInit maxHoldNs).threadStates =
      ⟨fun _ => {}, 0⟩ := grow_unused rfl
  have hmutexes : grow mutexLayout {} (monitorVerifierInit maxHoldNs).mutexStates =
      ⟨fun _ => {}, 0⟩ := grow_unused rfl
  refine ⟨?_, ?_, ?_⟩
  · unfold widen
    rw [hthreads, hmutexes]
    rfl
  · intro i j hlt hused
    exact absurd hused Bool.false_ne_true
  · intro i j hlt hused
    exact absurd hused Bool.false_ne_true

/-- At no point of the run has an update been given up and counted. -/
def NeverOverflows (maxHoldNs : ℕ) (calls : List Call) : Prop :=
  ∀ done rest, calls = done ++ rest →
    (runCalls (monitorVerifierInit maxHoldNs) done).stateOverflowEvents = 0

/-- At no point of the run is a mutex held recursively 2^32 or more times. -/
def NeverDeep (maxHoldNs : ℕ) (calls : List Call) : Prop :=
  ∀ done rest, calls = done ++ rest → DepthsBelow ((unboundedInit maxHoldNs).runCalls done)

theorem unbounded_runCalls_concat (u : UnboundedState) (calls : List Call) (call : Call) :
    u.runCalls (calls ++ [call]) = (u.runCalls calls).applyCall call := by
  unfold UnboundedState.runCalls
  rw [List.foldl_append]
  rfl

theorem runCalls_sim (hoverflow : NeverOverflows maxHoldNs calls)
    (hdepth : NeverDeep maxHoldNs calls) :
    Sim (runCalls (monitorVerifierInit maxHoldNs) calls)
      ((unboundedInit maxHoldNs).runCalls calls) := by
  induction calls using List.reverseRecOn with
  | nil => exact init_sim maxHoldNs
  | append_singleton calls call ih =>
    have hbefore := ih
      (fun done rest heq => hoverflow done (rest ++ [call]) (by rw [heq, List.append_assoc]))
      (fun done rest heq => hdepth done (rest ++ [call]) (by rw [heq, List.append_assoc]))
    have hdeep := hdepth (calls ++ [call]) [] (List.append_nil _).symm
    have hnow := hoverflow calls [call] rfl
    have hnext := hoverflow (calls ++ [call]) [] (List.append_nil _).symm
    rw [unbounded_runCalls_concat] at hdeep ⊢
    rw [runCalls_append] at hnext ⊢
    cases call with
    | checkDeadlocks => exact check_sim hbefore
    | processEvent event =>
      have hwf := wellFormed_runCalls (wellFormed_init maxHoldNs) calls
      refine hbefore.processEvent hwf ?_ hdeep
      intro hdiscarded
      rcases processEvent_overflow hwf event with ⟨-, hcount⟩ | ⟨hkept, -⟩
      · change (monitorVerifierProcessEvent _ event).stateOverflowEvents = 0 at hnext
        rw [hcount, hnow] at hnext
        exact absurd hnext (by decide)
      · exact hkept hdiscarded

/-- With fewer than 2^64 events the counter cannot come back to zero. -/
theorem neverOverflows_of_final (hbound : (callEvents calls).length < 2 ^ 64)
    (hfinal : (runCalls (monitorVerifierInit maxHoldNs) calls).stateOverflowEvents = 0) :
    NeverOverflows maxHoldNs calls := by
  have hzero : (monitorVerifierInit maxHoldNs).stateOverflowEvents = 0 := rfl
  have hevents := @overflow_runCalls (monitorVerifierInit maxHoldNs) calls
    (wellFormed_init maxHoldNs) (by
      rw [hzero]
      omega)
  have hkept := hevents.2 hfinal
  intro done
  induction done using List.reverseRecOn with
  | nil => exact fun _ _ => hzero
  | append_singleton done call ih =>
    intro rest heq
    rw [List.append_assoc] at heq
    have hbefore := ih ([call] ++ rest) heq
    have hwf := wellFormed_runCalls (wellFormed_init maxHoldNs) done
    rw [runCalls_append, ← hbefore]
    cases call with
    | checkDeadlocks => exact (check_frame _).2.2.2.2.1
    | processEvent event =>
      rcases processEvent_overflow hwf event with ⟨hdiscarded, -⟩ | ⟨-, hcount⟩
      · exact absurd hdiscarded (hkept done event rest heq)
      · exact hcount

theorem neverDeep_of_length (hbound : calls.length < 2 ^ 32) : NeverDeep maxHoldNs calls := by
  intro done rest heq i k
  have hinit : (unboundedInit maxHoldNs).DepthsAtMost 0 := fun _ _ => le_rfl
  have hdone := hinit.runCalls done i k
  have hlength := congrArg List.length heq
  rw [List.length_append] at hlength
  omega

/-- The bounded verifier is in the state of the unbounded one, with all its reports and
counters, if the overflow counter is zero throughout; with fewer than 2^64 events it is
enough that it is zero at the end. -/
theorem bounded_tables_exact (maxHoldNs : ℕ) (calls : List Call)
    (hdepth : NeverDeep maxHoldNs calls) :
    (NeverOverflows maxHoldNs calls →
      widen (runCalls (monitorVerifierInit maxHoldNs) calls) =
        (unboundedInit maxHoldNs).runCalls calls) ∧
      ((callEvents calls).length < 2 ^ 64 →
        (runCalls (monitorVerifierInit maxHoldNs) calls).stateOverflowEvents = 0 →
        widen (runCalls (monitorVerifierInit maxHoldNs) calls) =
          (unboundedInit maxHoldNs).runCalls calls) := by
  refine ⟨fun hoverflow => (runCalls_sim hoverflow hdepth).state, fun hbound hfinal => ?_⟩
  exact (runCalls_sim (neverOverflows_of_final hbound hfinal) hdepth).state

/-- Threads 1 and 2 hold mutexes 100 and 200 and wait for each other's, and the cycle is
confirmed. -/
def crossedLocks : List Call :=
  [.processEvent (sampleEvent 0 1 0 100 .lockAcquired),
    .processEvent (sampleEvent 1 2 0 200 .lockAcquired),
    .processEvent (sampleEvent 2 1 1 200 .lockRequest),
    .processEvent (sampleEvent 3 2 1 100 .lockRequest), .checkDeadlocks, .checkDeadlocks]

theorem bounded_tables_exact_crossed :
    widen (runCalls (monitorVerifierInit 0) crossedLocks) =
        (unboundedInit 0).runCalls crossedLocks ∧
      ((unboundedInit 0).runCalls crossedLocks).deadlockCycleViolations = 1 := by
  have hexact := bounded_tables_exact 0 crossedLocks (neverDeep_of_length (by decide))
  exact ⟨hexact.2 (by decide) (by decide +kernel), by decide +kernel⟩

end Runs

section Wrapped

/-- Each event of a thread without a slot counts one overflow and leaves the tables. -/
theorem overflow_noRoom (hwf : WellFormed s) (hroom : ¬ ThreadRoom s event.threadId)
    (hlt : s.stateOverflowEvents < 2 ^ 64) (n : ℕ) :
    (runCalls s (List.replicate n (.processEvent event))).stateOverflowEvents =
      (s.stateOverflowEvents + n) % 2 ^ 64 := by
  induction n generalizing s with
  | zero => exact (Nat.mod_eq_of_lt hlt).symm
  | succ n ih =>
    rw [List.replicate_succ, runCalls_cons]
    have hnext := processEvent_noRoom hwf hroom
    have hcount : (monitorVerifierProcessEvent s event).stateOverflowEvents =
        succ64 s.stateOverflowEvents := by rw [hnext]
    have hthreads : (monitorVerifierProcessEvent s event).threadStates = s.threadStates := by
      rw [hnext]
      rfl
    have hroom' : ¬ ThreadRoom (monitorVerifierProcessEvent s event) event.threadId := by
      unfold ThreadRoom VerifierState.threadOf at hroom ⊢
      rwa [hthreads]
    have hrest := ih (wellFormed_processEvent hwf event) hroom' (by
      rw [hcount]
      unfold succ64
      omega)
    rw [hcount] at hrest
    refine hrest.trans ?_
    unfold succ64
    omega

/-- The event needs a slot for its thread and does nothing else. -/
def Idle (call : Call) : Prop :=
  ∃ event, call = .processEvent event ∧ event.eventType = .unlockRequest

theorem idle_depths {d : ℕ} (h : u.DepthsAtMost d) (hidle : ∀ call ∈ calls, Idle call) :
    (u.runCalls calls).DepthsAtMost d := by
  induction calls generalizing u with
  | nil => exact h
  | cons call rest ih =>
    obtain ⟨event, rfl, htype⟩ := hidle call List.mem_cons_self
    refine ih ?_ fun call hmem => hidle call (List.mem_cons_of_mem _ hmem)
    have hcounted : (u.countEvent event).DepthsAtMost d := h
    show (u.processEvent event).DepthsAtMost d
    unfold UnboundedState.processEvent UnboundedState.handleEvent
    simp only [htype]
    split
    · rename_i hobserve
      exact hcounted.observeThreadSequence hobserve
    · rename_i hobserve
      have hobserved := hcounted.observeThreadSequence hobserve
      exact hobserved

theorem count_markThreadStreamTainted (u : UnboundedState) (i barrier : ℕ) :
    (u.markThreadStreamTainted i barrier).threadStates.count = u.threadStates.count := by
  unfold UnboundedState.markThreadStreamTainted UnboundedState.decrementWaiting
  dsimp only
  repeat' split
  all_goals rfl

theorem count_findThread {threadId : ℕ} {create : Bool} {slot : Option ℕ} {u' : UnboundedState}
    (hfind : u.findThread threadId create = (u', slot)) :
    u.threadStates.count ≤ u'.threadStates.count := by
  unfold UnboundedState.findThread at hfind
  repeat' split at hfind
  all_goals cases hfind
  · exact le_rfl
  · exact Nat.le_succ _
  · exact le_rfl

theorem count_observeThreadSequence {slot : Option ℕ} {u' : UnboundedState}
    (hobserve : u.observeThreadSequence event = (u', slot)) :
    u.threadStates.count ≤ u'.threadStates.count := by
  unfold UnboundedState.observeThreadSequence at hobserve
  split at hobserve
  · rename_i hfind
    cases hobserve
    exact count_findThread hfind
  · rename_i u₁ i hfind
    have hfound := count_findThread hfind
    cases hobserve
    refine hfound.trans (le_of_eq ?_)
    dsimp only
    split
    · refine Eq.trans ?_ (count_markThreadStreamTainted _ _ _).symm
      rfl
    · rfl

theorem idle_count (hidle : ∀ call ∈ calls, Idle call) :
    u.threadStates.count ≤ (u.runCalls calls).threadStates.count := by
  induction calls generalizing u with
  | nil => exact le_rfl
  | cons call rest ih =>
    obtain ⟨event, rfl, htype⟩ := hidle call List.mem_cons_self
    refine le_trans ?_ (ih fun call hmem => hidle call (List.mem_cons_of_mem _ hmem))
    show u.threadStates.count ≤ (u.processEvent event).threadStates.count
    have hcounted : (u.countEvent event).threadStates.count = u.threadStates.count := rfl
    unfold UnboundedState.processEvent UnboundedState.handleEvent
    simp only [htype]
    rw [← hcounted]
    split
    · rename_i hobserve
      exact count_observeThreadSequence hobserve
    · rename_i hobserve
      have hobserved := count_observeThreadSequence hobserve
      exact hobserved

def unlockRequestOf (threadId : ℕ) : Call :=
  .processEvent (sampleEvent 0 threadId 0 0 .unlockRequest)

/-- Sixteen threads fill the table, and the events of another thread find no slot until
the overflow counter has come back to zero. -/
def wrappedOverflow (surplus : ℕ) : List Call :=
  (List.range 16).map unlockRequestOf ++ List.replicate surplus (unlockRequestOf 16)

theorem wrappedOverflow_idle {n : ℕ} : ∀ call ∈ wrappedOverflow n, Idle call := by
  intro call hmem
  rcases List.mem_append.mp hmem with hmem | hmem
  · obtain ⟨threadId, -, rfl⟩ := List.mem_map.mp hmem
    exact ⟨_, rfl, rfl⟩
  · rw [List.eq_of_mem_replicate hmem]
    exact ⟨_, rfl, rfl⟩

theorem wrappedOverflow_counter (n : ℕ) :
    (runCalls (monitorVerifierInit 0) (wrappedOverflow n)).stateOverflowEvents = n % 2 ^ 64 := by
  unfold wrappedOverflow
  rw [runCalls_append]
  have hwf := wellFormed_runCalls (wellFormed_init 0) ((List.range 16).map unlockRequestOf)
  have hzero : (runCalls (monitorVerifierInit 0)
      ((List.range 16).map unlockRequestOf)).stateOverflowEvents = 0 := by decide +kernel
  have hnew : (runCalls (monitorVerifierInit 0)
      ((List.range 16).map unlockRequestOf)).threadOf 16 = none := by decide +kernel
  have hfull : free threadLayout (runCalls (monitorVerifierInit 0)
      ((List.range 16).map unlockRequestOf)).threadStates = none := by decide +kernel
  have hcounter := @overflow_noRoom _ (sampleEvent 0 16 0 0 .unlockRequest) hwf
    (fun hroom => hroom hnew hfull) (by rw [hzero]; decide) n
  rw [hzero, Nat.zero_add] at hcounter
  exact hcounter

theorem wrappedOverflow_differs {surplus : ℕ} (hpos : 0 < surplus) :
    widen (runCalls (monitorVerifierInit 0) (wrappedOverflow surplus)) ≠
      (unboundedInit 0).runCalls (wrappedOverflow surplus) := by
  obtain ⟨n, rfl⟩ := Nat.exists_eq_succ_of_ne_zero hpos.ne'
  intro heq
  have hbounded : (widen (runCalls (monitorVerifierInit 0)
      (wrappedOverflow (n + 1)))).threadStates.count ≤ verifierMaxThreads := usedCount_le ..
  have hsplit : wrappedOverflow (n + 1) =
      wrappedOverflow 1 ++ List.replicate n (unlockRequestOf 16) := by
    unfold wrappedOverflow
    rw [List.append_assoc, List.replicate_succ]
    rfl
  have hgrown : 17 ≤ ((unboundedInit 0).runCalls (wrappedOverflow 1)).threadStates.count := by
    decide +kernel
  have hidle : ∀ call ∈ List.replicate n (unlockRequestOf 16), Idle call := by
    intro call hmem
    apply wrappedOverflow_idle (n := n + 1)
    rw [hsplit]
    exact List.mem_append_right _ hmem
  have hcount := @idle_count ((unboundedInit 0).runCalls (wrappedOverflow 1)) _ hidle
  rw [heq, hsplit] at hbounded
  have hfold : (unboundedInit 0).runCalls
      (wrappedOverflow 1 ++ List.replicate n (unlockRequestOf 16)) =
      ((unboundedInit 0).runCalls (wrappedOverflow 1)).runCalls
        (List.replicate n (unlockRequestOf 16)) := List.foldl_append
  rw [hfold] at hbounded
  have hcapacity : verifierMaxThreads = 16 := rfl
  omega

/-- After 2^64 given up updates the counter is zero and the states differ. -/
theorem bounded_tables_exact_wrapped :
    (runCalls (monitorVerifierInit 0) (wrappedOverflow (2 ^ 64))).stateOverflowEvents = 0 ∧
      NeverDeep 0 (wrappedOverflow (2 ^ 64)) ∧
      widen (runCalls (monitorVerifierInit 0) (wrappedOverflow (2 ^ 64))) ≠
        (unboundedInit 0).runCalls (wrappedOverflow (2 ^ 64)) := by
  refine ⟨?_, ?_, ?_⟩
  · rw [wrappedOverflow_counter]
    exact Nat.mod_self _
  · intro done rest heq i k
    have hinit : (unboundedInit 0).DepthsAtMost 0 := fun _ _ => le_rfl
    have hdone := @idle_depths _ done 0 hinit fun call hmem => by
      apply wrappedOverflow_idle (n := 2 ^ 64)
      rw [heq]
      exact List.mem_append_left _ hmem
    exact (hdone i k).trans_lt (by decide)
  · exact wrappedOverflow_differs (by decide)

end Wrapped

end RuntimeMonitor.CapacityRuns
