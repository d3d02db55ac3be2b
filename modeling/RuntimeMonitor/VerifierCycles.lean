import RuntimeMonitor.VerifierEvents

/-!
The deadlock check: the walk along the wait-for graph from one thread, the scan
over all threads, the confirmation of a candidate and the report. A cycle is the
list of its threads with the mutexes they wait for, in walking order. A run of
the verifier is a sequence of processed events and checks.
-/
namespace RuntimeMonitor.VerifierCycles

open EventRecord SlotTables VerifierTables VerifierEvents

/-- How one pass of the loop in `find_cycle_from` ends. -/
inductive CyclePass where
  | stop (cycle : Option (List (ℕ × ℕ)))
  | next (ownerThreadId : ℕ) (path : List (ℕ × ℕ))

/-- End the search or run the rest of the loop. -/
def CyclePass.resume (pass : CyclePass)
    (loop : ℕ → List (ℕ × ℕ) → Option (List (ℕ × ℕ))) : Option (List (ℕ × ℕ)) :=
  match pass with
  | .stop cycle => cycle
  | .next owner path => loop owner path

/-- One pass of the loop with the current thread and the threads and mutexes
recorded so far. -/
def findCyclePass (s : VerifierState) (startThreadId currentThreadId : ℕ)
    (path : List (ℕ × ℕ)) : CyclePass :=
  match (findThread s currentThreadId false).2 with
  | none => .stop none
  | some i =>
    let thread := s.threadStates i
    if thread.traceTainted || thread.exited then .stop none
    else if thread.waitingMutex = 0 then .stop none
    else
      match (findMutex s thread.waitingMutex false).2 with
      | none => .stop none
      | some j =>
        let mutex := s.mutexStates j
        if !mutex.ownerKnown || decide (mutex.ownerThreadId = 0) then .stop none
        else
          let owner := mutex.ownerThreadId
          match (findThread s owner false).2 with
          | none => .stop none
          | some k =>
            let ownerThread := s.threadStates k
            if ownerThread.traceTainted || ownerThread.exited then .stop none
            else
              let path := path ++ [(currentThreadId, thread.waitingMutex)]
              if owner = startThreadId then
                if path.length < 2 then .stop none else .stop (some path)
              else if (path.map Prod.fst).contains owner then .stop none
              else .next owner path

/-- The loop of `find_cycle_from` with the steps left. -/
def findCycleLoop (s : VerifierState) (startThreadId : ℕ) :
    ℕ → ℕ → List (ℕ × ℕ) → Option (List (ℕ × ℕ))
  | 0, _, _ => none
  | steps + 1, currentThreadId, path =>
    (findCyclePass s startThreadId currentThreadId path).resume
      (findCycleLoop s startThreadId steps)

def findCycleFrom (s : VerifierState) (startThreadId : ℕ) : Option (List (ℕ × ℕ)) :=
  findCycleLoop s startThreadId verifierMaxThreads startThreadId []

/-- The bits of the slots of the threads on a cycle. -/
def cycleMask (s : VerifierState) (cycle : List (ℕ × ℕ)) : ℕ :=
  cycle.foldl (fun mask wait =>
    match threadIndex s wait.1 with
    | some i => if i.val < 32 then mask ||| 1 <<< i.val else mask
    | none => mask) 0

def findAnyCycle (s : VerifierState) : Option (List (ℕ × ℕ)) :=
  Fin.findSome? fun i : Fin verifierMaxThreads =>
    let thread := s.threadStates i
    if !thread.used || thread.traceTainted || decide (thread.waitingMutex = 0) then none
    else findCycleFrom s thread.threadId

/-- The owner that the report prints for a mutex. -/
def printedOwner (s : VerifierState) (address : ℕ) : ℕ :=
  match (findMutex s address false).2 with
  | some j => if (s.mutexStates j).ownerKnown then (s.mutexStates j).ownerThreadId else 0
  | none => 0

def reportDeadlockCycle (s : VerifierState) (cycle : List (ℕ × ℕ)) : VerifierState :=
  { s with
    deadlockCycleViolations := succ64 s.deadlockCycleViolations
    reports := s.reports ++ [.deadlockCycle s.lastProcessedSequence cycle
      (cycle.map fun wait => printedOwner s wait.2)] }

/-- The three resets made when no cycle can be or is present. -/
def resetCycles (s : VerifierState) : VerifierState :=
  { s with candidateCycleMask := 0, candidateCycleConfirmations := 0, reportedCycleMask := 0 }

/-- What `monitor_verifier_check_deadlocks` does with a cycle it has found. -/
def confirmCycle (s : VerifierState) (cycle : List (ℕ × ℕ)) : VerifierState :=
  let mask := cycleMask s cycle
  if s.candidateCycleMask ≠ mask then
    { s with candidateCycleMask := mask, candidateCycleConfirmations := 1 }
  else
    let s :=
      if s.candidateCycleConfirmations < uint32Max then
        { s with candidateCycleConfirmations := s.candidateCycleConfirmations + 1 }
      else s
    if s.candidateCycleConfirmations < deadlockConfirmationsRequired then s
    else if s.reportedCycleMask = mask then s
    else reportDeadlockCycle { s with reportedCycleMask := mask } cycle

def monitorVerifierCheckDeadlocks (s : VerifierState) : VerifierState :=
  if s.waitingThreadCount < 2 then resetCycles s
  else
    match findAnyCycle s with
    | none => resetCycles s
    | some cycle => confirmCycle s cycle

/-- The two calls that the consumer makes. -/
inductive Call where
  | processEvent (event : MonitorEvent)
  | checkDeadlocks
  deriving DecidableEq, Repr

def applyCall (s : VerifierState) : Call → VerifierState
  | .processEvent event => monitorVerifierProcessEvent s event
  | .checkDeadlocks => monitorVerifierCheckDeadlocks s

def runCalls (s : VerifierState) (calls : List Call) : VerifierState :=
  calls.foldl applyCall s

def processAll (s : VerifierState) (events : List MonitorEvent) : VerifierState :=
  events.foldl monitorVerifierProcessEvent s

@[simp] theorem runCalls_nil (s : VerifierState) : runCalls s [] = s := rfl

@[simp] theorem runCalls_cons (s : VerifierState) (call : Call) (calls : List Call) :
    runCalls s (call :: calls) = runCalls (applyCall s call) calls := rfl

theorem runCalls_append (s : VerifierState) (first second : List Call) :
    runCalls s (first ++ second) = runCalls (runCalls s first) second :=
  List.foldl_append

@[simp] theorem processAll_nil (s : VerifierState) : processAll s [] = s := rfl

theorem processAll_append (s : VerifierState) (first second : List MonitorEvent) :
    processAll s (first ++ second) = processAll (processAll s first) second :=
  List.foldl_append

theorem processAll_eq_runCalls (s : VerifierState) (events : List MonitorEvent) :
    processAll s events = runCalls s (events.map .processEvent) := by
  induction events generalizing s with
  | nil => rfl
  | cons event rest ih => exact ih _

end RuntimeMonitor.VerifierCycles
