import RuntimeMonitor.GrowingTables
import RuntimeMonitor.VerifierCycles

/-!
The verifier without capacities: the same functions on tables that grow, with a held
table and recursion depths without a limit, and with a search for cycles that ends only
where it finds one, comes back to a thread it has visited or has no edge to follow. It
has no overflow counter.
-/
namespace RuntimeMonitor.UnboundedVerifier

open EventRecord SlotTables GrowingTables VerifierTables VerifierEvents VerifierCycles

structure UnboundedState where
  threadStates : GrowingTable VerifierThreadState := ⟨fun _ => {}, 0⟩
  mutexStates : GrowingTable VerifierMutexState := ⟨fun _ => {}, 0⟩
  processedEvents : ℕ := 0
  deadlockCycleViolations : ℕ := 0
  nonOwnerUnlockViolations : ℕ := 0
  selfDeadlockCandidates : ℕ := 0
  lockHeldAtExitViolations : ℕ := 0
  holdTimeViolations : ℕ := 0
  detectedStreamGaps : ℕ := 0
  taintedThreadStreams : ℕ := 0
  maxHoldNs : ℕ := defaultMaxHoldNs
  waitingThreadCount : ℕ := 0
  candidateCycleMask : ℕ := 0
  candidateCycleConfirmations : ℕ := 0
  reportedCycleMask : ℕ := 0
  lastProcessedSequence : ℕ := 0
  reports : List Report := []

def unboundedInit (maxHoldNs : ℕ) : UnboundedState := { maxHoldNs := maxHoldNs }

namespace UnboundedState

section Events

variable (u : UnboundedState) (event : MonitorEvent)

def setThread (i : ℕ) (thread : VerifierThreadState) : UnboundedState :=
  { u with threadStates := u.threadStates.set i thread }

def setMutex (j : ℕ) (mutex : VerifierMutexState) : UnboundedState :=
  { u with mutexStates := u.mutexStates.set j mutex }

def findThread (threadId : ℕ) (create : Bool) : UnboundedState × Option ℕ :=
  match u.threadStates.find threadLayout threadId with
  | some i => (u, some i)
  | none =>
    if create then
      ({ u with threadStates := u.threadStates.insert (freshThread threadId) },
        some u.threadStates.count)
    else (u, none)

def findMutex (address : ℕ) (create : Bool) : UnboundedState × Option ℕ :=
  match u.mutexStates.find mutexLayout address with
  | some j => (u, some j)
  | none =>
    if create then
      ({ u with mutexStates := u.mutexStates.insert (freshMutex address) },
        some u.mutexStates.count)
    else (u, none)

def invalidateMutexesOwnedByThread (threadId barrierSequence : ℕ) : UnboundedState :=
  { u with mutexStates := u.mutexStates.map fun mutex =>
      invalidateMutex mutex threadId barrierSequence }

def decrementWaiting : UnboundedState :=
  if u.waitingThreadCount ≠ 0 then { u with waitingThreadCount := u.waitingThreadCount - 1 }
  else u

def markThreadStreamTainted (i barrierSequence : ℕ) : UnboundedState :=
  let thread := u.threadStates.slots i
  if thread.traceTainted then u
  else
    let u := { u with taintedThreadStreams := succ32 u.taintedThreadStreams }
    let u := if thread.waitingMutex ≠ 0 then u.decrementWaiting else u
    let u := u.setThread i (taintThread thread)
    u.invalidateMutexesOwnedByThread thread.threadId barrierSequence

def observeThreadSequence : UnboundedState × Option ℕ :=
  match u.findThread event.threadId true with
  | (u, none) => (u, none)
  | (u, some i) =>
    let thread := u.threadStates.slots i
    let u := u.setThread i { thread with sequenceInitialized := true }
    let u :=
      if hasGap thread event then
        { u with detectedStreamGaps := succ64 u.detectedStreamGaps }.markThreadStreamTainted i
          event.sequenceId
      else u
    (u.setThread i { u.threadStates.slots i with
        nextExpectedSequence := succ32 event.threadSequence }, some i)

/-- The depth is a number without a largest value. -/
def addHeldMutex (i address timestampNs : ℕ) : UnboundedState :=
  let thread := u.threadStates.slots i
  if thread.traceTainted then u
  else
    match findHeldMutex thread address with
    | some k =>
      let held := thread.heldMutexes k
      u.setThread i { thread with
        heldMutexes :=
          Function.update thread.heldMutexes k { held with depth := held.depth + 1 } }
    | none =>
      u.setThread i { thread with
        heldMutexes := Function.update thread.heldMutexes thread.heldCount
          { address := address, firstAcquiredTimestampNs := timestampNs, depth := 1 }
        heldCount := thread.heldCount + 1 }

def reportSelfDeadlockCandidate : UnboundedState :=
  { u with
    selfDeadlockCandidates := succ64 u.selfDeadlockCandidates
    reports := u.reports ++
      [.selfDeadlockCandidate event.sequenceId event.threadId event.objectAddress] }

def reportNonOwnerUnlock : UnboundedState :=
  { u with
    nonOwnerUnlockViolations := succ64 u.nonOwnerUnlockViolations
    reports := u.reports ++
      [.nonOwnerUnlock event.sequenceId event.threadId event.objectAddress event.result] }

def reportHoldTimeViolation (heldNs : ℕ) : UnboundedState :=
  { u with
    holdTimeViolations := succ64 u.holdTimeViolations
    reports := u.reports ++ [.holdTimeViolation event.sequenceId event.threadId
      event.objectAddress heldNs u.maxHoldNs] }

def releaseHeldMutex (i : ℕ) : UnboundedState × Bool :=
  let thread := u.threadStates.slots i
  if thread.traceTainted then (u, true)
  else
    match findHeldMutex thread event.objectAddress with
    | none => (u, true)
    | some k =>
      let held := thread.heldMutexes k
      if held.depth > 1 then
        (u.setThread i { thread with
          heldMutexes := Function.update thread.heldMutexes k
            { held with depth := held.depth - 1 } }, false)
      else
        let u :=
          if u.maxHoldNs ≠ 0 ∧ heldDuration held event > u.maxHoldNs then
            u.reportHoldTimeViolation event (heldDuration held event)
          else u
        (u.setThread i (removeHeldMutex thread k), true)

def reportLockHeldAtThreadExit (thread : VerifierThreadState) : UnboundedState :=
  { u with
    lockHeldAtExitViolations := succ64 u.lockHeldAtExitViolations
    reports := u.reports ++ [.lockHeldAtThreadExit event.sequenceId event.threadId
      thread.heldCount ((List.range thread.heldCount).map fun k =>
        ((thread.heldMutexes k).address, (thread.heldMutexes k).depth))] }

def setThreadWaiting (i address sequence : ℕ) : UnboundedState :=
  let thread := u.threadStates.slots i
  let u :=
    if thread.waitingMutex = 0 then
      { u with waitingThreadCount := succ32 u.waitingThreadCount }
    else u
  u.setThread i { thread with waitingMutex := address, waitingSequence := sequence }

def clearThreadWaiting (i address : ℕ) : UnboundedState :=
  let thread := u.threadStates.slots i
  if thread.waitingMutex ≠ address then u
  else (u.setThread i { thread with waitingMutex := 0, waitingSequence := 0 }).decrementWaiting

def handleThreadStart : UnboundedState :=
  match u.findThread event.threadId true with
  | (u, none) => u
  | (u, some i) => u.setThread i { u.threadStates.slots i with exited := false }

def handleThreadExit : UnboundedState :=
  match u.findThread event.threadId true with
  | (u, none) => u
  | (u, some i) =>
    let thread := u.threadStates.slots i
    let u :=
      if !thread.traceTainted && decide (thread.heldCount ≠ 0) then
        u.reportLockHeldAtThreadExit event thread
      else u
    let u :=
      if thread.waitingMutex ≠ 0 then u.clearThreadWaiting i thread.waitingMutex else u
    u.setThread i { u.threadStates.slots i with exited := true }

def handleLockRequest : UnboundedState :=
  match u.findThread event.threadId true with
  | (u, none) => u
  | (u, some i) =>
    let u := (u.findMutex event.objectAddress true).1
    let thread := u.threadStates.slots i
    let u :=
      if !thread.traceTainted && (findHeldMutex thread event.objectAddress).isSome then
        u.reportSelfDeadlockCandidate event
      else u
    u.setThreadWaiting i event.objectAddress event.sequenceId

def updateOwner (j owner : ℕ) : UnboundedState :=
  let mutex := u.mutexStates.slots j
  if event.sequenceId ≥ mutex.lastStateSequence then
    u.setMutex j { mutex with
      ownerKnown := true
      ownerThreadId := owner
      lastStateSequence := event.sequenceId }
  else u

def handleLockAcquired : UnboundedState :=
  match u.findThread event.threadId true with
  | (u, thread) =>
    match u.findMutex event.objectAddress true with
    | (u, mutex) =>
      match thread, mutex with
      | some i, some j =>
        let u := u.clearThreadWaiting i event.objectAddress
        let u := u.addHeldMutex i event.objectAddress event.timestampNs
        u.updateOwner event j event.threadId
      | _, _ => u

def handleLockFailed : UnboundedState :=
  match u.findThread event.threadId false with
  | (u, none) => u
  | (u, some i) => u.clearThreadWaiting i event.objectAddress

def handleUnlocked : UnboundedState :=
  match u.findThread event.threadId false with
  | (u, thread) =>
    match u.findMutex event.objectAddress true with
    | (u, mutex) =>
      match (match thread with
        | some i => u.releaseHeldMutex event i
        | none => (u, true)) with
      | (u, fullyReleased) =>
        match mutex with
        | none => u
        | some j => u.updateOwner event j (if fullyReleased then 0 else event.threadId)

def handleUnlockFailed : UnboundedState :=
  if event.result = ePerm then u.reportNonOwnerUnlock event else u

def handleEvent : UnboundedState :=
  match event.eventType with
  | .threadStart => u.handleThreadStart event
  | .threadExit => u.handleThreadExit event
  | .lockRequest => u.handleLockRequest event
  | .lockAcquired => u.handleLockAcquired event
  | .lockFailed => u.handleLockFailed event
  | .unlocked => u.handleUnlocked event
  | .unlockFailed => u.handleUnlockFailed event
  | .unlockRequest | .invalid => u

def countEvent : UnboundedState :=
  { u with
    processedEvents := succ64 u.processedEvents
    lastProcessedSequence :=
      if event.sequenceId > u.lastProcessedSequence then event.sequenceId
      else u.lastProcessedSequence }

def resetCandidate : UnboundedState :=
  { u with candidateCycleMask := 0, candidateCycleConfirmations := 0 }

def processEvent : UnboundedState :=
  match (u.countEvent event).observeThreadSequence event with
  | (u, none) => u
  | (u, some _) => u.resetCandidate.handleEvent event

end Events

section Cycles

variable (u : UnboundedState)

def findCyclePass (startThreadId currentThreadId : ℕ) (path : List (ℕ × ℕ)) : CyclePass :=
  match (u.findThread currentThreadId false).2 with
  | none => .stop none
  | some i =>
    let thread := u.threadStates.slots i
    if thread.traceTainted || thread.exited then .stop none
    else if thread.waitingMutex = 0 then .stop none
    else
      match (u.findMutex thread.waitingMutex false).2 with
      | none => .stop none
      | some j =>
        let mutex := u.mutexStates.slots j
        if !mutex.ownerKnown || decide (mutex.ownerThreadId = 0) then .stop none
        else
          let owner := mutex.ownerThreadId
          match (u.findThread owner false).2 with
          | none => .stop none
          | some k =>
            let ownerThread := u.threadStates.slots k
            if ownerThread.traceTainted || ownerThread.exited then .stop none
            else
              let path := path ++ [(currentThreadId, thread.waitingMutex)]
              if owner = startThreadId then
                if path.length < 2 then .stop none else .stop (some path)
              else if (path.map Prod.fst).contains owner then .stop none
              else .next owner path

def findCycleLoop (startThreadId : ℕ) : ℕ → ℕ → List (ℕ × ℕ) → Option (List (ℕ × ℕ))
  | 0, _, _ => none
  | steps + 1, currentThreadId, path =>
    (u.findCyclePass startThreadId currentThreadId path).resume
      (findCycleLoop startThreadId steps)

/-- The loop without a limit: a pass for each thread of the table is as good as any
larger number of passes. -/
def findCycleFrom (startThreadId : ℕ) : Option (List (ℕ × ℕ)) :=
  u.findCycleLoop startThreadId u.threadStates.count startThreadId []

/-- A mask as wide as the table. -/
def cycleMask (cycle : List (ℕ × ℕ)) : ℕ :=
  cycle.foldl (fun mask wait =>
    match u.threadStates.find threadLayout wait.1 with
    | some i => mask ||| 1 <<< i
    | none => mask) 0

def findAnyCycle : Option (List (ℕ × ℕ)) :=
  (List.range u.threadStates.count).findSome? fun i =>
    let thread := u.threadStates.slots i
    if !thread.used || thread.traceTainted || decide (thread.waitingMutex = 0) then none
    else u.findCycleFrom thread.threadId

def printedOwner (address : ℕ) : ℕ :=
  match (u.findMutex address false).2 with
  | some j =>
    if (u.mutexStates.slots j).ownerKnown then (u.mutexStates.slots j).ownerThreadId else 0
  | none => 0

def reportDeadlockCycle (cycle : List (ℕ × ℕ)) : UnboundedState :=
  { u with
    deadlockCycleViolations := succ64 u.deadlockCycleViolations
    reports := u.reports ++ [.deadlockCycle u.lastProcessedSequence cycle
      (cycle.map fun wait => u.printedOwner wait.2)] }

def resetCycles : UnboundedState :=
  { u with candidateCycleMask := 0, candidateCycleConfirmations := 0, reportedCycleMask := 0 }

def confirmCycle (cycle : List (ℕ × ℕ)) : UnboundedState :=
  let mask := u.cycleMask cycle
  if u.candidateCycleMask ≠ mask then
    { u with candidateCycleMask := mask, candidateCycleConfirmations := 1 }
  else
    let u :=
      if u.candidateCycleConfirmations < uint32Max then
        { u with candidateCycleConfirmations := u.candidateCycleConfirmations + 1 }
      else u
    if u.candidateCycleConfirmations < deadlockConfirmationsRequired then u
    else if u.reportedCycleMask = mask then u
    else { u with reportedCycleMask := mask }.reportDeadlockCycle cycle

def checkDeadlocks : UnboundedState :=
  if u.waitingThreadCount < 2 then u.resetCycles
  else
    match u.findAnyCycle with
    | none => u.resetCycles
    | some cycle => u.confirmCycle cycle

end Cycles

def applyCall (u : UnboundedState) : Call → UnboundedState
  | .processEvent event => u.processEvent event
  | .checkDeadlocks => u.checkDeadlocks

def runCalls (u : UnboundedState) (calls : List Call) : UnboundedState :=
  calls.foldl applyCall u

section Search

variable {u : UnboundedState} {start current owner steps : ℕ} {path path' : List (ℕ × ℕ)}

theorem findThread_lookup (u : UnboundedState) (threadId : ℕ) :
    (u.findThread threadId false).2 = u.threadStates.find threadLayout threadId := by
  unfold findThread
  cases u.threadStates.find threadLayout threadId <;> rfl

theorem findMutex_lookup (u : UnboundedState) (address : ℕ) :
    (u.findMutex address false).2 = u.mutexStates.find mutexLayout address := by
  unfold findMutex
  cases u.mutexStates.find mutexLayout address <;> rfl

/-- The visited threads are different threads of the table. -/
structure Visited (u : UnboundedState) (path : List (ℕ × ℕ)) (current : ℕ) : Prop where
  nodup : (path.map Prod.fst).Nodup
  known : ∀ threadId ∈ path.map Prod.fst, u.threadStates.find threadLayout threadId ≠ none
  new : current ∉ path.map Prod.fst

/-- A pass that goes on has visited one more thread. -/
theorem findCyclePass_next (h : u.findCyclePass start current path = .next owner path') :
    u.threadStates.find threadLayout current ≠ none ∧
      path'.map Prod.fst = path.map Prod.fst ++ [current] ∧ owner ∉ path'.map Prod.fst := by
  unfold findCyclePass at h
  rw [findThread_lookup] at h
  cases hcurrent : u.threadStates.find threadLayout current with
  | none => simp [hcurrent] at h
  | some i =>
    simp only [hcurrent] at h
    repeat' split at h
    all_goals cases h
    rename_i hseen
    refine ⟨by simp, by simp, ?_⟩
    intro hmem
    exact hseen (List.contains_iff_mem.mpr hmem)

theorem findCyclePass_unknown (h : u.threadStates.find threadLayout current = none) :
    u.findCyclePass start current path = .stop none := by
  unfold findCyclePass
  rw [findThread_lookup, h]

theorem Visited.next (h : u.Visited path current)
    (hpass : u.findCyclePass start current path = .next owner path') : u.Visited path' owner := by
  obtain ⟨hknown, hpath, hnew⟩ := findCyclePass_next hpass
  refine ⟨?_, ?_, hnew⟩
  · rw [hpath, List.nodup_append]
    refine ⟨h.nodup, by simp, ?_⟩
    intro a ha b hb heq
    rw [List.mem_singleton.mp hb] at heq
    exact h.new (heq ▸ ha)
  · intro threadId hmem
    rw [hpath, List.mem_append, List.mem_singleton] at hmem
    rcases hmem with hmem | rfl
    · exact h.known threadId hmem
    · exact hknown

/-- The table has an entry for each visited thread and for the current one. -/
theorem Visited.length_lt (h : u.Visited path current)
    (hknown : u.threadStates.find threadLayout current ≠ none) :
    path.length < u.threadStates.count := by
  have hnodup : (current :: path.map Prod.fst).Nodup := List.nodup_cons.mpr ⟨h.new, h.nodup⟩
  have hsubset : current :: path.map Prod.fst ⊆
      (List.range u.threadStates.count).map fun i => (u.threadStates.slots i).threadId := by
    intro threadId hmem
    have hfound : u.threadStates.find threadLayout threadId ≠ none := by
      rcases List.mem_cons.mp hmem with rfl | hmem
      · exact hknown
      · exact h.known threadId hmem
    obtain ⟨i, hi⟩ := Option.ne_none_iff_exists'.mp hfound
    obtain ⟨hp, hrange, -⟩ := List.find?_range_eq_some.mp hi
    rw [Bool.and_eq_true, decide_eq_true_eq] at hp
    exact List.mem_map.mpr ⟨i, hrange, hp.2⟩
  have hle := (List.subperm_of_subset hnodup hsubset).length_le
  rw [List.length_cons, List.length_map, List.length_map, List.length_range] at hle
  omega

/-- Once there is a pass for each thread left, another one changes nothing. -/
theorem findCycleLoop_succ (h : u.Visited path current)
    (hsteps : u.threadStates.count ≤ path.length + steps) :
    u.findCycleLoop start (steps + 1) current path =
      u.findCycleLoop start steps current path := by
  induction steps generalizing current path with
  | zero =>
    have hnone : u.threadStates.find threadLayout current = none := by
      by_contra hknown
      have hlt := h.length_lt hknown
      omega
    rw [findCycleLoop, findCycleLoop, findCyclePass_unknown hnone]
    rfl
  | succ steps ih =>
    rw [findCycleLoop, findCycleLoop]
    cases hpass : u.findCyclePass start current path with
    | stop cycle => rfl
    | next owner path' =>
      have hpath := congrArg List.length (findCyclePass_next hpass).2.1
      rw [List.length_append, List.length_map, List.length_map, List.length_singleton] at hpath
      exact ih (h.next hpass) (by omega)

/-- The search has no limit that a longer one would exceed. -/
theorem findCycleLoop_enough (u : UnboundedState) (start : ℕ)
    (hsteps : u.threadStates.count ≤ steps) :
    u.findCycleLoop start steps start [] = u.findCycleFrom start := by
  have hvisited : u.Visited [] start := ⟨by simp, by simp, by simp⟩
  induction steps, hsteps using Nat.le_induction with
  | base => rfl
  | succ steps hle ih =>
    rw [findCycleLoop_succ hvisited (by simpa using hle)]
    exact ih

end Search

section Depths

variable {u u' : UnboundedState} {d : ℕ}

/-- No mutex is held recursively more than `d` times. -/
def DepthsAtMost (u : UnboundedState) (d : ℕ) : Prop :=
  ∀ i k, ((u.threadStates.slots i).heldMutexes k).depth ≤ d

theorem DepthsAtMost.mono (h : u.DepthsAtMost d) {e : ℕ} (hle : d ≤ e) : u.DepthsAtMost e :=
  fun i k => (h i k).trans hle

theorem DepthsAtMost.ite {c : Prop} [Decidable c] (hpos : u.DepthsAtMost d)
    (hneg : u'.DepthsAtMost d) : (if c then u else u').DepthsAtMost d := by
  by_cases hc : c
  · rw [if_pos hc]
    exact hpos
  · rw [if_neg hc]
    exact hneg

theorem DepthsAtMost.setThread (h : u.DepthsAtMost d) (i : ℕ) {thread : VerifierThreadState}
    (hthread : ∀ k, (thread.heldMutexes k).depth ≤ d) :
    (u.setThread i thread).DepthsAtMost d := by
  intro m k
  show ((Function.update u.threadStates.slots i thread m).heldMutexes k).depth ≤ d
  by_cases heq : m = i
  · rw [heq, Function.update_self]
    exact hthread k
  · rw [Function.update_of_ne heq]
    exact h m k

theorem DepthsAtMost.findThread (h : u.DepthsAtMost d) {threadId : ℕ} {create : Bool}
    {slot : Option ℕ} (hfind : u.findThread threadId create = (u', slot)) :
    u'.DepthsAtMost d := by
  unfold UnboundedState.findThread at hfind
  repeat' split at hfind
  all_goals cases hfind
  · exact h
  · exact h.setThread u.threadStates.count fun k => Nat.zero_le d
  · exact h

theorem DepthsAtMost.findMutex (h : u.DepthsAtMost d) {address : ℕ} {create : Bool}
    {slot : Option ℕ} (hfind : u.findMutex address create = (u', slot)) :
    u'.DepthsAtMost d := by
  unfold UnboundedState.findMutex at hfind
  repeat' split at hfind
  all_goals cases hfind
  all_goals exact h

theorem DepthsAtMost.decrementWaiting (h : u.DepthsAtMost d) :
    u.decrementWaiting.DepthsAtMost d := by
  unfold UnboundedState.decrementWaiting
  split <;> exact h

theorem DepthsAtMost.markThreadStreamTainted (h : u.DepthsAtMost d) (i barrier : ℕ) :
    (u.markThreadStreamTainted i barrier).DepthsAtMost d := by
  unfold UnboundedState.markThreadStreamTainted
  dsimp only
  split
  · exact h
  · have hwaiting : DepthsAtMost
        (if (u.threadStates.slots i).waitingMutex ≠ 0 then
          { u with taintedThreadStreams := succ32 u.taintedThreadStreams }.decrementWaiting
        else { u with taintedThreadStreams := succ32 u.taintedThreadStreams }) d := by
      split
      · exact DepthsAtMost.decrementWaiting h
      · exact h
    exact hwaiting.setThread i fun k => Nat.zero_le d

theorem DepthsAtMost.observeThreadSequence (h : u.DepthsAtMost d) {event : MonitorEvent}
    {slot : Option ℕ} (hobserve : u.observeThreadSequence event = (u', slot)) :
    u'.DepthsAtMost d := by
  unfold UnboundedState.observeThreadSequence at hobserve
  split at hobserve
  · rename_i hfind
    cases hobserve
    exact h.findThread hfind
  · rename_i u₁ i hfind
    cases hobserve
    have h₁ := h.findThread hfind
    have hinit : (u₁.setThread i { u₁.threadStates.slots i with
        sequenceInitialized := true }).DepthsAtMost d := h₁.setThread i (h₁ i)
    have hchecked : DepthsAtMost
        (if hasGap (u₁.threadStates.slots i) event = true then
          { u₁.setThread i { u₁.threadStates.slots i with sequenceInitialized := true } with
            detectedStreamGaps := succ64 (u₁.setThread i
              { u₁.threadStates.slots i with sequenceInitialized := true }).detectedStreamGaps
            }.markThreadStreamTainted i event.sequenceId
        else u₁.setThread i { u₁.threadStates.slots i with sequenceInitialized := true }) d := by
      split
      · refine DepthsAtMost.markThreadStreamTainted ?_ i event.sequenceId
        exact hinit
      · exact hinit
    exact hchecked.setThread i (hchecked i)

theorem DepthsAtMost.clearThreadWaiting (h : u.DepthsAtMost d) (i address : ℕ) :
    (u.clearThreadWaiting i address).DepthsAtMost d := by
  unfold UnboundedState.clearThreadWaiting
  dsimp only
  split
  · exact h
  · refine DepthsAtMost.decrementWaiting ?_
    exact h.setThread i (h i)

theorem DepthsAtMost.setThreadWaiting (h : u.DepthsAtMost d) (i address sequence : ℕ) :
    (u.setThreadWaiting i address sequence).DepthsAtMost d := by
  have hcounted : DepthsAtMost
      { u with waitingThreadCount := succ32 u.waitingThreadCount } d := h
  unfold UnboundedState.setThreadWaiting
  exact (DepthsAtMost.ite hcounted h).setThread i (h i)

theorem depth_update {heldMutexes : ℕ → VerifierHeldMutex} {held : VerifierHeldMutex}
    (hall : ∀ k, (heldMutexes k).depth ≤ d) (hheld : held.depth ≤ d) (m k : ℕ) :
    (Function.update heldMutexes m held k).depth ≤ d := by
  by_cases heq : k = m
  · rw [heq, Function.update_self]
    exact hheld
  · rw [Function.update_of_ne heq]
    exact hall k

theorem DepthsAtMost.addHeldMutex (h : u.DepthsAtMost d) (i address timestampNs : ℕ) :
    (u.addHeldMutex i address timestampNs).DepthsAtMost (d + 1) := by
  have hnext := h.mono (Nat.le_succ d)
  unfold UnboundedState.addHeldMutex
  dsimp only
  split
  · exact hnext
  · split
    · rename_i m hfind
      exact hnext.setThread i (depth_update (hnext i) (Nat.succ_le_succ (h i m)) m)
    · exact hnext.setThread i (depth_update (hnext i) (Nat.le_add_left 1 d) _)

theorem DepthsAtMost.releaseHeldMutex (h : u.DepthsAtMost d) {event : MonitorEvent} {i : ℕ}
    {flag : Bool} (hrelease : u.releaseHeldMutex event i = (u', flag)) : u'.DepthsAtMost d := by
  unfold UnboundedState.releaseHeldMutex at hrelease
  dsimp only at hrelease
  split at hrelease
  · cases hrelease
    exact h
  · split at hrelease
    · cases hrelease
      exact h
    · rename_i m hfind
      split at hrelease
      · cases hrelease
        exact h.setThread i (depth_update (h i) ((Nat.sub_le _ 1).trans (h i m)) m)
      · cases hrelease
        refine DepthsAtMost.setThread ?_ i
          (depth_update (depth_update (h i) (h i _) m) (Nat.zero_le d) _)
        split <;> exact h

theorem DepthsAtMost.updateOwner (h : u.DepthsAtMost d) (event : MonitorEvent) (j owner : ℕ) :
    (u.updateOwner event j owner).DepthsAtMost d := by
  unfold UnboundedState.updateOwner
  dsimp only
  split <;> exact h

theorem DepthsAtMost.handleThreadExit (h : u.DepthsAtMost d) (event : MonitorEvent) :
    (u.handleThreadExit event).DepthsAtMost d := by
  unfold UnboundedState.handleThreadExit
  split
  · rename_i hfind
    exact h.findThread hfind
  · rename_i u₁ i hfind
    have h₁ := h.findThread hfind
    have hreported : (u₁.reportLockHeldAtThreadExit event
        (u₁.threadStates.slots i)).DepthsAtMost d := h₁
    have hchecked := DepthsAtMost.ite (c := (!(u₁.threadStates.slots i).traceTainted &&
      decide ((u₁.threadStates.slots i).heldCount ≠ 0)) = true) hreported h₁
    have hcleared := DepthsAtMost.ite (c := (u₁.threadStates.slots i).waitingMutex ≠ 0)
      (hchecked.clearThreadWaiting i (u₁.threadStates.slots i).waitingMutex) hchecked
    exact hcleared.setThread i (hcleared i)

theorem DepthsAtMost.handleLockRequest (h : u.DepthsAtMost d) (event : MonitorEvent) :
    (u.handleLockRequest event).DepthsAtMost d := by
  unfold UnboundedState.handleLockRequest
  split
  · rename_i hfind
    exact h.findThread hfind
  · rename_i u₁ i hfind
    dsimp only
    have h₂ : (u₁.findMutex event.objectAddress true).1.DepthsAtMost d :=
      (h.findThread hfind).findMutex rfl
    split
    · refine DepthsAtMost.setThreadWaiting ?_ i _ _
      exact h₂
    · exact h₂.setThreadWaiting i _ _

theorem DepthsAtMost.handleLockAcquired (h : u.DepthsAtMost d) (event : MonitorEvent) :
    (u.handleLockAcquired event).DepthsAtMost (d + 1) := by
  unfold UnboundedState.handleLockAcquired
  split
  rename_i u₁ thread hthread
  split
  rename_i u₂ mutex hmutex
  have h₂ := (h.findThread hthread).findMutex hmutex
  split
  · rename_i i j
    exact ((h₂.clearThreadWaiting i _).addHeldMutex i _ _).updateOwner event j _
  · exact h₂.mono (Nat.le_succ d)

theorem DepthsAtMost.handleUnlocked (h : u.DepthsAtMost d) (event : MonitorEvent) :
    (u.handleUnlocked event).DepthsAtMost d := by
  unfold UnboundedState.handleUnlocked
  split
  rename_i u₁ thread hthread
  split
  rename_i u₂ mutex hmutex
  have h₂ := (h.findThread hthread).findMutex hmutex
  split
  rename_i u₃ flag hrelease
  have h₃ : u₃.DepthsAtMost d := by
    split at hrelease
    · exact h₂.releaseHeldMutex hrelease
    · cases hrelease
      exact h₂
  split
  · exact h₃
  · exact h₃.updateOwner event _ _

/-- The switch deepens a recursion by one at most. -/
theorem DepthsAtMost.handleEvent (h : u.DepthsAtMost d) (event : MonitorEvent) :
    (u.handleEvent event).DepthsAtMost (d + 1) := by
  have hnext := h.mono (Nat.le_succ d)
  unfold UnboundedState.handleEvent
  split
  · unfold UnboundedState.handleThreadStart
    split
    · rename_i hfind
      exact hnext.findThread hfind
    · rename_i u₁ i hfind
      have h₁ := hnext.findThread hfind
      exact h₁.setThread i (h₁ i)
  · exact hnext.handleThreadExit event
  · exact hnext.handleLockRequest event
  · exact h.handleLockAcquired event
  · unfold UnboundedState.handleLockFailed
    split
    · rename_i hfind
      exact hnext.findThread hfind
    · rename_i u₁ i hfind
      exact (hnext.findThread hfind).clearThreadWaiting i event.objectAddress
  · exact hnext.handleUnlocked event
  · unfold UnboundedState.handleUnlockFailed
    split <;> exact hnext
  · exact hnext
  · exact hnext

theorem DepthsAtMost.processEvent (h : u.DepthsAtMost d) (event : MonitorEvent) :
    (u.processEvent event).DepthsAtMost (d + 1) := by
  have hcounted : (u.countEvent event).DepthsAtMost d := h
  unfold UnboundedState.processEvent
  split
  · rename_i hobserve
    exact (hcounted.observeThreadSequence hobserve).mono (Nat.le_succ d)
  · rename_i u₁ i hobserve
    have hobserved := hcounted.observeThreadSequence hobserve
    have hreset : u₁.resetCandidate.DepthsAtMost d := hobserved
    exact hreset.handleEvent event

theorem DepthsAtMost.checkDeadlocks (h : u.DepthsAtMost d) : u.checkDeadlocks.DepthsAtMost d := by
  unfold UnboundedState.checkDeadlocks UnboundedState.confirmCycle
  dsimp only
  repeat' split
  all_goals exact h

/-- A run needs a call for each level of a recursion. -/
theorem DepthsAtMost.runCalls (h : u.DepthsAtMost d) (calls : List Call) :
    (u.runCalls calls).DepthsAtMost (d + calls.length) := by
  induction calls generalizing u d with
  | nil => exact h
  | cons call rest ih =>
    have hcall : (u.applyCall call).DepthsAtMost (d + 1) := by
      cases call with
      | processEvent event => exact h.processEvent event
      | checkDeadlocks => exact h.checkDeadlocks.mono (Nat.le_succ d)
    rw [List.length_cons, Nat.add_comm rest.length 1, ← Nat.add_assoc]
    exact ih hcall

end Depths

end UnboundedState

end RuntimeMonitor.UnboundedVerifier
