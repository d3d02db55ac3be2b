import RuntimeMonitor.CycleReports

/-!
The confirmation of a cycle before its report. A count of confirmations other than zero
goes back to a check that found a cycle; between that check and the present state no call
has changed a table, as an event that is let in resets the count. So the check that reports
finds the very same cycle.
-/
namespace RuntimeMonitor.ConfirmedCycles

open EventRecord SlotTables VerifierTables VerifierEvents VerifierSteps VerifierCycles
open VerifierInvariant VerifierMaps WaitForCycles CycleReports

/-- A check in this state finds the cycle. -/
def CheckFinds (s : VerifierState) (cycle : List (ℕ × ℕ)) : Prop :=
  2 ≤ s.waitingThreadCount ∧ findAnyCycle s = some cycle

/-- The thread and mutex entries and the number of waiting threads are the same. -/
structure SameTables (s s' : VerifierState) : Prop where
  threads : s'.threadStates = s.threadStates
  mutexes : s'.mutexStates = s.mutexStates
  waiting : s'.waitingThreadCount = s.waitingThreadCount

/-- The calls change no table from a state on, and each event among them is given up
because the thread table is full. -/
def Unchanged (start : VerifierState) (during : List Call) : Prop :=
  ∀ done rest, during = done ++ rest → SameTables start (runCalls start done) ∧
    ∀ event more, rest = .processEvent event :: more →
      ¬ ThreadRoom (runCalls start done) event.threadId

variable {s s' start : VerifierState} {cycle : List (ℕ × ℕ)} {calls during : List Call}

theorem findCyclePass_congr (h : SameTables s s') : findCyclePass s' = findCyclePass s := by
  funext first current path
  unfold findCyclePass
  simp only [findThread_lookup, findMutex_lookup, h.threads, h.mutexes]

theorem findAnyCycle_congr (h : SameTables s s') : findAnyCycle s' = findAnyCycle s := by
  have hloop : ∀ first steps current path,
      findCycleLoop s' first steps current path = findCycleLoop s first steps current path := by
    intro first steps
    induction steps with
    | zero => exact fun _ _ => rfl
    | succ steps ih =>
      intro current path
      have htail : findCycleLoop s' first steps = findCycleLoop s first steps := by
        funext next visited
        exact ih next visited
      unfold findCycleLoop
      rw [findCyclePass_congr h, htail]
  unfold findAnyCycle findCycleFrom
  simp only [h.threads, hloop]

theorem CheckFinds.congr (h : CheckFinds s cycle) (hsame : SameTables s s') :
    CheckFinds s' cycle := by
  unfold CheckFinds
  rw [hsame.waiting, findAnyCycle_congr hsame]
  exact h

theorem SameTables.trans {s₁ s₂ s₃ : VerifierState} (h : SameTables s₁ s₂)
    (h' : SameTables s₂ s₃) : SameTables s₁ s₃ :=
  ⟨h'.threads.trans h.threads, h'.mutexes.trans h.mutexes, h'.waiting.trans h.waiting⟩

theorem sameTables_check (s : VerifierState) :
    SameTables s (monitorVerifierCheckDeadlocks s) := by
  obtain ⟨hthreads, hmutexes, hwaiting, -⟩ := check_frame s
  exact ⟨hthreads, hmutexes, hwaiting⟩

/-- An event without a slot for its thread changes counters only. -/
theorem sameTables_noRoom (h : WellFormed s) {event : MonitorEvent}
    (hroom : ¬ ThreadRoom s event.threadId) :
    SameTables s (monitorVerifierProcessEvent s event) ∧
      (monitorVerifierProcessEvent s event).candidateCycleConfirmations =
        s.candidateCycleConfirmations := by
  rw [processEvent_noRoom h hroom]
  exact ⟨⟨rfl, rfl, rfl⟩, rfl⟩

theorem unchanged_check (start : VerifierState) : Unchanged start [.checkDeadlocks] := by
  intro done rest heq
  cases done with
  | nil =>
    refine ⟨⟨rfl, rfl, rfl⟩, ?_⟩
    intro event more hrest
    rw [List.nil_append, hrest] at heq
    simp at heq
  | cons call more =>
    rw [List.cons_append, List.cons.injEq] at heq
    obtain ⟨rfl, hnil⟩ := heq
    obtain ⟨rfl, rfl⟩ := List.append_eq_nil_iff.mp hnil.symm
    exact ⟨sameTables_check start, by simp⟩

/-- The calls go on with one that changes no table. -/
theorem Unchanged.snoc {call : Call} (h : Unchanged start during)
    (hsame : SameTables (runCalls start during) (runCalls start (during ++ [call])))
    (hfull : ∀ event, call = .processEvent event →
      ¬ ThreadRoom (runCalls start during) event.threadId) :
    Unchanged start (during ++ [call]) := by
  intro done rest heq
  have hbefore := (h during [] (List.append_nil _).symm).1
  cases rest using List.reverseRecOn with
  | nil =>
    rw [List.append_nil] at heq
    rw [← heq]
    exact ⟨hbefore.trans hsame, by simp⟩
  | append_singleton rest last =>
    rw [← List.append_assoc] at heq
    obtain ⟨hduring, hlast⟩ := List.append_inj' heq rfl
    obtain ⟨hnow, hevents⟩ := h done rest hduring
    refine ⟨hnow, ?_⟩
    intro event more hrest
    cases rest with
    | nil =>
      rw [List.nil_append, List.cons.injEq] at hrest
      rw [List.append_nil] at hduring
      rw [List.cons.injEq, hrest.1] at hlast
      rw [← hduring]
      exact hfull event hlast.1
    | cons first rest =>
      rw [List.cons_append, List.cons.injEq] at hrest
      exact hevents event rest (by rw [hrest.1])

/-- The candidate goes back to an earlier check of the run. -/
def CandidateFound (maxHoldNs : ℕ) (calls : List Call) : Prop :=
  ∃ earlier between cycle, calls = earlier ++ .checkDeadlocks :: between ∧
    CheckFinds (runCalls (monitorVerifierInit maxHoldNs) earlier) cycle ∧
    Unchanged (runCalls (monitorVerifierInit maxHoldNs) earlier) (.checkDeadlocks :: between)

theorem CandidateFound.snoc {maxHoldNs : ℕ} {call : Call} (h : CandidateFound maxHoldNs calls)
    (hsame : SameTables (runCalls (monitorVerifierInit maxHoldNs) calls)
      (runCalls (monitorVerifierInit maxHoldNs) (calls ++ [call])))
    (hfull : ∀ event, call = .processEvent event →
      ¬ ThreadRoom (runCalls (monitorVerifierInit maxHoldNs) calls) event.threadId) :
    CandidateFound maxHoldNs (calls ++ [call]) := by
  obtain ⟨earlier, between, cycle, rfl, hfinds, hunchanged⟩ := h
  rw [runCalls_append, runCalls_append, runCalls_append] at hsame
  rw [runCalls_append] at hfull
  refine ⟨earlier, between ++ [call], cycle, by rw [List.append_assoc]; rfl, hfinds, ?_⟩
  refine hunchanged.snoc ?_ hfull
  rw [runCalls_append _ _ [call]]
  exact hsame

/-- A confirmation goes back to a check that found a cycle in the same tables. -/
theorem candidate_found (maxHoldNs : ℕ) (calls : List Call)
    (hcandidate : 0 <
      (runCalls (monitorVerifierInit maxHoldNs) calls).candidateCycleConfirmations) :
    CandidateFound maxHoldNs calls := by
  induction calls using List.reverseRecOn with
  | nil => exact absurd hcandidate (Nat.lt_irrefl 0)
  | append_singleton calls call ih =>
    have hwf := wellFormed_runCalls (wellFormed_init maxHoldNs) calls
    have hlast : runCalls (monitorVerifierInit maxHoldNs) (calls ++ [call]) =
        applyCall (runCalls (monitorVerifierInit maxHoldNs) calls) call := by
      rw [runCalls_append]
      rfl
    rw [hlast] at hcandidate
    cases call with
    | processEvent event =>
      by_cases hroom : ThreadRoom (runCalls (monitorVerifierInit maxHoldNs) calls) event.threadId
      · have hreset :
            (monitorVerifierProcessEvent (runCalls (monitorVerifierInit maxHoldNs) calls)
            event).candidateCycleConfirmations = 0 := by
          rw [(processEvent_processed hwf hroom).rest]
        exact absurd hreset (by
          change 0 <
            (monitorVerifierProcessEvent _ event).candidateCycleConfirmations at hcandidate
          omega)
      · obtain ⟨hsame, hcount⟩ := sameTables_noRoom hwf hroom
        have hbefore : 0 < (runCalls (monitorVerifierInit maxHoldNs)
            calls).candidateCycleConfirmations := by
          rw [← hcount]
          exact hcandidate
        refine (ih hbefore).snoc (by rw [hlast]; exact hsame) ?_
        intro other heq
        rw [Call.processEvent.injEq] at heq
        rwa [← heq]
    | checkDeadlocks =>
      have hsame := sameTables_check (runCalls (monitorVerifierInit maxHoldNs) calls)
      by_cases hbefore : 0 < (runCalls (monitorVerifierInit maxHoldNs)
          calls).candidateCycleConfirmations
      · exact (ih hbefore).snoc (by rw [hlast]; exact hsame) (by simp)
      · have hfinds : ∃ cycle,
            CheckFinds (runCalls (monitorVerifierInit maxHoldNs) calls) cycle := by
          unfold CheckFinds
          by_contra hnone
          push Not at hnone
          have hreset : monitorVerifierCheckDeadlocks (runCalls (monitorVerifierInit maxHoldNs)
              calls) = resetCycles (runCalls (monitorVerifierInit maxHoldNs) calls) := by
            unfold monitorVerifierCheckDeadlocks
            by_cases hfew : (runCalls (monitorVerifierInit maxHoldNs) calls).waitingThreadCount <
              2
            · rw [if_pos hfew]
            · rw [if_neg hfew]
              cases hfound : findAnyCycle (runCalls (monitorVerifierInit maxHoldNs) calls) with
              | none => rfl
              | some cycle => exact absurd hfound (hnone cycle (by omega))
          change 0 < (monitorVerifierCheckDeadlocks _).candidateCycleConfirmations at hcandidate
          rw [hreset] at hcandidate
          exact absurd hcandidate (Nat.lt_irrefl 0)
        obtain ⟨cycle, hfinds⟩ := hfinds
        exact ⟨calls, [], cycle, rfl, hfinds, unchanged_check _⟩

/-- A cycle is reported by a check only if an earlier check found the identical cycle and no
call in between changed a table; the events in between found no slot for their thread. -/
theorem report_confirms_earlier_check (maxHoldNs : ℕ) {calls : List Call} {sequence : ℕ}
    {cycle : List (ℕ × ℕ)} {owners : List ℕ}
    (hreport : (monitorVerifierCheckDeadlocks
        (runCalls (monitorVerifierInit maxHoldNs) calls)).reports =
      (runCalls (monitorVerifierInit maxHoldNs) calls).reports ++
        [.deadlockCycle sequence cycle owners]) :
    ∃ earlier between, calls = earlier ++ .checkDeadlocks :: between ∧
      CheckFinds (runCalls (monitorVerifierInit maxHoldNs) earlier) cycle ∧
      CheckFinds (runCalls (monitorVerifierInit maxHoldNs) calls) cycle ∧
      Unchanged (runCalls (monitorVerifierInit maxHoldNs) earlier)
        (.checkDeadlocks :: between) := by
  obtain ⟨hwaiting, hfound, hcandidate⟩ := check_reports hreport
  obtain ⟨earlier, between, other, rfl, hfinds, hunchanged⟩ :=
    candidate_found maxHoldNs _ hcandidate
  have hsame := (hunchanged _ [] (List.append_nil _).symm).1
  rw [← runCalls_append] at hsame
  have hsecond := hfinds.congr hsame
  have hcycle : other = cycle := by
    have hboth := hsecond.2.symm.trans hfound
    rwa [Option.some.injEq] at hboth
  subst hcycle
  exact ⟨earlier, between, rfl, hfinds, hsecond, hunchanged⟩

/-- With 16 threads in the table, two of them in a deadlock, a check is followed by the
first event of another thread. -/
def crowdedCalls : List Call :=
  script (startSteps ((List.range 16).map (· + 1)) ++ deadlockSteps 1 2 100 200 ++
    [none, some (17, .threadStart, 0)])

theorem report_confirms_earlier_check_crowded :
    ∃ earlier between, crowdedCalls = earlier ++ .checkDeadlocks :: between ∧
      CheckFinds (runCalls (monitorVerifierInit 0) earlier) [(1, 200), (2, 100)] ∧
      CheckFinds (runCalls (monitorVerifierInit 0) crowdedCalls) [(1, 200), (2, 100)] ∧
      Unchanged (runCalls (monitorVerifierInit 0) earlier) (.checkDeadlocks :: between) := by
  have hreport : (monitorVerifierCheckDeadlocks
        (runCalls (monitorVerifierInit 0) crowdedCalls)).reports =
      (runCalls (monitorVerifierInit 0) crowdedCalls).reports ++
        [.deadlockCycle 23 [(1, 200), (2, 100)] [2, 1]] := by decide +kernel
  exact report_confirms_earlier_check 0 hreport

end RuntimeMonitor.ConfirmedCycles
