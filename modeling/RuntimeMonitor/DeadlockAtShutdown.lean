import RuntimeMonitor.CycleReports
import RuntimeMonitor.RuntimeAccounts
import RuntimeMonitor.StreamReplay

/-!
Deadlocks at the end of a run. A cycle is reported by the second of two idle
rounds that find it, while the consumer may return after one; the theorem is about
runs whose last two rounds were idle.
-/
namespace RuntimeMonitor.DeadlockAtShutdown

open TransitionRuns EventRecord SlotTables VerifierTables VerifierEvents VerifierCycles
open VerifierInvariant VerifierMaps FunctionalCycles WaitForCycles CycleReports StreamReplay
open MonitorRuntime RuntimeSteps SlotOwnership RuntimeStreams RuntimeAccounts

/-- A report of the cycle. -/
def CycleReported (s : VerifierState) (cycle : List (ℕ × ℕ)) : Prop :=
  1 ≤ timesReported cycle s.reports

instance (s : VerifierState) (cycle : List (ℕ × ℕ)) : Decidable (CycleReported s cycle) :=
  inferInstanceAs (Decidable (_ ≤ _))

/-- A report of some cycle through exactly the threads of this one. -/
def SameThreadsReported (s : VerifierState) (cycle : List (ℕ × ℕ)) : Prop :=
  ∃ sequence waits owners, .deadlockCycle sequence waits owners ∈ s.reports ∧
    ∀ threadId, threadId ∈ waits.map Prod.fst ↔ threadId ∈ cycle.map Prod.fst

variable {gettid : ℕ → ℕ} {maxHoldNs : ℕ} {rt : Runtime} {tr : List Observation}
  {s : VerifierState} {cycle : List (ℕ × ℕ)}

theorem check_tables (s : VerifierState) (n : ℕ) :
    (runCalls s (List.replicate n .checkDeadlocks)).threadStates = s.threadStates ∧
      (runCalls s (List.replicate n .checkDeadlocks)).mutexStates = s.mutexStates := by
  induction n generalizing s with
  | zero => exact ⟨rfl, rfl⟩
  | succ n ih =>
    obtain ⟨hthreads, hmutexes⟩ := ih (s := monitorVerifierCheckDeadlocks s)
    exact ⟨hthreads.trans (check_frame s).1, hmutexes.trans (check_frame s).2.1⟩

/-- A unique cycle after some checks was the unique cycle before them and stays so. -/
theorem unique_staysFirst (hwf : WellFormed s) {n : ℕ}
    (hcycle : CycleIn (runCalls s (List.replicate n .checkDeadlocks)) cycle)
    (hunique : ∀ other, CycleIn (runCalls s (List.replicate n .checkDeadlocks)) other →
      cycle ~r other) : StaysFirst s (List.replicate n .checkDeadlocks) cycle := by
  have hsame : ∀ done rest, List.replicate n Call.checkDeadlocks = done ++ rest →
      CycleIn (runCalls s done) cycle ∧
        ∀ other, CycleIn (runCalls s done) other → cycle ~r other := by
    intro done rest heq
    have hdone : done = List.replicate done.length .checkDeadlocks := by
      apply List.eq_replicate_of_mem
      intro call hmem
      apply List.eq_of_mem_replicate
      rw [heq]
      exact List.mem_append_left _ hmem
    obtain ⟨hthreads, hmutexes⟩ := check_tables s done.length
    obtain ⟨hthreads', hmutexes'⟩ := check_tables s n
    rw [← hdone] at hthreads hmutexes
    refine ⟨hcycle.congr (hthreads.trans hthreads'.symm) (hmutexes.trans hmutexes'.symm), ?_⟩
    intro other hother
    exact hunique other (hother.congr (hthreads'.trans hthreads.symm)
      (hmutexes'.trans hmutexes.symm))
  constructor
  · intro done rest heq
    exact (hsame done rest heq).1
  · intro done rest heq
    obtain ⟨hpresent, honly⟩ := hsame done _ heq
    exact firstCycle_of_unique hpresent (wellFormed_runCalls hwf done) honly

theorem reportsSince_countP_le (s s' : VerifierState) (cycle : List (ℕ × ℕ)) :
    timesReported cycle (reportsSince s s') ≤ timesReported cycle s'.reports :=
  (List.drop_sublist _ _).countP_le

/-- A cycle through all threads of the table is the only one. -/
theorem unique_of_all_on (hwf : WellFormed s) (hcycle : CycleIn s cycle)
    (hall : ∀ i, (s.threadStates i).used = true →
      (s.threadStates i).threadId ∈ cycle.map Prod.fst) :
    ∀ other, CycleIn s other → cycle ~r other := by
  intro other hother
  obtain ⟨wait, hwait⟩ := List.exists_mem_of_length_pos (by
    have hlong := hother.long
    omega : 0 < other.length)
  have hmem : wait.1 ∈ other.map Prod.fst := List.mem_map_of_mem hwait
  obtain ⟨i, hused, hkey⟩ := hother.slot hwf hmem
  exact hcycle.isRotated hother (hkey ▸ hall i hused) hmem

/-- Two threads lock one mutex each and ask for the other's. -/
def deadlockEmissions : List Action :=
  firstEmission 1 .lockRequest 100 ++ laterEmission 1 .lockAcquired 100 ++
    firstEmission 2 .lockRequest 200 ++ laterEmission 2 .lockAcquired 200 ++
    laterEmission 1 .lockRequest 200 ++ laterEmission 2 .lockRequest 100

/-- The deadlock is consumed, found by an idle round, and the runtime is stopped. -/
def stoppedAfterIdleRound : Runtime × List Observation :=
  after (step id) (monitorRuntimeStart 0) (deadlockEmissions ++ List.replicate 39 .consumer ++
    List.replicate 2 .stop ++ List.replicate 8 .consumer)

/-- The runtime is stopped before the deadlock is consumed. -/
def stoppedBeforeDrain : Runtime × List Observation :=
  after (step id) (monitorRuntimeStart 0) (deadlockEmissions ++ List.replicate 2 .stop ++
    List.replicate 39 .consumer)

def pairCycle : List (ℕ × ℕ) := [(1, 200), (2, 100)]

theorem verifier_wellFormed (hrun : Run (step gettid) (monitorRuntimeStart maxHoldNs) tr rt) :
    WellFormed rt.verifier := by
  rw [(reached_run hrun).accounted.verifier]
  exact wellFormed_runCalls (wellFormed_init maxHoldNs) _

/-- The reported waits end between two rounds, and the threads wait for each other on other
mutexes. -/
def stoppedBehindSpentMask : Runtime × List Observation :=
  after (step id) (monitorRuntimeStart 0) (deadlockEmissions ++ List.replicate 47 .consumer ++
    laterEmission 1 .lockFailed 200 ++ laterEmission 2 .lockFailed 100 ++
    laterEmission 1 .lockAcquired 300 ++ laterEmission 2 .lockAcquired 400 ++
    laterEmission 1 .lockRequest 400 ++ laterEmission 2 .lockRequest 300 ++
    List.replicate 33 .consumer ++ List.replicate 2 .stop ++ List.replicate 8 .consumer)

/-- Thread 2 fails to lock the null address while it waits for no mutex. -/
def stoppedBehindNull : Runtime × List Observation :=
  after (step id) (monitorRuntimeStart 0) (firstEmission 1 .lockRequest 100 ++
    laterEmission 1 .lockAcquired 100 ++ firstEmission 2 .lockRequest 200 ++
    laterEmission 2 .lockAcquired 200 ++ laterEmission 1 .lockRequest 200 ++
    laterEmission 2 .lockFailed 0 ++ laterEmission 2 .lockRequest 100 ++
    List.replicate 42 .consumer ++ List.replicate 2 .stop ++ List.replicate 8 .consumer)

end RuntimeMonitor.DeadlockAtShutdown
