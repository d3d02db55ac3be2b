import RuntimeMonitor.CycleReports

/-!
The deadlock search is sound and complete. The wait-for graph is read off the two
tables slot by slot; the search returns a cycle exactly when the graph has a
directed cycle of at least two threads, whatever tails, self-loops and further
cycles there are, and the shortcut on the number of waiting threads is taken only
where the graph has none.
-/
namespace RuntimeMonitor.CycleDetection

open EventRecord SlotTables VerifierTables VerifierEvents VerifierCycles
open VerifierInvariant VerifierMaps FunctionalCycles WaitForCycles CycleReports

/-- The slot belongs to a used, untainted, non-exited thread. -/
def Live (s : VerifierState) (i : Fin verifierMaxThreads) : Prop :=
  (s.threadStates i).used = true ∧ (s.threadStates i).traceTainted = false ∧
    (s.threadStates i).exited = false

/-- The thread in slot `i` waits for `mutex`, which is known to be owned by `owner`. -/
def WaitsOwned (s : VerifierState) (i : Fin verifierMaxThreads) (mutex owner : ℕ) : Prop :=
  (s.threadStates i).waitingMutex = mutex ∧ mutex ≠ 0 ∧
    ∃ j, (s.mutexStates j).used = true ∧ (s.mutexStates j).address = mutex ∧
      (s.mutexStates j).ownerKnown = true ∧ (s.mutexStates j).ownerThreadId = owner ∧ owner ≠ 0

/-- An edge from a live thread to the live owner of the mutex it waits for. -/
def EdgeVia (s : VerifierState) (threadId mutex owner : ℕ) : Prop :=
  (∃ i, Live s i ∧ (s.threadStates i).threadId = threadId ∧ WaitsOwned s i mutex owner) ∧
    ∃ k, Live s k ∧ (s.threadStates k).threadId = owner

/-- A directed cycle of the graph, as the list of its threads. -/
structure DirectedCycle (s : VerifierState) (threads : List ℕ) : Prop where
  long : 2 ≤ threads.length
  distinct : threads.Nodup
  edges : ∀ i threadId owner, threads[i]? = some threadId →
    threads[(i + 1) % threads.length]? = some owner → ∃ mutex, EdgeVia s threadId mutex owner

/-- What the search promises about the arrays it fills and the mask. -/
structure Detected (s : VerifierState) (cycle : List (ℕ × ℕ)) (mask : ℕ) : Prop where
  distinct : (cycle.map Prod.fst).Nodup
  long : 2 ≤ cycle.length
  bounded : cycle.length ≤ verifierMaxThreads
  waits : ∀ i threadId mutex owner, cycle[i]? = some (threadId, mutex) →
    (cycle.map Prod.fst)[(i + 1) % cycle.length]? = some owner → EdgeVia s threadId mutex owner
  bits : ∀ b, mask.testBit b = true ↔
    ∃ i : Fin verifierMaxThreads, i.val = b ∧ (s.threadStates i).used = true ∧
      (s.threadStates i).threadId ∈ cycle.map Prod.fst

variable {s : VerifierState} {cycle : List (ℕ × ℕ)} {threads : List ℕ}
  {threadId mutex owner : ℕ}

/-- The graph of the tables is the graph that the search walks. -/
theorem edgeVia_iff (hwf : WellFormed s) :
    EdgeVia s threadId mutex owner ↔
      waitsFor s threadId = some owner ∧ waitOf s threadId = (threadId, mutex) := by
  have hthreads := fun (id : ℕ) (x : VerifierThreadState) =>
    @lookup_eq_some_iff _ _ _ _ threadLayout s.threadStates id x hwf.threads_distinct
  have hmutexes := fun (a : ℕ) (x : VerifierMutexState) =>
    @lookup_eq_some_iff _ _ _ _ mutexLayout s.mutexStates a x hwf.mutexes_distinct
  have hwaitOf : ∀ thread, s.threadOf threadId = some thread →
      waitOf s threadId = (threadId, thread.waitingMutex) := by
    intro thread hthread
    unfold waitOf threadAt
    rw [hthread, Option.getD_some]
  rw [waitsFor_eq_some_iff]
  constructor
  · rintro ⟨⟨i, ⟨hused, hclean, hexit⟩, hid, rfl, hwait, j, hmused, haddress, hknown, howner,
      hzero⟩, k, ⟨hkused, hkclean, hkexit⟩, hkid⟩
    have hthread := (hthreads threadId _).mpr ⟨i, hused, hid, rfl⟩
    refine ⟨⟨s.threadStates i, s.mutexStates j, s.threadStates k, hthread, ?_, hwait,
      (hmutexes _ _).mpr ⟨j, hmused, haddress, rfl⟩, hknown, howner, hzero,
      (hthreads _ _).mpr ⟨k, hkused, hkid, rfl⟩, ?_⟩, hwaitOf _ hthread⟩
    · simp [onGraph, hclean, hexit]
    · simp [onGraph, hkclean, hkexit]
  · rintro ⟨⟨thread, entry, ownerThread, hthread, hgraph, hwait, hentry, hknown, howner, hzero,
      hownerThread, hownerGraph⟩, hmutex⟩
    rw [hwaitOf _ hthread, Prod.mk.injEq] at hmutex
    obtain ⟨i, hused, hid, rfl⟩ := (hthreads _ _).mp hthread
    obtain ⟨j, hmused, haddress, rfl⟩ := (hmutexes _ _).mp hentry
    obtain ⟨k, hkused, hkid, rfl⟩ := (hthreads _ _).mp hownerThread
    simp only [onGraph, Bool.and_eq_true, Bool.not_eq_true'] at hgraph hownerGraph
    rw [hmutex.2] at hwait haddress
    exact ⟨⟨i, ⟨hused, hgraph⟩, hid, hmutex.2, hwait, j, hmused, haddress, hknown, howner,
      hzero⟩, k, ⟨hkused, hownerGraph⟩, hkid⟩

/-- A cycle of a partial function, index by index. -/
theorem isCycle_iff {V : Type*} {next : V → Option V} {cycle : List V} (hne : cycle ≠ [])
    (hnodup : cycle.Nodup) :
    IsCycle next cycle ↔ ∀ i v w, cycle[i]? = some v → cycle[(i + 1) % cycle.length]? = some w →
      next v = some w := by
  constructor
  · rintro ⟨-, -, hnext⟩ i v w hv hw
    have hi : i < cycle.length := (List.getElem?_eq_some_iff.mp hv).1
    have hat := congrArg (fun l => l[i]?) hnext
    simp only [List.getElem?_map, List.getElem?_rotate hi, hv, hw, Option.map_some,
      Option.some.injEq] at hat
    exact hat
  · intro h
    refine ⟨hne, hnodup, ?_⟩
    apply List.ext_getElem?
    intro i
    by_cases hi : i < cycle.length
    · have hpos : 0 < cycle.length := by omega
      have hv := List.getElem?_eq_getElem hi
      have hw := List.getElem?_eq_getElem (Nat.mod_lt (i + 1) hpos)
      rw [List.getElem?_map, List.getElem?_map, List.getElem?_rotate hi, hv, hw,
        Option.map_some, Option.map_some, h i _ _ hv hw]
    · rw [List.getElem?_eq_none (by simpa using hi), List.getElem?_eq_none (by simpa using hi)]

theorem DirectedCycle.cycleIn (h : DirectedCycle s threads) (hwf : WellFormed s) :
    CycleIn s (threads.map (waitOf s)) := by
  have hne : threads ≠ [] := by
    rintro rfl
    simpa using h.long
  constructor
  · simpa using h.long
  · rw [map_fst_waitOf, isCycle_iff hne h.distinct]
    intro i v w hv hw
    obtain ⟨mutex, hedge⟩ := h.edges i v w hv hw
    exact ((edgeVia_iff hwf).mp hedge).1
  · intro wait hmem
    obtain ⟨v, -, rfl⟩ := List.mem_map.mp hmem
    rfl

theorem waits_of_cycleIn (h : CycleIn s cycle) (hwf : WellFormed s) (i : ℕ)
    (hwait : cycle[i]? = some (threadId, mutex))
    (hnext : (cycle.map Prod.fst)[(i + 1) % cycle.length]? = some owner) :
    EdgeVia s threadId mutex owner := by
  have hthread : (cycle.map Prod.fst)[i]? = some threadId := by
    rw [List.getElem?_map, hwait]
    rfl
  have hedges := (isCycle_iff h.closed.1 h.closed.2.1).mp h.closed
  rw [List.length_map] at hedges
  refine (edgeVia_iff hwf).mpr ⟨hedges i threadId owner hthread hnext, ?_⟩
  exact h.mutexes _ (List.mem_of_getElem? hwait)

/-- A reported list of threads is a directed cycle of the graph. -/
theorem directedCycle_of_cycleIn (h : CycleIn s cycle) (hwf : WellFormed s) :
    DirectedCycle s (cycle.map Prod.fst) := by
  constructor
  · simpa using h.long
  · exact h.closed.2.1
  · intro i threadId owner hthread hnext
    rw [List.getElem?_map, Option.map_eq_some_iff] at hthread
    obtain ⟨⟨t, mutex⟩, hwait, rfl⟩ := hthread
    rw [List.length_map] at hnext
    exact ⟨mutex, waits_of_cycleIn h hwf i hwait hnext⟩

/-- The scan misses no cycle: it searches from every slot that may lie on one. -/
theorem findAnyCycle_complete (h : CycleIn s cycle) (hwf : WellFormed s) :
    ∃ found, findAnyCycle s = some found := by
  obtain ⟨wait, hwait⟩ := List.exists_mem_of_length_pos (by
    have hlong := h.long
    omega : 0 < cycle.length)
  have hmem : wait.1 ∈ cycle.map Prod.fst := List.mem_map_of_mem hwait
  obtain ⟨i, hused, hkey⟩ := h.slot hwf hmem
  obtain ⟨thread, hthread, hgraph, hwaits⟩ := h.entry hmem
  obtain ⟨found, hfound, -⟩ := findCycleFrom_complete h hwf hmem
  have hslot : s.threadOf (s.threadStates i).threadId = some (s.threadStates i) :=
    lookup_slot hwf.threads_distinct hused
  rw [hkey, hthread, Option.some.injEq] at hslot
  simp only [onGraph, Bool.and_eq_true, Bool.not_eq_true', hslot] at hgraph
  rw [hslot] at hwaits
  rcases Option.eq_none_or_eq_some (findAnyCycle s) with hnone | hsome
  · exfalso
    have hsearch := Fin.findSome?_eq_none_iff.mp hnone i
    simp only [hused, hgraph.1, hwaits, hkey, hfound, Bool.not_true, Bool.or_self, decide_false,
      Bool.false_eq_true, if_false, reduceCtorEq] at hsearch
  · exact hsome

theorem detected_of_cycleIn (h : CycleIn s cycle) (hwf : WellFormed s) :
    Detected s cycle (cycleMask s cycle) := by
  constructor
  · exact h.closed.2.1
  · exact h.long
  · exact h.length_le hwf
  · intro i threadId mutex owner hwait hnext
    exact waits_of_cycleIn h hwf i hwait hnext
  · intro b
    rw [testBit_cycleMask]
    constructor
    · rintro ⟨wait, hmem, i, hi, rfl⟩
      obtain ⟨hused, hkey⟩ := find_spec hi
      have hid : (s.threadStates i).threadId = wait.1 := hkey
      exact ⟨i, rfl, hused, hid ▸ List.mem_map_of_mem hmem⟩
    · rintro ⟨i, rfl, hused, hmem⟩
      obtain ⟨wait, hwait, hid⟩ := List.mem_map.mp hmem
      exact ⟨wait, hwait, i, (find_eq_some_iff hwf.threads_distinct).mpr ⟨hused, hid.symm⟩, rfl⟩

/-- The search finds a cycle exactly when there is one, what it finds is one, and the
early exit of the check is taken only when there is none. -/
theorem cycle_detection_exact (maxHoldNs : ℕ) {calls : List Call} {s : VerifierState}
    (hnamed : ∀ call ∈ calls, NamedCall call)
    (hs : s = runCalls (monitorVerifierInit maxHoldNs) calls) :
    ((∃ found, findAnyCycle s = some found) ↔ ∃ threads, DirectedCycle s threads) ∧
      (∀ found, findAnyCycle s = some found → Detected s found (cycleMask s found)) ∧
      (s.waitingThreadCount < 2 → ¬ ∃ threads, DirectedCycle s threads) := by
  have hinit := wellFormed_init maxHoldNs
  have hwf : WellFormed s := hs ▸ wellFormed_runCalls hinit calls
  have hcounted : WaitingCounted s :=
    hs ▸ waitingCounted_runCalls hinit (waitingCounted_init maxHoldNs) hnamed
  refine ⟨⟨?_, ?_⟩, ?_, ?_⟩
  · rintro ⟨found, hfound⟩
    exact ⟨_, directedCycle_of_cycleIn (findAnyCycle_sound hfound) hwf⟩
  · rintro ⟨threads, hthreads⟩
    exact findAnyCycle_complete (hthreads.cycleIn hwf) hwf
  · intro found hfound
    exact detected_of_cycleIn (findAnyCycle_sound hfound) hwf
  · rintro hfew ⟨threads, hthreads⟩
    have hwaiting := (hthreads.cycleIn hwf).waiting hwf hcounted
    omega

/-- Threads 2 and 3 wait for each other, thread 1 waits for thread 2 and thread 4 for
a mutex of its own. -/
def tailedCycle : List Call :=
  [.processEvent (sampleEvent 0 1 0 200 .lockRequest),
    .processEvent (sampleEvent 1 2 0 200 .lockAcquired),
    .processEvent (sampleEvent 2 3 0 300 .lockAcquired),
    .processEvent (sampleEvent 3 2 1 300 .lockRequest),
    .processEvent (sampleEvent 4 3 1 200 .lockRequest),
    .processEvent (sampleEvent 5 4 0 400 .lockAcquired),
    .processEvent (sampleEvent 6 4 1 400 .lockRequest)]

theorem cycle_detection_exact_tailed :
    findAnyCycle (runCalls (monitorVerifierInit 0) tailedCycle) = some [(2, 300), (3, 200)] ∧
      ∃ threads, DirectedCycle (runCalls (monitorVerifierInit 0) tailedCycle) threads := by
  have hfound : findAnyCycle (runCalls (monitorVerifierInit 0) tailedCycle) =
      some [(2, 300), (3, 200)] := by decide +kernel
  exact ⟨hfound, (cycle_detection_exact 0 (by decide) rfl).1.mp ⟨_, hfound⟩⟩

end RuntimeMonitor.CycleDetection
