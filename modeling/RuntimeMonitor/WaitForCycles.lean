import RuntimeMonitor.FunctionalCycles
import RuntimeMonitor.VerifierMaps
import Mathlib.Order.WellFounded

/-!
The wait-for graph and what the deadlock search finds in it. A thread waits for
at most one other thread, so the graph is a partial function on thread ids; the
search from a thread returns the cycle through it, and the scan over the table
returns the cycle through the thread of the first slot that lies on one.
-/
namespace RuntimeMonitor.WaitForCycles

open EventRecord SlotTables VerifierTables VerifierEvents VerifierSteps VerifierCycles
open VerifierInvariant VerifierMaps FunctionalCycles

/-- The thread takes part in the search. -/
def onGraph (thread : VerifierThreadState) : Bool := !thread.traceTainted && !thread.exited

/-- The thread that a thread waits for: the known owner of its waiting mutex. -/
def waitsFor (s : VerifierState) (threadId : ℕ) : Option ℕ :=
  (s.threadOf threadId).bind fun thread =>
    if onGraph thread && decide (thread.waitingMutex ≠ 0) then
      (s.mutexOf thread.waitingMutex).bind fun mutex =>
        if mutex.ownerKnown && decide (mutex.ownerThreadId ≠ 0) then
          (s.threadOf mutex.ownerThreadId).bind fun owner =>
            if onGraph owner then some mutex.ownerThreadId else none
        else none
    else none

/-- A thread with the mutex it waits for. -/
def waitOf (s : VerifierState) (threadId : ℕ) : ℕ × ℕ :=
  (threadId, (threadAt s threadId).waitingMutex)

/-- The list is a cycle of the wait-for graph of at least two threads, each with
the mutex it waits for. -/
structure CycleIn (s : VerifierState) (cycle : List (ℕ × ℕ)) : Prop where
  long : 2 ≤ cycle.length
  closed : IsCycle (waitsFor s) (cycle.map Prod.fst)
  mutexes : ∀ wait ∈ cycle, waitOf s wait.1 = wait

instance (s : VerifierState) (cycle : List (ℕ × ℕ)) : Decidable (CycleIn s cycle) :=
  decidable_of_iff (2 ≤ cycle.length ∧ IsCycle (waitsFor s) (cycle.map Prod.fst) ∧
      ∀ wait ∈ cycle, waitOf s wait.1 = wait)
    ⟨fun h => ⟨h.1, h.2.1, h.2.2⟩, fun h => ⟨h.long, h.closed, h.mutexes⟩⟩

/-- The cycle runs through the first slot whose thread lies on any cycle. -/
def FirstCycle (s : VerifierState) (cycle : List (ℕ × ℕ)) : Prop :=
  ∃ i : Fin verifierMaxThreads, (s.threadStates i).used = true ∧
    (s.threadStates i).threadId ∈ cycle.map Prod.fst ∧
    ∀ j < i, (s.threadStates j).used = true →
      ∀ other, CycleIn s other → (s.threadStates j).threadId ∉ other.map Prod.fst

variable {s s' : VerifierState} {cycle other : List (ℕ × ℕ)} {threadId owner : ℕ}

theorem waitsFor_eq_some_iff :
    waitsFor s threadId = some owner ↔ ∃ thread mutex ownerThread,
      s.threadOf threadId = some thread ∧ onGraph thread = true ∧ thread.waitingMutex ≠ 0 ∧
      s.mutexOf thread.waitingMutex = some mutex ∧ mutex.ownerKnown = true ∧
      mutex.ownerThreadId = owner ∧ owner ≠ 0 ∧
      s.threadOf owner = some ownerThread ∧ onGraph ownerThread = true := by
  simp only [waitsFor, Option.bind_eq_some_iff, Option.ite_none_right_eq_some,
    Bool.and_eq_true, decide_eq_true_eq, Option.some.injEq]
  constructor
  · rintro ⟨thread, hthread, ⟨hgraph, hwait⟩, mutex, hmutex, ⟨hknown, hzero⟩, ownerThread,
      hownerThread, hg, rfl⟩
    exact ⟨thread, mutex, ownerThread, hthread, hgraph, hwait, hmutex, hknown, rfl, hzero,
      hownerThread, hg⟩
  · rintro ⟨thread, mutex, ownerThread, hthread, hgraph, hwait, hmutex, hknown, rfl, hzero,
      hownerThread, hg⟩
    exact ⟨thread, hthread, ⟨hgraph, hwait⟩, mutex, hmutex, ⟨hknown, hzero⟩, ownerThread,
      hownerThread, hg, rfl⟩

/-- The graph depends on the two tables only. -/
theorem CycleIn.congr (h : CycleIn s cycle) (hthreads : s'.threadStates = s.threadStates)
    (hmutexes : s'.mutexStates = s.mutexStates) : CycleIn s' cycle := by
  have hthreadOf : s'.threadOf = s.threadOf := by
    funext t
    unfold VerifierState.threadOf
    rw [hthreads]
  have hmutexOf : s'.mutexOf = s.mutexOf := by
    funext a
    unfold VerifierState.mutexOf
    rw [hmutexes]
  have hwaits : waitsFor s' = waitsFor s := by
    funext t
    unfold waitsFor
    rw [hthreadOf, hmutexOf]
  constructor
  · exact h.long
  · rw [hwaits]
    exact h.closed
  · intro wait hmem
    rw [← h.mutexes wait hmem]
    unfold waitOf threadAt
    rw [hthreadOf]

theorem findThread_lookup (s : VerifierState) (threadId : ℕ) :
    (findThread s threadId false).2 = find threadLayout s.threadStates threadId := by
  unfold findThread
  cases find threadLayout s.threadStates threadId <;> rfl

theorem findMutex_lookup (s : VerifierState) (address : ℕ) :
    (findMutex s address false).2 = find mutexLayout s.mutexStates address := by
  unfold findMutex
  cases find mutexLayout s.mutexStates address <;> rfl

/-- One pass of the loop follows the edge of its thread. -/
theorem findCyclePass_eq (s : VerifierState) (start current : ℕ) (path : List (ℕ × ℕ)) :
    findCyclePass s start current path =
      match waitsFor s current with
      | none => .stop none
      | some owner =>
        if owner = start then
          if (path ++ [waitOf s current]).length < 2 then .stop none
          else .stop (some (path ++ [waitOf s current]))
        else if ((path ++ [waitOf s current]).map Prod.fst).contains owner then .stop none
        else .next owner (path ++ [waitOf s current]) := by
  have hthreadOf : ∀ t, s.threadOf t =
      (find threadLayout s.threadStates t).map s.threadStates := fun _ => rfl
  have hmutexOf : ∀ a, s.mutexOf a =
      (find mutexLayout s.mutexStates a).map s.mutexStates := fun _ => rfl
  have hoff : ∀ t : VerifierThreadState, (t.traceTainted || t.exited) = !onGraph t := by
    intro t
    simp [onGraph]
  unfold findCyclePass waitsFor waitOf threadAt
  simp only [findThread_lookup, findMutex_lookup, hthreadOf, hmutexOf, hoff]
  generalize find threadLayout s.threadStates = findT
  generalize find mutexLayout s.mutexStates = findM
  cases findT current with
  | none => rfl
  | some i =>
    simp only [Option.map_some, Option.bind_some, Option.getD_some]
    by_cases hgraph : onGraph (s.threadStates i) = true
    · by_cases hwait : (s.threadStates i).waitingMutex = 0
      · simp [hwait]
      simp only [hgraph, hwait, Bool.not_true, Bool.false_eq_true, if_false, ne_eq,
        not_false_eq_true, decide_true, Bool.and_self, if_true]
      cases findM (s.threadStates i).waitingMutex with
      | none => rfl
      | some j =>
        simp only [Option.map_some, Option.bind_some]
        by_cases hknown : (s.mutexStates j).ownerKnown = true
        · by_cases hzero : (s.mutexStates j).ownerThreadId = 0
          · simp [hzero]
          simp only [hknown, hzero, Bool.not_true, decide_false, Bool.or_self,
            Bool.false_eq_true, if_false, not_false_eq_true, decide_true, Bool.and_self,
            if_true]
          cases findT (s.mutexStates j).ownerThreadId with
          | none => rfl
          | some k =>
            simp only [Option.map_some, Option.bind_some]
            by_cases howner : onGraph (s.threadStates k) = true
            · simp only [howner, Bool.not_true, Bool.false_eq_true, if_false, if_true]
            · simp [howner]
        · simp [hknown]
    · simp [hgraph]

/-- The search is the walk along `waitsFor` with the mutexes written beside. -/
theorem findCycleLoop_eq (s : VerifierState) (start steps current : ℕ) (path : List ℕ) :
    findCycleLoop s start steps current (path.map (waitOf s)) =
      (walk (waitsFor s) start steps current path).bind fun found =>
        if found.length < 2 then none else some (found.map (waitOf s)) := by
  induction steps generalizing current path with
  | zero => rfl
  | succ steps ih =>
    have hpath : path.map (waitOf s) ++ [waitOf s current] =
        (path ++ [current]).map (waitOf s) := by simp
    have hthreads : ((path ++ [current]).map (waitOf s)).map Prod.fst = path ++ [current] := by
      rw [List.map_map]
      exact List.map_id _
    rw [findCycleLoop, findCyclePass_eq, walk, hpath, hthreads, List.length_map]
    cases waitsFor s current with
    | none => rfl
    | some owner =>
      simp only
      by_cases hclose : owner = start
      · rw [if_pos hclose, if_pos hclose, Option.bind_some]
        split <;> rfl
      · simp only [if_neg hclose]
        by_cases hseen : owner ∈ path ++ [current]
        · rw [if_pos (List.contains_iff_mem.mpr hseen), if_pos hseen]
          rfl
        · rw [if_neg (fun h => hseen (List.contains_iff_mem.mp h)), if_neg hseen]
          exact ih owner (path ++ [current])

theorem findCycleFrom_eq (s : VerifierState) (threadId : ℕ) :
    findCycleFrom s threadId =
      (walk (waitsFor s) threadId verifierMaxThreads threadId []).bind fun found =>
        if found.length < 2 then none else some (found.map (waitOf s)) :=
  findCycleLoop_eq s threadId verifierMaxThreads threadId []

theorem map_fst_waitOf (s : VerifierState) (threads : List ℕ) :
    (threads.map (waitOf s)).map Prod.fst = threads := by
  rw [List.map_map]
  exact List.map_id _

theorem CycleIn.map_waitOf (h : CycleIn s cycle) :
    (cycle.map Prod.fst).map (waitOf s) = cycle := by
  rw [List.map_map]
  conv_rhs => rw [← List.map_id cycle]
  apply List.map_congr_left
  intro wait hmem
  exact h.mutexes wait hmem

theorem CycleIn.rotated (h : CycleIn s cycle) (hrot : cycle ~r other) : CycleIn s other := by
  obtain ⟨k, rfl⟩ := hrot
  constructor
  · rw [List.length_rotate]
    exact h.long
  · rw [List.map_rotate]
    exact h.closed.rotate k
  · intro wait hmem
    exact h.mutexes wait (List.mem_rotate.mp hmem)

/-- Two cycles through one thread are one cycle. -/
theorem CycleIn.isRotated (h : CycleIn s cycle) (h' : CycleIn s other)
    (hmem : threadId ∈ cycle.map Prod.fst) (hmem' : threadId ∈ other.map Prod.fst) :
    cycle ~r other := by
  have hrot := h.closed.isRotated h'.closed hmem hmem'
  rw [← h.map_waitOf, ← h'.map_waitOf]
  exact hrot.map _

theorem CycleIn.waits (h : CycleIn s cycle) (hmem : threadId ∈ cycle.map Prod.fst) :
    ∃ owner, waitsFor s threadId = some owner := by
  have hin : waitsFor s threadId ∈ (cycle.map Prod.fst).map (waitsFor s) :=
    List.mem_map_of_mem hmem
  rw [h.closed.2.2, List.mem_map] at hin
  obtain ⟨owner, -, heq⟩ := hin
  exact ⟨owner, heq.symm⟩

/-- A thread on a cycle has a slot, is searched from and is counted as waiting. -/
theorem CycleIn.entry (h : CycleIn s cycle) (hmem : threadId ∈ cycle.map Prod.fst) :
    ∃ thread, s.threadOf threadId = some thread ∧ onGraph thread = true ∧
      thread.waitingMutex ≠ 0 := by
  obtain ⟨owner, howner⟩ := h.waits hmem
  obtain ⟨thread, -, -, hthread, hgraph, hwait, -⟩ := waitsFor_eq_some_iff.mp howner
  exact ⟨thread, hthread, hgraph, hwait⟩

theorem CycleIn.slot (h : CycleIn s cycle) (hwf : WellFormed s)
    (hmem : threadId ∈ cycle.map Prod.fst) :
    ∃ i, (s.threadStates i).used = true ∧ (s.threadStates i).threadId = threadId := by
  obtain ⟨thread, hthread, -⟩ := h.entry hmem
  obtain ⟨i, hused, hkey, -⟩ := (lookup_eq_some_iff hwf.threads_distinct).mp hthread
  exact ⟨i, hused, hkey⟩

theorem CycleIn.indexed (h : CycleIn s cycle) : ∀ wait ∈ cycle, threadIndex s wait.1 ≠ none := by
  intro wait hmem hnone
  obtain ⟨thread, hthread, -⟩ := h.entry (List.mem_map_of_mem hmem)
  rw [VerifierState.threadOf, lookup_eq_none_iff.mpr hnone] at hthread
  simp at hthread

theorem CycleIn.length_le (h : CycleIn s cycle) (hwf : WellFormed s) :
    cycle.length ≤ verifierMaxThreads := by
  have hsub : (cycle.map Prod.fst).toFinset ⊆
      Finset.univ.image fun i : Fin verifierMaxThreads => (s.threadStates i).threadId := by
    intro threadId hmem
    obtain ⟨i, -, hkey⟩ := h.slot hwf (List.mem_toFinset.mp hmem)
    exact Finset.mem_image.mpr ⟨i, Finset.mem_univ i, hkey⟩
  have hcard := (Finset.card_le_card hsub).trans Finset.card_image_le
  rw [List.toFinset_card_of_nodup h.closed.2.1, List.length_map, Finset.card_univ,
    Fintype.card_fin] at hcard
  exact hcard

theorem CycleIn.waiting (h : CycleIn s cycle) (hwf : WellFormed s) (hcounted : WaitingCounted s) :
    2 ≤ s.waitingThreadCount := by
  have hsub : (cycle.map Prod.fst).toFinset ⊆
      keysWhere threadLayout isWaiting s.threadStates := by
    intro threadId hmem
    obtain ⟨thread, hthread, -, hwait⟩ := h.entry (List.mem_toFinset.mp hmem)
    exact (mem_keysWhere hwf.threads_distinct).mpr ⟨thread, hthread, by simpa [isWaiting]⟩
  have hcard := Finset.card_le_card hsub
  rw [List.toFinset_card_of_nodup h.closed.2.1, List.length_map,
    card_keysWhere hwf.threads_distinct] at hcard
  rw [hcounted]
  exact h.long.trans hcard

/-- What the search from a thread returns is a cycle through it. -/
theorem findCycleFrom_sound (h : findCycleFrom s threadId = some cycle) :
    CycleIn s cycle ∧ threadId ∈ cycle.map Prod.fst := by
  rw [findCycleFrom_eq, Option.bind_eq_some_iff] at h
  obtain ⟨found, hwalk, hfound⟩ := h
  obtain ⟨hclosed, hhead⟩ := walk_sound (leads_start _ _) hwalk
  split at hfound
  · simp at hfound
  rename_i hlong
  rw [Option.some.injEq] at hfound
  subst hfound
  constructor
  · constructor
    · rw [List.length_map]
      omega
    · rwa [map_fst_waitOf]
    · intro wait hmem
      obtain ⟨v, -, rfl⟩ := List.mem_map.mp hmem
      rfl
  · rw [map_fst_waitOf]
    exact List.mem_of_mem_head? hhead

/-- The search from a thread on a cycle returns the cycle. -/
theorem findCycleFrom_complete (h : CycleIn s cycle) (hwf : WellFormed s)
    (hmem : threadId ∈ cycle.map Prod.fst) :
    ∃ found, findCycleFrom s threadId = some found ∧ cycle ~r found := by
  obtain ⟨wait, hwait, rfl⟩ := List.mem_map.mp hmem
  obtain ⟨before, after, rfl⟩ := List.append_of_mem hwait
  have hrotate : (before ++ wait :: after).rotate before.length = wait :: (after ++ before) :=
    List.rotate_append_length_eq ..
  have hrot : (before ++ wait :: after) ~r wait :: (after ++ before) := ⟨_, hrotate⟩
  have h' := h.rotated hrot
  have hlength := h'.length_le hwf
  have hlong := h'.long
  have hclosed := h'.closed
  rw [List.map_cons] at hclosed
  rw [List.length_cons] at hlength hlong
  refine ⟨_, ?_, hrot⟩
  have hwalk := walk_complete (n := verifierMaxThreads) hclosed (by
    rw [List.length_map]
    omega)
  rw [findCycleFrom_eq, hwalk, Option.bind_some, if_neg (by
    rw [List.length_cons, List.length_map]
    omega), ← List.map_cons, h'.map_waitOf]

/-- What the scan returns is a cycle. -/
theorem findAnyCycle_sound (h : findAnyCycle s = some cycle) : CycleIn s cycle := by
  obtain ⟨i, hi, -⟩ := Fin.findSome?_eq_some_iff.mp h
  dsimp only at hi
  split at hi
  · simp at hi
  · exact (findCycleFrom_sound hi).1

/-- The scan returns the cycle through the first slot that lies on one. -/
theorem findAnyCycle_first (h : CycleIn s cycle) (hwf : WellFormed s)
    (hfirst : FirstCycle s cycle) : ∃ found, findAnyCycle s = some found ∧ cycle ~r found := by
  obtain ⟨i, hused, hmem, hearlier⟩ := hfirst
  obtain ⟨found, hfound, hrot⟩ := findCycleFrom_complete h hwf hmem
  refine ⟨found, Fin.findSome?_eq_some_iff.mpr ⟨i, ?_, ?_⟩, hrot⟩
  · have hslot : s.threadOf (s.threadStates i).threadId = some (s.threadStates i) :=
      lookup_slot hwf.threads_distinct hused
    obtain ⟨thread, hthread, hgraph, hwait⟩ := h.entry hmem
    rw [hslot, Option.some.injEq] at hthread
    rw [← hthread] at hgraph hwait
    simp only [onGraph, Bool.and_eq_true, Bool.not_eq_true'] at hgraph
    simp [hused, hgraph.1, hwait, hfound]
  · intro j hj
    dsimp only
    split
    · rfl
    · rename_i hsearched
      have husedj : (s.threadStates j).used = true := by
        by_contra hcon
        simp [hcon] at hsearched
      cases hother : findCycleFrom s (s.threadStates j).threadId with
      | none => rfl
      | some other =>
        obtain ⟨hin, hthread⟩ := findCycleFrom_sound hother
        exact absurd hthread (hearlier j hj husedj other hin)

/-- A cycle that is the only one is the first one. -/
theorem firstCycle_of_unique (h : CycleIn s cycle) (hwf : WellFormed s)
    (hunique : ∀ other, CycleIn s other → cycle ~r other) : FirstCycle s cycle := by
  obtain ⟨wait, hwait⟩ := List.exists_mem_of_length_pos (by
    have := h.long
    omega : 0 < cycle.length)
  obtain ⟨k, hk, hkey⟩ := h.slot hwf (List.mem_map_of_mem hwait)
  obtain ⟨i, ⟨hused, hmem⟩, hmin⟩ := wellFounded_lt.has_min
    {i : Fin verifierMaxThreads | (s.threadStates i).used = true ∧
      (s.threadStates i).threadId ∈ cycle.map Prod.fst}
    ⟨k, hk, by rw [hkey]; exact List.mem_map_of_mem hwait⟩
  refine ⟨i, hused, hmem, ?_⟩
  intro j hj hjused other hother hthread
  have hrot := hunique other hother
  exact hmin j ⟨hjused, (hrot.map Prod.fst).mem_iff.mpr hthread⟩ hj

end RuntimeMonitor.WaitForCycles
