import RuntimeMonitor.HeldTables

/-!
The representation invariant of the verifier: distinct keys in both tables,
well-formed held tables and a count of tainted streams that agrees with the
thread table. It holds after initialisation and is kept by every event and every
check. The count of waiting threads agrees with the table too as long as lock
and unlock events name their mutex by a non-null address.
-/
namespace RuntimeMonitor.VerifierInvariant

open EventRecord SlotTables VerifierTables VerifierEvents VerifierSteps VerifierCycles HeldTables

def isWaiting (thread : VerifierThreadState) : Bool := decide (thread.waitingMutex ≠ 0)

structure ThreadOk (thread : VerifierThreadState) : Prop where
  held_ok : HeldOk thread
  tainted_empty : thread.traceTainted = true → thread.heldCount = 0

structure WellFormed (s : VerifierState) : Prop where
  threads_distinct : Distinct threadLayout s.threadStates
  mutexes_distinct : Distinct mutexLayout s.mutexStates
  thread_ok : ∀ i, (s.threadStates i).used = true → ThreadOk (s.threadStates i)
  tainted_count : s.taintedThreadStreams =
    countWhere threadLayout (fun thread => thread.traceTainted) s.threadStates

def WaitingCounted (s : VerifierState) : Prop :=
  s.waitingThreadCount = countWhere threadLayout isWaiting s.threadStates

/-- A lock or unlock event carries the address of a mutex. -/
def NamedMutex (event : MonitorEvent) : Prop :=
  event.eventType.namesMutex = true → event.objectAddress ≠ 0

section Threads

variable (thread : VerifierThreadState) (event : MonitorEvent)

theorem clearWaiting_frame (address : ℕ) :
    (clearWaiting thread address).used = thread.used ∧
      (clearWaiting thread address).threadId = thread.threadId ∧
      (clearWaiting thread address).traceTainted = thread.traceTainted ∧
      (clearWaiting thread address).exited = thread.exited ∧
      (clearWaiting thread address).heldMutexes = thread.heldMutexes ∧
      (clearWaiting thread address).heldCount = thread.heldCount := by
  unfold clearWaiting
  split <;> exact ⟨rfl, rfl, rfl, rfl, rfl, rfl⟩

theorem heldOverflow_clearWaiting (address waiting : ℕ) :
    heldOverflow (clearWaiting thread waiting) address = heldOverflow thread address := by
  obtain ⟨-, -, htaint, -, hmutexes, hcount⟩ := clearWaiting_frame thread waiting
  unfold heldOverflow findHeldMutex
  rw [htaint, hmutexes, hcount]

theorem addHeld_frame (address timestampNs : ℕ) :
    (addHeld thread address timestampNs).used = thread.used ∧
      (addHeld thread address timestampNs).threadId = thread.threadId ∧
      (addHeld thread address timestampNs).traceTainted = thread.traceTainted ∧
      (addHeld thread address timestampNs).exited = thread.exited ∧
      (addHeld thread address timestampNs).waitingMutex = thread.waitingMutex := by
  unfold addHeld
  split
  · exact ⟨rfl, rfl, rfl, rfl, rfl⟩
  · split <;> split <;> exact ⟨rfl, rfl, rfl, rfl, rfl⟩

theorem releaseHeld_frame (address : ℕ) :
    (releaseHeld thread address).used = thread.used ∧
      (releaseHeld thread address).threadId = thread.threadId ∧
      (releaseHeld thread address).traceTainted = thread.traceTainted ∧
      (releaseHeld thread address).exited = thread.exited ∧
      (releaseHeld thread address).waitingMutex = thread.waitingMutex := by
  unfold releaseHeld
  split
  · exact ⟨rfl, rfl, rfl, rfl, rfl⟩
  · split
    · exact ⟨rfl, rfl, rfl, rfl, rfl⟩
    · split <;> exact ⟨rfl, rfl, rfl, rfl, rfl⟩

theorem handleThread_frame :
    (handleThread thread event).used = thread.used ∧
      (handleThread thread event).threadId = thread.threadId ∧
      (handleThread thread event).traceTainted = thread.traceTainted := by
  have hclear := clearWaiting_frame thread
  unfold handleThread
  cases event.eventType with
  | threadExit =>
    simp only
    split
    · exact ⟨(hclear _).1, (hclear _).2.1, (hclear _).2.2.1⟩
    · exact ⟨rfl, rfl, rfl⟩
  | lockAcquired =>
    have hadd := addHeld_frame (clearWaiting thread event.objectAddress) event.objectAddress
      event.timestampNs
    exact ⟨hadd.1.trans (hclear _).1, hadd.2.1.trans (hclear _).2.1,
      hadd.2.2.1.trans (hclear _).2.2.1⟩
  | lockFailed => exact ⟨(hclear _).1, (hclear _).2.1, (hclear _).2.2.1⟩
  | unlocked =>
    have hrelease := releaseHeld_frame thread event.objectAddress
    exact ⟨hrelease.1, hrelease.2.1, hrelease.2.2.1⟩
  | _ => exact ⟨rfl, rfl, rfl⟩

theorem observeThread_frame :
    (observeThread thread event).used = thread.used ∧
      (observeThread thread event).threadId = thread.threadId ∧
      (observeThread thread event).traceTainted =
        (thread.traceTainted || hasGap thread event) := by
  unfold observeThread
  split
  · rename_i h
    simp only [Bool.and_eq_true] at h
    exact ⟨rfl, rfl, by simp [taintThread, h.1]⟩
  · rename_i h
    refine ⟨rfl, rfl, ?_⟩
    cases ht : thread.traceTainted <;> cases hg : hasGap thread event <;> simp_all

theorem threadOk_fresh (threadId : ℕ) : ThreadOk (freshThread threadId) where
  held_ok := heldOk_fresh threadId
  tainted_empty := by simp [freshThread]

variable {thread}

theorem threadOk_clearWaiting (h : ThreadOk thread) (address : ℕ) :
    ThreadOk (clearWaiting thread address) := by
  obtain ⟨-, -, ht, -, hheld, hcount⟩ := clearWaiting_frame thread address
  exact ⟨heldOk_congr h.held_ok hheld hcount, fun htaint => by
    rw [hcount]
    exact h.tainted_empty (ht ▸ htaint)⟩

theorem threadOk_observe (h : ThreadOk thread) : ThreadOk (observeThread thread event) := by
  unfold observeThread
  split
  · exact ⟨heldOk_congr (heldOk_fresh 0) rfl rfl, fun _ => rfl⟩
  · exact ⟨heldOk_congr h.held_ok rfl rfl, h.tainted_empty⟩

theorem threadOk_handle (h : ThreadOk thread) : ThreadOk (handleThread thread event) := by
  unfold handleThread
  cases event.eventType with
  | threadExit =>
    simp only
    split
    · have hclear := threadOk_clearWaiting h thread.waitingMutex
      exact ⟨heldOk_congr hclear.held_ok rfl rfl, hclear.tainted_empty⟩
    · exact ⟨heldOk_congr h.held_ok rfl rfl, h.tainted_empty⟩
  | lockAcquired =>
    have hclear := threadOk_clearWaiting h event.objectAddress
    refine ⟨heldOk_addHeld hclear.held_ok _, fun ht => ?_⟩
    rw [(addHeld_frame _ _ _).2.2.1] at ht
    rw [addHeld_tainted ht]
    exact hclear.tainted_empty ht
  | lockFailed => exact threadOk_clearWaiting h _
  | unlocked =>
    refine ⟨heldOk_releaseHeld h.held_ok, fun ht => ?_⟩
    rw [(releaseHeld_frame _ _).2.2.1] at ht
    rw [releaseHeld_tainted ht]
    exact h.tainted_empty ht
  | threadStart | lockRequest => exact ⟨heldOk_congr h.held_ok rfl rfl, h.tainted_empty⟩
  | _ => exact h

/-- The waiting mutex after the handler, whatever the held table does. -/
theorem handleThread_waiting :
    (handleThread thread event).waitingMutex =
      match event.eventType with
      | .threadExit => 0
      | .lockRequest => event.objectAddress
      | .lockAcquired | .lockFailed =>
          if thread.waitingMutex = event.objectAddress then 0 else thread.waitingMutex
      | _ => thread.waitingMutex := by
  have hclear : ∀ address, (clearWaiting thread address).waitingMutex =
      if thread.waitingMutex = address then 0 else thread.waitingMutex := by
    intro address
    unfold clearWaiting
    by_cases h : thread.waitingMutex = address <;> simp [h]
  unfold handleThread
  cases event.eventType with
  | threadExit =>
    simp only
    split
    · simp [hclear]
    · rename_i h
      simpa using h
  | lockAcquired => simp only [(addHeld_frame _ _ _).2.2.2.2, hclear]
  | lockFailed => exact hclear _
  | unlocked => exact (releaseHeld_frame _ _).2.2.2.2
  | _ => rfl

variable {event}

/-- The handler moves the waiting count by exactly its own thread's change. -/
theorem waitingAfter_eq (hnamed : NamedMutex event) {count : ℕ}
    (hcount : isWaiting thread = true → 0 < count) (hbound : count + 1 < 2 ^ 32) :
    waitingAfter count thread event + (if isWaiting thread then 1 else 0) =
      count + (if isWaiting (handleThread thread event) then 1 else 0) := by
  unfold isWaiting at *
  rw [handleThread_waiting]
  unfold waitingAfter NamedMutex at *
  simp only [decide_eq_true_eq] at *
  cases htype : event.eventType <;>
    simp only [htype, MonitorEventType.namesMutex, forall_const, reduceCtorEq, false_imp_iff]
      at hnamed ⊢
  case threadExit =>
    by_cases hw : thread.waitingMutex = 0
    · simp [hw]
    · have := hcount hw
      simp only [hw, ne_eq, not_false_eq_true, if_true, not_true_eq_false, if_false]
      omega
  case lockRequest =>
    by_cases hw : thread.waitingMutex = 0
    · simp [hw, hnamed, succ32]
      omega
    · simp [hw, hnamed]
  case lockAcquired | lockFailed =>
    by_cases hw : thread.waitingMutex = event.objectAddress
    · have := hcount (hw ▸ hnamed)
      simp only [hw, if_true, ne_eq, hnamed, not_false_eq_true, not_true_eq_false, if_false]
      omega
    · simp [hw]

end Threads

section States

variable {s s' : VerifierState} {i : Fin verifierMaxThreads}

theorem wellFormed_init (maxHoldNs : ℕ) : WellFormed (monitorVerifierInit maxHoldNs) where
  threads_distinct := by
    intro a b ha
    simp [monitorVerifierInit] at ha
  mutexes_distinct := by
    intro a b ha
    simp [monitorVerifierInit] at ha
  thread_ok := by simp [monitorVerifierInit]
  tainted_count := by simp [monitorVerifierInit, countWhere]

theorem waitingCounted_init (maxHoldNs : ℕ) :
    WaitingCounted (monitorVerifierInit maxHoldNs) := by
  simp [WaitingCounted, monitorVerifierInit, countWhere]

theorem WellFormed.congr (h : WellFormed s) (hthreads : s'.threadStates = s.threadStates)
    (hmutexes : s'.mutexStates = s.mutexStates)
    (htainted : s'.taintedThreadStreams = s.taintedThreadStreams) : WellFormed s' := by
  obtain ⟨h₁, h₂, h₃, h₄⟩ := h
  constructor <;> simp only [hthreads, hmutexes, htainted] <;> assumption

theorem WaitingCounted.congr (h : WaitingCounted s) (hthreads : s'.threadStates = s.threadStates)
    (hwaiting : s'.waitingThreadCount = s.waitingThreadCount) : WaitingCounted s' := by
  unfold WaitingCounted
  rw [hthreads, hwaiting]
  exact h

theorem WaitingCounted.pos (h : WaitingCounted s) (hused : (s.threadStates i).used = true)
    (hw : isWaiting (s.threadStates i) = true) : 0 < s.waitingThreadCount :=
  h ▸ countWhere_pos hused hw

theorem WaitingCounted.le (h : WaitingCounted s) : s.waitingThreadCount ≤ verifierMaxThreads :=
  h ▸ countWhere_le _ _

theorem WellFormed.tainted_le (h : WellFormed s) :
    s.taintedThreadStreams ≤ verifierMaxThreads :=
  h.tainted_count ▸ countWhere_le _ _

/-- Rewriting a used slot keeps the invariant when the count of tainted streams
follows. -/
theorem WellFormed.rewrite (h : WellFormed s) (hused : (s.threadStates i).used = true)
    {thread : VerifierThreadState} (hok : ThreadOk thread) (hused' : thread.used = true)
    (hid : thread.threadId = (s.threadStates i).threadId)
    (hthreads : s'.threadStates = Function.update s.threadStates i thread)
    (hmutexes : Distinct mutexLayout s'.mutexStates)
    (htainted : s'.taintedThreadStreams +
        (if (s.threadStates i).traceTainted then 1 else 0) =
      s.taintedThreadStreams + (if thread.traceTainted then 1 else 0)) : WellFormed s' where
  threads_distinct := hthreads ▸ distinct_update h.threads_distinct hused hid
  mutexes_distinct := hmutexes
  thread_ok j hj := by
    rw [hthreads] at hj ⊢
    by_cases hji : j = i
    · subst hji
      rwa [Function.update_self]
    · rw [Function.update_of_ne hji] at hj ⊢
      exact h.thread_ok j hj
  tainted_count := by
    have hcount := countWhere_update (L := threadLayout)
      (fun thread => thread.traceTainted) s.threadStates i thread
    rw [← hthreads, ← h.tainted_count] at hcount
    simp only [hused, hused', Bool.true_and] at hcount
    omega

theorem WaitingCounted.rewrite (h : WaitingCounted s) (hused : (s.threadStates i).used = true)
    {thread : VerifierThreadState} (hused' : thread.used = true)
    (hthreads : s'.threadStates = Function.update s.threadStates i thread)
    (hwaiting : s'.waitingThreadCount + (if isWaiting (s.threadStates i) then 1 else 0) =
      s.waitingThreadCount + (if isWaiting thread then 1 else 0)) : WaitingCounted s' := by
  have hcount := countWhere_update (L := threadLayout) isWaiting s.threadStates i thread
  unfold WaitingCounted at *
  rw [← hthreads, ← h] at hcount
  simp only [hused, hused', Bool.true_and] at hcount
  omega

theorem WellFormed.insert (h : WellFormed s) {threadId : ℕ}
    (hnew : find threadLayout s.threadStates threadId = none)
    (hfree : free threadLayout s.threadStates = some i) :
    WellFormed (s.setThread i (freshThread threadId)) where
  threads_distinct := distinct_insert h.threads_distinct hnew
  mutexes_distinct := h.mutexes_distinct
  thread_ok j hj := by
    change (Function.update s.threadStates i (freshThread threadId) j).used = true at hj
    change ThreadOk (Function.update s.threadStates i (freshThread threadId) j)
    by_cases hji : j = i
    · subst hji
      rw [Function.update_self]
      exact threadOk_fresh threadId
    · rw [Function.update_of_ne hji] at hj ⊢
      exact h.thread_ok j hj
  tainted_count := by
    have hcount := countWhere_update (L := threadLayout)
      (fun thread => thread.traceTainted) s.threadStates i (freshThread threadId)
    have hunused : (s.threadStates i).used = false := free_spec hfree
    simp only [hunused, Bool.false_and, Bool.false_eq_true, if_false] at hcount
    simpa [← h.tainted_count, freshThread, VerifierState.setThread] using hcount.symm

theorem WaitingCounted.insert (h : WaitingCounted s) {threadId : ℕ}
    (hfree : free threadLayout s.threadStates = some i) :
    WaitingCounted (s.setThread i (freshThread threadId)) := by
  have hcount := countWhere_update (L := threadLayout) isWaiting s.threadStates i
    (freshThread threadId)
  have hunused : (s.threadStates i).used = false := free_spec hfree
  unfold WaitingCounted at *
  rw [← h] at hcount
  simp only [hunused, Bool.false_and, Bool.false_eq_true, if_false] at hcount
  simpa [isWaiting, freshThread, VerifierState.setThread] using hcount.symm

/-- The outcomes of looking a thread up and creating its slot when it is new. -/
theorem findThread_cases (s : VerifierState) (threadId : ℕ) :
    (∃ i, find threadLayout s.threadStates threadId = some i ∧
      findThread s threadId true = (s, some i)) ∨
    (∃ i, find threadLayout s.threadStates threadId = none ∧
      free threadLayout s.threadStates = some i ∧
      findThread s threadId true = (s.setThread i (freshThread threadId), some i)) ∨
    (find threadLayout s.threadStates threadId = none ∧
      free threadLayout s.threadStates = none ∧
      findThread s threadId true =
        ({ s with stateOverflowEvents := succ64 s.stateOverflowEvents }, none)) := by
  unfold findThread
  cases hfind : find threadLayout s.threadStates threadId with
  | some i => exact Or.inl ⟨i, rfl, rfl⟩
  | none =>
    cases hfree : free threadLayout s.threadStates with
    | some i => exact Or.inr (Or.inl ⟨i, rfl, rfl, rfl⟩)
    | none => exact Or.inr (Or.inr ⟨rfl, rfl, rfl⟩)

theorem findMutex_cases (s : VerifierState) (address : ℕ) :
    (∃ j, find mutexLayout s.mutexStates address = some j ∧
      findMutex s address true = (s, some j)) ∨
    (∃ j, find mutexLayout s.mutexStates address = none ∧
      free mutexLayout s.mutexStates = some j ∧
      findMutex s address true = (s.setMutex j (freshMutex address), some j)) ∨
    (find mutexLayout s.mutexStates address = none ∧
      free mutexLayout s.mutexStates = none ∧
      findMutex s address true =
        ({ s with stateOverflowEvents := succ64 s.stateOverflowEvents }, none)) := by
  unfold findMutex
  cases hfind : find mutexLayout s.mutexStates address with
  | some j => exact Or.inl ⟨j, rfl, rfl⟩
  | none =>
    cases hfree : free mutexLayout s.mutexStates with
    | some j => exact Or.inr (Or.inl ⟨j, rfl, rfl, rfl⟩)
    | none => exact Or.inr (Or.inr ⟨rfl, rfl, rfl⟩)

/-- The slot of a new thread is found where it was created. -/
theorem find_setThread (h : WellFormed s) {threadId : ℕ}
    (hnew : find threadLayout s.threadStates threadId = none) :
    find threadLayout (s.setThread i (freshThread threadId)).threadStates threadId = some i := by
  have hdistinct : Distinct threadLayout (s.setThread i (freshThread threadId)).threadStates :=
    distinct_insert h.threads_distinct hnew
  rw [find_eq_some_iff hdistinct, setThread_threadStates]
  exact ⟨rfl, rfl⟩

theorem wellFormed_countEvent (h : WellFormed s) (event : MonitorEvent) :
    WellFormed (countEvent s event) := h.congr rfl rfl rfl

theorem wellFormed_resetCandidate (h : WellFormed s) : WellFormed (resetCandidate s) :=
  h.congr rfl rfl rfl

theorem distinct_invalidate (h : Distinct mutexLayout s.mutexStates) (threadId barrier : ℕ) :
    Distinct mutexLayout fun j => invalidateMutex (s.mutexStates j) threadId barrier := by
  apply distinct_map h <;> intro j <;> simp only [invalidateMutex] <;> split <;> rfl

theorem isWaiting_observeThread (thread : VerifierThreadState) (event : MonitorEvent) :
    isWaiting (observeThread thread event) =
      (isWaiting thread && !(hasGap thread event && !thread.traceTainted)) := by
  unfold observeThread isWaiting
  split
  · rename_i h
    rw [h]
    simp [taintThread]
  · rename_i h
    rw [Bool.not_eq_true] at h
    rw [h]
    simp

theorem wellFormed_observedThread (h : WellFormed s) (hused : (s.threadStates i).used = true)
    (event : MonitorEvent) : WellFormed (observedThread s i event) := by
  have hframe := observeThread_frame (s.threadStates i) event
  have hbound : s.taintedThreadStreams ≤ 16 := h.tainted_le
  apply h.rewrite hused (threadOk_observe event (h.thread_ok i hused))
    (hframe.1.trans hused) hframe.2.1 rfl
  · unfold observedThread
    dsimp only
    split
    · exact distinct_invalidate h.mutexes_distinct _ _
    · exact h.mutexes_distinct
  · rw [hframe.2.2]
    unfold observedThread
    dsimp only
    cases (s.threadStates i).traceTainted <;> cases hasGap (s.threadStates i) event <;>
      simp [succ32]
    omega

theorem waitingCounted_observedThread (h : WaitingCounted s)
    (hused : (s.threadStates i).used = true) (event : MonitorEvent) :
    WaitingCounted (observedThread s i event) := by
  have hframe := observeThread_frame (s.threadStates i) event
  have hpos := h.pos hused
  apply h.rewrite hused (hframe.1.trans hused) rfl
  rw [isWaiting_observeThread]
  unfold observedThread
  dsimp only
  generalize (hasGap (s.threadStates i) event && !(s.threadStates i).traceTainted) = taints
  cases hw : isWaiting (s.threadStates i) <;> cases taints <;>
    simp only [isWaiting, decide_eq_true_eq, decide_eq_false_iff_not, not_not, ne_eq] at hw <;>
    simp [hw]
  have := hpos (by simpa [isWaiting] using hw)
  omega

theorem wellFormed_handledThread (h : WellFormed s) (hused : (s.threadStates i).used = true)
    (event : MonitorEvent) : WellFormed (handledThread s i event) := by
  have hframe := handleThread_frame (s.threadStates i) event
  have hmutexes : Distinct mutexLayout (handledThread s i event).mutexStates :=
    h.mutexes_distinct
  apply h.rewrite hused (threadOk_handle event (h.thread_ok i hused))
    (hframe.1.trans hused) hframe.2.1 rfl hmutexes
  rw [hframe.2.2]
  rfl

theorem waitingCounted_handledThread (h : WaitingCounted s)
    (hused : (s.threadStates i).used = true) {event : MonitorEvent}
    (hnamed : NamedMutex event) : WaitingCounted (handledThread s i event) := by
  have hframe := handleThread_frame (s.threadStates i) event
  have hbound : s.waitingThreadCount ≤ 16 := h.le
  exact h.rewrite hused (hframe.1.trans hused) rfl
    (waitingAfter_eq hnamed (h.pos hused) (by omega))

theorem WellFormed.setMutex (h : WellFormed s) {j : Fin verifierMaxMutexes}
    {mutex : VerifierMutexState}
    (hdistinct : Distinct mutexLayout (Function.update s.mutexStates j mutex)) :
    WellFormed (s.setMutex j mutex) :=
  { h with mutexes_distinct := hdistinct }

theorem wellFormed_findMutex (h : WellFormed s) {address : ℕ}
    {j : Option (Fin verifierMaxMutexes)} (hfind : findMutex s address true = (s', j)) :
    WellFormed s' := by
  rcases findMutex_cases s address with ⟨k, -, heq⟩ | ⟨k, hnew, -, heq⟩ | ⟨-, -, heq⟩ <;>
    rw [heq] at hfind <;> cases hfind
  · exact h
  · exact h.setMutex (distinct_insert h.mutexes_distinct hnew)
  · exact h.congr rfl rfl rfl

/-- The entry that the creating lookup returns has the address looked for. -/
theorem findMutex_entry {address : ℕ} {j : Fin verifierMaxMutexes}
    (hfind : findMutex s address true = (s', some j)) :
    (s'.mutexStates j).used = true ∧ (s'.mutexStates j).address = address := by
  rcases findMutex_cases s address with ⟨k, hk, heq⟩ | ⟨k, -, -, heq⟩ | ⟨-, -, heq⟩ <;>
    rw [heq] at hfind <;> cases hfind
  · exact find_spec hk
  · simp [VerifierState.setMutex, freshMutex]

theorem handleMutex_frame (mutex : VerifierMutexState) (thread : VerifierThreadState)
    (event : MonitorEvent) :
    (handleMutex mutex thread event).used = mutex.used ∧
      (handleMutex mutex thread event).address = mutex.address := by
  have hnew : ∀ owner, (newOwner mutex event owner).used = mutex.used ∧
      (newOwner mutex event owner).address = mutex.address := by
    intro owner
    unfold newOwner
    split <;> exact ⟨rfl, rfl⟩
  unfold handleMutex
  split
  · exact hnew _
  · exact hnew _
  · exact ⟨rfl, rfl⟩

theorem wellFormed_handleEvent (h : WellFormed s) {event : MonitorEvent}
    (hfind : find threadLayout s.threadStates event.threadId = some i) :
    WellFormed (handleEvent s event) := by
  have hused : (s.threadStates i).used = true := (find_spec hfind).1
  cases htouch : touchesMutex event with
  | false =>
    rw [handleEvent_plain hfind htouch]
    exact wellFormed_handledThread h hused event
  | true =>
    rcases hmutex : findMutex s event.objectAddress true with ⟨s', j⟩
    have h' := wellFormed_findMutex h hmutex
    have hused' : (s'.threadStates i).used = true := by
      rw [(findMutex_threadStates hmutex).1]
      exact hused
    have hhandled := wellFormed_handledThread h' hused' event
    cases j with
    | none =>
      rw [handleEvent_full hfind hmutex htouch]
      split
      · exact h'
      · exact hhandled
    | some j =>
      rw [handleEvent_touch hfind hmutex htouch]
      have hframe := handleMutex_frame (s'.mutexStates j) (s'.threadStates i) event
      have hentry := (findMutex_entry hmutex).1
      have hsame : (handledThread s' i event).mutexStates = s'.mutexStates := rfl
      unfold handledMutex
      apply hhandled.setMutex
      rw [hsame]
      exact distinct_update h'.mutexes_distinct hentry hframe.2

theorem waitingCounted_findMutex (h : WaitingCounted s) {address : ℕ}
    {j : Option (Fin verifierMaxMutexes)} (hfind : findMutex s address true = (s', j)) :
    WaitingCounted s' := by
  rcases findMutex_cases s address with ⟨k, -, heq⟩ | ⟨k, -, -, heq⟩ | ⟨-, -, heq⟩ <;>
    rw [heq] at hfind <;> cases hfind <;> exact h.congr rfl rfl

theorem waitingCounted_handleEvent (h : WaitingCounted s) {event : MonitorEvent}
    (hfind : find threadLayout s.threadStates event.threadId = some i)
    (hnamed : NamedMutex event) : WaitingCounted (handleEvent s event) := by
  have hused : (s.threadStates i).used = true := (find_spec hfind).1
  cases htouch : touchesMutex event with
  | false =>
    rw [handleEvent_plain hfind htouch]
    exact waitingCounted_handledThread h hused hnamed
  | true =>
    rcases hmutex : findMutex s event.objectAddress true with ⟨s', j⟩
    have h' := waitingCounted_findMutex h hmutex
    have hused' : (s'.threadStates i).used = true := by
      rw [(findMutex_threadStates hmutex).1]
      exact hused
    have hhandled := waitingCounted_handledThread h' hused' hnamed
    cases j with
    | none =>
      rw [handleEvent_full hfind hmutex htouch]
      split
      · exact h'
      · exact hhandled
    | some j =>
      rw [handleEvent_touch hfind hmutex htouch]
      exact hhandled.congr rfl rfl

/-- An event either finds no room for its thread, or is observed and handled in
the slot `i` that the lookup returns with the state `s₁`. -/
theorem processEvent_cases (h : WellFormed s) (event : MonitorEvent) :
    (find threadLayout s.threadStates event.threadId = none ∧
      free threadLayout s.threadStates = none ∧
      monitorVerifierProcessEvent s event =
        { countEvent s event with stateOverflowEvents := succ64 s.stateOverflowEvents }) ∨
    ∃ s₁ i, findThread (countEvent s event) event.threadId true = (s₁, some i) ∧
      WellFormed s₁ ∧ find threadLayout s₁.threadStates event.threadId = some i ∧
      monitorVerifierProcessEvent s event =
        handleEvent (resetCandidate (observedThread s₁ i event)) event := by
  have hcount := wellFormed_countEvent h event
  unfold monitorVerifierProcessEvent
  rcases findThread_cases (countEvent s event) event.threadId with
    ⟨i, hfind, heq⟩ | ⟨i, hnew, hfree, heq⟩ | ⟨hnew, hfree, heq⟩
  · refine Or.inr ⟨_, i, heq, hcount, hfind, ?_⟩
    rw [observeThreadSequence_eq heq]
  · refine Or.inr ⟨_, i, heq, hcount.insert hnew hfree, find_setThread hcount hnew, ?_⟩
    rw [observeThreadSequence_eq heq]
  · refine Or.inl ⟨hnew, hfree, ?_⟩
    rw [observeThreadSequence_none heq]
    rfl

/-- The sequence check keeps the slot of its thread. -/
theorem find_observedThread (h : WellFormed s) {event : MonitorEvent}
    (hfind : find threadLayout s.threadStates event.threadId = some i) :
    find threadLayout (resetCandidate (observedThread s i event)).threadStates
      event.threadId = some i := by
  obtain ⟨hused, hkey⟩ := find_spec hfind
  have hframe := observeThread_frame (s.threadStates i) event
  have hwf := wellFormed_observedThread h hused event
  apply (find_eq_some_iff (wellFormed_resetCandidate hwf).threads_distinct).mpr
  change (Function.update s.threadStates i (observeThread (s.threadStates i) event) i).used =
    true ∧ (Function.update s.threadStates i
      (observeThread (s.threadStates i) event) i).threadId = event.threadId
  rw [Function.update_self]
  exact ⟨hframe.1.trans hused, hframe.2.1.trans hkey⟩

theorem wellFormed_processEvent (h : WellFormed s) (event : MonitorEvent) :
    WellFormed (monitorVerifierProcessEvent s event) := by
  rcases processEvent_cases h event with ⟨-, -, heq⟩ | ⟨s₁, i, -, h₁, hfind, heq⟩
  · rw [heq]
    exact h.congr rfl rfl rfl
  · rw [heq]
    have hobserved := wellFormed_observedThread h₁ (find_spec hfind).1 event
    exact wellFormed_handleEvent (wellFormed_resetCandidate hobserved)
      (find_observedThread h₁ hfind)

theorem waitingCounted_processEvent (h : WellFormed s) (hcounted : WaitingCounted s)
    {event : MonitorEvent} (hnamed : NamedMutex event) :
    WaitingCounted (monitorVerifierProcessEvent s event) := by
  have hcount : WaitingCounted (countEvent s event) := hcounted.congr rfl rfl
  rcases processEvent_cases h event with ⟨-, -, heq⟩ | ⟨s₁, i, hlookup, h₁, hfind, heq⟩
  · rw [heq]
    exact hcounted.congr rfl rfl
  · rw [heq]
    have hcounted₁ : WaitingCounted s₁ := by
      rcases findThread_cases (countEvent s event) event.threadId with
        ⟨k, -, hk⟩ | ⟨k, -, hfree, hk⟩ | ⟨-, -, hk⟩ <;> rw [hk] at hlookup <;> cases hlookup
      · exact hcount
      · exact hcount.insert hfree
    have hobserved := waitingCounted_observedThread hcounted₁ (find_spec hfind).1 event
    have hreset : WaitingCounted (resetCandidate (observedThread s₁ i event)) :=
      hobserved.congr rfl rfl
    exact waitingCounted_handleEvent hreset (find_observedThread h₁ hfind) hnamed

/-- A check moves the deadlock state and the reports only. -/
theorem check_frame (s : VerifierState) :
    (monitorVerifierCheckDeadlocks s).threadStates = s.threadStates ∧
      (monitorVerifierCheckDeadlocks s).mutexStates = s.mutexStates ∧
      (monitorVerifierCheckDeadlocks s).waitingThreadCount = s.waitingThreadCount ∧
      (monitorVerifierCheckDeadlocks s).taintedThreadStreams = s.taintedThreadStreams ∧
      (monitorVerifierCheckDeadlocks s).stateOverflowEvents = s.stateOverflowEvents ∧
      (monitorVerifierCheckDeadlocks s).detectedStreamGaps = s.detectedStreamGaps ∧
      (monitorVerifierCheckDeadlocks s).processedEvents = s.processedEvents := by
  unfold monitorVerifierCheckDeadlocks
  split
  · exact ⟨rfl, rfl, rfl, rfl, rfl, rfl, rfl⟩
  · split
    · exact ⟨rfl, rfl, rfl, rfl, rfl, rfl, rfl⟩
    · unfold confirmCycle
      dsimp only
      split
      · exact ⟨rfl, rfl, rfl, rfl, rfl, rfl, rfl⟩
      · split <;> split <;> try split
        all_goals exact ⟨rfl, rfl, rfl, rfl, rfl, rfl, rfl⟩

theorem wellFormed_check (h : WellFormed s) :
    WellFormed (monitorVerifierCheckDeadlocks s) := by
  obtain ⟨hthreads, hmutexes, -, htainted, -⟩ := check_frame s
  exact h.congr hthreads hmutexes htainted

theorem wellFormed_runCalls (h : WellFormed s) (calls : List Call) :
    WellFormed (runCalls s calls) := by
  induction calls generalizing s with
  | nil => exact h
  | cons call rest ih =>
    rw [runCalls_cons]
    apply ih
    cases call with
    | processEvent event => exact wellFormed_processEvent h event
    | checkDeadlocks => exact wellFormed_check h

theorem wellFormed_processAll (h : WellFormed s) (events : List MonitorEvent) :
    WellFormed (processAll s events) := by
  rw [processAll_eq_runCalls]
  exact wellFormed_runCalls h _

/-- A call that processes an event processes one that names its mutex. -/
def NamedCall : Call → Prop
  | .processEvent event => NamedMutex event
  | .checkDeadlocks => True

instance (event : MonitorEvent) : Decidable (NamedMutex event) :=
  inferInstanceAs (Decidable (_ → _))

instance : DecidablePred NamedCall
  | .processEvent event => inferInstanceAs (Decidable (NamedMutex event))
  | .checkDeadlocks => inferInstanceAs (Decidable True)

theorem waitingCounted_runCalls (h : WellFormed s) (hcounted : WaitingCounted s)
    {calls : List Call} (hnamed : ∀ call ∈ calls, NamedCall call) :
    WaitingCounted (runCalls s calls) := by
  induction calls generalizing s with
  | nil => exact hcounted
  | cons call rest ih =>
    have hcall := hnamed call (List.mem_cons_self ..)
    have hrest := fun c hc => hnamed c (List.mem_cons_of_mem _ hc)
    rw [runCalls_cons]
    cases call with
    | processEvent event =>
      exact ih (wellFormed_processEvent h event)
        (waitingCounted_processEvent h hcounted hcall) hrest
    | checkDeadlocks =>
      obtain ⟨hthreads, -, hwaiting, -⟩ := check_frame s
      exact ih (wellFormed_check h) (hcounted.congr hthreads hwaiting) hrest

theorem waitingCounted_processAll (h : WellFormed s) (hcounted : WaitingCounted s)
    {events : List MonitorEvent} (hnamed : ∀ event ∈ events, NamedMutex event) :
    WaitingCounted (processAll s events) := by
  rw [processAll_eq_runCalls]
  apply waitingCounted_runCalls h hcounted
  intro call hcall
  obtain ⟨event, hevent, rfl⟩ := List.mem_map.mp hcall
  exact hnamed event hevent

end States

end RuntimeMonitor.VerifierInvariant
