import RuntimeMonitor.StreamReplay
import RuntimeMonitor.WaitForCycles
import Mathlib.Data.List.Infix

/-!
When a cycle is reported. The check confirms and de-duplicates cycles by the mask
of their threads' slots. A cycle that every check of an interval finds is reported
at most once in it, and by the second of two checks with no event in between,
unless the reported mask was that of its threads already. Cycles that the checks
do not find, as they are not the first in the table, have neither guarantee.
-/
namespace RuntimeMonitor.CycleReports

open EventRecord SlotTables VerifierTables VerifierEvents VerifierSteps VerifierCycles
open VerifierInvariant VerifierMaps StreamReplay FunctionalCycles WaitForCycles

variable {s s' : VerifierState} {cycle other : List (ℕ × ℕ)}

section Masks

theorem testBit_cycleMask (s : VerifierState) (cycle : List (ℕ × ℕ)) (b : ℕ) :
    (cycleMask s cycle).testBit b = true ↔
      ∃ wait ∈ cycle, ∃ i, threadIndex s wait.1 = some i ∧ i.val = b := by
  have hzero : (∃ wait ∈ cycle, ∃ i, threadIndex s wait.1 = some i ∧ i.val = b) ↔
      Nat.testBit 0 b = true ∨
        ∃ wait ∈ cycle, ∃ i, threadIndex s wait.1 = some i ∧ i.val = b := by
    simp
  rw [hzero]
  clear hzero
  unfold cycleMask
  -- the bits of the cycle come on top of those of the start value
  generalize 0 = mask
  induction cycle generalizing mask with
  | nil => simp
  | cons wait rest ih =>
    rw [List.foldl_cons]
    refine (ih _).trans ?_
    rw [List.exists_mem_cons_iff, ← or_assoc]
    apply or_congr_left
    cases hindex : threadIndex s wait.1 with
    | none => simp
    | some i =>
      have hlt : i.val < 32 := i.isLt.trans (by decide)
      simp only [if_pos hlt, Nat.testBit_or, Bool.or_eq_true, Nat.one_shiftLeft,
        Nat.testBit_two_pow, decide_eq_true_eq, Option.some.injEq, exists_eq_left']

theorem cycleMask_rotated (hrot : cycle ~r other) : cycleMask s cycle = cycleMask s other := by
  apply Nat.eq_of_testBit_eq
  intro b
  rw [Bool.eq_iff_iff, testBit_cycleMask, testBit_cycleMask]
  simp only [hrot.mem_iff]

theorem cycleMask_congr
    (h : ∀ wait ∈ cycle, threadIndex s' wait.1 = threadIndex s wait.1) :
    cycleMask s' cycle = cycleMask s cycle := by
  apply Nat.eq_of_testBit_eq
  intro b
  rw [Bool.eq_iff_iff, testBit_cycleMask, testBit_cycleMask]
  constructor
  · rintro ⟨wait, hmem, i, hi, hb⟩
    exact ⟨wait, hmem, i, by rw [← h wait hmem, hi], hb⟩
  · rintro ⟨wait, hmem, i, hi, hb⟩
    exact ⟨wait, hmem, i, by rw [h wait hmem, hi], hb⟩

/-- Cycles of indexed threads with one mask run through the same threads. -/
theorem threads_of_mask_eq (hmask : cycleMask s cycle = cycleMask s other)
    (hindexed : ∀ wait ∈ cycle, threadIndex s wait.1 ≠ none) {threadId : ℕ}
    (hmem : threadId ∈ cycle.map Prod.fst) : threadId ∈ other.map Prod.fst := by
  obtain ⟨wait, hwait, rfl⟩ := List.mem_map.mp hmem
  obtain ⟨i, hi⟩ := Option.ne_none_iff_exists'.mp (hindexed wait hwait)
  have hbit := (testBit_cycleMask s cycle i.val).mpr ⟨wait, hwait, i, hi, rfl⟩
  rw [hmask, testBit_cycleMask] at hbit
  obtain ⟨wait', hwait', j, hj, hji⟩ := hbit
  have hij : j = i := Fin.ext hji
  subst hij
  have hkey : (s.threadStates j).threadId = wait.1 := (find_spec hi).2
  have hkey' : (s.threadStates j).threadId = wait'.1 := (find_spec hj).2
  rw [← hkey, hkey']
  exact List.mem_map_of_mem hwait'

end Masks

section Slots

/-- Used slots stay used under their thread id. -/
def Kept (s s' : VerifierState) : Prop :=
  ∀ i, (s.threadStates i).used = true →
    (s'.threadStates i).used = true ∧ (s'.threadStates i).threadId = (s.threadStates i).threadId

theorem Kept.congr (h : s'.threadStates = s.threadStates) : Kept s s' := by
  intro i hused
  rw [h]
  exact ⟨hused, rfl⟩

theorem Kept.trans {s₁ s₂ s₃ : VerifierState} (h : Kept s₁ s₂) (h' : Kept s₂ s₃) :
    Kept s₁ s₃ := by
  intro i hused
  obtain ⟨hused', hkey⟩ := h i hused
  obtain ⟨hused'', hkey'⟩ := h' i hused'
  exact ⟨hused'', hkey'.trans hkey⟩

theorem Kept.update {i : Fin verifierMaxThreads} {thread : VerifierThreadState}
    (hthreads : s'.threadStates = Function.update s.threadStates i thread)
    (h : (s.threadStates i).used = true →
      thread.used = true ∧ thread.threadId = (s.threadStates i).threadId) : Kept s s' := by
  intro j hused
  rw [hthreads]
  by_cases hji : j = i
  · subst hji
    rw [Function.update_self]
    exact h hused
  · rw [Function.update_of_ne hji]
    exact ⟨hused, rfl⟩

theorem kept_handledThread (s : VerifierState) (i : Fin verifierMaxThreads)
    (event : MonitorEvent) : Kept s (handledThread s i event) := by
  have hframe := handleThread_frame (s.threadStates i) event
  exact Kept.update rfl fun hused => ⟨hframe.1.trans hused, hframe.2.1⟩

theorem kept_handleEvent {i : Fin verifierMaxThreads} {event : MonitorEvent}
    (hfind : find threadLayout s.threadStates event.threadId = some i) :
    Kept s (handleEvent s event) := by
  cases htouch : touchesMutex event with
  | false =>
    rw [handleEvent_plain hfind htouch]
    exact kept_handledThread s i event
  | true =>
    rcases hmutex : findMutex s event.objectAddress true with ⟨s', j⟩
    have hkept : Kept s s' := Kept.congr (findMutex_threadStates hmutex).1
    have hhandled := hkept.trans (kept_handledThread s' i event)
    cases j with
    | none =>
      rw [handleEvent_full hfind hmutex htouch]
      split
      · exact hkept
      · exact hhandled
    | some j =>
      rw [handleEvent_touch hfind hmutex htouch]
      exact hhandled.trans (Kept.congr rfl)

theorem kept_findThread {threadId : ℕ} {i : Fin verifierMaxThreads}
    (hfind : findThread s threadId true = (s', some i)) : Kept s s' := by
  rcases findThread_cases s threadId with ⟨k, -, heq⟩ | ⟨k, -, hfree, heq⟩ | ⟨-, -, heq⟩ <;>
    rw [heq] at hfind <;> cases hfind
  · exact Kept.congr rfl
  · have hunused : (s.threadStates i).used = false := free_spec hfree
    refine Kept.update rfl ?_
    intro hused
    rw [hunused] at hused
    simp at hused

theorem kept_processEvent (h : WellFormed s) (event : MonitorEvent) :
    Kept s (monitorVerifierProcessEvent s event) := by
  rcases processEvent_cases h event with ⟨-, -, heq⟩ | ⟨s₁, i, hlookup, h₁, hfind, heq⟩
  · rw [heq]
    exact Kept.congr rfl
  · rw [heq]
    have hcount : Kept s (countEvent s event) := Kept.congr rfl
    have hframe := observeThread_frame (s₁.threadStates i) event
    have hobserved : Kept s₁ (resetCandidate (observedThread s₁ i event)) :=
      Kept.update rfl fun hused => ⟨hframe.1.trans hused, hframe.2.1⟩
    exact ((hcount.trans (kept_findThread hlookup)).trans hobserved).trans
      (kept_handleEvent (find_observedThread h₁ hfind))

theorem kept_applyCall (h : WellFormed s) (call : Call) : Kept s (applyCall s call) := by
  cases call with
  | processEvent event => exact kept_processEvent h event
  | checkDeadlocks => exact Kept.congr (check_frame s).1

/-- A thread keeps its index for good. -/
theorem Kept.threadIndex (hkept : Kept s s') (h' : WellFormed s') {threadId : ℕ}
    {i : Fin verifierMaxThreads} (hi : threadIndex s threadId = some i) :
    threadIndex s' threadId = some i := by
  obtain ⟨hused, hkey⟩ := find_spec hi
  obtain ⟨hused', hkey'⟩ := hkept i hused
  exact (find_eq_some_iff h'.threads_distinct).mpr ⟨hused', hkey'.trans hkey⟩

theorem Kept.cycleMask (hkept : Kept s s') (h' : WellFormed s')
    (hindexed : ∀ wait ∈ cycle, VerifierTables.threadIndex s wait.1 ≠ none) :
    VerifierCycles.cycleMask s' cycle = VerifierCycles.cycleMask s cycle := by
  apply cycleMask_congr
  intro wait hmem
  obtain ⟨i, hi⟩ := Option.ne_none_iff_exists'.mp (hindexed wait hmem)
  rw [hi, hkept.threadIndex h' hi]

end Slots

section Reports

/-- The report is of the cycle, whichever thread it starts from. -/
def reportsCycle (cycle : List (ℕ × ℕ)) : Report → Bool
  | .deadlockCycle _ waits _ => decide (cycle ~r waits)
  | _ => false

/-- The number of reports of a cycle. -/
def timesReported (cycle : List (ℕ × ℕ)) (reports : List Report) : ℕ :=
  reports.countP (reportsCycle cycle)

/-- The reports made since a state. -/
def reportsSince (s s' : VerifierState) : List Report := s'.reports.drop s.reports.length

theorem reportsCycle_kind {report : Report} (h : reportKind report ≠ .deadlockCycle) :
    reportsCycle cycle report = false := by
  cases report <;> simp_all [reportsCycle, reportKind]

/-- An event leaves the reported mask alone and reports no cycle. -/
theorem processEvent_cycles (h : WellFormed s) (event : MonitorEvent) :
    (monitorVerifierProcessEvent s event).reportedCycleMask = s.reportedCycleMask ∧
      ∃ made, (monitorVerifierProcessEvent s event).reports = s.reports ++ made ∧
        ∀ report ∈ made, reportKind report ≠ .deadlockCycle := by
  by_cases hroom : ThreadRoom s event.threadId
  · rw [(processEvent_processed h hroom).rest]
    exact ⟨rfl, reportsMade s event, rfl, fun report => handlerReports_kind⟩
  · rw [processEvent_noRoom h hroom]
    exact ⟨rfl, [], (List.append_nil _).symm, by simp⟩

/-- What a check does with the cycle it has found. -/
structure Confirmed (s : VerifierState) (cycle : List (ℕ × ℕ)) (s' : VerifierState) : Prop where
  candidate : s'.candidateCycleMask = cycleMask s cycle
  confirmations : 1 ≤ s'.candidateCycleConfirmations
  outcome :
    (s'.reports = s.reports ∧ s'.reportedCycleMask = s.reportedCycleMask) ∨
    (s.reportedCycleMask ≠ cycleMask s cycle ∧ s'.reportedCycleMask = cycleMask s cycle ∧
      s'.reports = s.reports ++ [.deadlockCycle s.lastProcessedSequence cycle
        (cycle.map fun wait => printedOwner s wait.2)])
  second : s.candidateCycleMask = cycleMask s cycle → 1 ≤ s.candidateCycleConfirmations →
    s'.reportedCycleMask = cycleMask s cycle

theorem printedOwner_congr (h : s'.mutexStates = s.mutexStates) :
    printedOwner s' = printedOwner s := by
  funext address
  unfold printedOwner
  rw [findMutex_lookup, findMutex_lookup, h]

theorem confirmCycle_confirmed (s : VerifierState) (cycle : List (ℕ × ℕ)) :
    Confirmed s cycle (confirmCycle s cycle) := by
  unfold confirmCycle
  generalize hmask : cycleMask s cycle = mask
  dsimp only
  by_cases hcandidate : s.candidateCycleMask = mask
  · have hnot : ¬ s.candidateCycleMask ≠ mask := fun h => h hcandidate
    rw [if_neg hnot]
    generalize hcount : (if s.candidateCycleConfirmations < uint32Max then
      { s with candidateCycleConfirmations := s.candidateCycleConfirmations + 1 } else s) = s₁
    have hs₁ : ∃ confirmations, s₁ = { s with candidateCycleConfirmations := confirmations } ∧
        1 ≤ confirmations ∧
        (1 ≤ s.candidateCycleConfirmations → 2 ≤ confirmations) := by
      rw [← hcount]
      split
      · exact ⟨_, rfl, by omega, by omega⟩
      · rename_i hmax
        have hmax' : uint32Max ≤ s.candidateCycleConfirmations := by omega
        simp only [uint32Max] at hmax'
        exact ⟨s.candidateCycleConfirmations, rfl, by omega, by omega⟩
    obtain ⟨confirmations, rfl, hpos, htwo⟩ := hs₁
    by_cases hfew : confirmations < deadlockConfirmationsRequired
    · rw [if_pos hfew]
      refine ⟨hcandidate.trans hmask.symm, hpos, Or.inl ⟨rfl, rfl⟩, ?_⟩
      intro _ hone
      have := htwo hone
      simp only [deadlockConfirmationsRequired] at hfew
      omega
    · rw [if_neg hfew]
      by_cases hreported : s.reportedCycleMask = mask
      · rw [if_pos hreported]
        exact ⟨hcandidate.trans hmask.symm, hpos, Or.inl ⟨rfl, rfl⟩,
          fun _ _ => hreported.trans hmask.symm⟩
      · rw [if_neg hreported]
        refine ⟨hcandidate.trans hmask.symm, hpos,
          Or.inr ⟨fun h => hreported (h.trans hmask), hmask.symm, ?_⟩, fun _ _ => hmask.symm⟩
        have howner : printedOwner { s with
            candidateCycleConfirmations := confirmations
            reportedCycleMask := mask } = printedOwner s := printedOwner_congr rfl
        simp only [reportDeadlockCycle, howner]
  · rw [if_pos hcandidate]
    exact ⟨hmask.symm, le_refl 1, Or.inl ⟨rfl, rfl⟩,
      fun h => absurd (h.trans hmask) hcandidate⟩

theorem check_cases (s : VerifierState) :
    monitorVerifierCheckDeadlocks s = resetCycles s ∨
      ∃ found, findAnyCycle s = some found ∧
        monitorVerifierCheckDeadlocks s = confirmCycle s found := by
  unfold monitorVerifierCheckDeadlocks
  by_cases hfew : s.waitingThreadCount < 2
  · rw [if_pos hfew]
    exact Or.inl rfl
  rw [if_neg hfew]
  rcases Option.eq_none_or_eq_some (findAnyCycle s) with hnone | ⟨found, hfound⟩
  · rw [hnone]
    exact Or.inl rfl
  · rw [hfound]
    exact Or.inr ⟨found, rfl, rfl⟩

/-- A check that reports a cycle has found it and confirms a candidate. -/
theorem check_reports {sequence : ℕ} {owners : List ℕ}
    (h : (monitorVerifierCheckDeadlocks s).reports =
      s.reports ++ [.deadlockCycle sequence cycle owners]) :
    2 ≤ s.waitingThreadCount ∧ findAnyCycle s = some cycle ∧
      0 < s.candidateCycleConfirmations := by
  have hsilent : ∀ {s' : VerifierState}, s'.reports = s.reports →
      s'.reports ≠ s.reports ++ [.deadlockCycle sequence cycle owners] := by
    intro s' heq hcon
    rw [heq] at hcon
    simpa using congrArg List.length hcon
  unfold monitorVerifierCheckDeadlocks at h
  by_cases hfew : s.waitingThreadCount < 2
  · rw [if_pos hfew] at h
    exact absurd h (hsilent rfl)
  rw [if_neg hfew] at h
  cases hfound : findAnyCycle s with
  | none =>
    rw [hfound] at h
    exact absurd h (hsilent rfl)
  | some found =>
    rw [hfound] at h
    change (confirmCycle s found).reports = _ at h
    have hwaits : found = cycle := by
      rcases (confirmCycle_confirmed s found).outcome with ⟨hsame, -⟩ | ⟨-, -, hmade⟩
      · exact absurd h (hsilent hsame)
      · rw [hmade] at h
        have hreport := List.append_cancel_left h
        rw [List.cons.injEq, Report.deadlockCycle.injEq] at hreport
        exact hreport.1.2.1
    refine ⟨by omega, by rw [hwaits], ?_⟩
    by_contra hfirst
    have hzero : s.candidateCycleConfirmations = 0 := by omega
    -- the first confirmation is below the required number
    unfold confirmCycle at h
    dsimp only at h
    rw [hzero] at h
    split at h
    · exact absurd h (hsilent rfl)
    · have hmax : 0 < uint32Max := by decide
      have hfew' : 0 + 1 < deadlockConfirmationsRequired := by decide
      rw [if_pos hmax, if_pos hfew'] at h
      exact absurd h (hsilent rfl)

/-- A check in a state whose first cycle is the given one confirms that cycle. -/
theorem check_confirms (h : WellFormed s) (hcounted : WaitingCounted s)
    (hcycle : CycleIn s cycle) (hfirst : FirstCycle s cycle) :
    ∃ found, cycle ~r found ∧ Confirmed s found (monitorVerifierCheckDeadlocks s) := by
  obtain ⟨found, hfound, hrot⟩ := findAnyCycle_first hcycle h hfirst
  refine ⟨found, hrot, ?_⟩
  have hwaiting := hcycle.waiting h hcounted
  unfold monitorVerifierCheckDeadlocks
  rw [if_neg (by omega), hfound]
  exact confirmCycle_confirmed s found

end Reports

section Interval

/-- The state of the interval: the given cycle has been reported at most once
since its start, and the reported mask is that of the cycle once it has been. -/
structure IntervalState (start : VerifierState) (cycle : List (ℕ × ℕ)) (s : VerifierState) :
    Prop where
  kept : Kept start s
  extends_reports : ∃ made, s.reports = start.reports ++ made
  once : timesReported cycle (reportsSince start s) ≤ 1
  reported : timesReported cycle (reportsSince start s) = 1 →
    s.reportedCycleMask = cycleMask start cycle
  unreported : timesReported cycle (reportsSince start s) = 0 →
    s.reportedCycleMask = start.reportedCycleMask

variable {start : VerifierState}

theorem reportsSince_self (s : VerifierState) : reportsSince s s = [] := by
  simp [reportsSince]

theorem reportsSince_append {made more : List Report} (h : s.reports = start.reports ++ made)
    (h' : s'.reports = s.reports ++ more) :
    reportsSince start s' = reportsSince start s ++ more := by
  unfold reportsSince
  rw [h', h, List.append_assoc, List.drop_left, List.drop_left]

theorem intervalState_start (cycle : List (ℕ × ℕ)) (s : VerifierState) :
    IntervalState s cycle s where
  kept := Kept.congr rfl
  extends_reports := ⟨[], (List.append_nil _).symm⟩
  once := by simp [reportsSince_self, timesReported]
  reported := by simp [reportsSince_self, timesReported]
  unreported _ := rfl

theorem IntervalState.event (hs : IntervalState start cycle s) (h : WellFormed s)
    (event : MonitorEvent) :
    IntervalState start cycle (monitorVerifierProcessEvent s event) := by
  obtain ⟨hmask, made, hmade, hkinds⟩ := processEvent_cycles h event
  obtain ⟨before, hbefore⟩ := hs.extends_reports
  have hsince := reportsSince_append hbefore hmade
  have hnone : timesReported cycle made = 0 := by
    apply List.countP_eq_zero.mpr
    intro report hmem
    rw [reportsCycle_kind (hkinds report hmem)]
    simp
  have hcount : timesReported cycle (reportsSince start (monitorVerifierProcessEvent s event)) =
      timesReported cycle (reportsSince start s) := by
    rw [hsince, timesReported, List.countP_append]
    exact (congrArg (_ + ·) hnone).trans (Nat.add_zero _)
  constructor
  · exact hs.kept.trans (kept_processEvent h event)
  · exact ⟨before ++ made, by rw [hmade, hbefore, List.append_assoc]⟩
  · rw [hcount]
    exact hs.once
  · rw [hcount, hmask]
    exact hs.reported
  · rw [hcount, hmask]
    exact hs.unreported

theorem IntervalState.check (hs : IntervalState start cycle s) (h : WellFormed s)
    (hcounted : WaitingCounted s) (hstart : CycleIn start cycle) (hcycle : CycleIn s cycle)
    (hfirst : FirstCycle s cycle) :
    IntervalState start cycle (monitorVerifierCheckDeadlocks s) := by
  obtain ⟨found, hrot, hconfirmed⟩ := check_confirms h hcounted hcycle hfirst
  have hmask : cycleMask s found = cycleMask start cycle := by
    rw [← cycleMask_rotated hrot]
    exact hs.kept.cycleMask h hstart.indexed
  have hkept := hs.kept.trans (kept_applyCall h .checkDeadlocks)
  obtain ⟨before, hbefore⟩ := hs.extends_reports
  rcases hconfirmed.outcome with ⟨hreports, hsame⟩ | ⟨hnew, hset, hreports⟩
  · have hsince : reportsSince start (monitorVerifierCheckDeadlocks s) =
        reportsSince start s := by
      unfold reportsSince
      rw [hreports]
    constructor
    · exact hkept
    · exact ⟨before, hreports.trans hbefore⟩
    · rw [hsince]
      exact hs.once
    · rw [hsince, hsame]
      exact hs.reported
    · rw [hsince, hsame]
      exact hs.unreported
  · have hsince := reportsSince_append hbefore hreports
    have hcount : timesReported cycle (reportsSince start (monitorVerifierCheckDeadlocks s)) =
        timesReported cycle (reportsSince start s) + 1 := by
      rw [hsince, timesReported, List.countP_append]
      simp [timesReported, reportsCycle, hrot]
    -- it had not been reported in the interval, for the mask would be spent
    have hzero : timesReported cycle (reportsSince start s) = 0 := by
      have hle := hs.once
      by_contra hne
      have hone : timesReported cycle (reportsSince start s) = 1 := by omega
      exact hnew ((hs.reported hone).trans hmask.symm)
    constructor
    · exact hkept
    · exact ⟨_, by rw [hreports, hbefore, List.append_assoc]⟩
    · omega
    · intro _
      rw [hset, hmask]
    · intro hcon
      omega

/-- The cycle stays present, and the checks find it. -/
structure StaysFirst (start : VerifierState) (during : List Call) (cycle : List (ℕ × ℕ)) :
    Prop where
  present : ∀ done rest, during = done ++ rest → CycleIn (runCalls start done) cycle
  first : ∀ done rest, during = done ++ .checkDeadlocks :: rest →
    FirstCycle (runCalls start done) cycle

theorem intervalState_runCalls (h : WellFormed start) (hcounted : WaitingCounted start)
    {during : List Call} (hnamed : ∀ call ∈ during, NamedCall call)
    (hstays : StaysFirst start during cycle) :
    IntervalState start cycle (runCalls start during) := by
  induction during using List.reverseRecOn with
  | nil => exact intervalState_start cycle start
  | append_singleton done call ih =>
    have hdone : ∀ c ∈ done, NamedCall c := fun c hc => hnamed c (List.mem_append_left _ hc)
    have hs := ih hdone ⟨fun first rest heq => hstays.present first (rest ++ [call])
        (by rw [heq, List.append_assoc]),
      fun first rest heq => hstays.first first (rest ++ [call]) (by rw [heq]; simp)⟩
    have hwf := wellFormed_runCalls h done
    rw [runCalls_append]
    cases call with
    | processEvent event => exact hs.event hwf event
    | checkDeadlocks =>
      exact hs.check hwf (waitingCounted_runCalls h hcounted hdone)
        (hstays.present [] (done ++ [.checkDeadlocks]) rfl)
        (hstays.present done [.checkDeadlocks] rfl) (hstays.first done [] rfl)

/-- Two checks with no event between them spend the mask of the cycle they find. -/
theorem two_checks_spend_mask (hwf : WellFormed s) (hcounted : WaitingCounted s)
    (hcycle : CycleIn s cycle) (hfirst : FirstCycle s cycle) (hwf' : WellFormed s')
    (hcounted' : WaitingCounted s') (hs' : s' = monitorVerifierCheckDeadlocks s)
    (hcycle' : CycleIn s' cycle) (hfirst' : FirstCycle s' cycle) :
    (monitorVerifierCheckDeadlocks s').reportedCycleMask = cycleMask s cycle := by
  obtain ⟨found, hrot, hconfirmed⟩ := check_confirms hwf hcounted hcycle hfirst
  obtain ⟨found', hrot', hconfirmed'⟩ := check_confirms hwf' hcounted' hcycle' hfirst'
  rw [← hs'] at hconfirmed
  have hkept : Kept s s' := hs' ▸ kept_applyCall hwf .checkDeadlocks
  have hsame : cycleMask s' found' = cycleMask s cycle := by
    rw [← cycleMask_rotated hrot']
    exact hkept.cycleMask hwf' hcycle.indexed
  rw [hconfirmed'.second ?_ hconfirmed.confirmations, hsame]
  rw [hconfirmed.candidate, hsame, cycleMask_rotated hrot]

/-- A reported mask stands for a reported cycle through the same slots. -/
def MaskReported (s : VerifierState) : Prop :=
  s.reportedCycleMask ≠ 0 → ∃ sequence waits owners,
    .deadlockCycle sequence waits owners ∈ s.reports ∧
    cycleMask s waits = s.reportedCycleMask ∧ ∀ wait ∈ waits, threadIndex s wait.1 ≠ none

theorem Kept.indexed (hkept : Kept s s') (h' : WellFormed s') {waits : List (ℕ × ℕ)}
    (hindexed : ∀ wait ∈ waits, VerifierTables.threadIndex s wait.1 ≠ none) :
    ∀ wait ∈ waits, VerifierTables.threadIndex s' wait.1 ≠ none := by
  intro wait hmem
  obtain ⟨i, hi⟩ := Option.ne_none_iff_exists'.mp (hindexed wait hmem)
  rw [hkept.threadIndex h' hi]
  simp

theorem MaskReported.keep (hs : MaskReported s) (hkept : Kept s s') (h' : WellFormed s')
    (hmask : s'.reportedCycleMask = s.reportedCycleMask)
    (hreports : ∀ report ∈ s.reports, report ∈ s'.reports) : MaskReported s' := by
  intro hne
  rw [hmask] at hne
  obtain ⟨sequence, waits, owners, hmem, hwaits, hindexed⟩ := hs hne
  refine ⟨sequence, waits, owners, hreports _ hmem, ?_, hkept.indexed h' hindexed⟩
  rw [hmask, ← hwaits]
  exact hkept.cycleMask h' hindexed

theorem maskReported_runCalls (hs : MaskReported s) (h : WellFormed s) (calls : List Call) :
    MaskReported (runCalls s calls) := by
  induction calls generalizing s with
  | nil => exact hs
  | cons call rest ih =>
    rw [runCalls_cons]
    cases call with
    | processEvent event =>
      have hwf := wellFormed_processEvent h event
      refine ih ?_ hwf
      obtain ⟨hmask, made, hmade, -⟩ := processEvent_cycles h event
      refine hs.keep (kept_processEvent h event) hwf hmask ?_
      intro report hmem
      change report ∈ (monitorVerifierProcessEvent s event).reports
      rw [hmade]
      exact List.mem_append_left _ hmem
    | checkDeadlocks =>
      have hwf := wellFormed_check h
      refine ih ?_ hwf
      have hkept : Kept s (monitorVerifierCheckDeadlocks s) := kept_applyCall h .checkDeadlocks
      change MaskReported (monitorVerifierCheckDeadlocks s)
      rcases check_cases s with heq | ⟨found, hfound, heq⟩
      · intro hne
        rw [heq] at hne
        exact absurd rfl hne
      have hconfirmed := confirmCycle_confirmed s found
      rw [← heq] at hconfirmed
      rcases hconfirmed.outcome with ⟨hreports, hmask⟩ | ⟨-, hmask, hreports⟩
      · exact hs.keep hkept hwf hmask (by rw [hreports]; exact fun _ hmem => hmem)
      · intro _
        have hindexed := (findAnyCycle_sound hfound).indexed
        refine ⟨s.lastProcessedSequence, found, found.map fun wait => printedOwner s wait.2,
          ?_, ?_, hkept.indexed hwf hindexed⟩
        · rw [hreports]
          exact List.mem_append_right _ (List.mem_singleton.mpr rfl)
        · rw [hmask]
          exact hkept.cycleMask hwf hindexed

/-- A cycle whose mask is spent runs through the threads of a reported cycle. -/
theorem spent_mask_reported (hs : MaskReported s) (hcycle : CycleIn s cycle)
    (hmask : s.reportedCycleMask = cycleMask s cycle) :
    ∃ sequence waits owners, .deadlockCycle sequence waits owners ∈ s.reports ∧
      ∀ threadId, threadId ∈ waits.map Prod.fst ↔ threadId ∈ cycle.map Prod.fst := by
  have hlong := hcycle.long
  obtain ⟨wait, hmem⟩ := List.exists_mem_of_length_pos (by omega : 0 < cycle.length)
  obtain ⟨i, hi⟩ := Option.ne_none_iff_exists'.mp (hcycle.indexed wait hmem)
  have hbit := (testBit_cycleMask s cycle i.val).mpr ⟨wait, hmem, i, hi, rfl⟩
  have hne : s.reportedCycleMask ≠ 0 := by
    intro hzero
    rw [← hmask, hzero, Nat.zero_testBit] at hbit
    simp at hbit
  obtain ⟨sequence, waits, owners, hreport, hwaits, hindexed⟩ := hs hne
  have hsame := hwaits.trans hmask
  exact ⟨sequence, waits, owners, hreport, fun threadId =>
    ⟨threads_of_mask_eq hsame hindexed, threads_of_mask_eq hsame.symm hcycle.indexed⟩⟩

/-- A cycle that stays over two checks in a row has been reported since the start,
unless its mask was spent then. -/
theorem two_checks_report (hwf : WellFormed start) (hcounted : WaitingCounted start)
    {done : List Call} (hnamed : ∀ call ∈ done, NamedCall call)
    (hstays : StaysFirst start (done ++ [.checkDeadlocks, .checkDeadlocks]) cycle) :
    start.reportedCycleMask = cycleMask start cycle ∨
      timesReported cycle (reportsSince start
        (runCalls start (done ++ [.checkDeadlocks, .checkDeadlocks]))) = 1 := by
  have hstart := hstays.present [] (done ++ [.checkDeadlocks, .checkDeadlocks]) rfl
  have hall : ∀ call ∈ done ++ [.checkDeadlocks, .checkDeadlocks], NamedCall call := by
    intro call hmem
    rcases List.mem_append.mp hmem with hold | hcheck
    · exact hnamed call hold
    · simp only [List.mem_cons, List.not_mem_nil, or_false, or_self] at hcheck
      rw [hcheck]
      trivial
  have hstate := intervalState_runCalls hwf hcounted hall hstays
  have hdoneState := intervalState_runCalls hwf hcounted hnamed
    ⟨fun first more heq => hstays.present first (more ++ [.checkDeadlocks, .checkDeadlocks])
        (by rw [heq, List.append_assoc]),
      fun first more heq => hstays.first first (more ++ [.checkDeadlocks, .checkDeadlocks])
        (by rw [heq]; simp)⟩
  have hspent := two_checks_spend_mask (wellFormed_runCalls hwf done)
    (waitingCounted_runCalls hwf hcounted hnamed)
    (hstays.present done [.checkDeadlocks, .checkDeadlocks] rfl)
    (hstays.first done [.checkDeadlocks] rfl)
    (wellFormed_runCalls hwf (done ++ [.checkDeadlocks]))
    (waitingCounted_runCalls hwf hcounted (by
      intro call hmem
      apply hall call
      rcases List.mem_append.mp hmem with hold | hcheck
      · exact List.mem_append_left _ hold
      · exact List.mem_append_right _ (List.mem_cons_of_mem _ hcheck)))
    (by rw [runCalls_append]; rfl)
    (hstays.present (done ++ [.checkDeadlocks]) [.checkDeadlocks] (by simp))
    (hstays.first (done ++ [.checkDeadlocks]) [] (by simp))
  have hlast : monitorVerifierCheckDeadlocks (runCalls start (done ++ [.checkDeadlocks])) =
      runCalls start (done ++ [.checkDeadlocks, .checkDeadlocks]) := by
    rw [runCalls_append, runCalls_append]
    rfl
  have hmask := hdoneState.kept.cycleMask (wellFormed_runCalls hwf done) hstart.indexed
  rw [hlast, hmask] at hspent
  have hle := hstate.once
  by_cases hone : timesReported cycle (reportsSince start
      (runCalls start (done ++ [.checkDeadlocks, .checkDeadlocks]))) = 1
  · exact Or.inr hone
  · refine Or.inl ?_
    rw [← hspent, hstate.unreported (by omega)]

/-- A cycle that stays the first one present throughout an interval is reported at
most once in it, and by the second of two checks with no event between them,
unless its mask was spent at the start of the interval, by a report of a cycle
through exactly the same threads. -/
theorem first_cycle_reported_once (maxHoldNs : ℕ) (before during : List Call)
    (cycle : List (ℕ × ℕ)) (hnamed : ∀ call ∈ before ++ during, NamedCall call)
    (hstays : StaysFirst (runCalls (monitorVerifierInit maxHoldNs) before) during cycle) :
    let start := runCalls (monitorVerifierInit maxHoldNs) before
    timesReported cycle (reportsSince start (runCalls start during)) ≤ 1 ∧
    (∀ done rest, during = done ++ [.checkDeadlocks, .checkDeadlocks] ++ rest →
      start.reportedCycleMask = cycleMask start cycle ∨
      timesReported cycle (reportsSince start
        (runCalls start (done ++ [.checkDeadlocks, .checkDeadlocks]))) = 1) ∧
    (start.reportedCycleMask = cycleMask start cycle →
      ∃ sequence waits owners, .deadlockCycle sequence waits owners ∈ start.reports ∧
        ∀ threadId, threadId ∈ waits.map Prod.fst ↔ threadId ∈ cycle.map Prod.fst) := by
  intro start
  have hinit := wellFormed_init maxHoldNs
  have hwf : WellFormed start := wellFormed_runCalls hinit before
  have hcounted : WaitingCounted start :=
    waitingCounted_runCalls hinit (waitingCounted_init maxHoldNs)
      fun call hmem => hnamed call (List.mem_append_left _ hmem)
  have hduring : ∀ call ∈ during, NamedCall call :=
    fun call hmem => hnamed call (List.mem_append_right _ hmem)
  have hstart := hstays.present [] during rfl
  refine ⟨(intervalState_runCalls hwf hcounted hduring hstays).once, ?_, ?_⟩
  · intro done rest heq
    subst heq
    refine two_checks_report hwf hcounted (fun call hmem => hduring call
      (List.mem_append_left _ (List.mem_append_left _ hmem))) ?_
    exact ⟨fun first more heq => hstays.present first (more ++ rest) (by rw [heq]; simp),
      fun first more heq => hstays.first first (more ++ rest) (by rw [heq]; simp)⟩
  · exact spent_mask_reported (maskReported_runCalls (by intro hne; exact absurd rfl hne) hinit
      before) hstart

end Interval

section Runs

/-- A run given by its events, each with its thread, type and mutex, and its checks
(`none`); the sequence numbers are filled in as the emission does. -/
def script (steps : List (Option (ℕ × MonitorEventType × ℕ))) : List Call :=
  steps.zipIdx.map fun step =>
    match step.1 with
    | none => .checkDeadlocks
    | some (thread, type, mutex) =>
      .processEvent (sampleEvent step.2 thread
        (((steps.take step.2).filterMap id).countP fun earlier => earlier.1 = thread) mutex type)

/-- Two threads start, lock one mutex each and ask for the other's. -/
def deadlockSteps (first second mutex mutex' : ℕ) :
    List (Option (ℕ × MonitorEventType × ℕ)) :=
  [some (first, .lockRequest, mutex), some (first, .lockAcquired, mutex),
    some (second, .lockRequest, mutex'), some (second, .lockAcquired, mutex'),
    some (first, .lockRequest, mutex'), some (second, .lockRequest, mutex)]

def startSteps (threads : List ℕ) : List (Option (ℕ × MonitorEventType × ℕ)) :=
  threads.map fun thread => some (thread, .threadStart, 0)

/-- Two threads in a deadlock. -/
def pairCalls : List Call := script (startSteps [1, 2] ++ deadlockSteps 1 2 100 200)

theorem pair_staysFirst :
    StaysFirst (runCalls (monitorVerifierInit defaultMaxHoldNs) pairCalls)
      [.checkDeadlocks, .checkDeadlocks] [(1, 200), (2, 100)] := by
  have hinitial : ∀ done rest, [Call.checkDeadlocks, .checkDeadlocks] = done ++ rest →
      done ∈ [[], [Call.checkDeadlocks], [.checkDeadlocks, .checkDeadlocks]] := by
    intro done rest heq
    exact (List.mem_inits done _).mpr ⟨rest, heq.symm⟩
  constructor
  · intro done rest heq
    have hall : ∀ done ∈ [[], [Call.checkDeadlocks], [.checkDeadlocks, .checkDeadlocks]],
        CycleIn (runCalls (runCalls (monitorVerifierInit defaultMaxHoldNs) pairCalls) done)
          [(1, 200), (2, 100)] := by decide +kernel
    exact hall done (hinitial done rest heq)
  · intro done rest heq
    have hall : ∀ done ∈ [[], [Call.checkDeadlocks], [.checkDeadlocks, .checkDeadlocks]],
        ((runCalls (runCalls (monitorVerifierInit defaultMaxHoldNs) pairCalls) done).threadStates
            0).used = true ∧
          ((runCalls (runCalls (monitorVerifierInit defaultMaxHoldNs) pairCalls)
            done).threadStates 0).threadId ∈ [(1, 200), (2, 100)].map Prod.fst := by
      decide +kernel
    obtain ⟨hused, hmem⟩ := hall done (hinitial done _ heq)
    exact ⟨0, hused, hmem, fun j hj => absurd hj (Fin.not_lt_zero j)⟩

theorem first_cycle_reported_once_pair :
    timesReported [(1, 200), (2, 100)]
      (reportsSince (runCalls (monitorVerifierInit defaultMaxHoldNs) pairCalls)
        (runCalls (runCalls (monitorVerifierInit defaultMaxHoldNs) pairCalls)
          [.checkDeadlocks, .checkDeadlocks])) = 1 := by
  have hnamed : ∀ call ∈ pairCalls ++ [.checkDeadlocks, .checkDeadlocks], NamedCall call := by
    decide
  have hspent : (runCalls (monitorVerifierInit defaultMaxHoldNs) pairCalls).reportedCycleMask ≠
      cycleMask (runCalls (monitorVerifierInit defaultMaxHoldNs) pairCalls)
        [(1, 200), (2, 100)] := by decide +kernel
  exact ((first_cycle_reported_once defaultMaxHoldNs pairCalls
    [.checkDeadlocks, .checkDeadlocks] [(1, 200), (2, 100)] hnamed pair_staysFirst).2.1 [] []
      rfl).resolve_left hspent

/-- The cycle is present after the calls and after each further check up to 16, twice
the largest number of cycles that fit the thread table, and is never reported. -/
def NeverReported (calls : List Call) (cycle : List (ℕ × ℕ)) : Prop :=
  (∀ n ≤ 16, CycleIn (runCalls (monitorVerifierInit defaultMaxHoldNs)
    (calls ++ List.replicate n .checkDeadlocks)) cycle) ∧
  timesReported cycle (runCalls (monitorVerifierInit defaultMaxHoldNs)
    (calls ++ List.replicate 16 .checkDeadlocks)).reports = 0

/-- Checks do not change the graph. -/
theorem cycleIn_checks (h : CycleIn s cycle) (n : ℕ) :
    CycleIn (runCalls s (List.replicate n .checkDeadlocks)) cycle := by
  induction n generalizing s with
  | zero => exact h
  | succ n ih => exact ih (h.congr (check_frame s).1 (check_frame s).2.1)

theorem neverReported_of {calls : List Call}
    (hcycle : CycleIn (runCalls (monitorVerifierInit defaultMaxHoldNs) calls) cycle)
    (hnone : timesReported cycle (runCalls (monitorVerifierInit defaultMaxHoldNs)
      (calls ++ List.replicate 16 .checkDeadlocks)).reports = 0) :
    NeverReported calls cycle := by
  refine ⟨?_, hnone⟩
  intro n _
  rw [runCalls_append]
  exact cycleIn_checks hcycle n

/-- The calls that report the cycle of threads 3 and 4, and an interval in which it
stays while a cycle of threads 1 and 2 comes and goes. -/
def coexistingBefore : List Call :=
  script (startSteps [1, 2, 3, 4] ++ deadlockSteps 3 4 300 400)

def coexistingSteps : List (Option (ℕ × MonitorEventType × ℕ)) :=
  startSteps [1, 2, 3, 4] ++ deadlockSteps 3 4 300 400 ++ [none, none] ++
    deadlockSteps 1 2 100 200 ++ [none, none, some (1, .lockFailed, 200), none, none]

def coexistingDuring : List Call := (script coexistingSteps).drop 10

set_option maxRecDepth 100000 in
/-- Of two cycles only the first in the table is reported; a cycle that stays is
reported again after another one came and went; a cycle through the threads of a
reported one is not reported; a null address can hide a cycle. -/
theorem not_every_cycle_reported_exactly_once :
    NeverReported (script (startSteps [1, 2, 3, 4] ++ deadlockSteps 1 2 100 200 ++
        deadlockSteps 3 4 300 400)) [(3, 400), (4, 300)] ∧
      ((∀ n ≤ coexistingDuring.length,
          CycleIn (runCalls (runCalls (monitorVerifierInit defaultMaxHoldNs) coexistingBefore)
            (coexistingDuring.take n)) [(3, 400), (4, 300)]) ∧
        timesReported [(3, 400), (4, 300)] (reportsSince
          (runCalls (monitorVerifierInit defaultMaxHoldNs) coexistingBefore)
          (runCalls (runCalls (monitorVerifierInit defaultMaxHoldNs) coexistingBefore)
            coexistingDuring)) = 2) ∧
      NeverReported (script (startSteps [1, 2] ++ deadlockSteps 1 2 100 200 ++
        [none, none, some (1, .lockFailed, 200), some (2, .lockFailed, 100)] ++
        deadlockSteps 1 2 300 400)) [(1, 400), (2, 300)] ∧
      NeverReported (script (startSteps [1, 2, 3] ++ deadlockSteps 1 2 100 200 ++
        [some (3, .lockFailed, 0)])) [(1, 200), (2, 100)] := by
  refine ⟨neverReported_of (by decide +kernel) (by decide +kernel), ?_,
    neverReported_of (by decide +kernel) (by decide +kernel),
    neverReported_of (by decide +kernel) (by decide +kernel)⟩
  decide +kernel

end Runs

end RuntimeMonitor.CycleReports
