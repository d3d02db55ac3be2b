import RuntimeMonitor.RuntimeAccounts
import RuntimeMonitor.RuntimeSummaries
import RuntimeMonitor.VerifierMaps
import Mathlib.Algebra.BigOperators.Group.Finset.Piecewise
import Mathlib.Algebra.Order.BigOperators.Group.Finset

/-!
What an authoritative summary proves about the trace. The counters of the contexts
are read one at a time while threads may still emit; the consumer has returned, so
the events processed on a slot bound the attempts from below, and equality of the
sums forces equality on every slot. The overflow counter counts every update that
the verifier gave up.
-/
namespace RuntimeMonitor.AuthoritativeTraces

open TransitionRuns EventRecord SlotTables VerifierTables VerifierEvents VerifierCycles
open VerifierInvariant VerifierMaps MonitorRuntime RuntimeSteps SlotOwnership RuntimeStreams
open EventNumbers RuntimeAccounts RuntimeSummaries

/-- The events among the calls of the verifier. -/
def callEvents (calls : List Call) : List MonitorEvent :=
  calls.filterMap fun | .processEvent event => some event | .checkDeadlocks => none

/-- The verifier gives up an update for the event, for lack of a slot for its thread,
for its mutex or among the mutexes its thread holds. -/
def UpdateDiscarded (s : VerifierState) (event : MonitorEvent) : Prop :=
  ¬ ThreadRoom s event.threadId ∨ discarded s event = true

section Overflow

variable {s : VerifierState} {event : MonitorEvent} {calls : List Call}

theorem processEvent_overflow (h : WellFormed s) (event : MonitorEvent) :
    (UpdateDiscarded s event ∧ (monitorVerifierProcessEvent s event).stateOverflowEvents =
      succ64 s.stateOverflowEvents) ∨
    (¬ UpdateDiscarded s event ∧ (monitorVerifierProcessEvent s event).stateOverflowEvents =
      s.stateOverflowEvents) := by
  by_cases hroom : ThreadRoom s event.threadId
  · have hprocessed := processEvent_processed h hroom
    have hcount : (monitorVerifierProcessEvent s event).stateOverflowEvents =
        if discarded s event then succ64 s.stateOverflowEvents else s.stateOverflowEvents := by
      rw [hprocessed.rest]
    by_cases hdiscarded : discarded s event = true
    · rw [if_pos hdiscarded] at hcount
      exact Or.inl ⟨Or.inr hdiscarded, hcount⟩
    · rw [if_neg hdiscarded] at hcount
      exact Or.inr ⟨fun h => h.elim (fun hno => hno hroom) hdiscarded, hcount⟩
  · rw [processEvent_noRoom h hroom]
    exact Or.inl ⟨Or.inl hroom, rfl⟩

/-- With fewer than `2 ^ 64` events the counter only grows, and it stays where it is
only if no update is given up. -/
theorem overflow_runCalls (h : WellFormed s)
    (hbound : s.stateOverflowEvents + (callEvents calls).length < 2 ^ 64) :
    s.stateOverflowEvents ≤ (runCalls s calls).stateOverflowEvents ∧
      ((runCalls s calls).stateOverflowEvents = s.stateOverflowEvents →
        ∀ earlier event later, calls = earlier ++ .processEvent event :: later →
          ¬ UpdateDiscarded (runCalls s earlier) event) := by
  induction calls generalizing s with
  | nil =>
    refine ⟨le_rfl, fun _ earlier event later heq => ?_⟩
    simp at heq
  | cons call rest ih =>
    rw [runCalls_cons]
    cases call with
    | checkDeadlocks =>
      have hsame : (applyCall s .checkDeadlocks).stateOverflowEvents = s.stateOverflowEvents :=
        (check_frame s).2.2.2.2.1
      have hwf : WellFormed (applyCall s .checkDeadlocks) := wellFormed_check h
      have hrest := ih hwf (by rw [hsame]; exact hbound)
      rw [hsame] at hrest
      refine ⟨hrest.1, fun hfinal earlier event later heq => ?_⟩
      cases earlier with
      | nil => simp at heq
      | cons first earlier =>
        rw [List.cons_append, List.cons.injEq] at heq
        obtain ⟨rfl, heq⟩ := heq
        rw [runCalls_cons]
        exact hrest.2 hfinal earlier event later heq
    | processEvent event =>
      have hlength : (callEvents (.processEvent event :: rest)).length =
          (callEvents rest).length + 1 := rfl
      rw [hlength] at hbound
      change s.stateOverflowEvents ≤ (runCalls (monitorVerifierProcessEvent s event)
        rest).stateOverflowEvents ∧ _
      have hwf := wellFormed_processEvent h event
      rcases processEvent_overflow h event with ⟨hdiscarded, hcount⟩ | ⟨hkept, hcount⟩
      · have hsucc : succ64 s.stateOverflowEvents = s.stateOverflowEvents + 1 := by
          unfold succ64
          omega
        rw [hsucc] at hcount
        have hrest := (ih hwf (by omega)).1
        refine ⟨by omega, fun hfinal => ?_⟩
        change (runCalls (monitorVerifierProcessEvent s event) rest).stateOverflowEvents = _
          at hfinal
        omega
      · have hrest := ih hwf (by omega)
        rw [hcount] at hrest
        refine ⟨hrest.1, fun hfinal earlier event' later heq => ?_⟩
        cases earlier with
        | nil =>
          rw [List.nil_append, List.cons.injEq, Call.processEvent.injEq] at heq
          rw [← heq.1]
          exact hkept
        | cons first earlier =>
          rw [List.cons_append, List.cons.injEq] at heq
          obtain ⟨rfl, heq⟩ := heq
          rw [runCalls_cons]
          exact hrest.2 hfinal earlier event' later heq

end Overflow

section Counting

variable {kind : Observation → Option (ℕ × MonitorEvent)} {tr : List Observation}

/-- Summed over different slots, the streams count no observation twice. -/
theorem sum_eventsOn_le (slots : Finset ℕ) (kind : Observation → Option (ℕ × MonitorEvent))
    (tr : List Observation) :
    ∑ slot ∈ slots, (eventsOn kind slot tr).length ≤ (tr.filterMap kind).length := by
  induction tr with
  | nil => simp
  | cons o rest ih =>
    have hcons : ∀ slot, eventsOn kind slot (o :: rest) =
        eventsOn kind slot [o] ++ eventsOn kind slot rest :=
      fun slot => eventsOn_append kind slot [o] rest
    simp only [hcons, List.length_append, Finset.sum_add_distrib]
    cases hkind : kind o with
    | none =>
      rw [List.filterMap_cons_none hkind]
      simpa [eventsOn, hkind] using ih
    | some entry =>
      have hone : ∀ slot, (eventsOn kind slot [o]).length = if entry.1 = slot then 1 else 0 := by
        intro slot
        by_cases heq : entry.1 = slot <;> simp [eventsOn, hkind, heq]
      rw [List.filterMap_cons_some hkind, List.length_cons]
      simp only [hone, Finset.sum_ite_eq]
      split <;> omega

/-- Over all slots that occur, they count every observation. -/
theorem sum_eventsOn_eq {slots : Finset ℕ}
    (hslots : ∀ slot, eventsOn kind slot tr ≠ [] → slot ∈ slots) :
    ∑ slot ∈ slots, (eventsOn kind slot tr).length = (tr.filterMap kind).length := by
  induction tr with
  | nil => simp
  | cons o rest ih =>
    have hcons : ∀ slot, eventsOn kind slot (o :: rest) =
        eventsOn kind slot [o] ++ eventsOn kind slot rest :=
      fun slot => eventsOn_append kind slot [o] rest
    have hrest := ih fun slot hne => hslots slot (by
      rw [hcons]
      exact fun hnil => hne (List.append_eq_nil_iff.mp hnil).2)
    simp only [hcons, List.length_append, Finset.sum_add_distrib, hrest]
    cases hkind : kind o with
    | none =>
      rw [List.filterMap_cons_none hkind]
      simp [eventsOn, hkind]
    | some entry =>
      have hone : ∀ slot, (eventsOn kind slot [o]).length = if entry.1 = slot then 1 else 0 := by
        intro slot
        by_cases heq : entry.1 = slot <;> simp [eventsOn, hkind, heq]
      have hmem : entry.1 ∈ slots := by
        apply hslots
        rw [hcons]
        simp [eventsOn, hkind]
      rw [List.filterMap_cons_some hkind, List.length_cons]
      simp only [hone, Finset.sum_ite_eq, if_pos hmem]
      omega

end Counting

/-- The generated counter of a slot was read at a point after the consumer's return:
it counts the attempts up to there and at most the event in flight. -/
structure GeneratedRead (tr : List Observation) (slot generated : ℕ) : Prop where
  read : ∃ before rest count, tr = before ++ rest ∧ generated = count % 2 ^ 64 ∧
    (eventsOn attemptedEvent slot before).length ≤ count ∧
    count ≤ (eventsOn reservedEvent slot tr).length ∧
    eventsOn processedEvent slot tr <+: eventsOn pushedEvent slot before ∧
    (eventsOn attemptedEvent slot before).map (·.threadSequence) =
      (List.range (eventsOn attemptedEvent slot before).length).map (· % 2 ^ 32)

structure LineRead (tr : List Observation) (line : ContextLine) : Prop where
  generated : GeneratedRead tr line.slot line.generated
  consumed : line.consumed = (eventsOn processedEvent line.slot tr).length % 2 ^ 64

/-- The lines read so far, with the slots below `slot` behind them. -/
structure Lines (tr : List Observation) (slot count : ℕ) (lines : List ContextLine) : Prop where
  read : ∀ line ∈ lines, LineRead tr line
  below : ∀ line ∈ lines, line.slot < slot
  distinct : (lines.map (·.slot)).Nodup
  counted : ∀ i, eventsOn processedEvent i tr ≠ [] → i < count
  covered : ∀ i < slot, eventsOn processedEvent i tr ≠ [] → ∃ line ∈ lines, line.slot = i

/-- The lines of a complete summary. -/
structure AllLines (tr : List Observation) (lines : List ContextLine) : Prop where
  read : ∀ line ∈ lines, LineRead tr line
  distinct : (lines.map (·.slot)).Nodup
  covered : ∀ i, eventsOn processedEvent i tr ≠ [] → ∃ line ∈ lines, line.slot = i

/-- The counter of refused emissions was read at one point of the run. -/
def RejectedRead (tr : List Observation) (rejected : ℕ) : Prop :=
  ∃ before rest, tr = before ++ .unregisteredRead :: rest ∧ .unregisteredRead ∉ before ∧
    rejected = (refusals before).length % 2 ^ 64

/-- What the stopping thread knows at its position. -/
def SummaryRead (tr : List Observation) : StopPc → Prop
  | .notCalled | .storeRunning | .join | .loadCount => .unregisteredRead ∉ tr
  | .loadActive slot count lines | .loadGenerated slot count lines =>
    .unregisteredRead ∉ tr ∧ Lines tr slot count lines
  | .loadConsumed slot count lines generated =>
    .unregisteredRead ∉ tr ∧ Lines tr slot count lines ∧ GeneratedRead tr slot generated
  | .loadDropped slot count lines generated consumed =>
    .unregisteredRead ∉ tr ∧ Lines tr slot count lines ∧ GeneratedRead tr slot generated ∧
      consumed = (eventsOn processedEvent slot tr).length % 2 ^ 64
  | .loadUnregistered lines => .unregisteredRead ∉ tr ∧ AllLines tr lines
  | .loadLifecycle lines rejected => AllLines tr lines ∧ RejectedRead tr rejected
  | .deleteKey transport | .finished transport =>
    AllLines tr transport.lines ∧ RejectedRead tr transport.rejected

/-- The stopping thread has joined the consumer. -/
def joined : StopPc → Bool
  | .notCalled | .storeRunning | .join => false
  | _ => true

section Reading

variable {gettid : ℕ → ℕ} {maxHoldNs : ℕ} {rt rt' : Runtime} {tr os : List Observation}
  {slot generated count : ℕ} {lines : List ContextLine}

theorem GeneratedRead.extend (h : GeneratedRead tr slot generated)
    (hprocessed : ∀ i, eventsOn processedEvent i os = []) :
    GeneratedRead (tr ++ os) slot generated := by
  obtain ⟨before, rest, count, hsplit, hgenerated, hle, hreserved, hinitial, hnumbers⟩ := h.read
  refine ⟨before, rest ++ os, count, ?_, hgenerated, hle, ?_, ?_, hnumbers⟩
  · rw [hsplit, List.append_assoc]
  · rw [eventsOn_append, List.length_append]
    omega
  · rwa [eventsOn_append, hprocessed, List.append_nil]

theorem LineRead.extend {line : ContextLine} (h : LineRead tr line)
    (hprocessed : ∀ i, eventsOn processedEvent i os = []) : LineRead (tr ++ os) line := by
  refine ⟨h.generated.extend hprocessed, ?_⟩
  rw [eventsOn_append, hprocessed, List.append_nil]
  exact h.consumed

theorem Lines.extend (h : Lines tr slot count lines)
    (hprocessed : ∀ i, eventsOn processedEvent i os = []) :
    Lines (tr ++ os) slot count lines := by
  have hsame : ∀ i, eventsOn processedEvent i (tr ++ os) = eventsOn processedEvent i tr := by
    intro i
    rw [eventsOn_append, hprocessed, List.append_nil]
  refine ⟨fun line hmem => (h.read line hmem).extend hprocessed, h.below, h.distinct, ?_, ?_⟩
  · intro i hne
    exact h.counted i (hsame i ▸ hne)
  · intro i hi hne
    exact h.covered i hi (hsame i ▸ hne)

theorem AllLines.extend (h : AllLines tr lines)
    (hprocessed : ∀ i, eventsOn processedEvent i os = []) : AllLines (tr ++ os) lines := by
  refine ⟨fun line hmem => (h.read line hmem).extend hprocessed, h.distinct, fun i hne => ?_⟩
  apply h.covered i
  rwa [eventsOn_append, hprocessed, List.append_nil] at hne

theorem RejectedRead.extend {rejected : ℕ} (h : RejectedRead tr rejected)
    (os : List Observation) : RejectedRead (tr ++ os) rejected := by
  obtain ⟨before, rest, hsplit, hfirst, hrejected⟩ := h
  exact ⟨before, rest ++ os, by rw [hsplit, List.append_assoc, List.cons_append], hfirst,
    hrejected⟩

/-- The steps of the other parties after the consumer's return. -/
theorem SummaryRead.extend {pc : StopPc} (h : SummaryRead tr pc)
    (hprocessed : joined pc = true → ∀ i, eventsOn processedEvent i os = [])
    (hread : .unregisteredRead ∉ os) : SummaryRead (tr ++ os) pc := by
  have hfirst : .unregisteredRead ∉ tr → .unregisteredRead ∉ tr ++ os := by
    intro hold hmem
    exact (List.mem_append.mp hmem).elim hold hread
  cases pc with
  | notCalled | storeRunning | join | loadCount => exact hfirst h
  | loadActive | loadGenerated => exact ⟨hfirst h.1, h.2.extend (hprocessed rfl)⟩
  | loadConsumed =>
    exact ⟨hfirst h.1, h.2.1.extend (hprocessed rfl), h.2.2.extend (hprocessed rfl)⟩
  | loadDropped =>
    refine ⟨hfirst h.1, h.2.1.extend (hprocessed rfl), h.2.2.1.extend (hprocessed rfl), ?_⟩
    rw [eventsOn_append, hprocessed rfl, List.append_nil]
    exact h.2.2.2
  | loadUnregistered => exact ⟨hfirst h.1, h.2.extend (hprocessed rfl)⟩
  | loadLifecycle | deleteKey | finished =>
    exact ⟨h.1.extend (hprocessed rfl), h.2.extend os⟩

theorem awaitingPush_le (pc : ProducerPc) (slot : ℕ) :
    awaitingPush pc slot ≤ (inFlight pc slot).length := by
  unfold awaitingPush inFlight
  cases pc with
  | push slot' event after =>
    dsimp only
    split <;> simp
  | _ => exact Nat.zero_le _

theorem generatedRead_now (h : Reached gettid maxHoldNs rt tr) (slot : ℕ) :
    GeneratedRead tr slot (rt.threadContexts slot).generated := by
  have hinitial := h.attempted_prefix slot
  have hnumbered := h.numbered.local_ slot
  refine ⟨tr, [],
    (eventsOn attemptedEvent slot tr).length + awaitingPush (ownerPc rt tr slot) slot,
    (List.append_nil tr).symm, h.attempted.generated slot, Nat.le_add_right .., ?_,
    h.processed_prefix slot, ?_⟩
  · have hflight := awaitingPush_le (ownerPc rt tr slot) slot
    rw [h.attempted.reserved slot, List.length_append]
    omega
  · have htake := List.prefix_iff_eq_take.mp (hinitial.map (·.threadSequence))
    rw [hnumbered, List.length_map] at htake
    rw [htake, ← List.map_take, List.take_range, Nat.min_eq_left hinitial.length_le]

theorem Lines.pass (h : Lines tr slot count lines)
    (hempty : eventsOn processedEvent slot tr = []) :
    Lines tr (slot + 1) count lines := by
  refine ⟨h.read, fun line hmem => Nat.lt_succ_of_lt (h.below line hmem), h.distinct, h.counted,
    ?_⟩
  intro i hi hne
  rcases Nat.lt_succ_iff_lt_or_eq.mp hi with hlt | heq
  · exact h.covered i hlt hne
  · rw [heq] at hne
    exact absurd hempty hne

theorem Lines.append (h : Lines tr slot count lines) {line : ContextLine}
    (hslot : line.slot = slot)
    (hread : LineRead tr line) : Lines tr (slot + 1) count (lines ++ [line]) := by
  constructor
  · intro other hmem
    rcases List.mem_append.mp hmem with hold | hnew
    · exact h.read other hold
    · rw [List.mem_singleton.mp hnew]
      exact hread
  · intro other hmem
    rcases List.mem_append.mp hmem with hold | hnew
    · exact Nat.lt_succ_of_lt (h.below other hold)
    · rw [List.mem_singleton.mp hnew]
      omega
  · rw [List.map_append, List.map_singleton, List.nodup_append]
    refine ⟨h.distinct, List.nodup_singleton _, ?_⟩
    intro a ha b hb
    obtain ⟨other, hother, rfl⟩ := List.mem_map.mp ha
    rw [List.mem_singleton.mp hb, hslot]
    exact (h.below other hother).ne
  · exact h.counted
  · intro i hi hne
    rcases Nat.lt_succ_iff_lt_or_eq.mp hi with hlt | heq
    · obtain ⟨other, hother, hsame⟩ := h.covered i hlt hne
      exact ⟨other, List.mem_append_left _ hother, hsame⟩
    · exact ⟨line, List.mem_append_right _ (List.mem_singleton_self _), hslot.trans heq.symm⟩

theorem processed_of_inactive (h : Reached gettid maxHoldNs rt tr)
    (hoff : (rt.threadContexts slot).active = false) : eventsOn processedEvent slot tr = [] := by
  have hinitial := h.processed_prefix slot
  have hsublist := pushed_sublist slot tr
  have hattempted := h.attempted_prefix slot
  rw [h.identified.silent slot hoff, List.prefix_nil] at hattempted
  rw [hattempted, List.sublist_nil] at hsublist
  rwa [hsublist, List.prefix_nil] at hinitial

theorem SummaryRead.move {pc : StopPc} (h : SummaryRead tr rt.stopper)
    (hreached : Reached gettid maxHoldNs rt tr)
    (hjoined : joined rt.stopper = true → rt.consumer = .returned)
    (hmove : StopMove rt rt.stopper pc) : SummaryRead tr pc := by
  generalize hstopper : rt.stopper = stopper at h hjoined hmove
  cases hmove with
  | joined hreturned => exact h
  | counted =>
    refine ⟨h, by simp, by simp, by simp, ?_, by simp⟩
    intro i hne
    by_contra hle
    exact hne (processed_of_inactive hreached (hreached.owned.unclaimed i (by omega)))
  | active hslot hactive => exact h
  | inactive hslot hactive => exact ⟨h.1, h.2.pass (processed_of_inactive hreached hactive)⟩
  | all hslot =>
    refine ⟨h.1, h.2.read, h.2.distinct, fun i hne => ?_⟩
    exact h.2.covered i (lt_of_lt_of_le (h.2.counted i hne) hslot) hne
  | generated => exact ⟨h.1, h.2, generatedRead_now hreached _⟩
  | @consumed slot count generated lines =>
    refine ⟨h.1, h.2.1, h.2.2, ?_⟩
    have hconsumed := hreached.accounted.consumed slot
    rw [hjoined rfl] at hconsumed
    exact hconsumed
  | dropped => exact ⟨h.1, h.2.1.append rfl ⟨h.2.2.1, h.2.2.2⟩⟩
  | lifecycle => exact h

/-- The stopping thread's knowledge, together with the join it rests on. -/
def Stopping (rt : Runtime) (tr : List Observation) : Prop :=
  (joined rt.stopper = true → rt.consumer = .returned) ∧ SummaryRead tr rt.stopper

theorem Stopping.keep (h : Stopping rt tr) (hstopper : rt'.stopper = rt.stopper)
    (hconsumer : rt'.consumer = rt.consumer) (hprocessed : ∀ i, eventsOn processedEvent i os = [])
    (hread : .unregisteredRead ∉ os) : Stopping rt' (tr ++ os) := by
  unfold Stopping
  rw [hstopper, hconsumer]
  exact ⟨h.1, h.2.extend (fun _ => hprocessed) hread⟩

/-- A step of the consumer, which has not returned. -/
theorem Stopping.consumes (h : Stopping rt tr) (hstopper : rt'.stopper = rt.stopper)
    (hconsumer : rt.consumer ≠ .returned) (hread : .unregisteredRead ∉ os) :
    Stopping rt' (tr ++ os) := by
  have hnot : joined rt.stopper ≠ true := fun hcon => hconsumer (h.1 hcon)
  unfold Stopping
  rw [hstopper]
  exact ⟨fun hcon => absurd hcon hnot, h.2.extend (fun hcon => absurd hcon hnot) hread⟩

theorem stopMove_joined {pc pc' : StopPc} (hmove : StopMove rt pc pc')
    (hjoined : joined pc = true → rt.consumer = .returned) : rt.consumer = .returned := by
  cases hmove with
  | joined hreturned => exact hreturned
  | _ => exact hjoined rfl

theorem Stopping.step (h : Stopping rt tr) (hreached : Reached gettid maxHoldNs rt tr)
    (ht : Transition gettid rt rt' os) : Stopping rt' (tr ++ os) := by
  cases ht with
  | roundStarted hpc => exact h.consumes rfl (by simp [hpc]) (by simp)
  | consumerMoved hmove =>
    refine h.consumes rfl (fun hreturned => ?_) (by simp)
    rw [hreturned] at hmove
    cases hmove
  | popped hpc hqueue => exact h.consumes rfl (by simp [hpc]) (by simp)
  | processed hpc => exact h.consumes rfl (by simp [hpc]) (by simp)
  | accounted hpc => exact h.consumes rfl (by simp [hpc]) (by simp)
  | checked hpc => exact h.consumes rfl (by simp [hpc]) (by simp)
  | consumerReturned hpc hstopped => exact h.consumes rfl (by simp [hpc]) (by simp)
  | stopCalled hpc =>
    have hread := h.2
    rw [hpc] at hread
    exact ⟨by simp [joined], by simpa [SummaryRead] using hread⟩
  | consumerStopped hpc =>
    have hread := h.2
    rw [hpc] at hread
    exact ⟨by simp [joined], by simpa [SummaryRead] using hread⟩
  | stopMoved hmove =>
    rw [List.append_nil]
    have hreturned := stopMove_joined hmove h.1
    exact ⟨fun _ => hreturned, h.2.move hreached h.1 hmove⟩
  | @unregisteredRead lines hpc =>
    have hread := h.2
    rw [hpc] at hread
    refine ⟨fun _ => h.1 (by rw [hpc]; rfl), hread.2.extend (fun _ => rfl), ?_⟩
    exact ⟨tr, [], rfl, hread.1, hreached.accounted.unregistered⟩
  | keyDeleted hpc =>
    have hread := h.2
    rw [hpc] at hread
    rw [List.append_nil]
    exact ⟨fun _ => h.1 (by rw [hpc]; rfl), hread⟩
  | _ => exact h.keep rfl rfl (fun _ => rfl) (by simp)

theorem stopping_run (hrun : Run (step gettid) (monitorRuntimeStart maxHoldNs) tr rt) :
    Reached gettid maxHoldNs rt tr ∧ Stopping rt tr := by
  apply hrun.invariant (I := fun rt tr => Reached gettid maxHoldNs rt tr ∧ Stopping rt tr)
  · intro rt tr a rt' os h hstep
    exact ⟨h.1.step (step_transition hstep), h.2.step h.1 (step_transition hstep)⟩
  · exact ⟨reached_start gettid maxHoldNs, by simp [monitorRuntimeStart, joined], by
      simp [monitorRuntimeStart, SummaryRead]⟩

/-- The value of a generated counter is at least the number of processed events, and
when it equals it, these are all events of the slot up to the read. -/
theorem GeneratedRead.complete (h : GeneratedRead tr slot generated)
    (hbound : (eventsOn reservedEvent slot tr).length < 2 ^ 64) :
    (eventsOn processedEvent slot tr).length ≤ generated ∧
      generated ≤ (eventsOn reservedEvent slot tr).length ∧
      (generated = (eventsOn processedEvent slot tr).length →
        (eventsOn processedEvent slot tr).map (·.threadSequence) =
          (List.range generated).map (· % 2 ^ 32)) := by
  obtain ⟨before, rest, count, hsplit, hgenerated, hle, hreserved, hinitial, hnumbers⟩ := h.read
  have hsublist := pushed_sublist slot before
  have hpushed := hsublist.length_le
  have hprocessed := hinitial.length_le
  rw [Nat.mod_eq_of_lt (by omega)] at hgenerated
  refine ⟨by omega, by omega, fun heq => ?_⟩
  have hall : eventsOn pushedEvent slot before = eventsOn attemptedEvent slot before :=
    hsublist.eq_of_length_le (by omega)
  have hsame : eventsOn processedEvent slot tr = eventsOn attemptedEvent slot before := by
    rw [← hall]
    exact hinitial.eq_of_length_le (by omega)
  have hlength : (eventsOn attemptedEvent slot before).length = generated := by
    rw [heq, hsame]
  rw [hsame, hnumbers, hlength]

end Reading

section Verdict

variable {gettid : ℕ → ℕ} {maxHoldNs : ℕ} {rt : Runtime} {tr : List Observation}
  {lines : List ContextLine}

/-- Sums over the lines of a summary are sums over its slots. -/
theorem sum_lines (f : ℕ → ℕ) (hdistinct : (lines.map (·.slot)).Nodup) :
    (lines.map fun line => f line.slot).sum = ∑ slot ∈ (lines.map (·.slot)).toFinset, f slot := by
  rw [List.sum_toFinset f hdistinct, List.map_map]
  rfl

theorem callEvents_verifierCalls (tr : List Observation) :
    (callEvents (verifierCalls tr)).length = (tr.filterMap processedEvent).length := by
  induction tr with
  | nil => rfl
  | cons o rest ih =>
    cases o with
    | processed slot event =>
      change (callEvents (verifierCalls rest)).length + 1 =
        (rest.filterMap processedEvent).length + 1
      rw [ih]
    | checked => exact ih
    | _ => exact ih

theorem reservedAll_length (tr : List Observation) :
    (reservedAll tr).length = (tr.filterMap reservedEvent).length := by
  induction tr with
  | nil => rfl
  | cons o rest ih =>
    cases o with
    | reserved thread slot event =>
      change (reservedAll rest).length + 1 = (rest.filterMap reservedEvent).length + 1
      rw [ih]
    | _ => exact ih

/-- The verifier processes no more events than have been reserved. -/
theorem processed_le_reserved (h : Reached gettid maxHoldNs rt tr) :
    (tr.filterMap processedEvent).length ≤ (reservedAll tr).length := by
  have hslots : ∀ slot, eventsOn processedEvent slot tr ≠ [] →
      slot ∈ Finset.range rt.nextThreadSlot := by
    intro slot hne
    rw [Finset.mem_range]
    by_contra hle
    exact hne (processed_of_inactive h (h.owned.unclaimed slot (by omega)))
  rw [← sum_eventsOn_eq hslots, reservedAll_length]
  refine le_trans ?_ (sum_eventsOn_le (Finset.range rt.nextThreadSlot) reservedEvent tr)
  apply Finset.sum_le_sum
  intro slot _
  have hpushed := (h.processed_prefix slot).length_le
  have hattempted := (pushed_sublist slot tr).length_le
  have hreserved := (h.attempted_prefix slot).length_le
  omega

/-- Equal sums of a dominated family are equal term by term. -/
theorem lines_complete (hlines : AllLines tr lines) (hbound : (reservedAll tr).length < 2 ^ 64)
    (hsum : (lines.map (·.generated)).sum % 2 ^ 64 = (lines.map (·.consumed)).sum % 2 ^ 64) :
    ∀ line ∈ lines, line.generated = (eventsOn processedEvent line.slot tr).length := by
  have hslot : ∀ slot, (eventsOn reservedEvent slot tr).length ≤ (reservedAll tr).length :=
    fun slot => (reservedOn_sublist slot tr).length_le
  have hcomplete : ∀ line ∈ lines,
      (eventsOn processedEvent line.slot tr).length ≤ line.generated ∧
        line.generated ≤ (eventsOn reservedEvent line.slot tr).length := by
    intro line hmem
    have hslot' := hslot line.slot
    obtain ⟨hle, hge, -⟩ := (hlines.read line hmem).generated.complete (by omega)
    exact ⟨hle, hge⟩
  have hconsumed : lines.map (·.consumed) =
      lines.map fun line => (eventsOn processedEvent line.slot tr).length := by
    apply List.map_congr_left
    intro line hmem
    have hslot' := hslot line.slot
    have hline := hcomplete line hmem
    rw [(hlines.read line hmem).consumed, Nat.mod_eq_of_lt (by omega)]
  have htotal : (lines.map (·.generated)).sum ≤ (reservedAll tr).length := by
    calc (lines.map (·.generated)).sum
        ≤ (lines.map fun line => (eventsOn reservedEvent line.slot tr).length).sum :=
          List.sum_le_sum fun line hmem => (hcomplete line hmem).2
      _ = ∑ slot ∈ (lines.map (·.slot)).toFinset, (eventsOn reservedEvent slot tr).length :=
          sum_lines (fun slot => (eventsOn reservedEvent slot tr).length) hlines.distinct
      _ ≤ (tr.filterMap reservedEvent).length := sum_eventsOn_le _ _ _
      _ = (reservedAll tr).length := (reservedAll_length tr).symm
  have hle : (lines.map fun line => (eventsOn processedEvent line.slot tr).length).sum ≤
      (lines.map (·.generated)).sum :=
    List.sum_le_sum fun line hmem => (hcomplete line hmem).1
  rw [hconsumed, Nat.mod_eq_of_lt (by omega), Nat.mod_eq_of_lt (by omega)] at hsum
  intro line hmem
  by_contra hne
  have hlt : (lines.map fun line => (eventsOn processedEvent line.slot tr).length).sum <
      (lines.map (·.generated)).sum :=
    List.sum_lt_sum _ _ (fun line hmem => (hcomplete line hmem).1)
      ⟨line, hmem, lt_of_le_of_ne (hcomplete line hmem).1 (Ne.symm hne)⟩
  omega

/-- An authoritative interpretation is never printed for an incomplete trace. -/
theorem authoritative_trace_complete (gettid : ℕ → ℕ) (maxHoldNs : ℕ)
    {tr : List Observation} {rt : Runtime} {transport : TransportSummary}
    (hrun : Run (step gettid) (monitorRuntimeStart maxHoldNs) tr rt)
    (hfinished : rt.stopper = .finished transport)
    (hbound : (reservedAll tr).length + (refusals tr).length < 2 ^ 64)
    (hauthoritative : (printedSummary rt transport).authoritative = true) :
    (∀ line ∈ transport.lines,
      (eventsOn processedEvent line.slot tr).length = line.generated ∧
      (eventsOn processedEvent line.slot tr).map (·.threadSequence) =
        (List.range line.generated).map (· % 2 ^ 32)) ∧
    (∀ slot, eventsOn processedEvent slot tr ≠ [] →
      ∃ line ∈ transport.lines, line.slot = slot) ∧
    (∃ before rest, tr = before ++ .unregisteredRead :: rest ∧ .unregisteredRead ∉ before ∧
      refusals before = []) ∧
    ∀ earlier event later, verifierCalls tr = earlier ++ .processEvent event :: later →
      ¬ UpdateDiscarded (runCalls (monitorVerifierInit maxHoldNs) earlier) event := by
  obtain ⟨hreached, -, hread⟩ := stopping_run hrun
  rw [hfinished] at hread
  obtain ⟨hlines, before, rest, hsplit, hfirst, hrejected⟩ := hread
  obtain ⟨hsum, -, hnone, -, hoverflow, -⟩ := (authoritative_iff rt transport).mp hauthoritative
  have hcomplete := lines_complete hlines (by omega) hsum
  refine ⟨fun line hmem => ?_, hlines.covered, ⟨before, rest, hsplit, hfirst, ?_⟩, ?_⟩
  · have hslot := (reservedOn_sublist line.slot tr).length_le
    have hline := (hlines.read line hmem).generated.complete (by omega)
    exact ⟨(hcomplete line hmem).symm, hline.2.2 (hcomplete line hmem)⟩
  · have hrefusals : (refusals before).length ≤ (refusals tr).length := by
      rw [hsplit, refusals_append, List.length_append]
      exact Nat.le_add_right ..
    rw [hnone, Nat.mod_eq_of_lt (by omega)] at hrejected
    exact List.eq_nil_of_length_eq_zero hrejected.symm
  · have hprocessed := processed_le_reserved hreached
    have hevents : (monitorVerifierInit maxHoldNs).stateOverflowEvents +
        (callEvents (verifierCalls tr)).length < 2 ^ 64 := by
      rw [callEvents_verifierCalls]
      change 0 + _ < 2 ^ 64
      omega
    apply (overflow_runCalls (wellFormed_init maxHoldNs) hevents).2
    rw [← hreached.accounted.verifier, hoverflow]
    rfl

/-- One thread emits, the consumer drains its queue, and the runtime is stopped. -/
def quietRun : Runtime × List Observation :=
  after (step id) (monitorRuntimeStart 0) (firstEmission 1 .lockRequest 100 ++
    List.replicate 2 .stop ++ List.replicate 17 .consumer ++ List.replicate 10 .stop)

def quietTransport : TransportSummary := ⟨[⟨0, 1, 2, 2, 0⟩], 0, 0⟩

theorem authoritative_trace_complete_quiet :
    (∀ line ∈ quietTransport.lines,
      (eventsOn processedEvent line.slot quietRun.2).length = line.generated ∧
      (eventsOn processedEvent line.slot quietRun.2).map (·.threadSequence) =
        (List.range line.generated).map (· % 2 ^ 32)) ∧
    (∀ slot, eventsOn processedEvent slot quietRun.2 ≠ [] →
      ∃ line ∈ quietTransport.lines, line.slot = slot) ∧
    (∃ before rest, quietRun.2 = before ++ .unregisteredRead :: rest ∧
      .unregisteredRead ∉ before ∧ refusals before = []) ∧
    ∀ earlier event later, verifierCalls quietRun.2 = earlier ++ .processEvent event :: later →
      ¬ UpdateDiscarded (runCalls (monitorVerifierInit 0) earlier) event :=
  authoritative_trace_complete id 0 (run_after (by decide +kernel)) (by decide +kernel)
    (by decide +kernel) (by decide +kernel)

end Verdict

end RuntimeMonitor.AuthoritativeTraces
