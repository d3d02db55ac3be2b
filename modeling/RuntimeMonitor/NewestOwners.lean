import RuntimeMonitor.InterposedCalls
import RuntimeMonitor.LossyCycles
import RuntimeMonitor.RecordAgreement

/-!
The owner on record behind gap-free streams. While nothing is given up, every acquisition
and every release proposes the owner that the depth of its own stream gives, and the one
with the greatest number decides, in whatever order the streams were consumed.
-/
namespace RuntimeMonitor.NewestOwners

open EventRecord VerifierTables VerifierEvents VerifierSteps VerifierCycles VerifierInvariant
open VerifierMaps HeldTables KeyedStreams StreamReplay OwnershipRecords SequenceGaps
open AuthoritativeTraces StreamTracking ThreadVerdicts RecordAgreement LossyCycles InterposedCalls

/-- The owner of the event's mutex by the stream of the event's thread, zero for nobody. -/
def ownerBy (calls : List Call) (event : MonitorEvent) : ℕ :=
  if 0 < (holdingOf (deliveredTo event.threadId calls) event.objectAddress).depth then
    event.threadId
  else 0

/-- Streams without gaps and with depths in range, in tables with room. -/
structure Faithful (maxHoldNs : ℕ) (calls : List Call) : Prop where
  gapfree : ∀ threadId, NumberedFrom 0 (deliveredTo threadId calls)
  roomy : ∀ done rest, calls = done ++ rest →
    (runCalls (monitorVerifierInit maxHoldNs) done).stateOverflowEvents = 0
  shallow : ∀ threadId done rest, calls = done ++ rest → ∀ address,
    (holdingOf (deliveredTo threadId done) address).depth < 2 ^ 32

/-- Each acquisition and each release has proposed the owner by its stream. -/
structure Proposed (calls : List Call) (made : List (MonitorEvent × ℕ)) (s : VerifierState) :
    Prop where
  history : OwnerHistory made s
  untainted : UntaintedHistory made s
  proposes : ∀ event ∈ callEvents calls, MovesOwnership event.objectAddress event →
    ∃ owner, (event, owner) ∈ made
  streamed : ∀ proposal ∈ made, MovesOwnership proposal.1.objectAddress proposal.1 ∧
    ∃ earlier later, calls = earlier ++ .processEvent proposal.1 :: later ∧
      proposal.2 = ownerBy (earlier ++ [.processEvent proposal.1]) proposal.1

variable {calls : List Call} {made : List (MonitorEvent × ℕ)} {s : VerifierState}
  {event : MonitorEvent} {maxHoldNs threadId address : ℕ}

section Proposals

theorem Faithful.initial {first second : List Call} (h : Faithful maxHoldNs (first ++ second)) :
    Faithful maxHoldNs first where
  gapfree threadId := numbered_initial (h.gapfree threadId)
  roomy done rest heq := h.roomy done (rest ++ second) (by rw [heq, List.append_assoc])
  shallow threadId done rest heq :=
    h.shallow threadId done (rest ++ second) (by rw [heq, List.append_assoc])

theorem Faithful.referenced (h : Faithful maxHoldNs calls) (threadId : ℕ) :
    Referenced threadId calls (runCalls (monitorVerifierInit maxHoldNs) calls) :=
  referenced_runCalls maxHoldNs (h.gapfree threadId) h.roomy (h.shallow threadId)

/-- The proposal of an event that follows its stream. -/
theorem proposals_referenced (h : Referenced event.threadId calls s)
    (hkept : discarded s event = false)
    (hseq : event.threadSequence = (deliveredTo event.threadId calls).length % 2 ^ 32) :
    (MovesOwnership event.objectAddress event ∧
      proposals s event = [(event, ownerBy (calls ++ [.processEvent event]) event)]) ∨
    (¬ MovesOwnership event.objectAddress event ∧ proposals s event = []) := by
  obtain ⟨htaint, hheld⟩ := observed_expected h.expecting hseq
  have hclean : (observed s event).traceTainted = false := htaint.trans h.clean
  have hdepth : heldDepth (observed s event) event.objectAddress =
      (holdingOf (deliveredTo event.threadId calls) event.objectAddress).depth := by
    rw [← h.heldDepth_eq]
    unfold heldDepth
    rw [hheld]
  have hrefused : mutexRefused s event = false := by
    unfold discarded at hkept
    rw [Bool.or_eq_false_iff] at hkept
    exact hkept.1
  unfold proposals ownerBy MovesOwnership proposedOwner
  rw [hrefused, deliveredTo_own rfl, holdingOf_snoc]
  cases htype : event.eventType with
  | lockAcquired =>
    left
    simp [Holding.next, htype]
  | unlocked =>
    left
    have hnext : ((holdingOf (deliveredTo event.threadId calls) event.objectAddress).next
        event.objectAddress event).depth =
        (holdingOf (deliveredTo event.threadId calls) event.objectAddress).depth - 1 := by
      simp [Holding.next, htype]
    rw [fullyReleased_eq hclean, hdepth, hnext]
    by_cases hdeep : (holdingOf (deliveredTo event.threadId calls) event.objectAddress).depth > 1
    · have hpositive : 0 < (holdingOf (deliveredTo event.threadId calls)
          event.objectAddress).depth - 1 := by omega
      rw [if_pos hpositive]
      simp [hdeep]
    · have hzero : (holdingOf (deliveredTo event.threadId calls) event.objectAddress).depth - 1 =
          0 := by omega
      simp [hdeep, hzero]
  | _ => simp

theorem Proposed.processEvent (h : Proposed calls made s) (hwf : WellFormed s)
    (hreferenced : Referenced event.threadId calls s) (hroom : ThreadRoom s event.threadId)
    (hkept : discarded s event = false)
    (hseq : event.threadSequence = (deliveredTo event.threadId calls).length % 2 ^ 32) :
    Proposed (calls ++ [.processEvent event]) (made ++ proposals s event)
      (monitorVerifierProcessEvent s event) := by
  have hp := processEvent_processed hwf hroom
  have hgap : hasGap (threadAt s event.threadId) event = false := by
    rw [← Bool.not_eq_true, hasGap_iff hreferenced.expecting]
    exact fun hne => hne hseq
  have htaint : taints (threadAt s event.threadId) event = false := by
    unfold taints
    rw [hgap, Bool.false_and]
  have hlater : ∀ proposal ∈ made, MovesOwnership proposal.1.objectAddress proposal.1 ∧
      ∃ earlier later,
        calls ++ [.processEvent event] = earlier ++ .processEvent proposal.1 :: later ∧
          proposal.2 = ownerBy (earlier ++ [.processEvent proposal.1]) proposal.1 := by
    intro proposal hmem
    obtain ⟨hmoves, earlier, later, rfl, howner⟩ := h.streamed proposal hmem
    exact ⟨hmoves, earlier, later ++ [.processEvent event], by simp, howner⟩
  have hevents : callEvents (calls ++ [.processEvent event]) = callEvents calls ++ [event] :=
    callEvents_append calls [.processEvent event]
  refine ⟨h.history.processed hp, h.untainted.processed h.history hp htaint, ?_, ?_⟩
  · intro other hmem hmoves
    rw [hevents, List.mem_append, List.mem_singleton] at hmem
    rcases hmem with hold | rfl
    · obtain ⟨owner, hmade⟩ := h.proposes other hold hmoves
      exact ⟨owner, List.mem_append_left _ hmade⟩
    · rcases proposals_referenced hreferenced hkept hseq with ⟨-, hone⟩ | ⟨hnot, -⟩
      · rw [hone]
        exact ⟨_, List.mem_append_right _ (List.mem_singleton_self _)⟩
      · exact absurd hmoves hnot
  · intro proposal hmem
    rcases List.mem_append.mp hmem with hold | hnew
    · exact hlater proposal hold
    · rcases proposals_referenced hreferenced hkept hseq with ⟨hmoves, hone⟩ | ⟨-, hnone⟩
      · rw [hone, List.mem_singleton] at hnew
        subst hnew
        exact ⟨hmoves, calls, [], rfl, rfl⟩
      · rw [hnone] at hnew
        cases hnew

theorem Proposed.check (h : Proposed calls made s) :
    Proposed (calls ++ [.checkDeadlocks]) made (monitorVerifierCheckDeadlocks s) := by
  have hmutexes : (monitorVerifierCheckDeadlocks s).mutexOf = s.mutexOf := by
    unfold VerifierState.mutexOf
    rw [(check_frame s).2.1]
  have hevents : callEvents (calls ++ [.checkDeadlocks]) = callEvents calls := by
    rw [callEvents_append]
    exact List.append_nil _
  refine ⟨ownerHistory_congr h.history hmutexes, ?_, ?_, ?_⟩
  · unfold UntaintedHistory
    rw [hmutexes]
    exact h.untainted
  · rw [hevents]
    exact h.proposes
  · intro proposal hmem
    obtain ⟨hmoves, earlier, later, rfl, howner⟩ := h.streamed proposal hmem
    exact ⟨hmoves, earlier, later ++ [.checkDeadlocks], by simp, howner⟩

theorem proposed_runCalls (h : Faithful maxHoldNs calls) :
    ∃ made, Proposed calls made (runCalls (monitorVerifierInit maxHoldNs) calls) := by
  induction calls using List.reverseRecOn with
  | nil =>
    exact ⟨[], ownerHistory_init maxHoldNs, untaintedHistory_init maxHoldNs, by simp [callEvents],
      by simp⟩
  | append_singleton calls call ih =>
    obtain ⟨made, hbefore⟩ := ih h.initial
    have hwf := wellFormed_runCalls (wellFormed_init maxHoldNs) calls
    rw [runCalls_append]
    cases call with
    | checkDeadlocks => exact ⟨made, hbefore.check⟩
    | processEvent event =>
      obtain ⟨hroom, hkept⟩ := admitted_of_noOverflow hwf (h.roomy calls _ rfl) (by
        have hnext := h.roomy (calls ++ [.processEvent event]) [] (List.append_nil _).symm
        rwa [runCalls_append] at hnext)
      have hnumbered := h.gapfree event.threadId
      rw [deliveredTo_own rfl, numberedFrom_append, Nat.zero_add] at hnumbered
      exact ⟨_, hbefore.processEvent hwf (h.initial.referenced event.threadId) hroom hkept
        hnumbered.2.1⟩

end Proposals

/-- Events that move no ownership of the mutex leave its depth alone. -/
theorem depth_unmoved {events : List MonitorEvent}
    (h : ∀ event ∈ events, ¬ MovesOwnership address event) (holding : Holding) :
    (events.foldl (Holding.next address) holding).depth = holding.depth := by
  induction events generalizing holding with
  | nil => rfl
  | cons event rest ih =>
    rw [List.foldl_cons, ih fun later hmem => h later (List.mem_cons_of_mem _ hmem)]
    have hfirst := h event (List.mem_cons_self ..)
    unfold MovesOwnership at hfirst
    unfold Holding.next
    split
    · rename_i haddress
      cases htype : event.eventType with
      | lockAcquired | unlocked => simp [htype, haddress] at hfirst
      | _ => rfl
    · rfl

/-- The newest acquisition or release of a mutex decides its owner on record, which is the
one that the whole stream of its thread gives. -/
theorem newest_move_owns (h : Faithful maxHoldNs calls) (hordered : StreamsOrdered calls)
    (hdistinct : ∀ first ∈ callEvents calls, ∀ second ∈ callEvents calls,
      first.sequenceId = second.sequenceId → first = second)
    (hmem : event ∈ callEvents calls) (hmoves : MovesOwnership address event)
    (hnewest : ∀ other ∈ callEvents calls, MovesOwnership address other →
      other.sequenceId ≤ event.sequenceId) :
    ∃ mutex, (runCalls (monitorVerifierInit maxHoldNs) calls).mutexOf address = some mutex ∧
      mutex.ownerKnown = true ∧ mutex.ownerThreadId = ownerBy calls event := by
  obtain ⟨made, hproposed⟩ := proposed_runCalls h
  obtain rfl : event.objectAddress = address := hmoves.2
  obtain ⟨owner, hmade⟩ := hproposed.proposes event hmem hmoves
  obtain ⟨mutex, hmutex, hle⟩ := hproposed.history.newest _ hmade
  simp only at hle hmutex
  have hknown : mutex.ownerKnown = true := by
    by_contra hunknown
    rw [Bool.not_eq_true] at hunknown
    exact (hproposed.untainted _ mutex hmutex hunknown).2 _ hmade rfl
  obtain ⟨proposal, hp, haddress, hlast, howner⟩ :=
    hproposed.history.known _ mutex hmutex hknown
  obtain ⟨hpmoves, earlier, later, hcalls, hpowner⟩ := hproposed.streamed proposal hp
  have hpmem : proposal.1 ∈ callEvents calls := by
    rw [hcalls, callEvents_append]
    exact List.mem_append_right _ (List.mem_cons_self ..)
  -- the recorded number is that of the newest update
  have hsame : proposal.1 = event := by
    rw [haddress] at hpmoves
    have hbefore := hnewest _ hpmem hpmoves
    exact hdistinct _ hpmem _ hmem (by omega)
  refine ⟨mutex, hmutex, hknown, ?_⟩
  rw [← howner, hpowner, hsame]
  have hsplit : deliveredTo event.threadId calls =
      deliveredTo event.threadId (earlier ++ [.processEvent event]) ++
        deliveredTo event.threadId later := by
    rw [hcalls, hsame, deliveredTo, deliveredTo, deliveredTo, ← stream_append,
      ← callEvents_append, List.append_assoc]
    rfl
  have hunmoved : ∀ other ∈ deliveredTo event.threadId later,
      ¬ MovesOwnership event.objectAddress other := by
    intro other hother hothers
    have hpairs := hordered event.threadId
    rw [hsplit, List.pairwise_append] at hpairs
    have hlater := hpairs.2.2 event (by rw [deliveredTo_own rfl]; simp) other hother
    have hevents : other ∈ callEvents calls := by
      apply (mem_stream.mp (?_ : other ∈ deliveredTo event.threadId calls)).1
      rw [hsplit]
      exact List.mem_append_right _ hother
    have hbefore := hnewest other hevents hothers
    omega
  unfold ownerBy holdingOf
  rw [hsplit, List.foldl_append, depth_unmoved hunmoved]

end RuntimeMonitor.NewestOwners
