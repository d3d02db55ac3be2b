import RuntimeMonitor.StreamReplay

/-!
Ownership as the verifier records it. An acquisition proposes its thread as the
owner, a release proposes its thread or nobody; the newest proposal by global
sequence wins, and the tainting of a thread only forgets owners and raises the
barrier. So a known owner was proposed under exactly the recorded sequence, and
no processed proposal for that mutex is newer.
-/
namespace RuntimeMonitor.OwnershipRecords

open EventRecord SlotTables VerifierTables VerifierEvents VerifierSteps VerifierCycles
open HeldTables VerifierInvariant VerifierMaps KeyedStreams StreamReplay

/-- The owner that an event proposes, zero for nobody. -/
def proposedOwner (thread : VerifierThreadState) (event : MonitorEvent) : Option ℕ :=
  match event.eventType with
  | .lockAcquired => some event.threadId
  | .unlocked =>
      some (if fullyReleased thread event.objectAddress then 0 else event.threadId)
  | _ => none

/-- The proposals made while processing an event, with the event. -/
def proposals (s : VerifierState) (event : MonitorEvent) : List (MonitorEvent × ℕ) :=
  if mutexRefused s event then []
  else (proposedOwner (observed s event) event).toList.map fun owner => (event, owner)

def replayProposals (thread : Option VerifierThreadState) (event : MonitorEvent) :
    List (MonitorEvent × ℕ) :=
  (proposedOwner (replayObserved thread event) event).toList.map fun owner => (event, owner)

/-- What the mutex table knows of the proposals `made` so far. -/
structure OwnerHistory (made : List (MonitorEvent × ℕ)) (s : VerifierState) : Prop where
  known : ∀ address mutex, s.mutexOf address = some mutex → mutex.ownerKnown = true →
    ∃ proposal ∈ made, proposal.1.objectAddress = address ∧
      proposal.1.sequenceId = mutex.lastStateSequence ∧ proposal.2 = mutex.ownerThreadId
  newest : ∀ proposal ∈ made, ∃ mutex, s.mutexOf proposal.1.objectAddress = some mutex ∧
    proposal.1.sequenceId ≤ mutex.lastStateSequence

/-- While no stream has been tainted, an unknown owner means that nothing has been
proposed for the mutex. -/
def UntaintedHistory (made : List (MonitorEvent × ℕ)) (s : VerifierState) : Prop :=
  ∀ address mutex, s.mutexOf address = some mutex → mutex.ownerKnown = false →
    mutex = freshMutex address ∧ ∀ proposal ∈ made, proposal.1.objectAddress ≠ address

variable {made : List (MonitorEvent × ℕ)} {s s' : VerifierState} {event : MonitorEvent}

theorem proposedOwner_touches {thread : VerifierThreadState} {owner : ℕ}
    (h : proposedOwner thread event = some owner) : touchesMutex event = true := by
  unfold proposedOwner at h
  unfold touchesMutex
  split at h <;> simp_all

theorem handleMutex_eq (mutex : VerifierMutexState) (thread : VerifierThreadState)
    (event : MonitorEvent) :
    handleMutex mutex thread event =
      match proposedOwner thread event with
      | some owner => newOwner mutex event owner
      | none => mutex := by
  unfold handleMutex proposedOwner
  cases event.eventType <;> rfl

theorem newOwner_cases (mutex : VerifierMutexState) (event : MonitorEvent) (owner : ℕ) :
    (mutex.lastStateSequence ≤ event.sequenceId ∧
      (newOwner mutex event owner).ownerKnown = true ∧
      (newOwner mutex event owner).ownerThreadId = owner ∧
      (newOwner mutex event owner).lastStateSequence = event.sequenceId) ∨
    (event.sequenceId < mutex.lastStateSequence ∧ newOwner mutex event owner = mutex) := by
  unfold newOwner
  by_cases h : event.sequenceId ≥ mutex.lastStateSequence
  · rw [if_pos h]
    exact Or.inl ⟨h, rfl, rfl, rfl⟩
  · rw [if_neg h]
    exact Or.inr ⟨by omega, rfl⟩

theorem invalidateMutex_cases (mutex : VerifierMutexState) (threadId barrier : ℕ) :
    ((invalidateMutex mutex threadId barrier).ownerKnown = false ∧
      mutex.lastStateSequence ≤ (invalidateMutex mutex threadId barrier).lastStateSequence) ∨
    invalidateMutex mutex threadId barrier = mutex := by
  unfold invalidateMutex
  split
  · refine Or.inl ⟨rfl, ?_⟩
    dsimp only
    split <;> omega
  · exact Or.inr rfl

theorem ownerHistory_init (maxHoldNs : ℕ) : OwnerHistory [] (monitorVerifierInit maxHoldNs) where
  known address mutex hmutex := by
    rw [init_mutexOf] at hmutex
    simp at hmutex
  newest proposal hmem := by simp at hmem

/-- The sequence check forgets owners and raises barriers only. -/
theorem OwnerHistory.checked (h : OwnerHistory made s) (event : MonitorEvent) :
    (∀ address mutex, checkedMutexes s event address = some mutex → mutex.ownerKnown = true →
      ∃ proposal ∈ made, proposal.1.objectAddress = address ∧
        proposal.1.sequenceId = mutex.lastStateSequence ∧ proposal.2 = mutex.ownerThreadId) ∧
    ∀ proposal ∈ made, ∃ mutex, checkedMutexes s event proposal.1.objectAddress = some mutex ∧
      proposal.1.sequenceId ≤ mutex.lastStateSequence := by
  unfold checkedMutexes
  by_cases htaint : taints (threadAt s event.threadId) event = true
  · simp only [if_pos htaint, Option.map_eq_some_iff]
    constructor
    · rintro address mutex ⟨old, hold, rfl⟩ hknown
      rcases invalidateMutex_cases old event.threadId event.sequenceId with ⟨hforget, -⟩ | hsame
      · rw [hforget] at hknown
        simp at hknown
      · rw [hsame] at hknown ⊢
        exact h.known address old hold hknown
    · intro proposal hmem
      obtain ⟨old, hold, hle⟩ := h.newest proposal hmem
      refine ⟨_, ⟨old, hold, rfl⟩, ?_⟩
      rcases invalidateMutex_cases old event.threadId event.sequenceId with ⟨-, hup⟩ | hsame
      · exact hle.trans hup
      · rwa [hsame]
  · simp only [if_neg htaint]
    exact ⟨h.known, h.newest⟩

theorem processedMutexes_plain (h : proposals s event = []) (address : ℕ) :
    processedMutexes s event address = checkedMutexes s event address ∨
      (checkedMutexes s event address = none ∧
        processedMutexes s event address = some (freshMutex address)) := by
  unfold processedMutexes
  by_cases htouch : (touchesMutex event && !mutexRefused s event) = true
  · rw [if_pos htouch]
    simp only [Bool.and_eq_true, Bool.not_eq_true'] at htouch
    have hnone : proposedOwner (observed s event) event = none := by
      simpa [proposals, htouch.2] using h
    rw [handleMutex_eq, hnone]
    by_cases heq : address = event.objectAddress
    · subst heq
      rw [Function.update_self]
      cases checkedMutexes s event event.objectAddress with
      | none => exact Or.inr ⟨rfl, rfl⟩
      | some mutex => exact Or.inl rfl
    · rw [Function.update_of_ne heq]
      exact Or.inl rfl
  · rw [if_neg htouch]
    exact Or.inl rfl

theorem processedMutexes_proposal {owner : ℕ} (h : proposals s event = [(event, owner)]) :
    processedMutexes s event = Function.update (checkedMutexes s event) event.objectAddress
      (some (newOwner ((checkedMutexes s event event.objectAddress).getD
        (freshMutex event.objectAddress)) event owner)) := by
  unfold proposals at h
  split at h
  · simp at h
  rename_i hrefused
  have hproposed : proposedOwner (observed s event) event = some owner := by
    cases hcase : proposedOwner (observed s event) event with
    | none => simp [hcase] at h
    | some o =>
      simp only [hcase, Option.toList_some, List.map_cons, List.map_nil, List.cons.injEq,
        Prod.mk.injEq, true_and, and_true] at h
      rw [h]
  have htouch := proposedOwner_touches hproposed
  rw [Bool.not_eq_true] at hrefused
  simp only [processedMutexes, htouch, hrefused, Bool.not_false, Bool.and_self, if_true,
    handleMutex_eq, hproposed]

theorem proposals_cases (s : VerifierState) (event : MonitorEvent) :
    proposals s event = [] ∨ ∃ owner, proposals s event = [(event, owner)] := by
  unfold proposals
  split
  · exact Or.inl rfl
  · cases proposedOwner (observed s event) event with
    | none => exact Or.inl rfl
    | some owner => exact Or.inr ⟨owner, rfl⟩

/-- One event keeps the history, extended by its own proposal. -/
theorem OwnerHistory.processed (h : OwnerHistory made s) (hp : Processed s event s') :
    OwnerHistory (made ++ proposals s event) s' := by
  obtain ⟨hknown, hnewest⟩ := h.checked event
  rcases proposals_cases s event with hnone | ⟨owner, hone⟩
  · rw [hnone, List.append_nil]
    constructor
    · intro address mutex hmutex hk
      rw [hp.mutexes] at hmutex
      rcases processedMutexes_plain hnone address with hsame | ⟨-, hfresh⟩
      · rw [hsame] at hmutex
        exact hknown address mutex hmutex hk
      · rw [hfresh, Option.some.injEq] at hmutex
        subst hmutex
        simp [freshMutex] at hk
    · intro proposal hmem
      obtain ⟨mutex, hmutex, hle⟩ := hnewest proposal hmem
      refine ⟨mutex, ?_, hle⟩
      rw [hp.mutexes]
      rcases processedMutexes_plain hnone proposal.1.objectAddress with hsame | ⟨hold, -⟩
      · rw [hsame, hmutex]
      · rw [hold] at hmutex
        simp at hmutex
  · have hmutexes := hp.mutexes.trans (processedMutexes_proposal hone)
    rw [hone]
    generalize hentry : (checkedMutexes s event event.objectAddress).getD
      (freshMutex event.objectAddress) = entry at hmutexes
    have hentry_known : entry.ownerKnown = true → ∃ proposal ∈ made,
        proposal.1.objectAddress = event.objectAddress ∧
        proposal.1.sequenceId = entry.lastStateSequence ∧
        proposal.2 = entry.ownerThreadId := by
      intro hk
      cases hcase : checkedMutexes s event event.objectAddress with
      | none =>
        rw [hcase] at hentry
        subst hentry
        simp [freshMutex] at hk
      | some mutex =>
        rw [hcase, Option.getD_some] at hentry
        subst hentry
        exact hknown _ _ hcase hk
    constructor
    · intro address mutex hmutex hk
      rw [hmutexes] at hmutex
      by_cases heq : address = event.objectAddress
      · rw [heq, Function.update_self, Option.some.injEq] at hmutex
        subst hmutex
        rcases newOwner_cases entry event owner with ⟨-, -, howner, hlast⟩ | ⟨-, hsame⟩
        · exact ⟨(event, owner), by simp, heq.symm, hlast.symm, howner.symm⟩
        · rw [hsame] at hk ⊢
          obtain ⟨proposal, hmem, haddress, hrest⟩ := hentry_known hk
          exact ⟨proposal, List.mem_append_left _ hmem, haddress.trans heq.symm, hrest⟩
      · rw [Function.update_of_ne heq] at hmutex
        obtain ⟨proposal, hmem, hrest⟩ := hknown address mutex hmutex hk
        exact ⟨proposal, List.mem_append_left _ hmem, hrest⟩
    · intro proposal hmem
      rw [hmutexes]
      rw [List.mem_append, List.mem_singleton] at hmem
      by_cases heq : proposal.1.objectAddress = event.objectAddress
      · rw [heq, Function.update_self]
        refine ⟨_, rfl, ?_⟩
        rcases hmem with hold | rfl
        · obtain ⟨mutex, hmutex, hle⟩ := hnewest proposal hold
          rw [heq] at hmutex
          rw [hmutex, Option.getD_some] at hentry
          subst hentry
          rcases newOwner_cases mutex event owner with ⟨hge, -, -, hlast⟩ | ⟨-, hsame⟩
          · omega
          · rwa [hsame]
        · rcases newOwner_cases entry event owner with ⟨-, -, -, hlast⟩ | ⟨hlt, hsame⟩
          · exact hlast.ge
          · rw [hsame]
            exact hlt.le
      · rw [Function.update_of_ne heq]
        rcases hmem with hold | rfl
        · exact hnewest proposal hold
        · exact absurd rfl heq

theorem checkedMutexes_untainted (h : taints (threadAt s event.threadId) event = false) :
    checkedMutexes s event = s.mutexOf := by
  unfold checkedMutexes
  simp [h]

theorem UntaintedHistory.processed (hu : UntaintedHistory made s) (h : OwnerHistory made s)
    (hp : Processed s event s') (hclean : taints (threadAt s event.threadId) event = false) :
    UntaintedHistory (made ++ proposals s event) s' := by
  have hchecked := checkedMutexes_untainted hclean
  intro address mutex hmutex hk
  rw [hp.mutexes] at hmutex
  rcases proposals_cases s event with hnone | ⟨owner, hone⟩
  · rw [hnone, List.append_nil]
    rcases processedMutexes_plain hnone address with hsame | ⟨hold, hfresh⟩
    · rw [hsame, hchecked] at hmutex
      exact hu address mutex hmutex hk
    · rw [hfresh, Option.some.injEq] at hmutex
      refine ⟨hmutex.symm, ?_⟩
      intro proposal hmem heq
      obtain ⟨entry, hentry, -⟩ := h.newest proposal hmem
      rw [heq, ← hchecked, hold] at hentry
      simp at hentry
  · rw [processedMutexes_proposal hone, hchecked] at hmutex
    by_cases heq : address = event.objectAddress
    · -- the entry was fresh or known, so the proposal is applied or was beaten
      exfalso
      rw [heq, Function.update_self, Option.some.injEq] at hmutex
      generalize hentry : (s.mutexOf event.objectAddress).getD
        (freshMutex event.objectAddress) = entry at hmutex
      rcases newOwner_cases entry event owner with ⟨-, hknown, -⟩ | ⟨hlt, hsame⟩
      · rw [← hmutex, hknown] at hk
        simp at hk
      · rw [hsame] at hmutex
        rw [← hmutex] at hk
        have hfresh : entry = freshMutex event.objectAddress := by
          cases hcase : s.mutexOf event.objectAddress with
          | none =>
            rw [hcase] at hentry
            exact hentry.symm
          | some old =>
            rw [hcase, Option.getD_some] at hentry
            subst hentry
            exact (hu _ _ hcase hk).1
        rw [hfresh] at hlt
        simp [freshMutex] at hlt
    · rw [Function.update_of_ne heq] at hmutex
      obtain ⟨hfresh, hnever⟩ := hu address mutex hmutex hk
      refine ⟨hfresh, ?_⟩
      intro proposal hmem
      rw [hone, List.mem_append, List.mem_singleton] at hmem
      rcases hmem with hold | rfl
      · exact hnever proposal hold
      · exact Ne.symm heq

theorem untaintedHistory_init (maxHoldNs : ℕ) :
    UntaintedHistory [] (monitorVerifierInit maxHoldNs) := by
  intro address mutex hmutex
  rw [init_mutexOf] at hmutex
  simp at hmutex

/-- The entries that exist after an event. -/
theorem processed_mutex_exists (hp : Processed s event s')
    (hrefused : mutexRefused s event = false) (address : ℕ) :
    s'.mutexOf address ≠ none ↔ s.mutexOf address ≠ none ∨
      (touchesMutex event = true ∧ event.objectAddress = address) := by
  rw [hp.mutexes, processedMutexes]
  have hchecked : checkedMutexes s event address ≠ none ↔ s.mutexOf address ≠ none :=
    not_congr checkedMutexes_eq_none_iff
  by_cases htouch : touchesMutex event = true
  · rw [hrefused, htouch, Bool.not_false, Bool.and_self, if_pos rfl]
    by_cases heq : event.objectAddress = address
    · subst heq
      simp
    · rw [Function.update_of_ne (Ne.symm heq), hchecked]
      simp [heq]
  · rw [Bool.not_eq_true] at htouch
    rw [htouch, Bool.false_and, if_neg (by simp), hchecked]
    simp

section Runs

variable {T A : Finset ℕ} {events : List MonitorEvent}

theorem proposals_replay (hrefused : mutexRefused s event = false) :
    proposals s event = mapOut (·.threadId) replayProposals s.threadOf event := by
  unfold proposals
  rw [hrefused, if_neg (by simp)]
  rfl

/-- The history of a whole run in tables with room, with its proposals as outputs
of the replay. -/
theorem ownerHistory_processAll (hhistory : OwnerHistory made s) (h : WellFormed s)
    (hfits : Fits T A s) (hT : T.card ≤ verifierMaxThreads) (hA : A.card ≤ verifierMaxMutexes)
    (hin : ∀ event ∈ events, EventIn T A event) :
    OwnerHistory
      (made ++ outputs replayAll (mapOut (·.threadId) replayProposals) s.threadOf events)
      (processAll s events) := by
  induction events generalizing s made with
  | nil => simpa [outputs] using hhistory
  | cons event rest ih =>
    have hevent := hin event (List.mem_cons_self ..)
    obtain ⟨hprocessed, hrefused, hthreads⟩ := processEvent_replay h hfits hT hA hevent
    have hnext := ih (hhistory.processed hprocessed) (wellFormed_processEvent h event)
      (hfits.processEvent h hT hA hevent) fun e he => hin e (List.mem_cons_of_mem _ he)
    rw [proposals_replay hrefused, hthreads, List.append_assoc] at hnext
    exact hnext

theorem untaintedHistory_processAll (hu : UntaintedHistory made s)
    (hhistory : OwnerHistory made s) (h : WellFormed s)
    (hfits : Fits T A s) (hT : T.card ≤ verifierMaxThreads) (hA : A.card ≤ verifierMaxMutexes)
    (hin : ∀ event ∈ events, EventIn T A event)
    (hgaps : outputs replayAll (mapOut (·.threadId) replayGaps) s.threadOf events = []) :
    UntaintedHistory
      (made ++ outputs replayAll (mapOut (·.threadId) replayProposals) s.threadOf events)
      (processAll s events) := by
  induction events generalizing s made with
  | nil => simpa [outputs] using hu
  | cons event rest ih =>
    have hevent := hin event (List.mem_cons_self ..)
    obtain ⟨hprocessed, hrefused, hthreads⟩ := processEvent_replay h hfits hT hA hevent
    rw [outputs, List.append_eq_nil_iff] at hgaps
    obtain ⟨hgap, hgaps⟩ := hgaps
    have hnogap : hasGap (threadAt s event.threadId) event = false := by
      by_contra hcon
      rw [Bool.not_eq_false] at hcon
      have hout : mapOut (·.threadId) replayGaps s.threadOf event = [event] := if_pos hcon
      rw [hout] at hgap
      simp at hgap
    have hclean : taints (threadAt s event.threadId) event = false := by simp [taints, hnogap]
    rw [← hthreads] at hgaps
    have hnext := ih (hu.processed hhistory hprocessed hclean) (hhistory.processed hprocessed)
      (wellFormed_processEvent h event) (hfits.processEvent h hT hA hevent)
      (fun e he => hin e (List.mem_cons_of_mem _ he)) hgaps
    rw [proposals_replay hrefused, hthreads, List.append_assoc] at hnext
    exact hnext

/-- The mutexes with an entry are those that some event has touched. -/
theorem mutex_exists_processAll (h : WellFormed s) (hfits : Fits T A s)
    (hT : T.card ≤ verifierMaxThreads) (hA : A.card ≤ verifierMaxMutexes)
    (hin : ∀ event ∈ events, EventIn T A event) (address : ℕ) :
    (processAll s events).mutexOf address ≠ none ↔ s.mutexOf address ≠ none ∨
      ∃ event ∈ events, touchesMutex event = true ∧ event.objectAddress = address := by
  induction events generalizing s with
  | nil => simp
  | cons event rest ih =>
    have hevent := hin event (List.mem_cons_self ..)
    obtain ⟨hprocessed, hrefused, -⟩ := processEvent_replay h hfits hT hA hevent
    have hnext := ih (wellFormed_processEvent h event) (hfits.processEvent h hT hA hevent)
      fun e he => hin e (List.mem_cons_of_mem _ he)
    change (processAll (monitorVerifierProcessEvent s event) rest).mutexOf address ≠ none ↔ _
    rw [hnext, processed_mutex_exists hprocessed hrefused]
    simp only [List.mem_cons, exists_eq_or_imp, or_assoc]

end Runs

end RuntimeMonitor.OwnershipRecords
