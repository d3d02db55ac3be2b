import RuntimeMonitor.ConsistentSnapshots
import RuntimeMonitor.CycleReports
import RuntimeMonitor.LosslessRuns
import RuntimeMonitor.RuntimeRounds

/-!
Cycles computed from a lossy trace. A listed thread is not tainted, so up to its latest
delivered event nothing of its stream is missing, and a known owner is the one that the
newest processed proposal names. The cycle is therefore one of the complete trace too,
unless the loss is behind the latest delivered event of a listed thread or took the
newest acquisition or release of a listed mutex.
-/
namespace RuntimeMonitor.LossyCycles

open TransitionRuns EventRecord SlotTables VerifierTables VerifierEvents VerifierSteps
open VerifierCycles VerifierInvariant VerifierMaps KeyedStreams StreamReplay OwnershipRecords
open SequenceGaps ConsumptionOrder EventLoss FunctionalCycles WaitForCycles MonitorRuntime
open SlotOwnership RuntimeStreams EventNumbers RuntimeAccounts AuthoritativeTraces
open StreamTracking GapDetection LosslessRuns ConsistentSnapshots RuntimeRounds
open RingBuffer (spscRingCapacity)

/-- The event changes the recorded ownership of the mutex. -/
def MovesOwnership (address : ℕ) (event : MonitorEvent) : Prop :=
  (event.eventType = .lockAcquired ∨ event.eventType = .unlocked) ∧ event.objectAddress = address

/-- The latest event attempted on the slot was delivered. -/
def LatestDelivered (slot : ℕ) (tr : List Observation) : Prop :=
  ∀ attempt ∈ (attemptsOn slot tr).getLast?, attempt.2 = true

instance (slot : ℕ) (tr : List Observation) : Decidable (LatestDelivered slot tr) :=
  inferInstanceAs (Decidable (∀ attempt ∈ (attemptsOn slot tr).getLast?, attempt.2 = true))

/-- Of all attempted acquisitions and releases of the mutex, the one with the greatest
number was delivered. -/
def NewestDelivered (address : ℕ) (tr : List Observation) : Prop :=
  ∃ slot earlier event later, attemptsOn slot tr = earlier ++ (event, true) :: later ∧
    MovesOwnership address event ∧
    (∀ attempt ∈ earlier ++ later, MovesOwnership address attempt.1 →
      attempt.1.sequenceId < event.sequenceId) ∧
    ∀ slot', slot' ≠ slot → ∀ attempt ∈ attemptsOn slot' tr,
      MovesOwnership address attempt.1 → attempt.1.sequenceId < event.sequenceId

/-- Every attempted event once with its slot, each stream in its generation order. -/
def CompleteFeed (tr : List Observation) (feed : List (ℕ × MonitorEvent)) : Prop :=
  ∀ slot, (feed.filter fun entry => entry.1 = slot).map Prod.snd =
    generated (attemptsOn slot tr)

section Tables

variable {T A : Finset ℕ} {s s' : VerifierState} {made made' : List (MonitorEvent × ℕ)}
  {calls : List Call} {cycle : List (ℕ × ℕ)}

theorem ownerHistory_congr (h : OwnerHistory made s) (hmutexes : s'.mutexOf = s.mutexOf) :
    OwnerHistory made s' := by
  constructor
  · rw [hmutexes]
    exact h.known
  · rw [hmutexes]
    exact h.newest

/-- The checks between the events leave both tables alone. -/
theorem history_runCalls (hT : T.card ≤ verifierMaxThreads) (hA : A.card ≤ verifierMaxMutexes)
    (h : WellFormed s) (hfits : Fits T A s) (hhistory : OwnerHistory made s)
    (hin : ∀ event ∈ callEvents calls, EventIn T A event) :
    (runCalls s calls).threadOf = (callEvents calls).foldl replayAll s.threadOf ∧
      OwnerHistory (made ++
        outputs replayAll (mapOut (·.threadId) replayProposals) s.threadOf (callEvents calls))
        (runCalls s calls) := by
  induction calls generalizing s made with
  | nil => exact ⟨rfl, by simpa [callEvents, outputs] using hhistory⟩
  | cons call rest ih =>
    rw [runCalls_cons]
    cases call with
    | checkDeadlocks =>
      obtain ⟨hthreads, hmutexes, -⟩ := check_frame s
      have hthreadOf : (monitorVerifierCheckDeadlocks s).threadOf = s.threadOf := by
        unfold VerifierState.threadOf
        rw [hthreads]
      have hmutexOf : (monitorVerifierCheckDeadlocks s).mutexOf = s.mutexOf := by
        unfold VerifierState.mutexOf
        rw [hmutexes]
      have hfits' : Fits T A (monitorVerifierCheckDeadlocks s) := by
        constructor
        · rw [hthreadOf]
          exact hfits.threads
        · rw [hmutexOf]
          exact hfits.mutexes
      have hnext := ih (wellFormed_check h) hfits' (ownerHistory_congr hhistory hmutexOf) hin
      rw [hthreadOf] at hnext
      exact hnext
    | processEvent event =>
      have hevent := hin event (List.mem_cons_self ..)
      obtain ⟨hprocessed, hrefused, hthreads⟩ := processEvent_replay h hfits hT hA hevent
      have hnext := ih (wellFormed_processEvent h event) (hfits.processEvent h hT hA hevent)
        (hhistory.processed hprocessed) fun e he => hin e (List.mem_cons_of_mem _ he)
      rw [proposals_replay hrefused, hthreads, List.append_assoc] at hnext
      exact hnext

/-- A known owner is the owner in another run that has the proposal which made it and no
newer one. -/
theorem owner_transfer (h : OwnerHistory made s) (h' : OwnerHistory made' s')
    (hu : UntaintedHistory made' s') {address : ℕ} {mutex : VerifierMutexState}
    (hmutex : s.mutexOf address = some mutex) (hknown : mutex.ownerKnown = true)
    (hshared : ∀ p ∈ made, p.1.objectAddress = address →
      p.1.sequenceId = mutex.lastStateSequence → p.2 = mutex.ownerThreadId →
      p ∈ made' ∧ ∀ p' ∈ made', p'.1.objectAddress = address →
        p.1.sequenceId ≤ p'.1.sequenceId → p' = p) :
    ∃ mutex', s'.mutexOf address = some mutex' ∧ mutex'.ownerKnown = true ∧
      mutex'.ownerThreadId = mutex.ownerThreadId := by
  obtain ⟨p, hp, haddress, hlast, howner⟩ := h.known address mutex hmutex hknown
  obtain ⟨hp', hunique⟩ := hshared p hp haddress hlast howner
  obtain ⟨mutex', hmutex', hle⟩ := h'.newest p hp'
  rw [haddress] at hmutex'
  have hknown' : mutex'.ownerKnown = true := by
    by_contra hunknown
    rw [Bool.not_eq_true] at hunknown
    exact (hu address mutex' hmutex' hunknown).2 p hp' haddress
  obtain ⟨p', hmem, haddress', hlast', howner'⟩ := h'.known address mutex' hmutex' hknown'
  have heq := hunique p' hmem haddress' (by omega)
  refine ⟨mutex', hmutex', hknown', ?_⟩
  rw [← howner', heq, howner]

/-- A cycle carries over with the entries of its threads and the owners of its mutexes. -/
theorem cycleIn_transfer (h : CycleIn s cycle)
    (hthreads : ∀ threadId ∈ cycle.map Prod.fst, s'.threadOf threadId = s.threadOf threadId)
    (howners : ∀ wait ∈ cycle, ∀ mutex, s.mutexOf wait.2 = some mutex →
      mutex.ownerKnown = true → mutex.ownerThreadId ∈ cycle.map Prod.fst →
      mutex.ownerThreadId ≠ 0 →
      ∃ mutex', s'.mutexOf wait.2 = some mutex' ∧ mutex'.ownerKnown = true ∧
        mutex'.ownerThreadId = mutex.ownerThreadId) : CycleIn s' cycle := by
  have hwaitOf : ∀ threadId ∈ cycle.map Prod.fst, waitOf s' threadId = waitOf s threadId := by
    intro threadId hmem
    unfold waitOf threadAt
    rw [hthreads threadId hmem]
  refine ⟨h.long, h.closed.congr fun threadId hmem => ?_, fun wait hmem => ?_⟩
  · obtain ⟨owner, howner, hnext⟩ := h.closed.next_mem hmem
    rw [hnext]
    obtain ⟨thread, mutex, ownerThread, hthread, hgraph, hwait, hmutex, hknown, hid, hzero,
      hownerThread, hownerGraph⟩ := waitsFor_eq_some_iff.mp hnext
    obtain ⟨wait, hwaitMem, rfl⟩ := List.mem_map.mp hmem
    have hmutexes := h.mutexes wait hwaitMem
    unfold waitOf threadAt at hmutexes
    rw [hthread, Option.getD_some] at hmutexes
    have haddress : thread.waitingMutex = wait.2 := congrArg Prod.snd hmutexes
    rw [haddress] at hmutex
    subst hid
    obtain ⟨mutex', hmutex', hknown', howner'⟩ :=
      howners wait hwaitMem mutex hmutex hknown howner hzero
    rw [← hthreads _ hmem] at hthread
    rw [← hthreads _ howner] at hownerThread
    rw [← haddress] at hmutex'
    exact waitsFor_eq_some_iff.mpr ⟨thread, mutex', ownerThread, hthread, hgraph, hwait, hmutex',
      hknown', howner', hzero, hownerThread, hownerGraph⟩
  · rw [hwaitOf _ (List.mem_map_of_mem hmem)]
    exact h.mutexes wait hmem

end Tables

section Proposals

variable {made : List (MonitorEvent × ℕ)} {threads : ℕ → Option VerifierThreadState}
  {events : List MonitorEvent} {p : MonitorEvent × ℕ}

instance (address : ℕ) (event : MonitorEvent) : Decidable (MovesOwnership address event) :=
  inferInstanceAs (Decidable (_ ∧ _))

theorem proposal_cases
    (h : p ∈ outputs replayAll (mapOut (·.threadId) replayProposals) threads events) :
    p.1 ∈ events ∧ MovesOwnership p.1.objectAddress p.1 ∧ (p.2 = 0 ∨ p.2 = p.1.threadId) := by
  obtain ⟨x, event, hmem, hout⟩ := mem_outputs h
  simp only [mapOut, replayProposals, List.mem_map, Option.mem_toList] at hout
  obtain ⟨owner, howner, rfl⟩ := hout
  unfold proposedOwner at howner
  split at howner
  · rename_i htype
    cases howner
    exact ⟨hmem, ⟨Or.inl htype, rfl⟩, Or.inr rfl⟩
  · rename_i htype
    cases howner
    refine ⟨hmem, ⟨Or.inr htype, rfl⟩, ?_⟩
    dsimp only
    split
    · exact Or.inl rfl
    · exact Or.inr rfl
  · cases howner

theorem proposal_exists {event : MonitorEvent} (hmem : event ∈ events)
    (hmoves : MovesOwnership event.objectAddress event) :
    ∃ owner, (event, owner) ∈
      outputs replayAll (mapOut (·.threadId) replayProposals) threads events := by
  obtain ⟨x, hout⟩ := outputs_of_mem replayAll (mapOut (·.threadId) replayProposals) threads hmem
  obtain ⟨owner, howner⟩ : ∃ owner,
      proposedOwner (replayObserved (x event.threadId) event) event = some owner := by
    unfold proposedOwner
    rcases hmoves.1 with htype | htype <;> rw [htype] <;> exact ⟨_, rfl⟩
  refine ⟨owner, hout _ ?_⟩
  simp only [mapOut, replayProposals, howner, Option.toList_some, List.map_cons, List.map_nil,
    List.mem_singleton]

/-- Proposals of a run whose events satisfy a condition only once are equal. -/
theorem proposal_unique {condition : MonitorEvent → Bool} {event : MonitorEvent}
    (honce : events.filter condition = [event])
    (h : p ∈ outputs replayAll (mapOut (·.threadId) replayProposals) threads events)
    {p' : MonitorEvent × ℕ}
    (h' : p' ∈ outputs replayAll (mapOut (·.threadId) replayProposals) threads events)
    (hp : condition p.1 = true) (hp' : condition p'.1 = true) : p' = p := by
  have hsub := (proposals_fst_sublist threads events).filter condition
  rw [honce, List.filter_map] at hsub
  have hlength := hsub.length_le
  rw [List.length_map, List.length_singleton] at hlength
  have hmem := List.mem_filter.mpr (⟨h, hp⟩ : _ ∧ (condition ∘ Prod.fst) p = true)
  have hmem' := List.mem_filter.mpr (⟨h', hp'⟩ : _ ∧ (condition ∘ Prod.fst) p' = true)
  obtain ⟨q, hq⟩ := List.length_eq_one_iff.mp
    (le_antisymm hlength (List.length_pos_of_mem hmem))
  rw [hq, List.mem_singleton] at hmem hmem'
  rw [hmem, hmem']

/-- The proposals of a thread are those of its stream. -/
theorem proposal_transfer {events' : List MonitorEvent} {threadId : ℕ}
    (hstream : stream (fun event : MonitorEvent => event.threadId) threadId events' =
      stream (fun event : MonitorEvent => event.threadId) threadId events)
    (h : p ∈ outputs replayAll (mapOut (·.threadId) replayProposals) threads events)
    (hid : p.1.threadId = threadId) :
    p ∈ outputs replayAll (mapOut (·.threadId) replayProposals) threads events' := by
  have hsame : stream (fun q : MonitorEvent × ℕ => q.1.threadId) threadId
      (outputs replayAll (mapOut (·.threadId) replayProposals) threads events') =
      stream (fun q : MonitorEvent × ℕ => q.1.threadId) threadId
        (outputs replayAll (mapOut (·.threadId) replayProposals) threads events) := by
    rw [stream_outputs replayProposals_key, stream_outputs replayProposals_key]
    exact congrArg _ hstream
  have hmem : p ∈ stream (fun q : MonitorEvent × ℕ => q.1.threadId) threadId
      (outputs replayAll (mapOut (·.threadId) replayProposals) threads events') := by
    rw [hsame]
    exact mem_stream.mpr ⟨h, hid⟩
  exact (mem_stream.mp hmem).1

end Proposals

section Runs

variable {gettid : ℕ → ℕ} {maxHoldNs slot thread threadId : ℕ} {start begun last : Runtime}
  {tr before during : List Observation} {feed : List (ℕ × MonitorEvent)}

theorem CompleteFeed.mem (h : CompleteFeed tr feed) {entry : ℕ × MonitorEvent}
    (hmem : entry ∈ feed) : entry.2 ∈ generated (attemptsOn entry.1 tr) := by
  rw [← h entry.1]
  exact List.mem_map_of_mem (List.mem_filter.mpr ⟨hmem, decide_eq_true rfl⟩)

/-- The thread id in an attempted event is that of the claimant of its slot. -/
theorem attempted_owner (h : Reached gettid maxHoldNs start before) {event : MonitorEvent}
    (hmem : event ∈ generated (attemptsOn slot before)) :
    ∃ thread, (claimants before)[slot]? = some thread ∧ event.threadId = gettid thread := by
  rw [generated_attemptsOn] at hmem
  exact h.identified.events slot event ((h.attempted_prefix slot).mem hmem)

/-- The complete feed has of each thread what was attempted on its slot. -/
theorem CompleteFeed.stream_eq (hfeed : CompleteFeed before feed)
    (h : Reached gettid maxHoldNs start before) (hown : OwnId gettid before slot thread) :
    stream (fun event : MonitorEvent => event.threadId) (gettid thread) (feed.map Prod.snd) =
      generated (attemptsOn slot before) := by
  rw [← hfeed slot]
  unfold stream
  rw [List.filter_map]
  congr 1
  apply List.filter_congr
  intro entry hmem
  obtain ⟨other, hother, hid⟩ := attempted_owner h (hfeed.mem hmem)
  have hiff : entry.2.threadId = gettid thread ↔ entry.1 = slot := by
    constructor
    · intro heq
      exact hown.2 entry.1 other hother (hid.symm.trans heq)
    · intro heq
      rw [heq, hown.1, Option.some.injEq] at hother
      rw [hid, ← hother]
  simp [hiff]

/-- An untainted thread whose latest attempt was delivered has lost nothing. -/
theorem delivered_all (h : Reached gettid maxHoldNs last tr)
    (hstart : Reached gettid maxHoldNs start before)
    (hslots : ∀ slot, eventsOn processedEvent slot tr = eventsOn pushedEvent slot before)
    (hown : OwnId gettid tr slot thread) (hshort : ShortDropRuns slot before)
    (hlatest : LatestDelivered slot before)
    (hclean : (threadAt last.verifier (gettid thread)).traceTainted = false) :
    deliveredTo (gettid thread) (verifierCalls tr) = generated (attemptsOn slot before) := by
  have hdelivered : deliveredTo (gettid thread) (verifierCalls tr) =
      delivered (attemptsOn slot before) := by
    rw [deliveredTo_eq h hown, hslots, delivered_attemptsOn]
  have hprefix : deliveredTo (gettid thread) (verifierCalls tr) <+:
      delivered (attemptsOn slot before) := by rw [hdelivered]
  obtain ⟨handled, rest, hfollowed⟩ := followed_runCalls maxHoldNs (registeredIds_card h)
    (callEvents_registered h) hprefix (numbered_attempts hstart slot) hshort
  have hrest : delivered rest = [] := by
    have heq := hfollowed.delivered_eq
    rw [hdelivered, hfollowed.split, delivered_append] at heq
    exact List.self_eq_append_right.mp heq
  have hnil : rest = [] := by
    rcases List.eq_nil_or_concat rest with hnil | ⟨front, attempt, hconcat⟩
    · exact hnil
    · rw [List.concat_eq_append] at hconcat
      have haccepted : attempt.2 = true := by
        apply hlatest attempt
        rw [hfollowed.split, hconcat, ← List.append_assoc, List.getLast?_concat]
        rfl
      rw [hconcat, delivered_append, List.append_eq_nil_iff] at hrest
      simp [delivered, haccepted] at hrest
  have hall : ∀ attempt ∈ attemptsOn slot before, attempt.2 = true := by
    intro attempt hmem
    rw [hfollowed.split, hnil, List.append_nil] at hmem
    rw [h.accounted.verifier] at hclean
    by_contra hdropped
    rw [Bool.not_eq_true] at hdropped
    have htainted := hfollowed.tracked.tainted.mpr ⟨attempt, hmem, hdropped⟩
    rw [hclean] at htainted
    exact Bool.false_ne_true htainted
  rw [hdelivered]
  unfold delivered generated
  rw [List.filter_eq_self.mpr hall]

/-- The newest acquisition or release of a mutex occurs once in the complete feed. -/
theorem newest_once {address : ℕ} {earlier later : List (MonitorEvent × Bool)}
    {event : MonitorEvent} (hfeed : CompleteFeed before feed)
    (hsplit : attemptsOn slot before = earlier ++ (event, true) :: later)
    (hmoves : MovesOwnership address event)
    (hmine : ∀ attempt ∈ earlier ++ later, MovesOwnership address attempt.1 →
      attempt.1.sequenceId < event.sequenceId)
    (hothers : ∀ slot', slot' ≠ slot → ∀ attempt ∈ attemptsOn slot' before,
      MovesOwnership address attempt.1 → attempt.1.sequenceId < event.sequenceId) :
    (feed.map Prod.snd).filter (fun e => decide (MovesOwnership address e ∧
      event.sequenceId ≤ e.sequenceId)) = [event] := by
  have hnone : ∀ attempts : List (MonitorEvent × Bool), (∀ attempt ∈ attempts,
      MovesOwnership address attempt.1 → attempt.1.sequenceId < event.sequenceId) →
      (generated attempts).filter (fun e => decide (MovesOwnership address e ∧
        event.sequenceId ≤ e.sequenceId)) = [] := by
    intro attempts hall
    rw [List.filter_eq_nil_iff]
    intro e hmem
    obtain ⟨attempt, hattempt, rfl⟩ := List.mem_map.mp hmem
    rw [decide_eq_true_eq]
    rintro ⟨hm, hle⟩
    exact absurd (hall attempt hattempt hm) (not_lt.mpr hle)
  have hslot : (feed.map Prod.snd).filter (fun e => decide (MovesOwnership address e ∧
      event.sequenceId ≤ e.sequenceId)) =
      (generated (attemptsOn slot before)).filter (fun e => decide (MovesOwnership address e ∧
        event.sequenceId ≤ e.sequenceId)) := by
    rw [← hfeed slot, List.filter_map, List.filter_map, List.filter_filter]
    congr 1
    apply List.filter_congr
    intro entry hmem
    by_cases heq : entry.1 = slot
    · simp [heq]
    · obtain ⟨attempt, hattempt, hentry⟩ := List.mem_map.mp (hfeed.mem hmem)
      have hlt := hothers entry.1 heq attempt hattempt
      rw [hentry] at hlt
      simpa [heq] using hlt
  have hgenerated : generated (attemptsOn slot before) =
      generated earlier ++ event :: generated later := by
    rw [hsplit]
    unfold generated
    rw [List.map_append, List.map_cons]
  rw [hslot, hgenerated, List.filter_append, List.filter_cons_of_pos (by simp [hmoves]),
    hnone earlier fun a ha => hmine a (List.mem_append_left _ ha),
    hnone later fun a ha => hmine a (List.mem_append_right _ ha)]
  rfl

/-- The complete feed in tables with room: the thread table, the proposals and the owners
that are known. -/
theorem feed_history {T A : Finset ℕ} (hT : T.card ≤ verifierMaxThreads)
    (hA : A.card ≤ verifierMaxMutexes) {events : List MonitorEvent}
    (hin : ∀ event ∈ events, EventIn T A event)
    (hnumbered : ∀ threadId,
      NumberedFrom 0 (stream (fun event : MonitorEvent => event.threadId) threadId events)) :
    OwnerHistory (outputs replayAll (mapOut (·.threadId) replayProposals)
        (monitorVerifierInit maxHoldNs).threadOf events)
        (processAll (monitorVerifierInit maxHoldNs) events) ∧
      UntaintedHistory (outputs replayAll (mapOut (·.threadId) replayProposals)
        (monitorVerifierInit maxHoldNs).threadOf events)
        (processAll (monitorVerifierInit maxHoldNs) events) := by
  have hinit := wellFormed_init maxHoldNs
  have hempty := fits_init T A maxHoldNs
  have hhistory := ownerHistory_processAll (ownerHistory_init maxHoldNs) hinit hempty hT hA hin
  have hgaps : outputs replayAll (mapOut (·.threadId) replayGaps)
      (monitorVerifierInit maxHoldNs).threadOf events = [] := by
    have hfamily : StreamFamily.Interleaving ⟨T, fun threadId =>
        stream (fun event : MonitorEvent => event.threadId) threadId events,
        fun threadId event hmem => (mem_stream.mp hmem).2, fun threadId hout => by
          apply List.filter_eq_nil_iff.mpr
          intro event hmem heq
          exact hout (of_decide_eq_true heq ▸ (hin event hmem).1)⟩ events := fun _ => rfl
    exact no_gaps hfamily hnumbered
  have hu := untaintedHistory_processAll (untaintedHistory_init maxHoldNs)
    (ownerHistory_init maxHoldNs) hinit hempty hT hA hin hgaps
  exact ⟨hhistory, hu⟩

theorem numbered_feed (hfeed : CompleteFeed before feed)
    (h : Reached gettid maxHoldNs start before) (hids : FreshIds gettid before) (threadId : ℕ) :
    NumberedFrom 0 (stream (fun event : MonitorEvent => event.threadId) threadId
      (feed.map Prod.snd)) := by
  cases hstream : stream (fun event : MonitorEvent => event.threadId) threadId
      (feed.map Prod.snd) with
  | nil => trivial
  | cons event rest =>
    have hmem : event ∈ stream (fun event : MonitorEvent => event.threadId) threadId
        (feed.map Prod.snd) := by
      rw [hstream]
      exact List.mem_cons_self ..
    obtain ⟨hfed, hid⟩ := mem_stream.mp hmem
    obtain ⟨entry, hentry, rfl⟩ := List.mem_map.mp hfed
    obtain ⟨thread, hthread, howner⟩ := attempted_owner h (hfeed.mem hentry)
    rw [← hstream, ← hid, howner, hfeed.stream_eq h (hids.ownId hthread)]
    exact numbered_attempts h entry.1

/-- The order of the attempts is one of the complete feeds. -/
theorem completeFeed_attempted (tr : List Observation) :
    CompleteFeed tr (tr.filterMap attemptedEvent) := by
  intro slot
  induction tr with
  | nil => rfl
  | cons o tr ih =>
    cases o with
    | pushed thread slot' event | dropped thread slot' event =>
      by_cases hslot : slot' = slot
      · simpa [attemptedEvent, attemptsOn, generated, hslot] using ih
      · simpa [attemptedEvent, attemptsOn, generated, hslot] using ih
    | _ => exact ih

/-- An event of a run without a clock. -/
def untimed (sequence thread address : ℕ) (type : MonitorEventType) (threadSequence : ℕ) :
    MonitorEvent := ⟨sequence, 0, thread, address, type, 0, 0, threadSequence⟩

/-- Threads 1 and 2 hold mutexes 100 and 200 and ask for each other's. -/
def crossedActions : List Action :=
  firstEmission 1 .lockAcquired 100 ++ firstEmission 2 .lockAcquired 200 ++
    laterEmission 1 .lockRequest 200 ++ laterEmission 2 .lockRequest 100

end Runs

section Fillers

variable {rt : Runtime} {s : VerifierState} {i : Fin verifierMaxThreads}
  {thread slots sequence expected : ℕ}

/-- Events that only move the numbering of a thread on. -/
def fillers (thread sequence expected count : ℕ) : List MonitorEvent :=
  (List.range count).map fun k => untimed (sequence + k) thread 0 .unlockRequest (expected + k)

theorem fillers_length (thread sequence expected count : ℕ) :
    (fillers thread sequence expected count).length = count := by
  rw [fillers, List.length_map, List.length_range]

theorem fillers_succ (thread sequence expected count : ℕ) :
    fillers thread sequence expected (count + 1) = fillers thread sequence expected count ++
      [untimed (sequence + count) thread 0 .unlockRequest (expected + count)] := by
  unfold fillers
  rw [List.range_succ, List.map_append]
  rfl

/-- The verifier has processed all numbers below `sequence` and expects the next number of
the thread. -/
structure CaughtUp (s : VerifierState) (i : Fin verifierMaxThreads)
    (thread sequence expected : ℕ) : Prop where
  well_formed : WellFormed s
  used : (s.threadStates i).used = true
  identity : (s.threadStates i).threadId = thread
  initialised : (s.threadStates i).sequenceInitialized = true
  expected : (s.threadStates i).nextExpectedSequence = expected
  processed : s.processedEvents = sequence
  latest : s.lastProcessedSequence + 1 = sequence
  candidate : s.candidateCycleMask = 0
  confirmations : s.candidateCycleConfirmations = 0

/-- The state with `n` fillers more. -/
def skipped (s : VerifierState) (i : Fin verifierMaxThreads) (sequence expected n : ℕ) :
    VerifierState :=
  { s with
    threadStates := Function.update s.threadStates i
      { s.threadStates i with nextExpectedSequence := expected + n }
    processedEvents := sequence + n
    lastProcessedSequence := sequence + n - 1 }

theorem skipped_zero (h : CaughtUp s i thread sequence expected) :
    skipped s i sequence expected 0 = s := by
  have hentry : { s.threadStates i with nextExpectedSequence := expected + 0 } =
      s.threadStates i := by
    rw [Nat.add_zero, ← h.expected]
  have hlatest : sequence + 0 - 1 = s.lastProcessedSequence := by
    have := h.latest
    omega
  unfold skipped
  rw [hentry, hlatest, Function.update_eq_self, Nat.add_zero, ← h.processed]

theorem handleEvent_unlockRequest {event : MonitorEvent}
    (h : event.eventType = .unlockRequest) : handleEvent s event = s := by
  unfold handleEvent
  rw [h]

theorem skipped_thread (s : VerifierState) (i : Fin verifierMaxThreads)
    (sequence expected n : ℕ) : (skipped s i sequence expected n).threadStates i =
      { s.threadStates i with nextExpectedSequence := expected + n } := by
  unfold skipped
  exact Function.update_self ..

theorem processEvent_filler (h : CaughtUp s i thread sequence expected) {n : ℕ}
    (hsequence : sequence + (n + 1) < 2 ^ 64) (hexpected : expected + (n + 1) < 2 ^ 32)
    (hwf : WellFormed (skipped s i sequence expected n)) :
    monitorVerifierProcessEvent (skipped s i sequence expected n)
      (untimed (sequence + n) thread 0 .unlockRequest (expected + n)) =
      skipped s i sequence expected (n + 1) := by
  generalize hevent : untimed (sequence + n) thread 0 .unlockRequest (expected + n) = event
  have hthread := skipped_thread s i sequence expected n
  have hfind : find threadLayout (skipped s i sequence expected n).threadStates
      event.threadId = some i := by
    apply (find_eq_some_iff hwf.threads_distinct).mpr
    have hused : ((skipped s i sequence expected n).threadStates i).used = true := by
      rw [hthread]
      exact h.used
    have hidentity : ((skipped s i sequence expected n).threadStates i).threadId = thread := by
      rw [hthread]
      exact h.identity
    rw [← hevent]
    exact ⟨hused, hidentity⟩
  have hgap : hasGap ((skipped s i sequence expected n).threadStates i) event = false := by
    unfold hasGap
    rw [hthread, h.initialised, ← hevent]
    simp [untimed]
  have hnext : succ32 event.threadSequence = expected + (n + 1) := by
    rw [← hevent]
    show (expected + n + 1) % 2 ^ 32 = expected + (n + 1)
    omega
  have hprocessed : succ64 (sequence + n) = sequence + (n + 1) := by
    unfold succ64
    omega
  have hlatest : event.sequenceId = sequence + (n + 1) - 1 := by
    rw [← hevent]
    rfl
  have hlater : event.sequenceId > sequence + n - 1 := by
    have := h.latest
    omega
  have hquiet : ∀ s, handleEvent s event = s := fun s =>
    handleEvent_unlockRequest (by rw [← hevent]; rfl)
  rw [processEvent_followed hfind hgap, hquiet, hthread]
  unfold resetCandidate VerifierState.setThread countEvent skipped
  simp only [if_pos hlater]
  simp only [Function.update_idem, hnext, hprocessed, hlatest, h.candidate, h.confirmations,
    h.initialised]

theorem processAll_fillers (h : CaughtUp s i thread sequence expected) {n : ℕ}
    (hsequence : sequence + n < 2 ^ 64) (hexpected : expected + n < 2 ^ 32) :
    processAll s (fillers thread sequence expected n) = skipped s i sequence expected n := by
  induction n with
  | zero =>
    rw [skipped_zero h]
    rfl
  | succ n ih =>
    have hbefore := ih (by omega) (by omega)
    have hwf := wellFormed_processAll h.well_formed (fillers thread sequence expected n)
    rw [fillers_succ, processAll_append, hbefore]
    rw [hbefore] at hwf
    exact processEvent_filler h hsequence hexpected hwf

/-- Everything is processed, and the thread of the first slot goes on with these numbers. -/
structure Resting (rt : Runtime) (i : Fin verifierMaxThreads)
    (thread slots sequence expected : ℕ) : Prop where
  draining : Draining rt slots []
  emits : Emits rt thread 0
  identity : (rt.threadContexts 0).threadId = thread
  local_ : (rt.threadContexts 0).nextThreadSequence = expected
  global : rt.globalSequence = sequence
  caught_up : CaughtUp rt.verifier i thread sequence expected

/-- The thread of the first slot fills its queue and loses the next event; then the consumer
takes everything and checks. -/
theorem run_lossy (h : Resting rt i thread slots sequence expected)
    (hsequence : sequence + spscRingCapacity < 2 ^ 64)
    (hexpected : expected + spscRingCapacity < 2 ^ 32) (type : MonitorEventType)
    (address : ℕ) {lost : MonitorEvent} (hlost : lost = untimed (sequence + spscRingCapacity)
      thread address type (expected + spscRingCapacity)) :
    ∃ rt' tr, Run (step id) rt tr rt' ∧ Draining rt' slots [] ∧
      rt'.verifier = monitorVerifierCheckDeadlocks
        (skipped rt.verifier i sequence expected spscRingCapacity) ∧
      claimants tr = [] ∧ .dropped thread 0 lost ∈ tr ∧ tr.filterMap attemptedEvent =
        (fillers thread sequence expected spscRingCapacity ++ [lost]).map ((0, ·)) := by
  have hburst : burst rt 0 .unlockRequest 0 spscRingCapacity =
      fillers thread sequence expected spscRingCapacity := by
    unfold burst fillers nextEvent buildEvent untimed
    rw [h.identity, h.local_, h.global]
  have hnext : lostEvent rt type address = lost := by
    rw [hlost]
    unfold lostEvent nextEvent buildEvent untimed
    rw [h.identity, h.local_, h.global]
  obtain ⟨rt₂, hoverfill, hd₂, -, hverifier₂⟩ := @run_overfilled id rt thread slots h.draining
    h.emits (by rwa [h.local_]) (by rwa [h.global]) type address _ _ hburst hnext
  obtain ⟨rt₃, tr₃, hbatches, hd₃, hverifier₃, -, hquiet⟩ :=
    @run_batches id rt₂ slots _ 32 hd₂ (fillers_length ..)
  rw [hverifier₂, processAll_fillers h.caught_up hsequence hexpected] at hverifier₃
  obtain ⟨rt₄, hchecked, hd₄, hverifier₄⟩ := @run_checked id rt₃ slots hd₃
  rw [hverifier₃] at hverifier₄
  obtain ⟨hclaims, hattempts⟩ := pushedEach_attempted thread 0
    (fillers thread sequence expected spscRingCapacity)
  refine ⟨rt₄, _, (hoverfill.trans hbatches).trans hchecked, hd₄, hverifier₄, ?_, ?_, ?_⟩
  · simp only [claimants_append, hclaims, hquiet.1]
    rfl
  · simp
  · have hlast : [Observation.reserved thread 0 lost, .dropped thread 0 lost,
        .returned thread 0].filterMap attemptedEvent = [lost].map ((0, ·)) := rfl
    have hround : [Observation.roundStarted, .checked].filterMap attemptedEvent = [] := rfl
    rw [List.filterMap_append, List.filterMap_append, List.filterMap_append, hattempts, hlast,
      hquiet.2, hround, List.append_nil, List.append_nil, ← List.map_append]

end Fillers

section Reports

variable {start begun last : Runtime} {before during : List Observation}
  {feed : List (ℕ × MonitorEvent)}

/-- Loss does not make up a cycle: what a check reports is a cycle of the complete feed,
too, if of each listed thread the latest attempt was delivered, of each listed mutex the
newest acquisition or release, and no 2^32 events of a listed thread are lost in a row. -/
theorem loss_fabricates_no_cycle (gettid : ℕ → ℕ) (maxHoldNs : ℕ) {start begun last : Runtime}
    {before during : List Observation} {cycle : List (ℕ × ℕ)} {sequence : ℕ} {owners : List ℕ}
    {feed : List (ℕ × MonitorEvent)}
    (hbefore : Run (step gettid) (monitorRuntimeStart maxHoldNs) before start)
    (hbegin : step gettid start .consumer = some (begun, [.roundStarted]))
    (hduring : Run (step gettid) begun during last) (hround : .roundStarted ∉ during)
    (hcheck : last.consumer = .check)
    (hreport : (monitorVerifierCheckDeadlocks last.verifier).reports =
      last.verifier.reports ++ [.deadlockCycle sequence cycle owners])
    (hids : FreshIds gettid (before ++ .roundStarted :: during))
    (hroom : ∃ addresses : Finset ℕ, addresses.card ≤ verifierMaxMutexes ∧
      ∀ slot, ∀ attempt ∈ attemptsOn slot before,
        touchesMutex attempt.1 = true → attempt.1.objectAddress ∈ addresses)
    (hlisted : ∀ slot thread, (claimants before)[slot]? = some thread →
      gettid thread ∈ cycle.map Prod.fst → ShortDropRuns slot before ∧
        LatestDelivered slot before)
    (hmutexes : ∀ wait ∈ cycle, NewestDelivered wait.2 before)
    (hfeed : CompleteFeed before feed) :
    CycleIn (processAll (monitorVerifierInit maxHoldNs) (feed.map Prod.snd)) cycle := by
  obtain ⟨h, hslots⟩ := slots_at_check hbefore hbegin hduring hround hcheck
  have hstart := reached_run hbefore
  have hfresh : FreshIds gettid before := by
    unfold FreshIds at hids ⊢
    rw [claimants_append, List.map_append] at hids
    exact (List.nodup_append.mp hids).1
  have hcycle := findAnyCycle_sound (CycleReports.check_reports hreport).2.1
  obtain ⟨addresses, hcard, hin⟩ := hroom
  -- the keys of the delivered and of the complete events
  have hattempted : ∀ slot, ∀ event ∈ generated (attemptsOn slot before),
      EventIn (registeredIds gettid before) addresses event := by
    intro slot event hmem
    obtain ⟨thread, hthread, hid⟩ := attempted_owner hstart hmem
    obtain ⟨attempt, hattempt, rfl⟩ := List.mem_map.mp hmem
    refine ⟨?_, hin slot attempt hattempt⟩
    rw [registeredIds, List.mem_toFinset, hid]
    exact List.mem_map_of_mem (List.mem_of_getElem? hthread)
  have hpushed : ∀ event ∈ callEvents (verifierCalls (before ++ .roundStarted :: during)),
      ∃ slot, (event, true) ∈ attemptsOn slot before := by
    intro event hmem
    obtain ⟨slot, hslot⟩ := (processed_iff_pushed hslots event).mp hmem
    rw [← delivered_attemptsOn] at hslot
    obtain ⟨attempt, hattempt, rfl⟩ := List.mem_map.mp hslot
    obtain ⟨hattempt, haccepted⟩ := List.mem_filter.mp hattempt
    exact ⟨slot, haccepted ▸ hattempt⟩
  have hcalls : ∀ event ∈ callEvents (verifierCalls (before ++ .roundStarted :: during)),
      EventIn (registeredIds gettid before) addresses event := by
    intro event hmem
    obtain ⟨slot, hslot⟩ := hpushed event hmem
    exact hattempted slot event (List.mem_map_of_mem hslot)
  have hevents : ∀ event ∈ feed.map Prod.snd,
      EventIn (registeredIds gettid before) addresses event := by
    intro event hmem
    obtain ⟨entry, hentry, rfl⟩ := List.mem_map.mp hmem
    exact hattempted entry.1 entry.2 (hfeed.mem hentry)
  have hT := registeredIds_card hstart
  have hinit := wellFormed_init maxHoldNs
  have hempty := fits_init (registeredIds gettid before) addresses maxHoldNs
  obtain ⟨hthreads, hhistory⟩ := history_runCalls hT hcard hinit hempty
    (ownerHistory_init maxHoldNs) hcalls
  rw [List.nil_append, ← h.accounted.verifier] at hhistory
  rw [← h.accounted.verifier] at hthreads
  obtain ⟨hhistory', hu⟩ := @feed_history maxHoldNs _ _ hT hcard _ hevents
    (numbered_feed hfeed hstart hfresh)
  -- the stream of a listed thread is the same in both
  have hstreams : ∀ threadId ∈ cycle.map Prod.fst,
      stream (fun event : MonitorEvent => event.threadId) threadId (feed.map Prod.snd) =
        deliveredTo threadId (verifierCalls (before ++ .roundStarted :: during)) := by
    intro threadId hmem
    obtain ⟨owner, -, hnext⟩ := hcycle.closed.next_mem hmem
    obtain ⟨entry, -, -, hentry, hgraph, -⟩ := waitsFor_eq_some_iff.mp hnext
    have hclean : (threadAt last.verifier threadId).traceTainted = false := by
      unfold threadAt
      rw [hentry, Option.getD_some]
      unfold onGraph at hgraph
      rw [Bool.and_eq_true, Bool.not_eq_true'] at hgraph
      exact hgraph.1
    have hregistered : threadId ∈ registeredIds gettid before := by
      have hknown := knownThreads_runCalls (knownThreads_init _ maxHoldNs) hinit
        fun event he => (hcalls event he).1
      rw [← h.accounted.verifier] at hknown
      apply hknown threadId
      rw [hentry]
      simp
    rw [registeredIds, List.mem_toFinset, List.mem_map] at hregistered
    obtain ⟨thread, hthread, rfl⟩ := hregistered
    obtain ⟨slot, hslot, hclaim⟩ := List.getElem_of_mem hthread
    have hown : (claimants before)[slot]? = some thread :=
      List.getElem?_eq_some_iff.mpr ⟨hslot, hclaim⟩
    have hown' : (claimants (before ++ .roundStarted :: during))[slot]? = some thread := by
      rw [claimants_append, List.getElem?_append_left hslot, hown]
    obtain ⟨hshort, hlatest⟩ := hlisted slot thread hown hmem
    rw [hfeed.stream_eq hstart (hfresh.ownId hown),
      delivered_all h hstart hslots (hids.ownId hown') hshort hlatest hclean]
  refine cycleIn_transfer hcycle ?_ ?_
  · intro threadId hmem
    rw [(replayed_init maxHoldNs hT hcard hevents).threads, hthreads, foldl_mapStep,
      foldl_mapStep, hstreams threadId hmem]
  · intro wait hwait mutex hmutex hknown howner hzero
    refine owner_transfer hhistory hhistory' hu hmutex hknown ?_
    intro p hp haddress hlast hid
    obtain ⟨hpevent, hpmoves, hpowner⟩ := proposal_cases hp
    rw [haddress] at hpmoves
    -- the proposal was made for the newest acquisition or release
    obtain ⟨slot, earlier, event, later, hsplit, hmoves, hmine, hothers⟩ := hmutexes wait hwait
    have honce := newest_once hfeed hsplit hmoves hmine hothers
    have hnewest : event.sequenceId ≤ p.1.sequenceId := by
      have hdelivered :
          event ∈ callEvents (verifierCalls (before ++ .roundStarted :: during)) := by
        apply (processed_iff_pushed hslots event).mpr
        refine ⟨slot, ?_⟩
        rw [← delivered_attemptsOn, hsplit, delivered_append]
        exact List.mem_append_right _ (List.mem_cons_self ..)
      obtain ⟨other, hother⟩ := @proposal_exists (monitorVerifierInit maxHoldNs).threadOf _ _
        hdelivered ⟨hmoves.1, rfl⟩
      obtain ⟨entry, hentry, hle⟩ := hhistory.newest _ hother
      have hobject : event.objectAddress = wait.2 := hmoves.2
      simp only at hentry hle
      rw [hobject, hmutex, Option.some.injEq] at hentry
      rw [hlast, hentry]
      exact hle
    have hp' : p ∈ outputs replayAll (mapOut (·.threadId) replayProposals)
        (monitorVerifierInit maxHoldNs).threadOf (feed.map Prod.snd) := by
      have hthread : p.1.threadId = mutex.ownerThreadId := by
        rcases hpowner with hnobody | hsome
        · rw [hnobody] at hid
          exact absurd hid.symm hzero
        · rw [← hsome, hid]
      exact proposal_transfer (hstreams _ howner) hp hthread
    refine ⟨hp', fun p' hmem haddress' hle => ?_⟩
    obtain ⟨-, hmoves', -⟩ := proposal_cases hmem
    rw [haddress'] at hmoves'
    exact proposal_unique honce hp' hmem (decide_eq_true ⟨hpmoves, hnewest⟩)
      (decide_eq_true ⟨hmoves', hnewest.trans hle⟩)

/-- Behind an idle thread 3, threads 1 and 2 wait for each other, and all is processed. -/
def idlerEnd : Runtime × List Observation :=
  after (step id) (monitorRuntimeStart 0)
    (firstEmission 3 .unlockRequest 0 ++ crossedActions ++ List.replicate 33 .consumer)

theorem caughtUp_idlerEnd : CaughtUp idlerEnd.1.verifier 0 3 8 2 := by
  have hrun : Run (step id) (monitorRuntimeStart 0) idlerEnd.2 idlerEnd.1 :=
    run_after (by decide +kernel)
  refine ⟨?_, ?_, ?_, ?_, ?_, ?_, ?_, ?_, ?_⟩
  · rw [(reached_run hrun).accounted.verifier]
    exact wellFormed_runCalls (wellFormed_init 0) _
  all_goals decide +kernel

theorem resting_idlerEnd : Resting idlerEnd.1 0 3 3 8 2 := by
  refine ⟨⟨?_, ?_, ?_, ?_, ?_, ?_, ?_⟩, ⟨?_, ?_, ?_, ?_⟩, ?_, ?_, ?_, caughtUp_idlerEnd⟩
  all_goals decide +kernel

/-- All that is attempted is on the first slot and moves no mutex. -/
def IdlesOn (tr : List Observation) : Prop :=
  ∀ entry ∈ tr.filterMap attemptedEvent, entry.1 = 0 ∧ entry.2.eventType = .unlockRequest

theorem idlesOn_lossy {tr : List Observation} {thread sequence expected count m n : ℕ}
    (hattempts : tr.filterMap attemptedEvent = (fillers thread sequence expected count ++
      [untimed m thread 0 .unlockRequest n]).map ((0, ·))) : IdlesOn tr := by
  intro entry hmem
  rw [hattempts] at hmem
  obtain ⟨event, hevent, rfl⟩ := List.mem_map.mp hmem
  refine ⟨rfl, ?_⟩
  rcases List.mem_append.mp hevent with hfill | hlast
  · obtain ⟨k, -, rfl⟩ := List.mem_map.mp hfill
    rfl
  · rw [List.mem_singleton.mp hlast]
    rfl

section Idles

variable {tr os : List Observation}

theorem IdlesOn.attempted (h : IdlesOn os) {attempt : MonitorEvent × Bool}
    (hmem : attempt ∈ attemptsOn slot (tr ++ os)) :
    (slot, attempt.1) ∈ tr.filterMap attemptedEvent ∨ attempt.1.eventType = .unlockRequest := by
  have hentry := mem_attemptsOn hmem
  rw [List.filterMap_append, List.mem_append] at hentry
  exact hentry.imp_right fun hlater => (h _ hlater).2

theorem IdlesOn.others (h : IdlesOn os) (hne : slot ≠ 0) :
    attemptsOn slot (tr ++ os) = attemptsOn slot tr := by
  have hnone : attemptsOn slot os = [] :=
    attemptsOn_other fun entry hmem heq => hne (heq ▸ (h entry hmem).1)
  rw [attemptsOn_append, hnone, List.append_nil]

/-- The mutexes that only one other slot moves have their newest move where they had it. -/
theorem IdlesOn.newestDelivered (h : IdlesOn os) {address : ℕ} {event : MonitorEvent}
    {earlier later : List (MonitorEvent × Bool)} (hne : slot ≠ 0)
    (hattempts : attemptsOn slot tr = earlier ++ (event, true) :: later)
    (hmoves : MovesOwnership address event)
    (honly : ∀ attempt ∈ earlier ++ later, MovesOwnership address attempt.1 →
      attempt.1.sequenceId < event.sequenceId)
    (hmoved : ∀ entry ∈ tr.filterMap attemptedEvent, MovesOwnership address entry.2 →
      entry.1 = slot) : NewestDelivered address (tr ++ os) := by
  refine ⟨slot, earlier, event, later, (h.others hne).trans hattempts, hmoves, honly, ?_⟩
  intro slot' hother attempt hmem hmove
  exfalso
  rcases h.attempted hmem with hearly | hunlock
  · exact hother (hmoved _ hearly hmove)
  · have htype := hmove.1
    simp [hunlock] at htype

end Idles

/-- The idle thread loses an event, and the cycle that is reported behind the loss is one of
the complete feed. -/
theorem loss_fabricates_no_cycle_crossed :
    ∃ start tr lost, Run (step id) (monitorRuntimeStart 0) (idlerEnd.2 ++ tr) start ∧
      .dropped 3 0 lost ∈ tr ∧ CycleIn (processAll (monitorVerifierInit 0)
        (((idlerEnd.2 ++ tr).filterMap attemptedEvent).map Prod.snd)) [(1, 200), (2, 100)] := by
  have hfirst : Run (step id) (monitorRuntimeStart 0) idlerEnd.2 idlerEnd.1 :=
    run_after (by decide +kernel)
  obtain ⟨start, tr, hrun, hd, hverifier, hclaims, hlost, hattempts⟩ :=
    run_lossy resting_idlerEnd (by decide) (by decide) .unlockRequest 0 rfl
  obtain ⟨hbegin, hidle⟩ := @run_idle id start 3 hd
  have hbefore := hfirst.trans hrun
  have hidles := idlesOn_lossy hattempts
  refine ⟨start, tr, _, hbefore, hlost, ?_⟩
  have hreport : (monitorVerifierCheckDeadlocks start.verifier).reports =
      start.verifier.reports ++ [.deadlockCycle 2055 [(1, 200), (2, 100)] [2, 1]] := by
    rw [hverifier]
    decide +kernel
  refine loss_fabricates_no_cycle id 0 hbefore hbegin hidle List.not_mem_nil rfl hreport ?_
    ⟨{100, 200}, by decide, ?_⟩ ?_ ?_ (completeFeed_attempted _)
  · unfold FreshIds
    simp only [claimants_append, hclaims]
    decide +kernel
  · intro slot attempt hmem htouch
    have hin : ∀ entry ∈ idlerEnd.2.filterMap attemptedEvent, touchesMutex entry.2 = true →
        entry.2.objectAddress ∈ ({100, 200} : Finset ℕ) := by decide +kernel
    rcases hidles.attempted hmem with hearly | hunlock
    · exact hin _ hearly htouch
    · simp [touchesMutex, hunlock] at htouch
  · intro slot thread hslot hlisted
    have hclaimants : claimants (idlerEnd.2 ++ tr) = [3, 1, 2] := by
      rw [claimants_append, hclaims, List.append_nil]
      decide +kernel
    rw [hclaimants] at hslot
    have hslots : slot = 1 ∨ slot = 2 := by
      match slot, hslot with
      | 0, hslot =>
        cases hslot
        simp at hlisted
      | 1, _ => exact Or.inl rfl
      | 2, _ => exact Or.inr rfl
    have hlatest : ∀ slot ∈ [1, 2], (attemptsOn slot idlerEnd.2).length < 2 ^ 32 ∧
        LatestDelivered slot idlerEnd.2 := by decide +kernel
    obtain ⟨hshort, hdelivered⟩ := hlatest slot (by simpa using hslots)
    have hkept : attemptsOn slot (idlerEnd.2 ++ tr) = attemptsOn slot idlerEnd.2 :=
      hidles.others (by omega)
    refine ⟨shortDropRuns_of_length (by rwa [hkept]), ?_⟩
    unfold LatestDelivered
    rw [hkept]
    exact hdelivered
  · have hmoved : ∀ entry ∈ idlerEnd.2.filterMap attemptedEvent,
        (MovesOwnership 200 entry.2 → entry.1 = 2) ∧
          (MovesOwnership 100 entry.2 → entry.1 = 1) := by
      unfold MovesOwnership
      decide +kernel
    intro wait hmem
    simp only [List.mem_cons, List.not_mem_nil, or_false] at hmem
    rcases hmem with rfl | rfl
    · exact hidles.newestDelivered (by decide)
        (show attemptsOn 2 idlerEnd.2 = [(untimed 4 2 0 .threadStart 0, true)] ++
          (untimed 5 2 200 .lockAcquired 1, true) :: [(untimed 7 2 100 .lockRequest 2, true)] by
            decide +kernel)
        (by decide +kernel) (by decide +kernel) fun entry hmem => (hmoved entry hmem).1
    · exact hidles.newestDelivered (by decide)
        (show attemptsOn 1 idlerEnd.2 = [(untimed 2 1 0 .threadStart 0, true)] ++
          (untimed 3 1 100 .lockAcquired 1, true) :: [(untimed 6 1 200 .lockRequest 2, true)] by
            decide +kernel)
        (by decide +kernel) (by decide +kernel) fun entry hmem => (hmoved entry hmem).2

/-- The six events of threads 1 and 2 have been processed. -/
def busyEnd : Runtime × List Observation :=
  after (step id) (monitorRuntimeStart 0) (crossedActions ++ List.replicate 25 .consumer)

theorem caughtUp_busyEnd : CaughtUp busyEnd.1.verifier 0 1 6 3 := by
  have hrun : Run (step id) (monitorRuntimeStart 0) busyEnd.2 busyEnd.1 :=
    run_after (by decide +kernel)
  refine ⟨?_, ?_, ?_, ?_, ?_, ?_, ?_, ?_, ?_⟩
  · rw [(reached_run hrun).accounted.verifier]
    exact wellFormed_runCalls (wellFormed_init 0) _
  all_goals decide +kernel

theorem resting_busyEnd : Resting busyEnd.1 0 1 2 6 3 := by
  refine ⟨⟨?_, ?_, ?_, ?_, ?_, ?_, ?_⟩, ⟨?_, ?_, ?_, ?_⟩, ?_, ?_, ?_, caughtUp_busyEnd⟩
  all_goals decide +kernel

/-- The six events of threads 1 and 2 in the order of their attempts. -/
def crossedEvents : List MonitorEvent := (busyEnd.2.filterMap attemptedEvent).map Prod.snd

theorem caughtUp_crossedEvents :
    CaughtUp (processAll (monitorVerifierInit 0) crossedEvents) 0 1 6 3 := by
  refine ⟨wellFormed_processAll (wellFormed_init 0) _, ?_, ?_, ?_, ?_, ?_, ?_, ?_, ?_⟩
  all_goals decide +kernel

/-- A lost failure to lock is behind every delivered event of its thread: the check reports
a cycle that the complete trace does not have. -/
theorem loss_fabricates_no_cycle_dropped :
    ∃ (start begun last : Runtime) (before : List Observation) (feed : List (ℕ × MonitorEvent)),
      Run (step id) (monitorRuntimeStart 0) before start ∧
      step id start .consumer = some (begun, [.roundStarted]) ∧
      Run (step id) begun [] last ∧ last.consumer = .check ∧
      (monitorVerifierCheckDeadlocks last.verifier).reports =
        last.verifier.reports ++ [.deadlockCycle 2053 [(1, 200), (2, 100)] [2, 1]] ∧
      FreshIds id (before ++ [.roundStarted]) ∧ CompleteFeed before feed ∧
      ¬ CycleIn (processAll (monitorVerifierInit 0) (feed.map Prod.snd))
        [(1, 200), (2, 100)] := by
  have hbusy : Run (step id) (monitorRuntimeStart 0) busyEnd.2 busyEnd.1 :=
    run_after (by decide +kernel)
  obtain ⟨start, tr, hrun, hd, hverifier, hclaims, -, hattempts⟩ :=
    run_lossy resting_busyEnd (by decide) (by decide) .lockFailed 200 rfl
  obtain ⟨hbegin, hidle⟩ := @run_idle id start 2 hd
  refine ⟨start, _, _, _, _, hbusy.trans hrun, hbegin, hidle, rfl, ?_, ?_,
    completeFeed_attempted _, ?_⟩
  · show (monitorVerifierCheckDeadlocks start.verifier).reports = start.verifier.reports ++ _
    rw [hverifier]
    decide +kernel
  · unfold FreshIds
    simp only [claimants_append, hclaims]
    decide +kernel
  · have hstored : ∀ events : List MonitorEvent, (events.map fun event => (0, event)).map
        Prod.snd = events := by
      intro events
      rw [List.map_map]
      exact List.map_id _
    simp only [List.filterMap_append, hattempts, List.map_append, hstored]
    show ¬ CycleIn (processAll _ (crossedEvents ++ (fillers 1 6 3 spscRingCapacity ++ _))) _
    rw [processAll_append, processAll_append,
      processAll_fillers caughtUp_crossedEvents (by decide) (by decide)]
    decide +kernel

end Reports

end RuntimeMonitor.LossyCycles
