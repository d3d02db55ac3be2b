import RuntimeMonitor.OwnershipRecords
import RuntimeMonitor.SequenceGaps

/-!
Two consumption orders of one family of delivered streams. The thread table and
all counters agree, two known owners of a mutex agree, and without gaps the mutex
tables agree entry by entry.
-/
namespace RuntimeMonitor.ConsumptionOrder

open EventRecord SlotTables VerifierTables VerifierEvents VerifierSteps VerifierCycles
open HeldTables VerifierInvariant VerifierMaps KeyedStreams StreamReplay OwnershipRecords
open SequenceGaps

/-- One event stream for each thread id of a finite set. -/
structure StreamFamily where
  threads : Finset ℕ
  streams : ℕ → List MonitorEvent
  keyed : ∀ threadId, ∀ event ∈ streams threadId, event.threadId = threadId
  outside : ∀ threadId, threadId ∉ threads → streams threadId = []

/-- A merge of the streams that keeps the order of each. -/
def StreamFamily.Interleaving (family : StreamFamily) (events : List MonitorEvent) : Prop :=
  ∀ threadId, stream (fun event : MonitorEvent => event.threadId) threadId events =
    family.streams threadId

/-- The threads and the mutexes named by lock and unlock events fit the tables. -/
structure StreamFamily.FitsTables (family : StreamFamily) : Prop where
  few_threads : family.threads.card ≤ verifierMaxThreads
  few_mutexes : ∃ addresses : Finset ℕ, addresses.card ≤ verifierMaxMutexes ∧
    ∀ threadId, ∀ event ∈ family.streams threadId,
      event.eventType.namesMutex = true → event.objectAddress ∈ addresses

/-- Global sequence numbers are distinct and increase within each stream. -/
structure StreamFamily.Sequenced (family : StreamFamily) : Prop where
  increasing : ∀ threadId, (family.streams threadId).Pairwise
    fun event event' => event.sequenceId < event'.sequenceId
  distinct : ∀ threadId threadId', ∀ event ∈ family.streams threadId,
    ∀ event' ∈ family.streams threadId', event.sequenceId = event'.sequenceId → event = event'

/-- What two verifier states agree on whatever the consumption order was. -/
structure SameVerdicts (s s' : VerifierState) : Prop where
  threads : ∀ threadId, s.threadOf threadId = s'.threadOf threadId
  gaps : s.detectedStreamGaps = s'.detectedStreamGaps
  tainted : s.taintedThreadStreams = s'.taintedThreadStreams
  waiting : s.waitingThreadCount = s'.waitingThreadCount
  violations : ∀ kind, counterOf s kind = counterOf s' kind
  owners : ∀ address mutex mutex', s.mutexOf address = some mutex →
    s'.mutexOf address = some mutex' → mutex.ownerKnown = true → mutex'.ownerKnown = true →
    mutex.ownerThreadId = mutex'.ownerThreadId

variable {family : StreamFamily} {events events' : List MonitorEvent} {maxHoldNs : ℕ}

theorem StreamFamily.Interleaving.mem (h : family.Interleaving events) {event : MonitorEvent}
    (hmem : event ∈ events) : event ∈ family.streams event.threadId := by
  rw [← h event.threadId]
  exact mem_stream.mpr ⟨hmem, rfl⟩

/-- Only the threads of the family have to be looked at. -/
theorem StreamFamily.interleaving_of_threads (family : StreamFamily)
    (hin : ∀ event ∈ events, event.threadId ∈ family.threads)
    (hstreams : ∀ threadId ∈ family.threads,
      stream (fun event : MonitorEvent => event.threadId) threadId events =
        family.streams threadId) : family.Interleaving events := by
  intro threadId
  by_cases hmem : threadId ∈ family.threads
  · exact hstreams threadId hmem
  · rw [family.outside threadId hmem]
    apply List.filter_eq_nil_iff.mpr
    intro event hevent heq
    apply hmem
    rw [← of_decide_eq_true heq]
    exact hin event hevent

theorem StreamFamily.Interleaving.same (h : family.Interleaving events)
    (h' : family.Interleaving events') :
    SameStreams (fun event : MonitorEvent => event.threadId) events events' := by
  intro threadId
  rw [h threadId, h' threadId]

theorem namesMutex_of_touches {event : MonitorEvent} (h : touchesMutex event = true) :
    event.eventType.namesMutex = true := by
  unfold touchesMutex at h
  cases htype : event.eventType <;> simp_all [MonitorEventType.namesMutex]

/-- An interleaving of a family that fits stays within its keys. -/
theorem StreamFamily.FitsTables.eventIn (hfits : family.FitsTables) :
    ∃ addresses : Finset ℕ, addresses.card ≤ verifierMaxMutexes ∧
      ∀ events, family.Interleaving events →
        ∀ event ∈ events, EventIn family.threads addresses event := by
  obtain ⟨addresses, hcard, haddresses⟩ := hfits.few_mutexes
  refine ⟨addresses, hcard, ?_⟩
  intro events h event hmem
  have hstream := h.mem hmem
  constructor
  · by_contra hout
    rw [family.outside _ hout] at hstream
    simp at hstream
  · intro htouch
    exact haddresses _ event hstream (namesMutex_of_touches htouch)

theorem StreamFamily.Sequenced.nodup (hseq : family.Sequenced) (h : family.Interleaving events) :
    events.Nodup := by
  refine @nodup_of_streams _ ℕ _ (fun event : MonitorEvent => event.threadId) events ?_
  intro threadId
  rw [h threadId]
  apply (hseq.increasing threadId).imp
  intro event event' hlt heq
  rw [heq] at hlt
  omega

theorem StreamFamily.Sequenced.eq_of_sequence (hseq : family.Sequenced)
    (h : family.Interleaving events) {event event' : MonitorEvent} (hmem : event ∈ events)
    (hmem' : event' ∈ events) (heq : event.sequenceId = event'.sequenceId) : event = event' :=
  hseq.distinct _ _ event (h.mem hmem) event' (h.mem hmem') heq

/-- The proposals of a run name events of the run, each at most once. -/
theorem proposals_fst_sublist (threads : ℕ → Option VerifierThreadState)
    (events : List MonitorEvent) :
    ((outputs replayAll (mapOut (·.threadId) replayProposals) threads events).map
      Prod.fst).Sublist events := by
  apply outputs_sublist
  intro m event
  unfold mapOut replayProposals
  cases proposedOwner (replayObserved (m event.threadId) event) event <;> simp

/-- Two known owners were proposed by one event: each recorded sequence is the
newest among the proposals of its run, and the runs make the same proposals. -/
theorem owner_agree {made made' : List (MonitorEvent × ℕ)} {s s' : VerifierState}
    (hperm : made.Perm made') (hnodup : (made.map Prod.fst).Nodup)
    (hdistinct : ∀ p ∈ made, ∀ p' ∈ made, p.1.sequenceId = p'.1.sequenceId → p.1 = p'.1)
    (h : OwnerHistory made s) (h' : OwnerHistory made' s') {address : ℕ}
    {mutex mutex' : VerifierMutexState} (hmutex : s.mutexOf address = some mutex)
    (hmutex' : s'.mutexOf address = some mutex') (hknown : mutex.ownerKnown = true)
    (hknown' : mutex'.ownerKnown = true) :
    mutex.ownerThreadId = mutex'.ownerThreadId ∧
      mutex.lastStateSequence = mutex'.lastStateSequence := by
  obtain ⟨p, hp, haddress, hlast, howner⟩ := h.known address mutex hmutex hknown
  obtain ⟨p', hp', haddress', hlast', howner'⟩ := h'.known address mutex' hmutex' hknown'
  have hmem' : p' ∈ made := hperm.mem_iff.mpr hp'
  have hle : p'.1.sequenceId ≤ mutex.lastStateSequence := by
    obtain ⟨entry, hentry, hle⟩ := h.newest p' hmem'
    rw [haddress', hmutex, Option.some.injEq] at hentry
    rwa [hentry]
  have hge : p.1.sequenceId ≤ mutex'.lastStateSequence := by
    obtain ⟨entry, hentry, hle⟩ := h'.newest p (hperm.mem_iff.mp hp)
    rw [haddress, hmutex', Option.some.injEq] at hentry
    rwa [hentry]
  have hseq : p.1.sequenceId = p'.1.sequenceId := by omega
  have heq := List.inj_on_of_nodup_map hnodup hp hmem' (hdistinct p hp p' hmem' hseq)
  constructor
  · rw [← howner, ← howner', heq]
  · omega

/-- Without taint an entry is determined by the proposals made for its mutex. -/
theorem mutex_agree {made made' : List (MonitorEvent × ℕ)} {s s' : VerifierState}
    (hperm : made.Perm made') (hnodup : (made.map Prod.fst).Nodup)
    (hdistinct : ∀ p ∈ made, ∀ p' ∈ made, p.1.sequenceId = p'.1.sequenceId → p.1 = p'.1)
    (h : OwnerHistory made s) (h' : OwnerHistory made' s') (hu : UntaintedHistory made s)
    (hu' : UntaintedHistory made' s') {address : ℕ} {mutex mutex' : VerifierMutexState}
    (hmutex : s.mutexOf address = some mutex) (hmutex' : s'.mutexOf address = some mutex') :
    mutex = mutex' := by
  have hspec := mutexOf_spec hmutex
  have hspec' := mutexOf_spec hmutex'
  cases hknown : mutex.ownerKnown with
  | true =>
    have hknown' : mutex'.ownerKnown = true := by
      by_contra hcon
      rw [Bool.not_eq_true] at hcon
      obtain ⟨p, hp, haddress, -⟩ := h.known address mutex hmutex hknown
      exact (hu' address mutex' hmutex' hcon).2 p (hperm.mem_iff.mp hp) haddress
    obtain ⟨howner, hlast⟩ :=
      owner_agree hperm hnodup hdistinct h h' hmutex hmutex' hknown hknown'
    obtain ⟨used, known, mutexAddress, owner, last⟩ := mutex
    obtain ⟨used', known', mutexAddress', owner', last'⟩ := mutex'
    simp only at hspec hspec' hknown hknown' howner hlast
    rw [hspec.1, hspec'.1, hspec.2, hspec'.2, hknown, hknown', howner, hlast]
  | false =>
    obtain ⟨hfresh, hnever⟩ := hu address mutex hmutex hknown
    have hunknown' : mutex'.ownerKnown = false := by
      by_contra hcon
      rw [Bool.not_eq_false] at hcon
      obtain ⟨p, hp, haddress, -⟩ := h'.known address mutex' hmutex' hcon
      exact hnever p (hperm.mem_iff.mpr hp) haddress
    rw [hfresh, (hu' address mutex' hmutex' hunknown').1]

/-- What the threads' streams put out is the same in both orders, up to order. -/
theorem outputs_perm {R : Type*} {outKey : R → ℕ}
    {out : Option VerifierThreadState → MonitorEvent → List R}
    (hkey : ∀ x event r, r ∈ out x event → outKey r = event.threadId)
    (h : family.Interleaving events) (h' : family.Interleaving events')
    (threads : ℕ → Option VerifierThreadState) :
    (outputs replayAll (mapOut (·.threadId) out) threads events).Perm
      (outputs replayAll (mapOut (·.threadId) out) threads events') :=
  (sameStreams_outputs hkey (h.same h') threads).perm

theorem replayProposals_key (stored : Option VerifierThreadState) (event : MonitorEvent)
    (proposal : MonitorEvent × ℕ) (hmem : proposal ∈ replayProposals stored event) :
    proposal.1.threadId = event.threadId := by
  simp only [replayProposals, List.mem_map] at hmem
  obtain ⟨owner, -, rfl⟩ := hmem
  rfl

theorem replayReports_key (maxHoldNs : ℕ) (stored : Option VerifierThreadState)
    (event : MonitorEvent) (entry : MonitorEvent × Report)
    (hmem : entry ∈ replayReports maxHoldNs stored event) :
    entry.1.threadId = event.threadId := by
  simp only [replayReports, List.mem_map] at hmem
  obtain ⟨report, -, rfl⟩ := hmem
  rfl

theorem replayGaps_key (stored : Option VerifierThreadState) (event gap : MonitorEvent)
    (hmem : gap ∈ replayGaps stored event) : gap.threadId = event.threadId := by
  unfold replayGaps at hmem
  split at hmem
  · rw [List.mem_singleton.mp hmem]
  · simp at hmem

/-- Streams without gaps show none in any interleaving. -/
theorem no_gaps (h : family.Interleaving events)
    (hnumbered : ∀ threadId, NumberedFrom 0 (family.streams threadId)) :
    outputs replayAll (mapOut (·.threadId) replayGaps)
      (monitorVerifierInit maxHoldNs).threadOf events = [] := by
  apply List.eq_nil_iff_forall_not_mem.mpr
  intro gap hmem
  have hstream := mem_stream.mpr ⟨hmem, (rfl : gap.threadId = gap.threadId)⟩
  rw [stream_outputs replayGaps_key, h gap.threadId, init_threadOf,
    replayGaps_numbered (expecting_fresh _) (family.keyed _) (hnumbered _)] at hstream
  simp at hstream

/-- Processing does not depend on the order in which the queues are consumed. -/
theorem consumption_order_irrelevant (family : StreamFamily) (maxHoldNs : ℕ)
    (hfits : family.FitsTables) (hseq : family.Sequenced)
    (hnamed : ∀ threadId, ∀ event ∈ family.streams threadId, NamedMutex event)
    (events events' : List MonitorEvent)
    (h : family.Interleaving events) (h' : family.Interleaving events') :
    SameVerdicts (processAll (monitorVerifierInit maxHoldNs) events)
        (processAll (monitorVerifierInit maxHoldNs) events') ∧
      ((∀ threadId, NumberedFrom 0 (family.streams threadId)) → ∀ address,
        (processAll (monitorVerifierInit maxHoldNs) events).mutexOf address =
          (processAll (monitorVerifierInit maxHoldNs) events').mutexOf address) := by
  obtain ⟨addresses, hcard, hin⟩ := hfits.eventIn
  have hevents := hin events h
  have hevents' := hin events' h'
  have hinit := wellFormed_init maxHoldNs
  have hempty := fits_init family.threads addresses maxHoldNs
  have hreplayed := replayed_init maxHoldNs hfits.few_threads hcard hevents
  have hreplayed' := replayed_init maxHoldNs hfits.few_threads hcard hevents'
  have hwf := wellFormed_processAll hinit events
  have hwf' := wellFormed_processAll hinit events'
  have hthreads : ∀ threadId,
      (processAll (monitorVerifierInit maxHoldNs) events).threadOf threadId =
        (processAll (monitorVerifierInit maxHoldNs) events').threadOf threadId := by
    intro threadId
    rw [hreplayed.threads, hreplayed'.threads, foldl_mapStep, foldl_mapStep, h threadId,
      h' threadId]
  -- the proposals of both runs, which decide the mutex table
  have hperm := outputs_perm replayProposals_key h h' (monitorVerifierInit maxHoldNs).threadOf
  have hsub := proposals_fst_sublist (monitorVerifierInit maxHoldNs).threadOf events
  have hnodup := hsub.nodup (hseq.nodup h)
  have hdistinct : ∀ p ∈ outputs replayAll (mapOut (·.threadId) replayProposals)
      (monitorVerifierInit maxHoldNs).threadOf events,
      ∀ p' ∈ outputs replayAll (mapOut (·.threadId) replayProposals)
        (monitorVerifierInit maxHoldNs).threadOf events,
      p.1.sequenceId = p'.1.sequenceId → p.1 = p'.1 := by
    intro p hp p' hp' heq
    exact hseq.eq_of_sequence h (hsub.subset (List.mem_map_of_mem hp))
      (hsub.subset (List.mem_map_of_mem hp')) heq
  have hhistory := ownerHistory_processAll (ownerHistory_init maxHoldNs) hinit hempty
    hfits.few_threads hcard hevents
  have hhistory' := ownerHistory_processAll (ownerHistory_init maxHoldNs) hinit hempty
    hfits.few_threads hcard hevents'
  rw [List.nil_append] at hhistory hhistory'
  constructor
  · constructor
    · exact hthreads
    · rw [hreplayed.gaps, hreplayed'.gaps]
      have hgaps := outputs_perm replayGaps_key h h' (monitorVerifierInit maxHoldNs).threadOf
      rw [hgaps.length_eq]
    · rw [hwf.tainted_count, hwf'.tainted_count]
      exact countWhere_congr hwf.threads_distinct hwf'.threads_distinct _ hthreads
    · have hwaiting : ∀ events, family.Interleaving events →
          WaitingCounted (processAll (monitorVerifierInit maxHoldNs) events) := by
        intro events h
        apply waitingCounted_processAll hinit (waitingCounted_init maxHoldNs)
        intro event hmem
        exact hnamed _ event (h.mem hmem)
      rw [hwaiting events h, hwaiting events' h']
      exact countWhere_congr hwf.threads_distinct hwf'.threads_distinct _ hthreads
    · intro kind
      have hcounted := countersAgree_runCalls (countersAgree_init maxHoldNs) hinit
      have hagree := hcounted (events.map .processEvent) kind
      have hagree' := hcounted (events'.map .processEvent) kind
      rw [← processAll_eq_runCalls] at hagree hagree'
      rw [hagree, hagree', hreplayed.reports, hreplayed'.reports]
      have hreports := outputs_perm (replayReports_key maxHoldNs) h h'
        (monitorVerifierInit maxHoldNs).threadOf
      exact congrArg (· % 2 ^ 64) (((hreports.map Prod.snd).append_left _).countP_eq _)
    · intro address mutex mutex' hmutex hmutex' hknown hknown'
      exact (owner_agree hperm hnodup hdistinct hhistory hhistory' hmutex hmutex' hknown
        hknown').1
  · intro hnumbered address
    have hu := untaintedHistory_processAll (untaintedHistory_init maxHoldNs)
      (ownerHistory_init maxHoldNs) hinit hempty hfits.few_threads hcard hevents
      (no_gaps h hnumbered)
    have hu' := untaintedHistory_processAll (untaintedHistory_init maxHoldNs)
      (ownerHistory_init maxHoldNs) hinit hempty hfits.few_threads hcard hevents'
      (no_gaps h' hnumbered)
    rw [List.nil_append] at hu hu'
    have hexists : (processAll (monitorVerifierInit maxHoldNs) events).mutexOf address ≠ none ↔
        (processAll (monitorVerifierInit maxHoldNs) events').mutexOf address ≠ none := by
      rw [mutex_exists_processAll hinit hempty hfits.few_threads hcard hevents,
        mutex_exists_processAll hinit hempty hfits.few_threads hcard hevents']
      simp only [(h.same h').perm.mem_iff]
    rcases Option.eq_none_or_eq_some
      ((processAll (monitorVerifierInit maxHoldNs) events).mutexOf address) with
      hnone | ⟨mutex, hmutex⟩
    · have hnone' : (processAll (monitorVerifierInit maxHoldNs) events').mutexOf address =
          none := by
        by_contra hne
        exact hexists.mpr hne hnone
      rw [hnone, hnone']
    · have hsome := hexists.mp (by simp [hmutex])
      obtain ⟨mutex', hmutex'⟩ := Option.ne_none_iff_exists'.mp hsome
      rw [hmutex, hmutex', mutex_agree hperm hnodup hdistinct hhistory hhistory' hu hu' hmutex
        hmutex']

/-- Thread 1 locks mutex 500 and thread 2 asks for it. -/
def contendedStreams (threadId : ℕ) : List MonitorEvent :=
  if threadId = 1 then
    [sampleEvent 0 1 0 500 .lockRequest, sampleEvent 1 1 1 500 .lockAcquired]
  else if threadId = 2 then [sampleEvent 2 2 0 500 .lockRequest]
  else []

theorem mem_contendedStreams {threadId : ℕ} {event : MonitorEvent}
    (hmem : event ∈ contendedStreams threadId) :
    (threadId = 1 ∧ (event = sampleEvent 0 1 0 500 .lockRequest ∨
      event = sampleEvent 1 1 1 500 .lockAcquired)) ∨
    (threadId = 2 ∧ event = sampleEvent 2 2 0 500 .lockRequest) := by
  unfold contendedStreams at hmem
  split at hmem
  · rename_i h
    simp only [List.mem_cons, List.not_mem_nil, or_false] at hmem
    exact Or.inl ⟨h, hmem⟩
  · split at hmem
    · rename_i h
      exact Or.inr ⟨h, List.mem_singleton.mp hmem⟩
    · simp at hmem

def contendedFamily : StreamFamily where
  threads := {1, 2}
  streams := contendedStreams
  keyed threadId event hmem := by
    rcases mem_contendedStreams hmem with ⟨rfl, rfl | rfl⟩ | ⟨rfl, rfl⟩ <;> rfl
  outside threadId hout := by
    simp only [Finset.mem_insert, Finset.mem_singleton, not_or] at hout
    simp [contendedStreams, hout]

theorem contendedFamily_fits : contendedFamily.FitsTables where
  few_threads := by decide
  few_mutexes := by
    refine ⟨{500}, by decide, ?_⟩
    intro threadId event hmem _
    rcases mem_contendedStreams hmem with ⟨-, rfl | rfl⟩ | ⟨-, rfl⟩ <;> decide

theorem contendedFamily_sequenced : contendedFamily.Sequenced where
  increasing threadId := by
    change (contendedStreams threadId).Pairwise _
    unfold contendedStreams
    split
    · simp [sampleEvent]
    · split <;> simp
  distinct threadId threadId' event hmem event' hmem' := by
    rcases mem_contendedStreams hmem with ⟨-, rfl | rfl⟩ | ⟨-, rfl⟩ <;>
      rcases mem_contendedStreams hmem' with ⟨-, rfl | rfl⟩ | ⟨-, rfl⟩ <;> decide

theorem consumption_order_irrelevant_contended :
    SameVerdicts
        (processAll (monitorVerifierInit defaultMaxHoldNs)
          [sampleEvent 0 1 0 500 .lockRequest, sampleEvent 1 1 1 500 .lockAcquired,
            sampleEvent 2 2 0 500 .lockRequest])
        (processAll (monitorVerifierInit defaultMaxHoldNs)
          [sampleEvent 2 2 0 500 .lockRequest, sampleEvent 0 1 0 500 .lockRequest,
            sampleEvent 1 1 1 500 .lockAcquired]) := by
  refine (consumption_order_irrelevant contendedFamily defaultMaxHoldNs contendedFamily_fits
    contendedFamily_sequenced ?_ _ _ ?_ ?_).1
  · intro threadId event hmem
    rcases mem_contendedStreams hmem with ⟨-, rfl | rfl⟩ | ⟨-, rfl⟩ <;> intro _ <;> decide
  · exact contendedFamily.interleaving_of_threads (by decide) (by decide)
  · exact contendedFamily.interleaving_of_threads (by decide) (by decide)

end RuntimeMonitor.ConsumptionOrder
