import RuntimeMonitor.RuntimeRounds
import RuntimeMonitor.StreamTracking

/-!
Gap detection is exact. The numbers that the producer gives to the events of a slot
and the numbers that the verifier expects of the slot's thread stay in step through
drops and wraparound, so at each delivered event the taint flag tells whether a drop
lies before it and the gaps counted so far are the maximal runs of drops before it.
-/
namespace RuntimeMonitor.GapDetection

open TransitionRuns EventRecord SlotTables VerifierTables VerifierEvents VerifierCycles
open VerifierInvariant VerifierMaps KeyedStreams SequenceGaps EventLoss MonitorRuntime
open SlotOwnership RuntimeStreams EventNumbers RuntimeAccounts AuthoritativeTraces GapDiscards
open StreamTracking RuntimeRounds
open RingBuffer (spscRingCapacity)

/-- The push attempts on a slot in generation order, with their outcomes. -/
def attemptsOn (slot : ℕ) (tr : List Observation) : List (MonitorEvent × Bool) :=
  tr.filterMap fun
    | .pushed _ slot' event => if slot' = slot then some (event, true) else none
    | .dropped _ slot' event => if slot' = slot then some (event, false) else none
    | _ => none

/-- The thread is the only claimant of a slot with its thread id. -/
def OwnId (gettid : ℕ → ℕ) (tr : List Observation) (slot thread : ℕ) : Prop :=
  (claimants tr)[slot]? = some thread ∧ ∀ slot' other, (claimants tr)[slot']? = some other →
    gettid other = gettid thread → slot' = slot

/-- Fewer than 2^32 events of the slot are dropped in a row. -/
def ShortDropRuns (slot : ℕ) (tr : List Observation) : Prop :=
  ∀ before dropped after, attemptsOn slot tr = before ++ dropped ++ after →
    (∀ attempt ∈ dropped, attempt.2 = false) → dropped.length < 2 ^ 32

variable {gettid : ℕ → ℕ} {maxHoldNs slot thread : ℕ} {rt : Runtime} {tr : List Observation}

theorem generated_attemptsOn (slot : ℕ) (tr : List Observation) :
    generated (attemptsOn slot tr) = eventsOn attemptedEvent slot tr := by
  unfold generated attemptsOn eventsOn
  rw [List.map_filterMap]
  apply List.filterMap_congr
  intro o _
  cases o with
  | pushed thread slot' event | dropped thread slot' event =>
    by_cases heq : slot' = slot <;> simp [attemptedEvent, heq]
  | _ => rfl

theorem delivered_attemptsOn (slot : ℕ) (tr : List Observation) :
    delivered (attemptsOn slot tr) = eventsOn pushedEvent slot tr := by
  unfold delivered attemptsOn eventsOn
  rw [List.filter_filterMap, List.map_filterMap]
  apply List.filterMap_congr
  intro o _
  cases o with
  | pushed thread slot' event | dropped thread slot' event =>
    by_cases heq : slot' = slot <;> simp [pushedEvent, heq]
  | _ => rfl

theorem mem_attemptsOn {attempt : MonitorEvent × Bool} (h : attempt ∈ attemptsOn slot tr) :
    (slot, attempt.1) ∈ tr.filterMap attemptedEvent := by
  have hevent : attempt.1 ∈ eventsOn attemptedEvent slot tr := by
    rw [← generated_attemptsOn]
    exact List.mem_map_of_mem h
  obtain ⟨o, ho, hkind⟩ := mem_eventsOn.mp hevent
  exact List.mem_filterMap.mpr ⟨o, ho, hkind⟩

theorem attemptsOn_other (h : ∀ entry ∈ tr.filterMap attemptedEvent, entry.1 ≠ slot) :
    attemptsOn slot tr = [] := by
  rw [List.eq_nil_iff_forall_not_mem]
  exact fun attempt hmem => h _ (mem_attemptsOn hmem) rfl

theorem shortDropRuns_of_length (h : (attemptsOn slot tr).length < 2 ^ 32) :
    ShortDropRuns slot tr := by
  intro earlier dropped later heq _
  rw [heq, List.length_append, List.length_append] at h
  omega

theorem numberedFrom_of_map {n : ℕ} {events : List MonitorEvent}
    (h : events.map (·.threadSequence) =
      (List.range' n events.length).map (· % 2 ^ 32)) : NumberedFrom n events := by
  induction events generalizing n with
  | nil => trivial
  | cons event rest ih =>
    rw [List.length_cons, List.range'_succ, List.map_cons, List.map_cons, List.cons.injEq] at h
    exact ⟨h.1, ih h.2⟩

/-- The attempts on a slot carry the numbers of the producer's counter. -/
theorem numbered_attempts (h : Reached gettid maxHoldNs rt tr) (slot : ℕ) :
    NumberedFrom 0 (generated (attemptsOn slot tr)) := by
  rw [generated_attemptsOn]
  apply numberedFrom_of_map
  have hinitial := h.attempted_prefix slot
  have htake := List.prefix_iff_eq_take.mp (hinitial.map (·.threadSequence))
  rw [htake, h.numbered.local_ slot, List.length_map, ← List.map_take, List.take_range,
    Nat.min_eq_left hinitial.length_le, List.range_eq_range']

theorem callEvents_eq (tr : List Observation) :
    callEvents (verifierCalls tr) = (tr.filterMap processedEvent).map Prod.snd := by
  unfold callEvents verifierCalls
  rw [List.filterMap_filterMap, List.map_filterMap]
  apply List.filterMap_congr
  intro o _
  cases o <;> rfl

/-- The thread id in a processed event is that of the claimant of its slot. -/
theorem processed_owner (h : Reached gettid maxHoldNs rt tr) {event : MonitorEvent}
    (hmem : (slot, event) ∈ tr.filterMap processedEvent) :
    ∃ thread, (claimants tr)[slot]? = some thread ∧ event.threadId = gettid thread := by
  obtain ⟨o, ho, hkind⟩ := List.mem_filterMap.mp hmem
  have hprocessed : event ∈ eventsOn processedEvent slot tr := mem_eventsOn.mpr ⟨o, ho, hkind⟩
  have hpushed := (h.processed_prefix slot).mem hprocessed
  have hattempted := (pushed_sublist slot tr).mem hpushed
  exact h.identified.events slot event ((h.attempted_prefix slot).mem hattempted)

/-- What the verifier has received of a thread is what was processed on its slot. -/
theorem deliveredTo_eq (h : Reached gettid maxHoldNs rt tr) (hown : OwnId gettid tr slot thread) :
    deliveredTo (gettid thread) (verifierCalls tr) = eventsOn processedEvent slot tr := by
  have hslot : ∀ entry ∈ tr.filterMap processedEvent,
      (entry.2.threadId = gettid thread ↔ entry.1 = slot) := by
    rintro ⟨slot', event⟩ hmem
    obtain ⟨other, hother, hid⟩ := processed_owner h hmem
    constructor
    · intro heq
      exact hown.2 slot' other hother (hid.symm.trans heq)
    · intro heq
      have hslot' : slot' = slot := heq
      rw [hslot', hown.1, Option.some.injEq] at hother
      rw [hid, ← hother]
  have heventsOn : eventsOn processedEvent slot tr =
      ((tr.filterMap processedEvent).filter fun entry => entry.1 = slot).map Prod.snd := by
    unfold eventsOn
    rw [List.filter_filterMap, List.map_filterMap]
    apply List.filterMap_congr
    intro o _
    cases hkind : processedEvent o with
    | none => rfl
    | some entry =>
      obtain ⟨slot', event⟩ := entry
      by_cases heq : slot' = slot <;> simp [heq]
  unfold deliveredTo stream
  rw [callEvents_eq, heventsOn, List.filter_map]
  congr 1
  apply List.filter_congr
  intro entry hmem
  simp [hslot entry hmem]

/-- The thread ids that can occur, at most as many as there are slots. -/
def registeredIds (gettid : ℕ → ℕ) (tr : List Observation) : Finset ℕ :=
  ((claimants tr).map gettid).toFinset

theorem registeredIds_card (h : Reached gettid maxHoldNs rt tr) :
    (registeredIds gettid tr).card ≤ verifierMaxThreads := by
  have hcard := List.toFinset_card_le ((claimants tr).map gettid)
  rw [List.length_map, h.owned.claimed] at hcard
  exact hcard.trans h.owned.bound

theorem callEvents_registered (h : Reached gettid maxHoldNs rt tr) :
    ∀ event ∈ callEvents (verifierCalls tr), event.threadId ∈ registeredIds gettid tr := by
  intro event hmem
  rw [callEvents_eq, List.mem_map] at hmem
  obtain ⟨⟨slot, event⟩, hmem, rfl⟩ := hmem
  obtain ⟨thread, hthread, hid⟩ := processed_owner h hmem
  rw [registeredIds, List.mem_toFinset, hid]
  exact List.mem_map_of_mem (List.mem_of_getElem? hthread)

theorem delivered_of_done (h : Reached gettid maxHoldNs rt tr)
    (hown : OwnId gettid tr slot thread) {done rest : List Call}
    (hcalls : verifierCalls tr = done ++ rest) :
    deliveredTo (gettid thread) done <+: delivered (attemptsOn slot tr) := by
  rw [delivered_attemptsOn]
  refine List.IsPrefix.trans ?_ (h.processed_prefix slot)
  rw [← deliveredTo_eq h hown, hcalls, deliveredTo, deliveredTo, callEvents_append, stream_append]
  exact List.prefix_append ..

/-- At the k-th delivered event of a thread with an id of its own, the thread is tainted
if and only if an event generated before was dropped, and the gaps counted for it are
the maximal runs of dropped events before. -/
theorem gap_detection_exact (gettid : ℕ → ℕ) (maxHoldNs : ℕ) {rt : Runtime}
    {tr : List Observation} {slot thread : ℕ} {done rest : List Call} {event : MonitorEvent}
    (hrun : Run (step gettid) (monitorRuntimeStart maxHoldNs) tr rt)
    (hown : OwnId gettid tr slot thread) (hshort : ShortDropRuns slot tr)
    (hcalls : verifierCalls tr = done ++ .processEvent event :: rest)
    (hid : event.threadId = gettid thread) :
    ∃ before after, attemptsOn slot tr = before ++ (event, true) :: after ∧
      delivered before = deliveredTo (gettid thread) done ∧
      (∃ entry, (checked (runCalls (monitorVerifierInit maxHoldNs) done) event).threadOf
          (gettid thread) = some entry ∧
        (entry.traceTainted = true ↔ ∃ attempt ∈ before, attempt.2 = false)) ∧
      gapsCounted (gettid thread) (monitorVerifierInit maxHoldNs)
        (done ++ [.processEvent event]) = dropRuns before := by
  have h := reached_run hrun
  have hK := registeredIds_card h
  have hregistered := callEvents_registered h
  rw [hcalls, callEvents_append] at hregistered
  have hnumbered := numbered_attempts h slot
  obtain ⟨handled, remaining, hfollowed⟩ := followed_runCalls maxHoldNs hK
    (fun e he => hregistered e (List.mem_append_left _ he)) (delivered_of_done h hown hcalls)
    hnumbered hshort
  have hmine : deliveredTo (gettid thread) (done ++ [.processEvent event]) =
      deliveredTo (gettid thread) done ++ [event] := by
    rw [deliveredTo, callEvents_append, stream_append]
    simp [callEvents, stream, hid]
  have hnext : verifierCalls tr = (done ++ [.processEvent event]) ++ rest := by
    rw [hcalls, List.append_assoc]
    rfl
  obtain ⟨more, hmore⟩ := delivered_of_done h hown hnext
  rw [hmine, List.append_assoc] at hmore
  have hwf := wellFormed_runCalls (wellFormed_init maxHoldNs) done
  have hknown := knownThreads_runCalls (knownThreads_init (registeredIds gettid tr) maxHoldNs)
    (wellFormed_init maxHoldNs) fun e he => hregistered e (List.mem_append_left _ he)
  have hroom := hknown.room hwf hK (hregistered event (List.mem_append_right _ (by
    simp [callEvents])))
  obtain ⟨dropped, after, hsplit, hdropped, -, htaint, hgaps⟩ :=
    hfollowed.next hid hmore.symm hnumbered hshort hroom
  refine ⟨handled ++ dropped, after, ?_, ?_, ⟨observed (runCalls (monitorVerifierInit maxHoldNs)
    done) event, ?_, htaint⟩, hgaps⟩
  · rw [hfollowed.split, hsplit, List.append_assoc]
  · rw [delivered_append, delivered_dropped hdropped, List.append_nil, hfollowed.delivered_eq]
  · rw [checked_threadOf hwf hroom, hid, Function.update_self]

theorem attemptsOn_append (slot : ℕ) (tr os : List Observation) :
    attemptsOn slot (tr ++ os) = attemptsOn slot tr ++ attemptsOn slot os :=
  List.filterMap_append ..

theorem attemptsOn_pushedEach (thread slot : ℕ) (events : List MonitorEvent) :
    attemptsOn slot (pushedEach thread slot events) = events.map ((·, true)) := by
  induction events with
  | nil => rfl
  | cons event rest ih =>
    rw [pushedEach, List.flatMap_cons, attemptsOn_append]
    simp only [attemptsOn, List.filterMap_cons, if_true, List.filterMap_nil]
    exact congrArg ((event, true) :: ·) ih

/-- A list is split in one way only at an element that ends it and is not in it before. -/
theorem split_unique {α : Type*} {front before after : List α} {x : α} (hx : x ∉ front)
    (h : front ++ [x] = before ++ x :: after) : before = front := by
  rcases List.eq_nil_or_concat after with rfl | ⟨middle, last, rfl⟩
  · exact (List.append_inj_left' h rfl).symm
  · rw [List.concat_eq_append, ← List.cons_append, ← List.append_assoc] at h
    obtain ⟨hfront, -⟩ := List.append_inj' h rfl
    exact absurd (hfront ▸ List.mem_append_right _ (List.mem_cons_self ..)) hx

theorem ownId_single (h : claimants tr = [thread]) : OwnId gettid tr 0 thread := by
  constructor
  · rw [h]
    rfl
  · intro slot other hother _
    rw [h] at hother
    have hlt := (List.getElem?_eq_some_iff.mp hother).1
    rw [List.length_singleton] at hlt
    omega

/-- A thread has emitted two events, which the consumer has processed. -/
def twoDelivered : Runtime × List Observation :=
  after (step id) (monitorRuntimeStart 0)
    (firstEmission 1 .lockRequest 100 ++ List.replicate 11 .consumer)

/-- What is observed of an emission and of the round that takes its event. -/
def deliveredNext (event : MonitorEvent) : List Observation :=
  [.reserved 1 0 event, .pushed 1 0 event, .returned 1 0, .roundStarted, .processed 0 event]

/-- A thread fills its queue and loses an event. When the consumer has taken everything,
the next event of the thread is delivered. -/
theorem run_refilled (hd : Draining rt 1 []) (h : Emits rt 1 0)
    (hlocal : (rt.threadContexts 0).nextThreadSequence + spscRingCapacity < 2 ^ 32)
    (hglobal : rt.globalSequence + spscRingCapacity < 2 ^ 64) :
    ∃ (rt' : Runtime) (tr : List Observation) (fills : List MonitorEvent)
        (lost event : MonitorEvent),
      Run (step id) rt (tr ++ deliveredNext event) rt' ∧
      claimants tr = [] ∧ attemptsOn 0 tr = fills.map ((·, true)) ++ [(lost, false)] ∧
      fills.length = spscRingCapacity ∧ (∀ filler ∈ fills, filler.objectAddress = 0) ∧
      event.objectAddress = 300 := by
  obtain ⟨rt₁, hoverfill, hd₁, hemits, -⟩ :=
    @run_overfilled id rt 1 1 hd h hlocal hglobal .unlockRequest 0 _ _ rfl rfl
  generalize hfills : burst rt 0 .unlockRequest 0 spscRingCapacity = fills at *
  generalize lostEvent rt .unlockRequest 0 = lost at *
  have hlength : fills.length = spscRingCapacity := by rw [← hfills, burst_length]
  obtain ⟨rt₂, tr₂, hbatches, hd₂, -, hsame, hquiet⟩ := @run_batches id rt₁ 1 _ 32 hd₁ hlength
  obtain ⟨rt₃, hpush, he⟩ := @run_pushed id rt₂ 1 0 (hsame.emits hemits) .unlockRequest 300 (by
    rw [hd₂.first]
    decide)
  rw [hd₂.first, List.nil_append] at he
  obtain ⟨rt₄, hlast, -⟩ := @run_batch id rt₃ 1 [_] [] (he.draining hd₂) Nat.one_pos
    (show 1 ≤ monitorDrainBatch by decide) (Or.inr rfl)
  refine ⟨rt₄, _, fills, lost, _, (hoverfill.trans hbatches).trans (hpush.trans hlast), ?_, ?_,
    hlength, fun filler hmem => (mem_burst (hfills ▸ hmem)).2, rfl⟩
  · rw [claimants_append, claimants_append, (pushedEach_attempted 1 0 fills).1, hquiet.1]
    rfl
  · have hnone : attemptsOn 0 tr₂ = [] := attemptsOn_other (by simp [hquiet.2])
    rw [attemptsOn_append, attemptsOn_append, attemptsOn_pushedEach, hnone, List.append_nil]
    rfl

/-- The thread fills its queue and loses an event. When the consumer has taken everything,
the next event of the thread is the first one behind the loss. -/
theorem gap_detection_exact_refilled :
    ∃ rt tr done event entry, Run (step id) (monitorRuntimeStart 0) tr rt ∧
      verifierCalls tr = done ++ [.processEvent event] ∧
      (checked (runCalls (monitorVerifierInit 0) done) event).threadOf 1 = some entry ∧
      entry.traceTainted = true ∧
      gapsCounted 1 (monitorVerifierInit 0) (done ++ [.processEvent event]) = 1 := by
  have hstart : Run (step id) (monitorRuntimeStart 0) twoDelivered.2 twoDelivered.1 :=
    run_after (by decide +kernel)
  have hdraining : Draining twoDelivered.1 1 [] := by
    refine ⟨?_, ?_, ?_, ?_, ?_, ?_, ?_⟩ <;> decide +kernel
  have hemits : Emits twoDelivered.1 1 0 := by
    refine ⟨?_, ?_, ?_, ?_⟩ <;> decide +kernel
  obtain ⟨rt, tr, fills, lost, event, hmore, hclaims, hattempts, hlength, haddresses,
    haddress⟩ := run_refilled hdraining hemits (by decide +kernel) (by decide +kernel)
  have hrun := hstart.trans hmore
  have hclaimants : claimants (twoDelivered.2 ++ tr) = [1] := by
    rw [claimants_append, hclaims]
    decide +kernel
  have hon : attemptsOn 0 (twoDelivered.2 ++ tr) =
      attemptsOn 0 twoDelivered.2 ++ fills.map ((·, true)) ++ [(lost, false)] := by
    rw [attemptsOn_append, hattempts, List.append_assoc]
  rw [← List.append_assoc] at hrun
  generalize twoDelivered.2 ++ tr = earlier at hrun hclaimants hon
  have haccepted : ∀ attempt ∈ attemptsOn 0 twoDelivered.2 ++ fills.map ((·, true)),
      attempt.2 = true ∧ attempt.1.objectAddress ≠ 300 := by
    intro attempt hmem
    rcases List.mem_append.mp hmem with hfirst | hfilled
    · have hall : ∀ attempt ∈ attemptsOn 0 twoDelivered.2,
          attempt.2 = true ∧ attempt.1.objectAddress ≠ 300 := by decide +kernel
      exact hall attempt hfirst
    · obtain ⟨filler, hfiller, rfl⟩ := List.mem_map.mp hfilled
      exact ⟨rfl, by rw [haddresses filler hfiller]; decide⟩
  have hnew : (event, true) ∉ attemptsOn 0 earlier := by
    rw [hon, List.mem_append, List.mem_singleton, Prod.mk.injEq]
    rintro (hmem | ⟨-, hfalse⟩)
    · exact (haccepted _ hmem).2 haddress
    · cases hfalse
  have hshort : (attemptsOn 0 earlier).length < 2 ^ 31 := by
    have hstarted : (attemptsOn 0 twoDelivered.2).length = 2 := by decide +kernel
    rw [hon, List.length_append, List.length_append, List.length_map, hlength, hstarted]
    exact (by decide : 2 + spscRingCapacity + 1 < 2 ^ 31)
  have hall : attemptsOn 0 (earlier ++ deliveredNext event) =
      attemptsOn 0 earlier ++ [(event, true)] := attemptsOn_append ..
  have hown : OwnId id (earlier ++ deliveredNext event) 0 1 := by
    apply ownId_single
    rw [claimants_append, hclaimants]
    rfl
  have hid : event.threadId = id 1 := (reached_run hrun).identified.own hown.1
    (mem_eventsOn.mpr ⟨.reserved 1 0 event, by simp [deliveredNext], rfl⟩)
  obtain ⟨before, after, hsplit, -, ⟨entry, hentry, htaint⟩, hgaps⟩ :=
    gap_detection_exact id 0 hrun hown
      (shortDropRuns_of_length (by rw [hall, List.length_append, List.length_singleton]; omega))
      (verifierCalls_append earlier _) hid
  obtain rfl := split_unique hnew (hall.symm.trans hsplit)
  refine ⟨_, _, _, event, entry, hrun, verifierCalls_append .., hentry, htaint.mpr ?_, ?_⟩
  · rw [hon]
    exact ⟨(lost, false), List.mem_append_right _ (List.mem_singleton_self _), rfl⟩
  · refine hgaps.trans ?_
    rw [hon, dropRuns_behind (fun attempt hmem => (haccepted attempt
      (List.mem_of_getLast? hmem)).1) (by simp), dropRuns_lossless fun attempt hmem =>
        (haccepted attempt hmem).1]
    rfl

end RuntimeMonitor.GapDetection
