import RuntimeMonitor.CapacityRuns
import RuntimeMonitor.Handoffs
import RuntimeMonitor.NewestOwners

/-!
The owner on record and the real owner. Once everything is processed the record of a mutex
follows the newest of its numbers. For a free mutex that is right, whatever the order of
the numbers. For a held one it is right unless another thread has numbered its release of
the mutex late, behind the newest number of the holder: then nobody is on record.
-/
namespace RuntimeMonitor.RealOwnership

open TransitionRuns EventRecord VerifierTables VerifierEvents VerifierCycles VerifierInvariant
open VerifierMaps KeyedStreams StreamReplay SequenceGaps MonitorRuntime RuntimeSteps SlotOwnership
open RuntimeStreams EventNumbers RuntimeAccounts AuthoritativeTraces StreamTracking GapDetection
open LosslessRuns ConsistentSnapshots ThreadVerdicts CapacityRuns RecordAgreement LossyCycles
open InterposedCalls InterposedProgram ProgramStreams FailedUnlocks RealDeadlocks NewestOwners
open Handoffs

/-- A run that loses no event, that the tables do not run out in, and in which no thread
holds a mutex more than `UINT32_MAX` times. -/
structure Undisturbed (gettid : ℕ → ℕ) (maxHoldNs : ℕ) (p : Program)
    (tr : List ProgramObservation) : Prop where
  run : Run (programStep gettid) (programStart maxHoldNs) tr p
  lossless : Lossless (runtimeTrace tr)
  accepted : refusals (runtimeTrace tr) = []
  roomy : p.runtime.verifier.stateOverflowEvents = 0
  recorded : ∀ thread, Recorded (callsOf thread tr)

/-- Every pushed event has been processed, and no thread still has to push an acquisition
or a release. -/
structure Settled (p : Program) (tr : List ProgramObservation) : Prop where
  processed : ∀ slot, eventsOn processedEvent slot (runtimeTrace tr) =
    eventsOn pushedEvent slot (runtimeTrace tr)
  emitted : ∀ thread, Still (unpushed p thread)

/-- The verifier has processed an acquisition of the mutex. -/
def SeenLocked (tr : List ProgramObservation) (mutex : ℕ) : Prop :=
  ∃ slot event, .processed slot event ∈ runtimeTrace tr ∧ event.eventType = .lockAcquired ∧
    event.objectAddress = mutex

/-- The owner on record is the real one. -/
def OwnerReal (gettid : ℕ → ℕ) (p : Program) (mutex : ℕ) : Prop :=
  ∃ entry, p.runtime.verifier.mutexOf mutex = some entry ∧ entry.ownerKnown = true ∧
    (∀ thread, entry.ownerThreadId = gettid thread ↔ 0 < p.levels thread mutex) ∧
    (entry.ownerThreadId = 0 ↔ p.mutexes mutex = none)

variable {gettid : ℕ → ℕ} {maxHoldNs thread mutex slot : ℕ} {rc : ℤ} {p p' : Program}
  {rt rt' : Runtime} {tr os : List ProgramObservation} {request : EmitRequest}
  {event : MonitorEvent}

section Moves

theorem movesOf_sublist (mutex : ℕ) (made : List Observation) :
    ((movesOf mutex made).map Prod.snd).Sublist (reservedAll made) := by
  induction made with
  | nil => exact List.Sublist.refl _
  | cons o rest ih =>
    rw [show movesOf mutex (o :: rest) = movesOf mutex [o] ++ movesOf mutex rest from
        movesOf_append mutex [o] rest,
      show reservedAll (o :: rest) = reservedAll [o] ++ reservedAll rest from
        reservedAll_append [o] rest, List.map_append]
    refine List.Sublist.append ?_ ih
    cases o with
    | reserved thread slot event =>
      simp only [movesOf, List.filterMap_cons, List.filterMap_nil]
      split
      · exact List.nil_sublist _
      · rename_i move hmove
        simp only [Option.ite_none_right_eq_some, Option.some.injEq] at hmove
        obtain ⟨-, rfl⟩ := hmove
        exact List.Sublist.refl _
    | _ => exact List.nil_sublist _

theorem mem_movesOf {made : List Observation} :
    (thread, event) ∈ movesOf mutex made ↔
      (∃ slot, .reserved thread slot event ∈ made) ∧ MovesOwnership mutex event := by
  unfold movesOf MovesOwnership
  rw [List.mem_filterMap]
  constructor
  · rintro ⟨o, ho, hkind⟩
    cases o with
    | reserved thread' slot event' =>
      simp only [Option.ite_none_right_eq_some, Option.some.injEq, Prod.mk.injEq] at hkind
      obtain ⟨hmoves, rfl, rfl⟩ := hkind
      exact ⟨⟨slot, ho⟩, hmoves⟩
    | _ => simp at hkind
  · rintro ⟨⟨slot, ho⟩, hmoves⟩
    exact ⟨_, ho, by simp [hmoves]⟩

/-- A processed event has been reserved, by the owner of its slot. -/
theorem processed_reserved {made : List Observation} (h : Reached gettid maxHoldNs rt made)
    (hmem : event ∈ eventsOn processedEvent slot made) :
    ∃ thread, .reserved thread slot event ∈ made := by
  have hreserved := (h.attempted_prefix slot).mem ((pushed_sublist slot _).mem
    ((h.processed_prefix slot).mem hmem))
  obtain ⟨o, ho, hkind⟩ := mem_eventsOn.mp hreserved
  cases o with
  | reserved thread slot' event' =>
    cases hkind
    exact ⟨thread, ho⟩
  | _ => simp [reservedEvent] at hkind

theorem Settled.checked (h : Settled p tr)
    (hrun : Run (programStep gettid) (programStart maxHoldNs) tr p) :
    Checked gettid maxHoldNs p p tr tr :=
  ⟨hrun, hrun, List.prefix_rfl, h.processed⟩

/-- A mutex that has been seen locked has a newest number. -/
theorem SeenLocked.newest (h : SeenLocked tr mutex)
    (hrun : Run (programStep gettid) (programStart maxHoldNs) tr p) :
    ∃ thread event, (movesOf mutex (runtimeTrace tr)).getLast? = some (thread, event) := by
  obtain ⟨slot, event, hprocessed, htype, haddress⟩ := h
  obtain ⟨thread, hreserved⟩ := processed_reserved (program_reached hrun)
    (mem_eventsOn.mpr ⟨_, hprocessed, rfl⟩)
  have hmem : (thread, event) ∈ movesOf mutex (runtimeTrace tr) :=
    mem_movesOf.mpr ⟨⟨slot, hreserved⟩, Or.inl htype, haddress⟩
  exact ⟨_, _, List.getLast?_eq_some_getLast (List.ne_nil_of_mem hmem)⟩

/-- The newest move has the greatest number. -/
theorem newest_greatest {made : List Observation} (h : Reached gettid maxHoldNs rt made)
    (hbound : (reservedAll made).length ≤ 2 ^ 64)
    (hnewest : (movesOf mutex made).getLast? = some (thread, event)) {move : ℕ × MonitorEvent}
    (hmem : move ∈ movesOf mutex made) : move.2.sequenceId ≤ event.sequenceId := by
  have hpairs := (numbers_ordered h hbound).sublist (movesOf_sublist mutex _)
  obtain ⟨front, hfront⟩ := List.getLast?_eq_some_iff.mp hnewest
  rw [hfront, List.map_append, List.pairwise_append] at hpairs
  rw [hfront, List.mem_append, List.mem_singleton] at hmem
  rcases hmem with hold | rfl
  · exact (hpairs.2.2 move.2 (List.mem_map_of_mem hold) event (by simp)).le
  · exact le_rfl

end Moves

section Records

/-- The processed calls have complete streams in tables with room. -/
theorem settled_faithful (h : Undisturbed gettid maxHoldNs p tr) (hsettled : Settled p tr)
    (hids : Function.Injective gettid)
    (hnumbers : (reservedAll (runtimeTrace tr)).length < 2 ^ 64) :
    Faithful maxHoldNs (verifierCalls (runtimeTrace tr)) := by
  have hreached := program_reached h.run
  have hdelivered := (hsettled.checked h.run).delivered hids
  constructor
  · intro threadId
    rcases hdelivered threadId with hnone | ⟨thread, slot, -, hslot, heq⟩
    · rw [hnone]
      trivial
    · rw [heq, pushed_eq_attempted (h.lossless slot), ← generated_attemptsOn]
      exact numbered_attempts hreached slot
  · apply neverOverflows_of_final
    · rw [callEvents_verifierCalls]
      exact lt_of_le_of_lt (processed_le_reserved hreached) hnumbers
    · rw [← hreached.accounted.verifier]
      exact h.roomy
  · intro threadId done rest hsplit address
    have hearlier : (deliveredTo threadId done).map requestOf <+:
        (deliveredTo threadId (verifierCalls (runtimeTrace tr))).map requestOf :=
      hsplit ▸ delivered_prefix done rest
    rw [holdingOf_depth]
    rcases hdelivered threadId with hnone | ⟨thread, slot, -, hslot, heq⟩
    · rw [hnone, List.map_nil, List.prefix_nil] at hearlier
      rw [hearlier]
      exact Nat.two_pow_pos 32
    · rw [heq] at hearlier
      have hemissions : (eventsOn pushedEvent slot (runtimeTrace tr)).map requestOf <+:
          emissions (callsOf thread tr) (p.calls thread).entered := by
        rw [← unpushed_stream h.run h.lossless hslot]
        exact List.prefix_append ..
      have hle := (h.recorded thread).depthOf_le
        (emittedBy_initial (hearlier.trans hemissions)) address
      unfold uint32Max at hle
      omega

/-- A thread that has pushed its acquisitions and releases holds what it has pushed. -/
theorem pushed_depth (hrun : Run (programStep gettid) (programStart maxHoldNs) tr p)
    (hlossless : Lossless (runtimeTrace tr))
    (hslot : (claimants (runtimeTrace tr))[slot]? = some thread)
    (hstill : Still (unpushed p thread)) (mutex : ℕ) :
    depthOf ((eventsOn pushedEvent slot (runtimeTrace tr)).map requestOf) mutex =
      p.levels thread mutex := by
  have htraced := traced_run hrun
  rw [htraced.owned, ← depthOf_owned (htraced.alive thread),
    ← depthOf_entered _ (p.calls thread).entered, ← unpushed_stream hrun hlossless hslot,
    depthOf_append, hstill.foldl_depthStep]

/-- A processed event has its number from one of the threads. -/
theorem settled_numbered (h : Undisturbed gettid maxHoldNs p tr) (hsettled : Settled p tr)
    (hmem : event ∈ callEvents (verifierCalls (runtimeTrace tr))) :
    ∃ thread slot, .reserved thread slot event ∈ runtimeTrace tr := by
  obtain ⟨slot, hevent⟩ := (processed_iff_pushed hsettled.processed event).mp hmem
  rw [← hsettled.processed] at hevent
  obtain ⟨thread, hreserved⟩ := processed_reserved (program_reached h.run) hevent
  exact ⟨thread, slot, hreserved⟩

/-- The processed streams are ordered by their numbers. -/
theorem settled_ordered (h : Undisturbed gettid maxHoldNs p tr) (hsettled : Settled p tr)
    (hids : Function.Injective gettid)
    (hnumbers : (reservedAll (runtimeTrace tr)).length < 2 ^ 64) :
    StreamsOrdered (verifierCalls (runtimeTrace tr)) := by
  have hreached := program_reached h.run
  intro threadId
  rcases (hsettled.checked h.run).delivered hids threadId with
    hnone | ⟨thread, slot, -, hslot, heq⟩
  · rw [hnone]
    exact List.Pairwise.nil
  · rw [heq, pushed_eq_attempted (h.lossless slot)]
    exact (reserved_ordered hreached hnumbers.le slot).sublist
      (hreached.attempted_prefix slot).sublist

/-- Processed events with one number are the same. -/
theorem settled_distinct (h : Undisturbed gettid maxHoldNs p tr) (hsettled : Settled p tr)
    (hnumbers : (reservedAll (runtimeTrace tr)).length < 2 ^ 64) {first second : MonitorEvent}
    (hfirst : first ∈ callEvents (verifierCalls (runtimeTrace tr)))
    (hsecond : second ∈ callEvents (verifierCalls (runtimeTrace tr)))
    (hsame : first.sequenceId = second.sequenceId) : first = second := by
  obtain ⟨thread, slot, hfirst⟩ := settled_numbered h hsettled hfirst
  obtain ⟨thread', slot', hsecond⟩ := settled_numbered h hsettled hsecond
  have hnodup : ((reservedAll (runtimeTrace tr)).map (·.sequenceId)).Nodup :=
    (List.pairwise_map.mpr (numbers_ordered (program_reached h.run) hnumbers.le)).imp
      Nat.ne_of_lt
  exact List.inj_on_of_nodup_map hnodup (List.mem_filterMap.mpr ⟨_, hfirst, rfl⟩)
    (List.mem_filterMap.mpr ⟨_, hsecond, rfl⟩) hsame

/-- An acquisition or a release that has its number has been pushed. -/
theorem settled_pushed (h : Undisturbed gettid maxHoldNs p tr) (hsettled : Settled p tr)
    (hevent : .reserved thread slot event ∈ runtimeTrace tr)
    (hmoves : MovesOwnership mutex event) :
    event ∈ eventsOn pushedEvent slot (runtimeTrace tr) := by
  have hreached := program_reached h.run
  have hslot := reserved_claimed (runtime_run h.run) hevent
  have hon : event ∈ eventsOn reservedEvent slot (runtimeTrace tr) :=
    mem_eventsOn.mpr ⟨_, hevent, rfl⟩
  rw [hreached.attempted.reserved slot, ownerPc_own _ hslot,
    inFlight_own (traced_run h.run) hreached.owned hslot,
    ← pushed_eq_attempted (h.lossless slot), List.mem_append] at hon
  refine hon.resolve_right fun hflight => ?_
  have hpending : requestOf event ∈ unpushed p thread := by
    unfold unpushed
    exact List.mem_append_left _ (List.mem_append_left _ (List.mem_map_of_mem hflight))
  obtain ⟨hacquired, hreleased⟩ := hsettled.emitted thread _ hpending
  exact hmoves.1.elim hacquired hreleased

/-- The record names the thread with the newest number of the mutex if that thread really
holds it, and else nobody. -/
theorem newest_recorded (h : Undisturbed gettid maxHoldNs p tr) (hsettled : Settled p tr)
    (hids : Function.Injective gettid)
    (hnumbers : (reservedAll (runtimeTrace tr)).length < 2 ^ 64)
    (hnewest : (movesOf mutex (runtimeTrace tr)).getLast? = some (thread, event)) :
    ∃ entry, p.runtime.verifier.mutexOf mutex = some entry ∧ entry.ownerKnown = true ∧
      entry.ownerThreadId = if 0 < p.levels thread mutex then gettid thread else 0 := by
  have hreached := program_reached h.run
  obtain ⟨⟨slot, hevent⟩, hmoves⟩ := mem_movesOf.mp (List.mem_of_getLast? hnewest)
  have hslot := reserved_claimed (runtime_run h.run) hevent
  have hid := hreached.identified.own hslot (mem_eventsOn.mpr ⟨_, hevent, rfl⟩)
  obtain ⟨entry, hentry, hknown, howner⟩ := newest_move_owns
    (settled_faithful h hsettled hids hnumbers) (settled_ordered h hsettled hids hnumbers)
    (fun first hfirst second hsecond => settled_distinct h hsettled hnumbers hfirst hsecond)
    ((processed_iff_pushed hsettled.processed event).mpr
      ⟨slot, settled_pushed h hsettled hevent hmoves⟩) hmoves
    fun other hmem hmoves' => by
      obtain ⟨thread', slot', hother⟩ := settled_numbered h hsettled hmem
      exact newest_greatest hreached hnumbers.le hnewest
        (mem_movesOf.mpr ⟨⟨slot', hother⟩, hmoves'⟩)
  refine ⟨entry, ?_, hknown, ?_⟩
  · rw [hreached.accounted.verifier]
    exact hentry
  · rw [howner, ownerBy, holdingOf_depth, hid,
      deliveredTo_eq hreached ((traced_run h.run).ownId hids hslot), hsettled.processed, hmoves.2,
      pushed_depth h.run h.lossless hslot (hsettled.emitted thread)]

/-- A holder has made the newest move, or a release was numbered late. -/
theorem holder_newest (h : Undisturbed gettid maxHoldNs p tr) (hsettled : Settled p tr)
    (hheld : 0 < p.levels thread mutex) {last : ℕ}
    (hnewest : (movesOf mutex (runtimeTrace tr)).getLast? = some (last, event)) :
    last = thread ∨ event.eventType = .unlocked := by
  have hflag := holder_registered h.run h.accepted hheld
  have hstill : Still (unreserved (p.runtime.threads thread) ++ (p.calls thread).unreported) := by
    intro request hmem
    apply hsettled.emitted thread
    unfold unpushed
    rw [List.append_assoc]
    exact List.mem_append_right _ hmem
  refine holderMovedLast_run h.run thread mutex hheld ?_ last event hnewest
  rwa [levels_eq_depth (traced_run h.run) hflag, hstill.foldl_depthStep] at hheld

theorem levels_free : p.mutexes mutex = none ↔ ∀ thread, p.levels thread mutex = 0 := by
  constructor
  · intro hnone thread
    simp [Program.levels, levelsOf, hnone]
  · intro hall
    by_contra hheld
    obtain ⟨holder, hholder⟩ := Option.ne_none_iff_exists'.mp hheld
    have hnobody := hall holder.owner
    simp only [Program.levels, levelsOf, hholder, if_true] at hnobody
    have hpositive := holder.positive
    omega

end Records

/-- When everything emitted has been processed, the owner of a mutex on record is known. It
is the thread that really holds the mutex, unless another thread's release has the newest
number; and it is nobody where the mutex is free, or held behind such a release. -/
theorem recorded_owner_real (gettid : ℕ → ℕ) (hids : Function.Injective gettid)
    (hpositive : ∀ thread, 0 < gettid thread) (maxHoldNs : ℕ) {p : Program}
    {tr : List ProgramObservation} {mutex : ℕ} (h : Undisturbed gettid maxHoldNs p tr)
    (hnumbers : (reservedAll (runtimeTrace tr)).length < 2 ^ 64) (hsettled : Settled p tr)
    (hseen : SeenLocked tr mutex) :
    ∃ entry, p.runtime.verifier.mutexOf mutex = some entry ∧ entry.ownerKnown = true ∧
      (∀ thread, entry.ownerThreadId = gettid thread ↔
        0 < p.levels thread mutex ∧ ¬ ReleasedLate tr thread mutex) ∧
      (entry.ownerThreadId = 0 ↔ p.mutexes mutex = none ∨
        ∃ thread, 0 < p.levels thread mutex ∧ ReleasedLate tr thread mutex) := by
  obtain ⟨last, newest, hnewest⟩ := hseen.newest h.run
  obtain ⟨entry, hentry, hknown, howner⟩ := newest_recorded h hsettled hids hnumbers hnewest
  have hlate : ∀ thread, 0 < p.levels thread mutex →
      (ReleasedLate tr thread mutex ↔ last ≠ thread) := by
    intro thread hheld
    constructor
    · rintro ⟨other, event, hother, -, hlast⟩ rfl
      rw [hnewest, Option.some.injEq, Prod.mk.injEq] at hlast
      exact hother hlast.1.symm
    · intro hne
      exact ⟨last, newest, hne, (holder_newest h hsettled hheld hnewest).resolve_left hne,
        hnewest⟩
  refine ⟨entry, hentry, hknown, fun thread => ?_, ?_⟩
  · rw [howner]
    constructor
    · intro hsame
      split at hsame
      · rename_i hheld
        have heq := hids hsame
        subst heq
        exact ⟨hheld, fun hreleased => (hlate last hheld).mp hreleased rfl⟩
      · have hone := hpositive thread
        omega
    · rintro ⟨hheld, hnot⟩
      have heq : last = thread := by
        by_contra hne
        exact hnot ((hlate thread hheld).mpr hne)
      subst heq
      rw [if_pos hheld]
  · rw [howner, levels_free]
    have hone := hpositive last
    constructor
    · intro hzero
      split at hzero
      · omega
      · rename_i hnot
        by_contra hneither
        rw [not_or, not_forall] at hneither
        obtain ⟨⟨thread, hthread⟩, hnobody⟩ := hneither
        have hheld : 0 < p.levels thread mutex := Nat.pos_of_ne_zero hthread
        refine hnobody ⟨thread, hheld, (hlate thread hheld).mpr ?_⟩
        rintro rfl
        exact hnot hheld
    · rintro (hfree | ⟨thread, hheld, hreleased⟩)
      · rw [hfree last, if_neg (lt_irrefl 0)]
      · rw [if_neg fun hlast => (hlate thread hheld).mp hreleased (levels_unique hlast hheld)]

section Examples

/-- The thread whose action it is. -/
def actor : ProgramAction → Option ℕ
  | .lock thread _ | .lockReturns thread _ | .unlock thread _ _ | .report thread => some thread
  | .producer thread _ => some thread
  | .consumer => none

theorem producer_threads {environment : Environment} {made : List Observation} {other : ℕ}
    (h : producerStep gettid rt thread environment = some (rt', made)) (hne : other ≠ thread) :
    rt'.threads other = rt.threads other := by
  unfold producerStep at h
  dsimp only at h
  cases hpc : (rt.threads thread).pc with
  | outside => simp [hpc] at h
  | exchangeSlot request expected =>
    simp only [hpc] at h
    split at h
    · cases h
      exact Function.update_of_ne hne ..
    · split at h
      all_goals
        cases h
        exact Function.update_of_ne hne ..
  | setKey request slot | push slot event after =>
    simp only [hpc] at h
    split at h
    all_goals
      cases h
      exact Function.update_of_ne hne ..
  | _ =>
    simp only [hpc] at h
    cases h
    exact Function.update_of_ne hne ..

theorem step_others {action : ProgramAction} {other : ℕ}
    (h : programStep gettid p action = some (p', os)) (hother : actor action ≠ some other) :
    p'.runtime.threads other = p.runtime.threads other ∧ p'.calls other = p.calls other := by
  have hemitted : ∀ {thread request call}, p.emit thread request call = some (p', os) →
      other ≠ thread →
        p'.runtime.threads other = p.runtime.threads other ∧ p'.calls other = p.calls other := by
    intro thread request call hemit hne
    obtain ⟨rt, made, hruntime, rfl, rfl⟩ := emit_made hemit
    refine ⟨?_, Function.update_of_ne hne ..⟩
    unfold monitorRuntimeEmit at hruntime
    dsimp only at hruntime
    split at hruntime
    · cases hruntime
    · split at hruntime
      all_goals cases hruntime
      · rfl
      · exact Function.update_of_ne hne ..
  have hne : ∀ {thread}, actor action = some thread → other ≠ thread := by
    rintro thread hactor rfl
    exact hother hactor
  cases action with
  | lock thread mutex =>
    simp only [programStep] at h
    split at h
    · exact hemitted h (hne rfl)
    · cases h
  | report thread =>
    simp only [programStep] at h
    split at h
    · exact hemitted h (hne rfl)
    · exact hemitted h (hne rfl)
    · cases h
  | lockReturns thread rc =>
    simp only [programStep] at h
    split at h
    · split at h
      · rw [Option.map_eq_some_iff] at h
        obtain ⟨holder, -, heq⟩ := h
        cases heq
        exact ⟨rfl, Function.update_of_ne (hne rfl) ..⟩
      · cases h
    · cases h
  | unlock thread mutex rc =>
    simp only [programStep] at h
    split at h
    · rw [Option.map_eq_some_iff] at h
      obtain ⟨holder, -, heq⟩ := h
      cases heq
      exact ⟨rfl, Function.update_of_ne (hne rfl) ..⟩
    · cases h
  | producer thread environment =>
    simp only [programStep, Option.map_eq_some_iff] at h
    obtain ⟨⟨rt, made⟩, hstep, heq⟩ := h
    cases heq
    exact ⟨producer_threads hstep (hne rfl), rfl⟩
  | consumer =>
    simp only [programStep, Option.map_eq_some_iff] at h
    obtain ⟨⟨rt, made⟩, hstep, heq⟩ := h
    cases heq
    exact ⟨by rw [(consumer_threads hstep).1], rfl⟩

/-- A thread without an action is where it was. -/
theorem exec_others {actions : List ProgramAction} {other : ℕ}
    (h : exec (programStep gettid) p actions = some (p', os))
    (hother : ∀ action ∈ actions, actor action ≠ some other) :
    p'.runtime.threads other = p.runtime.threads other ∧ p'.calls other = p.calls other := by
  induction actions generalizing p os with
  | nil =>
    simp only [exec, Option.some.injEq, Prod.mk.injEq] at h
    rw [h.1]
    exact ⟨rfl, rfl⟩
  | cons action rest ih =>
    simp only [exec, Option.bind_eq_some_iff, Option.map_eq_some_iff, Prod.mk.injEq] at h
    obtain ⟨⟨q, first⟩, hfirst, ⟨last, more⟩, hrest, rfl, -⟩ := h
    obtain ⟨hthreads, hcalls⟩ := ih hrest fun a hmem => hother a (List.mem_cons_of_mem _ hmem)
    obtain ⟨hthreads', hcalls'⟩ := step_others hfirst (hother action (List.mem_cons_self ..))
    exact ⟨hthreads.trans hthreads', hcalls.trans hcalls'⟩

/-- Where the queues are empty behind a round, and the threads with actions have pushed
everything, the run is settled. -/
theorem settled_of_exec {start : Program} {actions : List ProgramAction} {threads : List ℕ}
    {final : Program × List ProgramObservation}
    (hrun : Run (programStep gettid) (programStart maxHoldNs) tr final.1)
    (hexec : exec (programStep gettid) start actions = some final)
    (hactors : ∀ action ∈ actions, ∀ other, actor action = some other → other ∈ threads)
    (hidle : ∀ other, other ∉ threads →
      start.runtime.threads other = {} ∧ start.calls other = .outside)
    (hconsumer : final.1.runtime.consumer = .loadCount)
    (hqueues : ∀ slot < final.1.runtime.nextThreadSlot,
      (final.1.runtime.threadContexts slot).queue = [])
    (hpushed : ∀ thread ∈ threads, unpushed final.1 thread = []) : Settled final.1 tr := by
  have hreached := program_reached hrun
  constructor
  · intro slot
    have hqueue : (final.1.runtime.threadContexts slot).queue = [] := by
      by_cases hslot : slot < final.1.runtime.nextThreadSlot
      · exact hqueues slot hslot
      · exact (hreached.owned.unused slot (hreached.owned.unclaimed slot (by omega))).1
    have hhand : inHand .loadCount slot = [] := rfl
    rw [hreached.queued slot, hqueue, hconsumer, hhand, List.append_nil, List.append_nil]
  · intro thread request hmem
    by_cases hlisted : thread ∈ threads
    · rw [hpushed thread hlisted] at hmem
      exact absurd hmem List.not_mem_nil
    · obtain ⟨hthreads, hcalls⟩ := exec_others hexec
        fun action ha hactor => hlisted (hactors action ha thread hactor)
      obtain ⟨hlocals, houtside⟩ := hidle thread hlisted
      have hstart : request = threadStart := by
        rw [unpushed, hthreads, hcalls, hlocals, houtside] at hmem
        simpa [emitting, unreserved, CallPc.unreported] using hmem
      rw [hstart]
      decide

theorem locks_callsOf (thread : ℕ) (tr : List ProgramObservation) :
    (callsOf thread tr).countP InterposedCall.locks ≤ (lockResults tr).length := by
  induction tr with
  | nil => exact le_rfl
  | cons o rest ih =>
    rw [show callsOf thread (o :: rest) = callsOf thread [o] ++ callsOf thread rest from
        callsOf_append thread [o] rest,
      show lockResults (o :: rest) = lockResults [o] ++ lockResults rest from
        List.filterMap_append (l := [o]) .., List.countP_append, List.length_append]
    refine Nat.add_le_add ?_ ih
    cases o with
    | lockReturned thread' mutex rc =>
      by_cases hthread : thread' = thread <;>
        simp [callsOf, lockResults, hthread, InterposedCall.locks]
    | unlockReturned thread' mutex rc =>
      by_cases hthread : thread' = thread <;>
        simp [callsOf, lockResults, hthread, InterposedCall.locks]
    | runtime observed => exact le_rfl

/-- With few locks no thread holds a mutex too often. -/
theorem recorded_of_few_results (hrun : Run (programStep gettid) (programStart maxHoldNs) tr p)
    (hfew : (lockResults tr).length ≤ uint32Max) (thread : ℕ) : Recorded (callsOf thread tr) :=
  recorded_of_few ((locks_callsOf thread tr).trans hfew) fun mutex =>
    (traced_run hrun).alive thread mutex

/-- What a settled run is checked for: it is short, and it ends behind a round with nothing
left to push. -/
structure Ended (p : Program) (tr : List ProgramObservation) : Prop where
  dropless : (runtimeTrace tr).filterMap droppedEvent = []
  accepted : refusals (runtimeTrace tr) = []
  roomy : p.runtime.verifier.stateOverflowEvents = 0
  few : (lockResults tr).length ≤ uint32Max
  consumer : p.runtime.consumer = .loadCount
  queues : ∀ slot < p.runtime.nextThreadSlot, (p.runtime.threadContexts slot).queue = []
  pushed : ∀ thread ∈ [1, 2], unpushed p thread = []

theorem Ended.undisturbed (h : Ended p tr)
    (hrun : Run (programStep gettid) (programStart maxHoldNs) tr p) :
    Undisturbed gettid maxHoldNs p tr :=
  ⟨hrun, lossless_of_none h.dropless, h.accepted, h.roomy, recorded_of_few_results hrun h.few⟩

/-- Thread 1 hands a mutex over to thread 2 and numbers its release in time. -/
def handedActions : List ProgramAction :=
  firstLock 1 100 ++ .unlock 1 100 0 :: .report 1 :: List.replicate 4 (.producer 1 {}) ++
    firstLock 2 100 ++ List.replicate 28 .consumer

/-- Thread 1 numbers its release when thread 2 has acquired the mutex. -/
def handedLateActions : List ProgramAction :=
  firstLock 1 100 ++ .unlock 1 100 0 :: firstLock 2 100 ++ .report 1 ::
    List.replicate 4 (.producer 1 {}) ++ List.replicate 28 .consumer

def handed : Program × List ProgramObservation :=
  after (programStep Nat.succ) (programStart 0) handedActions

def handedLate : Program × List ProgramObservation :=
  after (programStep Nat.succ) (programStart 0) handedLateActions

theorem ended_handed : Ended handed.1 handed.2 := by
  constructor <;> decide +kernel

theorem ended_handedLate : Ended handedLate.1 handedLate.2 := by
  constructor <;> decide +kernel
theorem seenLocked_of_entry (h : ∃ entry ∈ (runtimeTrace tr).filterMap processedEvent,
    entry.2.eventType = .lockAcquired ∧ entry.2.objectAddress = mutex) : SeenLocked tr mutex := by
  obtain ⟨⟨slot, event⟩, hentry, hmoves⟩ := h
  obtain ⟨o, ho, hkind⟩ := List.mem_filterMap.mp hentry
  cases o with
  | processed slot' event' =>
    cases hkind
    exact ⟨slot, event, ho, hmoves⟩
  | _ => simp [processedEvent] at hkind

theorem settled_handed : Settled handed.1 handed.2 := by
  have hexec : exec (programStep Nat.succ) (programStart 0) handedActions = some handed :=
    exec_after (by decide +kernel)
  exact settled_of_exec (run_of_exec hexec) hexec (by decide) (fun _ _ => ⟨rfl, rfl⟩)
    ended_handed.consumer ended_handed.queues ended_handed.pushed

theorem settled_handedLate : Settled handedLate.1 handedLate.2 := by
  have hexec : exec (programStep Nat.succ) (programStart 0) handedLateActions = some handedLate :=
    exec_after (by decide +kernel)
  exact settled_of_exec (run_of_exec hexec) hexec (by decide) (fun _ _ => ⟨rfl, rfl⟩)
    ended_handedLate.consumer ended_handedLate.queues ended_handedLate.pushed

theorem recorded_owner_real_handed :
    (handed.1.runtime.verifier.mutexOf 100).map (·.ownerThreadId) = some 3 ∧
      (handedLate.1.runtime.verifier.mutexOf 100).map (·.ownerThreadId) = some 0 := by
  constructor
  · obtain ⟨entry, hentry, -, howner, -⟩ := recorded_owner_real Nat.succ Nat.succ_injective
      Nat.succ_pos 0 (ended_handed.undisturbed (run_after (by decide +kernel)))
      (by decide +kernel) settled_handed
      (seenLocked_of_entry (by decide +kernel : ∃ entry ∈ (runtimeTrace handed.2).filterMap
        processedEvent, entry.2.eventType = .lockAcquired ∧ entry.2.objectAddress = 100))
    have hlast : ∀ move ∈ (movesOf 100 (runtimeTrace handed.2)).getLast?, move.1 = 2 := by
      decide +kernel
    have hintime : ¬ ReleasedLate handed.2 2 100 := by
      rintro ⟨other, event, hother, -, hmove⟩
      exact hother (hlast _ hmove)
    rw [hentry, Option.map_some, (howner 2).mpr ⟨by decide +kernel, hintime⟩]
  · obtain ⟨entry, hentry, -, -, hzero⟩ := recorded_owner_real Nat.succ Nat.succ_injective
      Nat.succ_pos 0 (ended_handedLate.undisturbed (run_after (by decide +kernel)))
      (by decide +kernel) settled_handedLate
      (seenLocked_of_entry (by decide +kernel : ∃ entry ∈ (runtimeTrace handedLate.2).filterMap
        processedEvent, entry.2.eventType = .lockAcquired ∧ entry.2.objectAddress = 100))
    obtain ⟨⟨other, event⟩, hmove, hother, hreleased⟩ :
        ∃ move ∈ (movesOf 100 (runtimeTrace handedLate.2)).getLast?,
          move.1 ≠ 2 ∧ move.2.eventType = .unlocked := by decide +kernel
    have hlate : ReleasedLate handedLate.2 2 100 := ⟨other, event, hother, hreleased, hmove⟩
    rw [hentry, Option.map_some, hzero.mpr (Or.inr ⟨2, by decide +kernel, hlate⟩)]

theorem SeenLocked.later (h : SeenLocked os mutex) (tr : List ProgramObservation) :
    SeenLocked (tr ++ os) mutex := by
  obtain ⟨slot, event, hmem, hmoves⟩ := h
  refine ⟨slot, event, ?_, hmoves⟩
  rw [runtimeTrace_append]
  exact List.mem_append_right _ hmem

/-- Only thread 1 acts while numbers are used up. -/
theorem untouched_failedUnlocks {other : ℕ} (n : ℕ) (hne : other ≠ 1) :
    (failedUnlocks failedUnlock.1 n).runtime.threads other = {} ∧
      (failedUnlocks failedUnlock.1 n).calls other = .outside := by
  have hexec : exec (programStep id) (programStart 0) (.unlock 1 100 22 :: .report 1 ::
      List.replicate 12 (.producer 1 {}) ++ List.replicate 11 .consumer) = some failedUnlock :=
    exec_after (by decide +kernel)
  have hactors : ∀ action ∈ (.unlock 1 100 22 :: .report 1 ::
      List.replicate 12 (.producer 1 {}) ++ List.replicate 11 .consumer : List ProgramAction),
      actor action = some 1 ∨ actor action = none := by decide
  obtain ⟨hthreads, hcalls⟩ := exec_others hexec fun action hmem hactor => by
    rcases hactors action hmem with hone | hnone
    · rw [hone, Option.some.injEq] at hactor
      exact hne hactor.symm
    · rw [hnone] at hactor
      cases hactor
  constructor
  · exact (Function.update_of_ne hne ..).trans hthreads
  · exact (Function.update_of_ne hne ..).trans hcalls

/-- Behind a release that is numbered late the record names nobody although the mutex is
held; and behind 2^64 numbers it may name an owner although the mutex is free. -/
theorem recorded_owner_unreal :
    (¬ ∀ p tr mutex, Undisturbed Nat.succ 0 p tr →
      (reservedAll (runtimeTrace tr)).length < 2 ^ 64 →
        Settled p tr → SeenLocked tr mutex → OwnerReal Nat.succ p mutex) ∧
    ¬ ∀ p tr mutex, Undisturbed id 0 p tr → Settled p tr → SeenLocked tr mutex →
      p.mutexes mutex = none →
        (p.runtime.verifier.mutexOf mutex).map (·.ownerThreadId) = some 0 := by
  constructor
  · intro hall
    obtain ⟨entry, hentry, -, howner, -⟩ := hall _ _ 100
      (ended_handedLate.undisturbed (run_after (by decide +kernel))) (by decide +kernel)
      settled_handedLate (seenLocked_of_entry (by decide +kernel))
    have hheld := (howner 2).mpr (by decide +kernel)
    have hnobody : ∀ entry ∈ handedLate.1.runtime.verifier.mutexOf 100,
        entry.ownerThreadId = 0 := by decide +kernel
    rw [hnobody entry hentry] at hheld
    cases hheld
  · intro hall
    obtain ⟨tr, hmany, hquiet⟩ := run_failedUnlocks failedOnce_failedUnlock (2 ^ 64 - 7)
      (by omega)
    have hfirst : Run (programStep id) (programStart 0) failedUnlock.2 failedUnlock.1 :=
      run_after (by decide +kernel)
    have hlast : Run (programStep id) (failedUnlocks failedUnlock.1 (2 ^ 64 - 7)) wrapped.2
        wrapped.1 := run_after (by decide +kernel)
    have hrun := (hfirst.trans hmany).trans hlast
    have hended : Ended wrapped.1 (failedUnlock.2 ++ tr ++ wrapped.2) := by
      constructor
      · rw [runtimeTrace_append, runtimeTrace_append, List.filterMap_append,
          List.filterMap_append, hquiet.lossless]
        decide +kernel
      · rw [runtimeTrace_append, runtimeTrace_append, refusals_append, refusals_append,
          hquiet.accepted]
        decide +kernel
      · decide +kernel
      · rw [lockResults, List.filterMap_append, List.filterMap_append]
        change (lockResults failedUnlock.2 ++ lockResults tr ++ lockResults wrapped.2).length ≤ _
        rw [hquiet.unreturned]
        decide +kernel
      all_goals decide +kernel
    have hsettled : Settled wrapped.1 (failedUnlock.2 ++ tr ++ wrapped.2) := by
      have hexec : exec (programStep id) (failedUnlocks failedUnlock.1 (2 ^ 64 - 7))
          wrappedActions = some wrapped := exec_after (by decide +kernel)
      refine settled_of_exec hrun hexec (by decide) (fun other hother => ?_) hended.consumer
        hended.queues hended.pushed
      exact untouched_failedUnlocks _ fun hone => hother (hone ▸ List.mem_cons_self ..)
    have hseen : SeenLocked wrapped.2 100 := seenLocked_of_entry (by decide +kernel)
    have hfree : wrapped.1.mutexes 100 = none := by decide +kernel
    have hzero := hall _ _ 100 (hended.undisturbed hrun) hsettled (hseen.later _) hfree
    revert hzero
    decide +kernel

end Examples

end RuntimeMonitor.RealOwnership
