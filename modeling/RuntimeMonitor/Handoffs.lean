import RuntimeMonitor.RealDeadlocks

/-!
Handing a mutex over. The number of a release is reserved after the real unlock, when
another thread may have acquired the mutex and have numbered that first. An acquisition is
numbered while its thread holds the mutex. So of the numbered acquisitions and releases of
a held mutex the newest is the holder's, or a release that another thread numbered late.
-/
namespace RuntimeMonitor.Handoffs

open TransitionRuns EventRecord MonitorRuntime RuntimeSteps SlotOwnership RuntimeStreams
open EventNumbers RuntimeAccounts GapDetection LosslessRuns InterposedCalls InterposedProgram
open ProgramStreams RealDeadlocks

/-- The numbered acquisitions and releases of a mutex with their threads. -/
def movesOf (mutex : ℕ) (tr : List Observation) : List (ℕ × MonitorEvent) :=
  tr.filterMap fun
    | .reserved thread _ event =>
      if (event.eventType = .lockAcquired ∨ event.eventType = .unlocked) ∧
        event.objectAddress = mutex then some (thread, event) else none
    | _ => none

/-- The newest number of the mutex is that of a release by another thread. -/
def ReleasedLate (tr : List ProgramObservation) (thread mutex : ℕ) : Prop :=
  ∃ other event, other ≠ thread ∧ event.eventType = .unlocked ∧
    (movesOf mutex (runtimeTrace tr)).getLast? = some (other, event)

/-- A thread whose registration has failed has lost an event or holds nothing. -/
def RegistersOrLoses (p : Program) (tr : List ProgramObservation) : Prop :=
  ∀ thread, (p.runtime.threads thread).tlsRegistrationFailed = true →
    (∃ request, .refused thread request ∈ runtimeTrace tr) ∨
      (∃ request, (p.runtime.threads thread).pc = .refuse request) ∧
        ∀ mutex, p.levels thread mutex = 0

/-- Once a thread has numbered its acquisition of a mutex that it holds, others only number
releases of it. -/
def HolderMovedLast (p : Program) (tr : List ProgramObservation) : Prop :=
  ∀ thread mutex, 0 < p.levels thread mutex →
    0 < depthOf (reservedBy thread (runtimeTrace tr)) mutex →
      ∀ last event, (movesOf mutex (runtimeTrace tr)).getLast? = some (last, event) →
        last = thread ∨ event.eventType = .unlocked

/-- The requests leave what a thread holds alone. -/
def Still (requests : List EmitRequest) : Prop :=
  ∀ request ∈ requests, request.eventType ≠ .lockAcquired ∧ request.eventType ≠ .unlocked

variable {gettid : ℕ → ℕ} {maxHoldNs thread mutex slot : ℕ} {rc : ℤ} {p p' : Program}
  {rt rt' : Runtime} {tr os : List ProgramObservation} {request : EmitRequest}

section Numbered

theorem Still.foldl_depthStep {requests : List EmitRequest} (h : Still requests)
    (mutex depth : ℕ) :
    requests.foldl (depthStep mutex) depth = depth := by
  induction requests generalizing depth with
  | nil => rfl
  | cons request rest ih =>
    rw [List.foldl_cons, ih fun later hmem => h later (List.mem_cons_of_mem _ hmem)]
    obtain ⟨hacquired, hreleased⟩ := h request (List.mem_cons_self ..)
    unfold depthStep
    split
    · cases htype : request.eventType with
      | lockAcquired => exact absurd htype hacquired
      | unlocked => exact absurd htype hreleased
      | _ => rfl
    · rfl

theorem depthStep_le (hother : ¬ ((request.eventType = .lockAcquired ∨
    request.eventType = .unlocked) ∧ request.objectAddress = mutex)) (depth : ℕ) :
    depthStep mutex depth request ≤ depth := by
  unfold depthStep
  split
  · rename_i haddress
    cases htype : request.eventType with
    | lockAcquired | unlocked => simp [htype, haddress] at hother
    | _ => exact le_rfl
  · exact le_rfl

/-- The real mutex is held as deep as the numbered and the other requests tell. -/
theorem levels_eq_depth (h : Traced p tr)
    (hflag : (p.runtime.threads thread).tlsRegistrationFailed = false) (mutex : ℕ) :
    p.levels thread mutex = (unreserved (p.runtime.threads thread) ++
      (p.calls thread).unreported).foldl (depthStep mutex)
        (depthOf (reservedBy thread (runtimeTrace tr)) mutex) := by
  rw [h.owned, ← depthOf_owned (h.alive thread), ← depthOf_entered _ (p.calls thread).entered,
    ← h.stream thread hflag, List.append_assoc, depthOf_append]

theorem mem_reservedBy {made : List Observation} (h : request ∈ reservedBy thread made) :
    ∃ slot event, .reserved thread slot event ∈ made := by
  obtain ⟨o, ho, hkind⟩ := List.mem_filterMap.mp h
  cases o with
  | reserved thread' slot event =>
    simp only [Option.ite_none_right_eq_some] at hkind
    obtain ⟨rfl, -⟩ := hkind
    exact ⟨slot, event, ho⟩
  | _ => simp at hkind

/-- A thread that has numbered a request has not failed to register. -/
theorem numbered_registered (hrun : Run (programStep gettid) (programStart maxHoldNs) tr p)
    (hne : reservedBy thread (runtimeTrace tr) ≠ []) :
    (p.runtime.threads thread).tlsRegistrationFailed = false := by
  obtain ⟨request, hmem⟩ := List.exists_mem_of_ne_nil _ hne
  obtain ⟨slot, event, ho⟩ := mem_reservedBy hmem
  exact (traced_run hrun).registered (reserved_claimed (runtime_run hrun) ho)

theorem deep_registered (hrun : Run (programStep gettid) (programStart maxHoldNs) tr p)
    (hdepth : 0 < depthOf (reservedBy thread (runtimeTrace tr)) mutex) :
    (p.runtime.threads thread).tlsRegistrationFailed = false := by
  apply numbered_registered hrun
  intro hnil
  rw [hnil] at hdepth
  exact absurd hdepth (lt_irrefl 0)

end Numbered

section Registrations

variable {made : List Observation}

/-- A thread fails to register where it finds all slots taken, and then loses its event. -/
theorem producer_refuses {environment : Environment}
    (hfailed : (rt.threads thread).tlsRegistrationFailed = true → Refusing (rt.threads thread))
    (h : producerStep gettid rt thread environment = some (rt', made))
    (hflag : (rt'.threads thread).tlsRegistrationFailed = true) :
    (∃ request, .refused thread request ∈ made) ∨
      (∃ request, (rt'.threads thread).pc = .refuse request) ∧
        (rt.threads thread).tlsRegistrationFailed = false ∧
          ∃ request expected, (rt.threads thread).pc = .exchangeSlot request expected := by
  have hworking : (rt.threads thread).pc ≠ .outside →
      (∀ request, (rt.threads thread).pc ≠ .refuse request) →
        (rt.threads thread).tlsRegistrationFailed = false := by
    intro houtside hrefuse
    by_contra hbefore
    rw [Bool.not_eq_false] at hbefore
    rcases (hfailed hbefore).2 with hpc | ⟨request, hpc⟩
    · exact houtside hpc
    · exact hrefuse request hpc
  unfold producerStep at h
  dsimp only at h
  cases hpc : (rt.threads thread).pc with
  | outside => simp [hpc] at h
  | refuse request =>
    simp only [hpc] at h
    cases h
    exact Or.inl ⟨request, List.mem_singleton_self _⟩
  | exchangeSlot request expected =>
    have hclean := hworking (by simp [hpc]) (by simp [hpc])
    simp only [hpc] at h
    split at h
    · cases h
      exact Or.inr ⟨⟨request, by simp⟩, hclean, request, expected, rfl⟩
    · split at h
      all_goals
        cases h
        simp [hclean] at hflag
  | setKey request slot | push slot event after =>
    have hclean := hworking (by simp [hpc]) (by simp [hpc])
    simp only [hpc] at h
    split at h
    all_goals
      cases h
      simp [hclean] at hflag
  | _ =>
    have hclean := hworking (by simp [hpc]) (by simp [hpc])
    simp only [hpc] at h
    cases h
    simp [hclean] at hflag

/-- A thread that has emitted at most one request holds nothing. -/
theorem owned_first {history : List InterposedCall} {entered : Option ℕ}
    (h : (emissions history entered).length ≤ 2) (mutex : ℕ) : owned history mutex = 0 := by
  cases history with
  | nil => rfl
  | cons call rest =>
    have hcall : 0 < call.emits.length := by cases call <;> simp [InterposedCall.emits,
      pthreadMutexLock, pthreadMutexUnlock]
    rw [emissions, List.flatMap_cons] at h
    simp only [List.length_cons, List.length_append] at h
    cases call with
    | lock address rc =>
      simp only [InterposedCall.emits, pthreadMutexLock] at h
      simp at h
      omega
    | unlock address rc =>
      cases rest with
      | nil =>
        show (InterposedCall.unlock address rc).owns mutex 0 = 0
        rw [owns_unlock]
        split <;> rfl
      | cons second more =>
        have hsecond : 0 < second.emits.length := by cases second <;>
          simp [InterposedCall.emits, pthreadMutexLock, pthreadMutexUnlock]
        rw [List.flatMap_cons, List.length_append] at h
        omega

/-- A thread that asks for a slot holds nothing. -/
theorem unclaimed_holds_nothing (h : Traced p tr)
    (hrun : Run (programStep gettid) (programStart maxHoldNs) tr p)
    (hflag : (p.runtime.threads thread).tlsRegistrationFailed = false) {expected : ℕ}
    (hpc : (p.runtime.threads thread).pc = .exchangeSlot request expected) (mutex : ℕ) :
    p.levels thread mutex = 0 := by
  have hnone : reservedBy thread (runtimeTrace tr) = [] := by
    by_contra hne
    obtain ⟨request', hmem⟩ := List.exists_mem_of_ne_nil _ hne
    obtain ⟨slot, event, ho⟩ := mem_reservedBy hmem
    have hheld := h.held thread slot (reserved_claimed (runtime_run hrun) ho)
    have htls := ((program_reached hrun).owned.locals thread).context none (by rw [hpc]; rfl)
    simp [heldSlot, hpc, freshSlot, htls] at hheld
  have hstream := h.stream thread hflag
  have hquiet : (p.calls thread).unreported = [] := by
    by_contra hne
    have hout := h.still thread hne
    rw [hpc] at hout
    cases hout
  rw [hnone, hquiet, List.nil_append, List.append_nil] at hstream
  have hshort : (emissions (callsOf thread tr) (p.calls thread).entered).length ≤ 2 := by
    rw [← hstream, unreserved, hpc]
    exact le_rfl
  rw [h.owned]
  exact owned_first hshort mutex

theorem levels_returned_other {holder : Option MutexHolder} {other : ℕ} (pc : CallPc)
    (hlevels : levelsOf holder other = levelsOf (p.mutexes mutex) other) (address : ℕ) :
    ((p.setMutex mutex holder).goto thread pc).levels other address = p.levels other address := by
  rw [levels_returned]
  split
  · rename_i haddress
    rw [hlevels, haddress]
    rfl
  · rfl

theorem RegistersOrLoses.move (h : RegistersOrLoses p tr)
    (hrun : Run (programStep gettid) (programStart maxHoldNs) tr p)
    (hmove : ProgramMove gettid p p' os) : RegistersOrLoses p' (tr ++ os) := by
  have htraced := traced_run hrun
  have hlost : ∀ other, (p.runtime.threads other).tlsRegistrationFailed = true →
      (p.runtime.threads other).pc = .outside →
        ∃ request, .refused other request ∈ runtimeTrace (tr ++ os) := by
    intro other hflag hpc
    rcases h other hflag with ⟨request, hmem⟩ | ⟨⟨request, hrefuse⟩, -⟩
    · exact ⟨request, by rw [runtimeTrace_append]; exact List.mem_append_left _ hmem⟩
    · rw [hpc] at hrefuse
      cases hrefuse
  have hkept : ∀ other, p'.runtime.threads other = p.runtime.threads other →
      (∀ mutex, p'.levels other mutex = p.levels other mutex) →
        (p'.runtime.threads other).tlsRegistrationFailed = true →
          (∃ request, .refused other request ∈ runtimeTrace (tr ++ os)) ∨
            (∃ request, (p'.runtime.threads other).pc = .refuse request) ∧
              ∀ mutex, p'.levels other mutex = 0 := by
    intro other hsame hlevels hflag
    rw [hsame] at hflag ⊢
    rcases h other hflag with ⟨request, hmem⟩ | ⟨hrefuse, hnone⟩
    · exact Or.inl ⟨request, by rw [runtimeTrace_append]; exact List.mem_append_left _ hmem⟩
    · exact Or.inr ⟨hrefuse, fun mutex => (hlevels mutex).trans (hnone mutex)⟩
  intro other hflag
  cases hmove with
  | @emitted thread request call rt made hcall hemit =>
    obtain ⟨hpc, rfl, rfl⟩ := emit_threads htraced.accepting (htraced.external thread) hemit
    by_cases hother : other = thread
    · subst hother
      have hbefore : (p.runtime.threads other).tlsRegistrationFailed = true := by
        simpa using hflag
      exact Or.inl (hlost other hbefore hpc)
    · exact hkept other (Function.update_of_ne hother ..) (fun _ => rfl) hflag
  | @lockReturned thread mutex rc holder hcall hpc hreal =>
    by_cases hother : other = thread
    · subst hother
      exact Or.inl (hlost other hflag hpc)
    · refine hkept other rfl (levels_returned_other _ ?_) hflag
      rw [(levelsOf_locked hreal other).2, if_neg (fun hboth => hother hboth.1)]
  | @unlockReturned thread mutex rc holder hcall hpc hreal =>
    by_cases hother : other = thread
    · subst hother
      exact Or.inl (hlost other hflag hpc)
    · refine hkept other rfl (levels_returned_other _ ?_) hflag
      rw [levelsOf_unlocked hreal other, if_neg (fun hboth => hother hboth.1)]
  | @produced thread environment rt made hstep =>
    have hmoved := producer_moved ((program_reached hrun).owned.locals thread)
      (htraced.opened thread) (htraced.failed thread) hstep
    by_cases hother : other = thread
    · subst hother
      rcases producer_refuses (htraced.failed other) hstep hflag with
        ⟨request, hmem⟩ | ⟨hrefuse, hclean, request, expected, hpc⟩
      · refine Or.inl ⟨request, ?_⟩
        rw [runtimeTrace_append, runtimeTrace_runtime]
        exact List.mem_append_right _ hmem
      · exact Or.inr ⟨hrefuse, unclaimed_holds_nothing (p := p) htraced hrun hclean hpc⟩
    · exact hkept other (hmoved.others other hother) (fun _ => rfl) hflag
  | consumed hstep =>
    exact hkept other (by rw [(consumer_threads hstep).1]) (fun _ => rfl) hflag

theorem registersOrLoses_run (hrun : Run (programStep gettid) (programStart maxHoldNs) tr p) :
    RegistersOrLoses p tr := by
  induction hrun with
  | nil =>
    intro thread hflag
    cases hflag
  | snoc hbefore hlast ih => exact ih.move hbefore (programStep_move hlast)

/-- Without a refused event a thread that holds a mutex has not failed to register. -/
theorem holder_registered (hrun : Run (programStep gettid) (programStart maxHoldNs) tr p)
    (hrefusals : refusals (runtimeTrace tr) = []) (hheld : 0 < p.levels thread mutex) :
    (p.runtime.threads thread).tlsRegistrationFailed = false := by
  by_contra hflag
  rw [Bool.not_eq_false] at hflag
  rcases registersOrLoses_run hrun thread hflag with ⟨request, hmem⟩ | ⟨-, hnone⟩
  · have hcounted : request ∈ refusals (runtimeTrace tr) :=
      List.mem_filterMap.mpr ⟨_, hmem, rfl⟩
    rw [hrefusals] at hcounted
    cases hcounted
  · rw [hnone mutex] at hheld
    cases hheld

end Registrations

section Handoffs

theorem movesOf_append (mutex : ℕ) (first second : List Observation) :
    movesOf mutex (first ++ second) = movesOf mutex first ++ movesOf mutex second :=
  List.filterMap_append ..

/-- A thread about to number an acquisition has nothing else to number, and holds the
mutex. -/
theorem acquirer_holds (hrun : Run (programStep gettid) (programStart maxHoldNs) tr p)
    {after : AfterEmission} (hpc : (p.runtime.threads thread).pc = .reserve slot request after)
    (hacquired : request.eventType = .lockAcquired) :
    0 < p.levels thread request.objectAddress := by
  have h := traced_run hrun
  have hflag : (p.runtime.threads thread).tlsRegistrationFailed = false := by
    by_contra hfailed
    rw [Bool.not_eq_false] at hfailed
    rcases (h.failed thread hfailed).2 with hout | ⟨refused, hrefuse⟩
    · simp [hpc] at hout
    · simp [hpc] at hrefuse
  have hquiet : (p.calls thread).unreported = [] := by
    by_contra hne
    have hout := h.still thread hne
    simp [hpc] at hout
  have hlast : afterRequests after = [] := by
    have hstarts := startsFirst_run (runtime_run hrun) thread
    rw [hpc] at hstarts
    cases after with
    | emit next =>
      have hstart : request = threadStart := hstarts
      rw [hstart] at hacquired
      cases hacquired
    | leave | close => rfl
  rw [levels_eq_depth h hflag, hquiet, unreserved, hpc]
  simp [hlast, depthStep, hacquired]

/-- A step gives a number to the request that its thread is at, or gives out none. -/
theorem transition_reserved {made : List Observation} (ht : Transition gettid rt rt' made) :
    (∃ thread slot request after event, (rt.threads thread).pc = .reserve slot request after ∧
      requestOf event = request ∧ made = [.reserved thread slot event]) ∨
      (∀ thread, reservedBy thread made = []) ∧ ∀ mutex, movesOf mutex made = [] := by
  cases ht with
  | @reserved thread slot request after event hpc timestampNs hevent =>
    exact Or.inl ⟨thread, slot, request, after, event, hpc, by rw [hevent]; rfl, rfl⟩
  | _ => exact Or.inr ⟨fun _ => rfl, fun _ => rfl⟩

/-- A step of the runtime moves no real mutex. -/
theorem HolderMovedLast.runtime (h : HolderMovedLast p tr)
    (hrun : Run (programStep gettid) (programStart maxHoldNs) tr p) {made : List Observation}
    (ht : Transition gettid p.runtime rt made)
    (hlevels : ∀ thread mutex, p'.levels thread mutex = p.levels thread mutex) :
    HolderMovedLast p' (tr ++ made.map .runtime) := by
  intro holder mutex hheld hdepth last event hlast
  rw [runtimeTrace_append, runtimeTrace_runtime] at hdepth hlast
  rw [hlevels] at hheld
  rw [reservedBy_append, depthOf_append] at hdepth
  rw [movesOf_append] at hlast
  rcases transition_reserved ht with
    ⟨thread, slot, request, after, made, hpc, rfl, rfl⟩ | ⟨hreserved, hmoves⟩
  · by_cases hmove : (made.eventType = .lockAcquired ∨ made.eventType = .unlocked) ∧
        made.objectAddress = mutex
    · have hnew : movesOf mutex [.reserved thread slot made] = [(thread, made)] := by
        simp [movesOf, hmove]
      rw [hnew, List.getLast?_append, List.getLast?_singleton, Option.some_or,
        Option.some.injEq, Prod.mk.injEq] at hlast
      obtain ⟨rfl, rfl⟩ := hlast
      obtain ⟨hacquired | hreleased, rfl⟩ := hmove
      · exact Or.inl (levels_unique (acquirer_holds hrun hpc hacquired) hheld)
      · exact Or.inr hreleased
    · have hnone : movesOf mutex [.reserved thread slot made] = [] := by
        simp [movesOf, hmove]
      rw [hnone, List.append_nil] at hlast
      refine h holder mutex hheld (lt_of_lt_of_le hdepth ?_) last event hlast
      by_cases hown : thread = holder
      · have hone : reservedBy holder [.reserved thread slot made] = [requestOf made] := by
          simp [reservedBy, hown]
        rw [hone]
        exact depthStep_le hmove _
      · have hnothing : reservedBy holder [.reserved thread slot made] = [] := by
          simp [reservedBy, hown]
        rw [hnothing]
        exact le_rfl
  · rw [hreserved] at hdepth
    rw [hmoves, List.append_nil] at hlast
    exact h holder mutex hheld hdepth last event hlast

/-- A step without a number after which a thread holds no mutex anew that its numbered
requests tell of. -/
theorem HolderMovedLast.keep (h : HolderMovedLast p tr) (hquiet : runtimeTrace os = [])
    (hheld : ∀ thread mutex, 0 < p'.levels thread mutex →
      0 < depthOf (reservedBy thread (runtimeTrace tr)) mutex → 0 < p.levels thread mutex) :
    HolderMovedLast p' (tr ++ os) := by
  intro holder mutex hlevels hdepth last event hlast
  rw [runtimeTrace_append, hquiet, List.append_nil] at hdepth hlast
  exact h holder mutex (hheld holder mutex hlevels hdepth) hdepth last event hlast

theorem still_outside (hpc : (p.runtime.threads thread).pc = .outside)
    (hcall : (p.calls thread).unreported = []) :
    Still (unreserved (p.runtime.threads thread) ++ (p.calls thread).unreported) := by
  rw [hcall, List.append_nil, unreserved, hpc]
  dsimp only
  split
  · intro request hmem
    rw [List.mem_singleton.mp hmem]
    decide
  · exact fun _ hmem => absurd hmem List.not_mem_nil

theorem HolderMovedLast.move (h : HolderMovedLast p tr)
    (hrun : Run (programStep gettid) (programStart maxHoldNs) tr p)
    (hmove : ProgramMove gettid p p' os) : HolderMovedLast p' (tr ++ os) := by
  cases hmove with
  | emitted hcall hemit => exact h.runtime hrun (emit_transition hemit) fun _ _ => rfl
  | produced hstep => exact h.runtime hrun (producer_transition hstep) fun _ _ => rfl
  | consumed hstep => exact h.runtime hrun (consumer_transition hstep) fun _ _ => rfl
  | @lockReturned thread mutex rc holder hcall hpc hreal =>
    refine h.keep rfl fun other address hheld hdepth => ?_
    -- only the thread whose lock has returned gains a level, and it has numbered what it held
    by_cases hother : other = thread
    · subst hother
      have hstill : Still (unreserved (p.runtime.threads other) ++ (p.calls other).unreported) :=
        still_outside hpc (by rw [hcall]; rfl)
      rw [levels_eq_depth (traced_run hrun) (deep_registered hrun hdepth),
        hstill.foldl_depthStep]
      exact hdepth
    · rw [levels_returned] at hheld
      split at hheld
      · rename_i haddress
        rw [(levelsOf_locked hreal other).2, if_neg (fun hboth => hother hboth.1)] at hheld
        rw [haddress]
        exact hheld
      · exact hheld
  | @unlockReturned thread mutex rc holder hcall hpc hreal =>
    refine h.keep rfl fun other address hheld _ => ?_
    rw [levels_returned] at hheld
    split at hheld
    · rename_i haddress
      rw [levelsOf_unlocked hreal other] at hheld
      rw [haddress]
      show 0 < levelsOf (p.mutexes mutex) other
      split at hheld <;> omega
    · exact hheld

theorem holderMovedLast_run (hrun : Run (programStep gettid) (programStart maxHoldNs) tr p) :
    HolderMovedLast p tr := by
  induction hrun with
  | nil => exact fun _ _ _ hdepth => absurd hdepth (lt_irrefl 0)
  | snoc hbefore hlast ih => exact ih.move hbefore (programStep_move hlast)

end Handoffs

end RuntimeMonitor.Handoffs
