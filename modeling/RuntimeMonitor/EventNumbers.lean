import RuntimeMonitor.RuntimeStreams

/-!
The numbers of events. Global numbers are given out in the order of the
reservations of the whole run, thread numbers in the order of the reservations on
a slot, and every event carries the identity of the thread that owns its slot.
-/
namespace RuntimeMonitor.EventNumbers

open TransitionRuns EventRecord VerifierTables VerifierCycles MonitorRuntime RuntimeSteps
open SlotOwnership RuntimeStreams

/-- All events that have got their numbers. -/
def reservedAll (tr : List Observation) : List MonitorEvent :=
  tr.filterMap fun o => (reservedEvent o).map Prod.snd

/-- The counters and the numbers they have given out. -/
structure Numbered (rt : Runtime) (tr : List Observation) : Prop where
  next_global : rt.globalSequence = (reservedAll tr).length % 2 ^ 64
  global : (reservedAll tr).map (·.sequenceId) =
    (List.range (reservedAll tr).length).map (· % 2 ^ 64)
  next_local : ∀ slot, (rt.threadContexts slot).nextThreadSequence =
    (eventsOn reservedEvent slot tr).length % 2 ^ 32
  local_ : ∀ slot, (eventsOn reservedEvent slot tr).map (·.threadSequence) =
    (List.range (eventsOn reservedEvent slot tr).length).map (· % 2 ^ 32)

/-- The identity stored in a context. -/
structure Identified (gettid : ℕ → ℕ) (rt : Runtime) (tr : List Observation) : Prop where
  context : ∀ thread slot, (claimants tr)[slot]? = some thread →
    ((rt.threadContexts slot).active = true ∨
      ∃ request, (rt.threads thread).pc = .activate request slot) →
    (rt.threadContexts slot).threadId = gettid thread
  events : ∀ slot, ∀ event ∈ eventsOn reservedEvent slot tr, ∃ thread,
    (claimants tr)[slot]? = some thread ∧ event.threadId = gettid thread
  silent : ∀ slot, (rt.threadContexts slot).active = false →
    eventsOn reservedEvent slot tr = []

variable {gettid : ℕ → ℕ} {rt rt' : Runtime} {tr os : List Observation} {slot : ℕ}

/-- An event on a slot carries the id of the thread that has claimed the slot. -/
theorem Identified.own (h : Identified gettid rt tr) {thread : ℕ} {event : MonitorEvent}
    (hown : (claimants tr)[slot]? = some thread) (hmem : event ∈ eventsOn reservedEvent slot tr) :
    event.threadId = gettid thread := by
  obtain ⟨owner, howner, hid⟩ := h.events slot event hmem
  rw [hown, Option.some.injEq] at howner
  rw [hid, howner]

theorem reservedAll_append (tr os : List Observation) :
    reservedAll (tr ++ os) = reservedAll tr ++ reservedAll os := List.filterMap_append ..

theorem reservedOn_sublist (slot : ℕ) (tr : List Observation) :
    (eventsOn reservedEvent slot tr).Sublist (reservedAll tr) := by
  induction tr with
  | nil => exact List.Sublist.refl _
  | cons o rest ih =>
    have hon : eventsOn reservedEvent slot (o :: rest) =
        eventsOn reservedEvent slot [o] ++ eventsOn reservedEvent slot rest :=
      eventsOn_append _ _ [o] rest
    have hall : reservedAll (o :: rest) = reservedAll [o] ++ reservedAll rest :=
      reservedAll_append [o] rest
    rw [hon, hall]
    refine List.Sublist.append ?_ ih
    cases hkind : reservedEvent o with
    | none => simp [eventsOn, reservedAll, hkind]
    | some entry =>
      by_cases heq : entry.1 = slot <;> simp [eventsOn, reservedAll, hkind, heq]

theorem Numbered.keep (h : Numbered rt tr) (hall : reservedAll os = [])
    (hon : ∀ slot, eventsOn reservedEvent slot os = [])
    (hglobal : rt'.globalSequence = rt.globalSequence)
    (hnext : ∀ slot, (rt'.threadContexts slot).nextThreadSequence =
      (rt.threadContexts slot).nextThreadSequence) : Numbered rt' (tr ++ os) := by
  have hreserved : reservedAll (tr ++ os) = reservedAll tr := by
    rw [reservedAll_append, hall, List.append_nil]
  have hslots : ∀ slot, eventsOn reservedEvent slot (tr ++ os) =
      eventsOn reservedEvent slot tr := by
    intro slot
    rw [eventsOn_append, hon, List.append_nil]
  constructor
  · rw [hreserved, hglobal]
    exact h.next_global
  · rw [hreserved]
    exact h.global
  · intro slot
    rw [hslots, hnext]
    exact h.next_local slot
  · intro slot
    rw [hslots]
    exact h.local_ slot

theorem Numbered.step (h : Numbered rt tr) (howned : SlotsOwned rt tr)
    (ht : Transition gettid rt rt' os) : Numbered rt' (tr ++ os) := by
  cases ht with
  | @initialised thread slot request hpc =>
    have hheld : heldSlot (rt.threads thread) = some slot := by simp [heldSlot, hpc, freshSlot]
    have htls := (howned.locals thread).context none (by rw [hpc]; rfl)
    have hunused := howned.unused slot (howned.dormant thread slot hheld htls)
    exact h.keep rfl (fun _ => rfl) rfl
      (fun _ => setContext_agrees (·.nextThreadSequence) hunused.2.2.2.1.symm)
  | activated hpc =>
    exact h.keep rfl (fun _ => rfl) rfl (fun _ => setContext_agrees (·.nextThreadSequence) rfl)
  | counted hpc =>
    exact h.keep rfl (fun _ => rfl) rfl (fun _ => setContext_agrees (·.nextThreadSequence) rfl)
  | pushed hpc hroom =>
    exact h.keep rfl (fun _ => rfl) rfl (fun _ => setContext_agrees (·.nextThreadSequence) rfl)
  | dropCounted hpc =>
    exact h.keep rfl (fun _ => rfl) rfl (fun _ => setContext_agrees (·.nextThreadSequence) rfl)
  | popped hpc hqueue =>
    exact h.keep rfl (fun _ => rfl) rfl (fun _ => setContext_agrees (·.nextThreadSequence) rfl)
  | accounted hpc =>
    exact h.keep rfl (fun _ => rfl) rfl (fun _ => setContext_agrees (·.nextThreadSequence) rfl)
  | @reserved thread slot' request after event hpc timestampNs hevent =>
    have hall : reservedAll (tr ++ [.reserved thread slot' event]) = reservedAll tr ++ [event] :=
      reservedAll_append ..
    have hon : ∀ slot, eventsOn reservedEvent slot (tr ++ [.reserved thread slot' event]) =
        eventsOn reservedEvent slot tr ++ if slot' = slot then [event] else [] :=
      fun slot => eventsOn_snoc rfl slot tr
    have hsequence : event.sequenceId = rt.globalSequence := by rw [hevent]; rfl
    have hlocal : event.threadSequence = (rt.threadContexts slot').nextThreadSequence := by
      rw [hevent]
      rfl
    constructor
    · have hnext := h.next_global
      rw [hall, List.length_append, List.length_singleton]
      change succ64 rt.globalSequence = _
      rw [hnext]
      unfold succ64
      omega
    · rw [hall, List.length_append, List.length_singleton, List.range_succ, List.map_append,
        List.map_append, h.global]
      simp [hsequence, h.next_global]
    · intro slot
      have hslot := h.next_local slot
      rw [hon]
      by_cases heq : slot' = slot
      · subst heq
        simp only [if_true, List.length_append, List.length_singleton]
        simp only [Runtime.goto_threadContexts, Runtime.setContext_threadContexts,
          Function.update_self, hslot]
        unfold succ32
        omega
      · simp [heq, Ne.symm heq, hslot]
    · intro slot
      have hslot := h.local_ slot
      rw [hon]
      by_cases heq : slot' = slot
      · subst heq
        simp only [if_true, List.length_append, List.length_singleton, List.range_succ,
          List.map_append, hslot]
        simp [hlocal, h.next_local]
      · simp [heq, hslot]
  | _ => exact h.keep rfl (fun _ => rfl) rfl (fun _ => rfl)

theorem Identified.keep (h : Identified gettid rt tr) (hclaim : claimants os = [])
    (hon : ∀ slot, eventsOn reservedEvent slot os = [])
    (hthreads : ∀ thread slot request, (rt'.threads thread).pc = .activate request slot →
      (rt.threads thread).pc = .activate request slot)
    (hactive : ∀ slot, (rt'.threadContexts slot).active = (rt.threadContexts slot).active)
    (hid : ∀ slot, (rt'.threadContexts slot).threadId = (rt.threadContexts slot).threadId) :
    Identified gettid rt' (tr ++ os) := by
  have hclaimants : claimants (tr ++ os) = claimants tr := by
    rw [claimants_append, hclaim, List.append_nil]
  constructor
  · intro thread slot hown hready
    rw [hclaimants] at hown
    rw [hactive] at hready
    rw [hid]
    apply h.context thread slot hown
    rcases hready with hon | ⟨request, hpc⟩
    · exact Or.inl hon
    · exact Or.inr ⟨request, hthreads thread slot request hpc⟩
  · intro slot event hmem
    rw [eventsOn_append, hon, List.append_nil] at hmem
    rw [hclaimants]
    exact h.events slot event hmem
  · intro slot hoff
    rw [hactive] at hoff
    rw [eventsOn_append, hon, List.append_nil]
    exact h.silent slot hoff

theorem localMove_not_activate {locals locals' : ThreadLocals}
    (hmove : LocalMove rt locals locals')
    (request : EmitRequest) (slot : ℕ) : locals'.pc ≠ .activate request slot := by
  cases hmove with
  | @called request' hpc haccept hinternal =>
    intro hcon
    have hfresh := freshSlot_register locals request'
    change registerCurrentThread locals request' = _ at hcon
    rw [hcon] at hfresh
    simp [freshSlot] at hfresh
  | exiting hpc hkey hready =>
    by_cases haccept : rt.acceptEvents = true <;> simp [haccept]
  | _ => simp

theorem resume_not_activate (slot' : ℕ) (after : AfterEmission) (request : EmitRequest)
    (slot : ℕ) : after.resume slot' ≠ .activate request slot := by
  cases after <;> simp [AfterEmission.resume]

/-- A thread moves to a position other than the activation. -/
theorem activate_moved {thread : ℕ} {locals : ThreadLocals}
    (hthreads : rt'.threads = Function.update rt.threads thread locals)
    (hne : ∀ request slot, locals.pc ≠ .activate request slot) (other slot : ℕ)
    (request : EmitRequest) (hpc : (rt'.threads other).pc = .activate request slot) :
    (rt.threads other).pc = .activate request slot := by
  rw [hthreads] at hpc
  by_cases heq : other = thread
  · subst heq
    rw [Function.update_self] at hpc
    exact absurd hpc (hne request slot)
  · rwa [Function.update_of_ne heq] at hpc

theorem Identified.step (h : Identified gettid rt tr) (howned : SlotsOwned rt tr)
    (ht : Transition gettid rt rt' os) : Identified gettid rt' (tr ++ os) := by
  cases ht with
  | moved hmove =>
    exact h.keep rfl (fun _ => rfl) (activate_moved rfl (localMove_not_activate hmove))
      (fun _ => rfl) (fun _ => rfl)
  | @claimed thread request hpc hlt =>
    have hclaimants : claimants (tr ++ [.claimed thread rt.nextThreadSlot]) =
        claimants tr ++ [thread] := claimants_append ..
    have hold : ∀ slot owner, (claimants (tr ++ [.claimed thread rt.nextThreadSlot]))[slot]? =
        some owner → slot ≠ rt.nextThreadSlot → (claimants tr)[slot]? = some owner := by
      intro slot owner hown hne
      have hlength := howned.claimed
      rw [hclaimants] at hown
      have hbound := (List.getElem?_eq_some_iff.mp hown).1
      rw [List.length_append, List.length_singleton] at hbound
      rwa [List.getElem?_append_left (by omega)] at hown
    constructor
    · intro owner slot hown hready
      by_cases hslot : slot = rt.nextThreadSlot
      · -- nobody has initialised the new slot
        exfalso
        rcases hready with hon | ⟨request', hpc'⟩
        · have hoff := howned.unclaimed slot hslot.ge
          change (rt.threadContexts slot).active = true at hon
          rw [hoff] at hon
          simp at hon
        · have hbefore : (rt.threads owner).pc = .activate request' slot :=
            activate_moved rfl (by simp) _ _ _ hpc'
          have hheld := howned.held owner slot (by simp [heldSlot, hbefore, freshSlot])
          have hbound := (List.getElem?_eq_some_iff.mp hheld).1
          have hlength := howned.claimed
          omega
      · apply h.context owner slot (hold slot owner hown hslot)
        rcases hready with hon | ⟨request', hpc'⟩
        · exact Or.inl hon
        · exact Or.inr ⟨request', activate_moved rfl (by simp) _ _ _ hpc'⟩
    · intro slot event hmem
      rw [eventsOn_other rfl] at hmem
      obtain ⟨owner, hown, hid⟩ := h.events slot event hmem
      refine ⟨owner, ?_, hid⟩
      rw [hclaimants, List.getElem?_append_left (List.getElem?_eq_some_iff.mp hown).1]
      exact hown
    · intro slot hoff
      rw [eventsOn_other rfl]
      exact h.silent slot hoff
  | refused hpc =>
    exact h.keep rfl (fun _ => rfl) (activate_moved rfl (by simp)) (fun _ => rfl) (fun _ => rfl)
  | @initialised thread slot' request hpc =>
    have hheld := howned.held thread slot' (by simp [heldSlot, hpc, freshSlot])
    constructor
    · intro owner slot hown hready
      rw [List.append_nil] at hown
      by_cases heq : slot = slot'
      · subst heq
        rw [hheld, Option.some.injEq] at hown
        subst hown
        simp
      · have hold := h.context owner slot hown
        simp only [Runtime.goto_threadContexts, Runtime.setContext_threadContexts,
          Function.update_of_ne heq, Runtime.goto_threads, Runtime.setContext_threads] at hready ⊢
        apply hold
        rcases hready with hon | ⟨request', hpc'⟩
        · exact Or.inl hon
        · by_cases hsame : owner = thread
          · subst hsame
            rw [Function.update_self] at hpc'
            simp only [ProducerPc.activate.injEq] at hpc'
            exact absurd hpc'.2.symm heq
          · rw [Function.update_of_ne hsame] at hpc'
            exact Or.inr ⟨request', hpc'⟩
    · rw [List.append_nil]
      exact h.events
    · intro slot hoff
      rw [List.append_nil]
      apply h.silent slot
      by_cases heq : slot = slot'
      · subst heq
        simpa using hoff
      · simpa [Function.update_of_ne heq] using hoff
  | @activated thread slot' request hpc =>
    have hheld := howned.held thread slot' (by simp [heldSlot, hpc, freshSlot])
    constructor
    · intro owner slot hown hready
      rw [List.append_nil] at hown
      have hid : ((rt.setContext slot' { rt.threadContexts slot' with
          active := true }).threadContexts slot).threadId = (rt.threadContexts slot).threadId :=
        setContext_agrees (·.threadId) rfl
      apply hid.trans
      by_cases heq : slot = slot'
      · subst heq
        rw [hheld, Option.some.injEq] at hown
        subst hown
        exact h.context thread slot hheld (Or.inr ⟨request, hpc⟩)
      · apply h.context owner slot hown
        simp only [Runtime.setThread_threadContexts, Runtime.setContext_threadContexts,
          Function.update_of_ne heq] at hready
        rcases hready with hon | ⟨request', hpc'⟩
        · exact Or.inl hon
        · exact Or.inr ⟨request', activate_moved rfl (by simp) _ _ _ hpc'⟩
    · rw [List.append_nil]
      exact h.events
    · intro slot hoff
      rw [List.append_nil]
      apply h.silent slot
      simp only [Runtime.setThread_threadContexts, Runtime.setContext_threadContexts] at hoff
      by_cases heq : slot = slot'
      · subst heq
        simp at hoff
      · rwa [Function.update_of_ne heq] at hoff
  | keyFailed hpc =>
    exact h.keep rfl (fun _ => rfl) (activate_moved rfl (by simp)) (fun _ => rfl) (fun _ => rfl)
  | @reserved thread slot' request after event hpc timestampNs hevent =>
    obtain ⟨-, hon, hown⟩ := howned.works slot' (by rw [hpc]; rfl)
    have hclaimants : claimants (tr ++ [.reserved thread slot' event]) = claimants tr := by
      rw [claimants_append]
      exact List.append_nil _
    constructor
    · intro owner slot howner hready
      rw [hclaimants] at howner
      have hid : ((rt.setContext slot' { rt.threadContexts slot' with
          nextThreadSequence := succ32 (rt.threadContexts slot').nextThreadSequence
          }).threadContexts slot).threadId = (rt.threadContexts slot).threadId :=
        setContext_agrees (·.threadId) rfl
      have hsame : ((rt.setContext slot' { rt.threadContexts slot' with
          nextThreadSequence := succ32 (rt.threadContexts slot').nextThreadSequence
          }).threadContexts slot).active = (rt.threadContexts slot).active :=
        setContext_agrees (·.active) rfl
      apply hid.trans
      apply h.context owner slot howner
      rcases hready with hready | ⟨request', hpc'⟩
      · exact Or.inl (hsame.symm.trans hready)
      · exact Or.inr ⟨request', activate_moved rfl (by simp) _ _ _ hpc'⟩
    · intro slot other hmem
      rw [eventsOn_snoc rfl, List.mem_append] at hmem
      rw [hclaimants]
      rcases hmem with hold | hnew
      · exact h.events slot other hold
      · by_cases heq : slot' = slot
        · subst heq
          rw [if_pos rfl, List.mem_singleton] at hnew
          refine ⟨thread, hown, ?_⟩
          rw [hnew, hevent]
          exact h.context thread slot' hown (Or.inl hon)
        · rw [if_neg heq] at hnew
          simp at hnew
    · intro slot hoff
      have hoff' : (rt.threadContexts slot).active = false := by
        by_cases heq : slot = slot'
        · subst heq
          simpa using hoff
        · simpa [Function.update_of_ne heq] using hoff
      rw [eventsOn_snoc rfl, h.silent slot hoff', if_neg (by
        intro heq
        rw [← heq, hon] at hoff'
        simp at hoff')]
      rfl
  | counted hpc =>
    exact h.keep rfl (fun _ => rfl) (activate_moved rfl (by simp))
      (fun _ => setContext_agrees (·.active) rfl) (fun _ => setContext_agrees (·.threadId) rfl)
  | pushed hpc hroom =>
    exact h.keep rfl (fun _ => rfl) (activate_moved rfl (resume_not_activate _ _))
      (fun _ => setContext_agrees (·.active) rfl) (fun _ => setContext_agrees (·.threadId) rfl)
  | dropped hpc hfull =>
    exact h.keep rfl (fun _ => rfl) (activate_moved rfl (by simp)) (fun _ => rfl) (fun _ => rfl)
  | dropCounted hpc =>
    exact h.keep rfl (fun _ => rfl) (activate_moved rfl (resume_not_activate _ _))
      (fun _ => setContext_agrees (·.active) rfl) (fun _ => setContext_agrees (·.threadId) rfl)
  | left hpc =>
    exact h.keep rfl (fun _ => rfl) (activate_moved rfl (by simp)) (fun _ => rfl) (fun _ => rfl)
  | popped hpc hqueue =>
    exact h.keep rfl (fun _ => rfl) (fun _ _ _ => id)
      (fun _ => setContext_agrees (·.active) rfl) (fun _ => setContext_agrees (·.threadId) rfl)
  | accounted hpc =>
    exact h.keep rfl (fun _ => rfl) (fun _ _ _ => id)
      (fun _ => setContext_agrees (·.active) rfl) (fun _ => setContext_agrees (·.threadId) rfl)
  | _ => exact h.keep rfl (fun _ => rfl) (fun _ _ _ => id) (fun _ => rfl) (fun _ => rfl)

end RuntimeMonitor.EventNumbers
