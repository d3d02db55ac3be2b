import RuntimeMonitor.RuntimeSteps

/-!
Who owns which slot. Slots are claimed one after the other, so the claimant of a
slot is read off the run, and the slot a thread works on is one it has claimed.
A context that is not active yet is empty, and the consumer works on active
contexts only.
-/
namespace RuntimeMonitor.SlotOwnership

open TransitionRuns EventRecord VerifierTables VerifierCycles MonitorRuntime RuntimeSteps

/-- The threads that have claimed a slot, in the order of the slots. -/
def claimants (tr : List Observation) : List ℕ :=
  tr.filterMap fun | .claimed thread _ => some thread | _ => none

/-- The slot of a context that its thread has not published yet. -/
def freshSlot : ProducerPc → Option ℕ
  | .initialise _ slot | .activate _ slot => some slot
  | _ => none

/-- The slot of a thread, from the claim on. -/
def heldSlot (locals : ThreadLocals) : Option ℕ :=
  (freshSlot locals.pc).or locals.tlsContext

/-- The value of `tls_context` at a position inside the runtime. -/
def expectedContext : ProducerPc → Option (Option ℕ)
  | .outside => none
  | .loadSlot _ | .exchangeSlot _ _ | .refuse _ | .initialise _ _ | .activate _ _ => some none
  | .setKey _ slot | .reserve slot _ _ | .countGenerated slot _ _ => some (some slot)
  | .push slot _ _ | .countDropped slot _ | .leave slot | .close slot => some (some slot)

/-- The thread is inside its exit destructor. -/
def closing : ProducerPc → Bool
  | .reserve _ _ after | .countGenerated _ _ after => decide (after = .close)
  | .push _ _ after | .countDropped _ after => decide (after = .close)
  | .close _ => true
  | _ => false

/-- The position of a thread agrees with its thread-local pointers. -/
structure Consistent (locals : ThreadLocals) : Prop where
  context : ∀ context, expectedContext locals.pc = some context → locals.tlsContext = context
  key : ∀ slot, locals.exitKeyValue = some slot → locals.tlsContext = some slot
  cleared : closing locals.pc = true → locals.exitKeyValue = none

/-- The context that the consumer reads. -/
def consumerSlot : ConsumerPc → Option ℕ
  | .drain round _ | .process round _ _ | .account round _ => some round.slot
  | _ => none

/-- A context before its first use. -/
def Unused (context : MonitorThreadContext) : Prop :=
  context.queue = [] ∧ context.generated = 0 ∧ context.dropped = 0 ∧
    context.nextThreadSequence = 0 ∧ context.consumed = 0

/-- The ownership of slots in the state that a run has led to. -/
structure SlotsOwned (rt : Runtime) (tr : List Observation) : Prop where
  claimed : (claimants tr).length = rt.nextThreadSlot
  bound : rt.nextThreadSlot ≤ monitorMaxThreads
  locals : ∀ thread, Consistent (rt.threads thread)
  held : ∀ thread slot, heldSlot (rt.threads thread) = some slot →
    (claimants tr)[slot]? = some thread
  live : ∀ thread slot, (rt.threads thread).tlsContext = some slot →
    (rt.threadContexts slot).active = true
  dormant : ∀ thread slot, heldSlot (rt.threads thread) = some slot →
    (rt.threads thread).tlsContext = none → (rt.threadContexts slot).active = false
  unused : ∀ slot, (rt.threadContexts slot).active = false → Unused (rt.threadContexts slot)
  unclaimed : ∀ slot, rt.nextThreadSlot ≤ slot → (rt.threadContexts slot).active = false
  consumer : ∀ slot, consumerSlot rt.consumer = some slot →
    (rt.threadContexts slot).active = true

variable {gettid : ℕ → ℕ} {rt rt' : Runtime} {tr os : List Observation}
  {locals locals' : ThreadLocals}

theorem claimants_append (tr os : List Observation) :
    claimants (tr ++ os) = claimants tr ++ claimants os := List.filterMap_append ..

theorem claimant_append {thread slot : ℕ} (h : (claimants tr)[slot]? = some thread)
    (os : List Observation) : (claimants (tr ++ os))[slot]? = some thread := by
  rw [claimants_append, List.getElem?_append_left (List.getElem?_eq_some_iff.mp h).1]
  exact h

theorem heldSlot_eq (h : freshSlot locals.pc = none) : heldSlot locals = locals.tlsContext := by
  unfold heldSlot
  rw [h, Option.none_or]

theorem freshSlot_of_expected {pc : ProducerPc} (h : expectedContext pc ≠ some none) :
    freshSlot pc = none := by
  cases pc <;> simp_all [expectedContext, freshSlot]

theorem heldSlot_of_context {slot : ℕ} (h : Consistent locals)
    (htls : locals.tlsContext = some slot) : heldSlot locals = some slot := by
  rw [heldSlot_eq, htls]
  apply freshSlot_of_expected
  intro hnone
  have hcontext := h.context none hnone
  rw [htls] at hcontext
  simp at hcontext

theorem expectedContext_resume (slot : ℕ) (after : AfterEmission) :
    expectedContext (after.resume slot) = some (some slot) := by
  cases after <;> rfl

theorem closing_resume (slot : ℕ) (after : AfterEmission) :
    closing (after.resume slot) = decide (after = .close) := by
  cases after <;> simp [closing, AfterEmission.resume]

theorem expectedContext_register (locals : ThreadLocals) (request : EmitRequest) :
    expectedContext (registerCurrentThread locals request) = some locals.tlsContext := by
  unfold registerCurrentThread
  cases locals.tlsContext with
  | none =>
    by_cases hfailed : locals.tlsRegistrationFailed = true <;> simp [hfailed, expectedContext]
  | some slot => rfl

theorem closing_register (locals : ThreadLocals) (request : EmitRequest) :
    closing (registerCurrentThread locals request) = false := by
  unfold registerCurrentThread
  cases locals.tlsContext with
  | none => by_cases hfailed : locals.tlsRegistrationFailed = true <;> simp [hfailed, closing]
  | some slot => rfl

/-- A move inside the runtime that keeps the pointers. -/
theorem Consistent.goto (h : Consistent locals) {pc : ProducerPc}
    (hcontext : ∀ context, expectedContext pc = some context → locals.tlsContext = context)
    (hclosing : closing pc = true → closing locals.pc = true) :
    Consistent { locals with pc := pc } :=
  ⟨hcontext, h.key, fun hpc => h.cleared (hclosing hpc)⟩

/-- Moves between two positions that expect the same pointer. -/
theorem Consistent.follow (h : Consistent locals) {pc : ProducerPc}
    (hcontext : expectedContext pc = expectedContext locals.pc)
    (hclosing : closing pc = true → closing locals.pc = true) :
    Consistent { locals with pc := pc } :=
  h.goto (fun context heq => h.context context (hcontext ▸ heq)) hclosing

theorem localMove_consistent (hmove : LocalMove rt locals locals') (h : Consistent locals) :
    Consistent locals' := by
  cases hmove with
  | called hpc haccept hinternal =>
    apply h.goto
    · intro context heq
      rwa [expectedContext_register, Option.some.injEq] at heq
    · rw [closing_register]
      simp
  | exiting hpc hkey hready =>
    have htls := h.key _ hkey
    refine ⟨?_, by simp, fun _ => rfl⟩
    by_cases haccept : rt.acceptEvents = true <;> simp [haccept, expectedContext, htls]
  | slotLoaded hpc => exact h.follow (by rw [hpc]; rfl) (by simp [closing])
  | full hpc hfull =>
    exact ⟨fun context heq => h.context context (by rw [hpc]; exact heq),
      h.key, by simp [closing]⟩
  | retried hpc hlt => exact h.follow (by rw [hpc]; rfl) (by simp [closing])
  | @keySet request slot hpc hready =>
    have htls := h.context (some slot) (by rw [hpc]; rfl)
    exact ⟨by simp [expectedContext, htls], by simp [htls], by simp [closing]⟩
  | closed hpc =>
    have hkey := h.cleared (by rw [hpc]; rfl)
    exact ⟨by simp [expectedContext], by simp [hkey], by simp [closing]⟩

/-- A thread goes from one state of its locals to another without a new slot. -/
structure Follows (locals locals' : ThreadLocals) : Prop where
  consistent : Consistent locals'
  held : ∀ slot, heldSlot locals' = some slot → heldSlot locals = some slot
  context : locals'.tlsContext = locals.tlsContext ∨ heldSlot locals' = none

theorem Follows.refl (h : Consistent locals) : Follows locals locals :=
  ⟨h, fun _ heq => heq, Or.inl rfl⟩

/-- A move between positions at which the slot of a thread is its context. -/
theorem Consistent.follows (h : Consistent locals) {pc : ProducerPc}
    (hcontext : ∀ context, expectedContext pc = some context → locals.tlsContext = context)
    (hclosing : closing pc = true → closing locals.pc = true)
    (hheld : heldSlot { locals with pc := pc } = heldSlot locals) :
    Follows locals { locals with pc := pc } :=
  ⟨h.goto hcontext hclosing, fun _ heq => hheld ▸ heq, Or.inl rfl⟩

/-- A move of a thread that works on its own context. -/
theorem Consistent.works (h : Consistent locals) {pc : ProducerPc} {slot : ℕ}
    (hbefore : expectedContext locals.pc = some (some slot))
    (hafter : expectedContext pc = some (some slot))
    (hclosing : closing pc = closing locals.pc) : Follows locals { locals with pc := pc } := by
  have htls := h.context _ hbefore
  apply h.follows
  · intro context heq
    rw [hafter, Option.some.injEq] at heq
    rw [← heq]
    exact htls
  · rw [hclosing]
    exact id
  · rw [heldSlot_eq (freshSlot_of_expected (by simp [hafter])),
      heldSlot_eq (freshSlot_of_expected (by simp [hbefore]))]

theorem freshSlot_register (locals : ThreadLocals) (request : EmitRequest) :
    freshSlot (registerCurrentThread locals request) = none := by
  unfold registerCurrentThread
  cases locals.tlsContext with
  | none => by_cases hfailed : locals.tlsRegistrationFailed = true <;> simp [hfailed, freshSlot]
  | some slot => rfl

theorem localMove_follows (hmove : LocalMove rt locals locals') (h : Consistent locals) :
    Follows locals locals' := by
  refine ⟨localMove_consistent hmove h, ?_, ?_⟩
  · intro slot
    cases hmove with
    | called hpc haccept hinternal =>
      have hbefore : freshSlot locals.pc = none := by rw [hpc]; rfl
      rw [heldSlot_eq hbefore, heldSlot_eq (freshSlot_register locals _)]
      exact id
    | exiting hpc hkey hready =>
      by_cases haccept : rt.acceptEvents = true <;> simp [heldSlot, haccept, hpc, freshSlot]
    | slotLoaded hpc => simp [heldSlot, hpc, freshSlot]
    | full hpc hfull => simp [heldSlot, hpc, freshSlot]
    | retried hpc hlt => simp [heldSlot, hpc, freshSlot]
    | keySet hpc hready => simp [heldSlot, hpc, freshSlot]
    | closed hpc => simp [heldSlot, freshSlot]
  · cases hmove with
    | closed hpc => exact Or.inr rfl
    | _ => exact Or.inl rfl

theorem SlotsOwned.keep (h : SlotsOwned rt tr) (hclaim : claimants os = [])
    (hnext : rt'.nextThreadSlot = rt.nextThreadSlot)
    (hthreads : ∀ thread, Follows (rt.threads thread) (rt'.threads thread))
    (hactive : ∀ slot, (rt'.threadContexts slot).active = (rt.threadContexts slot).active)
    (hunused : ∀ slot, (rt.threadContexts slot).active = false →
      Unused (rt.threadContexts slot) → Unused (rt'.threadContexts slot))
    (hconsumer : ∀ slot, consumerSlot rt'.consumer = some slot →
      (rt.threadContexts slot).active = true) : SlotsOwned rt' (tr ++ os) := by
  have hclaimants : claimants (tr ++ os) = claimants tr := by
    rw [claimants_append, hclaim, List.append_nil]
  constructor
  · rw [hclaimants, hnext]
    exact h.claimed
  · rw [hnext]
    exact h.bound
  · intro thread
    exact (hthreads thread).consistent
  · intro thread slot hheld
    rw [hclaimants]
    exact h.held thread slot ((hthreads thread).held slot hheld)
  · intro thread slot htls
    rw [hactive]
    have hheld := heldSlot_of_context (hthreads thread).consistent htls
    rcases (hthreads thread).context with hsame | hnone
    · exact h.live thread slot (hsame ▸ htls)
    · rw [hnone] at hheld
      simp at hheld
  · intro thread slot hheld hnone
    rw [hactive]
    rcases (hthreads thread).context with hsame | hfree
    · exact h.dormant thread slot ((hthreads thread).held slot hheld) (hsame ▸ hnone)
    · rw [hfree] at hheld
      simp at hheld
  · intro slot hoff
    rw [hactive] at hoff
    exact hunused slot hoff (h.unused slot hoff)
  · intro slot hslot
    rw [hactive]
    exact h.unclaimed slot (hnext ▸ hslot)
  · intro slot hslot
    rw [hactive]
    exact hconsumer slot hslot

/-- Only one thread moves. -/
theorem SlotsOwned.follows (h : SlotsOwned rt tr) {thread : ℕ}
    (hthreads : rt'.threads = Function.update rt.threads thread locals')
    (hfollows : Follows (rt.threads thread) locals') (other : ℕ) :
    Follows (rt.threads other) (rt'.threads other) := by
  rw [hthreads]
  by_cases heq : other = thread
  · subst heq
    rw [Function.update_self]
    exact hfollows
  · rw [Function.update_of_ne heq]
    exact .refl (h.locals other)

/-- A context is rewritten without a change of its flag. -/
theorem active_setContext {slot : ℕ} {context : MonitorThreadContext}
    (hcontext : context.active = (rt.threadContexts slot).active) (other : ℕ) :
    ((rt.setContext slot context).threadContexts other).active =
      (rt.threadContexts other).active := by
  rw [Runtime.setContext_threadContexts]
  by_cases heq : other = slot
  · subst heq
    rw [Function.update_self]
    exact hcontext
  · rw [Function.update_of_ne heq]

/-- A rewritten context was active, or it stays unused. -/
theorem unused_setContext {slot : ℕ} {context : MonitorThreadContext}
    (hcontext : (rt.threadContexts slot).active = true ∨ Unused context) (other : ℕ)
    (hoff : (rt.threadContexts other).active = false)
    (hunused : Unused (rt.threadContexts other)) :
    Unused ((rt.setContext slot context).threadContexts other) := by
  rw [Runtime.setContext_threadContexts]
  by_cases heq : other = slot
  · subst heq
    rw [Function.update_self]
    rcases hcontext with hon | hnew
    · rw [hon] at hoff
      simp at hoff
    · exact hnew
  · rwa [Function.update_of_ne heq]

/-- A thread works on the context of its slot, which has been published. -/
theorem SlotsOwned.works (h : SlotsOwned rt tr) {thread : ℕ} (slot : ℕ)
    (hpc : expectedContext (rt.threads thread).pc = some (some slot)) :
    (rt.threads thread).tlsContext = some slot ∧ (rt.threadContexts slot).active = true ∧
      (claimants tr)[slot]? = some thread := by
  have htls := (h.locals thread).context _ hpc
  exact ⟨htls, h.live thread slot htls,
    h.held thread slot (heldSlot_of_context (h.locals thread) htls)⟩

theorem SlotsOwned.claim (h : SlotsOwned rt tr) {thread : ℕ} {request : EmitRequest}
    (hpc : (rt.threads thread).pc = .exchangeSlot request rt.nextThreadSlot)
    (hlt : rt.nextThreadSlot < monitorMaxThreads) :
    SlotsOwned { rt.goto thread (.initialise request rt.nextThreadSlot) with
      nextThreadSlot := rt.nextThreadSlot + 1 } (tr ++ [.claimed thread rt.nextThreadSlot]) := by
  have htls := (h.locals thread).context none (by rw [hpc]; rfl)
  have hclaimants : claimants (tr ++ [.claimed thread rt.nextThreadSlot]) =
      claimants tr ++ [thread] := claimants_append ..
  constructor
  · simp [hclaimants, h.claimed]
  · exact hlt
  · intro other
    by_cases heq : other = thread
    · subst heq
      rw [Runtime.goto_threads, Function.update_self]
      exact (h.locals other).goto (by simp [expectedContext, htls]) (by simp [closing])
    · rw [Runtime.goto_threads, Function.update_of_ne heq]
      exact h.locals other
  · intro other slot hheld
    rw [hclaimants]
    by_cases heq : other = thread
    · subst heq
      rw [Runtime.goto_threads, Function.update_self] at hheld
      simp only [heldSlot, freshSlot, Option.some_or, Option.some.injEq] at hheld
      subst hheld
      rw [← h.claimed]
      simp
    · rw [Runtime.goto_threads, Function.update_of_ne heq] at hheld
      have hold := h.held other slot hheld
      rw [List.getElem?_append_left]
      · exact hold
      · exact (List.getElem?_eq_some_iff.mp hold).1
  · intro other slot hslot
    by_cases heq : other = thread
    · subst heq
      rw [Runtime.goto_threads, Function.update_self] at hslot
      rw [htls] at hslot
      simp at hslot
    · rw [Runtime.goto_threads, Function.update_of_ne heq] at hslot
      exact h.live other slot hslot
  · intro other slot hheld hnone
    by_cases heq : other = thread
    · subst heq
      rw [Runtime.goto_threads, Function.update_self] at hheld
      simp only [heldSlot, freshSlot, Option.some_or, Option.some.injEq] at hheld
      subst hheld
      exact h.unclaimed _ le_rfl
    · rw [Runtime.goto_threads, Function.update_of_ne heq] at hheld hnone
      exact h.dormant other slot hheld hnone
  · exact h.unused
  · intro slot hslot
    exact h.unclaimed slot (by
      change rt.nextThreadSlot + 1 ≤ slot at hslot
      omega)
  · exact h.consumer

theorem SlotsOwned.activate (h : SlotsOwned rt tr) {thread slot : ℕ} {request : EmitRequest}
    (hpc : (rt.threads thread).pc = .activate request slot) :
    SlotsOwned ((rt.setContext slot { rt.threadContexts slot with
      active := true }).setThread thread { rt.threads thread with
        tlsContext := some slot, pc := .setKey request slot }) (tr ++ []) := by
  have hheld : heldSlot (rt.threads thread) = some slot := by simp [heldSlot, hpc, freshSlot]
  have hown := h.held thread slot hheld
  have hkey := (h.locals thread).key
  have htls := (h.locals thread).context none (by rw [hpc]; rfl)
  rw [List.append_nil]
  constructor
  · exact h.claimed
  · exact h.bound
  · intro other
    by_cases heq : other = thread
    · subst heq
      rw [Runtime.setThread_threads, Function.update_self]
      refine ⟨by simp [expectedContext], ?_, by simp [closing]⟩
      intro slot' hslot'
      have hcon := hkey slot' hslot'
      rw [htls] at hcon
      simp at hcon
    · rw [Runtime.setThread_threads, Function.update_of_ne heq]
      exact h.locals other
  · intro other slot' hslot'
    by_cases heq : other = thread
    · subst heq
      rw [Runtime.setThread_threads, Function.update_self] at hslot'
      simp only [heldSlot, freshSlot, Option.none_or, Option.some.injEq] at hslot'
      rwa [← hslot']
    · rw [Runtime.setThread_threads, Function.update_of_ne heq] at hslot'
      exact h.held other slot' hslot'
  · intro other slot' hslot'
    rw [Runtime.setThread_threadContexts, Runtime.setContext_threadContexts]
    by_cases hsame : slot' = slot
    · rw [hsame, Function.update_self]
    · rw [Function.update_of_ne hsame]
      by_cases heq : other = thread
      · subst heq
        rw [Runtime.setThread_threads, Function.update_self, Option.some.injEq] at hslot'
        exact absurd hslot'.symm hsame
      · rw [Runtime.setThread_threads, Function.update_of_ne heq] at hslot'
        exact h.live other slot' hslot'
  · intro other slot' hslot' hnone
    by_cases heq : other = thread
    · subst heq
      rw [Runtime.setThread_threads, Function.update_self] at hnone
      simp at hnone
    · rw [Runtime.setThread_threads, Function.update_of_ne heq] at hslot' hnone
      have hne : slot' ≠ slot := by
        intro hsame
        subst hsame
        have hother := h.held other slot' hslot'
        rw [hown, Option.some.injEq] at hother
        exact heq hother.symm
      rw [Runtime.setThread_threadContexts, Runtime.setContext_threadContexts,
        Function.update_of_ne hne]
      exact h.dormant other slot' hslot' hnone
  · intro slot' hoff
    rw [Runtime.setThread_threadContexts, Runtime.setContext_threadContexts] at hoff ⊢
    by_cases hsame : slot' = slot
    · rw [hsame, Function.update_self] at hoff
      simp at hoff
    · rw [Function.update_of_ne hsame] at hoff ⊢
      exact h.unused slot' hoff
  · intro slot' hslot'
    have hlt := (List.getElem?_eq_some_iff.mp hown).1
    rw [h.claimed] at hlt
    rw [Runtime.setThread_threadContexts, Runtime.setContext_threadContexts,
      Function.update_of_ne (by
        change rt.nextThreadSlot ≤ slot' at hslot'
        omega)]
    exact h.unclaimed slot' hslot'
  · intro slot' hslot'
    rw [Runtime.setThread_threadContexts, Runtime.setContext_threadContexts]
    by_cases hsame : slot' = slot
    · rw [hsame, Function.update_self]
    · rw [Function.update_of_ne hsame]
      exact h.consumer slot' hslot'

theorem consumerMove_slot {pc pc' : ConsumerPc} {slot : ℕ} (hmove : ConsumerMove rt pc pc')
    (hslot : consumerSlot pc' = some slot) :
    (rt.threadContexts slot).active = true ∨ consumerSlot pc = some slot := by
  cases hmove with
  | active hlt hactive =>
    rw [consumerSlot, Option.some.injEq] at hslot
    exact Or.inl (hslot ▸ hactive)
  | _ => simp [consumerSlot] at hslot

/-- The ownership of slots is kept by every step. -/
theorem SlotsOwned.step (h : SlotsOwned rt tr) (ht : Transition gettid rt rt' os) :
    SlotsOwned rt' (tr ++ os) := by
  have hsame : ∀ thread, Follows (rt.threads thread) (rt.threads thread) :=
    fun thread => .refl (h.locals thread)
  cases ht with
  | claimed hpc hlt => exact h.claim hpc hlt
  | activated hpc => exact h.activate hpc
  | ignored => exact h.keep rfl rfl hsame (fun _ => rfl) (fun _ _ hu => hu) h.consumer
  | @moved thread locals hmove =>
    exact h.keep rfl rfl (h.follows rfl (localMove_follows hmove (h.locals thread)))
      (fun _ => rfl) (fun _ _ hu => hu) h.consumer
  | @refused thread request hpc =>
    refine h.keep rfl rfl (h.follows rfl ?_) (fun _ => rfl) (fun _ _ hu => hu) h.consumer
    exact (h.locals thread).follows (by simp [expectedContext]) (by simp [closing])
      (by simp [heldSlot, hpc, freshSlot])
  | @initialised thread slot request hpc =>
    refine h.keep rfl rfl (h.follows rfl ?_) (active_setContext rfl)
      (unused_setContext (Or.inr ⟨rfl, rfl, rfl, rfl, rfl⟩)) h.consumer
    exact (h.locals thread).follows
      (fun context heq => (h.locals thread).context context (by rw [hpc]; exact heq))
      (by simp [closing]) (by simp [heldSlot, hpc, freshSlot])
  | @keyFailed thread slot request hpc =>
    refine h.keep rfl rfl (h.follows rfl ?_) (fun _ => rfl) (fun _ _ hu => hu) h.consumer
    exact (h.locals thread).works (by rw [hpc]; rfl) rfl (by rw [hpc]; rfl)
  | @reserved thread slot request after event hpc timestampNs hevent =>
    have hworks := h.works slot (by rw [hpc]; rfl)
    refine h.keep rfl rfl (h.follows rfl ?_) (active_setContext rfl)
      (unused_setContext (Or.inl hworks.2.1)) h.consumer
    exact (h.locals thread).works (by rw [hpc]; rfl) rfl (by rw [hpc]; rfl)
  | @counted thread slot event after hpc =>
    have hworks := h.works slot (by rw [hpc]; rfl)
    refine h.keep rfl rfl (h.follows rfl ?_) (active_setContext rfl)
      (unused_setContext (Or.inl hworks.2.1)) h.consumer
    exact (h.locals thread).works (by rw [hpc]; rfl) rfl (by rw [hpc]; rfl)
  | @pushed thread slot event after hpc hroom =>
    have hworks := h.works slot (by rw [hpc]; rfl)
    refine h.keep rfl rfl (h.follows rfl ?_) (active_setContext rfl)
      (unused_setContext (Or.inl hworks.2.1)) h.consumer
    exact (h.locals thread).works (by rw [hpc]; rfl) (expectedContext_resume slot after)
      (by rw [hpc, closing_resume]; rfl)
  | @dropped thread slot event after hpc hfull =>
    refine h.keep rfl rfl (h.follows rfl ?_) (fun _ => rfl) (fun _ _ hu => hu) h.consumer
    exact (h.locals thread).works (by rw [hpc]; rfl) rfl (by rw [hpc]; rfl)
  | @dropCounted thread slot after hpc =>
    have hworks := h.works slot (by rw [hpc]; rfl)
    refine h.keep rfl rfl (h.follows rfl ?_) (active_setContext rfl)
      (unused_setContext (Or.inl hworks.2.1)) h.consumer
    exact (h.locals thread).works (by rw [hpc]; rfl) (expectedContext_resume slot after)
      (by rw [hpc, closing_resume]; rfl)
  | @left thread slot hpc =>
    refine h.keep rfl rfl (h.follows rfl ?_) (fun _ => rfl) (fun _ _ hu => hu) h.consumer
    exact (h.locals thread).follows (by simp [expectedContext]) (by simp [closing])
      (by simp [heldSlot, hpc, freshSlot])
  | roundStarted hpc =>
    exact h.keep rfl rfl hsame (fun _ => rfl) (fun _ _ hu => hu) (by simp [consumerSlot])
  | consumerMoved hmove =>
    refine h.keep rfl rfl hsame (fun _ => rfl) (fun _ _ hu => hu) ?_
    intro slot hslot
    rcases consumerMove_slot hmove hslot with hactive | hsame
    · exact hactive
    · exact h.consumer slot hsame
  | @popped round popped event rest hpc hqueue =>
    have hon := h.consumer round.slot (by rw [hpc]; rfl)
    exact h.keep rfl rfl hsame (active_setContext rfl) (unused_setContext (Or.inl hon))
      (fun slot hslot => h.consumer slot (by rw [hpc]; exact hslot))
  | processed hpc =>
    exact h.keep rfl rfl hsame (fun _ => rfl) (fun _ _ hu => hu)
      (fun slot hslot => h.consumer slot (by rw [hpc]; exact hslot))
  | @accounted round popped hpc =>
    have hon := h.consumer round.slot (by rw [hpc]; rfl)
    exact h.keep rfl rfl hsame (active_setContext rfl) (unused_setContext (Or.inl hon))
      (fun slot hslot => h.consumer slot (by rw [hpc]; exact hslot))
  | checked hpc =>
    exact h.keep rfl rfl hsame (fun _ => rfl) (fun _ _ hu => hu) (by simp [consumerSlot])
  | consumerReturned hpc hstopped =>
    exact h.keep rfl rfl hsame (fun _ => rfl) (fun _ _ hu => hu) (by simp [consumerSlot])
  | _ => exact h.keep rfl rfl hsame (fun _ => rfl) (fun _ _ hu => hu) h.consumer

theorem slotsOwned_start (maxHoldNs : ℕ) : SlotsOwned (monitorRuntimeStart maxHoldNs) [] where
  claimed := rfl
  bound := Nat.zero_le _
  locals thread := ⟨by simp [monitorRuntimeStart, expectedContext],
    by simp [monitorRuntimeStart], by simp [monitorRuntimeStart, closing]⟩
  held thread slot hheld := by simp [monitorRuntimeStart, heldSlot, freshSlot] at hheld
  live thread slot hslot := by simp [monitorRuntimeStart] at hslot
  dormant thread slot hheld := by simp [monitorRuntimeStart, heldSlot, freshSlot] at hheld
  unused slot _ := ⟨rfl, rfl, rfl, rfl, rfl⟩
  unclaimed slot _ := rfl
  consumer slot hslot := by simp [monitorRuntimeStart, consumerSlot] at hslot

end RuntimeMonitor.SlotOwnership
