import RuntimeMonitor.InterposedProgram
import RuntimeMonitor.LosslessRuns

/-!
What a run of the program emits. The requests that the runtime has numbered for a
thread, those it still has to number and the result that the thread has not handed over
are the emissions of the thread's calls, and the real mutexes hold what these calls own.
-/
namespace RuntimeMonitor.ProgramStreams

open TransitionRuns EventRecord MonitorRuntime RuntimeSteps SlotOwnership RuntimeStreams
open EventNumbers RuntimeAccounts GapDetection LosslessRuns InterposedCalls InterposedProgram

/-- A position outside the runtime gives a request to the runtime and goes on. -/
inductive Hands : CallPc → EmitRequest → CallPc → Prop
  | request (mutex : ℕ) : Hands .outside (lockRequest mutex) (.requesting mutex)
  | locked (mutex : ℕ) (rc : ℤ) : Hands (.locked mutex rc) (lockReturned mutex rc) .outside
  | unlocked (mutex : ℕ) (rc : ℤ) : Hands (.unlocked mutex rc) (unlockReturned mutex rc) .outside

/-- Everything that one step of the program can do. -/
inductive ProgramMove (gettid : ℕ → ℕ) (p : Program) : Program → List ProgramObservation → Prop
  | emitted {thread : ℕ} {request : EmitRequest} {call : CallPc} {rt : Runtime}
      {os : List Observation} (hcall : Hands (p.calls thread) request call)
      (hemit : monitorRuntimeEmit p.runtime thread request = some (rt, os)) :
      ProgramMove gettid p { p.goto thread call with runtime := rt } (os.map .runtime)
  | lockReturned {thread mutex : ℕ} {rc : ℤ} {holder : Option MutexHolder}
      (hcall : p.calls thread = .requesting mutex)
      (hpc : (p.runtime.threads thread).pc = .outside)
      (hreal : realPthreadMutexLock (p.mutexes mutex) thread rc = some holder) :
      ProgramMove gettid p ((p.setMutex mutex holder).goto thread (.locked mutex rc))
        [.lockReturned thread mutex rc]
  | unlockReturned {thread mutex : ℕ} {rc : ℤ} {holder : Option MutexHolder}
      (hcall : p.calls thread = .outside) (hpc : (p.runtime.threads thread).pc = .outside)
      (hreal : realPthreadMutexUnlock (p.mutexes mutex) thread rc = some holder) :
      ProgramMove gettid p ((p.setMutex mutex holder).goto thread (.unlocked mutex rc))
        [.unlockReturned thread mutex rc]
  | produced {thread : ℕ} {environment : Environment} {rt : Runtime} {os : List Observation}
      (hstep : producerStep gettid p.runtime thread environment = some (rt, os)) :
      ProgramMove gettid p { p with runtime := rt } (os.map .runtime)
  | consumed {rt : Runtime} {os : List Observation}
      (hstep : consumerStep p.runtime = some (rt, os)) :
      ProgramMove gettid p { p with runtime := rt } (os.map .runtime)

/-- What a thread still has to number after the event it is emitting. -/
def afterRequests : AfterEmission → List EmitRequest
  | .emit request => [request]
  | .leave | .close => []

/-- What the runtime has to number for a thread whose registration has not failed. -/
def unreserved (locals : ThreadLocals) : List EmitRequest :=
  match locals.pc with
  | .outside => if locals.tlsContext = none then [threadStart] else []
  | .loadSlot request | .exchangeSlot request _ | .initialise request _ => [threadStart, request]
  | .activate request _ | .setKey request _ => [threadStart, request]
  | .reserve _ request after => request :: afterRequests after
  | .countGenerated _ _ after | .push _ _ after | .countDropped _ after => afterRequests after
  | .refuse _ => [threadStart]
  | .leave _ | .close _ => []

/-- The requests of a thread that have got their numbers. -/
def reservedBy (thread : ℕ) (tr : List Observation) : List EmitRequest :=
  tr.filterMap fun
    | .reserved thread' _ event => if thread' = thread then some (requestOf event) else none
    | _ => none

/-- A thread whose registration has failed. -/
def Refusing (locals : ThreadLocals) : Prop :=
  locals.tlsContext = none ∧ (locals.pc = .outside ∨ ∃ request, locals.pc = .refuse request)

/-- One step of a thread inside the runtime. -/
structure ProducerMoved (rt rt' : Runtime) (thread : ℕ) (os : List Observation) : Prop where
  others : ∀ other, other ≠ thread → rt'.threads other = rt.threads other
  accepting : rt'.acceptEvents = rt.acceptEvents
  external : (rt'.threads thread).tlsInternalThread = (rt.threads thread).tlsInternalThread
  opened : closing (rt'.threads thread).pc = false
  failed : (rt'.threads thread).tlsRegistrationFailed = true → Refusing (rt'.threads thread)
  clean : (rt'.threads thread).tlsRegistrationFailed = false →
    (rt.threads thread).tlsRegistrationFailed = false
  requests : (rt'.threads thread).tlsRegistrationFailed = false →
    reservedBy thread os ++ unreserved (rt'.threads thread) = unreserved (rt.threads thread)
  silent : ∀ other, other ≠ thread → reservedBy other os = []
  held : claimants os = [] ∧ heldSlot (rt'.threads thread) = heldSlot (rt.threads thread) ∨
    claimants os = [thread] ∧ heldSlot (rt.threads thread) = none ∧
      heldSlot (rt'.threads thread) = some rt.nextThreadSlot

/-- The emissions and the real calls of a run agree. -/
structure Traced (p : Program) (tr : List ProgramObservation) : Prop where
  accepting : p.runtime.acceptEvents = true
  external : ∀ thread, (p.runtime.threads thread).tlsInternalThread = false
  opened : ∀ thread, closing (p.runtime.threads thread).pc = false
  failed : ∀ thread, (p.runtime.threads thread).tlsRegistrationFailed = true →
    Refusing (p.runtime.threads thread)
  held : ∀ thread slot, (claimants (runtimeTrace tr))[slot]? = some thread →
    heldSlot (p.runtime.threads thread) = some slot
  stream : ∀ thread, (p.runtime.threads thread).tlsRegistrationFailed = false →
    reservedBy thread (runtimeTrace tr) ++ unreserved (p.runtime.threads thread) ++
      (p.calls thread).unreported = emissions (callsOf thread tr) (p.calls thread).entered
  still : ∀ thread, (p.calls thread).unreported ≠ [] → (p.runtime.threads thread).pc = .outside
  owned : ∀ thread mutex, p.levels thread mutex = owned (callsOf thread tr) mutex
  alive : ∀ thread mutex, .lock mutex eOwnerDead ∉ callsOf thread tr

variable {gettid : ℕ → ℕ} {maxHoldNs thread mutex slot : ℕ} {rc : ℤ} {p p' : Program}
  {rt rt' : Runtime} {tr os : List ProgramObservation} {request : EmitRequest}

section Projections

theorem runtimeTrace_append (tr os : List ProgramObservation) :
    runtimeTrace (tr ++ os) = runtimeTrace tr ++ runtimeTrace os := List.filterMap_append ..

theorem runtimeTrace_runtime (os : List Observation) :
    runtimeTrace (os.map .runtime) = os := by
  unfold runtimeTrace
  rw [List.filterMap_map]
  exact List.filterMap_some

theorem callsOf_append (thread : ℕ) (tr os : List ProgramObservation) :
    callsOf thread (tr ++ os) = callsOf thread tr ++ callsOf thread os := List.filterMap_append ..

theorem callsOf_runtime (thread : ℕ) (os : List Observation) :
    callsOf thread (os.map .runtime) = [] := by
  unfold callsOf
  rw [List.filterMap_map, List.filterMap_eq_nil_iff]
  exact fun _ _ => rfl

theorem reservedBy_append (thread : ℕ) (tr os : List Observation) :
    reservedBy thread (tr ++ os) = reservedBy thread tr ++ reservedBy thread os :=
  List.filterMap_append ..

theorem emit_made {call : CallPc} (h : p.emit thread request call = some (p', os)) :
    ∃ rt made, monitorRuntimeEmit p.runtime thread request = some (rt, made) ∧
      p' = { p.goto thread call with runtime := rt } ∧ os = made.map .runtime := by
  unfold Program.emit at h
  rw [Option.map_eq_some_iff] at h
  obtain ⟨⟨rt, made⟩, hemit, heq⟩ := h
  cases heq
  exact ⟨rt, made, hemit, rfl, rfl⟩

theorem programStep_move {action : ProgramAction}
    (h : programStep gettid p action = some (p', os)) : ProgramMove gettid p p' os := by
  cases action with
  | lock thread mutex =>
    simp only [programStep] at h
    split at h
    · rename_i hcall
      obtain ⟨rt, made, hemit, rfl, rfl⟩ := emit_made h
      exact .emitted (by rw [hcall]; exact .request mutex) hemit
    · cases h
  | lockReturns thread rc =>
    simp only [programStep] at h
    split at h
    · rename_i mutex hcall
      split at h
      · rename_i hpc
        rw [Option.map_eq_some_iff] at h
        obtain ⟨holder, hreal, heq⟩ := h
        cases heq
        exact .lockReturned hcall hpc hreal
      · cases h
    · cases h
  | unlock thread mutex rc =>
    simp only [programStep] at h
    split at h
    · rename_i hboth
      rw [Option.map_eq_some_iff] at h
      obtain ⟨holder, hreal, heq⟩ := h
      cases heq
      exact .unlockReturned hboth.1 hboth.2 hreal
    · cases h
  | report thread =>
    simp only [programStep] at h
    split at h
    · rename_i mutex rc hcall
      obtain ⟨rt, made, hemit, rfl, rfl⟩ := emit_made h
      exact .emitted (by rw [hcall]; exact .locked mutex rc) hemit
    · rename_i mutex rc hcall
      obtain ⟨rt, made, hemit, rfl, rfl⟩ := emit_made h
      exact .emitted (by rw [hcall]; exact .unlocked mutex rc) hemit
    · cases h
  | producer thread environment =>
    simp only [programStep, Option.map_eq_some_iff] at h
    obtain ⟨⟨rt, made⟩, hstep, heq⟩ := h
    cases heq
    exact .produced hstep
  | consumer =>
    simp only [programStep, Option.map_eq_some_iff] at h
    obtain ⟨⟨rt, made⟩, hstep, heq⟩ := h
    cases heq
    exact .consumed hstep

/-- A step of the program is a step of the runtime or leaves the runtime alone. -/
theorem ProgramMove.runtime (h : ProgramMove gettid p p' os) :
    Run (step gettid) p.runtime (runtimeTrace os) p'.runtime := by
  cases h with
  | @emitted thread request call rt made hcall hemit =>
    rw [runtimeTrace_runtime]
    have hstep : step gettid p.runtime (.call thread request) = some (rt, made) := hemit
    exact Run.single hstep
  | lockReturned hcall hpc hreal => exact Run.nil _
  | unlockReturned hcall hpc hreal => exact Run.nil _
  | @produced thread environment rt made hstep =>
    rw [runtimeTrace_runtime]
    have hproducer : step gettid p.runtime (.producer thread environment) = some (rt, made) :=
      hstep
    exact Run.single hproducer
  | @consumed rt made hstep =>
    rw [runtimeTrace_runtime]
    have hconsumer : step gettid p.runtime .consumer = some (rt, made) := hstep
    exact Run.single hconsumer

/-- The runtime in a run of the program makes a run of its own. -/
theorem runtime_run (hrun : Run (programStep gettid) p tr p') :
    Run (step gettid) p.runtime (runtimeTrace tr) p'.runtime := by
  have hstep : ∀ q rt action q' os, Program.runtime q = rt →
      programStep gettid q action = some (q', os) →
      ∃ rt', Run (step gettid) rt (runtimeTrace os) rt' ∧ q'.runtime = rt' := by
    rintro q rt action q' os rfl hstep
    exact ⟨q'.runtime, (programStep_move hstep).runtime, rfl⟩
  obtain ⟨rt, hruntime, rfl⟩ := hrun.simulate (fun p rt => p.runtime = rt) _ hstep rfl
  exact hruntime

end Projections

section Steps

theorem consumer_threads {os : List Observation} (h : consumerStep rt = some (rt', os)) :
    rt'.threads = rt.threads ∧ rt'.acceptEvents = rt.acceptEvents ∧ claimants os = [] ∧
      ∀ thread, reservedBy thread os = [] := by
  unfold consumerStep at h
  cases hpc : rt.consumer with
  | loadCount | process round popped event | account round popped | check =>
    simp only [hpc] at h
    cases h
    exact ⟨rfl, rfl, rfl, fun _ => rfl⟩
  | poll round =>
    simp only [hpc] at h
    repeat' split at h
    all_goals
      cases h
      exact ⟨rfl, rfl, rfl, fun _ => rfl⟩
  | drain round popped =>
    simp only [hpc] at h
    repeat' split at h
    all_goals
      cases h
      exact ⟨rfl, rfl, rfl, fun _ => rfl⟩
  | loadRunning consumedAny =>
    simp only [hpc] at h
    split at h
    all_goals
      cases h
      exact ⟨rfl, rfl, rfl, fun _ => rfl⟩
  | returned => simp [hpc] at h

/-- A request handed over is one more to number, or its thread has failed to register. -/
theorem emit_threads {os : List Observation} (haccept : rt.acceptEvents = true)
    (hexternal : (rt.threads thread).tlsInternalThread = false)
    (h : monitorRuntimeEmit rt thread request = some (rt', os)) :
    (rt.threads thread).pc = .outside ∧ os = [] ∧
      rt' = rt.goto thread (registerCurrentThread (rt.threads thread) request) := by
  unfold monitorRuntimeEmit at h
  dsimp only at h
  split at h
  · cases h
  · rename_i hpc
    rw [not_not] at hpc
    rw [haccept, hexternal, if_neg (by simp)] at h
    cases h
    exact ⟨hpc, rfl, rfl⟩

theorem unreserved_register {locals : ThreadLocals} (hpc : locals.pc = .outside)
    (hclean : locals.tlsRegistrationFailed = false) (request : EmitRequest) :
    unreserved { locals with pc := registerCurrentThread locals request } =
      unreserved locals ++ [request] := by
  unfold unreserved registerCurrentThread
  rw [hpc, hclean]
  cases locals.tlsContext with
  | none => rfl
  | some slot => rfl

theorem unreserved_resume {locals : ThreadLocals} (slot : ℕ) (after : AfterEmission) :
    unreserved { locals with pc := after.resume slot } = afterRequests after := by
  cases after <;> rfl

/-- A step that gives out neither a slot nor a number. -/
theorem ProducerMoved.quiet {locals : ThreadLocals} {os : List Observation}
    (hthreads : rt'.threads = Function.update rt.threads thread locals)
    (haccept : rt'.acceptEvents = rt.acceptEvents)
    (hexternal : locals.tlsInternalThread = (rt.threads thread).tlsInternalThread)
    (hopened : closing locals.pc = false)
    (hfailed : locals.tlsRegistrationFailed = true → Refusing locals)
    (hclean : locals.tlsRegistrationFailed = false →
      (rt.threads thread).tlsRegistrationFailed = false ∧
        unreserved locals = unreserved (rt.threads thread))
    (hreserved : ∀ other, reservedBy other os = []) (hclaims : claimants os = [])
    (hheld : heldSlot locals = heldSlot (rt.threads thread)) :
    ProducerMoved rt rt' thread os := by
  have hown : rt'.threads thread = locals := by rw [hthreads, Function.update_self]
  constructor
  · intro other hne
    rw [hthreads, Function.update_of_ne hne]
  · exact haccept
  · rw [hown, hexternal]
  · rw [hown, hopened]
  · rw [hown]
    exact hfailed
  · rw [hown]
    exact fun hflag => (hclean hflag).1
  · rw [hown, hreserved, List.nil_append]
    exact fun hflag => (hclean hflag).2
  · exact fun other _ => hreserved other
  · rw [hown]
    exact Or.inl ⟨hclaims, hheld⟩

theorem producer_moved {environment : Environment} {os : List Observation}
    (hconsistent : Consistent (rt.threads thread))
    (hopened : closing (rt.threads thread).pc = false)
    (hfailed : (rt.threads thread).tlsRegistrationFailed = true → Refusing (rt.threads thread))
    (h : producerStep gettid rt thread environment = some (rt', os)) :
    ProducerMoved rt rt' thread os := by
  have hworking : ∀ pc, (rt.threads thread).pc = pc → pc ≠ .outside →
      (∀ request, pc ≠ .refuse request) → (rt.threads thread).tlsRegistrationFailed = false := by
    intro pc hpc houtside hrefuse
    by_contra hflag
    rw [Bool.not_eq_false] at hflag
    rcases (hfailed hflag).2 with hout | ⟨request, href⟩
    · exact houtside (hpc.symm.trans hout)
    · exact hrefuse request (hpc.symm.trans href)
  unfold producerStep at h
  dsimp only at h
  cases hpc : (rt.threads thread).pc with
  | outside => simp [hpc] at h
  | loadSlot request =>
    have hclean := hworking _ hpc (by simp) (by simp)
    simp only [hpc] at h
    cases h
    refine .quiet rfl rfl rfl rfl ?_ ?_ (fun _ => rfl) rfl ?_
    · simp [hclean]
    · simp [hclean, unreserved, hpc]
    · simp [heldSlot, hpc, freshSlot]
  | exchangeSlot request expected =>
    have hclean := hworking _ hpc (by simp) (by simp)
    have htls := hconsistent.context none (by rw [hpc]; rfl)
    simp only [hpc] at h
    split at h
    · cases h
      refine .quiet rfl rfl rfl rfl ?_ ?_ (fun _ => rfl) rfl ?_
      · exact fun _ => ⟨htls, Or.inr ⟨request, rfl⟩⟩
      · simp
      · simp [heldSlot, hpc, freshSlot]
    · split at h
      · cases h
        refine .quiet rfl rfl rfl rfl ?_ ?_ (fun _ => rfl) rfl ?_
        · simp [hclean]
        · simp [hclean, unreserved, hpc]
        · simp [heldSlot, hpc, freshSlot]
      · rename_i hsame
        simp only [Bool.or_eq_true, decide_eq_true_eq, not_or, not_not] at hsame
        obtain ⟨-, rfl⟩ := hsame
        cases h
        constructor
        · intro other hne
          simp [Function.update_of_ne hne]
        · rfl
        · simp
        · simp [closing]
        · simp [hclean]
        · exact fun _ => hclean
        · simp [reservedBy, unreserved, hpc]
        · exact fun _ _ => rfl
        · right
          simp [claimants, heldSlot, freshSlot, hpc, htls]
  | refuse request =>
    have htls := hconsistent.context none (by rw [hpc]; rfl)
    simp only [hpc] at h
    cases h
    refine .quiet rfl rfl rfl rfl ?_ ?_ (fun _ => rfl) rfl ?_
    · exact fun _ => ⟨htls, Or.inl rfl⟩
    · exact fun hflag => ⟨hflag, by simp [unreserved, hpc, htls]⟩
    · simp [heldSlot, hpc, freshSlot]
  | initialise request slot =>
    have hclean := hworking _ hpc (by simp) (by simp)
    simp only [hpc] at h
    cases h
    refine .quiet rfl rfl rfl rfl ?_ ?_ (fun _ => rfl) rfl ?_
    · simp [hclean]
    · simp [hclean, unreserved, hpc]
    · simp [heldSlot, hpc, freshSlot]
  | activate request slot =>
    have hclean := hworking _ hpc (by simp) (by simp)
    simp only [hpc] at h
    cases h
    refine .quiet rfl rfl rfl rfl ?_ ?_ (fun _ => rfl) rfl ?_
    · simp [hclean]
    · simp [hclean, unreserved, hpc]
    · simp [heldSlot, hpc, freshSlot]
  | setKey request slot =>
    have hclean := hworking _ hpc (by simp) (by simp)
    simp only [hpc] at h
    split at h
    all_goals
      cases h
      refine .quiet rfl rfl rfl rfl ?_ ?_ (fun _ => rfl) rfl ?_
      · simp [hclean]
      · simp [hclean, unreserved, hpc, afterRequests]
      · simp [heldSlot, hpc, freshSlot]
  | reserve slot request after =>
    have hclean := hworking _ hpc (by simp) (by simp)
    rw [hpc] at hopened
    simp only [hpc] at h
    cases h
    constructor
    · intro other hne
      simp [Function.update_of_ne hne]
    · rfl
    · simp
    · simpa [closing] using hopened
    · simp [hclean]
    · exact fun _ => hclean
    · simp [reservedBy, unreserved, hpc, requestOf, buildEvent]
    · intro other hne
      simp [reservedBy, Ne.symm hne]
    · left
      simp [claimants, heldSlot, hpc, freshSlot]
  | countGenerated slot event after =>
    have hclean := hworking _ hpc (by simp) (by simp)
    rw [hpc] at hopened
    simp only [hpc] at h
    cases h
    refine .quiet rfl rfl rfl ?_ ?_ ?_ (fun _ => rfl) rfl ?_
    · simpa [closing] using hopened
    · simp [hclean]
    · simp [hclean, unreserved, hpc]
    · simp [heldSlot, hpc, freshSlot]
  | push slot event after =>
    have hclean := hworking _ hpc (by simp) (by simp)
    have hresume : closing (after.resume slot) = false := by
      rw [closing_resume]
      rw [hpc] at hopened
      exact hopened
    simp only [hpc] at h
    split at h
    · cases h
      refine .quiet rfl rfl rfl hresume ?_ ?_ (fun _ => rfl) rfl ?_
      · simp [hclean]
      · exact fun _ => ⟨hclean, by rw [unreserved_resume]; simp [unreserved, hpc]⟩
      · rw [heldSlot_eq (freshSlot_of_expected (by simp [expectedContext_resume]))]
        simp [heldSlot, hpc, freshSlot]
    · cases h
      rw [hpc] at hopened
      refine .quiet rfl rfl rfl ?_ ?_ ?_ (fun _ => rfl) rfl ?_
      · simpa [closing] using hopened
      · simp [hclean]
      · simp [hclean, unreserved, hpc]
      · simp [heldSlot, hpc, freshSlot]
  | countDropped slot after =>
    have hclean := hworking _ hpc (by simp) (by simp)
    simp only [hpc] at h
    cases h
    refine .quiet rfl rfl rfl ?_ ?_ ?_ (fun _ => rfl) rfl ?_
    · rw [closing_resume]
      rw [hpc] at hopened
      exact hopened
    · simp [hclean]
    · exact fun _ => ⟨hclean, by rw [unreserved_resume]; simp [unreserved, hpc]⟩
    · rw [heldSlot_eq (freshSlot_of_expected (by simp [expectedContext_resume]))]
      simp [heldSlot, hpc, freshSlot]
  | leave slot =>
    have hclean := hworking _ hpc (by simp) (by simp)
    have htls := hconsistent.context (some slot) (by rw [hpc]; rfl)
    simp only [hpc] at h
    cases h
    refine .quiet rfl rfl rfl rfl ?_ ?_ (fun _ => rfl) rfl ?_
    · simp [hclean]
    · simp [hclean, unreserved, hpc, htls]
    · simp [heldSlot, hpc, freshSlot]
  | close slot =>
    rw [hpc] at hopened
    simp [closing] at hopened

theorem Hands.requests {call call' : CallPc} (h : Hands call request call')
    (history : List InterposedCall) (made : List EmitRequest)
    (hstream : made ++ call.unreported = emissions history call.entered) :
    made ++ [request] ++ call'.unreported = emissions history call'.entered := by
  cases h with
  | request mutex =>
    simp only [CallPc.unreported, CallPc.entered, List.append_nil] at hstream ⊢
    rw [hstream, emissions_entered history (some mutex)]
    rfl
  | locked mutex rc | unlocked mutex rc =>
    simp only [CallPc.unreported, CallPc.entered, List.append_nil] at hstream ⊢
    exact hstream

theorem Hands.unreported {call call' : CallPc} (h : Hands call request call') :
    call'.unreported = [] := by
  cases h <;> rfl

theorem levelsOf_locked {before after : Option MutexHolder}
    (hreal : realPthreadMutexLock before thread rc = some after) (other : ℕ) :
    rc ≠ eOwnerDead ∧ levelsOf after other =
      if other = thread ∧ rc = 0 then levelsOf before other + 1 else levelsOf before other := by
  unfold realPthreadMutexLock at hreal
  split at hreal
  · cases hreal
  rename_i hdead
  refine ⟨hdead, ?_⟩
  cases before with
  | none =>
    cases hreal
    by_cases hrc : rc = 0 <;> simp [hrc, levelsOf, eq_comm]
  | some holder =>
    simp only at hreal
    split at hreal
    · rename_i howner
      cases hreal
      subst howner
      by_cases hrc : rc = 0
      · by_cases hother : other = holder.owner <;>
          simp [hrc, hother, levelsOf, MutexHolder.deepen, Ne.symm]
      · simp [hrc]
    · cases hreal

theorem levelsOf_unlocked {before after : Option MutexHolder}
    (hreal : realPthreadMutexUnlock before thread rc = some after) (other : ℕ) :
    levelsOf after other =
      if other = thread ∧ rc = 0 then levelsOf before other - 1 else levelsOf before other := by
  unfold realPthreadMutexUnlock at hreal
  split at hreal
  · rename_i hrc
    cases before with
    | none => cases hreal
    | some holder =>
      simp only at hreal
      split at hreal
      · rename_i howner
        cases hreal
        subst howner
        unfold MutexHolder.release
        by_cases hdeep : 1 < holder.levels
        · by_cases hother : other = holder.owner <;> simp [hrc, hother, hdeep, levelsOf, Ne.symm]
        · have hone : holder.levels - 1 = 0 := by omega
          by_cases hother : other = holder.owner <;>
            simp [hrc, hother, hdeep, levelsOf, hone, Ne.symm]
      · cases hreal
  · rename_i hrc
    cases hreal
    simp [hrc]

/-- A lock call does not return while another thread holds the mutex. -/
theorem lock_excludes {before after : Option MutexHolder} {other : ℕ}
    (hreal : realPthreadMutexLock before thread rc = some after) (hne : other ≠ thread) :
    levelsOf before other = 0 := by
  unfold realPthreadMutexLock at hreal
  split at hreal
  · cases hreal
  cases before with
  | none => rfl
  | some holder =>
    simp only at hreal
    split at hreal
    · rename_i howner
      simp [levelsOf, howner, Ne.symm hne]
    · cases hreal

/-- One thread at a time holds a mutex. -/
theorem levels_unique {first second : ℕ} (h : 0 < p.levels first mutex)
    (h' : 0 < p.levels second mutex) : first = second := by
  unfold Program.levels levelsOf at h h'
  split at h
  · rename_i holder hmutex
    simp only [hmutex] at h'
    split at h
    · rename_i howner
      split at h'
      · rename_i howner'
        rw [← howner, howner']
      · omega
    · omega
  · omega

theorem levels_returned (p : Program) (thread mutex : ℕ) (pc : CallPc)
    (holder : Option MutexHolder) (other address : ℕ) :
    ((p.setMutex mutex holder).goto thread pc).levels other address =
      levelsOf (if address = mutex then holder else p.mutexes address) other := by
  show levelsOf (Function.update p.mutexes mutex holder address) other = _
  rw [Function.update_apply]

/-- A request is handed over to the runtime. -/
theorem Traced.emitted (h : Traced p tr) {call : CallPc} {made : List Observation}
    (hcall : Hands (p.calls thread) request call)
    (hemit : monitorRuntimeEmit p.runtime thread request = some (rt, made)) :
    Traced { p.goto thread call with runtime := rt } (tr ++ made.map .runtime) := by
  obtain ⟨hpc, rfl, rfl⟩ := emit_threads h.accepting (h.external thread) hemit
  rw [List.map_nil, List.append_nil]
  have hthread : ∀ other, other ≠ thread →
      (p.runtime.goto thread (registerCurrentThread (p.runtime.threads thread) request)).threads
        other = p.runtime.threads other := fun other hne => by simp [Function.update_of_ne hne]
  have hcalls : ∀ other, other ≠ thread → (p.goto thread call).calls other = p.calls other :=
    fun other hne => Function.update_of_ne hne ..
  have hown : (p.runtime.goto thread (registerCurrentThread (p.runtime.threads thread)
      request)).threads thread = { p.runtime.threads thread with
        pc := registerCurrentThread (p.runtime.threads thread) request } := by simp
  have hstep : (p.goto thread call).calls thread = call := Function.update_self ..
  constructor
  · exact h.accepting
  · intro other
    by_cases hother : other = thread
    · subst hother
      rw [hown]
      exact h.external other
    · rw [hthread other hother]
      exact h.external other
  · intro other
    by_cases hother : other = thread
    · subst hother
      rw [hown]
      exact closing_register _ _
    · rw [hthread other hother]
      exact h.opened other
  · intro other
    by_cases hother : other = thread
    · subst hother
      rw [hown]
      intro hflag
      have htls := (h.failed other hflag).1
      refine ⟨htls, Or.inr ⟨request, ?_⟩⟩
      have hfailed : (p.runtime.threads other).tlsRegistrationFailed = true := hflag
      show registerCurrentThread _ _ = _
      unfold registerCurrentThread
      rw [htls, hfailed]
      rfl
    · rw [hthread other hother]
      exact h.failed other
  · intro other slot hslot
    by_cases hother : other = thread
    · subst hother
      rw [hown, heldSlot_eq (freshSlot_register _ _)]
      have hheld := h.held other slot hslot
      rwa [heldSlot_eq (by rw [hpc]; rfl)] at hheld
    · rw [hthread other hother]
      exact h.held other slot hslot
  · intro other
    by_cases hother : other = thread
    · subst hother
      rw [hown, hstep]
      intro hflag
      rw [unreserved_register hpc hflag, ← List.append_assoc]
      exact hcall.requests _ _ (h.stream other hflag)
    · rw [hthread other hother, hcalls other hother]
      exact h.stream other
  · intro other
    by_cases hother : other = thread
    · subst hother
      rw [hstep, hcall.unreported]
      exact fun hne => absurd rfl hne
    · rw [hthread other hother, hcalls other hother]
      exact h.still other
  · exact h.owned
  · exact h.alive

/-- The real function of a call returns. -/
theorem Traced.returned (h : Traced p tr) (call : InterposedCall) {pc : CallPc}
    {holder : Option MutexHolder} {o : ProgramObservation}
    (hruntime : runtimeTrace [o] = [])
    (hcall : ∀ other, callsOf other [o] = if other = thread then [call] else [])
    (hpc : (p.runtime.threads thread).pc = .outside)
    (hstream : ∀ history made,
      made ++ (p.calls thread).unreported = emissions history (p.calls thread).entered →
      made ++ pc.unreported = emissions (history ++ [call]) pc.entered)
    (hlevels : ∀ other address, levelsOf (if address = mutex then holder else p.mutexes address)
      other = if other = thread then call.owns address (p.levels other address)
        else p.levels other address)
    (halive : ∀ address, call ≠ .lock address eOwnerDead) :
    Traced ((p.setMutex mutex holder).goto thread pc) (tr ++ [o]) := by
  have htrace : runtimeTrace (tr ++ [o]) = runtimeTrace tr := by
    rw [runtimeTrace_append, hruntime, List.append_nil]
  have hown : callsOf thread (tr ++ [o]) = callsOf thread tr ++ [call] := by
    rw [callsOf_append, hcall, if_pos rfl]
  have hothers : ∀ other, other ≠ thread → callsOf other (tr ++ [o]) = callsOf other tr := by
    intro other hne
    rw [callsOf_append, hcall, if_neg hne, List.append_nil]
  have hcalls : ∀ other, other ≠ thread →
      ((p.setMutex mutex holder).goto thread pc).calls other = p.calls other :=
    fun other hne => Function.update_of_ne hne ..
  have hstep : ((p.setMutex mutex holder).goto thread pc).calls thread = pc :=
    Function.update_self ..
  constructor
  · exact h.accepting
  · exact h.external
  · exact h.opened
  · exact h.failed
  · rw [htrace]
    exact h.held
  · intro other hflag
    rw [htrace]
    by_cases hother : other = thread
    · subst hother
      rw [hstep, hown]
      exact hstream _ _ (h.stream other hflag)
    · rw [hcalls other hother, hothers other hother]
      exact h.stream other hflag
  · intro other
    by_cases hother : other = thread
    · subst hother
      exact fun _ => hpc
    · rw [hcalls other hother]
      exact h.still other
  · intro other address
    rw [levels_returned, hlevels]
    by_cases hother : other = thread
    · subst hother
      rw [hown, owned_snoc, if_pos rfl, h.owned]
    · rw [if_neg hother, hothers other hother, h.owned]
  · intro other address
    by_cases hother : other = thread
    · subst hother
      rw [hown, List.mem_append, List.mem_singleton]
      rintro (hbefore | hlast)
      · exact h.alive other address hbefore
      · exact halive address hlast.symm
    · rw [hothers other hother]
      exact h.alive other address

theorem Traced.lockReturned (h : Traced p tr) {holder : Option MutexHolder}
    (hcall : p.calls thread = .requesting mutex) (hpc : (p.runtime.threads thread).pc = .outside)
    (hreal : realPthreadMutexLock (p.mutexes mutex) thread rc = some holder) :
    Traced ((p.setMutex mutex holder).goto thread (.locked mutex rc))
      (tr ++ [.lockReturned thread mutex rc]) := by
  refine h.returned (.lock mutex rc) rfl ?_ hpc ?_ ?_ ?_
  · intro other
    by_cases hother : other = thread <;> simp [callsOf, hother, Ne.symm]
  · intro history made hstream
    rw [hcall] at hstream
    simp only [CallPc.unreported, CallPc.entered, List.append_nil] at hstream ⊢
    rw [hstream, emissions_snoc, emissions_entered history (some mutex), List.append_assoc]
    rfl
  · intro other address
    rw [owns_lock]
    by_cases haddress : address = mutex
    · subst haddress
      obtain ⟨hdead, hlevels⟩ := levelsOf_locked hreal other
      rw [if_pos rfl, hlevels]
      by_cases hother : other = thread <;> simp [hother, hdead, Program.levels]
    · simp [haddress, Ne.symm haddress, Program.levels]
  · intro address
    simp [(levelsOf_locked hreal thread).1]

theorem Traced.unlockReturned (h : Traced p tr) {holder : Option MutexHolder}
    (hcall : p.calls thread = .outside) (hpc : (p.runtime.threads thread).pc = .outside)
    (hreal : realPthreadMutexUnlock (p.mutexes mutex) thread rc = some holder) :
    Traced ((p.setMutex mutex holder).goto thread (.unlocked mutex rc))
      (tr ++ [.unlockReturned thread mutex rc]) := by
  refine h.returned (.unlock mutex rc) rfl ?_ hpc ?_ ?_ ?_
  · intro other
    by_cases hother : other = thread <;> simp [callsOf, hother, Ne.symm]
  · intro history made hstream
    rw [hcall] at hstream
    simp only [CallPc.unreported, CallPc.entered, List.append_nil] at hstream ⊢
    rw [hstream, emissions_snoc]
    rfl
  · intro other address
    rw [owns_unlock]
    by_cases haddress : address = mutex
    · subst haddress
      rw [if_pos rfl, levelsOf_unlocked hreal other]
      by_cases hother : other = thread <;> simp [hother, Program.levels]
    · simp [haddress, Ne.symm haddress, Program.levels]
  · simp

/-- One step of a thread inside the runtime. -/
theorem Traced.produced (h : Traced p tr) (howned : SlotsOwned p.runtime (runtimeTrace tr))
    {environment : Environment} {made : List Observation}
    (hstep : producerStep gettid p.runtime thread environment = some (rt, made)) :
    Traced { p with runtime := rt } (tr ++ made.map .runtime) := by
  have hmoved := producer_moved (howned.locals thread) (h.opened thread) (h.failed thread) hstep
  have htrace : runtimeTrace (tr ++ made.map .runtime) = runtimeTrace tr ++ made := by
    rw [runtimeTrace_append, runtimeTrace_runtime]
  have hcalls : ∀ other, callsOf other (tr ++ made.map .runtime) = callsOf other tr := by
    intro other
    rw [callsOf_append, callsOf_runtime, List.append_nil]
  constructor
  · exact hmoved.accepting.trans h.accepting
  · intro other
    by_cases hother : other = thread
    · subst hother
      exact hmoved.external.trans (h.external other)
    · rw [hmoved.others other hother]
      exact h.external other
  · intro other
    by_cases hother : other = thread
    · subst hother
      exact hmoved.opened
    · rw [hmoved.others other hother]
      exact h.opened other
  · intro other
    by_cases hother : other = thread
    · subst hother
      exact hmoved.failed
    · rw [hmoved.others other hother]
      exact h.failed other
  · intro other slot hslot
    rw [htrace, claimants_append] at hslot
    rcases hmoved.held with ⟨hnone, hsame⟩ | ⟨hclaimed, hnew⟩
    · rw [hnone, List.append_nil] at hslot
      by_cases hother : other = thread
      · subst hother
        rw [hsame]
        exact h.held other slot hslot
      · rw [hmoved.others other hother]
        exact h.held other slot hslot
    · rw [hclaimed] at hslot
      obtain ⟨hbefore, hafter⟩ := hnew
      have hlength := howned.claimed
      rcases Nat.lt_or_ge slot (claimants (runtimeTrace tr)).length with hlt | hge
      · rw [List.getElem?_append_left hlt] at hslot
        have hheld := h.held other slot hslot
        by_cases hother : other = thread
        · rw [hother, hbefore] at hheld
          cases hheld
        · rw [hmoved.others other hother]
          exact hheld
      · rw [List.getElem?_append_right hge, List.getElem?_singleton] at hslot
        split at hslot
        · cases hslot
          rw [hafter, Option.some.injEq]
          omega
        · cases hslot
  · intro other
    rw [htrace, hcalls, reservedBy_append]
    by_cases hother : other = thread
    · subst hother
      intro hflag
      rw [List.append_assoc (reservedBy other (runtimeTrace tr)), hmoved.requests hflag]
      exact h.stream other (hmoved.clean hflag)
    · rw [hmoved.others other hother, hmoved.silent other hother, List.append_nil]
      exact h.stream other
  · intro other hne
    have houtside := h.still other hne
    by_cases hother : other = thread
    · subst hother
      unfold producerStep at hstep
      simp [houtside] at hstep
    · rw [hmoved.others other hother]
      exact houtside
  · intro other mutex
    rw [hcalls]
    exact h.owned other mutex
  · intro other mutex
    rw [hcalls]
    exact h.alive other mutex

/-- One step of the consumer. -/
theorem Traced.consumed (h : Traced p tr) {made : List Observation}
    (hstep : consumerStep p.runtime = some (rt, made)) :
    Traced { p with runtime := rt } (tr ++ made.map .runtime) := by
  obtain ⟨hthreads, haccept, hclaimants, hreserved⟩ := consumer_threads hstep
  have htrace : runtimeTrace (tr ++ made.map .runtime) = runtimeTrace tr ++ made := by
    rw [runtimeTrace_append, runtimeTrace_runtime]
  have hcalls : ∀ other, callsOf other (tr ++ made.map .runtime) = callsOf other tr := by
    intro other
    rw [callsOf_append, callsOf_runtime, List.append_nil]
  constructor
  · exact haccept.trans h.accepting
  · rw [hthreads]
    exact h.external
  · rw [hthreads]
    exact h.opened
  · rw [hthreads]
    exact h.failed
  · rw [htrace, claimants_append, hclaimants, List.append_nil, hthreads]
    exact h.held
  · intro other
    rw [htrace, hcalls, reservedBy_append, hreserved, List.append_nil, hthreads]
    exact h.stream other
  · rw [hthreads]
    exact h.still
  · intro other mutex
    rw [hcalls]
    exact h.owned other mutex
  · intro other mutex
    rw [hcalls]
    exact h.alive other mutex

end Steps

theorem traced_start (maxHoldNs : ℕ) : Traced (programStart maxHoldNs) [] := by
  constructor
  · rfl
  · exact fun _ => rfl
  · exact fun _ => rfl
  · intro thread hflag
    cases hflag
  · intro thread slot hslot
    simp [runtimeTrace, claimants] at hslot
  · exact fun _ _ => rfl
  · exact fun _ _ => rfl
  · exact fun _ _ => rfl
  · simp [callsOf]

theorem Traced.move (h : Traced p tr) (howned : SlotsOwned p.runtime (runtimeTrace tr))
    (hmove : ProgramMove gettid p p' os) : Traced p' (tr ++ os) := by
  cases hmove with
  | emitted hcall hemit => exact h.emitted hcall hemit
  | lockReturned hcall hpc hreal => exact h.lockReturned hcall hpc hreal
  | unlockReturned hcall hpc hreal => exact h.unlockReturned hcall hpc hreal
  | produced hstep => exact h.produced howned hstep
  | consumed hstep => exact h.consumed hstep

theorem program_reached (hrun : Run (programStep gettid) (programStart maxHoldNs) tr p) :
    Reached gettid maxHoldNs p.runtime (runtimeTrace tr) := reached_run (runtime_run hrun)

/-- In every run of the program the emissions and the real calls agree. -/
theorem traced_run (hrun : Run (programStep gettid) (programStart maxHoldNs) tr p) :
    Traced p tr := by
  induction hrun with
  | nil => exact traced_start maxHoldNs
  | snoc hbefore hlast ih =>
    exact ih.move (program_reached hbefore).owned (programStep_move hlast)

section Slots

variable {before : List Observation}

/-- A number is given out on the slot that its thread has claimed. -/
theorem reserved_claimed (hrun : Run (step gettid) (monitorRuntimeStart maxHoldNs) before rt)
    {event : MonitorEvent} (hmem : .reserved thread slot event ∈ before) :
    (claimants before)[slot]? = some thread := by
  induction hrun with
  | nil => simp at hmem
  | snoc hfirst hlast ih =>
    rcases List.mem_append.mp hmem with hold | hnew
    · exact claimant_append (ih hold) _
    · have howned := (reached_run hfirst).owned
      cases step_transition hlast with
      | reserved hpc timestampNs hevent =>
        simp only [List.mem_singleton, Observation.reserved.injEq] at hnew
        obtain ⟨rfl, rfl, -⟩ := hnew
        exact claimant_append (howned.works slot (by rw [hpc]; rfl)).2.2 _
      | _ => simp at hnew

/-- A thread claims one slot. -/
theorem Traced.one_slot (h : Traced p tr) {slot' : ℕ}
    (hslot : (claimants (runtimeTrace tr))[slot]? = some thread)
    (hslot' : (claimants (runtimeTrace tr))[slot']? = some thread) : slot = slot' := by
  have hheld := h.held thread slot hslot
  rw [h.held thread slot' hslot', Option.some.injEq] at hheld
  exact hheld.symm

/-- The numbered requests of a thread are those on its slot. -/
theorem Traced.reserved_eq (h : Traced p tr)
    (hrun : Run (programStep gettid) (programStart maxHoldNs) tr p)
    (hslot : (claimants (runtimeTrace tr))[slot]? = some thread) :
    (eventsOn reservedEvent slot (runtimeTrace tr)).map requestOf =
      reservedBy thread (runtimeTrace tr) := by
  unfold eventsOn reservedBy
  rw [List.map_filterMap]
  apply List.filterMap_congr
  intro o ho
  cases o with
  | reserved thread' slot' event =>
    have hclaimed := reserved_claimed (runtime_run hrun) ho
    have hiff : slot' = slot ↔ thread' = thread := by
      constructor
      · intro heq
        rw [heq, hslot, Option.some.injEq] at hclaimed
        exact hclaimed.symm
      · intro heq
        rw [heq] at hclaimed
        exact h.one_slot hclaimed hslot
    by_cases heq : thread' = thread <;> simp [reservedEvent, hiff, heq]
  | _ => rfl

theorem Traced.ownId (h : Traced p tr) (hids : Function.Injective gettid)
    (hslot : (claimants (runtimeTrace tr))[slot]? = some thread) :
    OwnId gettid (runtimeTrace tr) slot thread := by
  refine ⟨hslot, ?_⟩
  intro slot' other hother hid
  rw [hids hid] at hother
  exact h.one_slot hother hslot

/-- A thread with a slot has not failed to register. -/
theorem Traced.registered (h : Traced p tr)
    (hslot : (claimants (runtimeTrace tr))[slot]? = some thread) :
    (p.runtime.threads thread).tlsRegistrationFailed = false := by
  by_contra hflag
  rw [Bool.not_eq_false] at hflag
  obtain ⟨htls, hpc⟩ := h.failed thread hflag
  have hheld := h.held thread slot hslot
  rcases hpc with hpc | ⟨request, hpc⟩ <;> simp [heldSlot, hpc, freshSlot, htls] at hheld

end Slots

end RuntimeMonitor.ProgramStreams
