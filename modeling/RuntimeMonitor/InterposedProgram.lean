import RuntimeMonitor.InterposedCalls
import RuntimeMonitor.RuntimeAccounts

/-!
A program whose threads call the interposed functions, over the real mutexes and the
runtime. A call is split into its steps: the emission of LOCK_REQUEST, the real lock and
the emission of its result; the real unlock and the emission of its result. The mutexes
are ordinary ones: a lock call does not return while another thread holds the mutex, an
unlock succeeds for the owner only, and a call that fails changes nothing.
-/
namespace RuntimeMonitor.InterposedProgram

open TransitionRuns EventRecord MonitorRuntime InterposedCalls

/-- The owner of a locked mutex and the number of levels it holds. -/
structure MutexHolder where
  owner : ℕ
  levels : ℕ
  positive : 0 < levels
  deriving DecidableEq, Repr

/-- The position of a thread in the interposed functions, outside their emissions. -/
inductive CallPc where
  | outside
  | requesting (mutex : ℕ)
  | locked (mutex : ℕ) (rc : ℤ)
  | unlocked (mutex : ℕ) (rc : ℤ)
  deriving DecidableEq, Repr

structure Program where
  runtime : Runtime
  mutexes : ℕ → Option MutexHolder := fun _ => none
  calls : ℕ → CallPc := fun _ => .outside

/-- The threads have made no call. -/
def programStart (maxHoldNs : ℕ) : Program := { runtime := monitorRuntimeStart maxHoldNs }

inductive ProgramAction where
  | lock (thread mutex : ℕ)
  | lockReturns (thread : ℕ) (rc : ℤ)
  | unlock (thread mutex : ℕ) (rc : ℤ)
  | report (thread : ℕ)
  | producer (thread : ℕ) (environment : Environment)
  | consumer
  deriving DecidableEq, Repr

inductive ProgramObservation where
  | runtime (observation : Observation)
  | lockReturned (thread mutex : ℕ) (rc : ℤ)
  | unlockReturned (thread mutex : ℕ) (rc : ℤ)
  deriving DecidableEq, Repr

def MutexHolder.deepen (holder : MutexHolder) : MutexHolder :=
  ⟨holder.owner, holder.levels + 1, Nat.succ_pos _⟩

def MutexHolder.release (holder : MutexHolder) : Option MutexHolder :=
  if h : 1 < holder.levels then some ⟨holder.owner, holder.levels - 1, Nat.sub_pos_of_lt h⟩
  else none

/-- The mutex after the real lock has returned `rc`. No owner of an ordinary mutex dies. -/
def realPthreadMutexLock (mutex : Option MutexHolder) (thread : ℕ) (rc : ℤ) :
    Option (Option MutexHolder) :=
  if rc = eOwnerDead then none
  else
    match mutex with
    | none => some (if rc = 0 then some ⟨thread, 1, Nat.one_pos⟩ else none)
    | some holder =>
      if holder.owner = thread then some (if rc = 0 then some holder.deepen else some holder)
      else none

/-- The mutex after the real unlock has returned `rc`. -/
def realPthreadMutexUnlock (mutex : Option MutexHolder) (thread : ℕ) (rc : ℤ) :
    Option (Option MutexHolder) :=
  if rc = 0 then
    match mutex with
    | none => none
    | some holder => if holder.owner = thread then some holder.release else none
  else some mutex

/-- The levels of a mutex that the thread holds. -/
def levelsOf (mutex : Option MutexHolder) (thread : ℕ) : ℕ :=
  match mutex with
  | some holder => if holder.owner = thread then holder.levels else 0
  | none => 0

namespace Program

variable (p : Program) (thread mutex : ℕ)

def goto (call : CallPc) : Program := { p with calls := Function.update p.calls thread call }

def setMutex (holder : Option MutexHolder) : Program :=
  { p with mutexes := Function.update p.mutexes mutex holder }

/-- The thread calls `monitor_runtime_emit` and goes on from there. -/
def emit (request : EmitRequest) (call : CallPc) : Option (Program × List ProgramObservation) :=
  (monitorRuntimeEmit p.runtime thread request).map fun made =>
    ({ p.goto thread call with runtime := made.1 }, made.2.map .runtime)

def levels : ℕ := levelsOf (p.mutexes mutex) thread

end Program

def programStep (gettid : ℕ → ℕ) : Stepper Program ProgramAction ProgramObservation
  | p, .lock thread mutex =>
    if p.calls thread = .outside then p.emit thread (lockRequest mutex) (.requesting mutex)
    else none
  | p, .lockReturns thread rc =>
    match p.calls thread with
    | .requesting mutex =>
      if (p.runtime.threads thread).pc = .outside then
        (realPthreadMutexLock (p.mutexes mutex) thread rc).map fun holder =>
          ((p.setMutex mutex holder).goto thread (.locked mutex rc),
            [.lockReturned thread mutex rc])
      else none
    | _ => none
  | p, .unlock thread mutex rc =>
    if p.calls thread = .outside ∧ (p.runtime.threads thread).pc = .outside then
      (realPthreadMutexUnlock (p.mutexes mutex) thread rc).map fun holder =>
        ((p.setMutex mutex holder).goto thread (.unlocked mutex rc),
          [.unlockReturned thread mutex rc])
    else none
  | p, .report thread =>
    match p.calls thread with
    | .locked mutex rc => p.emit thread (lockReturned mutex rc) .outside
    | .unlocked mutex rc => p.emit thread (unlockReturned mutex rc) .outside
    | _ => none
  | p, .producer thread environment =>
    (producerStep gettid p.runtime thread environment).map fun made =>
      ({ p with runtime := made.1 }, made.2.map .runtime)
  | p, .consumer =>
    (consumerStep p.runtime).map fun made =>
      ({ p with runtime := made.1 }, made.2.map .runtime)

/-- What the runtime has done in a run of the program. -/
def runtimeTrace (tr : List ProgramObservation) : List Observation :=
  tr.filterMap fun | .runtime o => some o | _ => none

/-- The calls of a thread that have returned from the real function. -/
def callsOf (thread : ℕ) (tr : List ProgramObservation) : List InterposedCall :=
  tr.filterMap fun
    | .lockReturned thread' mutex rc => if thread' = thread then some (.lock mutex rc) else none
    | .unlockReturned thread' mutex rc =>
      if thread' = thread then some (.unlock mutex rc) else none
    | .runtime _ => none

/-- The mutex of a lock call that has not returned from the real function. -/
def CallPc.entered : CallPc → Option ℕ
  | .requesting mutex => some mutex
  | _ => none

/-- The result that a call has not handed over to the runtime. -/
def CallPc.unreported : CallPc → List EmitRequest
  | .locked mutex rc => [lockReturned mutex rc]
  | .unlocked mutex rc => [unlockReturned mutex rc]
  | _ => []

end RuntimeMonitor.InterposedProgram
