import Mathlib.Algebra.Group.Nat.Defs

/-!
The fixed-size event record that the interceptor emits, the queues carry and
the verifier consumes. Machine integers are natural numbers; a field is below
the bound of its C type in every event the runtime builds.
-/
namespace RuntimeMonitor.EventRecord

/-- `invalid` also stands for every code outside the enumeration: the verifier's
switch sends both to its default branch. -/
inductive MonitorEventType where
  | invalid
  | lockRequest
  | lockAcquired
  | lockFailed
  | unlockRequest
  | unlocked
  | unlockFailed
  | threadStart
  | threadExit
  deriving DecidableEq, Repr

structure MonitorEvent where
  sequenceId : Nat
  timestampNs : Nat
  threadId : Nat
  objectAddress : Nat
  eventType : MonitorEventType
  result : Int
  flags : Nat
  threadSequence : Nat
  deriving DecidableEq, Repr

/-- The lock and unlock events, whose object address is a mutex. -/
def MonitorEventType.namesMutex : MonitorEventType → Bool
  | .lockRequest | .lockAcquired | .lockFailed => true
  | .unlockRequest | .unlocked | .unlockFailed => true
  | .invalid | .threadStart | .threadExit => false

/-- `x + 1` on a `uint32_t` counter. -/
def succ32 (x : Nat) : Nat := (x + 1) % 2 ^ 32

/-- `x + 1` on a `uint64_t` counter. -/
def succ64 (x : Nat) : Nat := (x + 1) % 2 ^ 64

def uint32Max : Nat := 2 ^ 32 - 1

/-- An event of an example run, stamped with its own global sequence. -/
def sampleEvent (sequence thread threadSequence mutex : Nat) (type : MonitorEventType) :
    MonitorEvent :=
  ⟨sequence, sequence, thread, mutex, type, 0, 0, threadSequence⟩

end RuntimeMonitor.EventRecord
