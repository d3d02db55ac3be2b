import RuntimeMonitor.EventRecord
import RuntimeMonitor.BoundedFifo
import Mathlib.Logic.Function.Basic

/-!
The single-producer single-consumer ring buffer at the granularity of its
shared-memory accesses. One producer repeats `spsc_ring_buffer_try_push` and one
consumer repeats `spsc_ring_buffer_try_pop`; each call loads its own index,
loads the other index, copies the slot and publishes its index, in four steps
that the other side may separate. Indices are 64-bit and wrap.
-/
namespace RuntimeMonitor.RingBuffer

open TransitionRuns EventRecord

abbrev spscRingCapacity : ℕ := 2048

abbrev spscRingMask : ℕ := spscRingCapacity - 1

structure SpscRingBuffer (α : Type*) where
  head : ℕ
  tail : ℕ
  slots : ℕ → α

/-- Local state of the producer inside `spsc_ring_buffer_try_push`. -/
inductive ProducerPc (α : Type*) where
  | idle
  | loadTail (event : α) (head : ℕ)
  | copySlot (event : α) (head : ℕ)
  | publish (event : α) (head : ℕ)

/-- Local state of the consumer inside `spsc_ring_buffer_try_pop`. -/
inductive ConsumerPc (α : Type*) where
  | idle
  | loadHead (tail : ℕ)
  | copySlot (tail : ℕ)
  | publish (tail : ℕ) (event : α)

structure Spsc (α : Type*) where
  buffer : SpscRingBuffer α
  producer : ProducerPc α
  consumer : ConsumerPc α

/-- `push event` starts a call of the producer; the other two let a side take
its next step (an idle consumer starts its next call). -/
inductive Action (α : Type*) where
  | push (event : α)
  | producer
  | consumer

inductive Obs (α : Type*) where
  | pushed (event : α)
  | refused (event : α)
  | wrote (index : ℕ)
  | copied (event : α)
  | popped (event : α)
  | foundEmpty

variable {α : Type*}

/-- `spsc_ring_buffer_init` sets both indices; the slots keep what they held. -/
def spscRingBufferInit (slots : ℕ → α) : SpscRingBuffer α := ⟨0, 0, slots⟩

def initial (slots : ℕ → α) : Spsc α := ⟨spscRingBufferInit slots, .idle, .idle⟩

/-- `head - tail` on `uint64_t`. -/
def occupancy (head tail : ℕ) : ℕ := (head + 2 ^ 64 - tail) % 2 ^ 64

/-- One step of `spsc_ring_buffer_try_push` after its first load. -/
def tryPush (b : SpscRingBuffer α) : ProducerPc α →
    Option (SpscRingBuffer α × ProducerPc α × List (Obs α))
  | .idle => none
  | .loadTail event head =>
      if occupancy head b.tail ≥ spscRingCapacity then some (b, .idle, [.refused event])
      else some (b, .copySlot event head, [])
  | .copySlot event head =>
      some ({ b with slots := Function.update b.slots (head &&& spscRingMask) event },
        .publish event head, [.wrote (head &&& spscRingMask)])
  | .publish event head =>
      some ({ b with head := succ64 head }, .idle, [.pushed event])

/-- One step of `spsc_ring_buffer_try_pop`. -/
def tryPop (b : SpscRingBuffer α) : ConsumerPc α →
    SpscRingBuffer α × ConsumerPc α × List (Obs α)
  | .idle => (b, .loadHead b.tail, [])
  | .loadHead tail =>
      if tail = b.head then (b, .idle, [.foundEmpty]) else (b, .copySlot tail, [])
  | .copySlot tail =>
      (b, .publish tail (b.slots (tail &&& spscRingMask)),
        [.copied (b.slots (tail &&& spscRingMask))])
  | .publish tail event => ({ b with tail := succ64 tail }, .idle, [.popped event])

def step : Stepper (Spsc α) (Action α) (Obs α)
  | s, .push event =>
      match s.producer with
      | .idle => some ({ s with producer := .loadTail event s.buffer.head }, [])
      | _ => none
  | s, .producer =>
      (tryPush s.buffer s.producer).map fun r =>
        ({ s with buffer := r.1, producer := r.2.1 }, r.2.2)
  | s, .consumer =>
      let r := tryPop s.buffer s.consumer
      some ({ s with buffer := r.1, consumer := r.2.1 }, r.2.2)

/-- The events whose push returned true. -/
def accepted (tr : List (Obs α)) : List α :=
  tr.filterMap fun | .pushed event => some event | _ => none

/-- The events that a pop returned. -/
def popped (tr : List (Obs α)) : List α :=
  tr.filterMap fun | .popped event => some event | _ => none

/-- The events that the consumer has copied out of their slots. -/
def copied (tr : List (Obs α)) : List α :=
  tr.filterMap fun | .copied event => some event | _ => none

/-- A slot holds an accepted event that the consumer has not read yet. -/
def HoldsUnread (tr : List (Obs α)) (index : ℕ) : Prop :=
  ∃ k, (copied tr).length ≤ k ∧ k < (accepted tr).length ∧ k % spscRingCapacity = index

@[simp] theorem accepted_append (tr tr' : List (Obs α)) :
    accepted (tr ++ tr') = accepted tr ++ accepted tr' := by
  simp [accepted]

@[simp] theorem popped_append (tr tr' : List (Obs α)) :
    popped (tr ++ tr') = popped tr ++ popped tr' := by
  simp [popped]

@[simp] theorem copied_append (tr tr' : List (Obs α)) :
    copied (tr ++ tr') = copied tr ++ copied tr' := by
  simp [copied]

end RuntimeMonitor.RingBuffer
