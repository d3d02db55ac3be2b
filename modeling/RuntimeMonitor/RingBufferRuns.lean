import RuntimeMonitor.RingBuffer

/-!
The ring buffer is a bounded FIFO in every interleaving of its steps. The
invariant counts accepted and popped events without wrapping, relates both
counts to the 64-bit indices modulo 2^64 and says which slots still hold events.
Every run of the ring is matched by a run of the abstract bounded queue that
makes the same outcomes at the same moments.
-/
namespace RuntimeMonitor.RingBuffer

open TransitionRuns EventRecord

variable {α : Type*}

/-- What the producer's local copies say about the shared buffer. -/
def ProducerOk (s : Spsc α) (tr : List (Obs α)) : Prop :=
  match s.producer with
  | .idle => True
  | .loadTail _ head => head = s.buffer.head
  | .copySlot _ head => head = s.buffer.head ∧
      (accepted tr).length < (popped tr).length + spscRingCapacity
  | .publish event head => head = s.buffer.head ∧
      (accepted tr).length < (popped tr).length + spscRingCapacity ∧
      s.buffer.slots ((accepted tr).length % spscRingCapacity) = event

/-- What the consumer's local copies say about the shared buffer. -/
def ConsumerOk (s : Spsc α) (tr : List (Obs α)) : Prop :=
  match s.consumer with
  | .idle => copied tr = popped tr
  | .loadHead tail => tail = s.buffer.tail ∧ copied tr = popped tr
  | .copySlot tail => tail = s.buffer.tail ∧ copied tr = popped tr ∧
      (popped tr).length < (accepted tr).length
  | .publish tail event => tail = s.buffer.tail ∧ copied tr = popped tr ++ [event] ∧
      (accepted tr)[(popped tr).length]? = some event

structure Inv (s : Spsc α) (tr : List (Obs α)) : Prop where
  head_eq : s.buffer.head = (accepted tr).length % 2 ^ 64
  tail_eq : s.buffer.tail = (popped tr).length % 2 ^ 64
  popped_prefix : popped tr <+: accepted tr
  bounded : (accepted tr).length ≤ (popped tr).length + spscRingCapacity
  slot_holds : ∀ k event, (popped tr).length ≤ k → (accepted tr)[k]? = some event →
    s.buffer.slots (k % spscRingCapacity) = event
  producer_ok : ProducerOk s tr
  consumer_ok : ConsumerOk s tr

theorem inv_initial (slots : ℕ → α) : Inv (initial slots) ([] : List (Obs α)) where
  head_eq := rfl
  tail_eq := rfl
  popped_prefix := List.prefix_refl _
  bounded := Nat.zero_le _
  slot_holds := by simp [accepted]
  producer_ok := trivial
  consumer_ok := rfl

/-- The mask selects the same slot whether or not the index has wrapped. -/
theorem masked_index (n : ℕ) : n % 2 ^ 64 &&& spscRingMask = n % spscRingCapacity := by
  have hmask : n % 2 ^ 64 &&& spscRingMask = n % 2 ^ 64 % 2 ^ 11 :=
    Nat.and_two_pow_sub_one_eq_mod (n % 2 ^ 64) 11
  simp only [spscRingCapacity]
  omega

theorem succ64_mod (n : ℕ) : succ64 (n % 2 ^ 64) = (n + 1) % 2 ^ 64 := by
  unfold succ64
  omega

/-- The wrapped difference of the indices is the real difference of the counts. -/
theorem occupancy_eq {a p : ℕ} (hp : p ≤ a) (ha : a ≤ p + spscRingCapacity) :
    occupancy (a % 2 ^ 64) (p % 2 ^ 64) = a - p := by
  unfold occupancy
  simp only [spscRingCapacity] at ha
  omega

/-- Where each kind of observation comes from: the local state that makes it. -/
inductive ObsSource (s : Spsc α) : Obs α → Prop
  | refused (event : α) (head : ℕ) : s.producer = .loadTail event head →
      occupancy head s.buffer.tail ≥ spscRingCapacity → ObsSource s (.refused event)
  | wrote (event : α) (head : ℕ) : s.producer = .copySlot event head →
      ObsSource s (.wrote (head &&& spscRingMask))
  | pushed (event : α) (head : ℕ) : s.producer = .publish event head →
      ObsSource s (.pushed event)
  | foundEmpty (tail : ℕ) : s.consumer = .loadHead tail → tail = s.buffer.head →
      ObsSource s .foundEmpty
  | copied (tail : ℕ) : s.consumer = .copySlot tail →
      ObsSource s (.copied (s.buffer.slots (tail &&& spscRingMask)))
  | popped (event : α) (tail : ℕ) : s.consumer = .publish tail event →
      ObsSource s (.popped event)

theorem obs_source {s s' : Spsc α} {a : Action α} {os : List (Obs α)} {o : Obs α}
    (hstep : step s a = some (s', os)) (hmem : o ∈ os) : ObsSource s o := by
  cases a with
  | push event =>
    simp only [step] at hstep
    split at hstep
    · cases hstep
      simp at hmem
    · simp at hstep
  | producer =>
    simp only [step, Option.map_eq_some_iff, Prod.mk.injEq] at hstep
    obtain ⟨⟨b, pc, os'⟩, hpush, rfl, rfl⟩ := hstep
    cases hpc : s.producer with
    | idle => simp [tryPush, hpc] at hpush
    | loadTail event head =>
      simp only [tryPush, hpc] at hpush
      split at hpush
      · rename_i hfull
        cases hpush
        rw [List.mem_singleton.mp hmem]
        exact .refused event head hpc hfull
      · cases hpush
        simp at hmem
    | copySlot event head =>
      simp only [tryPush, hpc, Option.some.injEq, Prod.mk.injEq] at hpush
      rw [← hpush.2.2, List.mem_singleton] at hmem
      exact hmem ▸ .wrote event head hpc
    | publish event head =>
      simp only [tryPush, hpc, Option.some.injEq, Prod.mk.injEq] at hpush
      rw [← hpush.2.2, List.mem_singleton] at hmem
      exact hmem ▸ .pushed event head hpc
  | consumer =>
    simp only [step, Option.some.injEq, Prod.mk.injEq] at hstep
    obtain ⟨-, rfl⟩ := hstep
    cases hpc : s.consumer with
    | idle => simp [tryPop, hpc] at hmem
    | loadHead tail =>
      by_cases heq : tail = s.buffer.head
      · simp only [tryPop, hpc, heq, if_true, List.mem_singleton] at hmem
        exact hmem ▸ .foundEmpty tail hpc heq
      · simp [tryPop, hpc, heq] at hmem
    | copySlot tail =>
      simp only [tryPop, hpc, List.mem_singleton] at hmem
      exact hmem ▸ .copied tail hpc
    | publish tail event =>
      simp only [tryPop, hpc, List.mem_singleton] at hmem
      exact hmem ▸ .popped event tail hpc

namespace Inv

variable {s s' : Spsc α} {tr : List (Obs α)}

theorem popped_le (h : Inv s tr) : (popped tr).length ≤ (accepted tr).length :=
  h.popped_prefix.length_le

theorem occupancy_eq (h : Inv s tr) :
    occupancy s.buffer.head s.buffer.tail = (accepted tr).length - (popped tr).length := by
  rw [h.head_eq, h.tail_eq]
  exact RingBuffer.occupancy_eq h.popped_le h.bounded

/-- Equal indices mean an empty buffer. -/
theorem index_eq_iff (h : Inv s tr) :
    s.buffer.tail = s.buffer.head ↔ (popped tr).length = (accepted tr).length := by
  have hle := h.popped_le
  have hcap := h.bounded
  simp only [spscRingCapacity] at hcap
  rw [h.head_eq, h.tail_eq]
  omega

theorem popped_eq_accepted (h : Inv s tr)
    (hlen : (popped tr).length = (accepted tr).length) : popped tr = accepted tr :=
  h.popped_prefix.eq_of_length hlen

/-- The unread events are among the unreleased ones. -/
theorem copied_length (h : Inv s tr) :
    (popped tr).length ≤ (copied tr).length ∧
      (copied tr).length ≤ (popped tr).length + 1 := by
  have hc := h.consumer_ok
  unfold ConsumerOk at hc
  split at hc <;> simp_all

/-- The slot about to be written lies outside the window of unreleased events. -/
theorem free_slot (h : Inv s tr)
    (hroom : (accepted tr).length < (popped tr).length + spscRingCapacity) (k : ℕ)
    (hk : (popped tr).length ≤ k) (hk' : k < (accepted tr).length) :
    k % spscRingCapacity ≠ (accepted tr).length % spscRingCapacity := by
  have hle := h.popped_le
  simp only [spscRingCapacity] at hroom ⊢
  omega

/-- Observations that neither accept, release nor copy an event do not matter. -/
theorem congr_trace {tr' : List (Obs α)} (h : Inv s tr) (hacc : accepted tr' = accepted tr)
    (hpop : popped tr' = popped tr) (hcop : copied tr' = copied tr) : Inv s tr' := by
  obtain ⟨hhead, htail, hinitial, hbound, hslots, hproducer, hconsumer⟩ := h
  refine ⟨by rwa [hacc], by rwa [hpop], by rwa [hacc, hpop], by rwa [hacc, hpop],
    by rwa [hacc, hpop], ?_, ?_⟩
  · unfold ProducerOk at hproducer ⊢
    rwa [hacc, hpop]
  · unfold ConsumerOk at hconsumer ⊢
    rwa [hacc, hpop, hcop]

theorem push_start (h : Inv s tr) (event : α) :
    Inv { s with producer := .loadTail event s.buffer.head } tr := by
  obtain ⟨hhead, htail, hinitial, hbound, hslots, -, hconsumer⟩ := h
  exact ⟨hhead, htail, hinitial, hbound, hslots, rfl, hconsumer⟩

section Producer

variable {buffer : SpscRingBuffer α} {consumer : ConsumerPc α} {event : α} {head : ℕ}

theorem producer_loadTail (h : Inv ⟨buffer, .loadTail event head, consumer⟩ tr)
    (hroom : ¬ occupancy head buffer.tail ≥ spscRingCapacity) :
    Inv ⟨buffer, .copySlot event head, consumer⟩ tr := by
  have hhead : head = buffer.head := h.producer_ok
  have hocc : occupancy buffer.head buffer.tail = _ := h.occupancy_eq
  have hle := h.popped_le
  refine { h with producer_ok := ⟨hhead, ?_⟩ }
  rw [hhead, hocc] at hroom
  simp only [spscRingCapacity] at hroom ⊢
  omega

theorem producer_copySlot (h : Inv ⟨buffer, .copySlot event head, consumer⟩ tr) :
    Inv ⟨{ buffer with slots := Function.update buffer.slots (head &&& spscRingMask) event },
      .publish event head, consumer⟩ tr := by
  have hproducer : head = buffer.head ∧
      (accepted tr).length < (popped tr).length + spscRingCapacity := h.producer_ok
  obtain ⟨hhead, hroom⟩ := hproducer
  have hindex : head &&& spscRingMask = (accepted tr).length % spscRingCapacity := by
    rw [hhead, show buffer.head = _ from h.head_eq, masked_index]
  refine ⟨h.head_eq, h.tail_eq, h.popped_prefix, h.bounded, ?_, ⟨hhead, hroom, ?_⟩,
    h.consumer_ok⟩
  · intro k e hk he
    have hk' : k < (accepted tr).length := (List.getElem?_eq_some_iff.mp he).1
    have hne := h.free_slot hroom k hk hk'
    simp only [hindex, Function.update_of_ne hne]
    exact h.slot_holds k e hk he
  · simp only [hindex, Function.update_self]

theorem producer_publish (h : Inv ⟨buffer, .publish event head, consumer⟩ tr) :
    Inv ⟨{ buffer with head := succ64 head }, .idle, consumer⟩ (tr ++ [.pushed event]) := by
  have hproducer : head = buffer.head ∧
      (accepted tr).length < (popped tr).length + spscRingCapacity ∧
      buffer.slots ((accepted tr).length % spscRingCapacity) = event := h.producer_ok
  obtain ⟨hhead, hroom, hslot⟩ := hproducer
  have hacc : accepted (tr ++ [Obs.pushed event]) = accepted tr ++ [event] := by simp [accepted]
  have hpop : popped (tr ++ [Obs.pushed event]) = popped tr := by simp [popped]
  have hcop : copied (tr ++ [Obs.pushed event]) = copied tr := by simp [copied]
  refine ⟨?_, by rw [hpop]; exact h.tail_eq, ?_, ?_, ?_, trivial, ?_⟩
  · change succ64 head = _
    rw [hacc, hhead, show buffer.head = _ from h.head_eq, succ64_mod, List.length_append,
      List.length_singleton]
  · rw [hacc, hpop]
    exact h.popped_prefix.trans (List.prefix_append _ _)
  · rw [hacc, hpop, List.length_append, List.length_singleton]
    omega
  · intro k e hk he
    rw [hpop] at hk
    rw [hacc] at he
    by_cases hlast : k < (accepted tr).length
    · rw [List.getElem?_append_left hlast] at he
      exact h.slot_holds k e hk he
    · have hlen := (List.getElem?_eq_some_iff.mp he).1
      simp only [List.length_append, List.length_singleton] at hlen
      have hk' : k = (accepted tr).length := by omega
      subst hk'
      simp only [List.getElem?_concat_length, Option.some.injEq] at he
      exact he ▸ hslot
  · have hc := h.consumer_ok
    unfold ConsumerOk at hc ⊢
    rw [hacc, hpop, hcop]
    cases consumer with
    | idle => exact hc
    | loadHead tail => exact hc
    | copySlot tail =>
      refine ⟨hc.1, hc.2.1, ?_⟩
      rw [List.length_append]
      exact Nat.lt_add_right _ hc.2.2
    | publish tail e =>
      refine ⟨hc.1, hc.2.1, ?_⟩
      rw [List.getElem?_append_left (List.getElem?_eq_some_iff.mp hc.2.2).1]
      exact hc.2.2

end Producer

section Consumer

variable {buffer : SpscRingBuffer α} {producer : ProducerPc α} {event : α} {tail : ℕ}

theorem consumer_start (h : Inv ⟨buffer, producer, .idle⟩ tr) :
    Inv ⟨buffer, producer, .loadHead buffer.tail⟩ tr :=
  ⟨h.head_eq, h.tail_eq, h.popped_prefix, h.bounded, h.slot_holds, h.producer_ok,
    rfl, h.consumer_ok⟩

theorem consumer_foundEmpty (h : Inv ⟨buffer, producer, .loadHead tail⟩ tr) :
    Inv ⟨buffer, producer, .idle⟩ tr := by
  have hconsumer : tail = buffer.tail ∧ copied tr = popped tr := h.consumer_ok
  exact ⟨h.head_eq, h.tail_eq, h.popped_prefix, h.bounded, h.slot_holds, h.producer_ok,
    hconsumer.2⟩

theorem consumer_loadHead (h : Inv ⟨buffer, producer, .loadHead tail⟩ tr)
    (hne : tail ≠ buffer.head) : Inv ⟨buffer, producer, .copySlot tail⟩ tr := by
  have hconsumer : tail = buffer.tail ∧ copied tr = popped tr := h.consumer_ok
  obtain ⟨htail, hcopied⟩ := hconsumer
  refine ⟨h.head_eq, h.tail_eq, h.popped_prefix, h.bounded, h.slot_holds, h.producer_ok,
    htail, hcopied, ?_⟩
  have hle := h.popped_le
  have hlen : (popped tr).length ≠ (accepted tr).length := by
    rw [htail] at hne
    exact fun heq => hne (h.index_eq_iff.mpr heq)
  omega

theorem consumer_copySlot (h : Inv ⟨buffer, producer, .copySlot tail⟩ tr) :
    Inv ⟨buffer, producer, .publish tail (buffer.slots (tail &&& spscRingMask))⟩
      (tr ++ [.copied (buffer.slots (tail &&& spscRingMask))]) := by
  have hconsumer : tail = buffer.tail ∧ copied tr = popped tr ∧
      (popped tr).length < (accepted tr).length := h.consumer_ok
  obtain ⟨htail, hcopied, hlt⟩ := hconsumer
  have hindex : tail &&& spscRingMask = (popped tr).length % spscRingCapacity := by
    rw [htail, show buffer.tail = _ from h.tail_eq, masked_index]
  have hget : (accepted tr)[(popped tr).length]? =
      some (buffer.slots (tail &&& spscRingMask)) := by
    have hslot := h.slot_holds _ _ (Nat.le_refl _) (List.getElem?_eq_getElem hlt)
    rw [hindex, List.getElem?_eq_getElem hlt]
    exact congrArg some hslot.symm
  generalize buffer.slots (tail &&& spscRingMask) = e at hget
  have hacc : accepted (tr ++ [Obs.copied e]) = accepted tr := by simp [accepted]
  have hpop : popped (tr ++ [Obs.copied e]) = popped tr := by simp [popped]
  have hcop : copied (tr ++ [Obs.copied e]) = copied tr ++ [e] := by simp [copied]
  refine ⟨by rw [hacc]; exact h.head_eq, by rw [hpop]; exact h.tail_eq,
    by rw [hacc, hpop]; exact h.popped_prefix, by rw [hacc, hpop]; exact h.bounded,
    by rw [hacc, hpop]; exact h.slot_holds, ?_, ?_⟩
  · have hproducer := h.producer_ok
    unfold ProducerOk at hproducer ⊢
    rw [hacc, hpop]
    exact hproducer
  · refine ⟨htail, ?_, ?_⟩
    · rw [hcop, hpop, hcopied]
    · rw [hacc, hpop]
      exact hget

theorem consumer_publish (h : Inv ⟨buffer, producer, .publish tail event⟩ tr) :
    Inv ⟨{ buffer with tail := succ64 tail }, producer, .idle⟩ (tr ++ [.popped event]) := by
  have hconsumer : tail = buffer.tail ∧ copied tr = popped tr ++ [event] ∧
      (accepted tr)[(popped tr).length]? = some event := h.consumer_ok
  obtain ⟨htail, hcopied, hget⟩ := hconsumer
  have hlt : (popped tr).length < (accepted tr).length := (List.getElem?_eq_some_iff.mp hget).1
  have hbound := h.bounded
  have hacc : accepted (tr ++ [Obs.popped event]) = accepted tr := by simp [accepted]
  have hpop : popped (tr ++ [Obs.popped event]) = popped tr ++ [event] := by simp [popped]
  have hcop : copied (tr ++ [Obs.popped event]) = copied tr := by simp [copied]
  refine ⟨by rw [hacc]; exact h.head_eq, ?_, ?_, ?_, ?_, ?_, ?_⟩
  · change succ64 tail = _
    rw [hpop, htail, show buffer.tail = _ from h.tail_eq, succ64_mod, List.length_append,
      List.length_singleton]
  · rw [hacc, hpop]
    obtain ⟨rest, hrest⟩ := h.popped_prefix
    rw [← hrest] at hget ⊢
    cases rest with
    | nil => simp at hget
    | cons x rest =>
      simp only [List.getElem?_append_right (Nat.le_refl _), Nat.sub_self,
        List.getElem?_cons_zero, Option.some.injEq] at hget
      subst hget
      exact ⟨rest, by simp⟩
  · rw [hacc, hpop, List.length_append, List.length_singleton]
    omega
  · intro k e hk he
    rw [hpop, List.length_append] at hk
    rw [hacc] at he
    exact h.slot_holds k e (by omega) he
  · have hproducer := h.producer_ok
    unfold ProducerOk at hproducer ⊢
    rw [hacc, hpop, List.length_append, List.length_singleton]
    cases producer with
    | idle => trivial
    | loadTail e head => exact hproducer
    | copySlot e head =>
      refine ⟨hproducer.1, ?_⟩
      have hroom := hproducer.2
      omega
    | publish e head =>
      refine ⟨hproducer.1, ?_, hproducer.2.2⟩
      have hroom := hproducer.2.1
      omega
  · change copied (tr ++ [Obs.popped event]) = popped (tr ++ [Obs.popped event])
    rw [hcop, hpop, hcopied]

end Consumer

theorem producer_step (h : Inv s tr) {b : SpscRingBuffer α} {pc : ProducerPc α}
    {os : List (Obs α)} (hstep : tryPush s.buffer s.producer = some (b, pc, os)) :
    Inv ⟨b, pc, s.consumer⟩ (tr ++ os) := by
  obtain ⟨buffer, producer, consumer⟩ := s
  cases producer with
  | idle => simp [tryPush] at hstep
  | loadTail event head =>
    simp only [tryPush] at hstep
    split at hstep
    · cases hstep
      have hidle : Inv ⟨b, .idle, consumer⟩ tr := { h with producer_ok := trivial }
      exact hidle.congr_trace (by simp [accepted]) (by simp [popped]) (by simp [copied])
    · rename_i hroom
      cases hstep
      rw [List.append_nil]
      exact h.producer_loadTail hroom
  | copySlot event head =>
    cases hstep
    exact h.producer_copySlot.congr_trace (by simp [accepted]) (by simp [popped])
      (by simp [copied])
  | publish event head =>
    cases hstep
    exact h.producer_publish

theorem consumer_step (h : Inv s tr) {b : SpscRingBuffer α} {pc : ConsumerPc α}
    {os : List (Obs α)} (hstep : tryPop s.buffer s.consumer = (b, pc, os)) :
    Inv ⟨b, s.producer, pc⟩ (tr ++ os) := by
  obtain ⟨buffer, producer, consumer⟩ := s
  cases consumer with
  | idle =>
    cases hstep
    rw [List.append_nil]
    exact h.consumer_start
  | loadHead tail =>
    simp only [tryPop] at hstep
    split at hstep
    · cases hstep
      exact h.consumer_foundEmpty.congr_trace (by simp [accepted]) (by simp [popped])
        (by simp [copied])
    · rename_i hne
      cases hstep
      rw [List.append_nil]
      exact h.consumer_loadHead hne
  | copySlot tail =>
    cases hstep
    exact h.consumer_copySlot
  | publish tail event =>
    cases hstep
    exact h.consumer_publish

theorem of_step (h : Inv s tr) {a : Action α} {os : List (Obs α)}
    (hstep : step s a = some (s', os)) : Inv s' (tr ++ os) := by
  cases a with
  | push event =>
    simp only [step] at hstep
    split at hstep
    · cases hstep
      rw [List.append_nil]
      exact h.push_start event
    · simp at hstep
  | producer =>
    simp only [step, Option.map_eq_some_iff, Prod.mk.injEq] at hstep
    obtain ⟨⟨b, pc, os'⟩, hpush, rfl, rfl⟩ := hstep
    exact h.producer_step hpush
  | consumer =>
    simp only [step, Option.some.injEq, Prod.mk.injEq] at hstep
    obtain ⟨rfl, rfl⟩ := hstep
    exact h.consumer_step rfl

/-- No slot is written while it holds an unread event. -/
theorem write_free (h : Inv s tr) {a : Action α} {os : List (Obs α)} {index : ℕ}
    (hstep : step s a = some (s', os)) (hmem : Obs.wrote index ∈ os) :
    ¬ HoldsUnread tr index := by
  have hproducer := h.producer_ok
  have hcopied := h.copied_length.1
  cases obs_source hstep hmem with
  | wrote event head hpc =>
    simp only [ProducerOk, hpc] at hproducer
    rintro ⟨k, hk, hk', hmod⟩
    apply h.free_slot hproducer.2 k (by omega) hk'
    rw [hmod, hproducer.1, h.head_eq, masked_index]

theorem refused_full (h : Inv s tr) {a : Action α} {os : List (Obs α)} {event : α}
    (hstep : step s a = some (s', os)) (hmem : Obs.refused event ∈ os) :
    (accepted tr).length = (popped tr).length + spscRingCapacity := by
  have hproducer := h.producer_ok
  have hbound := h.bounded
  cases obs_source hstep hmem with
  | refused _ head hpc hfull =>
    simp only [ProducerOk, hpc] at hproducer
    rw [hproducer, h.occupancy_eq] at hfull
    simp only [spscRingCapacity] at hfull hbound ⊢
    omega

theorem found_empty (h : Inv s tr) {a : Action α} {os : List (Obs α)}
    (hstep : step s a = some (s', os)) (hmem : Obs.foundEmpty ∈ os) :
    (popped tr).length = (accepted tr).length := by
  have hconsumer := h.consumer_ok
  cases obs_source hstep hmem with
  | foundEmpty tail hpc heq =>
    simp only [ConsumerOk, hpc] at hconsumer
    exact h.index_eq_iff.mp (hconsumer.1 ▸ heq)

end Inv

theorem inv_of_run {slots : ℕ → α} {s : Spsc α} {tr : List (Obs α)}
    (h : Run step (initial slots) tr s) : Inv s tr :=
  h.invariant (I := Inv) (fun _ _ _ _ _ hs hstep => hs.of_step hstep) (inv_initial slots)

/-- The outcome of the abstract queue that an observation reports. -/
def outcome : Obs α → Option (BoundedFifo.Outcome α)
  | .pushed event => some (.accepted event)
  | .refused event => some (.rejected event)
  | .popped event => some (.popped event)
  | .foundEmpty => some .empty
  | .wrote _ | .copied _ => none

/-- The unreleased events, in order, are the contents of the abstract queue. -/
def Contains (s : Spsc α) (contents : List α) : Prop :=
  ∃ tr, Inv s tr ∧ accepted tr = popped tr ++ contents

theorem contents_length {tr : List (Obs α)} {contents : List α}
    (hc : accepted tr = popped tr ++ contents) :
    contents.length + (popped tr).length = (accepted tr).length := by
  rw [hc, List.length_append, Nat.add_comm]

theorem fifo_step {s s' : Spsc α} {contents : List α} {a : Action α} {os : List (Obs α)}
    (h : Contains s contents) (hstep : step s a = some (s', os)) :
    ∃ contents', Run (BoundedFifo.step spscRingCapacity) contents (os.filterMap outcome)
      contents' ∧ Contains s' contents' := by
  obtain ⟨tr, hinv, hcontents⟩ := h
  have hinv' := hinv.of_step hstep
  have hlen := contents_length hcontents
  obtain ⟨buffer, producer, consumer⟩ := s
  cases a with
  | push event =>
    simp only [step] at hstep
    split at hstep
    · cases hstep
      exact ⟨contents, Run.nil _, tr, by simpa using hinv', hcontents⟩
    · simp at hstep
  | producer =>
    simp only [step, Option.map_eq_some_iff, Prod.mk.injEq] at hstep
    obtain ⟨⟨b, pc, os'⟩, hpush, rfl, rfl⟩ := hstep
    cases producer with
    | idle => simp [tryPush] at hpush
    | loadTail event head =>
      have hhead : head = buffer.head := hinv.producer_ok
      have hocc : occupancy buffer.head buffer.tail = _ := hinv.occupancy_eq
      simp only [tryPush] at hpush
      split at hpush
      · rename_i hfull
        cases hpush
        rw [hhead, hocc] at hfull
        refine ⟨contents, Run.single (a := .enqueue event) ?_, _, hinv',
          by simpa [accepted, popped] using hcontents⟩
        have hnot : ¬ contents.length < spscRingCapacity := by omega
        simp only [BoundedFifo.step, hnot, if_false]
        rfl
      · cases hpush
        exact ⟨contents, Run.nil _, _, hinv', by simpa using hcontents⟩
    | copySlot event head =>
      cases hpush
      exact ⟨contents, Run.nil _, _, hinv', by simpa [accepted, popped] using hcontents⟩
    | publish event head =>
      have hproducer : head = buffer.head ∧
          (accepted tr).length < (popped tr).length + spscRingCapacity ∧
          buffer.slots ((accepted tr).length % spscRingCapacity) = event := hinv.producer_ok
      cases hpush
      refine ⟨contents ++ [event], Run.single (a := .enqueue event) ?_, _, hinv', ?_⟩
      · have hroom : contents.length < spscRingCapacity := by
          have := hproducer.2.1
          omega
        simp only [BoundedFifo.step, hroom, if_true]
        rfl
      · simp only [accepted_append, popped_append, hcontents]
        simp [accepted, popped]
  | consumer =>
    simp only [step, Option.some.injEq, Prod.mk.injEq] at hstep
    obtain ⟨rfl, rfl⟩ := hstep
    cases consumer with
    | idle => exact ⟨contents, Run.nil _, _, hinv', by simpa [tryPop] using hcontents⟩
    | loadHead tail =>
      have hconsumer : tail = buffer.tail ∧ copied tr = popped tr := hinv.consumer_ok
      by_cases heq : tail = buffer.head
      · have hempty := hinv.index_eq_iff.mp (hconsumer.1 ▸ heq)
        have hnil : contents = [] := List.length_eq_zero_iff.mp (by omega)
        subst hnil
        refine ⟨[], ?_, _, hinv', ?_⟩
        · simp only [tryPop, if_pos heq]
          exact Run.single (a := .dequeue) rfl
        · simpa [tryPop, heq, accepted, popped] using hcontents
      · refine ⟨contents, ?_, _, hinv', ?_⟩
        · simp only [tryPop, if_neg heq]
          exact Run.nil _
        · simpa [tryPop, heq] using hcontents
    | copySlot tail =>
      exact ⟨contents, Run.nil _, _, hinv', by
        simpa [tryPop, accepted, popped] using hcontents⟩
    | publish tail event =>
      have hconsumer : tail = buffer.tail ∧ copied tr = popped tr ++ [event] ∧
          (accepted tr)[(popped tr).length]? = some event := hinv.consumer_ok
      have hget := hconsumer.2.2
      rw [hcontents] at hget
      cases contents with
      | nil => simp at hget
      | cons x rest =>
        simp only [List.getElem?_append_right (Nat.le_refl _), Nat.sub_self,
          List.getElem?_cons_zero, Option.some.injEq] at hget
        subst hget
        refine ⟨rest, Run.single (a := .dequeue) rfl, _, hinv', ?_⟩
        simpa [tryPop, accepted, popped] using hcontents

/-- The ring buffer refines the bounded queue: the accepted, refused, popped and
empty outcomes of every interleaving are those of a run with atomic operations. -/
theorem ring_refines_fifo {slots : ℕ → α} {s : Spsc α} {tr : List (Obs α)}
    (h : Run step (initial slots) tr s) :
    ∃ contents, Run (BoundedFifo.step spscRingCapacity) [] (tr.filterMap outcome) contents ∧
      Contains s contents :=
  h.simulate Contains outcome (fun _ _ _ _ _ hs hstep => fifo_step hs hstep)
    ⟨[], inv_initial slots, rfl⟩

/-- In every interleaving of the steps of one producer and one consumer: what is
popped is a prefix of what was accepted; no slot is written while it holds an
unread event; head - tail counts the accepted and unreleased events and stays
within the capacity; a push is refused only by a full queue and a pop only by an
empty one. -/
theorem spsc_bounded_fifo {slots : ℕ → α} {s : Spsc α} {tr : List (Obs α)}
    (hrun : Run step (initial slots) tr s) :
    popped tr <+: accepted tr ∧
    (∀ a s' os index, step s a = some (s', os) → Obs.wrote index ∈ os →
      ¬ HoldsUnread tr index) ∧
    occupancy s.buffer.head s.buffer.tail = (accepted tr).length - (popped tr).length ∧
    occupancy s.buffer.head s.buffer.tail ≤ spscRingCapacity ∧
    (∀ a s' os event, step s a = some (s', os) → Obs.refused event ∈ os →
      (accepted tr).length = (popped tr).length + spscRingCapacity) ∧
    (∀ a s' os, step s a = some (s', os) → Obs.foundEmpty ∈ os →
      popped tr = accepted tr) := by
  have hinv := inv_of_run hrun
  have hbound := hinv.bounded
  refine ⟨hinv.popped_prefix, ?_, hinv.occupancy_eq, ?_, ?_, ?_⟩
  · intro a s' os index hstep hmem
    exact hinv.write_free hstep hmem
  · rw [hinv.occupancy_eq]
    omega
  · intro a s' os event hstep hmem
    exact hinv.refused_full hstep hmem
  · intro a s' os hstep hmem
    exact hinv.popped_eq_accepted (hinv.found_empty hstep hmem)

/-- One event pushed and popped again, with the consumer polling once too early. -/
theorem spsc_bounded_fifo_push_pop :
    ∃ (s : Spsc ℕ) (tr : List (Obs ℕ)), Run step (initial fun _ => 0) tr s ∧
      accepted tr = [7] ∧ popped tr = [7] ∧ popped tr <+: accepted tr := by
  let actions : List (Action ℕ) := [.consumer, .push 7, .consumer, .producer, .producer,
    .producer, .consumer, .consumer, .consumer, .consumer]
  let result := (exec step (initial fun _ => 0) actions).getD (initial fun _ => 0, [])
  have hexec : exec step (initial fun _ => 0) actions = some (result.1, result.2) := rfl
  have hrun := run_of_exec hexec
  exact ⟨result.1, result.2, hrun, rfl, rfl, (spsc_bounded_fifo hrun).1⟩

end RuntimeMonitor.RingBuffer
