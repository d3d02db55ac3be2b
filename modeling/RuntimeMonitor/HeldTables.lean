import RuntimeMonitor.VerifierSteps

/-!
The held-mutex array of one thread as a map from addresses to entries. The used
entries are the first `heldCount`, with pairwise distinct addresses and positive
depths; acquisition appends or deepens one entry and release shallows it or
deletes it by swapping in the last one. The map view is what later proofs use.
-/
namespace RuntimeMonitor.HeldTables

open EventRecord VerifierTables VerifierEvents VerifierSteps

structure HeldOk (thread : VerifierThreadState) : Prop where
  count_le : thread.heldCount ≤ verifierMaxHeldMutexes
  distinct : ∀ i j, i < thread.heldCount → j < thread.heldCount →
    (thread.heldMutexes i).address = (thread.heldMutexes j).address → i = j
  depth_pos : ∀ i, i < thread.heldCount → 1 ≤ (thread.heldMutexes i).depth
  depth_le : ∀ i, i < thread.heldCount → (thread.heldMutexes i).depth ≤ uint32Max
  zero_beyond : ∀ i, thread.heldCount ≤ i → thread.heldMutexes i = {}

/-- The entry of a mutex in the held table. -/
def heldEntry (thread : VerifierThreadState) (address : ℕ) : Option VerifierHeldMutex :=
  (findHeldMutex thread address).map thread.heldMutexes

/-- The recursion depth recorded for a mutex, zero when it is not held. -/
def heldDepth (thread : VerifierThreadState) (address : ℕ) : ℕ :=
  match heldEntry thread address with
  | some held => held.depth
  | none => 0

variable {thread : VerifierThreadState} {address k : ℕ}

theorem findHeldMutex_spec (h : findHeldMutex thread address = some k) :
    k < thread.heldCount ∧ (thread.heldMutexes k).address = address := by
  have hfind := List.find?_range_eq_some.mp h
  exact ⟨List.mem_range.mp hfind.2.1, by simpa using hfind.1⟩

theorem findHeldMutex_eq_none_iff :
    findHeldMutex thread address = none ↔
      ∀ i, i < thread.heldCount → (thread.heldMutexes i).address ≠ address := by
  simp [findHeldMutex]

namespace HeldOk

variable (h : HeldOk thread)
include h

theorem findHeldMutex_eq_some_iff :
    findHeldMutex thread address = some k ↔
      k < thread.heldCount ∧ (thread.heldMutexes k).address = address := by
  refine ⟨findHeldMutex_spec, fun ⟨hk, haddress⟩ => ?_⟩
  cases hfind : findHeldMutex thread address with
  | none => exact absurd haddress (findHeldMutex_eq_none_iff.mp hfind k hk)
  | some j =>
    obtain ⟨hj, haddress'⟩ := findHeldMutex_spec hfind
    rw [h.distinct k j hk hj (haddress.trans haddress'.symm)]

theorem heldEntry_eq_some_iff {held : VerifierHeldMutex} :
    heldEntry thread address = some held ↔
      ∃ k, k < thread.heldCount ∧ thread.heldMutexes k = held ∧ held.address = address := by
  simp only [heldEntry, Option.map_eq_some_iff, h.findHeldMutex_eq_some_iff]
  constructor
  · rintro ⟨k, ⟨hk, haddress⟩, rfl⟩
    exact ⟨k, hk, rfl, haddress⟩
  · rintro ⟨k, hk, rfl, haddress⟩
    exact ⟨k, ⟨hk, haddress⟩, rfl⟩

theorem heldDepth_pos_iff : 0 < heldDepth thread address ↔ (heldEntry thread address).isSome := by
  unfold heldDepth
  cases hentry : heldEntry thread address with
  | none => simp
  | some held =>
    obtain ⟨k, hk, rfl, -⟩ := h.heldEntry_eq_some_iff.mp hentry
    have hpos := h.depth_pos k hk
    simp
    omega

end HeldOk

theorem heldEntry_eq_none_iff :
    heldEntry thread address = none ↔ findHeldMutex thread address = none := by
  simp [heldEntry]

theorem heldOk_fresh (threadId : ℕ) : HeldOk (freshThread threadId) where
  count_le := Nat.zero_le _
  distinct := by simp [freshThread]
  depth_pos := by simp [freshThread]
  depth_le := by simp [freshThread]
  zero_beyond := by simp [freshThread]

theorem heldOk_congr {thread' : VerifierThreadState} (h : HeldOk thread)
    (hheld : thread'.heldMutexes = thread.heldMutexes)
    (hcount : thread'.heldCount = thread.heldCount) : HeldOk thread' := by
  obtain ⟨h₁, h₂, h₃, h₄, h₅⟩ := h
  constructor <;> rw [hcount] <;> first | assumption | (rw [hheld]; assumption)

theorem heldEntry_congr {thread' : VerifierThreadState}
    (hheld : thread'.heldMutexes = thread.heldMutexes)
    (hcount : thread'.heldCount = thread.heldCount) :
    heldEntry thread' = heldEntry thread := by
  funext a
  simp only [heldEntry, findHeldMutex, hheld, hcount]

/-- Rewriting the depth of one used entry. -/
def setDepth (thread : VerifierThreadState) (k depth : ℕ) : VerifierThreadState :=
  { thread with
    heldMutexes := Function.update thread.heldMutexes k
      { thread.heldMutexes k with depth := depth } }

theorem setDepth_address (thread : VerifierThreadState) (k depth i : ℕ) :
    ((setDepth thread k depth).heldMutexes i).address = (thread.heldMutexes i).address := by
  by_cases hik : i = k
  · subst hik
    simp [setDepth]
  · simp [setDepth, Function.update_of_ne hik]

theorem heldOk_setDepth (h : HeldOk thread) (hk : k < thread.heldCount) {depth : ℕ}
    (hpos : 1 ≤ depth) (hle : depth ≤ uint32Max) : HeldOk (setDepth thread k depth) where
  count_le := h.count_le
  distinct i j hi hj hij := by
    rw [setDepth_address, setDepth_address] at hij
    exact h.distinct i j hi hj hij
  depth_pos i hi := by
    by_cases hik : i = k
    · subst hik
      simpa [setDepth] using hpos
    · simpa [setDepth, Function.update_of_ne hik] using h.depth_pos i hi
  depth_le i hi := by
    by_cases hik : i = k
    · subst hik
      simpa [setDepth] using hle
    · simpa [setDepth, Function.update_of_ne hik] using h.depth_le i hi
  zero_beyond i hi := by
    change thread.heldCount ≤ i at hi
    have hik : i ≠ k := by omega
    simpa [setDepth, Function.update_of_ne hik] using h.zero_beyond i hi

theorem heldEntry_setDepth (h : HeldOk thread) (hk : k < thread.heldCount) {depth : ℕ}
    (hpos : 1 ≤ depth) (hle : depth ≤ uint32Max) :
    heldEntry (setDepth thread k depth) =
      Function.update (heldEntry thread) (thread.heldMutexes k).address
        (some { thread.heldMutexes k with depth := depth }) := by
  have h' := heldOk_setDepth h hk hpos hle
  funext a
  by_cases ha : a = (thread.heldMutexes k).address
  · subst ha
    rw [Function.update_self, h'.heldEntry_eq_some_iff]
    exact ⟨k, hk, by simp [setDepth], rfl⟩
  · rw [Function.update_of_ne ha]
    apply Option.ext
    intro held
    rw [h'.heldEntry_eq_some_iff, h.heldEntry_eq_some_iff]
    constructor
    · rintro ⟨i, hi, hheld, rfl⟩
      have hik : i ≠ k := by
        rintro rfl
        apply ha
        rw [← hheld, setDepth_address]
      exact ⟨i, hi, by simpa [setDepth, Function.update_of_ne hik] using hheld, rfl⟩
    · rintro ⟨i, hi, hheld, rfl⟩
      have hik : i ≠ k := by
        rintro rfl
        exact ha (by rw [← hheld])
      exact ⟨i, hi, by simpa [setDepth, Function.update_of_ne hik] using hheld, rfl⟩

/-- Appending an entry for a mutex that is not held. -/
def appendHeld (thread : VerifierThreadState) (address timestampNs : ℕ) : VerifierThreadState :=
  { thread with
    heldMutexes := Function.update thread.heldMutexes thread.heldCount
      { address := address, firstAcquiredTimestampNs := timestampNs, depth := 1 }
    heldCount := thread.heldCount + 1 }

theorem heldOk_appendHeld (h : HeldOk thread) (timestampNs : ℕ)
    (hnew : findHeldMutex thread address = none)
    (hroom : thread.heldCount < verifierMaxHeldMutexes) :
    HeldOk (appendHeld thread address timestampNs) where
  count_le := hroom
  distinct i j hi hj hij := by
    have habsent := findHeldMutex_eq_none_iff.mp hnew
    change i < thread.heldCount + 1 at hi
    change j < thread.heldCount + 1 at hj
    by_cases hil : i = thread.heldCount <;> by_cases hjl : j = thread.heldCount
    · rw [hil, hjl]
    · subst hil
      simp only [appendHeld, Function.update_self, Function.update_of_ne hjl] at hij
      exact absurd hij.symm (habsent j (by omega))
    · subst hjl
      simp only [appendHeld, Function.update_self, Function.update_of_ne hil] at hij
      exact absurd hij (habsent i (by omega))
    · simp only [appendHeld, Function.update_of_ne hil, Function.update_of_ne hjl] at hij
      exact h.distinct i j (by omega) (by omega) hij
  depth_pos i hi := by
    change i < thread.heldCount + 1 at hi
    by_cases hil : i = thread.heldCount
    · subst hil
      simp [appendHeld]
    · simpa [appendHeld, Function.update_of_ne hil] using h.depth_pos i (by omega)
  depth_le i hi := by
    change i < thread.heldCount + 1 at hi
    by_cases hil : i = thread.heldCount
    · subst hil
      simp [appendHeld, uint32Max]
    · simpa [appendHeld, Function.update_of_ne hil] using h.depth_le i (by omega)
  zero_beyond i hi := by
    change thread.heldCount + 1 ≤ i at hi
    have hil : i ≠ thread.heldCount := by omega
    simpa [appendHeld, Function.update_of_ne hil] using h.zero_beyond i (by omega)

theorem heldEntry_appendHeld (h : HeldOk thread) (timestampNs : ℕ)
    (hnew : findHeldMutex thread address = none)
    (hroom : thread.heldCount < verifierMaxHeldMutexes) :
    heldEntry (appendHeld thread address timestampNs) =
      Function.update (heldEntry thread) address
        (some { address := address, firstAcquiredTimestampNs := timestampNs, depth := 1 }) := by
  have h' := heldOk_appendHeld h timestampNs hnew hroom
  funext a
  by_cases ha : a = address
  · subst ha
    rw [Function.update_self, h'.heldEntry_eq_some_iff]
    exact ⟨thread.heldCount, Nat.lt_succ_self _, by simp [appendHeld], rfl⟩
  · rw [Function.update_of_ne ha]
    apply Option.ext
    intro held
    rw [h'.heldEntry_eq_some_iff, h.heldEntry_eq_some_iff]
    constructor
    · rintro ⟨i, hi, hheld, rfl⟩
      change i < thread.heldCount + 1 at hi
      have hil : i ≠ thread.heldCount := by
        rintro rfl
        apply ha
        rw [← hheld]
        simp [appendHeld]
      exact ⟨i, by omega, by simpa [appendHeld, Function.update_of_ne hil] using hheld, rfl⟩
    · rintro ⟨i, hi, hheld, rfl⟩
      have hil : i ≠ thread.heldCount := by omega
      exact ⟨i, Nat.lt_succ_of_lt hi,
        by simpa [appendHeld, Function.update_of_ne hil] using hheld, rfl⟩

/-- The entry found at position `i` after the deletion of entry `k`. -/
theorem removeHeldMutex_entry (hk : k < thread.heldCount) (i : ℕ)
    (hi : i < thread.heldCount - 1) :
    (removeHeldMutex thread k).heldMutexes i =
      if i = k then thread.heldMutexes (thread.heldCount - 1) else thread.heldMutexes i := by
  have hil : i ≠ thread.heldCount - 1 := by omega
  simp only [removeHeldMutex, Function.update_of_ne hil]
  by_cases hik : i = k
  · subst hik
    simp
  · simp [hik]

theorem heldOk_removeHeldMutex (h : HeldOk thread) (hk : k < thread.heldCount) :
    HeldOk (removeHeldMutex thread k) where
  count_le := Nat.le_trans (Nat.sub_le _ _) h.count_le
  distinct i j hi hj hij := by
    change i < thread.heldCount - 1 at hi
    change j < thread.heldCount - 1 at hj
    rw [removeHeldMutex_entry hk i hi, removeHeldMutex_entry hk j hj] at hij
    by_cases hik : i = k <;> by_cases hjk : j = k
    · rw [hik, hjk]
    · rw [if_pos hik, if_neg hjk] at hij
      have := h.distinct _ _ (by omega) (by omega) hij
      omega
    · rw [if_neg hik, if_pos hjk] at hij
      have := h.distinct _ _ (by omega) (by omega) hij
      omega
    · rw [if_neg hik, if_neg hjk] at hij
      exact h.distinct i j (by omega) (by omega) hij
  depth_pos i hi := by
    change i < thread.heldCount - 1 at hi
    rw [removeHeldMutex_entry hk i hi]
    split
    · exact h.depth_pos _ (by omega)
    · exact h.depth_pos i (by omega)
  depth_le i hi := by
    change i < thread.heldCount - 1 at hi
    rw [removeHeldMutex_entry hk i hi]
    split
    · exact h.depth_le _ (by omega)
    · exact h.depth_le i (by omega)
  zero_beyond i hi := by
    change thread.heldCount - 1 ≤ i at hi
    by_cases hil : i = thread.heldCount - 1
    · subst hil
      simp [removeHeldMutex]
    · have hik : i ≠ k := by omega
      simp only [removeHeldMutex, Function.update_of_ne hil, Function.update_of_ne hik]
      exact h.zero_beyond i (by omega)

theorem heldEntry_removeHeldMutex (h : HeldOk thread) (hk : k < thread.heldCount) :
    heldEntry (removeHeldMutex thread k) =
      Function.update (heldEntry thread) (thread.heldMutexes k).address none := by
  have h' := heldOk_removeHeldMutex h hk
  funext a
  apply Option.ext
  intro held
  rw [h'.heldEntry_eq_some_iff]
  by_cases ha : a = (thread.heldMutexes k).address
  · subst ha
    rw [Function.update_self]
    simp only [reduceCtorEq, iff_false]
    rintro ⟨i, hi, hheld, haddress⟩
    change i < thread.heldCount - 1 at hi
    rw [removeHeldMutex_entry hk i hi] at hheld
    by_cases hik : i = k
    · rw [if_pos hik] at hheld
      have := h.distinct _ _ (by omega) hk (hheld ▸ haddress)
      omega
    · rw [if_neg hik] at hheld
      exact hik (h.distinct i k (by omega) hk (hheld ▸ haddress))
  · rw [Function.update_of_ne ha, h.heldEntry_eq_some_iff]
    constructor
    · rintro ⟨i, hi, hheld, haddress⟩
      change i < thread.heldCount - 1 at hi
      rw [removeHeldMutex_entry hk i hi] at hheld
      by_cases hik : i = k
      · rw [if_pos hik] at hheld
        exact ⟨thread.heldCount - 1, by omega, hheld, haddress⟩
      · rw [if_neg hik] at hheld
        exact ⟨i, by omega, hheld, haddress⟩
    · rintro ⟨i, hi, hheld, haddress⟩
      have hik : i ≠ k := by
        rintro rfl
        exact ha (by rw [hheld, haddress])
      -- the last entry has moved into the hole, every other one has stayed
      by_cases hil : i = thread.heldCount - 1
      · refine ⟨k, ?_, ?_, haddress⟩
        · change k < thread.heldCount - 1
          omega
        · rw [removeHeldMutex_entry hk k (by omega), if_pos rfl, ← hil, hheld]
      · refine ⟨i, ?_, ?_, haddress⟩
        · change i < thread.heldCount - 1
          omega
        · rw [removeHeldMutex_entry hk i (by omega), if_neg hik, hheld]

/-- One level deeper, saturating at the top of `uint32_t`. -/
def deepen (held : VerifierHeldMutex) : VerifierHeldMutex :=
  if held.depth < uint32Max then { held with depth := held.depth + 1 } else held

/-- One level shallower; the last level deletes the entry. -/
def shallow (held : VerifierHeldMutex) : Option VerifierHeldMutex :=
  if held.depth > 1 then some { held with depth := held.depth - 1 } else none

theorem addHeld_cases (hclean : thread.traceTainted = false) (address timestampNs : ℕ) :
    (∃ k, findHeldMutex thread address = some k ∧ k < thread.heldCount ∧
      (thread.heldMutexes k).address = address ∧
      addHeld thread address timestampNs =
        setDepth thread k (deepen (thread.heldMutexes k)).depth) ∨
    (findHeldMutex thread address = none ∧ heldOverflow thread address = false ∧
      thread.heldCount < verifierMaxHeldMutexes ∧
      addHeld thread address timestampNs = appendHeld thread address timestampNs) ∨
    (findHeldMutex thread address = none ∧ heldOverflow thread address = true ∧
      addHeld thread address timestampNs = thread) := by
  unfold addHeld heldOverflow
  cases hfind : findHeldMutex thread address with
  | some k =>
    obtain ⟨hk, haddress⟩ := findHeldMutex_spec hfind
    refine Or.inl ⟨k, rfl, hk, haddress, ?_⟩
    by_cases hdepth : (thread.heldMutexes k).depth < uint32Max
    · rw [if_neg (by simp [hclean])]
      simp only [if_pos hdepth, setDepth, deepen]
    · rw [if_neg (by simp [hclean])]
      simp only [if_neg hdepth, setDepth, deepen, Function.update_eq_self]
  | none =>
    by_cases hfull : thread.heldCount ≥ verifierMaxHeldMutexes
    · exact Or.inr (Or.inr ⟨rfl, by simp [hclean, hfull], by simp [hclean, hfull]⟩)
    · refine Or.inr (Or.inl ⟨rfl, by simp [hclean, hfull], by omega, ?_⟩)
      simp only [hclean, Bool.false_eq_true, if_false, if_neg hfull, appendHeld]

theorem releaseHeld_cases (hclean : thread.traceTainted = false) (address : ℕ) :
    (∃ k, findHeldMutex thread address = some k ∧ k < thread.heldCount ∧
      (thread.heldMutexes k).address = address ∧ 1 < (thread.heldMutexes k).depth ∧
      fullyReleased thread address = false ∧
      releaseHeld thread address = setDepth thread k ((thread.heldMutexes k).depth - 1)) ∨
    (∃ k, findHeldMutex thread address = some k ∧ k < thread.heldCount ∧
      (thread.heldMutexes k).address = address ∧ (thread.heldMutexes k).depth ≤ 1 ∧
      fullyReleased thread address = true ∧
      releaseHeld thread address = removeHeldMutex thread k) ∨
    (findHeldMutex thread address = none ∧ fullyReleased thread address = true ∧
      releaseHeld thread address = thread) := by
  unfold releaseHeld fullyReleased
  cases hfind : findHeldMutex thread address with
  | none => exact Or.inr (Or.inr ⟨rfl, by simp [hclean], by simp [hclean]⟩)
  | some k =>
    obtain ⟨hk, haddress⟩ := findHeldMutex_spec hfind
    by_cases hdepth : (thread.heldMutexes k).depth > 1
    · exact Or.inl ⟨k, rfl, hk, haddress, hdepth, by simp [hclean, hdepth],
        by simp [hclean, hdepth, setDepth]⟩
    · exact Or.inr (Or.inl ⟨k, rfl, hk, haddress, by omega, by simp [hclean, hdepth],
        by simp [hclean, hdepth]⟩)

theorem deepen_depth (h : HeldOk thread) (hk : k < thread.heldCount) :
    1 ≤ (deepen (thread.heldMutexes k)).depth ∧
      (deepen (thread.heldMutexes k)).depth ≤ uint32Max := by
  have hpos := h.depth_pos k hk
  have hle := h.depth_le k hk
  unfold deepen
  split
  · simp only
    omega
  · exact ⟨hpos, hle⟩

theorem addHeld_tainted (ht : thread.traceTainted = true) (timestampNs : ℕ) :
    addHeld thread address timestampNs = thread := by
  simp [addHeld, ht]

theorem releaseHeld_tainted (ht : thread.traceTainted = true) :
    releaseHeld thread address = thread := by
  simp [releaseHeld, ht]

theorem heldOk_addHeld (h : HeldOk thread) (timestampNs : ℕ) :
    HeldOk (addHeld thread address timestampNs) := by
  cases ht : thread.traceTainted with
  | true => rwa [addHeld_tainted ht]
  | false =>
    rcases addHeld_cases ht address timestampNs with
      ⟨k, -, hk, -, heq⟩ | ⟨hnew, -, hroom, heq⟩ | ⟨-, -, heq⟩ <;> rw [heq]
    · exact heldOk_setDepth h hk (deepen_depth h hk).1 (deepen_depth h hk).2
    · exact heldOk_appendHeld h timestampNs hnew hroom
    · exact h

theorem heldOk_releaseHeld (h : HeldOk thread) : HeldOk (releaseHeld thread address) := by
  cases ht : thread.traceTainted with
  | true => rwa [releaseHeld_tainted ht]
  | false =>
    rcases releaseHeld_cases ht address with
      ⟨k, -, hk, -, hdepth, -, heq⟩ | ⟨k, -, hk, -, -, -, heq⟩ | ⟨-, -, heq⟩ <;> rw [heq]
    · have hle := h.depth_le k hk
      exact heldOk_setDepth h hk (by omega) (by omega)
    · exact heldOk_removeHeldMutex h hk
    · exact h

/-- Acquisition in the map view. -/
theorem heldEntry_addHeld (h : HeldOk thread) (hclean : thread.traceTainted = false)
    (hroom : heldOverflow thread address = false) (timestampNs : ℕ) :
    heldEntry (addHeld thread address timestampNs) =
      Function.update (heldEntry thread) address
        (some (match heldEntry thread address with
          | some held => deepen held
          | none => ⟨address, timestampNs, 1⟩)) := by
  rcases addHeld_cases hclean address timestampNs with
    ⟨k, hfind, hk, haddress, heq⟩ | ⟨hnew, -, hcount, heq⟩ | ⟨-, hfull, -⟩
  · have hentry : heldEntry thread address = some (thread.heldMutexes k) := by
      simp [heldEntry, hfind]
    have hdeep : ({ thread.heldMutexes k with
        depth := (deepen (thread.heldMutexes k)).depth } : VerifierHeldMutex) =
        deepen (thread.heldMutexes k) := by
      unfold deepen
      split <;> rfl
    rw [heq, heldEntry_setDepth h hk (deepen_depth h hk).1 (deepen_depth h hk).2, hentry,
      haddress, hdeep]
  · rw [heq, heldEntry_appendHeld h timestampNs hnew hcount, heldEntry_eq_none_iff.mpr hnew]
  · rw [hroom] at hfull
    simp at hfull

/-- Release in the map view. -/
theorem heldEntry_releaseHeld (h : HeldOk thread) (hclean : thread.traceTainted = false) :
    heldEntry (releaseHeld thread address) =
      Function.update (heldEntry thread) address
        ((heldEntry thread address).bind shallow) := by
  rcases releaseHeld_cases hclean address with
    ⟨k, hfind, hk, haddress, hdepth, -, heq⟩ | ⟨k, hfind, hk, haddress, hdepth, -, heq⟩ |
      ⟨hnone, -, heq⟩
  · have hentry : heldEntry thread address = some (thread.heldMutexes k) := by
      simp [heldEntry, hfind]
    have hle := h.depth_le k hk
    rw [heq, heldEntry_setDepth h hk (by omega) (by omega), hentry, haddress]
    simp [shallow, hdepth]
  · have hentry : heldEntry thread address = some (thread.heldMutexes k) := by
      simp [heldEntry, hfind]
    have hnot : ¬ (thread.heldMutexes k).depth > 1 := by omega
    rw [heq, heldEntry_removeHeldMutex h hk, hentry, haddress]
    simp [shallow, hnot]
  · have hentry := heldEntry_eq_none_iff.mpr hnone
    rw [heq, hentry]
    funext a
    by_cases ha : a = address
    · subst ha
      simp [hentry]
    · simp [Function.update_of_ne ha]

/-- The released flag in the map view: true unless a level remains. -/
theorem fullyReleased_eq (hclean : thread.traceTainted = false) :
    fullyReleased thread address = !decide (heldDepth thread address > 1) := by
  unfold fullyReleased heldDepth heldEntry
  cases findHeldMutex thread address <;> simp [hclean]

end RuntimeMonitor.HeldTables
