import Mathlib.Data.Finset.Card
import Mathlib.Data.Fintype.Card
import Mathlib.Data.Fin.Tuple.Basic

/-!
Fixed-capacity tables searched by a linear scan. A slot is used or free and a
used slot has a key; a search returns the first used slot with the key and an
insertion takes the first free slot. With distinct keys such a table behaves as
a finite map until it is full.
-/
namespace RuntimeMonitor.SlotTables

/-- How an entry is read: its used flag and its key. -/
structure Layout (α κ : Type*) where
  used : α → Bool
  key : α → κ

variable {α κ : Type*} [DecidableEq κ] {n : ℕ} (L : Layout α κ)

def find (slots : Fin n → α) (k : κ) : Option (Fin n) :=
  Fin.find? fun i => L.used (slots i) && decide (L.key (slots i) = k)

def free (slots : Fin n → α) : Option (Fin n) :=
  Fin.find? fun i => !L.used (slots i)

/-- The map that the table stands for. -/
def lookup (slots : Fin n → α) (k : κ) : Option α := (find L slots k).map slots

def Distinct (slots : Fin n → α) : Prop :=
  ∀ i j, L.used (slots i) = true → L.used (slots j) = true →
    L.key (slots i) = L.key (slots j) → i = j

/-- The keys of the used slots whose entry satisfies `p`. -/
def keysWhere (p : α → Bool) (slots : Fin n → α) : Finset κ :=
  (Finset.univ.filter fun i => L.used (slots i) && p (slots i)).image fun i => L.key (slots i)

/-- The number of used slots whose entry satisfies `p`. -/
def countWhere (p : α → Bool) (slots : Fin n → α) : ℕ :=
  (Finset.univ.filter fun i => (L.used (slots i) && p (slots i)) = true).card

variable {L} {slots : Fin n → α} {i j : Fin n} {k : κ} {x : α}

theorem find_spec (h : find L slots k = some i) :
    L.used (slots i) = true ∧ L.key (slots i) = k := by
  simpa using (Fin.find?_eq_some_iff.mp h).1

theorem find_eq_none_iff :
    find L slots k = none ↔ ∀ i, L.used (slots i) = true → L.key (slots i) ≠ k := by
  simp [find]

omit [DecidableEq κ] in
theorem free_spec (h : free L slots = some i) : L.used (slots i) = false := by
  simpa using (Fin.find?_eq_some_iff.mp h).1

omit [DecidableEq κ] in
theorem free_eq_none_iff : free L slots = none ↔ ∀ i, L.used (slots i) = true := by
  simp [free]

theorem find_eq_some_iff (hd : Distinct L slots) :
    find L slots k = some i ↔ L.used (slots i) = true ∧ L.key (slots i) = k := by
  refine ⟨find_spec, fun ⟨hused, hkey⟩ => ?_⟩
  cases hfind : find L slots k with
  | none => exact absurd hkey (find_eq_none_iff.mp hfind i hused)
  | some j =>
    obtain ⟨hj, hkj⟩ := find_spec hfind
    rw [hd i j hused hj (hkey.trans hkj.symm)]

theorem lookup_eq_some_iff (hd : Distinct L slots) :
    lookup L slots k = some x ↔
      ∃ i, L.used (slots i) = true ∧ L.key (slots i) = k ∧ slots i = x := by
  simp only [lookup, Option.map_eq_some_iff, find_eq_some_iff hd, and_assoc]

theorem lookup_eq_none_iff : lookup L slots k = none ↔ find L slots k = none := by
  simp [lookup]

theorem lookup_spec (h : lookup L slots k = some x) : L.used x = true ∧ L.key x = k := by
  simp only [lookup, Option.map_eq_some_iff] at h
  obtain ⟨i, hfind, rfl⟩ := h
  exact find_spec hfind

theorem lookup_slot (hd : Distinct L slots) (hused : L.used (slots i) = true) :
    lookup L slots (L.key (slots i)) = some (slots i) :=
  (lookup_eq_some_iff hd).mpr ⟨i, hused, rfl, rfl⟩

omit [DecidableEq κ] in
/-- Rewriting an entry in place keeps the keys distinct. -/
theorem distinct_update (hd : Distinct L slots) (hused : L.used (slots i) = true)
    (hkey : L.key x = L.key (slots i)) : Distinct L (Function.update slots i x) := by
  intro a b ha hb hab
  have hcast : ∀ c, L.used (Function.update slots i x c) = true →
      L.used (slots c) = true ∧ L.key (Function.update slots i x c) = L.key (slots c) := by
    intro c hc
    by_cases hci : c = i
    · subst hci
      rw [Function.update_self]
      exact ⟨hused, hkey⟩
    · rw [Function.update_of_ne hci] at hc ⊢
      exact ⟨hc, rfl⟩
  obtain ⟨hua, hka⟩ := hcast a ha
  obtain ⟨hub, hkb⟩ := hcast b hb
  exact hd a b hua hub (by rw [← hka, ← hkb, hab])

/-- Filling a free slot under a new key keeps the keys distinct. -/
theorem distinct_insert (hd : Distinct L slots) (hnew : find L slots (L.key x) = none) :
    Distinct L (Function.update slots i x) := by
  have habsent := find_eq_none_iff.mp hnew
  intro a b ha hb hab
  by_cases hai : a = i <;> by_cases hbi : b = i
  · rw [hai, hbi]
  · subst hai
    rw [Function.update_of_ne hbi] at hb hab
    rw [Function.update_self] at hab
    exact absurd hab.symm (habsent b hb)
  · subst hbi
    rw [Function.update_of_ne hai] at ha hab
    rw [Function.update_self] at hab
    exact absurd hab (habsent a ha)
  · rw [Function.update_of_ne hai] at ha hab
    rw [Function.update_of_ne hbi] at hb hab
    exact hd a b ha hb hab

theorem lookup_update (hd : Distinct L slots) (hused : L.used (slots i) = true)
    (hx : L.used x = true) (hkey : L.key x = L.key (slots i)) :
    lookup L (Function.update slots i x) =
      Function.update (lookup L slots) (L.key (slots i)) (some x) := by
  have hd' := distinct_update hd hused hkey
  funext k
  apply Option.ext
  intro y
  by_cases hk : k = L.key (slots i)
  · subst hk
    rw [Function.update_self, Option.some.injEq, lookup_eq_some_iff hd']
    constructor
    · rintro ⟨a, ha, hka, rfl⟩
      by_cases hai : a = i
      · rw [hai, Function.update_self]
      · rw [Function.update_of_ne hai] at ha hka
        exact absurd (hd a i ha hused hka) hai
    · rintro rfl
      exact ⟨i, by rwa [Function.update_self], by rwa [Function.update_self],
        Function.update_self ..⟩
  · rw [Function.update_of_ne hk, lookup_eq_some_iff hd, lookup_eq_some_iff hd']
    constructor
    · rintro ⟨a, ha, hka, rfl⟩
      have hai : a ≠ i := by
        rintro rfl
        rw [Function.update_self, hkey] at hka
        exact hk hka.symm
      rw [Function.update_of_ne hai] at ha hka ⊢
      exact ⟨a, ha, hka, rfl⟩
    · rintro ⟨a, ha, hka, rfl⟩
      have hai : a ≠ i := by
        rintro rfl
        exact hk hka.symm
      exact ⟨a, by rwa [Function.update_of_ne hai], by rwa [Function.update_of_ne hai],
        Function.update_of_ne hai ..⟩

theorem lookup_insert (hd : Distinct L slots) (hfree : L.used (slots i) = false)
    (hx : L.used x = true) (hnew : find L slots (L.key x) = none) :
    lookup L (Function.update slots i x) =
      Function.update (lookup L slots) (L.key x) (some x) := by
  have hd' : Distinct L (Function.update slots i x) := distinct_insert hd hnew
  have habsent := find_eq_none_iff.mp hnew
  funext k
  apply Option.ext
  intro y
  by_cases hk : k = L.key x
  · subst hk
    rw [Function.update_self, Option.some.injEq, lookup_eq_some_iff hd']
    constructor
    · rintro ⟨a, ha, hka, rfl⟩
      by_cases hai : a = i
      · rw [hai, Function.update_self]
      · rw [Function.update_of_ne hai] at ha hka
        exact absurd hka (habsent a ha)
    · rintro rfl
      exact ⟨i, by rwa [Function.update_self], by rw [Function.update_self],
        Function.update_self ..⟩
  · rw [Function.update_of_ne hk, lookup_eq_some_iff hd, lookup_eq_some_iff hd']
    constructor
    · rintro ⟨a, ha, hka, rfl⟩
      have hai : a ≠ i := by
        rintro rfl
        rw [Function.update_self] at hka
        exact hk hka.symm
      rw [Function.update_of_ne hai] at ha hka ⊢
      exact ⟨a, ha, hka, rfl⟩
    · rintro ⟨a, ha, hka, rfl⟩
      have hai : a ≠ i := by
        rintro rfl
        rw [hfree] at ha
        simp at ha
      exact ⟨a, by rwa [Function.update_of_ne hai], by rwa [Function.update_of_ne hai],
        Function.update_of_ne hai ..⟩

/-- Pigeonhole: a table whose keys, together with a missing one, number at most
its capacity still has a free slot. -/
theorem exists_free_of_card (hd : Distinct L slots) {K : Finset κ} (hcard : K.card ≤ n)
    (hkeys : ∀ i, L.used (slots i) = true → L.key (slots i) ∈ K) (hk : k ∈ K)
    (hnew : find L slots k = none) : ∃ i, free L slots = some i := by
  cases hfree : free L slots with
  | some i => exact ⟨i, rfl⟩
  | none =>
    have hall := free_eq_none_iff.mp hfree
    have habsent := find_eq_none_iff.mp hnew
    have hinj : Function.Injective fun i => L.key (slots i) :=
      fun a b hab => hd a b (hall a) (hall b) hab
    have hsub : Finset.univ.image (fun i => L.key (slots i)) ⊆ K.erase k := by
      intro y hy
      obtain ⟨a, -, rfl⟩ := Finset.mem_image.mp hy
      exact Finset.mem_erase.mpr ⟨habsent a (hall a), hkeys a (hall a)⟩
    have hle := Finset.card_le_card hsub
    rw [Finset.card_image_of_injective _ hinj, Finset.card_univ, Fintype.card_fin,
      Finset.card_erase_of_mem hk] at hle
    have hpos : 0 < K.card := Finset.card_pos.mpr ⟨k, hk⟩
    omega

theorem mem_keysWhere (hd : Distinct L slots) {p : α → Bool} :
    k ∈ keysWhere L p slots ↔ ∃ x, lookup L slots k = some x ∧ p x = true := by
  simp only [keysWhere, Finset.mem_image, Finset.mem_filter, Finset.mem_univ, true_and,
    Bool.and_eq_true]
  constructor
  · rintro ⟨i, ⟨hused, hp⟩, rfl⟩
    exact ⟨slots i, lookup_slot hd hused, hp⟩
  · rintro ⟨x, hx, hp⟩
    obtain ⟨i, hused, hkey, rfl⟩ := (lookup_eq_some_iff hd).mp hx
    exact ⟨i, ⟨hused, hp⟩, hkey⟩

theorem card_keysWhere (hd : Distinct L slots) (p : α → Bool) :
    (keysWhere L p slots).card = countWhere L p slots := by
  apply Finset.card_image_of_injOn
  intro a ha b hb hab
  simp only [Finset.coe_filter, Finset.mem_univ, true_and, Set.mem_ofPred_eq,
    Bool.and_eq_true] at ha hb
  exact hd a b ha.1 hb.1 hab

/-- A table is full exactly when it has as many keys as slots. -/
theorem free_eq_none_iff_card (hd : Distinct L slots) {K : Finset κ}
    (hkeys : ∀ k, k ∈ K ↔ lookup L slots k ≠ none) : free L slots = none ↔ n ≤ K.card := by
  have hK : K = keysWhere L (fun _ => true) slots := by
    ext k
    rw [hkeys, mem_keysWhere hd, Option.ne_none_iff_exists']
    simp
  have hall : (Finset.univ.filter fun i => L.used (slots i) = true).card = n ↔
      ∀ i, L.used (slots i) = true := by
    simpa using Finset.card_filter_eq_iff (s := Finset.univ)
      (p := fun i => L.used (slots i) = true)
  have hle : (Finset.univ.filter fun i => L.used (slots i) = true).card ≤ n := by
    simpa using Finset.card_filter_le Finset.univ fun i => L.used (slots i) = true
  rw [hK, card_keysWhere hd, free_eq_none_iff, countWhere, ← hall]
  simp only [Bool.and_true]
  omega

/-- A count over the slots depends only on the map that the table stands for. -/
theorem countWhere_congr {m : ℕ} {slots' : Fin m → α} (hd : Distinct L slots)
    (hd' : Distinct L slots') (p : α → Bool)
    (h : ∀ k, lookup L slots k = lookup L slots' k) :
    countWhere L p slots = countWhere L p slots' := by
  rw [← card_keysWhere hd, ← card_keysWhere hd']
  congr 1
  ext k
  rw [mem_keysWhere hd, mem_keysWhere hd', h]

omit [DecidableEq κ] in
/-- Replacing one entry changes a count by that entry alone. -/
theorem countWhere_update (p : α → Bool) (slots : Fin n → α) (i : Fin n) (x : α) :
    countWhere L p (Function.update slots i x) +
        (if L.used (slots i) && p (slots i) then 1 else 0) =
      countWhere L p slots + (if L.used x && p x then 1 else 0) := by
  have hsplit : ∀ t : Fin n → α, countWhere L p t =
      ((Finset.univ.erase i).filter fun a => (L.used (t a) && p (t a)) = true).card +
        (if L.used (t i) && p (t i) then 1 else 0) := by
    intro t
    unfold countWhere
    rw [← Finset.insert_erase (Finset.mem_univ i), Finset.filter_insert,
      Finset.erase_insert (Finset.notMem_erase i _)]
    split
    · rw [Finset.card_insert_of_notMem (by simp)]
    · rfl
  have hsame : ((Finset.univ.erase i).filter fun a =>
        (L.used (Function.update slots i x a) && p (Function.update slots i x a)) = true) =
      (Finset.univ.erase i).filter fun a => (L.used (slots a) && p (slots a)) = true := by
    apply Finset.filter_congr
    intro a ha
    rw [Function.update_of_ne (Finset.ne_of_mem_erase ha)]
  rw [hsplit (Function.update slots i x), hsplit slots, hsame, Function.update_self]
  omega

omit [DecidableEq κ] in
theorem countWhere_pos {p : α → Bool} (hused : L.used (slots i) = true)
    (hp : p (slots i) = true) : 0 < countWhere L p slots :=
  Finset.card_pos.mpr ⟨i, by simp [hused, hp]⟩

omit [DecidableEq κ] in
theorem countWhere_le (p : α → Bool) (slots : Fin n → α) : countWhere L p slots ≤ n := by
  simpa [countWhere] using Finset.card_le_univ
    (Finset.univ.filter fun i => (L.used (slots i) && p (slots i)) = true)

omit [DecidableEq κ] in
/-- Entries rewritten without touching flags and keys keep the keys distinct. -/
theorem distinct_map {slots' : Fin n → α} (hd : Distinct L slots)
    (hused : ∀ i, L.used (slots' i) = L.used (slots i))
    (hkey : ∀ i, L.key (slots' i) = L.key (slots i)) : Distinct L slots' := by
  intro a b ha hb hab
  rw [hused] at ha hb
  rw [hkey, hkey] at hab
  exact hd a b ha hb hab

theorem lookup_map {f : α → α} (hused : ∀ x, L.used (f x) = L.used x)
    (hkey : ∀ x, L.key (f x) = L.key x) (k : κ) :
    lookup L (fun i => f (slots i)) k = (lookup L slots k).map f := by
  have hfind : find L (fun i => f (slots i)) k = find L slots k := by
    simp only [find, hused, hkey]
  unfold lookup
  rw [hfind, Option.map_map]
  rfl

end RuntimeMonitor.SlotTables
