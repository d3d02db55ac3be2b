import RuntimeMonitor.SlotTables

/-!
Tables without a capacity, searched by the same linear scan as those with one. A table
of fixed capacity whose used slots come before its free ones is the front of such a
table, and as long as it has room its operations are those of the growing table.
-/
namespace RuntimeMonitor.GrowingTables

open SlotTables

/-- The entries below the count are in use. -/
@[ext]
structure GrowingTable (α : Type*) where
  slots : ℕ → α
  count : ℕ

variable {α κ : Type*} [DecidableEq κ] {n : ℕ} {L : Layout α κ}

namespace GrowingTable

def find (table : GrowingTable α) (L : Layout α κ) (k : κ) : Option ℕ :=
  (List.range table.count).find? fun i =>
    L.used (table.slots i) && decide (L.key (table.slots i) = k)

def set (table : GrowingTable α) (i : ℕ) (x : α) : GrowingTable α :=
  { table with slots := Function.update table.slots i x }

/-- A new entry goes behind the last one. -/
def insert (table : GrowingTable α) (x : α) : GrowingTable α :=
  ⟨Function.update table.slots table.count x, table.count + 1⟩

def map (table : GrowingTable α) (f : α → α) : GrowingTable α :=
  { table with slots := fun i => f (table.slots i) }

end GrowingTable

/-- The used slots come first. -/
def Packed (L : Layout α κ) (slots : Fin n → α) : Prop :=
  ∀ i j, i < j → L.used (slots j) = true → L.used (slots i) = true

/-- The index of the first free slot. -/
def usedCount (L : Layout α κ) (slots : Fin n → α) : ℕ :=
  match free L slots with
  | some i => i.val
  | none => n

/-- The growing table that a fixed one is the front of. -/
def grow (L : Layout α κ) (rest : α) (slots : Fin n → α) : GrowingTable α where
  slots i := if h : i < n then slots ⟨i, h⟩ else rest
  count := usedCount L slots

variable {slots : Fin n → α} {rest x : α} {i : Fin n} {k : κ}

omit [DecidableEq κ] in
theorem grow_count (L : Layout α κ) (rest : α) (slots : Fin n → α) :
    (grow L rest slots).count = usedCount L slots := rfl

omit [DecidableEq κ] in
theorem usedCount_le (L : Layout α κ) (slots : Fin n → α) : usedCount L slots ≤ n := by
  unfold usedCount
  cases free L slots with
  | some i => exact i.isLt.le
  | none => exact le_rfl

omit [DecidableEq κ] in
theorem usedCount_of_free (hfree : free L slots = some i) : usedCount L slots = i.val := by
  unfold usedCount
  rw [hfree]

omit [DecidableEq κ] in
theorem Packed.used_iff (h : Packed L slots) :
    L.used (slots i) = true ↔ i.val < usedCount L slots := by
  unfold usedCount
  cases hfree : free L slots with
  | none => exact ⟨fun _ => i.isLt, fun _ => free_eq_none_iff.mp hfree i⟩
  | some j =>
    have hunused := free_spec hfree
    have hfirst := (Fin.find?_eq_some_iff.mp hfree).2
    constructor
    · intro hused
      by_contra hge
      have hle : j ≤ i := Fin.not_lt.mp hge
      rcases hle.lt_or_eq with hlt | heq
      · rw [h j i hlt hused] at hunused
        simp at hunused
      · rw [heq, hused] at hunused
        simp at hunused
    · intro hlt
      simpa using hfirst i hlt

omit [DecidableEq κ] in
@[simp] theorem grow_slot (L : Layout α κ) (rest : α) (slots : Fin n → α) (i : Fin n) :
    (grow L rest slots).slots i.val = slots i := dif_pos i.isLt

omit [DecidableEq κ] in
theorem grow_slots_update (L : Layout α κ) (rest : α) (slots : Fin n → α) (i : Fin n) (x : α) :
    (grow L rest (Function.update slots i x)).slots =
      Function.update (grow L rest slots).slots i.val x := by
  funext m
  by_cases hm : m = i.val
  · subst hm
    rw [Function.update_self, grow_slot, Function.update_self]
  · rw [Function.update_of_ne hm]
    unfold grow
    by_cases hlt : m < n
    · have hne : (⟨m, hlt⟩ : Fin n) ≠ i := fun heq => hm (congrArg Fin.val heq)
      simp only [dif_pos hlt, Function.update_of_ne hne]
    · simp only [dif_neg hlt]

/-- The search finds the same entry in both tables. -/
theorem grow_find (h : Packed L slots) (rest : α) (k : κ) :
    (grow L rest slots).find L k = (find L slots k).map Fin.val := by
  unfold GrowingTable.find
  cases hfind : find L slots k with
  | none =>
    rw [Option.map_none, List.find?_eq_none]
    intro m hm
    have hlt : m < n := (List.mem_range.mp hm).trans_le (usedCount_le L slots)
    have hslot : (grow L rest slots).slots m = slots ⟨m, hlt⟩ := dif_pos hlt
    have habsent := find_eq_none_iff.mp hfind ⟨m, hlt⟩
    rw [hslot]
    simpa using habsent
  | some i =>
    obtain ⟨hp, hfirst⟩ := Fin.find?_eq_some_iff.mp hfind
    have hused : L.used (slots i) = true := (find_spec hfind).1
    rw [Option.map_some, List.find?_range_eq_some]
    refine ⟨by rw [grow_slot]; exact hp, List.mem_range.mpr (h.used_iff.mp hused), ?_⟩
    intro m hm
    have hlt : m < n := hm.trans i.isLt
    have hslot : (grow L rest slots).slots m = slots ⟨m, hlt⟩ := dif_pos hlt
    rw [hslot, hfirst ⟨m, hlt⟩ hm]
    rfl

omit [DecidableEq κ] in
/-- Rewriting used entries leaves the used flags as they are. -/
theorem usedCount_congr {slots' : Fin n → α} (h : ∀ i, L.used (slots' i) = L.used (slots i)) :
    usedCount L slots' = usedCount L slots := by
  unfold usedCount free
  simp only [h]

omit [DecidableEq κ] in
theorem used_update (hused : L.used (slots i) = true) (hx : L.used x = true) (j : Fin n) :
    L.used (Function.update slots i x j) = L.used (slots j) := by
  by_cases heq : j = i
  · rw [heq, Function.update_self, hx, hused]
  · rw [Function.update_of_ne heq]

omit [DecidableEq κ] in
theorem grow_set (rest : α) (hused : L.used (slots i) = true) (hx : L.used x = true) :
    grow L rest (Function.update slots i x) = (grow L rest slots).set i.val x :=
  GrowingTable.ext (grow_slots_update L rest slots i x) (usedCount_congr (used_update hused hx))

omit [DecidableEq κ] in
theorem Packed.congr {slots' : Fin n → α} (h : Packed L slots)
    (hused : ∀ i, L.used (slots' i) = L.used (slots i)) : Packed L slots' := by
  intro i j hlt hj
  rw [hused] at hj ⊢
  exact h i j hlt hj

omit [DecidableEq κ] in
theorem Packed.insert (h : Packed L slots) (hfree : free L slots = some i)
    (hx : L.used x = true) :
    Packed L (Function.update slots i x) := by
  have hfirst := (Fin.find?_eq_some_iff.mp hfree).2
  intro a b hab hb
  by_cases ha : a = i
  · rw [ha, Function.update_self]
    exact hx
  · rw [Function.update_of_ne ha]
    by_cases hbi : b = i
    · rw [hbi] at hab
      simpa using hfirst a hab
    · rw [Function.update_of_ne hbi] at hb
      exact h a b hab hb

omit [DecidableEq κ] in
/-- The first free slot is the one behind the last entry. -/
theorem grow_insert (h : Packed L slots) (rest : α) (hfree : free L slots = some i)
    (hx : L.used x = true) :
    grow L rest (Function.update slots i x) = (grow L rest slots).insert x := by
  have hcount := usedCount_of_free hfree
  have hpacked := h.insert hfree hx
  apply GrowingTable.ext
  · rw [grow_slots_update, ← hcount]
    rfl
  · show usedCount L (Function.update slots i x) = usedCount L slots + 1
    rw [hcount]
    apply le_antisymm
    · by_contra hgt
      have hle := usedCount_le L (Function.update slots i x)
      have hlt : i.val + 1 < n := by omega
      have hnext : (⟨i.val + 1, hlt⟩ : Fin n) ≠ i := by
        intro heq
        have hval := congrArg Fin.val heq
        simp at hval
      have hused := hpacked.used_iff.mpr (show (⟨i.val + 1, hlt⟩ : Fin n).val <
        usedCount L (Function.update slots i x) by
          show i.val + 1 < _
          omega)
      rw [Function.update_of_ne hnext] at hused
      have hbound := h.used_iff.mp hused
      rw [hcount] at hbound
      exact absurd hbound (by simp)
    · have hused : L.used (Function.update slots i x i) = true := by
        rw [Function.update_self]
        exact hx
      exact hpacked.used_iff.mp hused

omit [DecidableEq κ] in
theorem grow_map {f : α → α} (hf : ∀ x, L.used (f x) = L.used x) (hrest : f rest = rest) :
    grow L rest (fun i => f (slots i)) = (grow L rest slots).map f := by
  apply GrowingTable.ext
  · funext m
    unfold grow GrowingTable.map
    by_cases hlt : m < n
    · simp only [dif_pos hlt]
    · simp only [dif_neg hlt, hrest]
  · exact usedCount_congr fun i => hf (slots i)

omit [DecidableEq κ] in
theorem usedCount_unused (hunused : ∀ i, L.used (slots i) = false) : usedCount L slots = 0 := by
  unfold usedCount
  cases hfree : free L slots with
  | some i =>
    have hfirst := (Fin.find?_eq_some_iff.mp hfree).2
    by_contra hpos
    have hlt : (⟨0, i.pos⟩ : Fin n) < i := Nat.pos_of_ne_zero hpos
    simpa [hunused] using hfirst _ hlt
  | none =>
    by_contra hpos
    have hused := free_eq_none_iff.mp hfree ⟨0, Nat.pos_of_ne_zero hpos⟩
    rw [hunused] at hused
    exact Bool.false_ne_true hused

omit [DecidableEq κ] in
theorem grow_unused (hunused : L.used rest = false) :
    grow L rest (fun _ : Fin n => rest) = ⟨fun _ => rest, 0⟩ := by
  apply GrowingTable.ext
  · funext m
    exact dite_eq_ite.trans (ite_self rest)
  · exact usedCount_unused fun _ => hunused

omit [DecidableEq κ] in
/-- A scan of all slots that passes over the unused ones is one of the growing table. -/
theorem grow_findSome {β : Type*} {f : α → Option β} (h : Packed L slots) (rest : α)
    (hunused : ∀ x, L.used x = false → f x = none) :
    (List.range (grow L rest slots).count).findSome? (fun i => f ((grow L rest slots).slots i)) =
      Fin.findSome? fun i => f (slots i) := by
  obtain ⟨spare, hspare⟩ := Nat.exists_eq_add_of_le (usedCount_le L slots)
  have hrange : Fin.findSome? (fun i => f (slots i)) =
      (List.range n).findSome? fun i => f ((grow L rest slots).slots i) := by
    rw [Fin.findSome?_eq_findSome?_finRange, ← List.map_coe_finRange_eq_range,
      List.findSome?_map]
    congr 1
    funext i
    exact congrArg f (grow_slot L rest slots i).symm
  have hsplit : List.range n = List.range (usedCount L slots) ++
      (List.range spare).map (usedCount L slots + ·) := by
    rw [← List.range_add, ← hspare]
  rw [hrange, grow_count, hsplit, List.findSome?_append]
  have hnone : ((List.range spare).map (usedCount L slots + ·)).findSome?
      (fun i => f ((grow L rest slots).slots i)) = none := by
    rw [List.findSome?_eq_none_iff]
    intro m hm
    obtain ⟨k, hk, rfl⟩ := List.mem_map.mp hm
    have hlt : usedCount L slots + k < n := by
      rw [List.mem_range] at hk
      omega
    have hslot : (grow L rest slots).slots (usedCount L slots + k) = slots ⟨_, hlt⟩ := dif_pos hlt
    apply hunused
    rw [hslot, ← Bool.not_eq_true, h.used_iff]
    simp
  rw [hnone, Option.or_none]

end RuntimeMonitor.GrowingTables
