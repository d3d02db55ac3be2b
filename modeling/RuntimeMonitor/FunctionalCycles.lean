import Mathlib.Data.List.Rotate

/-!
Cycles of a partial function. A cycle is a duplicate-free list whose entries lead
to each other in turn and from the last back to the first. The walk from a vertex
that stops at the first repeated vertex finds the cycle through its start, if
there is one, and nothing else; through each vertex there is at most one cycle up
to rotation.
-/
namespace RuntimeMonitor.FunctionalCycles

variable {V : Type*} [DecidableEq V]

def IsCycle (next : V → Option V) (c : List V) : Prop :=
  c ≠ [] ∧ c.Nodup ∧ c.map next = (c.rotate 1).map some

instance (next : V → Option V) (c : List V) : Decidable (IsCycle next c) :=
  inferInstanceAs (Decidable (_ ∧ _ ∧ _))

/-- Walk on from `v` after the vertices `path`, for at most `n` steps. -/
def walk (next : V → Option V) (start : V) : ℕ → V → List V → Option (List V)
  | 0, _, _ => none
  | n + 1, v, path =>
    match next v with
    | none => none
    | some w =>
      if w = start then some (path ++ [v])
      else if w ∈ path ++ [v] then none
      else walk next start n w (path ++ [v])

variable {next : V → Option V} {start v w : V} {c c' path : List V} {n : ℕ}

omit [DecidableEq V] in
theorem IsCycle.rotate (h : IsCycle next c) (k : ℕ) : IsCycle next (c.rotate k) := by
  obtain ⟨hne, hnodup, hnext⟩ := h
  refine ⟨?_, List.nodup_rotate.mpr hnodup, ?_⟩
  · simpa using hne
  · rw [List.map_rotate, hnext, ← List.map_rotate, List.rotate_rotate, List.rotate_rotate,
      Nat.add_comm]

omit [DecidableEq V] in
/-- The successor of a vertex in the middle of a cycle. -/
theorem IsCycle.next_eq {more : List V} (h : IsCycle next (path ++ v :: more)) :
    next v = (more ++ (path ++ [v])).head? := by
  have hrotate := h.rotate path.length
  rw [List.rotate_append_length_eq] at hrotate
  obtain ⟨-, -, hnext⟩ := hrotate
  rw [List.cons_append, List.rotate_cons_succ, List.rotate_zero, List.map_cons,
    List.append_assoc] at hnext
  cases hlist : more ++ (path ++ [v]) with
  | nil => simp at hlist
  | cons w rest =>
    rw [hlist, List.map_cons, List.cons.injEq] at hnext
    rw [hnext.1, List.head?_cons]

omit [DecidableEq V] in
/-- A cycle is one of every function that agrees on its vertices. -/
theorem IsCycle.congr {next' : V → Option V} (h : IsCycle next c)
    (hsame : ∀ v ∈ c, next' v = next v) : IsCycle next' c := by
  obtain ⟨hne, hnodup, hnext⟩ := h
  refine ⟨hne, hnodup, ?_⟩
  rw [← hnext]
  exact List.map_congr_left hsame

omit [DecidableEq V] in
theorem IsCycle.next_mem (h : IsCycle next c) (hv : v ∈ c) : ∃ w ∈ c, next v = some w := by
  have hmem : next v ∈ c.map next := List.mem_map_of_mem hv
  rw [h.2.2, List.mem_map] at hmem
  obtain ⟨w, hw, heq⟩ := hmem
  exact ⟨w, List.mem_rotate.mp hw, heq.symm⟩

/-- What the walk has seen: from the start along `next` to `v`, without repetition. -/
def Leads (next : V → Option V) (start : V) (path : List V) (v : V) : Prop :=
  (path ++ [v]).Nodup ∧ (path ++ [v]).head? = some start ∧
    path.map next = (path ++ [v]).tail.map some

omit [DecidableEq V] in
theorem leads_start (next : V → Option V) (v : V) : Leads next v [] v := by
  simp [Leads]

omit [DecidableEq V] in
theorem Leads.step (h : Leads next start path v) (hnext : next v = some w) :
    (path ++ [v]).map next = (path ++ [v] ++ [w]).tail.map some := by
  have hlast : [v].map next = [w].map some := by simp [hnext]
  have htail : (path ++ [v] ++ [w]).tail = (path ++ [v]).tail ++ [w] :=
    List.tail_append_of_ne_nil (by simp)
  rw [htail, List.map_append, List.map_append, h.2.2, hlast]

/-- What the walk returns is a cycle through its start. -/
theorem walk_sound (hleads : Leads next start path v)
    (h : walk next start n v path = some c) : IsCycle next c ∧ c.head? = some start := by
  induction n generalizing v path with
  | zero => simp [walk] at h
  | succ n ih =>
    unfold walk at h
    cases hnext : next v with
    | none => simp [hnext] at h
    | some w =>
      have hstep := hleads.step hnext
      obtain ⟨hnodup, hhead, -⟩ := hleads
      simp only [hnext] at h
      by_cases hclose : w = start
      · rw [if_pos hclose, Option.some.injEq] at h
        subst h
        refine ⟨⟨by simp, hnodup, ?_⟩, hhead⟩
        obtain ⟨rest, hrest⟩ : ∃ rest, path ++ [v] = start :: rest := by
          cases hlist : path ++ [v] with
          | nil => simp at hlist
          | cons a rest =>
            rw [hlist, List.head?_cons, Option.some.injEq] at hhead
            exact ⟨rest, by rw [hhead]⟩
        rw [hstep, hrest, hclose, List.rotate_cons_succ, List.rotate_zero]
        rfl
      · rw [if_neg hclose] at h
        by_cases hseen : w ∈ path ++ [v]
        · rw [if_pos hseen] at h
          simp at h
        · rw [if_neg hseen] at h
          refine ih ⟨?_, ?_, hstep⟩ h
          · rw [List.nodup_append]
            refine ⟨hnodup, by simp, ?_⟩
            intro a ha b hb hab
            rw [List.mem_singleton] at hb
            rw [hab, hb] at ha
            exact hseen ha
          · rw [List.head?_append_of_ne_nil _ (by simp), hhead]

/-- The walk follows a cycle to its end. -/
theorem walk_along {more : List V} (h : IsCycle next (path ++ v :: more))
    (hhead : (path ++ [v]).head? = some start) (hn : more.length < n) :
    walk next start n v path = some (path ++ v :: more) := by
  induction n generalizing v path more with
  | zero => omega
  | succ n ih =>
    have hnext := h.next_eq
    unfold walk
    cases more with
    | nil =>
      rw [List.nil_append, hhead] at hnext
      simp [hnext]
    | cons w rest =>
      rw [List.cons_append, List.head?_cons] at hnext
      have hnodup := h.2.1
      have hsplit : path ++ v :: w :: rest = (path ++ [v]) ++ w :: rest := by simp
      rw [hsplit] at h hnodup
      have hnew : w ∉ path ++ [v] := by
        intro hmem
        exact (List.nodup_append.mp hnodup).2.2 w hmem w (List.mem_cons_self ..) rfl
      have hne : w ≠ start := by
        rintro rfl
        exact hnew (List.mem_of_mem_head? hhead)
      simp only [hnext, if_neg hne, if_neg hnew]
      rw [ih h (by rw [List.head?_append_of_ne_nil _ (by simp), hhead])
        (by simp only [List.length_cons] at hn; omega), hsplit]

theorem walk_complete {rest : List V} (h : IsCycle next (start :: rest))
    (hn : rest.length < n) : walk next start n start [] = some (start :: rest) := by
  have hwalk := @walk_along V _ next start start [] n rest (by simpa using h) rfl hn
  simpa using hwalk

/-- Two cycles with a common vertex are rotations of each other. -/
theorem IsCycle.isRotated (h : IsCycle next c) (h' : IsCycle next c') (hv : v ∈ c)
    (hv' : v ∈ c') : c ~r c' := by
  have hfront : ∀ {l : List V}, IsCycle next l → v ∈ l →
      ∃ rest, IsCycle next (v :: rest) ∧ l ~r v :: rest := by
    intro l hl hmem
    obtain ⟨before, after, rfl⟩ := List.append_of_mem hmem
    have hrotate := hl.rotate before.length
    have hrotated : (before ++ v :: after).rotate before.length = v :: (after ++ before) :=
      List.rotate_append_length_eq ..
    rw [hrotated] at hrotate
    exact ⟨after ++ before, hrotate, ⟨before.length, hrotated⟩⟩
  obtain ⟨rest, hcycle, hrot⟩ := hfront h hv
  obtain ⟨rest', hcycle', hrot'⟩ := hfront h' hv'
  have hwalk := walk_complete hcycle (Nat.lt_succ_of_le (Nat.le_max_left _ rest'.length))
  have hwalk' := walk_complete hcycle' (Nat.lt_succ_of_le (Nat.le_max_right rest.length _))
  rw [hwalk, Option.some.injEq] at hwalk'
  rw [hwalk'] at hrot
  exact hrot.trans hrot'.symm

end RuntimeMonitor.FunctionalCycles
