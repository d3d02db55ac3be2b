import RuntimeMonitor.TransitionRuns

/-!
The abstract bounded queue: what a single-producer single-consumer buffer is
for. Enqueue and dequeue are atomic. The run theorem says that everything
popped is a prefix of everything accepted and the contents are the difference.
-/
namespace RuntimeMonitor.BoundedFifo

open TransitionRuns

variable {α : Type*}

inductive Op (α : Type*) where
  | enqueue (x : α)
  | dequeue

inductive Outcome (α : Type*) where
  | accepted (x : α)
  | rejected (x : α)
  | popped (x : α)
  | empty

def step (cap : ℕ) : Stepper (List α) (Op α) (Outcome α)
  | contents, .enqueue x =>
      if contents.length < cap then some (contents ++ [x], [.accepted x])
      else some (contents, [.rejected x])
  | [], .dequeue => some ([], [.empty])
  | x :: rest, .dequeue => some (rest, [.popped x])

def accepted (tr : List (Outcome α)) : List α :=
  tr.filterMap fun | .accepted x => some x | _ => none

def popped (tr : List (Outcome α)) : List α :=
  tr.filterMap fun | .popped x => some x | _ => none

def rejected (tr : List (Outcome α)) : List α :=
  tr.filterMap fun | .rejected x => some x | _ => none

theorem accepted_append (tr tr' : List (Outcome α)) :
    accepted (tr ++ tr') = accepted tr ++ accepted tr' := by
  simp [accepted]

theorem popped_append (tr tr' : List (Outcome α)) :
    popped (tr ++ tr') = popped tr ++ popped tr' := by
  simp [popped]

theorem rejected_append (tr tr' : List (Outcome α)) :
    rejected (tr ++ tr') = rejected tr ++ rejected tr' := by
  simp [rejected]

/-- Conservation of elements by one operation. -/
theorem step_conserves {cap : ℕ} {s s' : List α} {op : Op α} {os : List (Outcome α)}
    (h : step cap s op = some (s', os)) :
    s ++ accepted os = popped os ++ s' := by
  cases op with
  | enqueue x =>
    simp only [step] at h
    split at h <;> cases h <;> simp [accepted, popped]
  | dequeue =>
    cases s <;> cases h <;> simp [accepted, popped]

theorem step_bounded {cap : ℕ} {s s' : List α} {op : Op α} {os : List (Outcome α)}
    (hs : s.length ≤ cap) (h : step cap s op = some (s', os)) : s'.length ≤ cap := by
  cases op with
  | enqueue x =>
    simp only [step] at h
    split at h
    · cases h
      simp only [List.length_append, List.length_singleton]
      omega
    · cases h
      exact hs
  | dequeue =>
    cases s with
    | nil =>
      cases h
      exact hs
    | cons x rest =>
      cases h
      simp only [List.length_cons] at hs
      omega

/-- In every run the accepted elements are the popped ones followed by the contents. -/
theorem run_conserves {cap : ℕ} {s : List α} {tr : List (Outcome α)}
    (h : Run (step cap) [] tr s) : accepted tr = popped tr ++ s := by
  refine h.invariant (I := fun s tr => accepted tr = popped tr ++ s) ?_ rfl
  intro s tr op s' os hs hop
  rw [accepted_append, popped_append, hs, List.append_assoc, List.append_assoc,
    step_conserves hop]

theorem run_bounded {cap : ℕ} {s : List α} {tr : List (Outcome α)}
    (h : Run (step cap) [] tr s) : s.length ≤ cap :=
  h.state_invariant (I := fun s => s.length ≤ cap)
    (fun _ _ _ _ hs hop => step_bounded hs hop) (Nat.zero_le cap)

/-- Everything that one operation can do. -/
theorem step_cases {cap : ℕ} {s s' : List α} {op : Op α} {os : List (Outcome α)}
    (h : step cap s op = some (s', os)) :
    (∃ x, os = [.accepted x] ∧ s.length < cap ∧ s' = s ++ [x]) ∨
      (∃ x, os = [.rejected x] ∧ cap ≤ s.length ∧ s' = s) ∨
      (∃ x, os = [.popped x] ∧ s = x :: s') ∨ os = [.empty] ∧ s = [] ∧ s' = [] := by
  cases op with
  | enqueue x =>
    simp only [step] at h
    split at h
    · rename_i hroom
      cases h
      exact Or.inl ⟨x, rfl, hroom, rfl⟩
    · rename_i hfull
      cases h
      exact Or.inr (Or.inl ⟨x, rfl, Nat.le_of_not_lt hfull, rfl⟩)
  | dequeue =>
    cases s with
    | nil =>
      cases h
      exact Or.inr (Or.inr (Or.inr ⟨rfl, rfl, rfl⟩))
    | cons x rest =>
      cases h
      exact Or.inr (Or.inr (Or.inl ⟨x, rfl, rfl⟩))

theorem step_single {cap : ℕ} {s s' : List α} {op : Op α} {os : List (Outcome α)}
    (h : step cap s op = some (s', os)) : os.length = 1 := by
  rcases step_cases h with ⟨x, rfl, -⟩ | ⟨x, rfl, -⟩ | ⟨x, rfl, -⟩ | ⟨rfl, -⟩ <;> rfl

theorem run_silent {cap : ℕ} {s s' : List α} (h : Run (step cap) s [] s') : s' = s := by
  generalize hnil : ([] : List (Outcome α)) = os at h
  cases h with
  | nil => rfl
  | snoc _ hlast =>
    have hlength := congrArg List.length hnil
    rw [List.length_append, step_single hlast] at hlength
    simp at hlength

/-- A run with one outcome is one operation. -/
theorem run_once {cap : ℕ} {s s' : List α} {o : Outcome α} (h : Run (step cap) s [o] s') :
    ∃ op, step cap s op = some (s', [o]) := by
  generalize hone : [o] = os at h
  cases h with
  | nil => cases hone
  | @snoc middle _ earlier op last hbefore hlast =>
    have hlength := congrArg List.length hone
    rw [List.length_append, step_single hlast] at hlength
    have hnone : earlier = [] := List.eq_nil_of_length_eq_zero (by simpa using hlength.symm)
    subst hnone
    rw [run_silent hbefore] at hlast
    rw [List.nil_append] at hone ⊢
    exact ⟨op, hlast⟩

theorem run_accepted {cap : ℕ} {s s' : List α} {x : α} (h : Run (step cap) s [.accepted x] s') :
    s.length < cap ∧ s' = s ++ [x] := by
  obtain ⟨op, hop⟩ := run_once h
  rcases step_cases hop with ⟨y, hx, hroom, hrest⟩ | ⟨y, hx, -⟩ | ⟨y, hx, -⟩ | ⟨hx, -⟩
  · cases hx
    exact ⟨hroom, hrest⟩
  all_goals cases hx

theorem run_rejected {cap : ℕ} {s s' : List α} {x : α} (h : Run (step cap) s [.rejected x] s') :
    cap ≤ s.length ∧ s' = s := by
  obtain ⟨op, hop⟩ := run_once h
  rcases step_cases hop with ⟨y, hx, -⟩ | ⟨y, hx, hfull, hrest⟩ | ⟨y, hx, -⟩ | ⟨hx, -⟩
  · cases hx
  · exact ⟨hfull, hrest⟩
  all_goals cases hx

theorem run_popped {cap : ℕ} {s s' : List α} {x : α} (h : Run (step cap) s [.popped x] s') :
    s = x :: s' := by
  obtain ⟨op, hop⟩ := run_once h
  rcases step_cases hop with ⟨y, hx, -⟩ | ⟨y, hx, -⟩ | ⟨y, hx, hrest⟩ | ⟨hx, -⟩
  · cases hx
  · cases hx
  · cases hx
    exact hrest
  · cases hx

theorem run_empty {cap : ℕ} {s s' : List α} (h : Run (step cap) s [.empty] s') :
    s = [] ∧ s' = [] := by
  obtain ⟨op, hop⟩ := run_once h
  rcases step_cases hop with ⟨y, hx, -⟩ | ⟨y, hx, -⟩ | ⟨y, hx, -⟩ | ⟨-, hnone⟩
  · cases hx
  · cases hx
  · cases hx
  · exact hnone

end RuntimeMonitor.BoundedFifo
