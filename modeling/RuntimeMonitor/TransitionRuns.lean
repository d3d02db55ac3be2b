import Mathlib.Data.List.Basic

/-!
Finite runs of an executable step function. A step may be refused (`none`);
an accepted step yields the next state and the observations it makes. A run
records the observations in order, so that properties of an interleaving are
properties of its trace. Invariants relate a state to the trace that led to it,
and a simulation carries a run of one system to a run of another.
-/
namespace RuntimeMonitor.TransitionRuns

abbrev Stepper (S A O : Type*) := S → A → Option (S × List O)

variable {S A O : Type*}

inductive Run (step : Stepper S A O) : S → List O → S → Prop
  | nil (s : S) : Run step s [] s
  | snoc {s s' s'' : S} {tr : List O} {a : A} {os : List O} :
      Run step s tr s' → step s' a = some (s'', os) → Run step s (tr ++ os) s''

/-- Execute a list of actions; refused as soon as one of them is. -/
def exec (step : Stepper S A O) : S → List A → Option (S × List O)
  | s, [] => some (s, [])
  | s, a :: rest =>
      (step s a).bind fun r => (exec step r.1 rest).map fun q => (q.1, r.2 ++ q.2)

theorem Run.single {step : Stepper S A O} {s s' : S} {a : A} {os : List O}
    (h : step s a = some (s', os)) : Run step s os s' := by
  simpa using Run.snoc (Run.nil s) h

theorem Run.trans {step : Stepper S A O} {s s' s'' : S} {tr tr' : List O}
    (h : Run step s tr s') (h' : Run step s' tr' s'') : Run step s (tr ++ tr') s'' := by
  induction h' with
  | nil => simpa using h
  | snoc _ hstep ih =>
    rw [← List.append_assoc]
    exact Run.snoc ih hstep

theorem run_of_exec {step : Stepper S A O} {actions : List A} {s s' : S} {tr : List O}
    (h : exec step s actions = some (s', tr)) : Run step s tr s' := by
  induction actions generalizing s tr with
  | nil =>
    simp only [exec, Option.some.injEq, Prod.mk.injEq] at h
    obtain ⟨rfl, rfl⟩ := h
    exact Run.nil s
  | cons a rest ih =>
    simp only [exec, Option.bind_eq_some_iff, Option.map_eq_some_iff, Prod.mk.injEq] at h
    obtain ⟨⟨mid, os⟩, hfirst, ⟨last, tr'⟩, hrest, rfl, rfl⟩ := h
    exact (Run.single hfirst).trans (ih hrest)

/-- The state and the trace after a list of actions that is not refused. -/
def after (step : Stepper S A O) (s : S) (actions : List A) : S × List O :=
  (exec step s actions).getD (s, [])

theorem exec_after {step : Stepper S A O} {s : S} {actions : List A}
    (h : (exec step s actions).isSome = true) :
    exec step s actions = some (after step s actions) := by
  obtain ⟨result, hexec⟩ := Option.isSome_iff_exists.mp h
  unfold after
  rw [hexec]
  rfl

theorem run_after {step : Stepper S A O} {s : S} {actions : List A}
    (h : (exec step s actions).isSome = true) :
    Run step s (after step s actions).2 (after step s actions).1 :=
  run_of_exec (exec_after h)

/-- The invariant rule: what every step preserves, every run preserves. -/
theorem Run.invariant_after {step : Stepper S A O} {I : S → List O → Prop}
    (hstep : ∀ s tr a s' os, I s tr → step s a = some (s', os) → I s' (tr ++ os))
    {s s' : S} {tr : List O} (hrun : Run step s tr s') (before : List O) (h : I s before) :
    I s' (before ++ tr) := by
  induction hrun with
  | nil => simpa using h
  | snoc _ hlast ih =>
    rw [← List.append_assoc]
    exact hstep _ _ _ _ _ ih hlast

theorem Run.invariant {step : Stepper S A O} {I : S → List O → Prop}
    (hstep : ∀ s tr a s' os, I s tr → step s a = some (s', os) → I s' (tr ++ os))
    {s s' : S} {tr : List O} (hrun : Run step s tr s') (h : I s []) : I s' tr :=
  hrun.invariant_after hstep [] h

/-- The state part of the invariant rule, for properties that ignore the trace. -/
theorem Run.state_invariant {step : Stepper S A O} {I : S → Prop}
    (hstep : ∀ s a s' os, I s → step s a = some (s', os) → I s')
    {s s' : S} {tr : List O} (hrun : Run step s tr s') (h : I s) : I s' := by
  induction hrun with
  | nil => exact h
  | snoc _ hlast ih => exact hstep _ _ _ _ ih hlast

/-- Silent steps that lower a rank end in a step that is done. -/
theorem run_ranked {step : Stepper S A O} (Waits : S → Prop) (rank : S → ℕ)
    {Done : S → List O → Prop} (hprogress : ∀ s, Waits s → ∃ a s' os, step s a = some (s', os) ∧
      (os = [] ∧ Waits s' ∧ rank s' < rank s ∨ Done s' os)) {s : S} (h : Waits s) :
    ∃ s' os, Run step s os s' ∧ Done s' os := by
  induction hrank : rank s using Nat.strongRecOn generalizing s with
  | ind r ih =>
    obtain ⟨a, s', os, hstep, ⟨rfl, hnext, hlt⟩ | hdone⟩ := hprogress s h
    · obtain ⟨last, made, hrun, hlast⟩ := ih (rank s') (hrank ▸ hlt) hnext rfl
      exact ⟨last, made, by simpa using (Run.single hstep).trans hrun, hlast⟩
    · exact ⟨s', os, Run.single hstep, hdone⟩

/-- Forward simulation. Each step is matched by a run of the second system that
makes the relabelled observations; unlabelled observations stay internal. -/
theorem Run.simulate {T B P : Type*} {step : Stepper S A O} {step₂ : Stepper T B P}
    (R : S → T → Prop) (label : O → Option P)
    (hstep : ∀ s t a s' os, R s t → step s a = some (s', os) →
      ∃ t', Run step₂ t (os.filterMap label) t' ∧ R s' t')
    {s s' : S} {t : T} {tr : List O} (hrun : Run step s tr s') (h : R s t) :
    ∃ t', Run step₂ t (tr.filterMap label) t' ∧ R s' t' := by
  induction hrun with
  | nil => exact ⟨t, by simpa using Run.nil t, h⟩
  | snoc _ hlast ih =>
    obtain ⟨t₁, hrun₁, hrel₁⟩ := ih
    obtain ⟨t₂, hrun₂, hrel₂⟩ := hstep _ _ _ _ _ hrel₁ hlast
    refine ⟨t₂, ?_, hrel₂⟩
    rw [List.filterMap_append]
    exact hrun₁.trans hrun₂

end RuntimeMonitor.TransitionRuns
