import Mathlib.Data.List.Perm.Basic
import Mathlib.Logic.Function.Basic

/-!
Event lists split by a key. The stream of a key is the sublist of its events in
order; two lists with the same streams are interleavings of one family. A
machine whose state is a map from keys, and whose events rewrite the entry of
their own key, runs each stream on its own: its final map and its outputs, up to
order, do not depend on the interleaving.
-/
namespace RuntimeMonitor.KeyedStreams

variable {E K σ R : Type*} [DecidableEq K]

def stream (key : E → K) (k : K) (events : List E) : List E :=
  events.filter fun e => key e = k

def SameStreams (key : E → K) (events events' : List E) : Prop :=
  ∀ k, stream key k events = stream key k events'

/-- The outputs of a machine along a list of events. -/
def outputs (step : σ → E → σ) (out : σ → E → List R) : σ → List E → List R
  | _, [] => []
  | x, e :: events => out x e ++ outputs step out (step x e) events

/-- The machine on maps that runs `step` in the entry of the event's key. -/
def mapStep (key : E → K) (step : σ → E → σ) (m : K → σ) (e : E) : K → σ :=
  Function.update m (key e) (step (m (key e)) e)

def mapOut (key : E → K) (out : σ → E → List R) (m : K → σ) (e : E) : List R :=
  out (m (key e)) e

variable {key : E → K} {step : σ → E → σ} {out : σ → E → List R}

theorem mem_stream {k : K} {e : E} {events : List E} :
    e ∈ stream key k events ↔ e ∈ events ∧ key e = k := by
  simp [stream]

theorem stream_append (k : K) (events events' : List E) :
    stream key k (events ++ events') = stream key k events ++ stream key k events' :=
  List.filter_append ..

theorem stream_cons_self (e : E) (events : List E) :
    stream key (key e) (e :: events) = e :: stream key (key e) events := by
  simp [stream]

theorem stream_cons_of_ne {k : K} {e : E} (h : key e ≠ k) (events : List E) :
    stream key k (e :: events) = stream key k events := by
  simp [stream, h]

/-- Lists with the same streams are permutations of each other. -/
theorem SameStreams.perm {events events' : List E} (h : SameStreams key events events') :
    events.Perm events' := by
  classical
  rw [List.perm_iff_count]
  intro e
  have hcount : ∀ l : List E, l.count e = (stream key (key e) l).count e := by
    intro l
    rw [stream, List.count_filter (by simp)]
  rw [hcount events, hcount events', h]

theorem foldl_mapStep (events : List E) (m : K → σ) (k : K) :
    events.foldl (mapStep key step) m k = (stream key k events).foldl step (m k) := by
  induction events generalizing m with
  | nil => rfl
  | cons e rest ih =>
    rw [List.foldl_cons, ih]
    by_cases hk : key e = k
    · subst hk
      rw [stream_cons_self, List.foldl_cons, mapStep, Function.update_self]
    · rw [stream_cons_of_ne hk, mapStep, Function.update_of_ne (Ne.symm hk)]

/-- The outputs for one key are the outputs of its stream. -/
theorem stream_outputs {outKey : R → K} (hkey : ∀ x e r, r ∈ out x e → outKey r = key e)
    (events : List E) (m : K → σ) (k : K) :
    stream outKey k (outputs (mapStep key step) (mapOut key out) m events) =
      outputs step out (m k) (stream key k events) := by
  induction events generalizing m with
  | nil => rfl
  | cons e rest ih =>
    rw [outputs, stream_append, ih]
    have hmine : stream outKey k (mapOut key out m e) =
        if key e = k then out (m k) e else [] := by
      split
      · rename_i hk
        subst hk
        apply List.filter_eq_self.mpr
        intro r hr
        simpa using hkey _ _ r hr
      · rename_i hk
        apply List.filter_eq_nil_iff.mpr
        intro r hr hrk
        rw [decide_eq_true_eq, hkey _ _ r hr] at hrk
        exact hk hrk
    rw [hmine]
    by_cases hk : key e = k
    · subst hk
      rw [if_pos rfl, stream_cons_self, outputs, mapStep, Function.update_self]
    · rw [if_neg hk, stream_cons_of_ne hk, mapStep, Function.update_of_ne (Ne.symm hk),
        List.nil_append]

/-- The outputs of two interleavings of one family, key by key. -/
theorem sameStreams_outputs {outKey : R → K} (hkey : ∀ x e r, r ∈ out x e → outKey r = key e)
    {events events' : List E} (h : SameStreams key events events') (m : K → σ) :
    SameStreams outKey (outputs (mapStep key step) (mapOut key out) m events)
      (outputs (mapStep key step) (mapOut key out) m events') := by
  intro k
  rw [stream_outputs hkey, stream_outputs hkey, h]

/-- Outputs that carry the event they were made for occur in the events' order. -/
theorem outputs_sublist {f : R → E} (hone : ∀ x e, ((out x e).map f).Sublist [e]) (x : σ)
    (events : List E) : ((outputs step out x events).map f).Sublist events := by
  induction events generalizing x with
  | nil => exact List.Sublist.refl _
  | cons e rest ih =>
    rw [outputs, List.map_append]
    exact (hone x e).append (ih _)

theorem nodup_of_streams {events : List E} (h : ∀ k, (stream key k events).Nodup) :
    events.Nodup := by
  classical
  rw [List.nodup_iff_count]
  intro e
  have hcount : events.count e = (stream key (key e) events).count e := by
    rw [stream, List.count_filter (by simp)]
  rw [hcount]
  exact List.nodup_iff_count.mp (h (key e)) e

omit [DecidableEq K] in
/-- What holds of every event after the events before it, for one more event. -/
theorem forall_split_snoc {P : List E → E → Prop} {events : List E} {last : E} :
    (∀ before e after, events ++ [last] = before ++ e :: after → P before e) ↔
      (∀ before e after, events = before ++ e :: after → P before e) ∧ P events last := by
  constructor
  · intro h
    refine ⟨fun before e after heq => ?_, h events last [] rfl⟩
    exact h before e (after ++ [last]) (by rw [heq, List.append_assoc, List.cons_append])
  · rintro ⟨hearlier, hlast⟩ before e after heq
    rcases List.eq_nil_or_concat after with rfl | ⟨middle, final, rfl⟩
    · obtain ⟨rfl, hsame⟩ := List.append_inj' heq rfl
      rw [← List.singleton_inj.mp hsame]
      exact hlast
    · apply hearlier before e middle
      have hsplit : events ++ [last] = (before ++ e :: middle) ++ [final] := by
        rw [heq]
        simp
      exact (List.append_inj' hsplit rfl).1

theorem outputs_append (x : σ) (events events' : List E) :
    outputs step out x (events ++ events') =
      outputs step out x events ++ outputs step out (events.foldl step x) events' := by
  induction events generalizing x with
  | nil => rfl
  | cons e rest ih =>
    simp only [List.cons_append, outputs, ih, List.foldl_cons, List.append_assoc]

theorem mem_outputs {r : R} {x : σ} {events : List E} (h : r ∈ outputs step out x events) :
    ∃ x', ∃ e ∈ events, r ∈ out x' e := by
  induction events generalizing x with
  | nil => simp [outputs] at h
  | cons e rest ih =>
    rw [outputs, List.mem_append] at h
    rcases h with h | h
    · exact ⟨x, e, List.mem_cons_self .., h⟩
    · obtain ⟨x', e', hmem, hout⟩ := ih h
      exact ⟨x', e', List.mem_cons_of_mem _ hmem, hout⟩

/-- Every event puts something out from the state it is met in. -/
theorem outputs_of_mem (step : σ → E → σ) (out : σ → E → List R) (x : σ) {e : E}
    {events : List E} (h : e ∈ events) : ∃ x', ∀ r ∈ out x' e, r ∈ outputs step out x events := by
  obtain ⟨before, after, rfl⟩ := List.append_of_mem h
  refine ⟨before.foldl step x, fun r hr => ?_⟩
  rw [outputs_append, outputs]
  exact List.mem_append_right _ (List.mem_append_left _ hr)

end RuntimeMonitor.KeyedStreams
