import RuntimeMonitor.MonitorRuntime
import RuntimeMonitor.ThreadVerdicts

/-!
The interposed `pthread_mutex_lock` and `pthread_mutex_unlock`. A call runs the real
function and emits events that classify its result; the held table of the verifier is
compared with what the thread owns by the rules of pthreads. A robust mutex is granted
with `EOWNERDEAD`, which the interceptor emits as a failure.
-/
namespace RuntimeMonitor.InterposedCalls

open EventRecord VerifierTables VerifierCycles VerifierInvariant VerifierMaps HeldTables
open KeyedStreams SequenceGaps AuthoritativeTraces StreamTracking ThreadVerdicts MonitorRuntime

/-- `EOWNERDEAD` on Linux: the mutex is granted, its previous owner died. -/
abbrev eOwnerDead : ℤ := 130

def lockRequest (mutex : ℕ) : EmitRequest := ⟨.lockRequest, mutex, 0⟩

def lockReturned (mutex : ℕ) (rc : ℤ) : EmitRequest :=
  if rc = 0 then ⟨.lockAcquired, mutex, rc⟩ else ⟨.lockFailed, mutex, rc⟩

def unlockReturned (mutex : ℕ) (rc : ℤ) : EmitRequest :=
  if rc = 0 then ⟨.unlocked, mutex, rc⟩ else ⟨.unlockFailed, mutex, rc⟩

/-- The emissions of one call, in which the real function returns `rc`; activity of the
monitor itself is `internal` and bypasses the emissions. -/
def pthreadMutexLock (internal : Bool) (mutex : ℕ) (rc : ℤ) : List EmitRequest :=
  if internal then [] else [lockRequest mutex, lockReturned mutex rc]

def pthreadMutexUnlock (internal : Bool) (mutex : ℕ) (rc : ℤ) : List EmitRequest :=
  if internal then [] else [unlockReturned mutex rc]

/-- A returned call of an application thread and its result. -/
inductive InterposedCall where
  | lock (mutex : ℕ) (rc : ℤ)
  | unlock (mutex : ℕ) (rc : ℤ)
  deriving DecidableEq, Repr

def InterposedCall.emits : InterposedCall → List EmitRequest
  | .lock mutex rc => pthreadMutexLock false mutex rc
  | .unlock mutex rc => pthreadMutexUnlock false mutex rc

def InterposedCall.locks : InterposedCall → Bool
  | .lock _ _ => true
  | .unlock _ _ => false

/-- The emissions of a thread with this history of calls, and with the request of a lock
call that has not returned. -/
def emissions (history : List InterposedCall) (entered : Option ℕ) : List EmitRequest :=
  threadStart :: history.flatMap InterposedCall.emits ++ (entered.map lockRequest).toList

/-- What a call does to the number of levels that the thread owns of a mutex. -/
def InterposedCall.owns (address levels : ℕ) : InterposedCall → ℕ
  | .lock mutex rc =>
    if mutex = address ∧ (rc = 0 ∨ rc = eOwnerDead) then levels + 1 else levels
  | .unlock mutex rc => if mutex = address ∧ rc = 0 then levels - 1 else levels

/-- The number of levels that the thread owns of a mutex after its calls. -/
def owned (history : List InterposedCall) (address : ℕ) : ℕ :=
  history.foldl (InterposedCall.owns address) 0

/-- The call grants a level that the held table does not record: its result is emitted as
a failure, or the recorded depth is at the limit of its type. -/
def GrantUnrecorded (history : List InterposedCall) : InterposedCall → Prop
  | .lock mutex rc => rc = eOwnerDead ∨ rc = 0 ∧ owned history mutex = uint32Max
  | .unlock _ _ => False

/-- The held table lists the owned mutexes, each once, with its depth. -/
structure HoldsOwned (thread : VerifierThreadState) (levels : ℕ → ℕ) : Prop where
  listed : ∀ k, k < thread.heldCount → 0 < levels (thread.heldMutexes k).address ∧
    (thread.heldMutexes k).depth = levels (thread.heldMutexes k).address
  complete : ∀ address, 0 < levels address →
    ∃! k, k < thread.heldCount ∧ (thread.heldMutexes k).address = address

/-- The effect of an emission on the recorded depth of a mutex. -/
def depthStep (address depth : ℕ) (request : EmitRequest) : ℕ :=
  if request.objectAddress = address then
    match request.eventType with
    | .lockAcquired => depth + 1
    | .unlocked => depth - 1
    | _ => depth
  else depth

def depthOf (requests : List EmitRequest) (address : ℕ) : ℕ :=
  requests.foldl (depthStep address) 0

variable {thread : VerifierThreadState} {levels : ℕ → ℕ} {history completed : List InterposedCall}
  {call : InterposedCall} {entered : Option ℕ} {address maxHoldNs threadId : ℕ}
  {calls : List Call} {requests : List EmitRequest}

section Tables

/-- The table view of the recorded depths. -/
theorem holdsOwned_iff (hok : HeldOk thread) :
    HoldsOwned thread levels ↔ ∀ address, heldDepth thread address = levels address := by
  constructor
  · rintro ⟨hlisted, hcomplete⟩ address
    by_cases hpos : 0 < levels address
    · obtain ⟨k, ⟨hk, heq⟩, -⟩ := hcomplete address hpos
      have hentry : heldEntry thread address = some (thread.heldMutexes k) :=
        hok.heldEntry_eq_some_iff.mpr ⟨k, hk, rfl, heq⟩
      unfold heldDepth
      rw [hentry, ← heq]
      exact (hlisted k hk).2
    · by_contra hne
      have hheld : 0 < heldDepth thread address := by omega
      obtain ⟨held, hentry⟩ := Option.isSome_iff_exists.mp (hok.heldDepth_pos_iff.mp hheld)
      obtain ⟨k, hk, rfl, heq⟩ := hok.heldEntry_eq_some_iff.mp hentry
      rw [← heq] at hpos
      exact hpos (hlisted k hk).1
  · intro hdepth
    constructor
    · intro k hk
      have hentry : heldEntry thread (thread.heldMutexes k).address =
          some (thread.heldMutexes k) := hok.heldEntry_eq_some_iff.mpr ⟨k, hk, rfl, rfl⟩
      have heq := hdepth (thread.heldMutexes k).address
      unfold heldDepth at heq
      rw [hentry] at heq
      have hpos := hok.depth_pos k hk
      simp only at heq
      exact ⟨by omega, heq⟩
    · intro address hpos
      rw [← hdepth, hok.heldDepth_pos_iff, Option.isSome_iff_exists] at hpos
      obtain ⟨held, hentry⟩ := hpos
      obtain ⟨k, hk, rfl, heq⟩ := hok.heldEntry_eq_some_iff.mp hentry
      exact ⟨k, ⟨hk, heq⟩, fun j ⟨hj, hsame⟩ => hok.distinct j k hj hk (hsame.trans heq.symm)⟩

theorem heldDepth_le (hok : HeldOk thread) (address : ℕ) :
    heldDepth thread address ≤ uint32Max := by
  unfold heldDepth
  cases hentry : heldEntry thread address with
  | none => exact Nat.zero_le _
  | some held =>
    obtain ⟨k, hk, rfl, -⟩ := hok.heldEntry_eq_some_iff.mp hentry
    exact hok.depth_le k hk

/-- The recorded depth of the reference depends on the emissions alone. -/
theorem holdingOf_depth (events : List MonitorEvent) (address : ℕ) :
    (holdingOf events address).depth = depthOf (events.map requestOf) address := by
  induction events using List.reverseRecOn with
  | nil => rfl
  | append_singleton events event ih =>
    rw [holdingOf_snoc, List.map_append, depthOf, List.foldl_append, ← depthOf, ← ih]
    show _ = depthStep address _ (requestOf event)
    unfold Holding.next depthStep requestOf
    split
    · cases event.eventType <;> rfl
    · rfl

end Tables

section Histories

theorem owns_lock (address levels mutex : ℕ) (rc : ℤ) :
    (InterposedCall.lock mutex rc).owns address levels =
      if mutex = address ∧ (rc = 0 ∨ rc = eOwnerDead) then levels + 1 else levels := rfl

theorem owns_unlock (address levels mutex : ℕ) (rc : ℤ) :
    (InterposedCall.unlock mutex rc).owns address levels =
      if mutex = address ∧ rc = 0 then levels - 1 else levels := rfl

theorem owned_snoc (history : List InterposedCall) (call : InterposedCall) (address : ℕ) :
    owned (history ++ [call]) address = call.owns address (owned history address) := by
  unfold owned
  rw [List.foldl_append, List.foldl_cons, List.foldl_nil]

theorem emissions_snoc (history : List InterposedCall) (call : InterposedCall) :
    emissions (history ++ [call]) none = emissions history none ++ call.emits := by
  unfold emissions
  simp

theorem emissions_entered (history : List InterposedCall) (entered : Option ℕ) :
    emissions history entered = emissions history none ++ (entered.map lockRequest).toList := by
  unfold emissions
  simp

theorem emissions_prefix (completed remaining : List InterposedCall) (entered : Option ℕ) :
    emissions completed none <+: emissions (completed ++ remaining) entered := by
  rw [emissions_entered (completed ++ remaining)]
  apply List.IsPrefix.trans _ (List.prefix_append _ _)
  unfold emissions
  rw [List.flatMap_append, Option.map_none, Option.toList_none, List.append_nil, List.append_nil]
  exact (List.prefix_cons_inj _).mpr (List.prefix_append _ _)

theorem depthOf_append (first second : List EmitRequest) (address : ℕ) :
    depthOf (first ++ second) address = second.foldl (depthStep address)
      (depthOf first address) :=
  List.foldl_append

theorem depthStep_lockRequest (address depth mutex : ℕ) :
    depthStep address depth (lockRequest mutex) = depth := by
  unfold depthStep lockRequest
  split <;> rfl

/-- The request of a call that has not returned records nothing. -/
theorem depthOf_entered (history : List InterposedCall) (entered : Option ℕ) (address : ℕ) :
    depthOf (emissions history entered) address = depthOf (emissions history none) address := by
  rw [emissions_entered, depthOf_append]
  cases entered with
  | none => rfl
  | some mutex => exact depthStep_lockRequest address _ mutex

/-- The emissions of a call record what the call grants, unless it is granted with
`EOWNERDEAD`. -/
theorem depthOf_emits (hdead : ∀ mutex, call ≠ .lock mutex eOwnerDead) (address depth : ℕ) :
    call.emits.foldl (depthStep address) depth = call.owns address depth := by
  cases call with
  | lock mutex rc =>
    have hrc : rc ≠ eOwnerDead := fun heq => hdead mutex (by rw [heq])
    show depthStep address (depthStep address depth (lockRequest mutex)) (lockReturned mutex rc) =
      _
    rw [depthStep_lockRequest, owns_lock]
    unfold depthStep lockReturned
    by_cases hzero : rc = 0 <;> simp [hzero, hrc]
  | unlock mutex rc =>
    show depthStep address depth (unlockReturned mutex rc) = _
    rw [owns_unlock]
    unfold depthStep unlockReturned
    by_cases hzero : rc = 0 <;> simp [hzero]

theorem depthOf_dead (address depth mutex : ℕ) :
    (InterposedCall.lock mutex eOwnerDead).emits.foldl (depthStep address) depth = depth := by
  show depthStep address (depthStep address depth (lockRequest mutex))
    (lockReturned mutex eOwnerDead) = _
  rw [depthStep_lockRequest, lockReturned, if_neg (by decide)]
  unfold depthStep
  split <;> rfl

/-- The emissions are those of the first calls of the history, perhaps with the request
of a further one. -/
def EmittedBy (history : List InterposedCall) (requests : List EmitRequest) : Prop :=
  requests = [] ∨ ∃ completed remaining entered, history = completed ++ remaining ∧
    requests = emissions completed entered

/-- No grant of the history goes unrecorded. -/
def Recorded (history : List InterposedCall) : Prop :=
  ∀ before call after, history = before ++ call :: after → ¬ GrantUnrecorded before call

theorem recorded_nil : Recorded [] := by
  intro before call after heq
  simp at heq

theorem recorded_snoc :
    Recorded (history ++ [call]) ↔ Recorded history ∧ ¬ GrantUnrecorded history call :=
  forall_split_snoc

theorem Recorded.initial {rest : List InterposedCall} (h : Recorded (history ++ rest)) :
    Recorded history := by
  intro before call after heq
  exact h before call (after ++ rest) (by rw [heq, List.append_assoc, List.cons_append])

/-- The emissions record what the calls own, unless a mutex is granted with `EOWNERDEAD`. -/
theorem depthOf_owned (hdead : ∀ mutex, .lock mutex eOwnerDead ∉ history) (address : ℕ) :
    depthOf (emissions history none) address = owned history address := by
  induction history using List.reverseRecOn with
  | nil =>
    unfold depthOf emissions depthStep threadStart
    simp [owned]
  | append_singleton history call ih =>
    have hlast : ∀ mutex, call ≠ .lock mutex eOwnerDead := by
      rintro mutex rfl
      exact hdead mutex (List.mem_append_right _ (List.mem_singleton_self _))
    rw [emissions_snoc, depthOf_append, depthOf_emits hlast, owned_snoc,
      ih fun mutex hmem => hdead mutex (List.mem_append_left _ hmem)]

theorem Recorded.alive (h : Recorded history) (mutex : ℕ) : .lock mutex eOwnerDead ∉ history := by
  intro hmem
  obtain ⟨before, after, heq⟩ := List.append_of_mem hmem
  exact h before _ after heq (Or.inl rfl)

/-- A history without unrecorded grants is recorded with its depths. -/
theorem Recorded.depthOf_eq (h : Recorded history) (address : ℕ) :
    depthOf (emissions history none) address = owned history address ∧
      owned history address ≤ uint32Max := by
  refine ⟨depthOf_owned h.alive address, ?_⟩
  induction history using List.reverseRecOn with
  | nil => exact Nat.zero_le _
  | append_singleton history call ih =>
    obtain ⟨hrecorded, hlast⟩ := recorded_snoc.mp h
    have hle := ih hrecorded
    rw [owned_snoc]
    cases call with
    | lock mutex rc =>
      obtain ⟨hrc, hlimit⟩ := not_or.mp hlast
      rw [owns_lock]
      split
      · rename_i hgrant
        obtain ⟨rfl, hgrant⟩ := hgrant
        have hne : owned history mutex ≠ uint32Max :=
          fun hfull => hlimit ⟨hgrant.resolve_right hrc, hfull⟩
        omega
      · exact hle
    | unlock mutex rc =>
      rw [owns_unlock]
      split <;> omega

theorem EmittedBy.later (h : EmittedBy history requests) (rest : List InterposedCall) :
    EmittedBy (history ++ rest) requests := by
  rcases h with hnone | ⟨completed, remaining, entered, heq, hrequests⟩
  · exact Or.inl hnone
  · exact Or.inr ⟨completed, remaining ++ rest, entered, by rw [heq, List.append_assoc],
      hrequests⟩

theorem emittedBy_emissions (history : List InterposedCall) (entered : Option ℕ) :
    EmittedBy history (emissions history entered) :=
  Or.inr ⟨history, [], entered, (List.append_nil _).symm, rfl⟩

/-- The first emissions of the returned calls of a history. -/
theorem emittedBy_returned (h : requests <+: emissions history none) :
    EmittedBy history requests := by
  induction history using List.reverseRecOn with
  | nil =>
    rcases List.prefix_concat_iff.mp (show requests <+: [] ++ [threadStart] from h) with
      heq | hnone
    · rw [heq]
      exact emittedBy_emissions [] none
    · exact Or.inl (List.prefix_nil.mp hnone)
  | append_singleton history call ih =>
    have hall := emittedBy_emissions (history ++ [call]) none
    rw [emissions_snoc] at h hall
    cases call with
    | lock mutex rc =>
      have hinside := (emittedBy_emissions history (some mutex)).later [.lock mutex rc]
      have hsplit : emissions history none ++ (InterposedCall.lock mutex rc).emits =
          emissions history (some mutex) ++ [lockReturned mutex rc] := by
        rw [emissions_entered history (some mutex), List.append_assoc]
        rfl
      rw [hsplit, List.prefix_concat_iff, ← hsplit] at h
      rcases h with heq | h
      · rw [heq]
        exact hall
      · rw [emissions_entered] at h hinside
        rcases List.prefix_concat_iff.mp h with heq | h
        · rw [heq]
          exact hinside
        · exact (ih h).later _
    | unlock mutex rc =>
      rcases List.prefix_concat_iff.mp h with heq | h
      · rw [heq]
        exact hall
      · exact (ih h).later _

/-- The first emissions of a history are those of its first calls, perhaps with the
request of the next one. -/
theorem emittedBy_initial (h : requests <+: emissions history entered) :
    EmittedBy history requests := by
  cases entered with
  | none => exact emittedBy_returned h
  | some mutex =>
    have hall := emittedBy_emissions history (some mutex)
    rw [emissions_entered] at h hall
    rcases List.prefix_concat_iff.mp h with heq | h
    · rw [heq]
      exact hall
    · exact emittedBy_returned h

theorem EmittedBy.cases_snoc (h : EmittedBy (history ++ [call]) requests) :
    EmittedBy history requests ∨ ∃ entered, requests = emissions (history ++ [call]) entered := by
  rcases h with hnone | ⟨completed, remaining, entered, heq, hrequests⟩
  · exact Or.inl (Or.inl hnone)
  · rcases List.eq_nil_or_concat remaining with rfl | ⟨middle, last, rfl⟩
    · rw [List.append_nil] at heq
      rw [heq]
      exact Or.inr ⟨entered, hrequests⟩
    · rw [List.concat_eq_append, ← List.append_assoc] at heq
      exact Or.inl (Or.inr ⟨completed, middle, entered, (List.append_inj' heq rfl).1, hrequests⟩)

theorem Recorded.depthOf_le (h : Recorded history) (hemitted : EmittedBy history requests)
    (address : ℕ) : depthOf requests address ≤ uint32Max := by
  rcases hemitted with rfl | ⟨completed, remaining, entered, rfl, rfl⟩
  · exact Nat.zero_le _
  · obtain ⟨heq, hle⟩ := h.initial.depthOf_eq address
    rw [depthOf_entered, heq]
    exact hle

theorem owned_le_locks (history : List InterposedCall) (address : ℕ) :
    owned history address ≤ history.countP InterposedCall.locks := by
  induction history using List.reverseRecOn with
  | nil => exact le_rfl
  | append_singleton history call ih =>
    rw [owned_snoc, List.countP_append]
    cases call with
    | lock mutex rc =>
      have hone : [InterposedCall.lock mutex rc].countP InterposedCall.locks = 1 := rfl
      rw [owns_lock, hone]
      split <;> omega
    | unlock mutex rc =>
      rw [owns_unlock]
      split <;> omega

/-- Every grant is recorded in a history with not too many locks that meets no dead owner. -/
theorem recorded_of_few (hfew : history.countP InterposedCall.locks ≤ uint32Max)
    (hdead : ∀ mutex, .lock mutex eOwnerDead ∉ history) : Recorded history := by
  intro before call after heq hgrant
  cases call with
  | unlock mutex rc => exact hgrant
  | lock mutex rc =>
    rcases hgrant with rfl | ⟨-, hlimit⟩
    · exact hdead mutex (heq ▸ List.mem_append_right _ List.mem_cons_self)
    · have hle := owned_le_locks before mutex
      rw [heq, List.countP_append, List.countP_cons_of_pos rfl] at hfew
      omega

/-- After a further call, a table with the recorded depths lists what the thread owns only
if the call's grant is recorded. -/
theorem Recorded.not_unrecorded (hrecorded : Recorded history) (hok : HeldOk thread)
    (hdepth : (∀ requests, requests <+: emissions (history ++ [call]) none →
        ∀ address, depthOf requests address ≤ uint32Max) → ∀ address,
      heldDepth thread address = depthOf (emissions (history ++ [call]) none) address)
    (hholds : HoldsOwned thread (owned (history ++ [call]))) :
    ¬ GrantUnrecorded history call := by
  intro hgrant
  cases call with
  | unlock mutex rc => exact hgrant
  | lock mutex rc =>
    have hheld := (holdsOwned_iff hok).mp hholds mutex
    rcases hgrant with rfl | ⟨rfl, hlimit⟩
    · have hsame : ∀ address, depthOf (emissions (history ++ [.lock mutex eOwnerDead]) none)
          address = owned history address := by
        intro address
        rw [emissions_snoc, depthOf_append, depthOf_dead, (hrecorded.depthOf_eq address).1]
      have hbounded := hdepth (by
        intro requests hprefix address
        rcases (emittedBy_initial hprefix).cases_snoc with hearlier | ⟨entered', rfl⟩
        · exact hrecorded.depthOf_le hearlier address
        · rw [depthOf_entered, hsame]
          exact (hrecorded.depthOf_eq address).2)
      rw [hbounded, hsame, owned_snoc, owns_lock, if_pos (by simp)] at hheld
      omega
    · rw [owned_snoc, owns_lock, if_pos (by simp), hlimit] at hheld
      have hle := heldDepth_le hok mutex
      omega

end Histories

section Runs

/-- The calls up to some emissions of the thread. -/
theorem exists_delivered (h : requests <+: (deliveredTo threadId calls).map requestOf) :
    ∃ done rest, calls = done ++ rest ∧ (deliveredTo threadId done).map requestOf = requests := by
  induction calls using List.reverseRecOn with
  | nil => exact ⟨[], [], rfl, (List.prefix_nil.mp h).symm⟩
  | append_singleton calls call ih =>
    by_cases hown : ∃ event, call = .processEvent event ∧ event.threadId = threadId
    · obtain ⟨event, rfl, hid⟩ := hown
      have hall := deliveredTo_own hid calls
      rw [hall, List.map_append, List.map_singleton, List.prefix_concat_iff] at h
      rcases h with heq | h
      · exact ⟨_, [], (List.append_nil _).symm, by rw [hall, List.map_append, heq]; rfl⟩
      · obtain ⟨done, rest, rfl, hdone⟩ := ih h
        exact ⟨done, rest ++ [.processEvent event], List.append_assoc .., hdone⟩
    · have hother : deliveredTo threadId (calls ++ [call]) = deliveredTo threadId calls :=
        deliveredTo_other (fun event heq hid => hown ⟨event, heq, hid⟩) calls
      rw [hother] at h
      obtain ⟨done, rest, rfl, hdone⟩ := ih h
      exact ⟨done, rest ++ [call], List.append_assoc .., hdone⟩

theorem delivered_prefix (first second : List Call) :
    (deliveredTo threadId first).map requestOf <+:
      (deliveredTo threadId (first ++ second)).map requestOf := by
  rw [deliveredTo, deliveredTo, callEvents_append, stream_append, List.map_append]
  exact List.prefix_append ..

/-- The held table has the recorded depths, as long as they fit their type. -/
theorem heldDepth_delivered (maxHoldNs : ℕ)
    (hgapfree : NumberedFrom 0 (deliveredTo threadId calls))
    (hoverflow : ∀ done rest, calls = done ++ rest →
      (runCalls (monitorVerifierInit maxHoldNs) done).stateOverflowEvents = 0)
    (hbound : ∀ requests, requests <+: (deliveredTo threadId calls).map requestOf →
      ∀ address, depthOf requests address ≤ uint32Max) (address : ℕ) :
    heldDepth (threadAt (runCalls (monitorVerifierInit maxHoldNs) calls) threadId) address =
      depthOf ((deliveredTo threadId calls).map requestOf) address := by
  have hreferenced := referenced_runCalls maxHoldNs hgapfree hoverflow (by
    intro done rest heq a
    have hle := hbound _ (heq ▸ delivered_prefix done rest) a
    rw [holdingOf_depth]
    unfold uint32Max at hle
    omega)
  rw [hreferenced.heldDepth_eq, holdingOf_depth]

end Runs

/-- On the delivered events of a thread's calls, with no event lost and no table overflow,
the held table lists what the thread owns, with the depths, after every call, exactly when
no call is granted with `EOWNERDEAD` and none grants a level beyond the limit of a depth. -/
theorem held_matches_owned (maxHoldNs : ℕ) {calls : List Call} {threadId : ℕ}
    {history : List InterposedCall} {entered : Option ℕ}
    (hdelivered : (deliveredTo threadId calls).map requestOf = emissions history entered)
    (hgapfree : NumberedFrom 0 (deliveredTo threadId calls))
    (hoverflow : ∀ done rest, calls = done ++ rest →
      (runCalls (monitorVerifierInit maxHoldNs) done).stateOverflowEvents = 0) :
    (∀ done rest completed remaining waiting, calls = done ++ rest →
        history = completed ++ remaining →
        (deliveredTo threadId done).map requestOf = emissions completed waiting →
        HoldsOwned (threadAt (runCalls (monitorVerifierInit maxHoldNs) done) threadId)
          (owned completed)) ↔
      ∀ before call after, history = before ++ call :: after → ¬ GrantUnrecorded before call := by
  have hok := fun done => threadAt_heldOk (wellFormed_runCalls (wellFormed_init maxHoldNs) done)
    threadId
  have hdepth : ∀ done rest, calls = done ++ rest →
      (∀ requests, requests <+: (deliveredTo threadId done).map requestOf →
        ∀ address, depthOf requests address ≤ uint32Max) → ∀ address,
      heldDepth (threadAt (runCalls (monitorVerifierInit maxHoldNs) done) threadId) address =
        depthOf ((deliveredTo threadId done).map requestOf) address := by
    intro done rest heq
    apply heldDepth_delivered maxHoldNs
    · rw [heq] at hgapfree
      exact numbered_initial hgapfree
    · intro first second hsplit
      exact hoverflow first (second ++ rest) (by rw [heq, hsplit, List.append_assoc])
  constructor
  · intro hholds
    suffices hrecorded : ∀ completed remaining, history = completed ++ remaining →
        Recorded completed from hrecorded history [] (List.append_nil _).symm
    intro completed
    induction completed using List.reverseRecOn with
    | nil => exact fun _ _ => recorded_nil
    | append_singleton completed call ih =>
      intro remaining heq
      have hrecorded := ih (call :: remaining) (by rw [heq, List.append_assoc]; rfl)
      refine recorded_snoc.mpr ⟨hrecorded, ?_⟩
      -- the calls up to the last emission of this call
      obtain ⟨done, rest, hcalls, hdone⟩ : ∃ done rest, calls = done ++ rest ∧
          (deliveredTo threadId done).map requestOf = emissions (completed ++ [call]) none := by
        apply exists_delivered
        rw [hdelivered, heq]
        exact emissions_prefix _ _ _
      apply hrecorded.not_unrecorded (hok done)
      · rw [← hdone]
        exact hdepth done rest hcalls
      · exact hholds done rest (completed ++ [call]) remaining none hcalls heq hdone
  · intro hrecorded done rest completed remaining waiting hcalls hhistory hdone
    have hcompleted : Recorded completed := by
      rw [hhistory] at hrecorded
      exact Recorded.initial hrecorded
    rw [holdsOwned_iff (hok done)]
    intro address
    rw [hdepth done rest hcalls, hdone, depthOf_entered, (hcompleted.depthOf_eq address).1]
    rw [hdone]
    intro requests hprefix
    exact hcompleted.depthOf_le (emittedBy_initial hprefix)

/-- Thread 1 takes a robust mutex whose owner has died. -/
def orphanedLock : List Call :=
  [.processEvent (sampleEvent 0 1 0 0 .threadStart),
    .processEvent (sampleEvent 1 1 1 100 .lockRequest),
    .processEvent { sampleEvent 2 1 2 100 .lockFailed with result := eOwnerDead }]

theorem held_matches_owned_orphaned :
    (deliveredTo 1 orphanedLock).map requestOf = emissions [.lock 100 eOwnerDead] none ∧
      NumberedFrom 0 (deliveredTo 1 orphanedLock) ∧
      (∀ done rest, orphanedLock = done ++ rest →
        (runCalls (monitorVerifierInit 0) done).stateOverflowEvents = 0) ∧
      ¬ HoldsOwned (threadAt (runCalls (monitorVerifierInit 0) orphanedLock) 1)
        (owned [.lock 100 eOwnerDead]) := by
  refine ⟨by decide, by simp [orphanedLock, callEvents, stream, sampleEvent, NumberedFrom], ?_,
    ?_⟩
  · have hall : ∀ done ∈ orphanedLock.inits,
        (runCalls (monitorVerifierInit 0) done).stateOverflowEvents = 0 := by decide +kernel
    intro done rest heq
    exact hall done (by rw [List.mem_inits, heq]; exact List.prefix_append done rest)
  · intro hholds
    have hempty : (threadAt (runCalls (monitorVerifierInit 0) orphanedLock) 1).heldCount = 0 := by
      decide +kernel
    obtain ⟨k, ⟨hk, -⟩, -⟩ := hholds.complete 100 (by decide)
    omega

/-- Thread 1 takes mutex 100 twice, fails to take mutex 200, releases one level of mutex
100 and fails to release mutex 300; thread 2 and a check come in between. -/
def mixedResults : List Call :=
  [.processEvent (sampleEvent 0 1 0 0 .threadStart),
    .processEvent (sampleEvent 1 1 1 100 .lockRequest),
    .processEvent (sampleEvent 2 1 2 100 .lockAcquired),
    .processEvent (sampleEvent 3 2 0 0 .threadStart),
    .processEvent (sampleEvent 4 1 3 100 .lockRequest),
    .processEvent (sampleEvent 5 1 4 100 .lockAcquired), .checkDeadlocks,
    .processEvent (sampleEvent 6 1 5 200 .lockRequest),
    .processEvent { sampleEvent 7 1 6 200 .lockFailed with result := 16 },
    .processEvent (sampleEvent 8 1 7 100 .unlocked),
    .processEvent { sampleEvent 9 1 8 300 .unlockFailed with result := 1 }]

theorem held_matches_owned_mixed :
    HoldsOwned (threadAt (runCalls (monitorVerifierInit 0) mixedResults) 1)
      (owned [.lock 100 0, .lock 100 0, .lock 200 16, .unlock 100 0, .unlock 300 1]) := by
  have hinits : ∀ done rest, mixedResults = done ++ rest → done ∈ mixedResults.inits := by
    intro done rest heq
    rw [List.mem_inits, heq]
    exact List.prefix_append done rest
  have hall : ∀ done ∈ mixedResults.inits,
      (runCalls (monitorVerifierInit 0) done).stateOverflowEvents = 0 := by decide +kernel
  have hdelivered : (deliveredTo 1 mixedResults).map requestOf =
      emissions [.lock 100 0, .lock 100 0, .lock 200 16, .unlock 100 0, .unlock 300 1] none := by
    decide
  have hholds := held_matches_owned 0 hdelivered
    (by simp [mixedResults, callEvents, stream, sampleEvent, NumberedFrom])
    (fun done rest heq => hall done (hinits done rest heq))
  exact hholds.mpr (recorded_of_few (by decide) (by simp [eOwnerDead])) mixedResults [] _ [] none
    (List.append_nil _).symm (List.append_nil _).symm hdelivered

end RuntimeMonitor.InterposedCalls
