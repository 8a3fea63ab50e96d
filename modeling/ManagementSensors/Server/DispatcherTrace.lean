import ManagementSensors.Server.Dispatcher

/-!
# Server/DispatcherTrace — what a waiting call's frame remembers of the trace

The abstract dispatcher is its trace: a call has registered or not, and since then some dispatches
have been executed.  `Recorded` says that the frames and the table are exactly what the trace
determines — a frame holds the last status *written to it* since its call registered, a table entry
points to a frame that is there — and `recorded_of_run` keeps that along every run, whatever the
identifiers: two calls may wait on one identifier and the entry may be overwritten.
-/

open Machinery Function

namespace ManagementSensors.Dispatcher

variable {κ : Type*} [DecidableEq κ]

/-! ## Reading a trace -/

/-- Whether an event is the registration of `c`. -/
def Event.registers (c : κ) : Event κ → Bool
  | .registered c' _ => c' = c
  | _ => false

/-- The status an event dispatches on `id`. -/
def Event.statusOn (id : RequestId) : Event κ → Option ResponseStatus
  | .dispatched id' st _ => if id' = id then some st else none
  | _ => none

/-- The status an event writes into the frame of `c`. -/
def Event.statusTo (c : κ) : Event κ → Option ResponseStatus
  | .dispatched _ st p => if p = some c then some st else none
  | _ => none

/-- The events since `c` last registered. -/
def since (c : κ) (τ : List (Event κ)) : List (Event κ) := sinceLast (Event.registers c) τ

/-- The status of the last dispatch on `id`. -/
def lastDispatch (id : RequestId) (τ : List (Event κ)) : Option ResponseStatus :=
  (τ.filterMap (Event.statusOn id)).getLast?

/-- The last status written to the frame of `c`. -/
def lastWrite (c : κ) (τ : List (Event κ)) : Option ResponseStatus :=
  (τ.filterMap (Event.statusTo c)).getLast?

/-- The calls that have registered and not returned. -/
def registeredCalls (τ : List (Event κ)) : List κ :=
  τ.foldl (fun cs e => match e with
    | .registered c _ => c :: cs
    | .returned c _ _ => cs.erase c
    | _ => cs) []

/-- The context a frame holds once `st?` was the last status written to it. -/
def contextAfter : Option ResponseStatus → RequestContext
  | none => {}
  | some st => ⟨st, true⟩

variable {τ : List (Event κ)} {c c' : κ} {id id' : RequestId} {st : ResponseStatus} {f : Frame}

theorem since_concat (c : κ) (τ : List (Event κ)) (e : Event κ) :
    since c (τ ++ [e]) = if e.registers c then [] else since c τ ++ [e] :=
  sinceLast_concat _ τ e

theorem since_concat_of_not {e : Event κ} (h : e.registers c = false) :
    since c (τ ++ [e]) = since c τ ++ [e] := by simp [since_concat, h]

@[simp] theorem since_registered : since c (τ ++ [.registered c id]) = [] := by
  simp [since_concat, Event.registers]

omit [DecidableEq κ] in
theorem lastDispatch_concat (id : RequestId) (τ : List (Event κ)) (e : Event κ) :
    lastDispatch id (τ ++ [e]) = (e.statusOn id).or (lastDispatch id τ) := by
  rw [lastDispatch, List.filterMap_append, List.getLast?_append]
  cases h : e.statusOn id <;> simp [h, lastDispatch]

theorem lastWrite_concat (c : κ) (τ : List (Event κ)) (e : Event κ) :
    lastWrite c (τ ++ [e]) = (e.statusTo c).or (lastWrite c τ) := by
  rw [lastWrite, List.filterMap_append, List.getLast?_append]
  cases h : e.statusTo c <;> simp [h, lastWrite]

omit [DecidableEq κ] in
@[simp] theorem lastDispatch_nil : lastDispatch (κ := κ) id [] = none := rfl

@[simp] theorem lastWrite_nil : lastWrite c [] = none := rfl

theorem registeredCalls_concat (τ : List (Event κ)) (e : Event κ) :
    registeredCalls (τ ++ [e]) = match e with
      | .registered c _ => c :: registeredCalls τ
      | .returned c _ _ => (registeredCalls τ).erase c
      | _ => registeredCalls τ := by
  rw [registeredCalls, List.foldl_append]
  rfl

/-! ## One frame against the trace -/

/-- **What a frame remembers**: the registration of its call, that the call has not returned since,
the last status written to it, and whether its deadline has passed. -/
structure FrameRecorded (τ : List (Event κ)) (c : κ) (f : Frame) : Prop where
  registered : ∃ τ₁, τ = τ₁ ++ .registered c f.id :: since c τ
  waiting : ∀ id st, .returned c id st ∉ since c τ
  ctx : f.ctx = contextAfter (lastWrite c (since c τ))
  late : f.late = true ↔ .expired c ∈ since c τ

namespace FrameRecorded

theorem of_registered (τ : List (Event κ)) (c : κ) (id : RequestId) :
    FrameRecorded (τ ++ [.registered c id]) c { id := id } where
  registered := ⟨τ, by simp⟩
  waiting := by simp
  ctx := by simp [contextAfter]
  late := by simp

/-- An event that is not the registration, the return or the deadline of `c`, extends what the
frame of `c` remembers by the status it writes to that frame. -/
theorem concat (h : FrameRecorded τ c f) (e : Event κ) (hreg : e.registers c = false)
    (hret : ∀ id st, e ≠ .returned c id st) (hexp : e ≠ .expired c) :
    FrameRecorded (τ ++ [e]) c
      { f with ctx := (e.statusTo c).elim f.ctx fun st => ⟨st, true⟩ } where
  registered := by
    obtain ⟨τ₁, hτ⟩ := h.registered
    refine ⟨τ₁, ?_⟩
    rw [since_concat_of_not hreg, ← List.cons_append, ← List.append_assoc, ← hτ]
  waiting id st := by
    rw [since_concat_of_not hreg]
    simpa using ⟨h.waiting id st, fun he => hret id st he.symm⟩
  ctx := by
    rw [since_concat_of_not hreg, lastWrite_concat]
    cases hst : e.statusTo c with
    | none => simpa using h.ctx
    | some st => rfl
  late := by
    rw [since_concat_of_not hreg]
    simpa [Ne.symm hexp] using h.late

/-- An event of other calls leaves what the frame of `c` remembers as it was. -/
theorem other (h : FrameRecorded τ c f) (e : Event κ) (hreg : e.registers c = false)
    (hret : ∀ id st, e ≠ .returned c id st) (hexp : e ≠ .expired c)
    (hst : e.statusTo c = none) : FrameRecorded (τ ++ [e]) c f := by
  have := h.concat e hreg hret hexp
  rwa [hst] at this

/-- The deadline of `c` is remembered. -/
theorem of_expired (h : FrameRecorded τ c f) :
    FrameRecorded (τ ++ [.expired c]) c { f with late := true } where
  registered := by
    obtain ⟨τ₁, hτ⟩ := h.registered
    refine ⟨τ₁, ?_⟩
    rw [since_concat_of_not rfl, ← List.cons_append, ← List.append_assoc, ← hτ]
  waiting id st := by
    rw [since_concat_of_not rfl]
    simpa using h.waiting id st
  ctx := by
    rw [since_concat_of_not rfl, lastWrite_concat]
    simpa [Event.statusTo] using h.ctx
  late := by
    rw [since_concat_of_not rfl]
    simp

end FrameRecorded

/-! ## The dispatcher against the trace -/

/-- **The frames and the table are what the trace determines.** -/
structure Recorded (τ : List (Event κ)) (d : Dispatcher κ) : Prop where
  frame : ∀ c f, d.frames c = some f → FrameRecorded τ c f
  pointer : d.Linked
  bounded : d.size ≤ maxPending

theorem recorded_empty : Recorded (κ := κ) [] {} where
  frame _ _ h := by cases h
  pointer := linked_empty
  bounded := Nat.zero_le _

/-- The return of `c` takes its frame away, and leaves the others. -/
theorem Recorded.leave {d : Dispatcher κ} (h : Recorded τ d) (hf : d.frames c = some f)
    (st : ResponseStatus) : Recorded (τ ++ [.returned c f.id st]) (d.leave c f.id) where
  frame c' f' hf' := by
    rw [leave_frames] at hf'
    split at hf'
    case isTrue => cases hf'
    case isFalse hne =>
      exact (h.frame c' f' hf').other _ rfl (by simpa using fun he => absurd he.symm hne) (by simp) rfl
  pointer := h.pointer.leave hf
  bounded := size_leave_le.trans h.bounded

/-- **The step lemma.** -/
theorem Recorded.step {d t : Dispatcher κ} {i : Input κ} {o : Option (Event κ)}
    (h : Recorded τ d) (hstep : (machine κ).step d i = some (t, o)) :
    Recorded (τ ++ o.toList) t := by
  have hlinked : t.Linked := h.pointer.step hstep
  cases step_cases hstep with
  | @refuse c id hc _ =>
    refine ⟨fun c' f' hf' => ?_, hlinked, h.bounded⟩
    have hne : c ≠ c' := by
      rintro rfl
      rw [hc] at hf'
      cases hf'
    exact (h.frame c' f' hf').other _ rfl (by simpa using fun he => absurd he hne) (by simp) rfl
  | @register c id hc hroom =>
    refine ⟨fun c' f' hf' => ?_, hlinked, size_register_le.trans hroom⟩
    rw [register_frames] at hf'
    split at hf'
    case isTrue hcc =>
      subst hcc
      cases hf'
      exact .of_registered τ c' id
    case isFalse hcc =>
      exact (h.frame c' f' hf').other _ (by simpa [Event.registers] using Ne.symm hcc) (by simp)
        (by simp) rfl
  | @expire c f hf =>
    refine ⟨fun c' f' hf' => ?_, hlinked, h.bounded⟩
    rw [expire_frames] at hf'
    split at hf'
    case isTrue hcc =>
      subst hcc
      cases hf'
      exact (h.frame c' f hf).of_expired
    case isFalse hne =>
      exact (h.frame c' f' hf').other _ rfl (by simp) (by simpa using Ne.symm hne) rfl
  | @answer c f hf _ => exact h.leave hf _
  | @timeOut c f hf _ _ => exact h.leave hf _
  | @sleepOn c f _ _ _ => simpa using h
  | @dispatch id st =>
    refine ⟨fun c' f' hf' => ?_, hlinked, by simpa [size] using h.bounded⟩
    rw [dispatch_frames] at hf'
    split at hf'
    case isTrue hl =>
      obtain ⟨f, hf, rfl⟩ := Option.map_eq_some_iff.mp hf'
      have := (h.frame c' f hf).concat (.dispatched id st (d.pendingRequests.lookup id)) rfl
        (by simp) (by simp)
      simpa [Event.statusTo, hl] using this
    case isFalse hl =>
      exact (h.frame c' f' hf').other _ rfl (by simp) (by simp) (by simp [Event.statusTo, hl])

/-- **The run lemma**: in every run from the empty dispatcher, the frames and the table are what
the trace determines. -/
theorem recorded_of_run {C : Guard (Dispatcher κ) (Input κ) (Event κ)} {d : Dispatcher κ}
    (h : (machine κ).Run C {} τ d) : Recorded τ d :=
  h.invariant (I := Recorded) recorded_empty fun _ _ _ _ _ hI _ hstep => hI.step hstep

/-! ## No entry dangles -/

/-- A call of `wait_for_response` on `id` that has registered and not returned. -/
def Waiting (τ : List (Event κ)) (c : κ) (id : RequestId) : Prop :=
  ∃ τ₁ τ₂, τ = τ₁ ++ .registered c id :: τ₂ ∧ ∀ id' st, .returned c id' st ∉ τ₂

theorem FrameRecorded.isWaiting (h : FrameRecorded τ c f) : Waiting τ c f.id := by
  obtain ⟨τ₁, hτ⟩ := h.registered
  exact ⟨τ₁, since c τ, hτ, h.waiting⟩

/-- The call an entry points to waits on the identifier of the entry. -/
theorem Recorded.waiting {d : Dispatcher κ} (h : Recorded τ d)
    (hl : d.pendingRequests.lookup id = some c) : Waiting τ c id := by
  obtain ⟨f, hf, rfl⟩ := h.pointer id c hl
  exact (h.frame c f hf).isWaiting

/-- The call a dispatch writes to is the one its entry points to. -/
theorem eq_lookup_of_dispatched {d t : Dispatcher κ} {i : Input κ} {ptr : Option κ}
    (hstep : (machine κ).step d i = some (t, some (.dispatched id st ptr))) :
    ptr = d.pendingRequests.lookup id := by
  cases step_cases hstep
  rfl

/-- **No pointer dangles, and the table is bounded.**  Whatever the identifiers, every entry points to
a call that has registered and not returned, every dispatch writes to such a call or to none, and
there are at most `MAX_PENDING` entries. -/
theorem pointers_waiting {d : Dispatcher κ} (h : (machine κ).Run Guard.free {} τ d) :
    (∀ id c, d.pendingRequests.lookup id = some c → Waiting τ c id) ∧
      Always (fun τ e => ∀ id st c, e = .dispatched id st (some c) → Waiting τ c id) τ ∧
      d.size ≤ maxPending := by
  have hrec := recorded_of_run h
  refine ⟨fun id c => hrec.waiting, ?_, hrec.bounded⟩
  refine h.always (I := Recorded) recorded_empty (fun _ _ _ _ _ hI _ hstep => hI.step hstep)
    fun τ d i t e hI _ hstep id st c he => ?_
  subst he
  exact hI.waiting (eq_lookup_of_dispatched hstep).symm

/-- Two calls wait on one identifier; the first leaves with the entry of the second, and comes
again. -/
theorem pointers_waiting_overwritten : ∃ τ d,
    (machine ℕ).Run Guard.free {} τ d ∧ d.pendingRequests.lookup 7 = some 0 ∧ Waiting τ 0 7 ∧
      .dispatched 7 .success none ∈ τ ∧ d.size ≤ maxPending := by
  obtain ⟨τ, d, hrun, hlookup, hdispatch⟩ := (machine ℕ).exists_run_of_exec_all Guard.free {}
    [.lock 0 7, .lock 1 7, .expire 0, .wake 0, .dispatch 7 .success, .lock 0 7]
    (fun τ d => d.pendingRequests.lookup 7 = some 0 ∧ .dispatched 7 .success none ∈ τ)
    (by decide +kernel)
  obtain ⟨hwaiting, -, hsize⟩ := pointers_waiting hrun
  exact ⟨τ, d, hrun, hlookup, hwaiting 7 0 hlookup, hdispatch, hsize⟩

end ManagementSensors.Dispatcher
