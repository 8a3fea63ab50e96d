import ManagementSensors.Server.DispatcherTrace

/-!
# Server/DispatcherExact — one identifier a call: delivery is exact per request

Where the calls that are pending together wait on pairwise distinct identifiers, the table is a
bijection between the identifiers and the waiting calls (`Exact.entry`), so a dispatch reaches the
call that waits on its identifier and no other: what was last *written* to a frame is what was last
*dispatched* on its identifier.
-/

open Machinery Function

namespace ManagementSensors.Dispatcher

variable {κ : Type*} [DecidableEq κ]

/-- **Distinct identifiers**: a call never takes the lock for an identifier some registered call
has. -/
def DistinctIds : Guard (Dispatcher κ) (Input κ) (Event κ) := fun τ d i =>
  match i with
  | .lock _ id => ∀ c ∈ registeredCalls τ, ∀ f ∈ d.frames c, f.id ≠ id
  | _ => True

instance : ∀ (τ : List (Event κ)) (d : Dispatcher κ) (i : Input κ), Decidable (DistinctIds τ d i)
  | _, _, .lock _ _ => by unfold DistinctIds; infer_instance
  | _, _, .expire _ => .isTrue trivial
  | _, _, .wake _ => .isTrue trivial
  | _, _, .dispatch _ _ => .isTrue trivial

/-- The frames, the table and the registered calls, under distinct identifiers. -/
structure Exact (τ : List (Event κ)) (d : Dispatcher κ) : Prop extends Recorded τ d where
  entry : ∀ c f, d.frames c = some f → d.pendingRequests.lookup f.id = some c
  own : ∀ c f, d.frames c = some f → lastWrite c (since c τ) = lastDispatch f.id (since c τ)
  nodup : (registeredCalls τ).Nodup
  mem_calls : ∀ c, c ∈ registeredCalls τ ↔ d.frames c ≠ none
  length_calls : (registeredCalls τ).length = d.size

variable {τ : List (Event κ)} {d t : Dispatcher κ} {c c' : κ} {id : RequestId} {f : Frame}
  {st : ResponseStatus}

theorem exact_empty : Exact (κ := κ) [] {} where
  toRecorded := recorded_empty
  entry _ _ h := by cases h
  own _ _ h := by cases h
  nodup := List.nodup_nil
  mem_calls c := by simp [registeredCalls]
  length_calls := rfl

/-- Written and dispatched stay the same along an event that writes to `c` exactly when it
dispatches on `id`. -/
theorem own_concat {e : Event κ} (h : lastWrite c (since c τ) = lastDispatch id (since c τ))
    (hreg : e.registers c = false) (he : e.statusTo c = e.statusOn id) :
    lastWrite c (since c (τ ++ [e])) = lastDispatch id (since c (τ ++ [e])) := by
  rw [since_concat_of_not hreg, lastWrite_concat, lastDispatch_concat, h, he]

namespace Exact

/-- **An entry is its call's own**: the table points to `c` at `id` exactly when `c` waits on
`id`. -/
theorem lookup_iff (h : Exact τ d) (hf : d.frames c = some f) :
    d.pendingRequests.lookup id = some c ↔ id = f.id := by
  refine ⟨fun hl => ?_, fun hid => hid ▸ h.entry c f hf⟩
  obtain ⟨f', hf', hid⟩ := h.pointer id c hl
  rw [hf] at hf'
  cases hf'
  exact hid.symm

/-- An identifier no waiting call has is not in the table. -/
theorem lookup_eq_none (h : Exact τ d) (hd : ∀ c f, d.frames c = some f → f.id ≠ id) :
    d.pendingRequests.lookup id = none := by
  rw [Option.eq_none_iff_forall_ne_some]
  intro c hl
  obtain ⟨f, hf, hid⟩ := h.pointer id c hl
  exact hd c f hf hid

/-- The guard, read on the frames. -/
theorem ne_of_distinctIds (h : Exact τ d) (hd : DistinctIds τ d (.lock c' id)) :
    ∀ c f, d.frames c = some f → f.id ≠ id := fun c f hf =>
  hd c ((h.mem_calls c).mpr (by simp [hf])) f hf

/-- The return of a call takes its identifier out of the table, and it out of the registered
calls. -/
theorem leave (h : Exact τ d) (hf : d.frames c = some f) (st : ResponseStatus) :
    Exact (τ ++ [.returned c f.id st]) (d.leave c f.id) where
  toRecorded := h.toRecorded.leave hf st
  entry c' f' hf' := by
    rw [leave_frames] at hf'
    split at hf'
    case isTrue => cases hf'
    case isFalse hne =>
      have hid : f'.id ≠ f.id := fun hid => by
        have := h.entry c' f' hf'
        rw [hid, h.entry c f hf] at this
        exact hne (Option.some.inj this).symm
      rw [leave_pendingRequests, AList.lookup_erase_ne hid]
      exact h.entry c' f' hf'
  own c' f' hf' := by
    rw [leave_frames] at hf'
    split at hf'
    case isTrue => cases hf'
    case isFalse => exact own_concat (h.own c' f' hf') rfl rfl
  nodup := by
    rw [registeredCalls_concat]
    exact h.nodup.erase c
  mem_calls c' := by
    rw [registeredCalls_concat]
    simp only [h.nodup.mem_erase_iff, h.mem_calls, leave_frames]
    by_cases hc : c' = c <;> simp [hc]
  length_calls := by
    rw [registeredCalls_concat]
    have hmem : c ∈ registeredCalls τ := (h.mem_calls c).mpr (by simp [hf])
    have hkey : f.id ∈ d.pendingRequests.keys := by
      rw [← AList.mem_keys, ← AList.lookup_isSome, h.entry c f hf]
      rfl
    have hlen : (registeredCalls τ).length = d.pendingRequests.keys.length := h.length_calls
    change ((registeredCalls τ).erase c).length = (d.leave c f.id).size
    rw [size, leave_pendingRequests, AList.keys_erase, List.length_erase_of_mem hmem,
      List.length_erase_of_mem hkey, hlen]

/-- A call registers an identifier no waiting call has. -/
theorem register (h : Exact τ d) (hc : d.frames c = none)
    (hd : ∀ c f, d.frames c = some f → f.id ≠ id)
    (hrec : Recorded (τ ++ [.registered c id]) (d.register c id)) :
    Exact (τ ++ [.registered c id]) (d.register c id) where
  toRecorded := hrec
  entry c' f' hf' := by
    rw [register_frames] at hf'
    split at hf'
    case isTrue hcc =>
      subst hcc
      cases hf'
      simp
    case isFalse =>
      rw [register_pendingRequests, AList.lookup_insert_ne (hd c' f' hf')]
      exact h.entry c' f' hf'
  own c' f' hf' := by
    rw [register_frames] at hf'
    split at hf'
    case isTrue hcc =>
      subst hcc
      simp
    case isFalse hcc =>
      exact own_concat (h.own c' f' hf') (by simpa [Event.registers] using Ne.symm hcc) rfl
  nodup := by
    rw [registeredCalls_concat]
    exact List.nodup_cons.mpr ⟨by rw [h.mem_calls]; simpa using hc, h.nodup⟩
  mem_calls c' := by
    rw [registeredCalls_concat]
    simp only [List.mem_cons, h.mem_calls, register_frames]
    by_cases hcc : c' = c <;> simp [hcc]
  length_calls := by
    rw [registeredCalls_concat]
    have hkey : id ∉ d.pendingRequests.keys := by
      rw [← AList.mem_keys, ← AList.lookup_eq_none]
      exact h.lookup_eq_none hd
    have hlen : (registeredCalls τ).length = d.pendingRequests.keys.length := h.length_calls
    change (registeredCalls τ).length + 1 = (d.register c id).size
    rw [size, register_pendingRequests, AList.keys_insert, List.length_cons,
      List.erase_of_not_mem hkey, hlen]

/-- **The step lemma.** -/
theorem step {i : Input κ} {o : Option (Event κ)} (h : Exact τ d) (hd : DistinctIds τ d i)
    (hstep : (machine κ).step d i = some (t, o)) : Exact (τ ++ o.toList) t := by
  have hrec := h.toRecorded.step hstep
  cases step_cases hstep with
  | @refuse c id hc _ =>
    refine ⟨hrec, h.entry, fun c' f' hf' => own_concat (h.own c' f' hf') rfl rfl, ?_, ?_, ?_⟩
    all_goals
      have hnot : c ∉ registeredCalls τ := by
        rw [h.mem_calls]
        simpa using hc
      rw [Option.toList_some, registeredCalls_concat]
      simp only [List.erase_of_not_mem hnot]
    · exact h.nodup
    · exact h.mem_calls
    · exact h.length_calls
  | @register c id hc _ => exact h.register hc (h.ne_of_distinctIds hd) hrec
  | @expire c f hf =>
    have hframe : ∀ c' f', (d.expire c f).frames c' = some f' →
        ∃ f₀, d.frames c' = some f₀ ∧ f₀.id = f'.id := by
      intro c' f' hf'
      rw [expire_frames] at hf'
      split at hf'
      case isTrue hcc =>
        subst hcc
        cases hf'
        exact ⟨f, hf, rfl⟩
      case isFalse => exact ⟨f', hf', rfl⟩
    refine ⟨hrec, fun c' f' hf' => ?_, fun c' f' hf' => ?_, ?_, fun c' => ?_, ?_⟩
    · obtain ⟨f₀, hf₀, hid⟩ := hframe c' f' hf'
      exact hid ▸ h.entry c' f₀ hf₀
    · obtain ⟨f₀, hf₀, hid⟩ := hframe c' f' hf'
      exact own_concat (hid ▸ h.own c' f₀ hf₀) rfl rfl
    all_goals rw [Option.toList_some, registeredCalls_concat]
    · exact h.nodup
    · rw [h.mem_calls, expire_frames]
      by_cases hcc : c' = c <;> simp [hcc, hf]
    · exact h.length_calls
  | @answer c f hf _ => exact h.leave hf _
  | @timeOut c f hf _ _ => exact h.leave hf _
  | @sleepOn c f _ _ _ => simpa using h
  | @dispatch id st =>
    have hframe : ∀ c' f', (d.dispatch id st).1.frames c' = some f' →
        ∃ f₀, d.frames c' = some f₀ ∧ f₀.id = f'.id := by
      intro c' f' hf'
      rw [dispatch_frames] at hf'
      split at hf'
      case isTrue =>
        obtain ⟨f₀, hf₀, rfl⟩ := Option.map_eq_some_iff.mp hf'
        exact ⟨f₀, hf₀, rfl⟩
      case isFalse => exact ⟨f', hf', rfl⟩
    refine ⟨hrec, fun c' f' hf' => ?_, fun c' f' hf' => ?_, ?_, fun c' => ?_, ?_⟩
    · obtain ⟨f₀, hf₀, hid⟩ := hframe c' f' hf'
      rw [dispatch_pendingRequests, ← hid]
      exact h.entry c' f₀ hf₀
    · obtain ⟨f₀, hf₀, hid⟩ := hframe c' f' hf'
      refine own_concat (hid ▸ h.own c' f₀ hf₀) rfl ?_
      -- the table sends `id` to `c'` exactly when `c'` waits on `id`
      simp only [Event.statusTo, Event.statusOn, h.lookup_iff hf₀, hid]
    all_goals rw [Option.toList_some, registeredCalls_concat]
    · exact h.nodup
    · rw [h.mem_calls, dispatch_frames]
      split <;> simp
    · simpa [size] using h.length_calls

end Exact

/-- **The run lemma.** -/
theorem exact_of_run (h : (machine κ).Run DistinctIds {} τ d) : Exact τ d :=
  h.invariant (I := Exact) exact_empty fun _ _ _ _ _ hI hd hstep => hI.step hd hstep

/-! ## A call, from the lock to its return -/

/-- What a frame remembers decides what its call returns on waking up. -/
theorem FrameRecorded.wake_event (hf : FrameRecorded τ c f)
    (hown : lastWrite c (since c τ) = lastDispatch f.id (since c τ)) :
    (d.wake c f).2 = match lastDispatch f.id (since c τ) with
      | some st => some (.returned c f.id st)
      | none => if .expired c ∈ since c τ then some (.returned c f.id .timeout) else none := by
  have hctx := hf.ctx
  rw [hown] at hctx
  rw [wake, hctx]
  cases lastDispatch f.id (since c τ) with
  | some st => simp [contextAfter]
  | none => by_cases hl : .expired c ∈ since c τ <;> simp [contextAfter, hf.late, hl]

/-- **Delivery is exact per request.**  In every run with distinct identifiers, the next step, if it
is a call taking the lock, refuses the call with SYSTEM_FULL and changes nothing exactly when
`MAX_PENDING` other calls are registered, and registers it otherwise; if it is a wake-up of a
registered call, it returns the status of the last dispatch on that call's own identifier since the
call registered, TIMEOUT when there was none and the deadline has passed, and sleeps on otherwise.
The identifier of a call is absent from the table once the call has returned. -/
theorem waitForResponse_exact {i : Input κ} {o : Option (Event κ)}
    (hrun : (machine κ).Run DistinctIds {} τ d) (hd : DistinctIds τ d i)
    (hstep : (machine κ).step d i = some (t, o)) :
    (∀ c id, i = .lock c id → c ∉ registeredCalls τ ∧
      (((registeredCalls τ).length = maxPending ∧ t = d ∧ o = some (.returned c id .systemFull)) ∨
        ((registeredCalls τ).length < maxPending ∧ o = some (.registered c id)))) ∧
    (∀ c, i = .wake c → ∃ id τ₁ τ₂, τ = τ₁ ++ .registered c id :: τ₂ ∧
      (∀ id' st, .returned c id' st ∉ τ₂) ∧
      o = match lastDispatch id τ₂ with
        | some st => some (.returned c id st)
        | none => if .expired c ∈ τ₂ then some (.returned c id .timeout) else none) ∧
    ∀ c id st, o = some (.returned c id st) → t.pendingRequests.lookup id = none := by
  have hex := exact_of_run hrun
  refine ⟨?_, ?_, ?_⟩
  · rintro c id rfl
    have hfree : d.frames c = none → c ∉ registeredCalls τ := fun hc => by
      rw [hex.mem_calls]
      simpa using hc
    rw [hex.length_calls]
    cases step_cases hstep with
    | refuse hc hfull => exact ⟨hfree hc, .inl ⟨le_antisymm hex.bounded hfull, rfl, rfl⟩⟩
    | register hc hroom => exact ⟨hfree hc, .inr ⟨hroom, rfl⟩⟩
  · rintro c rfl
    obtain ⟨f, hf, he⟩ := Option.map_eq_some_iff.mp hstep
    have hrec := hex.frame c f hf
    obtain ⟨τ₁, hτ⟩ := hrec.registered
    refine ⟨f.id, τ₁, since c τ, hτ, hrec.waiting, ?_⟩
    rw [← hrec.wake_event (d := d) (hex.own c f hf), he]
  · rintro c id st rfl
    cases step_cases hstep with
    | refuse _ _ => exact hex.lookup_eq_none (hex.ne_of_distinctIds hd)
    | answer _ _ => simp
    | timeOut _ _ _ => simp

/-- A call that waits on 7, is dispatched DB_ERROR and then SUCCESS, and wakes up. -/
theorem waitForResponse_exact_overwritten :
    ∃ d t : Dispatcher ℕ, (machine ℕ).step d (.wake 0) = some (t, some (.returned 0 7 .success)) ∧
      t.pendingRequests.lookup 7 = none := by
  have hnil : (machine ℕ).Run DistinctIds {} [] {} := .nil
  have hrun := hnil.exec [.lock 0 7, .dispatch 7 .dbError, .dispatch 7 .success] rfl
  have hleft := (waitForResponse_exact hrun (i := .wake 0) trivial rfl).2.2 0 7 .success rfl
  exact ⟨(((({} : Dispatcher ℕ).register 0 7).dispatch 7 .dbError).1.dispatch 7 .success).1, _, rfl,
    hleft⟩

/-- **SYSTEM_FULL is also a status one can be sent**: with no other call registered when it takes the
lock, a call whose identifier is dispatched SYSTEM_FULL returns SYSTEM_FULL. -/
theorem systemFull_dispatched :
    (registeredCalls ([] : List (Event ℕ))).length ≠ maxPending ∧
      ∃ d, (machine ℕ).Run DistinctIds {} [.registered 0 1, .dispatched 1 .systemFull (some 0),
        .returned 0 1 .systemFull] d :=
  ⟨by decide,
    (machine ℕ).exists_run_of_exec _ _ [.lock 0 1, .dispatch 1 .systemFull, .wake 0] _ (by decide)⟩

end ManagementSensors.Dispatcher
