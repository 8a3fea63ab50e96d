import Mathlib.Data.List.AList
import ManagementSensors.Machinery.Run

/-!
# Server/Dispatcher — the table of pending requests, and the calls that wait on it

`Dispatcher` turns the asynchronous NOTIFY into a blocking call.  `wait_for_response` puts a
pointer to its own stack frame into `pending_requests` and sleeps on a condition variable;
`dispatch` writes a status through that pointer.  Every access is made under `map_mtx`, so a call
is two critical sections — up to the wait (`waitForResponse`), and from a wake-up on (`wake`) — and
a dispatch is one.  `Dispatcher.machine` interleaves them freely.

A stack frame is a value of `frames`, keyed by the call it belongs to; a pointer is that key.
-/

open Machinery Function

namespace ManagementSensors

/-- `uint64_t` request identifiers. -/
abbrev RequestId := UInt64

/-- The outcome of a request. -/
inductive ResponseStatus
  | pending
  | success
  | timeout
  | dbError
  | systemFull
  deriving DecidableEq, Repr

/-- The part of a waiting call's frame that `dispatch` writes. -/
structure RequestContext where
  status : ResponseStatus := .pending
  ready : Bool := false
  deriving DecidableEq, Repr

/-- The frame of a call of `wait_for_response` that has registered and not returned: its own
argument, its context, and whether the deadline of its `wait_for` has passed. -/
structure Frame where
  id : RequestId
  ctx : RequestContext := {}
  late : Bool := false
  deriving DecidableEq, Repr

/-- `MAX_PENDING`. -/
def maxPending : ℕ := 500

/-- The dispatcher: the live frames, and the table from request identifiers to frames. -/
structure Dispatcher (κ : Type*) where
  frames : κ → Option Frame := fun _ => none
  pendingRequests : AList fun _ : RequestId => κ := ∅

namespace Dispatcher

variable {κ : Type*} [DecidableEq κ]

/-- `pending_requests.size()`. -/
def size (d : Dispatcher κ) : ℕ := d.pendingRequests.keys.length

/-! ## The critical sections -/

/-- What an observer sees of the dispatcher.  A dispatch is seen with the call it wrote to. -/
inductive Event (κ : Type*)
  | registered (c : κ) (id : RequestId)
  | dispatched (id : RequestId) (st : ResponseStatus) (ptr : Option κ)
  | expired (c : κ)
  | returned (c : κ) (id : RequestId) (st : ResponseStatus)
  deriving DecidableEq, Repr

/-- Registering: the frame is made, then `pending_requests[id] = &ctx`. -/
def register (d : Dispatcher κ) (c : κ) (id : RequestId) : Dispatcher κ where
  frames := update d.frames c (some { id := id })
  pendingRequests := d.pendingRequests.insert id c

/-- `wait_for_response(id)` on call `c`, from taking the lock to the wait. -/
def waitForResponse (d : Dispatcher κ) (c : κ) (id : RequestId) : Dispatcher κ × Event κ :=
  if maxPending ≤ d.size then (d, .returned c id .systemFull)
  else (d.register c id, .registered c id)

/-- Leaving `wait_for_response`: the entry is erased, then the frame is gone. -/
def leave (d : Dispatcher κ) (c : κ) (id : RequestId) : Dispatcher κ where
  frames := update d.frames c none
  pendingRequests := d.pendingRequests.erase id

/-- `wait_for_response`, from a wake-up of `cv.wait_for` on: the predicate is looked at first, the
deadline only if it is false.  With neither the wake-up was spurious and the call sleeps again. -/
def wake (d : Dispatcher κ) (c : κ) (f : Frame) : Dispatcher κ × Option (Event κ) :=
  if f.ctx.ready then (d.leave c f.id, some (.returned c f.id f.ctx.status))
  else if f.late then (d.leave c f.id, some (.returned c f.id .timeout))
  else (d, none)

/-- The deadline of a waiting call passes. -/
def expire (d : Dispatcher κ) (c : κ) (f : Frame) : Dispatcher κ :=
  { d with frames := update d.frames c (some { f with late := true }) }

/-- Write a status into the frame of `c`, where `c` is still there. -/
def write (d : Dispatcher κ) (c : κ) (st : ResponseStatus) : Dispatcher κ :=
  match d.frames c with
  | none => d
  | some f => { d with frames := update d.frames c (some { f with ctx := ⟨st, true⟩ }) }

/-- `dispatch(id, status)`. -/
def dispatch (d : Dispatcher κ) (id : RequestId) (st : ResponseStatus) : Dispatcher κ × Event κ :=
  match d.pendingRequests.lookup id with
  | none => (d, .dispatched id st none)
  | some c => (d.write c st, .dispatched id st (some c))

/-! ## Any interleaving of calls and dispatches -/

/-- One atomic step of the threads that use a dispatcher. -/
inductive Input (κ : Type*)
  | lock (c : κ) (id : RequestId)
  | expire (c : κ)
  | wake (c : κ)
  | dispatch (id : RequestId) (st : ResponseStatus)
  deriving DecidableEq, Repr

/-- A call takes the lock once; only a waiting call wakes up or expires. -/
def step (d : Dispatcher κ) : Input κ → Option (Dispatcher κ × Option (Event κ))
  | .lock c id =>
    match d.frames c with
    | none => some ((d.waitForResponse c id).1, some (d.waitForResponse c id).2)
    | some _ => none
  | .expire c => (d.frames c).map fun f => (d.expire c f, some (.expired c))
  | .wake c => (d.frames c).map fun f => d.wake c f
  | .dispatch id st => some ((d.dispatch id st).1, some (d.dispatch id st).2)

/-- The dispatcher with the threads that use it. -/
def machine (κ : Type*) [DecidableEq κ] : Machine (Dispatcher κ) (Input κ) (Event κ) := ⟨step⟩

/-! ## What each critical section does to the frames and to the table -/

variable {d : Dispatcher κ} {c c' : κ} {id id' : RequestId} {st : ResponseStatus} {f : Frame}

@[simp] theorem register_frames :
    (d.register c id).frames c' = if c' = c then some { id := id } else d.frames c' := by
  simp [register, update_apply]

@[simp] theorem register_pendingRequests :
    (d.register c id).pendingRequests = d.pendingRequests.insert id c := rfl

@[simp] theorem leave_frames : (d.leave c id).frames c' = if c' = c then none else d.frames c' := by
  simp [leave, update_apply]

@[simp] theorem leave_pendingRequests : (d.leave c id).pendingRequests = d.pendingRequests.erase id :=
  rfl

@[simp] theorem expire_frames :
    (d.expire c f).frames c' = if c' = c then some { f with late := true } else d.frames c' := by
  simp [expire, update_apply]

@[simp] theorem expire_pendingRequests : (d.expire c f).pendingRequests = d.pendingRequests := rfl

@[simp] theorem write_pendingRequests : (d.write c st).pendingRequests = d.pendingRequests := by
  rw [write]; split <;> rfl

theorem write_frames : (d.write c st).frames c' =
    if c' = c then (d.frames c).map fun f => { f with ctx := ⟨st, true⟩ } else d.frames c' := by
  rw [write]
  split
  · next h => by_cases hc : c' = c <;> simp [hc, h]
  · next f h => simp [update_apply, h]

@[simp] theorem dispatch_pendingRequests :
    (d.dispatch id st).1.pendingRequests = d.pendingRequests := by
  rw [dispatch]; split <;> simp

theorem dispatch_event : (d.dispatch id st).2 = .dispatched id st (d.pendingRequests.lookup id) := by
  rw [dispatch]; split <;> simp_all

/-- A dispatch writes to the frame its entry points to, and to no other. -/
theorem dispatch_frames : (d.dispatch id st).1.frames c =
    if d.pendingRequests.lookup id = some c
    then (d.frames c).map fun f => { f with ctx := ⟨st, true⟩ } else d.frames c := by
  rw [dispatch]
  split
  · next h => simp [h]
  · next c' h =>
    rw [h, write_frames]
    by_cases hc : c = c'
    · simp [hc]
    · simp [hc, Ne.symm hc]

theorem size_register_le : (d.register c id).size ≤ d.size + 1 := by
  rw [size, register_pendingRequests, AList.keys_insert, List.length_cons]
  exact Nat.succ_le_succ (List.length_erase_le)

theorem size_leave_le : (d.leave c id).size ≤ d.size := by
  rw [size, leave_pendingRequests, AList.keys_erase]
  exact List.length_erase_le

/-! ## What one step can do -/

/-- **Every step of the machine**, with its guard and its effect. -/
inductive StepCases (d : Dispatcher κ) : Input κ → Dispatcher κ → Option (Event κ) → Prop
  | refuse {c : κ} {id : RequestId} (hc : d.frames c = none) (hfull : maxPending ≤ d.size) :
      StepCases d (.lock c id) d (some (.returned c id .systemFull))
  | register {c : κ} {id : RequestId} (hc : d.frames c = none) (hroom : d.size < maxPending) :
      StepCases d (.lock c id) (d.register c id) (some (.registered c id))
  | expire {c : κ} {f : Frame} (hf : d.frames c = some f) :
      StepCases d (.expire c) (d.expire c f) (some (.expired c))
  | answer {c : κ} {f : Frame} (hf : d.frames c = some f) (hready : f.ctx.ready = true) :
      StepCases d (.wake c) (d.leave c f.id) (some (.returned c f.id f.ctx.status))
  | timeOut {c : κ} {f : Frame} (hf : d.frames c = some f) (hready : f.ctx.ready = false)
      (hlate : f.late = true) :
      StepCases d (.wake c) (d.leave c f.id) (some (.returned c f.id .timeout))
  | sleepOn {c : κ} {f : Frame} (hf : d.frames c = some f) (hready : f.ctx.ready = false)
      (hlate : f.late = false) : StepCases d (.wake c) d none
  | dispatch {id : RequestId} {st : ResponseStatus} :
      StepCases d (.dispatch id st) (d.dispatch id st).1
        (some (.dispatched id st (d.pendingRequests.lookup id)))

theorem step_cases {i : Input κ} {t : Dispatcher κ} {o : Option (Event κ)}
    (h : (machine κ).step d i = some (t, o)) : StepCases d i t o := by
  change step d i = some (t, o) at h
  cases i with
  | lock c id =>
    simp only [step] at h
    split at h
    case h_2 => cases h
    case h_1 hc =>
      simp only [Option.some.injEq, Prod.mk.injEq] at h
      obtain ⟨rfl, rfl⟩ := h
      rw [waitForResponse]
      split
      case isTrue hfull => exact .refuse hc hfull
      case isFalse hroom => exact .register hc (not_le.mp hroom)
  | expire c =>
    obtain ⟨f, hf, he⟩ := Option.map_eq_some_iff.mp h
    simp only [Prod.mk.injEq] at he
    obtain ⟨rfl, rfl⟩ := he
    exact .expire hf
  | wake c =>
    obtain ⟨f, hf, he⟩ := Option.map_eq_some_iff.mp h
    rw [wake] at he
    split at he
    case isTrue hready =>
      simp only [Prod.mk.injEq] at he
      obtain ⟨rfl, rfl⟩ := he
      exact .answer hf hready
    case isFalse hready =>
      split at he
      case isTrue hlate =>
        simp only [Prod.mk.injEq] at he
        obtain ⟨rfl, rfl⟩ := he
        exact .timeOut hf (by simpa using hready) hlate
      case isFalse hlate =>
        simp only [Prod.mk.injEq] at he
        obtain ⟨rfl, rfl⟩ := he
        exact .sleepOn hf (by simpa using hready) (by simpa using hlate)
  | dispatch id st =>
    simp only [step, Option.some.injEq, Prod.mk.injEq] at h
    obtain ⟨rfl, rfl⟩ := h
    rw [dispatch_event]
    exact .dispatch

/-! ## No entry dangles -/

/-- **Every entry points to a live frame**, and to one that waits on that identifier. -/
def Linked (d : Dispatcher κ) : Prop :=
  ∀ id c, d.pendingRequests.lookup id = some c → ∃ f, d.frames c = some f ∧ f.id = id

omit [DecidableEq κ] in
theorem linked_empty : Linked (κ := κ) {} := fun _ _ h => by simp at h

omit [DecidableEq κ] in
theorem Linked.lookup_ne (h : d.Linked) (hc : d.frames c = none) (id : RequestId) :
    d.pendingRequests.lookup id ≠ some c := fun hl => by
  obtain ⟨f, hf, -⟩ := h id c hl
  rw [hc] at hf
  cases hf

/-- A call leaves with its frame, and with it goes the only entry that can point there. -/
theorem Linked.leave (h : d.Linked) (hf : d.frames c = some f) : (d.leave c f.id).Linked := by
  intro id c' hl
  by_cases hid : id = f.id
  · subst hid
    simp at hl
  · rw [leave_pendingRequests, AList.lookup_erase_ne hid] at hl
    obtain ⟨f', hf', hfid⟩ := h id c' hl
    refine ⟨f', ?_, hfid⟩
    have hne : c' ≠ c := by
      rintro rfl
      rw [hf] at hf'
      cases hf'
      exact hid hfid.symm
    simpa [hne] using hf'

theorem Linked.step {i : Input κ} {t : Dispatcher κ} {o : Option (Event κ)} (h : d.Linked)
    (hstep : (machine κ).step d i = some (t, o)) : t.Linked := by
  cases step_cases hstep with
  | refuse => exact h
  | @register c id hc _ =>
    intro id' c' hl
    by_cases hid : id' = id
    · subst hid
      rw [register_pendingRequests, AList.lookup_insert] at hl
      cases hl
      exact ⟨{ id := id' }, by simp, rfl⟩
    · rw [register_pendingRequests, AList.lookup_insert_ne hid] at hl
      obtain ⟨f', hf', hfid⟩ := h id' c' hl
      have hne : c' ≠ c := fun he => h.lookup_ne hc id' (he ▸ hl)
      exact ⟨f', by simpa [hne] using hf', hfid⟩
  | @expire c f hf =>
    intro id' c' hl
    obtain ⟨f', hf', hfid⟩ := h id' c' hl
    by_cases hcc : c' = c
    · subst hcc
      rw [hf] at hf'
      cases hf'
      exact ⟨{ f with late := true }, by simp, hfid⟩
    · exact ⟨f', by simpa [hcc] using hf', hfid⟩
  | answer hf _ => exact h.leave hf
  | timeOut hf _ _ => exact h.leave hf
  | sleepOn => exact h
  | @dispatch id st =>
    intro id' c' hl
    rw [dispatch_pendingRequests] at hl
    obtain ⟨f', hf', hfid⟩ := h id' c' hl
    rw [dispatch_frames, hf']
    split
    · exact ⟨_, rfl, hfid⟩
    · exact ⟨f', rfl, hfid⟩

end Dispatcher

end ManagementSensors
