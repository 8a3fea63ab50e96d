import Mathlib.Data.Fintype.Card
import ManagementSensors.Pipeline.Refusal

/-!
# Pipeline/WorkerPool — the threads of the engine, and the table of the dispatcher

The sessions of a server are coroutines on one `io_context`, which a pool of worker threads runs.  A
session that has read a request is resumed by some worker that is free, and from there on its handler
is a plain call: the three calls of CONFIG_IP, the last of which blocks its worker until it is answered
or times out.

So a handler is its worker, as far as the dispatcher is concerned: the pool runs a `Server` whose
handlers are the workers (`pool_server`).  Each answer goes to the session that has just read its
request (`pool_answers`); and no more calls wait than there are workers, so that the table of
`MAX_PENDING` entries is full, and SYSTEM_FULL answered, on a pool of more than `MAX_PENDING` threads
only, and there it can be (`systemFull_iff_workers`).
-/

open Machinery Function

namespace ManagementSensors

/-! ## No more entries than frames -/

namespace Dispatcher

variable {κ : Type} {d : Dispatcher κ}

/-- The frame an entry points to. -/
theorem Linked.exists_frame (h : d.Linked) {id : RequestId} (hid : id ∈ d.pendingRequests.keys) :
    ∃ c f, d.frames c = some f ∧ f.id = id := by
  obtain ⟨c, hc⟩ := Option.isSome_iff_exists.mp (AList.lookup_isSome.mpr (AList.mem_keys.mp hid))
  obtain ⟨f, hf, hfid⟩ := h id c hc
  exact ⟨c, f, hf, hfid⟩

/-- The calls that wait. -/
def waiting [Fintype κ] (d : Dispatcher κ) : Finset κ := Finset.univ.filter fun c => (d.frames c).isSome

/-- **No two entries point to one frame**, and so there are no more entries than calls that wait. -/
theorem Linked.size_le [Fintype κ] (h : d.Linked) : d.size ≤ d.waiting.card := by
  classical
  have hkeys : d.pendingRequests.keys.toFinset ⊆
      d.waiting.image fun c => ((d.frames c).map Frame.id).getD 0 := fun id hid => by
    obtain ⟨c, f, hf, hfid⟩ := h.exists_frame (List.mem_toFinset.mp hid)
    exact Finset.mem_image.mpr ⟨c, by simp [waiting, hf], by simp [hf, hfid]⟩
  calc d.size = d.pendingRequests.keys.toFinset.card :=
        (List.toFinset_card_of_nodup d.pendingRequests.keys_nodup).symm
    _ ≤ (d.waiting.image _).card := Finset.card_le_card hkeys
    _ ≤ d.waiting.card := Finset.card_image_le

end Dispatcher

/-! ## The handler of one worker -/

namespace Server

variable {ω : Type} [DecidableEq ω] {srv t : Server ω} {i : Input ω} {o : Option (Event ω)} {w : ω}

/-- The worker whose step an input is, once it has its handler. -/
def Input.worker : Input ω → Option ω
  | .generated w _ | .added w _ _ | .lock w | .expire w | .wake w => some w
  | .request _ _ | .notified _ => none

/-- Only a worker that takes a step registers, or returns. -/
theorem worker_of_call {i' : Dispatcher.Input ω} {p : Dispatcher ω × Option (Dispatcher.Event ω)}
    (hi : Calls srv i i') (hd : (Dispatcher.machine ω).step srv.dispatcher i' = some p)
    (he : (∃ r, p.2 = some (.registered w r)) ∨ ∃ r st, p.2 = some (.returned w r st)) :
    i.worker = some w := by
  obtain ⟨d, o⟩ := p
  cases Dispatcher.step_cases hd with
  | refuse | register | expire | answer | timeOut | dispatch =>
    rcases he with ⟨r, he⟩ | ⟨r, st, he⟩ <;> cases he <;> cases hi <;> rfl
  | sleepOn => rcases he with ⟨r, he⟩ | ⟨r, st, he⟩ <;> cases he

/-- **What a step does to the handler of a worker**, a new one apart: it moves where that worker takes
the step, and keeps its request. -/
theorem handlers_step (hi : ∀ q, i ≠ .request w q) (hstep : (machine ω).step srv i = some (t, o)) :
    t.handlers w = srv.handlers w ∨ i.worker = some w ∧ (t.handlers w = none ∨
      ∃ ph ph', srv.handlers w = some ph ∧ t.handlers w = some ph' ∧ ph'.request = ph.request) := by
  cases step_cases hstep with
  | ignored => exact Or.inl rfl
  | @request w' q hc =>
    refine Or.inl ?_
    rw [setHandler_handlers, if_neg]
    rintro rfl
    exact hi q rfl
  | @generated w' q r hc | @added w' q r committed hc =>
    by_cases hw : w = w'
    · subst hw
      exact Or.inr ⟨rfl, Or.inr ⟨_, _, hc, setHandler_handlers.trans (if_pos rfl), rfl⟩⟩
    · exact Or.inl (setHandler_handlers.trans (if_neg hw))
  | @notGenerated w' q e hc | @notAdded w' q r e committed hc =>
    by_cases hw : w = w'
    · subst hw
      exact Or.inr ⟨rfl, Or.inl (setHandler_handlers.trans (if_pos rfl))⟩
    · exact Or.inl (setHandler_handlers.trans (if_neg hw))
  | @call i i' p hcall hd =>
    rcases advance_handlers srv p w with he | ⟨r, hp, he⟩ | ⟨r, st, hp, he⟩
    · exact Or.inl he
    · refine Or.inr ⟨worker_of_call hcall hd (Or.inl ⟨r, hp⟩), ?_⟩
      rw [he]
      cases hw : srv.handlers w with
      | none => exact Or.inl rfl
      | some ph => exact Or.inr ⟨ph, _, rfl, rfl, rfl⟩
    · exact Or.inr ⟨worker_of_call hcall hd (Or.inr ⟨r, st, hp⟩), Or.inl he⟩

@[simp] theorem setHandler_setHandler {ph ph' : Option Phase} :
    (srv.setHandler w ph).setHandler w ph' = srv.setHandler w ph' := by
  simp [setHandler]

theorem step_generated {q : ConfigRequest} {r : RequestId}
    (hc : srv.handlers w = some (.generating q)) : (machine ω).step srv (.generated w (.ok r)) =
      some (srv.setHandler w (some (.adding q r)), some (.generated w r)) := by
  simp [machine, step, hc]

theorem step_added {q : ConfigRequest} {r : RequestId} (hc : srv.handlers w = some (.adding q r)) :
    (machine ω).step srv (.added w (.ok ()) true) =
      some (srv.setHandler w (some (.calling q r)), some (.committed w r)) := by
  simp [machine, step, hc]

theorem step_lock {q : ConfigRequest} {r : RequestId} (hc : srv.handlers w = some (.calling q r))
    (hf : srv.dispatcher.frames w = none) : (machine ω).step srv (.lock w) =
      if maxPending ≤ srv.dispatcher.size then
        some (⟨srv.dispatcher, update srv.handlers w none⟩,
          some (.dispatcher (.returned w r .systemFull)))
      else some (⟨srv.dispatcher.register w r, update srv.handlers w (some (.waiting q r))⟩,
        some (.dispatcher (.registered w r))) := by
  simp only [machine, step, hc, Dispatcher.step, hf, Dispatcher.waitForResponse]
  split <;> simp [advance, hc, Phase.request]

end Server

/-! ## The pool -/

/-- The sessions of a server and its workers: the request a session has read and is not done with, the
sessions that wait for a worker, and the session whose handler a worker runs. -/
structure WorkerPool (σ ω : Type) where
  server : Server ω := {}
  reading : σ → Option ConfigRequest := fun _ => none
  ready : List σ := []
  owner : ω → Option σ := fun _ => none

namespace WorkerPool

variable {σ ω : Type} [DecidableEq σ] [DecidableEq ω]

/-- A session reads a request; a worker that is free resumes one of the sessions that are ready; a
worker goes on with its handler; the listener handles a notification. -/
inductive Input (σ ω : Type)
  | read (x : σ) (q : ConfigRequest)
  | resume (w : ω) (n : ℕ)
  | work (i : Server.Input ω)
  | notified (msg : Message)

/-- What is seen of a session: the requests it reads, the answers, and the exceptions. -/
inductive Event (σ : Type)
  | read (x : σ) (q : ConfigRequest)
  | answered (x : σ) (q : ConfigRequest) (r : RequestId) (st : ResponseStatus)
  | failed (x : σ)
  deriving DecidableEq, Repr

/-- The session of an event. -/
def Event.session : Event σ → σ
  | .read x _ | .answered x _ _ _ | .failed x => x

/-- What is seen when the handler of session `x` ends in a phase. -/
def ended (x : σ) (ph : Phase) : Option (Server.Event ω) → Event σ
  | some (.dispatcher (.returned _ r st)) => .answered x ph.request r st
  | _ => .failed x

/-- A worker has gone on with its handler.  Where that has ended, its session reads again. -/
def worked (s : WorkerPool σ ω) (w : ω) (y : Server ω × Option (Server.Event ω)) :
    WorkerPool σ ω × Option (Event σ) :=
  match s.owner w, s.server.handlers w, y.1.handlers w with
  | some x, some ph, none =>
    ({ s with server := y.1, reading := update s.reading x none, owner := update s.owner w none },
      some (ended x ph y.2))
  | _, _, _ => ({ s with server := y.1 }, none)

/-- One step. -/
def step (s : WorkerPool σ ω) : Input σ ω → Option (WorkerPool σ ω × Option (Event σ))
  | .read x q =>
    match s.reading x with
    | none => some ({ s with reading := update s.reading x (some q), ready := s.ready ++ [x] },
        some (.read x q))
    | some _ => none
  | .resume w n => do
    let (x, ready) ← pick s.ready n false
    let q ← s.reading x
    let y ← s.server.step (.request w q)
    return ({ s with server := y.1, ready := ready, owner := update s.owner w (some x) }, none)
  | .work i => do
    let w ← i.worker
    let y ← s.server.step i
    return s.worked w y
  | .notified msg => do
    let y ← s.server.step (.notified msg)
    return ({ s with server := y.1 }, none)

/-- The sessions and the workers, in any interleaving. -/
def machine (σ ω : Type) [DecidableEq σ] [DecidableEq ω] :
    Machine (WorkerPool σ ω) (Input σ ω) (Event σ) := ⟨step⟩

/-- **Every step of the pool**, with its guard and its effect. -/
inductive StepCases (s : WorkerPool σ ω) : WorkerPool σ ω → Option (Event σ) → Prop
  | read {x : σ} {q : ConfigRequest} (hx : s.reading x = none) :
      StepCases s { s with reading := update s.reading x (some q), ready := s.ready ++ [x] }
        (some (.read x q))
  | resume {w : ω} {n : ℕ} {x : σ} {ready : List σ} {q : ConfigRequest}
      (hpick : pick s.ready n false = some (x, ready)) (hx : s.reading x = some q)
      (hw : s.server.handlers w = none) :
      StepCases s { s with
        server := s.server.setHandler w (some (.generating q)), ready := ready
        owner := update s.owner w (some x) } none
  | ends {w : ω} {i : Server.Input ω} {x : σ} {ph : Phase} {y : Server ω × Option (Server.Event ω)}
      (hi : i.worker = some w) (hy : (Server.machine ω).step s.server i = some y)
      (hx : s.owner w = some x) (hph : s.server.handlers w = some ph) (hend : y.1.handlers w = none) :
      StepCases s { s with
        server := y.1, reading := update s.reading x none, owner := update s.owner w none }
        (some (ended x ph y.2))
  | goesOn {i : Server.Input ω} {y : Server ω × Option (Server.Event ω)}
  (hi : ∀ w q, i ≠ .request w q) (hy : (Server.machine ω).step s.server i = some y)
      (hon : ∀ w, (s.owner w).isSome → (s.server.handlers w).isSome → (y.1.handlers w).isSome) :
      StepCases s { s with server := y.1 } none

variable {s t : WorkerPool σ ω} {o : Option (Event σ)}

theorem step_cases {i : Input σ ω} (h : (machine σ ω).step s i = some (t, o)) : StepCases s t o := by
  change step s i = some (t, o) at h
  cases i with
  | read x q =>
    simp only [step] at h
    split at h
    case h_1 hx =>
      cases h
      exact .read hx
    case h_2 => cases h
  | resume w n =>
    simp only [step, Option.bind_eq_bind, Option.bind_eq_some_iff, Option.pure_def] at h
    obtain ⟨⟨x, ready⟩, hpick, q, hx, ⟨srv, o'⟩, hy, h⟩ := h
    cases h
    change (Server.machine ω).step s.server (.request w q) = some (srv, o') at hy
    cases Server.step_cases hy with
    | request hw => exact .resume hpick hx hw
    | call hcall => cases hcall
  | work i =>
    simp only [step, Option.bind_eq_bind, Option.bind_eq_some_iff] at h
    obtain ⟨w, hi, y, hy, h⟩ := h
    have hreq : ∀ w' q, i ≠ .request w' q := by
      rintro w' q rfl
      cases hi
    simp only [worked] at h
    split at h
    case h_1 x ph hx hph hend =>
      cases h
      exact .ends hi hy hx hph hend
    case h_2 hon =>
      cases h
      refine .goesOn hreq hy fun w' hw' hph' => ?_
      rcases Server.handlers_step (hreq w') hy with he | ⟨hiw, he⟩
      · rw [he]
        exact hph'
      · obtain rfl : w = w' := Option.some.inj (hi.symm.trans hiw)
        obtain ⟨x, hx⟩ := Option.isSome_iff_exists.mp hw'
        obtain ⟨ph, hph⟩ := Option.isSome_iff_exists.mp hph'
        by_contra hend
        exact hon x ph hx hph (Option.not_isSome_iff_eq_none.mp hend)
  | notified msg =>
    simp only [step, Option.bind_eq_bind, Option.bind_eq_some_iff, Option.pure_def] at h
    obtain ⟨y, hy, h⟩ := h
    cases h
    change (Server.machine ω).step s.server (.notified msg) = some y at hy
    have hreq : ∀ (w : ω) (q : ConfigRequest), Server.Input.notified msg ≠ .request w q :=
      fun _ _ => nofun
    refine .goesOn hreq hy fun w _ hph => ?_
    rcases Server.handlers_step (hreq w) hy with he | ⟨hi, -⟩
    · rw [he]
      exact hph
    · cases hi

/-! ## Who serves whom -/

/-- The last event of a session. -/
def lastOf (x : σ) (τ : List (Event σ)) : Option (Event σ) :=
  (τ.filter fun e => e.session = x).getLast?

theorem lastOf_concat (x : σ) (τ : List (Event σ)) (e : Event σ) :
    lastOf x (τ ++ [e]) = if e.session = x then some e else lastOf x τ := by
  rw [lastOf, List.filter_append]
  split
  case isTrue he => simp [he]
  case isFalse he => simp [he, lastOf]

omit [DecidableEq σ] [DecidableEq ω] in
@[simp] theorem session_ended {x : σ} {ph : Phase} {o : Option (Server.Event ω)} :
    (ended x ph o).session = x := by
  unfold ended
  split <;> rfl

/-- **The invariant**: a worker that has a handler has a session, of which it serves the request; no
session has two workers, or a worker and a place in the queue; and a session is not done with a request
exactly where that was the last that was seen of it. -/
structure Owned (τ : List (Event σ)) (s : WorkerPool σ ω) : Prop where
  sound : s.server.Sound fun _ => True
  notFull : s.server.dispatcher.NotFull
  owned : ∀ w, (s.server.handlers w).isSome → (s.owner w).isSome
  serves : ∀ w x, s.owner w = some x →
    ∃ ph, s.server.handlers w = some ph ∧ s.reading x = some ph.request
  alone : ∀ w w' x, s.owner w = some x → s.owner w' = some x → w = w'
  nodup : s.ready.Nodup
  ready : ∀ x ∈ s.ready, (s.reading x).isSome ∧ ∀ w, s.owner w ≠ some x
  last : ∀ x q, s.reading x = some q ↔ lastOf x τ = some (.read x q)

omit [DecidableEq ω] in
theorem owned_empty : Owned (σ := σ) (ω := ω) [] {} where
  sound := Server.sound_empty
  notFull := nofun
  owned := nofun
  serves := nofun
  alone := nofun
  nodup := List.nodup_nil
  ready := nofun
  last _ _ := ⟨nofun, nofun⟩

variable {τ : List (Event σ)} {x : σ} {w : ω}

omit [DecidableEq ω] in
/-- A session that is done is in the queue nowhere, and no worker serves it. -/
theorem Owned.of_none (h : Owned τ s) (hx : s.reading x = none) :
    x ∉ s.ready ∧ ∀ w, s.owner w ≠ some x := by
  refine ⟨fun hmem => ?_, fun w hw => ?_⟩
  · have hsome := (h.ready x hmem).1
    rw [hx] at hsome
    cases hsome
  · obtain ⟨ph, -, hreading⟩ := h.serves w x hw
    rw [hx] at hreading
    cases hreading

omit [DecidableEq ω] in
/-- A request is read. -/
theorem Owned.read {q : ConfigRequest} (h : Owned τ s) (hx : s.reading x = none) :
    Owned (τ ++ [.read x q]) { s with
      reading := update s.reading x (some q), ready := s.ready ++ [x] } := by
  obtain ⟨hqueue, howner⟩ := h.of_none hx
  have hother : ∀ {x'}, x' ≠ x → update s.reading x (some q) x' = s.reading x' := fun hne =>
    update_of_ne hne _ _
  refine ⟨h.sound, h.notFull, h.owned, fun w x' hw => ?_, h.alone, ?_, fun x' hx' => ?_,
    fun x' q' => ?_⟩
  · obtain ⟨ph, hph, hreading⟩ := h.serves w x' hw
    have hne : x' ≠ x := by
      rintro rfl
      exact howner w hw
    exact ⟨ph, hph, (hother hne).trans hreading⟩
  · exact List.nodup_append.mpr ⟨h.nodup, List.nodup_singleton x, fun y hy z hz he =>
      hqueue (List.mem_singleton.mp hz ▸ he ▸ hy)⟩
  · rcases List.mem_append.mp hx' with hmem | hmem
    · have hne : x' ≠ x := fun he => hqueue (he ▸ hmem)
      dsimp only
      rw [hother hne]
      exact h.ready x' hmem
    · obtain rfl := List.mem_singleton.mp hmem
      exact ⟨by simp, howner⟩
  · rw [lastOf_concat]
    by_cases he : x = x'
    · subst he
      simp [Event.session]
    · dsimp only
      rw [if_neg (by simpa [Event.session] using he), hother (Ne.symm he)]
      exact h.last x' q'

/-- A worker resumes a session. -/
theorem Owned.resume {n : ℕ} {ready : List σ} {q : ConfigRequest} (h : Owned τ s)
    (hpick : pick s.ready n false = some (x, ready)) (hx : s.reading x = some q)
    (hw : s.server.handlers w = none) :
    Owned τ { s with
      server := s.server.setHandler w (some (.generating q)), ready := ready
      owner := update s.owner w (some x) } := by
  have hfree : s.owner w = none := by
    by_contra hsome
    obtain ⟨y, hy⟩ := Option.ne_none_iff_exists'.mp hsome
    obtain ⟨ph, hph, -⟩ := h.serves w y hy
    rw [hw] at hph
    cases hph
  obtain ⟨l, l', hready, rfl⟩ := pick_split hpick
  have hnodup : (x :: (l ++ l')).Nodup := List.nodup_middle.mp (hready ▸ h.nodup)
  have hunowned := (h.ready x (pick_mem hpick)).2
  have howner : ∀ {w'}, w' ≠ w → update s.owner w (some x) w' = s.owner w' := fun hne =>
    update_of_ne hne _ _
  refine ⟨h.sound.setHandler fun _ _ => by simp [hw], h.notFull, fun w' hw' => ?_, fun w' x' hw' => ?_,
    fun w₁ w₂ x' h₁ h₂ => ?_, hnodup.of_cons, fun x' hx' => ?_, h.last⟩
  · by_cases he : w' = w
    · subst he
      simp
    · dsimp only at hw' ⊢
      rw [howner he]
      rw [Server.setHandler_handlers, if_neg he] at hw'
      exact h.owned w' hw'
  · dsimp only at hw' ⊢
    rw [Server.setHandler_handlers]
    by_cases he : w' = w
    · subst he
      rw [update_self, Option.some.injEq] at hw'
      subst hw'
      exact ⟨_, if_pos rfl, hx⟩
    · rw [howner he] at hw'
      rw [if_neg he]
      exact h.serves w' x' hw'
  · dsimp only at h₁ h₂
    by_cases h₁w : w₁ = w <;> by_cases h₂w : w₂ = w
    · rw [h₁w, h₂w]
    · rw [h₁w, update_self, Option.some.injEq] at h₁
      rw [howner h₂w, ← h₁] at h₂
      exact absurd h₂ (hunowned w₂)
    · rw [h₂w, update_self, Option.some.injEq] at h₂
      rw [howner h₁w, ← h₂] at h₁
      exact absurd h₁ (hunowned w₁)
    · rw [howner h₁w] at h₁
      rw [howner h₂w] at h₂
      exact h.alone w₁ w₂ x' h₁ h₂
  · have hmem : x' ∈ s.ready := by
      rw [hready]
      exact List.mem_append.mpr ((List.mem_append.mp hx').imp_right (List.mem_cons_of_mem x))
    refine ⟨(h.ready x' hmem).1, fun w' => ?_⟩
    dsimp only
    by_cases he : w' = w
    · rw [he, update_self, ne_eq, Option.some.injEq]
      rintro rfl
      exact (List.nodup_cons.mp hnodup).1 hx'
    · rw [howner he]
      exact (h.ready x' hmem).2 w'

variable {i : Server.Input ω} {y : Server ω × Option (Server.Event ω)}

omit [DecidableEq σ] [DecidableEq ω] in
theorem ended_ne_read {ph : Phase} {o : Option (Server.Event ω)} {q : ConfigRequest} :
    ended x ph o ≠ .read x q := by
  unfold ended
  split <;> exact nofun

/-- A handler ends. -/
theorem Owned.ends {ph : Phase} (h : Owned τ s) (hi : i.worker = some w)
    (hy : (Server.machine ω).step s.server i = some y) (hx : s.owner w = some x)
    (hend : y.1.handlers w = none) : Owned (τ ++ [ended x ph y.2]) { s with
      server := y.1, reading := update s.reading x none, owner := update s.owner w none } := by
  have hreq : ∀ w' q, i ≠ .request w' q := by
    rintro w' q rfl
    cases hi
  have hsame : ∀ {w'}, w' ≠ w → y.1.handlers w' = s.server.handlers w' := fun {w'} hne => by
    rcases Server.handlers_step (hreq w') hy with he | ⟨hiw, -⟩
    · exact he
    · exact absurd (Option.some.inj (hiw.symm.trans hi)) hne
  have howner : ∀ {w'}, w' ≠ w → update s.owner w none w' = s.owner w' := fun hne =>
    update_of_ne hne _ _
  have hother : ∀ {x'}, x' ≠ x → update s.reading x none x' = s.reading x' := fun hne =>
    update_of_ne hne _ _
  have hne_of_owner : ∀ {w' x'}, update s.owner w none w' = some x' → w' ≠ w := by
    rintro w' x' hw' rfl
    rw [update_self] at hw'
    cases hw'
  refine ⟨h.sound.step hy fun _ _ _ _ => trivial, Server.notFull_step h.notFull hy,
    fun w' hw' => ?_, fun w' x' hw' => ?_, fun w₁ w₂ x' h₁ h₂ => ?_, h.nodup, fun x' hx' => ?_,
    fun x' q => ?_⟩
  · dsimp only at hw' ⊢
    have hne : w' ≠ w := by
      rintro rfl
      rw [hend] at hw'
      cases hw'
    rw [howner hne]
    rw [hsame hne] at hw'
    exact h.owned w' hw'
  · have hne := hne_of_owner hw'
    dsimp only at hw' ⊢
    rw [howner hne] at hw'
    have hx' : x' ≠ x := by
      rintro rfl
      exact hne (h.alone w' w x' hw' hx)
    rw [hsame hne, hother hx']
    exact h.serves w' x' hw'
  · have hne₁ := hne_of_owner h₁
    have hne₂ := hne_of_owner h₂
    dsimp only at h₁ h₂
    rw [howner hne₁] at h₁
    rw [howner hne₂] at h₂
    exact h.alone w₁ w₂ x' h₁ h₂
  · have hne : x' ≠ x := by
      rintro rfl
      exact (h.ready x' hx').2 w hx
    dsimp only
    refine ⟨by rw [hother hne]; exact (h.ready x' hx').1, fun w' hw' => ?_⟩
    have hne' := hne_of_owner hw'
    rw [howner hne'] at hw'
    exact (h.ready x' hx').2 w' hw'
  · dsimp only
    rw [lastOf_concat, session_ended]
    by_cases he : x = x'
    · subst he
      rw [if_pos rfl, update_self, Option.some.injEq]
      exact ⟨nofun, fun hread => absurd hread ended_ne_read⟩
    · rw [if_neg he, hother (Ne.symm he)]
      exact h.last x' q

/-- A step in which no handler ends. -/
theorem Owned.goesOn (h : Owned τ s) (hi : ∀ w q, i ≠ .request w q)
    (hy : (Server.machine ω).step s.server i = some y)
    (hon : ∀ w, (s.owner w).isSome → (s.server.handlers w).isSome → (y.1.handlers w).isSome) :
    Owned τ { s with server := y.1 } := by
  refine ⟨h.sound.step hy fun _ _ _ _ => trivial, Server.notFull_step h.notFull hy,
    fun w hw => ?_, fun w x hw => ?_, h.alone, h.nodup, h.ready, h.last⟩
  · rcases Server.handlers_step (hi w) hy with he | ⟨-, he | ⟨ph, _, hph, -, -⟩⟩
    · exact h.owned w (he ▸ hw)
    · dsimp only at hw
      rw [he] at hw
      cases hw
    · exact h.owned w (by rw [hph]; rfl)
  · obtain ⟨ph, hph, hreading⟩ := h.serves w x hw
    rcases Server.handlers_step (hi w) hy with he | ⟨-, he | ⟨ph₀, ph', hph₀, hph', hreq⟩⟩
    · exact ⟨ph, he.trans hph, hreading⟩
    · have hsome := hon w (by rw [hw]; rfl) (by rw [hph]; rfl)
      rw [he] at hsome
      cases hsome
    · obtain rfl : ph₀ = ph := Option.some.inj (hph₀.symm.trans hph)
      exact ⟨ph', hph', by rw [hreq]; exact hreading⟩

theorem Owned.step (h : Owned τ s) (hstep : StepCases s t o) : Owned (τ ++ o.toList) t := by
  cases hstep with
  | read hx => exact h.read hx
  | resume hpick hx hw =>
    rw [Option.toList_none, List.append_nil]
    exact h.resume hpick hx hw
  | ends hi hy hx _ hend => exact h.ends hi hy hx hend
  | goesOn hi hy hon =>
    rw [Option.toList_none, List.append_nil]
    exact h.goesOn hi hy hon

/-- **Requests and answers take turns.** -/
def TakesTurns (τ : List (Event σ)) : Event σ → Prop
  | .read x _ => ∀ q, lastOf x τ ≠ some (.read x q)
  | .answered x q _ _ => lastOf x τ = some (.read x q)
  | .failed x => ∃ q, lastOf x τ = some (.read x q)

theorem Owned.takesTurns {e : Event σ} (h : Owned τ s) (hstep : StepCases s t (some e)) :
    TakesTurns τ e := by
  generalize ho : some e = o at hstep
  cases hstep with
  | @read x q hx =>
    cases ho
    intro q' hlast
    rw [(h.last x q').mpr hlast] at hx
    cases hx
  | @ends w i x ph y hi hy hx hph hend =>
    cases ho
    obtain ⟨ph', hph', hreading⟩ := h.serves w x hx
    obtain rfl : ph' = ph := Option.some.inj (hph'.symm.trans hph)
    have hlast := (h.last x _).mp hreading
    unfold ended
    split
    · exact hlast
    · exact ⟨_, hlast⟩
  | resume | goesOn => cases ho

/-- **Every answer goes to the session that has just read its request**: in every run, over however
many sessions and workers, a session reads a request, is answered on that request or fails, and reads
the next. -/
theorem pool_answers {s : WorkerPool σ ω} {τ : List (Event σ)}
    (hrun : (machine σ ω).Run Guard.free {} τ s) : Always TakesTurns τ :=
  hrun.always (I := Owned) owned_empty (fun _ _ _ _ _ hI _ hstep => hI.step (step_cases hstep))
    fun _ _ _ _ _ hI _ hstep => hI.takesTurns (step_cases hstep)

/-- What is seen of two sessions on one worker. -/
def turns : List (Event Bool) := [.read true ⟨3, "10.0.0.2"⟩, .read false ⟨4, "10.0.0.1"⟩,
  .answered true ⟨3, "10.0.0.2"⟩ 5 .timeout, .failed false]

/-- The second is resumed once the first has been answered. -/
theorem pool_answers_two : ∃ s, (machine Bool Unit).Run Guard.free {} turns s ∧
    Always TakesTurns turns := by
  obtain ⟨s, hrun⟩ := (machine Bool Unit).exists_run_of_exec Guard.free {}
    [.read true ⟨3, "10.0.0.2"⟩, .read false ⟨4, "10.0.0.1"⟩, .resume () 0, .work (.generated () (.ok 5)),
      .work (.added () (.ok ()) true), .work (.lock ()), .work (.expire ()), .work (.wake ()),
      .resume () 0, .work (.generated () (.error .sqlError))] turns (by decide +kernel)
  exact ⟨s, hrun, pool_answers hrun⟩

/-- **The pool is a server whose handlers are its workers**: what holds of the runs of a server holds of
it. -/
theorem pool_server {s : WorkerPool σ ω} {τ : List (Event σ)}
    (hrun : (machine σ ω).Run Guard.free {} τ s) :
    ∃ τ', (Server.machine ω).Run Guard.free {} τ' s.server := by
  induction hrun with
  | nil => exact ⟨_, .nil⟩
  | @snoc τ s t i o _ _ hstep ih =>
    obtain ⟨τ', hserver⟩ := ih
    cases step_cases hstep with
    | read => exact ⟨τ', hserver⟩
    | @resume w n x ready q _ _ hw =>
      have hrequest : (Server.machine ω).step s.server (.request w q) =
          some (s.server.setHandler w (some (.generating q)), none) := by
        simp [Server.machine, Server.step, hw]
      exact ⟨_, hserver.snoc trivial hrequest⟩
    | ends _ hy | goesOn _ hy => exact ⟨_, hserver.snoc trivial hy⟩

/-! ## SYSTEM_FULL -/

variable [Fintype ω]

/-- A worker that is refused does not wait. -/
theorem Owned.workers_of_refused (h : Owned τ s)
    (hy : (Server.machine ω).step s.server i = some y) {r : RequestId}
    (hfull : y.2 = some (.dispatcher (.returned w r .systemFull))) :
    maxPending < Fintype.card ω := by
  obtain ⟨t, o⟩ := y
  obtain rfl : o = _ := hfull
  obtain ⟨-, hsize, -, q, hcall⟩ := Server.refused_eq h.notFull hy
  have hnone : w ∉ s.server.dispatcher.waiting := fun hmem => by
    obtain ⟨f, hf⟩ := Option.isSome_iff_exists.mp (Finset.mem_filter.mp hmem).2
    obtain ⟨q', hq'⟩ := h.sound.waiting w f hf
    rw [hcall] at hq'
    cases hq'
  calc maxPending ≤ s.server.dispatcher.waiting.card := hsize.trans h.sound.linked.size_le
    _ < Fintype.card ω := Finset.card_lt_univ_of_notMem hnone

/-- Where SYSTEM_FULL is answered there are that many workers. -/
theorem Owned.workers_of_answered (h : Owned τ s) {q : ConfigRequest} {r : RequestId}
    (hstep : StepCases s t (some (.answered x q r .systemFull))) : maxPending < Fintype.card ω := by
  generalize ho : some (Event.answered x q r .systemFull) = o at hstep
  cases hstep with
  | read | resume | goesOn => cases ho
  | @ends w i x' ph y hi hy =>
    unfold ended at ho
    split at ho
    case h_1 c r' st hc =>
      obtain ⟨rfl, rfl, rfl, rfl⟩ : x = x' ∧ q = ph.request ∧ r = r' ∧ .systemFull = st := by
        simpa using ho
      exact h.workers_of_refused hy hc
    case h_2 => cases ho

section Filling

variable {f : ℕ → ω} {g : ℕ → σ} {n : ℕ}

omit [Fintype ω] in
/-- **Some workers wait**, each on an identifier of its own; the others are free, and so are other
sessions. -/
structure Filled (f : ℕ → ω) (g : ℕ → σ) (n : ℕ) (s : WorkerPool σ ω) : Prop where
  size : s.server.dispatcher.size = n
  keys : ∀ id ∈ s.server.dispatcher.pendingRequests.keys, id.toNat < n
  idle : ∀ k, n ≤ k → k ≤ maxPending →
    s.server.handlers (f k) = none ∧ s.server.dispatcher.frames (f k) = none
  fresh : ∀ k, n ≤ k → s.reading (g k) = none
  ready : s.ready = []

/-- A request for sensor 3. -/
def someRequest : ConfigRequest := ⟨3, "10.0.0.2"⟩

omit [Fintype ω] in
/-- A handler goes on. -/
theorem step_work {i : Server.Input ω} {srv : Server ω} {e : Option (Server.Event ω)}
    (hi : i.worker = some w) (hy : (Server.machine ω).step s.server i = some (srv, e))
    (hph : (srv.handlers w).isSome) :
    (machine σ ω).step s (.work i) = some ({ s with server := srv }, none) := by
  have hworked : s.worked w (srv, e) = ({ s with server := srv }, none) := by
    unfold worked
    split
    case h_1 hend =>
      rw [hend] at hph
      cases hph
    case h_2 => rfl
  change step s (.work i) = _
  change s.server.step i = _ at hy
  simp only [step, hi, hy, Option.bind_eq_bind, Option.bind_some, hworked, Option.pure_def]

omit [Fintype ω] in
/-- A handler ends. -/
theorem step_ends {i : Server.Input ω} {srv : Server ω} {e : Option (Server.Event ω)} {ph : Phase}
    (hi : i.worker = some w) (hy : (Server.machine ω).step s.server i = some (srv, e))
    (hx : s.owner w = some x) (hph : s.server.handlers w = some ph) (hend : srv.handlers w = none) :
    (machine σ ω).step s (.work i) = some ({ s with
      server := srv, reading := update s.reading x none, owner := update s.owner w none },
        some (ended x ph e)) := by
  change step s (.work i) = _
  change s.server.step i = _ at hy
  simp only [step, hi, hy, Option.bind_eq_bind, Option.bind_some, worked, hx, hph, hend, Option.pure_def]

omit [Fintype ω] in
/-- One more session is resumed, and its handler comes to the wait. -/
theorem Filled.calls (h : Filled f g n s) (hn : n ≤ maxPending) :
    ∃ t, (machine σ ω).Run Guard.free s [.read (g n) someRequest] t ∧
      t.server = s.server.setHandler (f n) (some (.calling someRequest (UInt64.ofNat n))) ∧
      t.owner (f n) = some (g n) ∧ t.reading = update s.reading (g n) (some someRequest) ∧
      t.ready = [] := by
  obtain ⟨hhandler, -⟩ := h.idle n le_rfl hn
  let s₁ : WorkerPool σ ω := { s with
    reading := update s.reading (g n) (some someRequest), ready := [g n] }
  have hread : (machine σ ω).step s (.read (g n) someRequest) =
      some (s₁, some (.read (g n) someRequest)) := by
    simp [machine, step, h.fresh n le_rfl, h.ready, s₁]
  let s₂ : WorkerPool σ ω := { s₁ with
    server := s.server.setHandler (f n) (some (.generating someRequest)), ready := []
    owner := update s.owner (f n) (some (g n)) }
  have hresumed : (machine σ ω).step s₁ (.resume (f n) 0) = some (s₂, none) := by
    simp [machine, step, pick, Server.step, hhandler, s₁, s₂]
  let s₃ : WorkerPool σ ω := { s₂ with
    server := s₂.server.setHandler (f n) (some (.adding someRequest (UInt64.ofNat n))) }
  have hgenerated : (machine σ ω).step s₂ (.work (.generated (f n) (.ok (UInt64.ofNat n)))) =
      some (s₃, none) :=
    step_work rfl (Server.step_generated (by simp [s₂])) (by simp)
  have hadded := step_work (s := s₃) (i := .added (f n) (.ok ()) true) rfl
    (Server.step_added (q := someRequest) (r := UInt64.ofNat n) (by simp [s₃])) (by simp)
  have hrun := ((((Machine.Run.nil (C := Guard.free)).snoc trivial hread).snoc trivial hresumed).snoc
    trivial hgenerated).snoc trivial hadded
  exact ⟨_, hrun, by simp [s₂, s₃], by simp [s₂, s₃], rfl, rfl⟩

theorem toNat_ofNat_pending (hn : n ≤ maxPending) : (UInt64.ofNat n).toNat = n :=
  toNat_ofNat_of_lt_bigint (by rw [maxPending] at hn; omega)

omit [Fintype ω] in
/-- Where there is room the handler registers, and one more worker waits. -/
theorem Filled.registers (h : Filled f g n s) (hn : n < maxPending)
    (hf : ∀ k, n < k → k ≤ maxPending → f k ≠ f n) (hg : Injective g) :
    ∃ τ t, (machine σ ω).Run Guard.free s τ t ∧ Filled f g (n + 1) t := by
  obtain ⟨t, hrun, hserver, -, hreading, hready⟩ := h.calls hn.le
  have hframe : t.server.dispatcher.frames (f n) = none := by
    rw [hserver]
    exact (h.idle n le_rfl hn.le).2
  have hcalling : t.server.handlers (f n) = some (.calling someRequest (UInt64.ofNat n)) := by
    rw [hserver]
    exact Server.setHandler_handlers.trans (if_pos rfl)
  have hlock := Server.step_lock hcalling hframe
  rw [if_neg (by rw [hserver, Server.setHandler_dispatcher, h.size]; omega)] at hlock
  have hstep := step_work rfl hlock (by simp)
  have hid : UInt64.ofNat n ∉ s.server.dispatcher.pendingRequests.keys := fun hmem => by
    have hlt := h.keys _ hmem
    rw [toNat_ofNat_pending hn.le] at hlt
    omega
  refine ⟨_, _, hrun.snoc trivial hstep, ?_, fun id hmem => ?_, fun k hk hkmax => ?_, fun k hk => ?_,
    hready⟩
  · simp only [hserver, Server.setHandler_dispatcher]
    rw [Pipeline.size_register hid, h.size]
  · simp only [hserver, Server.setHandler_dispatcher, Dispatcher.register_pendingRequests,
      AList.keys_insert, List.mem_cons] at hmem
    rcases hmem with rfl | hmem
    · rw [toNat_ofNat_pending hn.le]
      omega
    · have hlt := h.keys id (List.mem_of_mem_erase hmem)
      omega
  · have hne := hf k (by omega) hkmax
    obtain ⟨hhandler, hnone⟩ := h.idle k (by omega) hkmax
    simp only [hserver, Server.setHandler_dispatcher, Dispatcher.register_frames, if_neg hne,
      update_of_ne hne, Server.setHandler_handlers]
    exact ⟨hhandler, hnone⟩
  · have hne : g k ≠ g n := fun he => by
      have hkn := hg he
      omega
    simp only [hreading, update_of_ne hne]
    exact h.fresh k (by omega)

omit [Fintype ω] in
/-- One worker after the other waits, until the table is full. -/
theorem exists_filled (hf : ∀ k m, k < m → m ≤ maxPending → f m ≠ f k) (hg : Injective g) :
    ∀ n ≤ maxPending, ∃ τ s, (machine σ ω).Run Guard.free {} τ s ∧ Filled f g n s
  | 0, _ => ⟨_, _, .nil, rfl, nofun, fun _ _ _ => ⟨rfl, rfl⟩, fun _ _ => rfl, rfl⟩
  | n + 1, hn => by
    obtain ⟨τ, s, hrun, hfilled⟩ := exists_filled hf hg n (by omega)
    obtain ⟨τ', t, hrun', hfilled'⟩ := hfilled.registers (by omega) (fun k => hf n k) hg
    exact ⟨τ ++ τ', t, hrun.trans hrun', hfilled'⟩

end Filling

/-- **The limit is the pool's.**  In the runs of however many sessions on a pool of workers some request
is answered SYSTEM_FULL if and only if the pool has more than `MAX_PENDING` threads. -/
theorem systemFull_iff_workers [Infinite σ] :
    (∃ τ s, (machine σ ω).Run Guard.free {} τ s ∧ ∃ x q r, .answered x q r .systemFull ∈ τ) ↔
      maxPending < Fintype.card ω := by
  constructor
  · rintro ⟨τ, s, hrun, x, q, r, hmem⟩
    have halways : Always (fun _ e => ∀ x q r, e = .answered x q r .systemFull →
        maxPending < Fintype.card ω) τ := by
      refine hrun.always (I := Owned) owned_empty
        (fun _ _ _ _ _ hI _ hstep => hI.step (step_cases hstep)) ?_
      rintro τ s i t _ hI - hstep x q r rfl
      exact hI.workers_of_answered (step_cases hstep)
    exact always_const_iff.mp halways _ hmem x q r rfl
  · intro hcard
    obtain ⟨e⟩ : Nonempty (Fin (maxPending + 1) ↪ ω) :=
      Function.Embedding.nonempty_of_card_le (by rw [Fintype.card_fin]; exact hcard)
    let f : ℕ → ω := fun k => e (Fin.ofNat _ k)
    have hf : ∀ k m, k < m → m ≤ maxPending → f m ≠ f k := by
      intro k m hkm hm he
      have hval := congrArg Fin.val (e.injective he)
      simp only [Fin.val_ofNat] at hval
      rw [Nat.mod_eq_of_lt (by omega), Nat.mod_eq_of_lt (by omega)] at hval
      omega
    let g := Infinite.natEmbedding σ
    obtain ⟨τ, s, hrun, hfilled⟩ := exists_filled (f := f) hf g.injective maxPending le_rfl
    obtain ⟨t, hrun', hserver, howner, -, -⟩ := hfilled.calls le_rfl
    have hframe : t.server.dispatcher.frames (f maxPending) = none := by
      rw [hserver]
      exact (hfilled.idle _ le_rfl le_rfl).2
    have hcalling : t.server.handlers (f maxPending) =
        some (.calling someRequest (UInt64.ofNat maxPending)) := by
      rw [hserver]
      exact Server.setHandler_handlers.trans (if_pos rfl)
    have hlock := Server.step_lock hcalling hframe
    rw [if_pos (by rw [hserver, Server.setHandler_dispatcher, hfilled.size])] at hlock
    have hstep := step_ends rfl hlock howner hcalling (update_self _ _ _)
    refine ⟨_, _, (hrun.trans hrun').concat trivial hstep, g maxPending, someRequest, _,
      List.mem_append_right _ (List.mem_singleton.mpr rfl)⟩

/-- Two workers are never too many. -/
theorem systemFull_iff_workers_two : ¬ ∃ τ s, (machine ℕ Bool).Run Guard.free {} τ s ∧
    ∃ x q r, .answered x q r .systemFull ∈ τ :=
  mt systemFull_iff_workers.mp (by decide)

end WorkerPool

end ManagementSensors
