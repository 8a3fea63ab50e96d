import ManagementSensors.Server.Handler

/-!
# Server/WakeUp — which wake-ups of a handler are lost

The pending row is committed before the handler registers its call, so the event of the row may be
dispatched in between: the dispatch then finds no entry, and is gone.  The entry stands from the
registration on, until another call registers under the identifier or leaves under it
(`Undisplaced`), and the frame of a waiting call is ready exactly when SUCCESS was dispatched on the
identifier while the entry stood (`Waits`).  So a dispatch in time is answered exactly when one comes
while the entry stands (`waitForResponse_wakes_iff`).
-/

open Machinery Function

namespace ManagementSensors.Server

variable {κ : Type} [DecidableEq κ]

/-! ## Reading a trace -/

/-- Whether an event starts a request of handler `c`: its identifier has been generated. -/
def Event.starts (c : κ) : Event κ → Bool
  | .generated c' _ => c' = c
  | _ => false

/-- Whether an event registers the call of `c`. -/
def Event.registers (c : κ) : Event κ → Bool
  | .dispatcher (.registered c' _) => c' = c
  | _ => false

/-- Whether an event takes the entry of `r` away from the call of `c`: another call registers under
`r`, or leaves under it.  A call that is refused has not been there. -/
def Event.displaces (c : κ) (r : RequestId) : Event κ → Bool
  | .dispatcher (.registered c' r') => c' ≠ c ∧ r' = r
  | .dispatcher (.returned c' r' st) => c' ≠ c ∧ r' = r ∧ st ≠ .systemFull
  | _ => false

/-- The events since handler `c` started on its request. -/
def served (c : κ) (τ : List (Event κ)) : List (Event κ) := sinceLast (Event.starts c) τ

/-- The events between the commit of the pending row of `r` and the deadline of `c`. -/
def inTime (c : κ) (r : RequestId) (w : List (Event κ)) : List (Event κ) :=
  ((w.dropWhile (· ≠ .committed c r)).drop 1).takeWhile (· ≠ .dispatcher (.expired c))

/-- SUCCESS is dispatched on `r` after the commit of its row and before the deadline of `c`. -/
def DispatchedInTime (c : κ) (r : RequestId) (w : List (Event κ)) : Prop :=
  ∃ p, .dispatcher (.dispatched r .success p) ∈ inTime c r w

/-- The events since the call of `c` has registered. -/
def sinceRegistered (c : κ) (w : List (Event κ)) : List (Event κ) := sinceLast (Event.registers c) w

/-- No other call has registered or left under `r` since. -/
def Undisplaced (c : κ) (r : RequestId) (w : List (Event κ)) : Prop :=
  ∀ e ∈ sinceRegistered c w, e.displaces c r = false

/-- SUCCESS is dispatched on `r` after the call of `c` has registered, before any other call registers
or leaves under `r`. -/
def DispatchedStanding (c : κ) (r : RequestId) (w : List (Event κ)) : Prop :=
  ∃ p, .dispatcher (.dispatched r .success p) ∈
    (sinceRegistered c w).takeWhile fun e => !e.displaces c r

variable {τ w : List (Event κ)} {c c' : κ} {r : RequestId} {e : Event κ} {srv t : Server κ}
  {ph : Option Phase} {d d' : Dispatcher κ} {g : Frame}

theorem served_concat_of_not (h : e.starts c = false) : served c (τ ++ [e]) = served c τ ++ [e] := by
  simp [served, sinceLast_concat, h]

@[simp] theorem served_generated : served c (τ ++ [.generated c r]) = [] := by
  simp [served, sinceLast_concat, Event.starts]

theorem sinceRegistered_concat (h : e.registers c = false) :
    sinceRegistered c (w ++ [e]) = sinceRegistered c w ++ [e] := by
  simp [sinceRegistered, sinceLast_concat, h]

@[simp] theorem sinceRegistered_registered :
    sinceRegistered c (w ++ [.dispatcher (.registered c r)]) = [] := by
  simp [sinceRegistered, sinceLast_concat, Event.registers]

theorem undisplaced_concat (h : e.registers c = false) :
    Undisplaced c r (w ++ [e]) ↔ Undisplaced c r w ∧ e.displaces c r = false := by
  simp [Undisplaced, sinceRegistered_concat h, or_imp, forall_and]

/-- A dispatch of SUCCESS counts while nothing has come in between. -/
theorem dispatchedStanding_concat (h : e.registers c = false) :
    DispatchedStanding c r (w ++ [e]) ↔ DispatchedStanding c r w ∨
      Undisplaced c r w ∧ ∃ p, e = .dispatcher (.dispatched r .success p) := by
  rw [DispatchedStanding, DispatchedStanding, sinceRegistered_concat h]
  by_cases hw : Undisplaced c r w
  · have hall : ∀ e ∈ sinceRegistered c w, (!e.displaces c r) = true := fun e he => by
      simp [hw e he]
    rw [List.takeWhile_append_of_pos hall, List.takeWhile_eq_self_iff.mpr hall]
    simp only [List.mem_append, exists_or, hw, true_and]
    refine or_congr_right (exists_congr fun p => ⟨fun he => ?_, fun he => ?_⟩)
    · exact (List.mem_singleton.mp (List.takeWhile_prefix _ |>.subset he)).symm
    · subst he
      simp [Event.displaces]
  · have hlen : ((sinceRegistered c w).takeWhile fun e => !e.displaces c r).length ≠
        (sinceRegistered c w).length := fun hlen => hw fun e he => by
      have hself := (List.takeWhile_prefix _).eq_of_length hlen
      simpa using List.takeWhile_eq_self_iff.mp hself e he
    rw [List.takeWhile_append, if_neg hlen]
    simp [hw]

/-! ## A handler against its trace -/

/-- **What the frame of a call that waits on `r` says of the events `w` it is served with**: the call
has registered, the entry of `r` is its own while nothing has displaced it, and the context is ready,
with SUCCESS, exactly when SUCCESS was dispatched in that time. -/
structure Waits (w : List (Event κ)) (c : κ) (d : Dispatcher κ) (r : RequestId) (g : Frame) :
    Prop where
  id : g.id = r
  registered : .dispatcher (.registered c r) ∈ w
  entry : d.pendingRequests.lookup r = some c ↔ Undisplaced c r w
  ready : g.ctx.ready = true ↔ DispatchedStanding c r w
  success : g.ctx.ready = true → g.ctx.status = .success

/-- **A handler and its trace**: before it waits it has no frame, and since its identifier was
generated it has not registered. -/
def Traced (w : List (Event κ)) (c : κ) (d : Dispatcher κ) : Option Phase → Prop
  | none | some (.generating _) => d.frames c = none
  | some (.adding _ _) | some (.calling _ _) => d.frames c = none ∧ ∀ e ∈ w, e.registers c = false
  | some (.waiting _ r) => ∃ g, d.frames c = some g ∧ Waits w c d r g

/-- An event that leaves the frame of a waiting call, and its entry unless it displaces it. -/
theorem Waits.concat (h : Waits w c d r g) (hr : e.registers c = false)
    (hentry : d'.pendingRequests.lookup r = some c ↔
      d.pendingRequests.lookup r = some c ∧ e.displaces c r = false)
    (hdis : d.pendingRequests.lookup r = some c →
      ∀ p, e ≠ .dispatcher (.dispatched r .success p)) : Waits (w ++ [e]) c d' r g where
  id := h.id
  registered := List.mem_append_left _ h.registered
  entry := by rw [hentry, h.entry, undisplaced_concat hr]
  ready := by
    rw [h.ready, dispatchedStanding_concat hr]
    refine ⟨Or.inl, fun h' => h'.resolve_right ?_⟩
    rintro ⟨hw, p, he⟩
    exact hdis (h.entry.mpr hw) p he
  success := h.success

/-- An event that is not the registration of `c`, nor a dispatch that its entry takes. -/
theorem Traced.concat (h : Traced w c d ph) (hr : e.registers c = false)
    (hframe : d'.frames c = d.frames c)
    (hentry : ∀ r, d'.pendingRequests.lookup r = some c ↔
      d.pendingRequests.lookup r = some c ∧ e.displaces c r = false)
    (hdis : ∀ r, d.pendingRequests.lookup r = some c →
      ∀ p, e ≠ .dispatcher (.dispatched r .success p)) : Traced (w ++ [e]) c d' ph := by
  have hreg : (∀ e' ∈ w, e'.registers c = false) → ∀ e' ∈ w ++ [e], e'.registers c = false := by
    intro h e' he'
    rcases List.mem_append.mp he' with h' | h'
    · exact h e' h'
    · rwa [List.mem_singleton.mp h']
  match ph, h with
  | none, h => exact hframe.trans h
  | some (.generating _), h => exact hframe.trans h
  | some (.adding _ _), ⟨h1, h2⟩ => exact ⟨hframe.trans h1, hreg h2⟩
  | some (.calling _ _), ⟨h1, h2⟩ => exact ⟨hframe.trans h1, hreg h2⟩
  | some (.waiting _ r), ⟨g, h1, h2⟩ => exact ⟨g, hframe.trans h1, h2.concat hr (hentry r) (hdis r)⟩

/-- A handler with a frame waits. -/
theorem Traced.waiting (h : Traced w c d ph) (hg : d.frames c = some g) :
    ∃ q, ph = some (.waiting q g.id) ∧ Waits w c d g.id g := by
  match ph, h with
  | some (.waiting q r), ⟨g', h1, h2⟩ =>
    obtain rfl : g' = g := Option.some.inj (h1.symm.trans hg)
    obtain rfl := h2.id
    exact ⟨q, rfl, h2⟩
  | none, h => exact absurd (h.symm.trans hg) nofun
  | some (.generating _), h => exact absurd (h.symm.trans hg) nofun
  | some (.adding _ _), h => exact absurd (h.1.symm.trans hg) nofun
  | some (.calling _ _), h => exact absurd (h.1.symm.trans hg) nofun

/-- **The invariant**: no entry dangles, and every handler is as its trace says. -/
structure Consistent (τ : List (Event κ)) (srv : Server κ) : Prop where
  linked : srv.dispatcher.Linked
  traced : ∀ c, Traced (served c τ) c srv.dispatcher (srv.handlers c)

theorem consistent_empty : Consistent (κ := κ) [] {} where
  linked := Dispatcher.linked_empty
  traced _ := rfl

namespace Consistent

/-- What an event that does not concern `c` leaves of it. -/
theorem other (h : Consistent τ srv) (hs : e.starts c = false) (hr : e.registers c = false)
    (hframe : d.frames c = srv.dispatcher.frames c)
    (hentry : ∀ r, d.pendingRequests.lookup r = some c ↔
      srv.dispatcher.pendingRequests.lookup r = some c ∧ e.displaces c r = false)
    (hdis : ∀ r, srv.dispatcher.pendingRequests.lookup r = some c →
      ∀ p, e ≠ .dispatcher (.dispatched r .success p)) :
    Traced (served c (τ ++ [e])) c d (srv.handlers c) := by
  rw [served_concat_of_not hs]
  exact (h.traced c).concat hr hframe hentry hdis

/-- An event of a handler before its call. -/
theorem quiet (h : Consistent τ srv) (he : ∀ e', e ≠ .dispatcher e') (hs : e.starts c = false) :
    Traced (served c (τ ++ [e])) c srv.dispatcher (srv.handlers c) := by
  have hdisplaces : ∀ r, e.displaces c r = false := fun r => by
    cases e with
    | generated | committed => rfl
    | dispatcher e' => exact absurd rfl (he e')
  refine h.other hs ?_ rfl (fun r => by simp [hdisplaces r]) fun _ _ _ => he _
  cases e with
  | generated | committed => rfl
  | dispatcher e' => exact absurd rfl (he e')

/-- The commit of a row is an event that concerns no handler's call. -/
theorem committed (h : Consistent τ srv) (committed : Bool) (c' : κ) (r : RequestId) (c : κ) :
    Traced (served c (τ ++ (if committed then some (.committed c' r) else none : Option _).toList)) c
      srv.dispatcher (srv.handlers c) := by
  cases committed with
  | false => simpa using h.traced c
  | true => exact h.quiet nofun rfl

/-- A step of the handler `c` before it calls: it has no frame, and keeps none. -/
theorem setHandler (h : Consistent τ srv) {o : Option (Event κ)}
    (ho : ∀ c', c' ≠ c → Traced (served c' (τ ++ o.toList)) c' srv.dispatcher (srv.handlers c'))
    (hc : Traced (served c (τ ++ o.toList)) c srv.dispatcher ph) :
    Consistent (τ ++ o.toList) (srv.setHandler c ph) where
  linked := h.linked
  traced c' := by
    by_cases hcc : c' = c
    · subst hcc
      simpa using hc
    · simpa [hcc] using ho c' hcc

/-- The return of a call that has a frame: it leaves, and what stood under its identifier is gone. -/
theorem returned (h : Consistent τ srv) {st : ResponseStatus} (hst : st ≠ .systemFull)
    (hg : srv.dispatcher.frames c = some g) :
    Consistent (τ ++ [.dispatcher (.returned c g.id st)])
      (srv.advance (srv.dispatcher.leave c g.id, some (.returned c g.id st))).1 where
  linked := h.linked.leave hg
  traced c' := by
    by_cases hcc : c' = c
    · subst hcc
      simp [advance, Traced]
    · have hother : Traced (served c' (τ ++ [.dispatcher (.returned c g.id st)])) c'
          (srv.dispatcher.leave c g.id) (srv.handlers c') := by
        refine h.other rfl rfl (by simp [hcc]) (fun r => ?_) (by simp)
        by_cases hr : r = g.id
        · subst hr
          simp [Event.displaces, hst, Ne.symm hcc]
        · simp [Event.displaces, AList.lookup_erase_ne hr, Ne.symm hr]
      simpa [advance, update_of_ne hcc] using hother

/-- A step of the dispatcher. -/
theorem call (h : Consistent τ srv) {i : Input κ} {i' : Dispatcher.Input κ}
    {p : Dispatcher κ × Option (Dispatcher.Event κ)} (hi : Calls srv i i')
    (hd : (Dispatcher.machine κ).step srv.dispatcher i' = some p) :
    Consistent (τ ++ (srv.advance p).2.toList) (srv.advance p).1 := by
  obtain ⟨d, o⟩ := p
  have hlinked : d.Linked := h.linked.step hd
  cases Dispatcher.step_cases hd with
  | @refuse c r hc _ =>
    refine ⟨hlinked, fun c' => ?_⟩
    by_cases hcc : c' = c
    · subst hcc
      simpa [advance, Traced] using hc
    · have hother := h.other (c := c') (e := .dispatcher (.returned c r .systemFull)) rfl rfl rfl
        (by simp [Event.displaces]) (by simp)
      simpa [advance, update_of_ne hcc] using hother
  | @register c r hc _ =>
    refine ⟨hlinked, fun c' => ?_⟩
    by_cases hcc : c' = c
    · subst hcc
      cases hi with
      | @lock _ q _ hcall =>
        have hnew : served c' (τ ++ [.dispatcher (.registered c' r)]) =
            served c' τ ++ [.dispatcher (.registered c' r)] := served_concat_of_not rfl
        simp only [advance, hcall, Option.map_some, update_self, Option.toList_some, hnew]
        refine ⟨{ id := r }, by simp, rfl, by simp, ?_, ?_, by simp⟩
        · simp [Undisplaced]
        · simp [DispatchedStanding]
    · have hother : Traced (served c' (τ ++ [.dispatcher (.registered c r)])) c'
          (srv.dispatcher.register c r) (srv.handlers c') := by
        refine h.other rfl (by simpa [Event.registers] using Ne.symm hcc) (by simp [hcc])
          (fun r' => ?_) (by simp)
        by_cases hr : r' = r
        · subst hr
          simp [Event.displaces, Ne.symm hcc]
        · simp [Event.displaces, AList.lookup_insert_ne hr, Ne.symm hr]
      simpa [advance, update_of_ne hcc] using hother
  | @expire c g hg =>
    refine ⟨hlinked, fun c' => ?_⟩
    by_cases hcc : c' = c
    · subst hcc
      obtain ⟨q, hq, hwaits⟩ := (h.traced c').waiting hg
      have hafter : Waits (served c' τ ++ [.dispatcher (.expired c')]) c'
          (srv.dispatcher.expire c' g) g.id g :=
        hwaits.concat rfl (by simp [Event.displaces]) (by simp)
      have hnew : served c' (τ ++ [.dispatcher (.expired c')]) =
          served c' τ ++ [.dispatcher (.expired c')] := served_concat_of_not rfl
      simp only [advance, Option.toList_some, Option.map_some, hq, hnew]
      exact ⟨{ g with late := true }, by simp, hafter.id, hafter.registered, hafter.entry,
        hafter.ready, hafter.success⟩
    · have hother := h.other (c := c') (e := .dispatcher (.expired c))
        (d := srv.dispatcher.expire c g) rfl rfl (by simp [hcc]) (by simp [Event.displaces]) (by simp)
      simpa [advance] using hother
  | @answer c g hg hready =>
    obtain ⟨q, -, hwaits⟩ := (h.traced c).waiting hg
    exact h.returned (by simp [hwaits.success hready]) hg
  | @timeOut c g hg _ _ => exact h.returned (by simp) hg
  | sleepOn => simpa [advance] using ⟨hlinked, h.traced⟩
  | @dispatch r st =>
    have hst : st = .success := by
      cases hi
      rfl
    subst hst
    refine ⟨hlinked, fun c' => ?_⟩
    simp only [advance, Option.toList_some, Option.map_some]
    by_cases hl : srv.dispatcher.pendingRequests.lookup r = some c'
    · -- the entry of `c'` stands: its context becomes ready, with SUCCESS
      obtain ⟨g, hg, hid⟩ := h.linked r c' hl
      obtain ⟨q, hq, hwaits⟩ := (h.traced c').waiting hg
      rw [hid] at hwaits hq
      rw [hq, served_concat_of_not rfl]
      refine ⟨{ g with ctx := ⟨.success, true⟩ }, ?_, hid, List.mem_append_left _ hwaits.registered,
        ?_, ?_, fun _ => rfl⟩
      · rw [Dispatcher.dispatch_frames, if_pos hl, hg, Option.map_some]
      · rw [Dispatcher.dispatch_pendingRequests, hwaits.entry, undisplaced_concat rfl]
        simp [Event.displaces]
      · rw [dispatchedStanding_concat rfl]
        exact iff_of_true rfl (Or.inr ⟨hwaits.entry.mp hl, _, rfl⟩)
    · refine h.other rfl rfl ?_ (by simp [Event.displaces]) fun r' hl' p he => ?_
      · rw [Dispatcher.dispatch_frames, if_neg hl]
      · cases he
        exact hl hl'

/-- **The step lemma.** -/
theorem step {i : Input κ} {o : Option (Event κ)} (h : Consistent τ srv)
    (hstep : (machine κ).step srv i = some (t, o)) : Consistent (τ ++ o.toList) t := by
  cases step_cases hstep with
  | @request c q hc =>
    have htr := h.traced c
    rw [hc] at htr
    exact h.setHandler (fun c' _ => by simpa using h.traced c') (by simpa [Traced] using htr)
  | @generated c q r hc =>
    have htr := h.traced c
    rw [hc] at htr
    refine h.setHandler (fun c' hcc => h.quiet nofun ?_) ?_
    · simpa [Event.starts] using Ne.symm hcc
    · rw [Option.toList_some, served_generated]
      exact ⟨htr, nofun⟩
  | @notGenerated c q _ hc =>
    have htr := h.traced c
    rw [hc] at htr
    exact h.setHandler (fun c' _ => by simpa using h.traced c') (by simpa [Traced] using htr)
  | @added c q r committed hc =>
    have htr := h.committed committed c r c
    rw [hc] at htr
    exact h.setHandler (fun c' _ => h.committed committed c r c') htr
  | @notAdded c q r _ committed hc =>
    have htr := h.committed committed c r c
    rw [hc] at htr
    exact h.setHandler (fun c' _ => h.committed committed c r c') htr.1
  | call hi hd => exact h.call hi hd
  | ignored => simpa using h

end Consistent

/-! ## The wake-up of a call -/

/-- **No lost wake-up**, of a call that returns: where SUCCESS was dispatched on its identifier
between the commit of its row and its deadline, and it is not refused, it returns SUCCESS. -/
def Wakes (τ : List (Event κ)) : Event κ → Prop
  | .dispatcher (.returned c r st) =>
    DispatchedInTime c r (served c τ) → st ≠ .systemFull → st = .success
  | _ => True

/-- What the order of the threads has to be for that: SUCCESS is dispatched on its identifier after the
call has registered, and no other call registers or leaves under the identifier in between. -/
def DispatchedAfter (τ : List (Event κ)) : Event κ → Prop
  | .dispatcher (.returned c r _) => DispatchedInTime c r (served c τ) →
      .dispatcher (.registered c r) ∈ served c τ → DispatchedStanding c r (served c τ)
  | _ => True

/-- A call returns what its frame says: it was refused, or registered and dispatched to, or registered
and not. -/
theorem Consistent.returns {i : Input κ} {st : ResponseStatus} (h : Consistent τ srv)
    (hstep : (machine κ).step srv i = some (t, some (.dispatcher (.returned c r st)))) :
    (st = .systemFull ∧ .dispatcher (.registered c r) ∉ served c τ) ∨
      (.dispatcher (.registered c r) ∈ served c τ ∧
        (DispatchedStanding c r (served c τ) ∧ st = .success ∨
          ¬ DispatchedStanding c r (served c τ) ∧ st = .timeout)) := by
  generalize ho : some (Event.dispatcher (.returned c r st)) = o at hstep
  cases step_cases hstep with
  | request => cases ho
  | generated => cases ho
  | notGenerated => cases ho
  | added => split at ho <;> cases ho
  | notAdded => split at ho <;> cases ho
  | ignored => cases ho
  | @call i i' p hi hd =>
    obtain ⟨d, o⟩ := p
    obtain ⟨e, rfl, he⟩ := Option.map_eq_some_iff.mp ho.symm
    cases he
    cases Dispatcher.step_cases hd with
    | refuse _ _ =>
      cases hi with
      | lock hc =>
        have htr := h.traced c
        rw [hc] at htr
        refine Or.inl ⟨rfl, fun hreg => ?_⟩
        have := htr.2 _ hreg
        simp [Event.registers] at this
    | @answer _ g hg hready =>
      obtain ⟨q, -, hwaits⟩ := (h.traced c).waiting hg
      exact Or.inr ⟨hwaits.registered, Or.inl ⟨hwaits.ready.mp hready, hwaits.success hready⟩⟩
    | @timeOut _ g hg hready _ =>
      obtain ⟨q, -, hwaits⟩ := (h.traced c).waiting hg
      exact Or.inr ⟨hwaits.registered, Or.inr ⟨by simp [← hwaits.ready, hready], rfl⟩⟩

/-- **Which wake-ups are lost.**  In every run of a server, a call that returns has been woken in time
if and only if, where SUCCESS was dispatched on its identifier in time and the call did register,
SUCCESS was dispatched on it after the registration, with no other call registering or leaving under
the identifier in between. -/
theorem waitForResponse_wakes_iff (hrun : (machine κ).Run Guard.free {} τ srv) :
    Always (fun τ e => Wakes τ e ↔ DispatchedAfter τ e) τ := by
  refine hrun.always (I := Consistent) consistent_empty (fun _ _ _ _ _ hI _ hs => hI.step hs) ?_
  intro τ srv i t e h _ hstep
  match e with
  | .generated _ _ | .committed _ _ => exact Iff.rfl
  | .dispatcher (.registered _ _) | .dispatcher (.dispatched _ _ _) | .dispatcher (.expired _) =>
    exact Iff.rfl
  | .dispatcher (.returned c r st) =>
    rcases h.returns hstep with ⟨rfl, hreg⟩ | ⟨hreg, ⟨hdis, rfl⟩ | ⟨hdis, rfl⟩⟩
    · exact ⟨fun _ _ hreg' => absurd hreg' hreg, fun _ _ hst => absurd rfl hst⟩
    · exact ⟨fun _ _ _ => hdis, fun _ _ _ => rfl⟩
    · exact ⟨fun hw hd _ => absurd (hw hd nofun) nofun, fun hf hd _ => absurd (hf hd hreg) hdis⟩

/-- The message of a commit for request 1. -/
private def change : Message :=
  parserNotify "config_events" (.object [("action", .string "UPDATE"), ("sensor_id", .int64 3),
    ("new_ip", .string "10.0.0.1/32"), ("hostname", .string "sensor-3"), ("request_id", .int64 1)])

/-- The steps of a handler up to the commit of its row for request 1. -/
private def commitFirst : List (Input ℕ) :=
  [.request 0 ⟨3, "10.0.0.1"⟩, .generated 0 (.ok 1), .added 0 (.ok ()) true]

/-- A handler that registers before the event arrives is woken. -/
theorem waitForResponse_wakes_iff_woken :
    Wakes [.generated 0 1, .committed 0 1, .dispatcher (.registered 0 1),
      .dispatcher (.dispatched 1 .success (some 0))]
      (.dispatcher (.returned (0 : ℕ) 1 .success)) := by
  obtain ⟨srv, hrun⟩ := (machine ℕ).exists_run_of_exec Guard.free {}
    (commitFirst ++ [.lock 0, .notified change, .wake 0])
    [.generated 0 1, .committed 0 1, .dispatcher (.registered 0 1),
      .dispatcher (.dispatched 1 .success (some 0)), .dispatcher (.returned 0 1 .success)] (by decide)
  exact (waitForResponse_wakes_iff hrun _ _ [] rfl).mpr fun _ _ => ⟨some 0, by decide⟩

/-- What is seen of a handler that registers after its event was dispatched. -/
private def lateCall : List (Event ℕ) :=
  [.generated 0 1, .committed 0 1, .dispatcher (.dispatched 1 .success none),
    .dispatcher (.registered 0 1), .dispatcher (.expired 0)]

/-- **A lost wake-up**: the event of the row is dispatched between its commit and the registration of
the call, and the call times out. -/
theorem not_wakes :
    ¬ ∀ τ srv, (machine ℕ).Run Guard.free {} τ srv → Always Wakes τ := by
  intro h
  obtain ⟨srv, hrun⟩ := (machine ℕ).exists_run_of_exec Guard.free {}
    (commitFirst ++ [.notified change, .lock 0, .expire 0, .wake 0])
    (lateCall ++ [.dispatcher (.returned 0 1 .timeout)]) (by decide)
  have hwakes := h _ _ hrun lateCall (.dispatcher (.returned 0 1 .timeout)) [] rfl
  exact absurd (hwakes ⟨none, by decide⟩ nofun) nofun

end ManagementSensors.Server
