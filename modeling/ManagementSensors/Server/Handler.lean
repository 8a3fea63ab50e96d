import ManagementSensors.Db.DatabaseManager
import ManagementSensors.Db.Notify

/-!
# Server/Handler — one server process: the handlers of CONFIG_IP, and the listener

A handler — `config_ip` of the REST API, or the CONFIG_IP command of the CLI — makes the same three
calls: `generate_request_id`, `add_pending_config`, `wait_for_response`.  An exception of either
database call ends it.  The listener thread runs `on_db_config_event_received` on every message of
`config_events`, and dispatches SUCCESS.

The machine is open towards the database: how a database call ended, and which messages arrive, are
inputs.
-/

open Machinery Function

namespace ManagementSensors

/-- What a CONFIG_IP request asks for. -/
structure ConfigRequest where
  sensorId : SensorId
  ip : String
  deriving DecidableEq, Repr

/-- `"sensor-" + std::to_string(sensor_id)`. -/
def sensorHostname (s : SensorId) : String := "sensor-" ++ toString s

/-- How far a handler has come with its request. -/
inductive Phase
  | generating (q : ConfigRequest)
  | adding (q : ConfigRequest) (r : RequestId)
  | calling (q : ConfigRequest) (r : RequestId)
  | waiting (q : ConfigRequest) (r : RequestId)
  deriving DecidableEq, Repr

/-- The request a handler serves. -/
def Phase.request : Phase → ConfigRequest
  | .generating q | .adding q _ | .calling q _ | .waiting q _ => q

/-- The request and the identifier of a handler that waits on its answer, or is about to. -/
def Phase.awaits : Phase → Option (ConfigRequest × RequestId)
  | .calling q r | .waiting q r => some (q, r)
  | _ => none

/-- The request and the identifier of a handler that is about to insert its row. -/
def Phase.adds : Phase → Option (ConfigRequest × RequestId)
  | .adding q r => some (q, r)
  | _ => none

/-- `on_db_config_event_received`: the identifier it dispatches SUCCESS on, if any.  An exception
outside the `try` leaves the handler. -/
def onDbConfigEventReceived (msg : Message) : Option (Option RequestId) :=
  if msg = [] then some none
  else do
    let channel ← Json.member "channel" msg
    let _ ← channel.asString
    if Json.contains "payload" msg then
      return do
        let payload ← (Json.member "payload" msg).bind Json.asObject
        let _ ← (Json.member "sensor_id" payload).bind Json.asInt64
        let requestId ← (Json.member "request_id" payload).bind Json.asInt64
        let _ ← (Json.member "action" payload).bind Json.asString
        let _ ← (Json.member "hostname" payload).bind Json.asString
        let _ ← (Json.member "new_ip" payload).bind Json.asString
        return requestId.toUInt64
    else return none

/-- What a committed row of `sensor_config` is dispatched on: its own request. -/
theorem onDbConfigEventReceived_change {A : Type} (I : InetType A) (op : String)
    (row : ConfigRow A) :
    onDbConfigEventReceived (parserNotify "config_events" (notifyConfigChange I op row)) =
      some (row.requestId.map Int64.toUInt64) := by
  cases hr : row.requestId <;>
    simp [onDbConfigEventReceived, parserNotify, notifyConfigChange, Json.contains, Json.asString,
      Json.asObject, Json.asInt64, hr]

/-- A server: its dispatcher, and its handlers that serve a request. -/
structure Server (κ : Type) where
  dispatcher : Dispatcher κ := {}
  handlers : κ → Option Phase := fun _ => none

namespace Server

variable {κ : Type} [DecidableEq κ]

/-- What an observer sees of a server. -/
inductive Event (κ : Type)
  | generated (c : κ) (r : RequestId)
  | committed (c : κ) (r : RequestId)
  | dispatcher (e : Dispatcher.Event κ)
  deriving DecidableEq, Repr

/-- One step of a handler's thread, or of the listener's. -/
inductive Input (κ : Type)
  | request (c : κ) (q : ConfigRequest)
  | generated (c : κ) (result : Except DbException RequestId)
  | added (c : κ) (result : Except DbException Unit) (committed : Bool)
  | lock (c : κ)
  | expire (c : κ)
  | wake (c : κ)
  | notified (msg : Message)

/-- Move the handler `c` to a phase, or end it. -/
def setHandler (srv : Server κ) (c : κ) (ph : Option Phase) : Server κ :=
  { srv with handlers := update srv.handlers c ph }

/-- The handler of a call that has registered waits; that of a call that has returned answers its
client and is done. -/
def advance (srv : Server κ) (p : Dispatcher κ × Option (Dispatcher.Event κ)) :
    Server κ × Option (Event κ) :=
  ({ dispatcher := p.1
     handlers := match p.2 with
      | some (.registered c r) =>
        update srv.handlers c ((srv.handlers c).map fun ph => .waiting ph.request r)
      | some (.returned c _ _) => update srv.handlers c none
      | _ => srv.handlers }, p.2.map .dispatcher)

/-- One step.  A handler takes its steps in the order of its calls. -/
def step (srv : Server κ) : Input κ → Option (Server κ × Option (Event κ))
  | .request c q =>
    match srv.handlers c with
    | none => some (srv.setHandler c (some (.generating q)), none)
    | some _ => none
  | .generated c result =>
    match srv.handlers c, result with
    | some (.generating q), .ok r =>
      some (srv.setHandler c (some (.adding q r)), some (.generated c r))
    | some (.generating _), .error _ => some (srv.setHandler c none, none)
    | _, _ => none
  | .added c result committed =>
    match srv.handlers c, result with
    | some (.adding q r), .ok () =>
      some (srv.setHandler c (some (.calling q r)), if committed then some (.committed c r) else none)
    | some (.adding _ r), .error _ =>
      some (srv.setHandler c none, if committed then some (.committed c r) else none)
    | _, _ => none
  | .lock c =>
    match srv.handlers c with
    | some (.calling _ r) => (srv.dispatcher.step (.lock c r)).map srv.advance
    | _ => none
  | .expire c => (srv.dispatcher.step (.expire c)).map srv.advance
  | .wake c => (srv.dispatcher.step (.wake c)).map srv.advance
  | .notified msg =>
    match onDbConfigEventReceived msg with
    | some (some r) => (srv.dispatcher.step (.dispatch r .success)).map srv.advance
    | _ => some (srv, none)

/-- The server as a machine. -/
def machine (κ : Type) [DecidableEq κ] : Machine (Server κ) (Input κ) (Event κ) := ⟨step⟩

/-! ## What one step can do -/

variable {srv t : Server κ} {c c' : κ} {ph : Option Phase} {r : RequestId} {q : ConfigRequest}

@[simp] theorem setHandler_dispatcher : (srv.setHandler c ph).dispatcher = srv.dispatcher := rfl

@[simp] theorem setHandler_handlers :
    (srv.setHandler c ph).handlers c' = if c' = c then ph else srv.handlers c' := by
  simp [setHandler, update_apply]

/-- The steps of a dispatcher a server takes: a call of a handler that is about to wait, the deadline
or the wake-up of one that waits, or SUCCESS on the identifier of a message. -/
inductive Calls (srv : Server κ) : Input κ → Dispatcher.Input κ → Prop
  | lock {c : κ} {q : ConfigRequest} {r : RequestId} (hc : srv.handlers c = some (.calling q r)) :
      Calls srv (.lock c) (.lock c r)
  | expire {c : κ} : Calls srv (.expire c) (.expire c)
  | wake {c : κ} : Calls srv (.wake c) (.wake c)
  | notified {msg : Message} {r : RequestId} (hmsg : onDbConfigEventReceived msg = some (some r)) :
      Calls srv (.notified msg) (.dispatch r .success)

/-- **Every step of a server**, with its guard and its effect. -/
inductive StepCases (srv : Server κ) : Input κ → Server κ → Option (Event κ) → Prop
  | request {c : κ} {q : ConfigRequest} (hc : srv.handlers c = none) :
      StepCases srv (.request c q) (srv.setHandler c (some (.generating q))) none
  | generated {c : κ} {q : ConfigRequest} {r : RequestId}
      (hc : srv.handlers c = some (.generating q)) :
      StepCases srv (.generated c (.ok r)) (srv.setHandler c (some (.adding q r)))
        (some (.generated c r))
  | notGenerated {c : κ} {q : ConfigRequest} {e : DbException}
      (hc : srv.handlers c = some (.generating q)) :
      StepCases srv (.generated c (.error e)) (srv.setHandler c none) none
  | added {c : κ} {q : ConfigRequest} {r : RequestId} {committed : Bool}
      (hc : srv.handlers c = some (.adding q r)) :
      StepCases srv (.added c (.ok ()) committed) (srv.setHandler c (some (.calling q r)))
        (if committed then some (.committed c r) else none)
  | notAdded {c : κ} {q : ConfigRequest} {r : RequestId} {e : DbException} {committed : Bool}
      (hc : srv.handlers c = some (.adding q r)) :
      StepCases srv (.added c (.error e) committed) (srv.setHandler c none)
        (if committed then some (.committed c r) else none)
  | call {i : Input κ} {i' : Dispatcher.Input κ} {p : Dispatcher κ × Option (Dispatcher.Event κ)}
      (hi : Calls srv i i') (hd : (Dispatcher.machine κ).step srv.dispatcher i' = some p) :
      StepCases srv i (srv.advance p).1 (srv.advance p).2
  | ignored {msg : Message} (hmsg : ∀ r, onDbConfigEventReceived msg ≠ some (some r)) :
      StepCases srv (.notified msg) srv none

theorem step_cases {i : Input κ} {o : Option (Event κ)}
    (h : (machine κ).step srv i = some (t, o)) : StepCases srv i t o := by
  change step srv i = some (t, o) at h
  cases i with
  | request c q =>
    simp only [step] at h
    split at h
    case h_1 hc =>
      cases h
      exact .request hc
    case h_2 => cases h
  | generated c result =>
    simp only [step] at h
    split at h
    case h_1 hc =>
      cases h
      exact .generated hc
    case h_2 hc =>
      cases h
      exact .notGenerated hc
    case h_3 => cases h
  | added c result committed =>
    simp only [step] at h
    split at h
    case h_1 hc =>
      cases h
      exact .added hc
    case h_2 hc =>
      cases h
      exact .notAdded hc
    case h_3 => cases h
  | lock c =>
    simp only [step] at h
    split at h
    case h_1 hc =>
      obtain ⟨p, hp, hadv⟩ := Option.map_eq_some_iff.mp h
      obtain ⟨rfl, rfl⟩ := Prod.mk.inj hadv
      exact .call (.lock hc) hp
    case h_2 => cases h
  | expire c =>
    obtain ⟨p, hp, hadv⟩ := Option.map_eq_some_iff.mp h
    obtain ⟨rfl, rfl⟩ := Prod.mk.inj hadv
    exact .call .expire hp
  | wake c =>
    obtain ⟨p, hp, hadv⟩ := Option.map_eq_some_iff.mp h
    obtain ⟨rfl, rfl⟩ := Prod.mk.inj hadv
    exact .call .wake hp
  | notified msg =>
    simp only [step] at h
    split at h
    case h_1 hmsg =>
      obtain ⟨p, hp, hadv⟩ := Option.map_eq_some_iff.mp h
      obtain ⟨rfl, rfl⟩ := Prod.mk.inj hadv
      exact .call (.notified hmsg) hp
    case h_2 hmsg =>
      cases h
      exact .ignored fun r hr => hmsg r hr

/-! ## What one step does to a handler -/

variable {i : Input κ} {o : Option (Event κ)}

/-- The events of a dispatcher step that move a handler. -/
theorem advance_handlers (srv : Server κ) (p : Dispatcher κ × Option (Dispatcher.Event κ)) (c : κ) :
    (srv.advance p).1.handlers c = srv.handlers c ∨
      (∃ r, p.2 = some (.registered c r) ∧ (srv.advance p).1.handlers c =
        (srv.handlers c).map fun ph => .waiting ph.request r) ∨
      ∃ r st, p.2 = some (.returned c r st) ∧ (srv.advance p).1.handlers c = none := by
  obtain ⟨d, o⟩ := p
  match o with
  | none | some (.dispatched _ _ _) | some (.expired _) => exact Or.inl rfl
  | some (.registered c' r) =>
    by_cases hc : c = c'
    · subst hc
      exact Or.inr (Or.inl ⟨r, rfl, by simp [advance]⟩)
    · exact Or.inl (by simp [advance, update_of_ne hc])
  | some (.returned c' r st) =>
    by_cases hc : c = c'
    · subst hc
      exact Or.inr (Or.inr ⟨r, st, rfl, by simp [advance]⟩)
    · exact Or.inl (by simp [advance, update_of_ne hc])

/-- A handler is about to insert its row only once its identifier has been generated. -/
theorem adding_of_step (hstep : (machine κ).step srv i = some (t, o))
    (h : t.handlers c = some (.adding q r)) : srv.handlers c = some (.adding q r) ∨
      i = .generated c (.ok r) ∧ srv.handlers c = some (.generating q) := by
  cases step_cases hstep with
  | ignored => exact Or.inl h
  | call hi hd =>
    rcases advance_handlers srv _ c with he | ⟨r', -, he⟩ | ⟨r', st, -, he⟩
    · exact Or.inl (he ▸ h)
    · rw [he] at h
      obtain ⟨ph, -, hph⟩ := Option.map_eq_some_iff.mp h
      cases hph
    · rw [he] at h
      cases h
  | @generated c' q' r' hc =>
    rw [setHandler_handlers] at h
    split at h
    case isTrue hcc =>
      subst hcc
      cases h
      exact Or.inr ⟨rfl, hc⟩
    case isFalse => exact Or.inl h
  | request _ | notGenerated _ | added _ | notAdded _ =>
    rw [setHandler_handlers] at h
    split at h
    case isTrue => cases h
    case isFalse => exact Or.inl h

/-- A handler waits, or is about to, only once its row has been added, as far as it has been told. -/
theorem awaits_of_step (hstep : (machine κ).step srv i = some (t, o))
    (h : (t.handlers c).bind Phase.awaits = some (q, r)) :
    (srv.handlers c).bind Phase.awaits = some (q, r) ∨
      ∃ committed, i = .added c (.ok ()) committed ∧ srv.handlers c = some (.adding q r) := by
  cases step_cases hstep with
  | ignored => exact Or.inl h
  | @call i i' p hi hd =>
    rcases advance_handlers srv p c with he | ⟨r', hp, he⟩ | ⟨r', st, -, he⟩
    · exact Or.inl (he ▸ h)
    · -- registering: the handler was about to wait on the same identifier
      rw [he] at h
      obtain ⟨d, o⟩ := p
      obtain rfl : o = some (.registered c r') := hp
      cases Dispatcher.step_cases hd with
      | register _ _ =>
        cases hi with
        | lock hc =>
          rw [hc] at h ⊢
          exact Or.inl h
    · rw [he] at h
      cases h
  | @added c' q' r' committed hc =>
    rw [setHandler_handlers] at h
    split at h
    case isTrue hcc =>
      subst hcc
      cases h
      exact Or.inr ⟨committed, rfl, hc⟩
    case isFalse => exact Or.inl h
  | request _ | notGenerated _ | generated _ | notAdded _ =>
    rw [setHandler_handlers] at h
    split at h
    case isTrue => cases h
    case isFalse => exact Or.inl h

/-- A call returns in a step of its own handler. -/
theorem returned_of_step {st : ResponseStatus}
    (hstep : (machine κ).step srv i = some (t, some (.dispatcher (.returned c r st)))) :
    i = .lock c ∨ i = .wake c := by
  generalize ho : some (Event.dispatcher (.returned c r st)) = o at hstep
  cases step_cases hstep with
  | request | generated | notGenerated | ignored => cases ho
  | added | notAdded => split at ho <;> cases ho
  | @call i i' p hi hd =>
    obtain ⟨d, o⟩ := p
    obtain ⟨e, rfl, he⟩ := Option.map_eq_some_iff.mp ho.symm
    cases he
    cases Dispatcher.step_cases hd with
    | refuse =>
      cases hi
      exact Or.inl rfl
    | answer | timeOut =>
      cases hi
      exact Or.inr rfl

/-! ## What a frame holds -/

/-- **Every frame is the frame of a handler that waits**, no entry dangles, and a frame that holds
SUCCESS waits on an identifier of `B`. -/
structure Sound (B : RequestId → Prop) (srv : Server κ) : Prop where
  linked : srv.dispatcher.Linked
  waiting : ∀ c f, srv.dispatcher.frames c = some f → ∃ q, srv.handlers c = some (.waiting q f.id)
  success : ∀ c f, srv.dispatcher.frames c = some f → f.ctx.status = .success → B f.id

variable {B B' : RequestId → Prop}

omit [DecidableEq κ] in
theorem sound_empty : Sound (κ := κ) B {} := ⟨Dispatcher.linked_empty, nofun, nofun⟩

omit [DecidableEq κ] in
theorem Sound.mono (h : srv.Sound B) (hB : ∀ r, B r → B' r) : srv.Sound B' :=
  ⟨h.linked, h.waiting, fun c f hf hs => hB _ (h.success c f hf hs)⟩

/-- A handler that does not wait yet moves to another phase. -/
theorem Sound.setHandler (h : srv.Sound B) (hc : ∀ q r, srv.handlers c ≠ some (.waiting q r)) :
    (srv.setHandler c ph).Sound B where
  linked := h.linked
  waiting c' f hf := by
    obtain ⟨q, hq⟩ := h.waiting c' f hf
    have hne : c' ≠ c := by
      rintro rfl
      exact hc q f.id hq
    exact ⟨q, by simpa [hne] using hq⟩
  success := h.success

theorem Sound.call {i' : Dispatcher.Input κ} {p : Dispatcher κ × Option (Dispatcher.Event κ)}
    (h : srv.Sound B) (hi : Calls srv i i')
    (hd : (Dispatcher.machine κ).step srv.dispatcher i' = some p)
    (hB : ∀ r, i' = .dispatch r .success → B r) : (srv.advance p).1.Sound B := by
  obtain ⟨d, o⟩ := p
  have hlinked : d.Linked := h.linked.step hd
  have hleave : ∀ c f st, srv.dispatcher.frames c = some f →
      (srv.advance (srv.dispatcher.leave c f.id, some (.returned c f.id st))).1.Sound B := by
    intro c f st hf
    refine ⟨h.linked.leave hf, fun c' f' hf' => ?_, fun c' f' hf' => ?_⟩
    all_goals
      have hne : c' ≠ c := by
        rintro rfl
        simp [advance] at hf'
      have hf'' : srv.dispatcher.frames c' = some f' := by simpa [advance, hne] using hf'
    · simpa [advance, update_of_ne hne] using h.waiting c' f' hf''
    · exact h.success c' f' hf''
  cases Dispatcher.step_cases hd with
  | @refuse c r hc _ =>
    refine ⟨hlinked, fun c' f' hf' => ?_, h.success⟩
    have hne : c' ≠ c := by
      rintro rfl
      exact absurd (hc.symm.trans hf') nofun
    simpa [advance, update_of_ne hne] using h.waiting c' f' hf'
  | @register c r hc _ =>
    cases hi with
    | @lock _ q _ hcall =>
      refine ⟨hlinked, fun c' f' hf' => ?_, fun c' f' hf' hs => ?_⟩
      all_goals
        simp only [advance, Dispatcher.register_frames] at hf'
        split at hf'
      case refine_1.isTrue hcc =>
        subst hcc
        cases hf'
        exact ⟨q, by simp [advance, hcall, Phase.request]⟩
      case refine_1.isFalse hcc =>
        simpa [advance, update_of_ne hcc] using h.waiting c' f' hf'
      case refine_2.isTrue =>
        cases hf'
        cases hs
      case refine_2.isFalse => exact h.success c' f' hf' hs
  | @expire c f hf =>
    refine ⟨hlinked, fun c' f' hf' => ?_, fun c' f' hf' hs => ?_⟩
    all_goals
      simp only [advance, Dispatcher.expire_frames] at hf'
      split at hf'
    case refine_1.isTrue hcc =>
      subst hcc
      cases hf'
      exact h.waiting c' f hf
    case refine_1.isFalse => exact h.waiting c' f' hf'
    case refine_2.isTrue hcc =>
      subst hcc
      cases hf'
      exact h.success c' f hf hs
    case refine_2.isFalse => exact h.success c' f' hf' hs
  | @answer c f hf _ => exact hleave c f _ hf
  | @timeOut c f hf _ _ => exact hleave c f _ hf
  | sleepOn => exact h
  | @dispatch r st =>
    have hst : st = .success := by
      cases hi
      rfl
    subst hst
    refine ⟨hlinked, fun c' f' hf' => ?_, fun c' f' hf' hs => ?_⟩
    all_goals
      simp only [advance] at hf'
      rw [Dispatcher.dispatch_frames] at hf'
      split at hf'
    case refine_1.isTrue =>
      obtain ⟨f, hf, rfl⟩ := Option.map_eq_some_iff.mp hf'
      exact h.waiting c' f hf
    case refine_1.isFalse => exact h.waiting c' f' hf'
    case refine_2.isTrue hl =>
      obtain ⟨f, hf, rfl⟩ := Option.map_eq_some_iff.mp hf'
      obtain ⟨g, hg, hid⟩ := h.linked r c' hl
      obtain rfl : g = f := Option.some.inj (hg.symm.trans hf)
      exact hid ▸ hB r rfl
    case refine_2.isFalse => exact h.success c' f' hf' hs

/-- **The step lemma**: SUCCESS is dispatched on identifiers of `B` only. -/
theorem Sound.step (h : srv.Sound B) (hstep : (machine κ).step srv i = some (t, o))
    (hB : ∀ msg r, i = .notified msg → onDbConfigEventReceived msg = some (some r) → B r) :
    t.Sound B := by
  cases step_cases hstep with
  | request hc => exact h.setHandler (by simp [hc])
  | generated hc => exact h.setHandler (by simp [hc])
  | notGenerated hc => exact h.setHandler (by simp [hc])
  | added hc => exact h.setHandler (by simp [hc])
  | notAdded hc => exact h.setHandler (by simp [hc])
  | ignored => exact h
  | call hi hd =>
    refine h.call hi hd fun r hr => ?_
    subst hr
    cases hi with
    | notified hmsg => exact hB _ r rfl hmsg

/-- **A call returns SUCCESS** to a handler that waits on an identifier of `B`. -/
theorem Sound.answers (h : srv.Sound B)
    (hstep : (machine κ).step srv i = some (t, some (.dispatcher (.returned c r .success)))) :
    B r ∧ ∃ q, srv.handlers c = some (.waiting q r) := by
  generalize ho : some (Event.dispatcher (.returned c r .success)) = o at hstep
  cases step_cases hstep with
  | request | generated | notGenerated | ignored => cases ho
  | added | notAdded => split at ho <;> cases ho
  | @call i i' p hi hd =>
    obtain ⟨d, o⟩ := p
    obtain ⟨e, rfl, he⟩ := Option.map_eq_some_iff.mp ho.symm
    generalize hst : ResponseStatus.success = st at he
    cases he
    cases Dispatcher.step_cases hd with
    | refuse => cases hst
    | answer hf _ => exact ⟨h.success _ _ hf hst.symm, h.waiting _ _ hf⟩
    | timeOut => cases hst

end Server

end ManagementSensors
