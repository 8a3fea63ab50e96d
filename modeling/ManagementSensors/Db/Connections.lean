import ManagementSensors.Machinery.Run

/-!
# Db/Connections — which connection an operation of `DatabaseManager` runs on

`connect` makes the two connections one after the other, and either constructor may throw;
`disconnect` closes them, and keeps the objects.  Every operation but two looks at its pointer before
it follows it.  `upsert_sensor_config` does not, and neither does the thread of `run_listener_loop`,
which besides stays inside one object while a second `connect` replaces it.

So nothing missing is used where these two come after a `connect` that has made their connection, and
no `connect` comes while the thread waits (`safe_of_prepared`); and every operation that does not keep
to this is followed by the use of a connection that is not there (`exists_unsafe`).
-/

open Machinery

namespace ManagementSensors.Connections

/-! ## The manager -/

/-- A `pqxx::connection`; the objects are numbered as they are made. -/
structure Connection where
  id : ℕ
  isOpen : Bool
  deriving DecidableEq, Repr

/-- The thread of `run_listener_loop`: before a `connection_listener_->wait_notification()`, inside
that of an object, or at its end. -/
inductive Listening
  | before
  | waiting (id : ℕ)
  | ended
  deriving DecidableEq, Repr

/-- A `DatabaseManager`: its pointers, its thread, the number of connections made so far, and whether
its destructor has run. -/
structure Manager where
  listener : Option Connection := none
  queries : Option Connection := none
  thread : Option Listening := none
  made : ℕ := 0
  gone : Bool := false
  deriving DecidableEq, Repr

/-- How far `connect` gets with its constructors, and `disconnect` with closing. -/
inductive Reach
  | neither
  | listener
  | both
  deriving DecidableEq, Repr

/-- The public calls.  The destructor is `disconnect`, `join` and `destroy`. -/
inductive Call
  | connect (reach : Reach)
  | disconnect (reach : Reach)
  | upsertSensorState
  | upsertSensorConfig
  | addPendingConfig
  | initRequestIdSequence
  | generateRequestId
  | getSanityInfo
  | registerListenAsync
  | runListenerLoop
  | join
  | destroy
  deriving DecidableEq, Repr

/-- What happens to a manager: a call, the loss of a connection, or a step of its thread, which starts
to wait, or wakes up with a notification or with an exception. -/
inductive Input
  | call (c : Call)
  | lost (reach : Reach)
  | wait
  | wake (broken : Bool)
  deriving DecidableEq, Repr

/-- The value of a `std::unique_ptr`; `none` is null. -/
def pointer (c : Option Connection) : Option ℕ := c.map Connection.id

/-- What `if (!c || !c->is_open())` follows, and the operation behind it. -/
def guarded : Option Connection → List (Option ℕ)
  | none => []
  | some c => some c.id :: if c.isOpen then [some c.id] else []

namespace Manager

/-- The objects there are: those that a pointer owns. -/
def existing (m : Manager) : List ℕ := (pointer m.listener).toList ++ (pointer m.queries).toList

/-- The two connections, closed as far as `reach`. -/
def close (reach : Reach) (m : Manager) : Manager :=
  let closed := Option.map fun c : Connection => { c with isOpen := false }
  match reach with
  | .neither => m
  | .listener => { m with listener := closed m.listener }
  | .both => { m with listener := closed m.listener, queries := closed m.queries }

/-- `connect`: the pointers it has set. -/
def connect (reach : Reach) (m : Manager) : Manager :=
  match reach with
  | .neither => m
  | .listener => { m with listener := some ⟨m.made, true⟩, made := m.made + 1 }
  | .both =>
    { m with listener := some ⟨m.made, true⟩, queries := some ⟨m.made + 1, true⟩, made := m.made + 2 }

/-- `connect`: what it follows at its end, if it comes there. -/
def connectPointers (reach : Reach) (m : Manager) : List (Option ℕ) :=
  if reach = .both then [pointer m.listener, pointer m.queries] else []

/-- `disconnect`: where closing the first connection throws, the second is not looked at. -/
def disconnectPointers (reach : Reach) (m : Manager) : List (Option ℕ) :=
  if reach = .neither then guarded m.listener else guarded m.listener ++ guarded m.queries

/-- `upsert_sensor_state`. -/
def upsertSensorState (m : Manager) : List (Option ℕ) := guarded m.queries

/-- `upsert_sensor_config`: no look before. -/
def upsertSensorConfig (m : Manager) : List (Option ℕ) := [pointer m.queries]

/-- `add_pending_config`. -/
def addPendingConfig (m : Manager) : List (Option ℕ) := guarded m.queries

/-- `init_request_id_sequence`. -/
def initRequestIdSequence (m : Manager) : List (Option ℕ) := guarded m.queries

/-- `generate_request_id`. -/
def generateRequestId (m : Manager) : List (Option ℕ) := guarded m.queries

/-- `get_sanity_info`. -/
def getSanityInfo (m : Manager) : List (Option ℕ) := guarded m.queries

/-- `register_listen_async`. -/
def registerListenAsync (m : Manager) : List (Option ℕ) := guarded m.listener

/-- `run_listener_loop`: there is one thread at most. -/
def runListenerLoop (m : Manager) : Manager :=
  if m.thread = none then { m with thread := some .before } else m

/-- The thread is not there, or has ended. -/
def Idle (m : Manager) : Prop := m.thread = none ∨ m.thread = some .ended

instance (m : Manager) : Decidable m.Idle := inferInstanceAs (Decidable (_ ∨ _))

/-- A call: the manager after it, and the pointers it follows. -/
def call (m : Manager) : Call → Option (Manager × List (Option ℕ))
  | .connect reach => some (m.connect reach, (m.connect reach).connectPointers reach)
  | .disconnect reach => some (m.close reach, m.disconnectPointers reach)
  | .upsertSensorState => some (m, m.upsertSensorState)
  | .upsertSensorConfig => some (m, m.upsertSensorConfig)
  | .addPendingConfig => some (m, m.addPendingConfig)
  | .initRequestIdSequence => some (m, m.initRequestIdSequence)
  | .generateRequestId => some (m, m.generateRequestId)
  | .getSanityInfo => some (m, m.getSanityInfo)
  | .registerListenAsync => some (m, m.registerListenAsync)
  | .runListenerLoop => some (m.runListenerLoop, [])
  | .join => if m.Idle then some (m, []) else none
  | .destroy =>
    if m.Idle then some ({ m with listener := none, queries := none, gone := true }, []) else none

/-- Whatever happens. -/
def next (m : Manager) : Input → Option (Manager × List (Option ℕ))
  | .call c => m.call c
  | .lost reach => some (m.close reach, [])
  | .wait =>
    if m.thread = some .before then
      some ({ m with thread := some ((pointer m.listener).elim .ended .waiting) },
        [pointer m.listener])
    else none
  | .wake broken =>
    match m.thread with
    | some (.waiting id) =>
      some ({ m with thread := some (if broken then .ended else .before) }, [some id])
    | _ => none

end Manager

/-- **An access**: what has happened, the pointers that were followed, and the objects there were. -/
structure Access where
  input : Input
  pointers : List (Option ℕ)
  existing : List ℕ
  deriving DecidableEq, Repr

/-- **Nothing missing is used**: every pointer that was followed is that of an existing object. -/
def Access.Safe (a : Access) : Prop := ∀ p ∈ a.pointers, ∃ id ∈ a.existing, p = some id

/-- One step; after the destructor there is none. -/
def step (m : Manager) (i : Input) : Option (Manager × Option Access) :=
  if m.gone then none
  else (m.next i).map fun r => (r.1, some ⟨i, r.2, r.1.existing⟩)

/-- A manager, over everything that happens to it. -/
def machine : Machine Manager Input Access := ⟨step⟩

/-- **What has to come before**: the connection of an `upsert_sensor_config` or of the thread, and the
end of a wait before `connect` makes another listener. -/
def Manager.Prepared (m : Manager) : Input → Prop
  | .call .upsertSensorConfig => m.queries ≠ none
  | .call .runListenerLoop => m.thread = none → m.listener ≠ none
  | .call (.connect reach) => reach = .neither ∨ ∀ id, m.thread ≠ some (.waiting id)
  | _ => True

/-- Every step is prepared. -/
def Prepared : Guard Manager Input Access := fun _ m i => m.Prepared i

/-! ## One step -/

/-- **The invariant**: what the thread waits on, or is about to, is the listener; an object is made
once. -/
structure Manager.Wf (m : Manager) : Prop where
  waiting : ∀ id, m.thread = some (.waiting id) → pointer m.listener = some id
  before : m.thread = some .before → pointer m.listener ≠ none
  listener_lt : ∀ id, pointer m.listener = some id → id < m.made
  queries_lt : ∀ id, pointer m.queries = some id → id < m.made
  distinct : ∀ id, pointer m.listener = some id → pointer m.queries ≠ some id

variable {m t : Manager} {i : Input} {reach : Reach} {c : Option Connection} {ptrs : List (Option ℕ)}

theorem pointer_ne_none : pointer c ≠ none ↔ c ≠ none := by
  rw [pointer, Ne, Option.map_eq_none_iff]

theorem mem_existing_listener {id : ℕ} (h : pointer m.listener = some id) : id ∈ m.existing := by
  rw [Manager.existing, h]
  exact List.mem_append_left _ (List.mem_singleton.mpr rfl)

theorem mem_existing_queries {id : ℕ} (h : pointer m.queries = some id) : id ∈ m.existing := by
  rw [Manager.existing, h]
  exact List.mem_append_right _ (List.mem_singleton.mpr rfl)

theorem Manager.Wf.init : Manager.Wf {} where
  waiting _ h := by cases h
  before h := by cases h
  listener_lt _ h := by cases h
  queries_lt _ h := by cases h
  distinct _ h := by cases h

/-- The invariant sees the pointers, the thread and the number of objects. -/
theorem Manager.Wf.congr (h : m.Wf) (hlistener : pointer t.listener = pointer m.listener)
    (hqueries : pointer t.queries = pointer m.queries) (hthread : t.thread = m.thread)
    (hmade : t.made = m.made) : t.Wf where
  waiting id hid := hlistener ▸ h.waiting id (hthread ▸ hid)
  before hid := hlistener ▸ h.before (hthread ▸ hid)
  listener_lt id hid := hmade ▸ h.listener_lt id (hlistener ▸ hid)
  queries_lt id hid := hmade ▸ h.queries_lt id (hqueries ▸ hid)
  distinct id hid := hqueries ▸ h.distinct id (hlistener ▸ hid)

/-- Closing keeps the objects. -/
theorem pointer_closed (c : Option Connection) :
    pointer (c.map fun c => { c with isOpen := false }) = pointer c := by
  rw [pointer, Option.map_map]
  rfl

theorem Manager.pointers_close (m : Manager) (reach : Reach) :
    pointer (m.close reach).listener = pointer m.listener ∧
      pointer (m.close reach).queries = pointer m.queries ∧
      (m.close reach).thread = m.thread ∧ (m.close reach).made = m.made := by
  cases reach with
  | neither => exact ⟨rfl, rfl, rfl, rfl⟩
  | listener => exact ⟨pointer_closed _, rfl, rfl, rfl⟩
  | both => exact ⟨pointer_closed _, pointer_closed _, rfl, rfl⟩

theorem Manager.Wf.close (h : m.Wf) (reach : Reach) : (m.close reach).Wf := by
  obtain ⟨hlistener, hqueries, hthread, hmade⟩ := m.pointers_close reach
  exact h.congr hlistener hqueries hthread hmade

/-- A `connect` that no wait is in the way of. -/
theorem Manager.Wf.connect (h : m.Wf)
    (hp : reach = .neither ∨ ∀ id, m.thread ≠ some (.waiting id)) : (m.connect reach).Wf := by
  cases reach with
  | neither => exact h
  | listener =>
    have hidle := hp.resolve_left (by decide)
    refine ⟨fun id hid => absurd hid (hidle id), fun _ => by simp [Manager.connect, pointer],
      fun id hid => ?_, fun id hid => Nat.lt_succ_of_lt (h.queries_lt id hid), fun id hid hq => ?_⟩
    · obtain rfl : m.made = id := Option.some.inj hid
      exact Nat.lt_succ_self _
    · obtain rfl : m.made = id := Option.some.inj hid
      exact absurd (h.queries_lt _ hq) (Nat.lt_irrefl _)
  | both =>
    have hidle := hp.resolve_left (by decide)
    refine ⟨fun id hid => absurd hid (hidle id), fun _ => by simp [Manager.connect, pointer],
      fun id hid => ?_, fun id hid => ?_, fun id hid hq => ?_⟩
    · obtain rfl : m.made = id := Option.some.inj hid
      exact Nat.lt_add_of_pos_right (by decide)
    · obtain rfl : m.made + 1 = id := Option.some.inj hid
      exact Nat.lt_succ_self _
    · obtain rfl : m.made = id := Option.some.inj hid
      exact absurd (Option.some.inj hq) (Nat.succ_ne_self _)

theorem Manager.Wf.runListenerLoop (h : m.Wf) (hp : m.thread = none → m.listener ≠ none) :
    m.runListenerLoop.Wf := by
  rw [Manager.runListenerLoop]
  split
  case isFalse => exact h
  case isTrue hnone =>
    exact ⟨fun id hid => (by cases hid), fun _ => pointer_ne_none.mpr (hp hnone), h.listener_lt,
      h.queries_lt, h.distinct⟩

theorem mem_guarded {p : Option ℕ} (h : p ∈ guarded c) : ∃ id, p = some id ∧ pointer c = some id := by
  cases c with
  | none => cases h
  | some c =>
    refine ⟨c.id, ?_, rfl⟩
    rw [guarded, List.mem_cons] at h
    rcases h with h | h
    · exact h
    · split at h
      · exact List.mem_singleton.mp h
      · cases h

theorem safe_guarded_queries : ∀ p ∈ guarded m.queries, ∃ id ∈ m.existing, p = some id := by
  intro p hp
  obtain ⟨id, rfl, hid⟩ := mem_guarded hp
  exact ⟨id, mem_existing_queries hid, rfl⟩

theorem safe_guarded_listener : ∀ p ∈ guarded m.listener, ∃ id ∈ m.existing, p = some id := by
  intro p hp
  obtain ⟨id, rfl, hid⟩ := mem_guarded hp
  exact ⟨id, mem_existing_listener hid, rfl⟩

theorem safe_disconnect : ∀ p ∈ m.disconnectPointers reach, ∃ id ∈ m.existing, p = some id := by
  intro p hp
  rw [Manager.disconnectPointers] at hp
  split at hp
  · exact safe_guarded_listener p hp
  · rcases List.mem_append.mp hp with hp | hp
    · exact safe_guarded_listener p hp
    · exact safe_guarded_queries p hp

theorem existing_close : (m.close reach).existing = m.existing := by
  obtain ⟨hlistener, hqueries, -⟩ := m.pointers_close reach
  rw [Manager.existing, hlistener, hqueries, Manager.existing]

theorem safe_connect : ∀ p ∈ (m.connect reach).connectPointers reach,
    ∃ id ∈ (m.connect reach).existing, p = some id := by
  intro p hp
  cases reach with
  | neither => cases hp
  | listener => cases hp
  | both =>
    have hmem : p ∈ [some m.made, some (m.made + 1)] := hp
    rw [List.mem_cons, List.mem_singleton] at hmem
    rcases hmem with rfl | rfl
    · exact ⟨m.made, mem_existing_listener rfl, rfl⟩
    · exact ⟨m.made + 1, mem_existing_queries rfl, rfl⟩

/-- **All that can happen**: a manager, the input, the manager after it and the pointers followed. -/
inductive Happens (m : Manager) : Input → Manager → List (Option ℕ) → Prop
  | connect (reach : Reach) : Happens m (.call (.connect reach)) (m.connect reach)
      ((m.connect reach).connectPointers reach)
  | close {i : Input} (reach : Reach) {ptrs : List (Option ℕ)}
      (h : ∀ p ∈ ptrs, ∃ id ∈ m.existing, p = some id) : Happens m i (m.close reach) ptrs
  | upsertSensorConfig : Happens m (.call .upsertSensorConfig) m [pointer m.queries]
  | guarded {c : Call} {ptrs : List (Option ℕ)} (h : ∀ p ∈ ptrs, ∃ id ∈ m.existing, p = some id) :
      Happens m (.call c) m ptrs
  | runListenerLoop : Happens m (.call .runListenerLoop) m.runListenerLoop []
  | destroy (h : m.Idle) :
      Happens m (.call .destroy) { m with listener := none, queries := none, gone := true } []
  | wait (h : m.thread = some .before) : Happens m .wait
      { m with thread := some ((pointer m.listener).elim .ended .waiting) } [pointer m.listener]
  | wake {id : ℕ} (broken : Bool) (h : m.thread = some (.waiting id)) : Happens m (.wake broken)
      { m with thread := some (if broken then .ended else .before) } [some id]

theorem happens_of_next (h : m.next i = some (t, ptrs)) : Happens m i t ptrs := by
  cases i with
  | call c =>
    cases c with
    | connect reach =>
      cases h
      exact .connect reach
    | disconnect reach =>
      cases h
      exact .close reach safe_disconnect
    | upsertSensorConfig =>
      cases h
      exact .upsertSensorConfig
    | upsertSensorState | addPendingConfig | initRequestIdSequence | generateRequestId
    | getSanityInfo =>
      cases h
      exact .guarded safe_guarded_queries
    | registerListenAsync =>
      cases h
      exact .guarded safe_guarded_listener
    | runListenerLoop =>
      cases h
      exact .runListenerLoop
    | join =>
      obtain ⟨-, h⟩ := Option.ite_none_right_eq_some.mp h
      cases h
      exact .guarded (List.forall_mem_nil _)
    | destroy =>
      obtain ⟨hidle, h⟩ := Option.ite_none_right_eq_some.mp h
      cases h
      exact .destroy hidle
  | lost reach =>
    cases h
    exact .close reach (List.forall_mem_nil _)
  | wait =>
    obtain ⟨hbefore, h⟩ := Option.ite_none_right_eq_some.mp h
    cases h
    exact .wait hbefore
  | wake broken =>
    rw [Manager.next] at h
    split at h
    case h_2 => cases h
    case h_1 id hwaiting =>
      cases h
      exact .wake broken hwaiting

/-- **The step lemma.**  A prepared step keeps the invariant. -/
theorem Manager.Wf.next (h : m.Wf) (hp : m.Prepared i) (hnext : m.next i = some (t, ptrs)) :
    t.Wf := by
  cases happens_of_next hnext with
  | connect reach => exact h.connect hp
  | close reach => exact h.close reach
  | upsertSensorConfig | guarded => exact h
  | runListenerLoop => exact h.runListenerLoop hp
  | destroy hidle =>
    refine ⟨fun id hid => ?_, fun hid => ?_, fun _ hid => (by cases hid), fun _ hid => (by cases hid),
      fun _ hid => (by cases hid)⟩
    · rcases hidle with hidle | hidle <;> cases hidle.symm.trans hid
    · rcases hidle with hidle | hidle <;> cases hidle.symm.trans hid
  | wait hbefore =>
    refine ⟨fun id hid => ?_, fun _ => h.before hbefore, h.listener_lt, h.queries_lt, h.distinct⟩
    cases hptr : pointer m.listener with
    | none => simp [hptr] at hid
    | some id' => simpa [hptr] using hid
  | @wake id broken hwaiting =>
    refine ⟨fun id' hid => ?_, fun _ => ?_, h.listener_lt, h.queries_lt, h.distinct⟩
    · cases broken <;> cases hid
    · rw [h.waiting id hwaiting]
      exact Option.some_ne_none _

/-- **A prepared step uses nothing that is missing.** -/
theorem Manager.Wf.safe (h : m.Wf) (hp : m.Prepared i) (hnext : m.next i = some (t, ptrs)) :
    ∀ p ∈ ptrs, ∃ id ∈ t.existing, p = some id := by
  cases happens_of_next hnext with
  | connect reach => exact safe_connect
  | close reach hsafe => rwa [existing_close]
  | guarded hsafe => exact hsafe
  | runListenerLoop | destroy => exact List.forall_mem_nil _
  | upsertSensorConfig =>
    refine List.forall_mem_singleton.mpr ?_
    obtain ⟨id, hid⟩ := Option.ne_none_iff_exists'.mp (pointer_ne_none.mpr hp)
    exact ⟨id, mem_existing_queries hid, hid⟩
  | wait hbefore =>
    refine List.forall_mem_singleton.mpr ?_
    obtain ⟨id, hid⟩ := Option.ne_none_iff_exists'.mp (h.before hbefore)
    exact ⟨id, mem_existing_listener hid, hid⟩
  | @wake id broken hwaiting =>
    exact List.forall_mem_singleton.mpr ⟨id, mem_existing_listener (h.waiting id hwaiting), rfl⟩

/-- A connection that has been made stays until the destructor. -/
theorem ne_none_of_next (hnext : m.next i = some (t, ptrs)) (hgone : t.gone = false) :
    (m.listener ≠ none → t.listener ≠ none) ∧ (m.queries ≠ none → t.queries ≠ none) := by
  cases happens_of_next hnext with
  | connect reach =>
    cases reach with
    | neither => exact ⟨id, id⟩
    | listener => exact ⟨fun _ => Option.some_ne_none _, id⟩
    | both => exact ⟨fun _ => Option.some_ne_none _, fun _ => Option.some_ne_none _⟩
  | close reach =>
    obtain ⟨hlistener, hqueries, -⟩ := m.pointers_close reach
    rw [← pointer_ne_none, ← pointer_ne_none, ← pointer_ne_none, ← pointer_ne_none, hlistener,
      hqueries]
    exact ⟨id, id⟩
  | runListenerLoop =>
    rw [Manager.runListenerLoop]
    split <;> exact ⟨id, id⟩
  | destroy => cases hgone
  | upsertSensorConfig | guarded | wait | wake => exact ⟨id, id⟩

/-- There is no thread that nobody has called for. -/
theorem thread_eq_none_of_next (hnext : m.next i = some (t, ptrs)) (hthread : m.thread = none)
    (hi : ∀ c, i ≠ .call c) : t.thread = none := by
  cases happens_of_next hnext with
  | close reach => rw [(m.pointers_close reach).2.2.1, hthread]
  | wait hbefore => cases hthread.symm.trans hbefore
  | wake broken hwaiting => cases hthread.symm.trans hwaiting
  | connect | upsertSensorConfig | guarded | runListenerLoop | destroy => exact absurd rfl (hi _)

theorem step_eq {o : Option Access} (h : step m i = some (t, o)) :
    ∃ ptrs, m.gone = false ∧ m.next i = some (t, ptrs) ∧ o = some ⟨i, ptrs, t.existing⟩ := by
  rw [step] at h
  split at h
  case isTrue => cases h
  case isFalse hgone =>
    obtain ⟨⟨t', ptrs⟩, hnext, heq⟩ := Option.map_eq_some_iff.mp h
    cases heq
    exact ⟨ptrs, Bool.eq_false_iff.mpr hgone, hnext, rfl⟩

theorem step_of_next (hgone : m.gone = false) (hnext : m.next i = some (t, ptrs)) :
    machine.step m i = some (t, some ⟨i, ptrs, t.existing⟩) := by
  change step m i = _
  rw [step, hgone, if_neg Bool.false_ne_true, hnext, Option.map_some]

/-! ## Along a run -/

variable {τ : List Access}

theorem wf_of_prepared (h : machine.Run Prepared {} τ m) : m.Wf :=
  h.invariant (I := fun _ => Manager.Wf) .init fun _ m i t o hwf hp hstep => by
    obtain ⟨ptrs, -, hnext, -⟩ := step_eq hstep
    exact hwf.next hp hnext

/-- **A prepared run uses nothing that is missing.** -/
theorem safe_of_prepared (h : machine.Run Prepared {} τ m) : ∀ a ∈ τ, a.Safe := by
  refine always_const_iff.mp (h.always (I := fun _ => Manager.Wf) .init
    (fun _ m i t o hwf hp hstep => ?_) fun _ m i t a hwf hp hstep => ?_)
  · obtain ⟨ptrs, -, hnext, -⟩ := step_eq hstep
    exact hwf.next hp hnext
  · obtain ⟨ptrs, -, hnext, ha⟩ := step_eq hstep
    cases ha
    exact hwf.safe hp hnext

/-- A run of one step. -/
theorem run_one (hgone : m.gone = false) (hnext : m.next i = some (t, ptrs)) :
    machine.Run Guard.free m [⟨i, ptrs, t.existing⟩] t :=
  Machine.Run.nil.concat trivial (step_of_next hgone hnext)

/-- What follows the pointer to a connection that is not there. -/
theorem not_safe_of_null {a : Access} (hnone : c = none) (ha : a.pointers = [pointer c]) :
    ¬ a.Safe := fun hsafe => by
  have hmem : none ∈ a.pointers := by
    rw [ha, hnone]
    exact List.mem_singleton.mpr rfl
  obtain ⟨id, -, hid⟩ := hsafe none hmem
  cases hid

/-- An `upsert_sensor_config` without its connection follows a null pointer. -/
theorem unsafe_upsertSensorConfig (hgone : m.gone = false) (hnone : m.queries = none) :
    ∃ τ t, machine.Run Guard.free m τ t ∧ ∃ a ∈ τ, ¬ a.Safe := by
  exact ⟨_, m, run_one (i := .call .upsertSensorConfig) hgone rfl, _, List.mem_singleton.mpr rfl,
    not_safe_of_null hnone rfl⟩

/-- A thread that is started without its connection follows a null pointer, first of all. -/
theorem unsafe_runListenerLoop (hgone : m.gone = false) (hthread : m.thread = none)
    (hnone : m.listener = none) :
    ∃ τ t, machine.Run Guard.free m τ t ∧ ∃ a ∈ τ, ¬ a.Safe := by
  let m' : Manager := { m with thread := some .before }
  have hloop : m.next (.call .runListenerLoop) = some (m', []) := by
    change some (m.runListenerLoop, []) = _
    rw [Manager.runListenerLoop, if_pos hthread]
  have hwait : m'.next .wait = some
      ({ m' with thread := some ((pointer m'.listener).elim .ended .waiting) },
        [pointer m'.listener]) := by
    rw [Manager.next, if_pos rfl]
  exact ⟨_, _, (run_one hgone hloop).concat trivial (step_of_next hgone hwait), _,
    List.mem_append_right _ (List.mem_singleton.mpr rfl), not_safe_of_null (c := m.listener) hnone rfl⟩

/-- A thread that waits on a listener that is replaced wakes up in an object that is gone. -/
theorem unsafe_connect (hwf : m.Wf) (hgone : m.gone = false) {id : ℕ}
    (hwaiting : m.thread = some (.waiting id)) (hreach : reach ≠ .neither) :
    ∃ τ t, machine.Run Guard.free m τ t ∧ ∃ a ∈ τ, ¬ a.Safe := by
  have hlistener := hwf.waiting id hwaiting
  have hlt : id < m.made := hwf.listener_lt id hlistener
  have hqueries : pointer m.queries ≠ some id := hwf.distinct id hlistener
  obtain ⟨hthread, hgone'⟩ : (m.connect reach).thread = some (.waiting id) ∧
      (m.connect reach).gone = false := by
    cases reach <;> exact ⟨hwaiting, hgone⟩
  have hmissing : id ∉ (m.connect reach).existing := by
    cases reach with
    | neither => exact absurd rfl hreach
    | listener =>
      simp only [Manager.existing, Manager.connect, pointer, List.mem_append, Option.mem_toList,
        Option.map_some, not_or]
      exact ⟨fun h => by cases h; omega, hqueries⟩
    | both =>
      simp only [Manager.existing, Manager.connect, pointer, List.mem_append, Option.mem_toList,
        Option.map_some, not_or]
      exact ⟨fun h => by cases h; omega, fun h => by cases h; omega⟩
  have hconnect : m.next (.call (.connect reach)) =
      some (m.connect reach, (m.connect reach).connectPointers reach) := rfl
  have hwake : (m.connect reach).next (.wake false) =
      some ({ m.connect reach with thread := some .before }, [some id]) := by
    rw [Manager.next, hthread]
    rfl
  refine ⟨_, _, (run_one hgone hconnect).concat trivial (step_of_next hgone' hwake), _,
    List.mem_append_right _ (List.mem_singleton.mpr rfl), fun hsafe => ?_⟩
  obtain ⟨id', hmem, hid⟩ := hsafe (some id) (List.mem_singleton.mpr rfl)
  obtain rfl : id = id' := Option.some.inj hid
  exact hmissing hmem

/-- **What is not prepared ends badly**: it is, or is followed by, the use of a connection that is
not there. -/
theorem exists_unsafe (hwf : m.Wf) (hgone : m.gone = false) (hp : ¬ m.Prepared i) :
    ∃ τ t, machine.Run Guard.free m τ t ∧ ∃ a ∈ τ, ¬ a.Safe := by
  cases i with
  | call c =>
    cases c with
    | upsertSensorConfig => exact unsafe_upsertSensorConfig hgone (not_not.mp hp)
    | runListenerLoop =>
      obtain ⟨hthread, hnone⟩ := Classical.not_imp.mp hp
      exact unsafe_runListenerLoop hgone hthread (not_not.mp hnone)
    | connect reach =>
      obtain ⟨hreach, hwaiting⟩ := not_or.mp hp
      obtain ⟨id, hid⟩ := Classical.not_forall.mp hwaiting
      exact unsafe_connect hwf hgone (not_not.mp hid) hreach
    | disconnect | upsertSensorState | addPendingConfig | initRequestIdSequence | generateRequestId
    | getSanityInfo | registerListenAsync | join | destroy => exact absurd trivial hp
  | lost | wait | wake => exact absurd trivial hp

end ManagementSensors.Connections
