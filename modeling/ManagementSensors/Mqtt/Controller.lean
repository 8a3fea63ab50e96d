import ManagementSensors.Db.Connections
import ManagementSensors.Mqtt.ConsumeLoop

/-!
# Mqtt/Controller — the calls that the controller's `main` makes of its `DatabaseManager`

`main` catches what `connect` throws, and goes on to consume messages.  The first that asks for the
database then meets a manager without `connection_queries_`: a temperature is refused, and ends the
loop, a configuration event follows the null pointer (`controller_safe_iff`).
-/

open Machinery

namespace ManagementSensors.Connections

/-! ## `main` -/

/-- What the handler of a message asks of the manager. -/
inductive Asked
  | throws
  | nothing
  | upsertSensorState
  | upsertSensorConfig
  deriving DecidableEq, Repr

/-- `mqtt_dispatch_table`, up to the call of the manager. -/
def asked (m : Delivery) : Asked :=
  match m.payload.bind Json.asObject with
  | none => .throws
  | some obj =>
    if m.topic = "telemetry/state" then
      match readTelemetry obj with
      | none => .throws
      | some _ => .upsertSensorState
    else if m.topic = "config/events" then
      match readConfigEvent obj with
      | none => .throws
      | some none => .nothing
      | some (some _) => .upsertSensorConfig
    else .nothing

/-- The loop of `main`: its calls, up to the exception that leaves it.  A message comes with whether
its call throws; without `connection_queries_`, `upsert_sensor_state` always does. -/
def consume (reach : Reach) : List (Delivery × Bool) → List Call
  | [] => []
  | (m, throws) :: ms =>
    match asked m with
    | .throws => []
    | .nothing => consume reach ms
    | .upsertSensorState =>
      .upsertSensorState :: if reach ≠ .both ∨ throws then [] else consume reach ms
    | .upsertSensorConfig => .upsertSensorConfig :: if throws then [] else consume reach ms

/-- The calls of `main`, where its `connect` gets as far as `reach`, and the `disconnect` of the
destructor as far as `closed`. -/
def mainCalls (reach closed : Reach) (ms : List (Delivery × Bool)) : List Call :=
  .connect reach :: ((if reach = .both then [.registerListenAsync, .runListenerLoop] else []) ++
    consume reach ms ++ [.join, .disconnect closed, .destroy])

/-- What the first message comes to that is not passed over. -/
def firstAsked (ms : List (Delivery × Bool)) : Option Asked :=
  (ms.map fun p => asked p.1).find? fun a => a ≠ .nothing

/-- The call of an access. -/
def Access.call? (a : Access) : Option Call :=
  match a.input with
  | .call c => some c
  | _ => none

/-- The calls of a trace. -/
def callsOf (τ : List Access) : List Call := τ.filterMap Access.call?

/-! ## The loop -/

/-- **What is asked of the manager is what `handle` does with the database**: the upsert that is asked
for, with what the message says, or nothing, where the message throws or asks for nothing. -/
theorem handle_of_asked [DoubleText] {A : Type} (I : InetType A) (db : Db A) (m : Delivery) :
    match asked m with
    | .throws => handle I db m = (db, true)
    | .nothing => handle I db m = (db, false)
    | .upsertSensorState => ∃ obj s temp, m.payload.bind Json.asObject = some obj ∧
        readTelemetry obj = some (s, temp) ∧
        handle I db m =
          ((upsertSensorState m.link s temp db).db, (upsertSensorState m.link s temp db).threw)
    | .upsertSensorConfig => ∃ obj e, m.payload.bind Json.asObject = some obj ∧
        readConfigEvent obj = some (some e) ∧
        handle I db m =
          ((upsertSensorConfig I m.link e.sensorId e.hostname e.ip e.isActive e.requestId db).db,
            (upsertSensorConfig I m.link e.sensorId e.hostname e.ip e.isActive e.requestId db).threw) := by
  unfold asked handle
  cases m.payload.bind Json.asObject with
  | none => rfl
  | some obj =>
    by_cases htelemetry : m.topic = "telemetry/state"
    · rcases hread : readTelemetry obj with _ | ⟨s, temp⟩ <;> simp [htelemetry, hread]
    · by_cases hevent : m.topic = "config/events"
      · rcases hread : readConfigEvent obj with _ | _ | e <;> simp [hevent, hread]
      · simp [htelemetry, hevent]

variable {reach closed : Reach} {ms : List (Delivery × Bool)} {c : Call} {τ : List Access}
  {m t : Manager} {i : Input}

/-- The loop calls nothing but the two upserts. -/
theorem mem_consume (h : c ∈ consume reach ms) : c = .upsertSensorState ∨ c = .upsertSensorConfig := by
  induction ms with
  | nil => cases h
  | cons p ms ih =>
    obtain ⟨m, throws⟩ := p
    rw [consume] at h
    split at h
    · cases h
    · exact ih h
    · rcases List.mem_cons.mp h with rfl | h
      · exact Or.inl rfl
      · split at h
        · cases h
        · exact ih h
    · rcases List.mem_cons.mp h with rfl | h
      · exact Or.inr rfl
      · split at h
        · cases h
        · exact ih h

/-- A configuration event that comes first is the first call. -/
theorem consume_of_firstAsked (reach : Reach) (h : firstAsked ms = some .upsertSensorConfig) :
    ∃ calls, consume reach ms = .upsertSensorConfig :: calls := by
  induction ms with
  | nil => cases h
  | cons p ms ih =>
    obtain ⟨m, throws⟩ := p
    rw [firstAsked, List.map_cons, List.find?_cons] at h
    rw [consume]
    cases hm : asked m with
    | nothing => exact ih (by simpa [hm, firstAsked] using h)
    | upsertSensorConfig => exact ⟨_, rfl⟩
    | throws | upsertSensorState => simp [hm] at h

/-- Without the connection it is the only way to one. -/
theorem firstAsked_of_mem (hreach : reach ≠ .both) (h : .upsertSensorConfig ∈ consume reach ms) :
    firstAsked ms = some .upsertSensorConfig := by
  induction ms with
  | nil => cases h
  | cons p ms ih =>
    obtain ⟨m, throws⟩ := p
    rw [firstAsked, List.map_cons, List.find?_cons]
    rw [consume] at h
    cases hm : asked m with
    | nothing =>
      rw [hm] at h
      simpa [firstAsked] using ih h
    | upsertSensorConfig => rfl
    | throws =>
      rw [hm] at h
      cases h
    | upsertSensorState =>
      simp only [hm, if_pos (Or.inl hreach), List.mem_singleton] at h
      cases h

/-- What comes after `connect`. -/
theorem mem_tail_mainCalls (h : c ∈ (mainCalls reach closed ms).tail) :
    (∀ reach', c ≠ .connect reach') ∧ (c = .runListenerLoop → reach = .both) ∧
      (c = .upsertSensorConfig → .upsertSensorConfig ∈ consume reach ms) := by
  rw [mainCalls, List.tail_cons, List.append_assoc, List.mem_append, List.mem_append] at h
  rcases h with h | h | h
  · split at h
    case isFalse => cases h
    case isTrue hboth =>
      rw [List.mem_cons, List.mem_singleton] at h
      rcases h with rfl | rfl
      · simp
      · simp [hboth]
  · rcases mem_consume h with rfl | rfl
    · simp
    · simpa using h
  · simp only [List.mem_cons, List.not_mem_nil, or_false] at h
    rcases h with rfl | rfl | rfl <;> simp

/-! ## A run of `main` -/

/-- The state of a manager whose calls so far are those of `main`: before `connect` it is blank, and
behind one that has come to its end the two connections are there. -/
def OnTheWay (reach : Reach) (τ : List Access) (m : Manager) : Prop :=
  (callsOf τ = [] → m.thread = none) ∧
    (callsOf τ ≠ [] → reach = .both → m.gone = false → m.listener ≠ none ∧ m.queries ≠ none)

theorem callsOf_concat (τ : List Access) (a : Access) :
    callsOf (τ ++ [a]) = callsOf τ ++ a.call?.toList := by
  rw [callsOf, List.filterMap_append, callsOf]
  cases h : a.call? <;> simp [h]

/-- The next call of a prefix is among those after the first. -/
theorem mem_tail_of_concat {α : Type*} {l calls : List α} {c : α} (h : l ++ [c] <+: calls)
    (hne : l ≠ []) : c ∈ calls.tail := by
  obtain ⟨rest, rfl⟩ := h
  cases l with
  | nil => exact absurd rfl hne
  | cons first l => simp

variable {ptrs : List (Option ℕ)}

/-- **A step of `main` is prepared**, if no configuration event follows a `connect` that has thrown. -/
theorem OnTheWay.prepared (h : OnTheWay reach τ m) (hgone : m.gone = false)
    (hsafe : reach = .both ∨ .upsertSensorConfig ∉ consume reach ms)
    (hpre : callsOf (τ ++ [⟨i, ptrs, t.existing⟩]) <+: mainCalls reach closed ms) :
    m.Prepared i := by
  cases i with
  | lost | wait | wake => trivial
  | call c =>
    have hcalls : callsOf τ ++ [c] <+: mainCalls reach closed ms := by
      rwa [callsOf_concat] at hpre
    by_cases hnil : callsOf τ = []
    · rw [hnil] at hcalls
      obtain rfl : c = .connect reach := List.singleton_prefix_cons_iff.mp hcalls
      refine Or.inr fun id hid => ?_
      rw [h.1 hnil] at hid
      cases hid
    · obtain ⟨hconnect, hloop, hconfig⟩ := mem_tail_mainCalls (mem_tail_of_concat hcalls hnil)
      cases c with
      | connect reach' => exact absurd rfl (hconnect reach')
      | runListenerLoop => exact fun _ => (h.2 hnil (hloop rfl) hgone).1
      | upsertSensorConfig =>
        exact (h.2 hnil (hsafe.resolve_right (not_not.mpr (hconfig rfl))) hgone).2
      | disconnect | upsertSensorState | addPendingConfig | initRequestIdSequence
      | generateRequestId | getSanityInfo | registerListenAsync | join | destroy => trivial

/-- **A step of `main` leads on.** -/
theorem OnTheWay.next (h : OnTheWay reach τ m) (hgone : m.gone = false)
    (hnext : m.next i = some (t, ptrs))
    (hpre : callsOf (τ ++ [⟨i, ptrs, t.existing⟩]) <+: mainCalls reach closed ms) :
    OnTheWay reach (τ ++ [⟨i, ptrs, t.existing⟩]) t := by
  by_cases hi : ∃ c, i = .call c
  · obtain ⟨c, rfl⟩ := hi
    have hcons : callsOf (τ ++ [⟨.call c, ptrs, t.existing⟩]) = callsOf τ ++ [c] :=
      callsOf_concat _ _
    rw [hcons] at hpre
    refine ⟨fun hnil => ?_, fun _ hboth hgone' => ?_⟩
    · rw [hcons] at hnil
      exact absurd hnil (List.append_ne_nil_of_right_ne_nil _ (List.cons_ne_nil _ _))
    · by_cases hnil : callsOf τ = []
      · rw [hnil] at hpre
        obtain rfl : c = .connect reach := List.singleton_prefix_cons_iff.mp hpre
        subst hboth
        cases hnext
        exact ⟨Option.some_ne_none _, Option.some_ne_none _⟩
      · obtain ⟨hlistener, hqueries⟩ := ne_none_of_next hnext hgone'
        obtain ⟨hl, hq⟩ := h.2 hnil hboth hgone
        exact ⟨hlistener hl, hqueries hq⟩
  · have hi' : ∀ c, i ≠ .call c := fun c hc => hi ⟨c, hc⟩
    have hsame : callsOf (τ ++ [⟨i, ptrs, t.existing⟩]) = callsOf τ := by
      rw [callsOf_concat]
      cases i with
      | call c => exact absurd rfl (hi' c)
      | lost | wait | wake => exact List.append_nil _
    rw [OnTheWay, hsame]
    refine ⟨fun hnil => thread_eq_none_of_next hnext (h.1 hnil) hi', fun hne hboth hgone' => ?_⟩
    obtain ⟨hlistener, hqueries⟩ := ne_none_of_next hnext hgone'
    obtain ⟨hl, hq⟩ := h.2 hne hboth hgone
    exact ⟨hlistener hl, hqueries hq⟩

/-- A run of `main` is prepared. -/
theorem run_prepared (hsafe : reach = .both ∨ .upsertSensorConfig ∉ consume reach ms)
    (h : machine.Run Guard.free {} τ m) (hpre : callsOf τ <+: mainCalls reach closed ms) :
    machine.Run Prepared {} τ m ∧ OnTheWay reach τ m := by
  induction h with
  | nil => exact ⟨.nil, fun _ => rfl, fun hne => absurd rfl hne⟩
  | @snoc τ m t i o hrun _ hstep ih =>
    obtain ⟨ptrs, hgone, hnext, rfl⟩ := step_eq hstep
    have hbefore : callsOf τ <+: mainCalls reach closed ms := by
      refine List.IsPrefix.trans ?_ hpre
      rw [callsOf, callsOf, List.filterMap_append]
      exact List.prefix_append _ _
    obtain ⟨hprepared, hway⟩ := ih hbefore
    exact ⟨hprepared.snoc (hway.prepared hgone hsafe hpre) hstep,
      hway.next hgone hnext hpre⟩

/-- Where `connect` has thrown and a configuration event comes first, it follows a null pointer. -/
theorem exists_unsafe_main (closed : Reach) (hreach : reach ≠ .both)
    (h : firstAsked ms = some .upsertSensorConfig) :
    ∃ τ t, machine.Run Guard.free {} τ t ∧ callsOf τ <+: mainCalls reach closed ms ∧
      ∃ a ∈ τ, ¬ a.Safe := by
  obtain ⟨calls, hcalls⟩ := consume_of_firstAsked reach h
  let m : Manager := ({} : Manager).connect reach
  obtain ⟨hgone, hnone⟩ : m.gone = false ∧ m.queries = none := by
    cases reach with
    | neither | listener => exact ⟨rfl, rfl⟩
    | both => exact absurd rfl hreach
  have hconnect : ({} : Manager).next (.call (.connect reach)) = some (m, m.connectPointers reach) :=
    rfl
  have hupsert : m.next (.call .upsertSensorConfig) = some (m, [pointer m.queries]) := rfl
  refine ⟨_, m, (run_one rfl hconnect).concat trivial (step_of_next hgone hupsert), ?_, _,
    List.mem_append_right _ (List.mem_singleton.mpr rfl), not_safe_of_null hnone rfl⟩
  rw [mainCalls, hcalls, if_neg hreach]
  exact ⟨_, rfl⟩

/-- **When the controller uses nothing that is missing.** -/
theorem controller_safe_iff : (∀ τ m, machine.Run Guard.free {} τ m →
      callsOf τ <+: mainCalls reach closed ms → ∀ a ∈ τ, a.Safe) ↔
    reach = .both ∨ firstAsked ms ≠ some .upsertSensorConfig := by
  refine ⟨fun hall => ?_, fun hfirst τ m hrun hpre => ?_⟩
  case refine_2 =>
    have hsafe : reach = .both ∨ .upsertSensorConfig ∉ consume reach ms :=
      or_iff_not_imp_left.mpr fun hreach hmem =>
        hfirst.resolve_left hreach (firstAsked_of_mem hreach hmem)
    exact safe_of_prepared (run_prepared hsafe hrun hpre).1
  by_contra hnot
  obtain ⟨hreach, hmem⟩ := not_or.mp hnot
  obtain ⟨τ, t, hrun, hpre, a, ha, hunsafe⟩ :=
    exists_unsafe_main closed hreach (not_not.mp hmem)
  exact hunsafe (hall τ t hrun hpre a ha)

/-- **When no operation uses a missing connection.**  A run whose steps are prepared does not; a step
that is not prepared is, or is followed by, one that does; and the controller's runs do not exactly
where its `connect` has made both connections, or the first message that is not passed over is no
configuration event. -/
theorem connections_present_iff (reach closed : Reach) (ms : List (Delivery × Bool)) :
    (∀ τ m, machine.Run Prepared {} τ m → ∀ a ∈ τ, a.Safe) ∧
    (∀ τ m i, machine.Run Prepared {} τ m → m.gone = false → ¬ m.Prepared i →
      ∃ τ' t, machine.Run Guard.free {} (τ ++ τ') t ∧ ∃ a ∈ τ', ¬ a.Safe) ∧
    ((∀ τ m, machine.Run Guard.free {} τ m →
        callsOf τ <+: mainCalls reach closed ms → ∀ a ∈ τ, a.Safe) ↔
      reach = .both ∨ firstAsked ms ≠ some .upsertSensorConfig) := by
  refine ⟨fun τ m => safe_of_prepared, fun τ m i hrun hgone hi => ?_, controller_safe_iff⟩
  obtain ⟨τ', t, hrun', hunsafe⟩ := exists_unsafe (wf_of_prepared hrun) hgone hi
  exact ⟨τ', t, hrun.free.trans hrun', hunsafe⟩

/-- The event that sets sensor 3, to a controller whose `connect` has thrown at once. -/
theorem not_connections_present : ¬ ∀ τ m, machine.Run Guard.free {} τ m →
    callsOf τ <+: mainCalls .neither .both [(eventDelivery addrInet 3 .one 5, false)] →
      ∀ a ∈ τ, a.Safe := by
  intro hall
  have hfirst : firstAsked [(eventDelivery addrInet 3 .one 5, false)] = some .upsertSensorConfig := by
    decide +kernel
  have hreach : Reach.neither ≠ .both := by decide
  obtain ⟨τ, t, hrun, hpre, a, ha, hunsafe⟩ := exists_unsafe_main .both hreach hfirst
  exact hunsafe (hall τ t hrun hpre a ha)

end ManagementSensors.Connections
