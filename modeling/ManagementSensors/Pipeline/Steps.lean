import ManagementSensors.Pipeline.Model

/-!
# Pipeline/Steps — what one step of the system can do

`step_cases` says it once, with the guard and the effect of every step; results about the system
are by cases on it, and do not unfold `step`.
-/

open Machinery Function

namespace ManagementSensors.Pipeline

variable {π κ ι A : Type} [DecidableEq π] [DecidableEq κ] [DecidableEq ι]

/-! ## What one step can do -/

/-- The steps of a handler that is about to wait, or waits. -/
inductive Calls : Input π κ ι → π → Server.Input κ → Prop
  | lock {p : π} {c : κ} : Calls (.lock p c) p (.lock c)
  | expire {p : π} {c : κ} : Calls (.expire p c) p (.expire c)
  | wake {p : π} {c : κ} : Calls (.wake p c) p (.wake c)

/-- The controller, with its main thread at another point. -/
def setMain (s : Pipeline π κ ι A) (k : Controller) (main : MainThread) : Pipeline π κ ι A :=
  { s with controller := some { k with main := main } }

/-- **Every step of the system**, with its guard and its effect. -/
inductive StepCases (I : InetType A) (s : Pipeline π κ ι A) :
    Input π κ ι → Pipeline π κ ι A → Option (Event π A) → Prop
  | startServer {p : π} (hp : s.servers p = none) :
      StepCases I s (.startServer p) (s.setServer p (some .starting)) none
  | readMaximum {p : π} (hp : s.servers p = some .starting) :
      StepCases I s (.readMaximum p) (s.setServer p (some (.seeding s.db.maxRequestId))) none
  | seeded {p : π} {v : ℤ} {db : Db A} (hp : s.servers p = some (.seeding v))
      (hdb : s.db.setval v = some db) :
      StepCases I s (.setSequence p) ({ s with db := db }.setServer p (some .seeded))
        (some (.seeded v))
  | notSeeded {p : π} {v : ℤ} (hp : s.servers p = some (.seeding v)) (hdb : s.db.setval v = none) :
      StepCases I s (.setSequence p) (s.setServer p none) none
  | listen {p : π} {ok : Bool} (hp : s.servers p = some .seeded) :
      StepCases I s (.listen p ok)
        (s.setServer p (some (.serving {} (if ok then some [] else none)))) none
  | listenerEnds {p : π} {srv : Server κ} {inbox : Option (List Message)}
      (hp : s.servers p = some (.serving srv inbox)) :
      StepCases I s (.listenerEnds p) (s.setServer p (some (.serving srv none))) none
  | stopServer {p : π} : StepCases I s (.stopServer p) (s.setServer p none) none
  | request {p : π} {c : κ} {q : ConfigRequest} {srv : Server κ} {inbox : Option (List Message)}
      {x : Server κ × Option (Server.Event κ)} (hp : s.servers p = some (.serving srv inbox))
      (hx : (Server.machine κ).step srv (.request c q) = some x) :
      StepCases I s (.request p c q) (s.setServer p (some (.serving x.1 inbox))) none
  | generate {p : π} {c : κ} {link : Link} {srv : Server κ} {inbox : Option (List Message)}
      {x : Server κ × Option (Server.Event κ)} (hp : s.servers p = some (.serving srv inbox))
      (hx : (Server.machine κ).step srv (.generated c (generateRequestId link s.db).result) = some x) :
      StepCases I s (.generate p c link)
        { s.setServer p (some (.serving x.1 inbox)) with db := (generateRequestId link s.db).db }
        (match (generateRequestId link s.db).result with
          | .ok r => some (.generated p r)
          | .error _ => none)
  | add {p : π} {c : κ} {link : Link} {srv : Server κ} {inbox : Option (List Message)}
      {q : ConfigRequest} {r : RequestId} {o : Outcome A (PendingRow A) Unit}
      {x : Server κ × Option (Server.Event κ)} (hp : s.servers p = some (.serving srv inbox))
      (hc : srv.handlers c = some (.adding q r))
      (ho : o = addPendingConfig I link q.sensorId (sensorHostname q.sensorId) q.ip true r s.db)
      (hx : (Server.machine κ).step srv (.added c o.result o.written.isSome) = some x) :
      StepCases I s (.add p c link)
        (match o.written with
          | some row => { s.setServer p (some (.serving x.1 inbox)) with db := o.db }.notifyRequest I row
          | none => { s.setServer p (some (.serving x.1 inbox)) with db := o.db })
        (o.written.map .requested)
  | call {i : Input π κ ι} {p : π} {i' : Server.Input κ} {srv : Server κ}
      {inbox : Option (List Message)} {x : Server κ × Option (Server.Event κ)} (hi : Calls i p i')
      (hp : s.servers p = some (.serving srv inbox))
      (hx : (Server.machine κ).step srv i' = some x) :
      StepCases I s i (s.setServer p (some (.serving x.1 inbox))) (s.answer p x.2)
  | notified {p : π} {n : ℕ} {again : Bool} {srv : Server κ} {inbox inbox' : List Message}
      {m : Message} {x : Server κ × Option (Server.Event κ)}
      (hp : s.servers p = some (.serving srv (some inbox)))
      (hm : pick inbox n again = some (m, inbox'))
      (hx : (Server.machine κ).step srv (.notified m) = some x) :
      StepCases I s (.notified p n again) (s.setServer p (some (.serving x.1
        (if (onDbConfigEventReceived m).isSome then some inbox' else none)))) none
  | startController {listening : Bool} (hk : s.controller = none) :
      StepCases I s (.startController listening)
        { s with controller := some { inbox := if listening then some [] else none } } none
  | connectController {k : Controller} (hk : s.controller = some k) (hmain : k.main = .connecting) :
      StepCases I s .connectController { s with
        controller := some { k with connected := true, main := .consuming [] }
        session := some (s.session.getD []) } none
  | disconnectController {k : Controller} (hk : s.controller = some k) :
      StepCases I s .disconnectController
        { s with controller := some { k with connected := false, outbox := [] } } none
  | controllerListenerEnds {k : Controller} (hk : s.controller = some k) :
      StepCases I s .controllerListenerEnds { s with controller := some { k with inbox := none } } none
  | loopEnds {k : Controller} {q : List Message} (hk : s.controller = some k)
      (hmain : k.main = .consuming q) : StepCases I s .loopEnds (s.setMain k .joining) none
  | stopController : StepCases I s .stopController { s with controller := none } none
  | forwardEnds {k : Controller} {n : ℕ} {again published : Bool} {inbox inbox' : List Message}
      {m : Message} (hk : s.controller = some k) (hin : k.inbox = some inbox)
      (hm : pick inbox n again = some (m, inbox')) (hev : onDbEventReceived k.connected m = none) :
      StepCases I s (.forward n again published)
        { s with controller := some { k with inbox := none } } none
  | forward {k : Controller} {n : ℕ} {again published : Bool} {inbox inbox' : List Message}
      {m : Message} {m' : Option Message} (hk : s.controller = some k) (hin : k.inbox = some inbox)
      (hm : pick inbox n again = some (m, inbox'))
      (hev : onDbEventReceived k.connected m = some m') :
      StepCases I s (.forward n again published) { s with controller := some { k with
        inbox := some inbox'
        outbox := k.outbox ++ if published then m'.toList else [] } } none
  | consumeEnds {k : Controller} {n : ℕ} {link : Link} {q : List Message} {m : Message}
      (hk : s.controller = some k) (hm : pick k.received n false = some (m, q))
      (hev : readConfigEvent m = none) : StepCases I s (.consume n link) (s.setMain k .joining) none
  | consumeOther {k : Controller} {n : ℕ} {link : Link} {q : List Message} {m : Message}
      (hk : s.controller = some k) (hm : pick k.received n false = some (m, q))
      (hev : readConfigEvent m = some none) :
      StepCases I s (.consume n link) (s.setMain k (.consuming q)) none
  | consume {k : Controller} {n : ℕ} {link : Link} {q : List Message} {m : Message} {e : ConfigEvent}
      {main : MainThread} {o : Outcome A (ConfigRow A) Unit} (hk : s.controller = some k)
      (hm : pick k.received n false = some (m, q)) (hev : readConfigEvent m = some (some e))
      (ho : o = upsertSensorConfig I link e.sensorId e.hostname e.ip e.isActive e.requestId s.db)
      (hmain : main = match o.result with
        | .ok () => .consuming q
        | .error _ => .joining) :
      StepCases I s (.consume n link)
        (match o.written with
          | some row =>
            { s.setMain k main with db := o.db }.notifyChange I (triggerOp s.db row.sensorId) row
          | none => { s.setMain k main with db := o.db })
        (o.written.map .upserted)
  | brokerRequested {k : Controller} {n : ℕ} {again : Bool} {m : Message} {q : List Message}
      (hk : s.controller = some k) (hm : pick k.outbox n again = some (m, q)) :
      StepCases I s (.brokerRequested n again) { s with
        controller := some { k with outbox := q }
        sensors := fun i => (s.sensors i).map (·.receive m) } none
  | brokerEvents {k : ι} {x : Sensor} {n : ℕ} {again : Bool} {m : Message} {q : List Message}
      (hx : s.sensors k = some x) (hm : pick x.outbox n again = some (m, q)) :
      StepCases I s (.brokerEvents k n again) { s with
        session := s.session.map (· ++ [m])
        sensors := update s.sensors k (some { x with outbox := q }) } none
  | brokerDelivers {k : Controller} {n : ℕ} {again : Bool} {m : Message} {session q : List Message}
      (hk : s.controller = some k) (hs : s.session = some session)
      (hm : pick session n again = some (m, q)) (hcon : k.connected = true) :
      StepCases I s (.brokerDelivers n again)
        { s with session := some q, controller := some (k.receive m) } none
  | startSensor {k : ι} (hx : s.sensors k = none) :
      StepCases I s (.startSensor k) { s with sensors := update s.sensors k (some {}) } none
  | stopSensor {k : ι} :
      StepCases I s (.stopSensor k) { s with sensors := update s.sensors k none } none
  | echo {k : ι} {x : Sensor} {n : ℕ} {again published : Bool} {m : Message} {q : List Message}
      (hx : s.sensors k = some x) (hm : pick x.inbox n again = some (m, q)) :
      StepCases I s (.echo k n again published) { s with
        sensors := update s.sensors k (some { x with
          inbox := q
          outbox := x.outbox ++ if published then [ManagementSensors.echo m] else [] }) } none

variable {I : InetType A} {s t : Pipeline π κ ι A} {o : Option (Event π A)} {p : π} {c : κ}

omit [DecidableEq ι] in
theorem serve_eq {i : Server.Input κ} {y : Pipeline π κ ι A × Option (Server.Event κ)}
    (h : s.serve p i = some y) : ∃ srv inbox x, s.servers p = some (.serving srv inbox) ∧
      (Server.machine κ).step srv i = some x ∧
      y = (s.setServer p (some (.serving x.1 inbox)), x.2) := by
  rw [serve] at h
  split at h
  case h_1 srv inbox hp =>
    obtain ⟨x, hx, rfl⟩ := Option.map_eq_some_iff.mp h
    exact ⟨srv, inbox, x, hp, hx, rfl⟩
  case h_2 => cases h

omit [DecidableEq π] [DecidableEq κ] [DecidableEq ι] in
theorem handler_eq {ph : Phase} (h : s.handler p c = some ph) :
    ∃ srv inbox, s.servers p = some (.serving srv inbox) ∧ srv.handlers c = some ph := by
  rw [handler] at h
  split at h
  case h_1 srv inbox hp => exact ⟨srv, inbox, hp, h⟩
  case h_2 => cases h

theorem call_cases {i : Input π κ ι} {i' : Server.Input κ} (hi : Calls i p i')
    (h : ((s.serve p i').map fun x => (x.1, s.answer p x.2)) = some (t, o)) :
    StepCases I s i t o := by
  obtain ⟨y, hy, he⟩ := Option.map_eq_some_iff.mp h
  obtain ⟨srv, inbox, x, hp, hx, rfl⟩ := serve_eq hy
  cases he
  exact .call hi hp hx

theorem setSequence_cases (h : s.setSequence p = some (t, o)) :
    StepCases I s (.setSequence p) t o := by
  rw [setSequence] at h
  split at h
  case h_1 v hp =>
    split at h
    case h_1 db hdb =>
      cases h
      exact .seeded hp hdb
    case h_2 hdb =>
      cases h
      exact .notSeeded hp hdb
  case h_2 => cases h

theorem generate_cases {link : Link} (h : s.generate p c link = some (t, o)) :
    StepCases I s (.generate p c link) t o := by
  obtain ⟨y, hy, he⟩ := Option.map_eq_some_iff.mp h
  obtain ⟨srv, inbox, x, hp, hx, rfl⟩ := serve_eq hy
  cases he
  exact .generate hp hx

theorem add_cases {link : Link} (h : s.add I p c link = some (t, o)) :
    StepCases I s (.add p c link) t o := by
  rw [add] at h
  split at h
  case h_1 q r hc =>
    obtain ⟨y, hy, he⟩ := Option.map_eq_some_iff.mp h
    obtain ⟨srv, inbox, x, hp, hx, rfl⟩ := serve_eq hy
    have hc' : srv.handlers c = some (.adding q r) := by simpa [handler, hp] using hc
    have hcase : StepCases I s (.add p c link) _ _ := .add hp hc' rfl hx
    generalize addPendingConfig I link q.sensorId (sensorHostname q.sensorId) q.ip true r s.db = out
      at he hcase
    cases hw : out.written <;> simp only [hw] at he hcase <;> cases he <;> exact hcase
  case h_2 => cases h

theorem notified_cases {n : ℕ} {again : Bool} (h : s.notified p n again = some (t, o)) :
    StepCases I s (.notified p n again) t o := by
  rw [notified] at h
  split at h
  case h_1 srv inbox hp =>
    simp only [Option.bind_eq_bind, Option.bind_eq_some_iff, Option.pure_def, Option.some.injEq,
      Prod.mk.injEq] at h
    obtain ⟨⟨m, inbox'⟩, hm, x, hx, rfl, rfl⟩ := h
    exact .notified hp hm hx
  case h_2 => cases h

theorem forward_cases {n : ℕ} {again published : Bool}
    (h : s.forward n again published = some (t, o)) :
    StepCases I s (.forward n again published) t o := by
  simp only [forward, Option.bind_eq_bind, Option.bind_eq_some_iff] at h
  obtain ⟨k, hk, inbox, hin, ⟨m, inbox'⟩, hm, h⟩ := h
  split at h
  case h_1 hev =>
    cases h
    exact .forwardEnds hk hin hm hev
  case h_2 m' hev =>
    cases h
    exact .forward hk hin hm hev

theorem consume_cases {n : ℕ} {link : Link} (h : s.consume I n link = some (t, o)) :
    StepCases I s (.consume n link) t o := by
  simp only [consume, Option.bind_eq_bind, Option.bind_eq_some_iff] at h
  obtain ⟨k, hk, ⟨m, q⟩, hm, h⟩ := h
  split at h
  case h_1 hev =>
    cases h
    exact .consumeEnds hk hm hev
  case h_2 hev =>
    cases h
    exact .consumeOther hk hm hev
  case h_3 e hev =>
    have hcase : StepCases I s (.consume n link) _ _ := .consume hk hm hev rfl rfl
    generalize upsertSensorConfig I link e.sensorId e.hostname e.ip e.isActive e.requestId s.db = out
      at h hcase
    cases hw : out.written <;> simp only [hw] at h hcase <;> cases h <;> exact hcase

theorem brokerDelivers_cases {n : ℕ} {again : Bool} (h : s.brokerDelivers n again = some (t, o)) :
    StepCases I s (.brokerDelivers n again) t o := by
  simp only [brokerDelivers, Option.bind_eq_bind, Option.bind_eq_some_iff] at h
  obtain ⟨k, hk, session, hs, ⟨m, q⟩, hm, h⟩ := h
  split at h
  case isTrue hcon =>
    cases h
    exact .brokerDelivers hk hs hm hcon
  case isFalse => cases h

theorem step_cases {i : Input π κ ι} (h : (machine π κ ι I).step s i = some (t, o)) :
    StepCases I s i t o := by
  change step I s i = some (t, o) at h
  cases i with
  | startServer p =>
    simp only [step] at h
    split at h
    case h_1 hp =>
      cases h
      exact .startServer hp
    case h_2 => cases h
  | readMaximum p =>
    simp only [step] at h
    split at h
    case h_1 hp =>
      cases h
      exact .readMaximum hp
    case h_2 => cases h
  | setSequence p => exact setSequence_cases h
  | listen p ok =>
    simp only [step] at h
    split at h
    case h_1 hp =>
      cases h
      exact .listen hp
    case h_2 => cases h
  | listenerEnds p =>
    simp only [step] at h
    split at h
    case h_1 hp =>
      cases h
      exact .listenerEnds hp
    case h_2 => cases h
  | stopServer p =>
    cases h
    exact .stopServer
  | request p c q =>
    obtain ⟨y, hy, he⟩ := Option.map_eq_some_iff.mp h
    obtain ⟨srv, inbox, x, hp, hx, rfl⟩ := serve_eq hy
    cases he
    exact .request hp hx
  | generate p c link => exact generate_cases h
  | add p c link => exact add_cases h
  | lock p c => exact call_cases .lock h
  | expire p c => exact call_cases .expire h
  | wake p c => exact call_cases .wake h
  | notified p n again => exact notified_cases h
  | startController listening =>
    simp only [step] at h
    split at h
    case h_1 hk =>
      cases h
      exact .startController hk
    case h_2 => cases h
  | connectController =>
    simp only [step, Option.bind_eq_bind, Option.bind_eq_some_iff] at h
    obtain ⟨k, hk, h⟩ := h
    split at h
    case h_1 hmain =>
      cases h
      exact .connectController hk hmain
    case h_2 => cases h
  | disconnectController =>
    obtain ⟨k, hk, he⟩ := Option.map_eq_some_iff.mp h
    cases he
    exact .disconnectController hk
  | controllerListenerEnds =>
    obtain ⟨k, hk, he⟩ := Option.map_eq_some_iff.mp h
    cases he
    exact .controllerListenerEnds hk
  | loopEnds =>
    simp only [step, Option.bind_eq_bind, Option.bind_eq_some_iff] at h
    obtain ⟨k, hk, h⟩ := h
    split at h
    case h_1 q hmain =>
      cases h
      exact .loopEnds hk hmain
    case h_2 => cases h
  | stopController =>
    cases h
    exact .stopController
  | forward n again published => exact forward_cases h
  | consume n link => exact consume_cases h
  | brokerRequested n again =>
    simp only [step, brokerRequested, Option.bind_eq_bind, Option.bind_eq_some_iff] at h
    obtain ⟨k, hk, ⟨m, q⟩, hm, h⟩ := h
    cases h
    exact .brokerRequested hk hm
  | brokerEvents k n again =>
    simp only [step, brokerEvents, Option.bind_eq_bind, Option.bind_eq_some_iff] at h
    obtain ⟨x, hx, ⟨m, q⟩, hm, h⟩ := h
    cases h
    exact .brokerEvents hx hm
  | brokerDelivers n again => exact brokerDelivers_cases h
  | startSensor k =>
    simp only [step] at h
    split at h
    case h_1 hx =>
      cases h
      exact .startSensor hx
    case h_2 => cases h
  | stopSensor k =>
    cases h
    exact .stopSensor
  | echo k n again published =>
    simp only [step, echo, Option.bind_eq_bind, Option.bind_eq_some_iff] at h
    obtain ⟨x, hx, ⟨m, q⟩, hm, h⟩ := h
    cases h
    exact .echo hx hm

/-! ## What one step does to the database -/

/-- **Every step, as the database sees it**: it is left alone, or it is one of the four transactions. -/
inductive DbCases (I : InetType A) (s : Pipeline π κ ι A) :
    Input π κ ι → Db A → Option (Event π A) → Prop
  | quiet {i : Input π κ ι} {o : Option (Event π A)}
      (hi : ∀ p c link, i ≠ .add p c link) (ho : ∀ e ∈ o, ∃ p q r st, e = .answered p q r st) :
      DbCases I s i s.db o
  | seeded {p : π} {v : ℤ} {db : Db A} (hp : s.servers p = some (.seeding v))
      (hdb : s.db.setval v = some db) : DbCases I s (.setSequence p) db (some (.seeded v))
  | generate {p : π} {c : κ} {link : Link} :
      DbCases I s (.generate p c link) (generateRequestId link s.db).db
        (match (generateRequestId link s.db).result with
          | .ok r => some (.generated p r)
          | .error _ => none)
  | add {p : π} {c : κ} {link : Link} {q : ConfigRequest} {r : RequestId}
      {out : Outcome A (PendingRow A) Unit} (hc : s.handler p c = some (.adding q r))
      (hout : out = addPendingConfig I link q.sensorId (sensorHostname q.sensorId) q.ip true r s.db) :
      DbCases I s (.add p c link) out.db (out.written.map .requested)
  | consume {k : Controller} {n : ℕ} {link : Link} {q : List Message} {m : Message} {e : ConfigEvent}
      {out : Outcome A (ConfigRow A) Unit} (hk : s.controller = some k)
      (hm : pick k.received n false = some (m, q)) (hev : readConfigEvent m = some (some e))
      (hout : out = upsertSensorConfig I link e.sensorId e.hostname e.ip e.isActive e.requestId s.db) :
      DbCases I s (.consume n link) out.db (out.written.map .upserted)

omit [DecidableEq π] [DecidableEq κ] [DecidableEq ι] in
theorem quiet_answer (s : Pipeline π κ ι A) (p : π) (e : Option (Server.Event κ)) :
    ∀ e' ∈ s.answer p e, ∃ p q r st, e' = .answered p q r st := by
  intro e' he'
  unfold answer at he'
  split at he'
  · obtain ⟨ph, -, rfl⟩ := Option.map_eq_some_iff.mp he'
    exact ⟨_, _, _, _, rfl⟩
  · cases he'

theorem db_cases {i : Input π κ ι} (h : (machine π κ ι I).step s i = some (t, o)) :
    DbCases I s i t.db o := by
  cases step_cases h with
  | seeded hp hdb => exact .seeded hp hdb
  | generate hp hx => exact .generate
  | @add p c link srv inbox q r out x hp hc hout hx =>
    have hc' : s.handler p c = some (.adding q r) := by simpa [handler, hp] using hc
    have hadd := DbCases.add (I := I) hc' hout
    cases hw : out.written <;> simpa [hw, notifyRequest] using hadd
  | @consume k n link q m e main out hk hm hev hout hmain =>
    have hcon := DbCases.consume (s := s) hk hm hev hout
    cases hw : out.written <;> simpa [hw, notifyChange] using hcon
  | call hi _ _ =>
    refine .quiet (fun p c link he => ?_) (quiet_answer _ _ _)
    subst he
    cases hi
  | _ => exact .quiet nofun nofun

end ManagementSensors.Pipeline
