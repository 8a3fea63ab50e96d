import ManagementSensors.Db.DatabaseManager
import ManagementSensors.Mqtt.Handlers

/-!
# Mqtt/ConsumeLoop — the controller's loop, and what a message that fails leaves behind

The loop of `main` consumes one message after the other, inside one `try`: an exception that leaves a
handler leaves the loop.  A message whose content makes its handling fail writes nothing
(`handle_of_bad`), but ends the loop, and what comes after it is not handled: the tables are those of
the sequence without it, whatever comes after it, only where its exception is kept back or nothing can
ever be written (`bad_message_isolated`).
-/

open Machinery

namespace ManagementSensors

variable {A : Type}

section Loop

variable [DoubleText]

/-- A message the broker delivers: its topic, what `boost::json::parse` makes of its payload, and what
the connection to the database does while it is handled. -/
structure Delivery where
  topic : String
  payload : Option (Json String)
  link : Link

/-- `mqtt_dispatch_table["telemetry/state"]`, up to the call of `upsert_sensor_state`. -/
def readTelemetry (obj : Message) : Option (SensorId × ℚ) := do
  let sensorId ← (Json.member "sensor_id" obj).bind Json.asInt64
  let temp ← (Json.member "temp" obj).bind Json.asDouble
  return (sensorId.toInt32, temp)

/-- Whether an exception leaves a call. -/
def Outcome.threw {β γ : Type} (o : Outcome A β γ) : Bool :=
  match o.result with
  | .ok _ => false
  | .error _ => true

/-- One round of the loop: the database after it, and whether an exception leaves the handler. -/
def handle (I : InetType A) (db : Db A) (m : Delivery) : Db A × Bool :=
  match m.payload.bind Json.asObject with
  | none => (db, true)
  | some obj =>
    if m.topic = "telemetry/state" then
      match readTelemetry obj with
      | none => (db, true)
      | some (sensorId, temp) =>
        let o := upsertSensorState m.link sensorId temp db
        (o.db, o.threw)
    else if m.topic = "config/events" then
      match readConfigEvent obj with
      | none => (db, true)
      | some none => (db, false)
      | some (some e) =>
        let o := upsertSensorConfig I m.link e.sensorId e.hostname e.ip e.isActive e.requestId db
        (o.db, o.threw)
    else (db, false)

/-- **The loop**: the database it leaves, and whether it goes on. -/
def consumeAll (I : InetType A) (db : Db A) : List Delivery → Db A × Bool
  | [] => (db, true)
  | m :: ms =>
    match handle I db m with
    | (db', false) => consumeAll I db' ms
    | (db', true) => (db', false)

/-- The contents of `sensor_config` and `sensor_state`. -/
def Db.contents (db : Db A) : List (ConfigRow A) × List StateRow := (db.config, db.state)

/-- **A message whose own content makes its handling fail**: it is no JSON object, a field is missing
or of another type, or the statement it asks for is refused. -/
def BadContent (I : InetType A) (db : Db A) (m : Delivery) : Prop :=
  match m.payload.bind Json.asObject with
  | none => True
  | some obj =>
    if m.topic = "telemetry/state" then
      match readTelemetry obj with
      | none => True
      | some (sensorId, temp) => db.upsertTemp sensorId temp = none
    else if m.topic = "config/events" then
      match readConfigEvent obj with
      | none => True
      | some none => False
      | some (some e) => db.upsertRow I e.sensorId e.hostname e.ip e.isActive e.requestId = none
    else False

/-- The connections whose end an upsert keeps back, before it has committed anything. -/
def Link.KeptBack (link : Link) : Prop :=
  link = .lost .brokenConnection false ∨ link = .lost .other false

/-- **The exception of a message is kept back**: the message asks for an upsert, and the connection is
lost during it with an exception that the upsert swallows, or, for `upsert_sensor_config`, is not
open. -/
def Delivery.KeptBack (m : Delivery) : Prop :=
  match m.payload.bind Json.asObject with
  | none => False
  | some obj =>
    if m.topic = "telemetry/state" then (readTelemetry obj).isSome ∧ m.link.KeptBack
    else if m.topic = "config/events" then
      (∃ e, readConfigEvent obj = some (some e)) ∧ (m.link = .closed ∨ m.link.KeptBack)
    else False

/-! ## One message -/

omit [DoubleText] in
theorem upsertSensorConfig_of_none {I : InetType A} {db : Db A} {s : SensorId}
    {hostname ip : String} {act : Bool} {r : RequestId} (h : db.upsertRow I s hostname ip act r = none)
    (link : Link) : (upsertSensorConfig I link s hostname ip act r db).db = db ∧
      ((upsertSensorConfig I link s hostname ip act r db).threw = false ↔
        link = .closed ∨ link.KeptBack) := by
  rcases link with _ | _ | ⟨_ | _ | _, _ | _⟩ <;>
    simp [upsertSensorConfig, transact, h, Outcome.threw, Outcome.caught, Link.KeptBack]

theorem upsertSensorState_of_none {db : Db A} {s : SensorId} {temp : ℚ}
    (h : db.upsertTemp s temp = none) (link : Link) : (upsertSensorState link s temp db).db = db ∧
      ((upsertSensorState link s temp db).threw = false ↔ link.KeptBack) := by
  rcases link with _ | _ | ⟨_ | _ | _, _ | _⟩ <;>
    simp [upsertSensorState, transact, h, Outcome.threw, Outcome.caught, Link.KeptBack]

/-- **A bad message writes nothing**, and its exception leaves the handler unless it is kept back. -/
theorem handle_of_bad {I : InetType A} {db : Db A} {m : Delivery} (h : BadContent I db m) :
    (handle I db m).1 = db ∧ ((handle I db m).2 = false ↔ m.KeptBack) := by
  unfold BadContent at h
  unfold handle Delivery.KeptBack
  split at h
  case h_1 => exact ⟨rfl, by simp⟩
  case h_2 obj hobj =>
    split at h
    case isTrue htopic =>
      rw [if_pos htopic, if_pos htopic]
      split at h
      case h_1 hread => exact ⟨rfl, by simp [hread]⟩
      case h_2 hread =>
        obtain ⟨hdb, hthrew⟩ := upsertSensorState_of_none h m.link
        exact ⟨hdb, by simpa [hread] using hthrew⟩
    case isFalse htopic =>
      rw [if_neg htopic, if_neg htopic]
      split at h
      case isFalse => exact absurd h id
      case isTrue htopic' =>
        rw [if_pos htopic', if_pos htopic']
        split at h
        case h_1 hread => exact ⟨rfl, by simp [hread]⟩
        case h_2 => exact absurd h id
        case h_3 e hread =>
          obtain ⟨hdb, hthrew⟩ := upsertSensorConfig_of_none h m.link
          exact ⟨hdb, by simpa [hread] using hthrew⟩

/-! ## The sequence without it -/

theorem consumeAll_append (I : InetType A) (db : Db A) (pre post : List Delivery) :
    consumeAll I db (pre ++ post) =
      if (consumeAll I db pre).2 then consumeAll I (consumeAll I db pre).1 post
      else consumeAll I db pre := by
  induction pre generalizing db with
  | nil => simp [consumeAll]
  | cons m pre ih =>
    rw [List.cons_append, consumeAll, consumeAll]
    cases handle I db m with
    | mk db' threw => cases threw <;> simp [ih]

omit [DoubleText] in
/-- Without certificates there are no sensors. -/
theorem Db.empty_of_certs {db : Db A} (h : db.certs = []) : db.config = [] ∧ db.state = [] := by
  have hconfig : db.config = [] := List.eq_nil_iff_forall_not_mem.mpr fun row hrow => by
    have := db.certRef row hrow
    simp [h] at this
  refine ⟨hconfig, List.eq_nil_iff_forall_not_mem.mpr fun row hrow => ?_⟩
  have := db.stateRef row hrow
  simp [hconfig] at this

/-- Where there are no certificates, nothing can be written. -/
theorem handle_of_no_certs {I : InetType A} {db : Db A} (h : db.certs = []) (m : Delivery) :
    (handle I db m).1 = db := by
  obtain ⟨hconfig, -⟩ := db.empty_of_certs h
  have htemp : ∀ s x, db.upsertTemp s x = none := fun s x => by
    cases hx : numeric52 (DoubleText.decimal x) <;> simp [Db.upsertTemp, Db.upsertState, hconfig, hx]
  have hrow : ∀ s hostname ip act r, db.upsertRow I s hostname ip act r = none := by
    intro s hostname ip act r
    have hnone : db.configOf s = none := by simp [Db.configOf, hconfig]
    simp [Db.upsertRow, hnone, h]
  unfold handle
  split
  · rfl
  · split
    · split
      · rfl
      · exact (upsertSensorState_of_none (htemp _ _) m.link).1
    · split
      · split
        · rfl
        · rfl
        · exact (upsertSensorConfig_of_none (hrow _ _ _ _ _) m.link).1
      · rfl

theorem consumeAll_of_no_certs {I : InetType A} {db : Db A} (h : db.certs = [])
    (ms : List Delivery) : (consumeAll I db ms).1 = db := by
  induction ms with
  | nil => rfl
  | cons m ms ih =>
    have hdb := handle_of_no_certs (I := I) h m
    rw [consumeAll]
    cases hm : handle I db m with
    | mk db' threw =>
      rw [hm] at hdb
      obtain rfl : db' = db := hdb
      cases threw
      · exact ih
      · rfl

/-! ## The sequence after it -/

/-- The message of an event that sets sensor `s` to address `a`, with request `r`. -/
def eventDelivery (I : InetType A) (s : SensorId) (a : A) (r : Int64) : Delivery :=
  ⟨"config/events", some (.object (requestMessage I "config_events" ⟨r, s, some "", a, some true,
    .pending⟩)), .up⟩

theorem handle_eventDelivery (I : InetType A) (db : Db A) (s : SensorId) (a : A) (r : Int64) :
    handle I db (eventDelivery I s a r) =
      ((upsertSensorConfig I .up s "" (I.render a) true r.toUInt64 db).db,
        (upsertSensorConfig I .up s "" (I.render a) true r.toUInt64 db).threw) := by
  have hread : readConfigEvent (requestMessage I "config_events"
      ⟨r, s, some "", a, some true, .pending⟩) =
        some (some ⟨s, cStr "", I.render a, true, r.toUInt64⟩) :=
    readConfigEvent_of_requested rfl rfl
  rw [show cStr "" = "" by decide] at hread
  simp only [handle, eventDelivery, Option.bind_some, Json.asObject, hread]
  rfl

/-- **While there is a certificate, something can be written.** -/
theorem exists_write [Inhabited A] (I : InetType A) {db : Db A} (h : db.certs ≠ []) :
    ∃ m, (handle I db m).1.contents ≠ db.contents := by
  have hparse : ∀ a, I.parse (I.render a) = some a := I.parse_render
  have hhost : varchar100 "" = some "" := by decide
  cases hconfig : db.config with
  | cons row rest =>
    obtain ⟨r, hr, hbig⟩ : ∃ r : Int64, row.requestId ≠ some r ∧ bigint r.toUInt64 = some r := by
      by_cases h0 : row.requestId = some 0
      · exact ⟨1, by rw [h0]; decide, by decide +kernel⟩
      · exact ⟨0, h0, by decide +kernel⟩
    have hrow : db.configOf row.sensorId = some row := by simp [Db.configOf, hconfig]
    refine ⟨eventDelivery I row.sensorId row.ipAddress r, fun heq => hr ?_⟩
    have hdb : (upsertSensorConfig I .up row.sensorId "" (I.render row.ipAddress) true r.toUInt64
        db).db = db.updateConfig row.sensorId "" row.ipAddress true r := by
      simp [upsertSensorConfig, transact, Db.upsertRow, hbig, hhost, hparse, hrow]
    rw [handle_eventDelivery, hdb] at heq
    -- the row of the sensor would be as it was
    have hsame := congrArg (fun c : List (ConfigRow A) × List StateRow =>
      c.1.find? fun r => r.sensorId = row.sensorId) heq
    have hafter : (db.updateConfig row.sensorId "" row.ipAddress true r).configOf row.sensorId =
        (db.configOf row.sensorId).map (ConfigRow.update row.sensorId "" row.ipAddress true r) :=
      Db.configOf_updateConfig
    rw [hrow, Option.map_some, ConfigRow.update, if_pos rfl] at hafter
    have hboth := hafter.symm.trans (hsame.trans hrow)
    rw [← (Option.some.inj hboth)]
  | nil =>
    obtain ⟨c, certs, hcerts⟩ := List.exists_cons_of_ne_nil h
    obtain ⟨r, hbig⟩ : ∃ r : Int64, bigint r.toUInt64 = some r := ⟨0, by decide +kernel⟩
    refine ⟨eventDelivery I c default r, fun heq => ?_⟩
    have hnone : db.configOf c = none := by simp [Db.configOf, hconfig]
    have hdb : (upsertSensorConfig I .up c "" (I.render default) true r.toUInt64
        db).db.config = [⟨c, "", default, some true, c, some r⟩] := by
      simp [upsertSensorConfig, transact, Db.upsertRow, Db.insertConfig, hbig, hhost, hparse, hnone,
        hconfig, hcerts]
    simp only [handle_eventDelivery, Db.contents, Prod.mk.injEq] at heq
    have hsame := heq.1
    rw [hconfig] at hsame
    generalize (upsertSensorConfig I .up c "" (I.render default) true r.toUInt64 db).db = db' at *
    exact List.cons_ne_nil _ _ (hdb.symm.trans hsame)

/-- One continuation is the same without the bad message where its exception is kept back, or where
the rest would have written nothing. -/
theorem contents_of_bad {I : InetType A} {db : Db A} {pre : List Delivery} {m : Delivery}
    (hreached : (consumeAll I db pre).2 = true) (hbad : BadContent I (consumeAll I db pre).1 m)
    (post : List Delivery) :
    (consumeAll I db (pre ++ m :: post)).1.contents = (consumeAll I db (pre ++ post)).1.contents ↔
      m.KeptBack ∨ (consumeAll I (consumeAll I db pre).1 post).1.contents =
        (consumeAll I db pre).1.contents := by
  obtain ⟨hdb, hkept⟩ := handle_of_bad hbad
  rw [consumeAll_append, consumeAll_append, if_pos hreached, if_pos hreached, consumeAll, ← hkept]
  cases hm : handle I (consumeAll I db pre).1 m with
  | mk db' threw =>
    rw [hm] at hdb
    subst hdb
    cases threw
    · simp
    · simp [eq_comm]

/-- **When a bad message is isolated.**  Let the loop come to a message whose own content makes its
handling fail.  The tables are in the end those of the sequence without it, whatever comes after it,
exactly where its exception is kept back or there is no certificate, so that nothing can ever be
written. -/
theorem bad_message_isolated [Inhabited A] (I : InetType A) (db : Db A) (pre : List Delivery)
    (m : Delivery) (hreached : (consumeAll I db pre).2 = true)
    (hbad : BadContent I (consumeAll I db pre).1 m) :
    (∀ post, (consumeAll I db (pre ++ m :: post)).1.contents =
        (consumeAll I db (pre ++ post)).1.contents) ↔
      m.KeptBack ∨ (consumeAll I db pre).1.certs = [] := by
  constructor
  · intro hall
    by_contra hno
    push Not at hno
    obtain ⟨hthrew, hcerts⟩ := hno
    obtain ⟨m', hwrite⟩ := exists_write I hcerts
    refine hwrite ?_
    have hpost := ((contents_of_bad hreached hbad [m']).mp (hall [m'])).resolve_left hthrew
    rw [← hpost, consumeAll]
    cases hm' : handle I (consumeAll I db pre).1 m' with
    | mk db' threw => cases threw <;> rfl
  · intro h post
    exact (contents_of_bad hreached hbad post).mpr <| h.imp_right fun hcerts => by
      rw [consumeAll_of_no_certs hcerts]

end Loop

/-- The temperature of sensor 3, of type INT. -/
def integerTemp : Delivery :=
  ⟨"telemetry/state", some (.object [("sensor_id", .int64 3), ("temp", .int64 21)]), .up⟩

/-- Its temperature, of type DOUBLE. -/
def doubleTemp : Delivery :=
  ⟨"telemetry/state", some (.object [("sensor_id", .int64 3), ("temp", .double (43 / 2))]), .up⟩

instance : Inhabited Addr := ⟨.one⟩

/-- A temperature that `NUMERIC(5,2)` does not hold, on a connection that breaks. -/
def brokenTemp : Delivery :=
  ⟨"telemetry/state", some (.object [("sensor_id", .int64 3), ("temp", .double 1000)]),
    .lost .brokenConnection false⟩

open ShortestText in
/-- That message does no harm to the one after it. -/
theorem bad_message_isolated_broken :
    (consumeAll addrInet oneSensor [brokenTemp, doubleTemp]).1.contents =
      (consumeAll addrInet oneSensor [doubleTemp]).1.contents :=
  (bad_message_isolated addrInet oneSensor [] brokenTemp rfl
    (show oneSensor.upsertTemp 3 1000 = none by decide +kernel)).mpr
      (Or.inl ⟨by decide +kernel, Or.inl rfl⟩) [doubleTemp]

open ShortestText in
/-- **The loop does not go on**: the temperature after the bad message is not written. -/
theorem not_isolated : BadContent addrInet oneSensor integerTemp ∧
    (consumeAll addrInet oneSensor [integerTemp, doubleTemp]).1.contents ≠
      (consumeAll addrInet oneSensor [doubleTemp]).1.contents :=
  ⟨trivial, by decide +kernel⟩

end ManagementSensors
