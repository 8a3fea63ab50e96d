import ManagementSensors.Db.Notify

/-!
# Mqtt/Handlers — what the controller and a sensor do with one message

`on_db_event_received` forwards a NOTIFY to `config/requested`, a sensor echoes it to
`config/events` with another channel name, and the handler of `config/events` reads the arguments
of `upsert_sensor_config` from it.  `none` is an exception that leaves the handler.
-/

open Machinery

namespace ManagementSensors

variable {A : Type}

/-- `on_db_event_received`: the object that goes to `config/requested`, if any.  The controller
publishes nothing while its MQTT client is not connected. -/
def onDbEventReceived (connected : Bool) (msg : Message) : Option (Option Message) :=
  if msg = [] then some none
  else do
    let channel ← Json.member "channel" msg
    let _ ← channel.asString
    if connected then return some msg else return none

/-- The sensor's echo: `obj["channel"] = "config_events"`. -/
def echo (obj : Message) : Message := Json.setMember "channel" (.string "config_events") obj

/-- The arguments of `upsert_sensor_config`. -/
structure ConfigEvent where
  sensorId : SensorId
  hostname : String
  ip : String
  isActive : Bool
  requestId : RequestId
  deriving DecidableEq, Repr

/-- `mqtt_dispatch_table["config/events"]`, up to the call of `upsert_sensor_config`; there is none
without a payload. -/
def readConfigEvent (obj : Message) : Option (Option ConfigEvent) :=
  if Json.contains "payload" obj then do
    let payload ← (Json.member "payload" obj).bind Json.asObject
    let sensorId ← (Json.member "sensor_id" payload).bind Json.asInt64
    let hostname ← (Json.member "hostname" payload).bind Json.asString
    let ip ← (Json.member "ip_address" payload).bind Json.asString
    let isActive ← (Json.member "is_active" payload).bind Json.asBool
    let _ ← (Json.member "action" payload).bind Json.asString
    let requestId ← (Json.member "request_id" payload).bind Json.asInt64
    return some ⟨sensorId.toInt32, cStr hostname, cStr ip, isActive, requestId.toUInt64⟩
  else some none

/-- The request a message belongs to. -/
def requestOf (msg : Message) : Option Int64 := do
  let payload ← (Json.member "payload" msg).bind Json.asObject
  (Json.member "request_id" payload).bind Json.asInt64

variable {I : InetType A} {channel : String} {row : PendingRow A}

/-- The message of a row is echoed as the message of that row. -/
@[simp] theorem echo_requestMessage :
    echo (requestMessage I channel row) = requestMessage I "config_events" row := rfl

@[simp] theorem requestOf_echo (msg : Message) : requestOf (echo msg) = requestOf msg := by
  simp [requestOf, echo]

@[simp] theorem requestOf_requestMessage :
    requestOf (requestMessage I channel row) = some row.requestId := by
  simp [requestOf, requestMessage, parserNotify, notifyConfigRequest, Json.asObject, Json.asInt64]

/-- An upsert is that of the request its message belongs to. -/
theorem requestOf_of_readConfigEvent {msg : Message} {e : ConfigEvent}
    (h : readConfigEvent msg = some (some e)) : requestOf msg = some e.requestId.toInt64 := by
  rw [readConfigEvent] at h
  split at h
  · simp only [Option.bind_eq_bind, Option.pure_def, Option.bind_eq_some_iff,
      Option.some.injEq] at h
    obtain ⟨_, ⟨_, hp, ho⟩, _, _, _, _, _, _, _, _, _, _, _, ⟨_, hr, hid⟩, rfl⟩ := h
    simp [requestOf, hp, ho, hr, hid]
  · cases h

/-- The message of a row is forwarded as it is, or not at all. -/
theorem onDbEventReceived_requestMessage (connected : Bool) :
    onDbEventReceived connected (requestMessage I channel row) =
      some (if connected then some (requestMessage I channel row) else none) := by
  simp [onDbEventReceived, requestMessage, parserNotify, Json.asString]
  split <;> rfl

/-- What is forwarded is the notification itself. -/
theorem onDbEventReceived_eq {connected : Bool} {msg m : Message}
    (h : onDbEventReceived connected msg = some (some m)) : m = msg := by
  rw [onDbEventReceived] at h
  split at h
  · cases h
  · simp only [Option.bind_eq_bind, Option.bind_eq_some_iff, Option.pure_def] at h
    obtain ⟨_, _, _, _, h⟩ := h
    split at h <;> cases h
    rfl

/-- The message of a row that has a hostname and a state is read, with the values of that row. -/
theorem readConfigEvent_of_requested {hostname : String} {act : Bool}
    (hh : row.requestedHostname = some hostname) (ha : row.requestedIsActive = some act) :
    readConfigEvent (requestMessage I channel row) = some (some ⟨row.sensorId, cStr hostname,
      I.render row.requestedIp, act, row.requestId.toUInt64⟩) := by
  have hip : cStr (I.render row.requestedIp) = I.render row.requestedIp :=
    cStr_eq_self (I.render_noNul _)
  simp [readConfigEvent, requestMessage, parserNotify, notifyConfigRequest, Json.contains,
    Json.asObject, Json.asInt64, Json.asString, Json.asBool, hh, ha, hip]

/-- **What the message of a row asks for**, if it is read at all: the values of that row. -/
theorem readConfigEvent_requestMessage {o : Option ConfigEvent}
    (h : readConfigEvent (requestMessage I channel row) = some o) :
    ∃ hostname act, row.requestedHostname = some hostname ∧ row.requestedIsActive = some act ∧
      o = some ⟨row.sensorId, cStr hostname, I.render row.requestedIp, act,
        row.requestId.toUInt64⟩ := by
  cases hh : row.requestedHostname with
  | none =>
    simp [readConfigEvent, requestMessage, parserNotify, notifyConfigRequest, Json.contains,
      Json.asObject, Json.asInt64, Json.asString, hh] at h
  | some hostname =>
    cases ha : row.requestedIsActive with
    | none =>
      simp [readConfigEvent, requestMessage, parserNotify, notifyConfigRequest, Json.contains,
        Json.asObject, Json.asInt64, Json.asString, Json.asBool, hh, ha] at h
    | some act =>
      refine ⟨hostname, act, rfl, rfl, ?_⟩
      rw [readConfigEvent_of_requested hh ha] at h
      exact (Option.some.inj h).symm

end ManagementSensors
