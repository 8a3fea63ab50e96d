import ManagementSensors.Db.DatabaseManager
import ManagementSensors.Mqtt.Handlers
import ManagementSensors.Server.Handler

/-!
# Pipeline/Encoding — a row, written and read through the four stages

    row ──trigger──▸ text ──parser_notify──▸ {channel, payload} ──serialize──▸ text ──▸ sensor
                                                   arguments ◂──config/events── text ◂──┘

PostgreSQL's JSON text of a row is read by `parser_notify`, serialised by `on_db_event_received`,
parsed and serialised again by the sensor, and read by the handler of `config/events`: what comes out
are the values of the row (`configEvent_of_written`).  The text of a row change of `sensor_config` is
read by `on_db_config_event_received`, which dispatches on the row's own request or on nothing
(`dispatched_change`).

The members of a JSONB text stand in an order of its own, so a text is only said to show its members
(`Shows`).
-/

open Machinery

namespace ManagementSensors

variable {A : Type} {J : Json.Codec String String} {I : InetType A} {text channel : String}

/-! ## Texts -/

/-- **A text that shows some members**: the JSON library reads it as an object of these, in some
order. -/
structure Shows (J : Json.Codec String String) (text : String) (value : Json String) : Prop where
  noNul : '\x00' ∉ text.toList
  parsed : ∃ kvs kvs', value = .object kvs ∧ J.parse text = some (.object kvs') ∧ kvs'.Perm kvs

/-- The JSON library reads back the messages it serialises of a payload. -/
def ReadsOwn (J : Json.Codec String String) (text channel : String) : Prop :=
  ∀ payload, J.parse text = some payload → ∀ c ∈ [channel, "config_events"],
    (J.parse (J.serialize (.object (parserNotify c payload)))).isSome

/-- `parser_notify`, on a text: what is no JSON is kept as a string. -/
def parserNotifyText (J : Json.Codec String String) (channel text : String) : Message :=
  parserNotify channel ((J.parse (cStr text)).getD (.string (cStr text)))

/-- `on_db_event_received`, up to the text that goes to `config/requested`. -/
def publishRequested (J : Json.Codec String String) (connected : Bool) (msg : Message) :
    Option (Option String) :=
  (onDbEventReceived connected msg).map fun o => o.map fun obj => J.serialize (.object obj)

/-- The sensor's loop on a text of `config/requested`: the text it publishes on `config/events`.  An
exception is caught. -/
def publishEvents (J : Json.Codec String String) (text : String) : Option String :=
  ((J.parse text).bind Json.asObject).map fun obj => J.serialize (.object (echo obj))

/-- The controller's loop on a text of `config/events`, up to the call of `upsert_sensor_config`. -/
def consumeEvents (J : Json.Codec String String) (text : String) : Option (Option ConfigEvent) :=
  ((J.parse text).bind Json.asObject).bind readConfigEvent

/-- The arguments of an upsert, against the five columns of a pending row: the parameters of the
statement are read as these values. -/
structure ConfigEvent.Matches (I : InetType A) (e : ConfigEvent) (row : PendingRow A) : Prop where
  requestId : bigint e.requestId = some row.requestId
  sensorId : e.sensorId = row.sensorId
  hostname : row.requestedHostname = some e.hostname ∧ varchar100 e.hostname = some e.hostname
  ip : I.parse e.ip = some row.requestedIp
  isActive : row.requestedIsActive = some e.isActive

/-! ## Changes of `sensor_config` -/

/-- A row change that fires the trigger, with NEW or OLD. -/
inductive RowChange (A : Type)
  | insert (row : ConfigRow A)
  | update (row : ConfigRow A)
  | delete (old : ConfigRow A)

/-- `notify_config_change`: the payload sent on `config_events`. -/
def RowChange.payload (I : InetType A) : RowChange A → Json String
  | .insert row => notifyConfigChange I "INSERT" row
  | .update row => notifyConfigChange I "UPDATE" row
  | .delete old => .object [
      ("action", .string "DELETE"),
      ("sensor_id", .int64 old.sensorId.toInt64),
      ("hostname", .string old.hostname),
      ("request_id", old.requestId.elim .null .int64)]

/-- NEW.request_id; a DELETE has no NEW. -/
def RowChange.newRequestId : RowChange A → Option Int64
  | .insert row | .update row => row.requestId
  | .delete _ => none

/-! ## A payload in any order -/

theorem parserNotifyText_of_shows (channel : String) {kvs : List (String × Json String)}
    (h : Shows J text (.object kvs)) : ∃ kvs', kvs'.Perm kvs ∧ J.parse text = some (.object kvs') ∧
      parserNotifyText J channel text = parserNotify channel (.object kvs') := by
  obtain ⟨_, kvs', hkvs, hparse, hperm⟩ := h.parsed
  cases hkvs
  refine ⟨kvs', hperm, hparse, ?_⟩
  rw [parserNotifyText, cStr_eq_self h.noNul, hparse, Option.getD_some]

/-- The handler of `config/events` looks at the members by name. -/
theorem readConfigEvent_perm {kvs kvs' : List (String × Json String)} (hperm : kvs'.Perm kvs)
    (hkeys : (kvs.map Prod.fst).Nodup) : readConfigEvent (parserNotify channel (.object kvs')) =
      readConfigEvent (parserNotify channel (.object kvs)) := by
  simp [readConfigEvent, parserNotify, Json.contains, Json.asObject, Json.member_perm hperm hkeys]

/-- So does `on_db_config_event_received`. -/
theorem onDbConfigEventReceived_perm {kvs kvs' : List (String × Json String)}
    (hperm : kvs'.Perm kvs) (hkeys : (kvs.map Prod.fst).Nodup) :
    onDbConfigEventReceived (parserNotify channel (.object kvs')) =
      onDbConfigEventReceived (parserNotify channel (.object kvs)) := by
  simp [onDbConfigEventReceived, parserNotify, Json.contains, Json.asObject,
    Json.member_perm hperm hkeys]

/-! ## The way of a message -/

theorem onDbEventReceived_parserNotify (payload : Json String) :
    onDbEventReceived true (parserNotify channel payload) =
      some (some (parserNotify channel payload)) := by
  simp [onDbEventReceived, parserNotify, Json.asString]

/-- A message whose payload holds scalars is read as it was serialised. -/
theorem parse_serialize_message {kvs : List (String × Json String)}
    (hscalar : ∀ p ∈ kvs, p.2.IsScalar)
    (hjson : (J.parse (J.serialize (.object (parserNotify channel (.object kvs))))).isSome) :
    J.parse (J.serialize (.object (parserNotify channel (.object kvs)))) =
      some (.object (parserNotify channel (.object kvs))) := by
  obtain ⟨w, hw⟩ := Option.isSome_iff_exists.mp hjson
  rw [hw, J.parse_serialize _ _ hw]
  simp only [parserNotify, Json.normal, Json.normalMembers, Json.normalMembers_of_isScalar hscalar]

/-- **What the controller reads** of a payload that has gone through the sensor. -/
theorem consumeEvents_of_shows {kvs : List (String × Json String)}
    (hshows : Shows J text (.object kvs)) (hscalar : ∀ p ∈ kvs, p.2.IsScalar)
    (hkeys : (kvs.map Prod.fst).Nodup)
    (hjson : ReadsOwn J text channel) :
    ∃ requested events,
      publishRequested J true (parserNotifyText J channel text) = some (some requested) ∧
      publishEvents J requested = some events ∧
      consumeEvents J events = readConfigEvent (parserNotify "config_events" (.object kvs)) := by
  obtain ⟨kvs', hperm, hparse, hnotify⟩ := parserNotifyText_of_shows channel hshows
  have hscalar' : ∀ p ∈ kvs', p.2.IsScalar := fun p hp => hscalar p (hperm.mem_iff.mp hp)
  have hback : ∀ c ∈ [channel, "config_events"],
      J.parse (J.serialize (.object (parserNotify c (.object kvs')))) =
        some (.object (parserNotify c (.object kvs'))) := fun c hc =>
    parse_serialize_message hscalar' (hjson _ hparse c hc)
  refine ⟨J.serialize (.object (parserNotify channel (.object kvs'))),
    J.serialize (.object (parserNotify "config_events" (.object kvs'))), ?_, ?_, ?_⟩
  · rw [publishRequested, hnotify, onDbEventReceived_parserNotify]
    rfl
  · rw [publishEvents, hback _ (by simp)]
    rfl
  · rw [consumeEvents, hback _ (by simp), ← readConfigEvent_perm hperm hkeys]
    rfl

/-! ## Rows -/

/-- What a VARCHAR(100) column holds has no NUL, and is taken again as it is. -/
theorem varchar100_again {s h : String} (hs : varchar100 s = some h) :
    '\x00' ∉ h.toList ∧ varchar100 h = some h := by
  rw [varchar100] at hs
  split at hs
  case isFalse => cases hs
  case isTrue =>
    obtain rfl := Option.some.inj hs
    have hnul : '\x00' ∉ (String.ofList ((cStr s).toList.take 100)).toList := by
      rw [String.toList_ofList, cStr, String.toList_ofList]
      intro hmem
      simpa using List.mem_takeWhile_imp (List.mem_of_mem_take hmem)
    refine ⟨hnul, ?_⟩
    rw [varchar100, cStr_eq_self hnul, String.toList_ofList]
    simp [List.take_take]

/-- **A written row is read as it was written.** -/
theorem configEvent_of_written (channel : String) {link : Link} {s : SensorId}
    {hostname ip : String} {act : Bool} {r : RequestId} {db : Db A} {row : PendingRow A}
    (hwritten : (addPendingConfig I link s hostname ip act r db).written = some row) :
    ∃ e, readConfigEvent (parserNotify channel (notifyConfigRequest I row)) = some (some e) ∧
      e.Matches I row := by
  obtain ⟨row', hrow, -, hwritten'⟩ := (addPendingConfig_cases I link s hostname ip act r db
    ).resolve_left fun h => by simp [hwritten] at h
  cases hwritten.symm.trans hwritten'
  simp only [Db.pendingRow, Option.bind_eq_bind, Option.bind_eq_some_iff, Option.pure_def,
    Option.some.injEq] at hrow
  obtain ⟨r', hr, h, hh, a, -, rfl⟩ := hrow
  obtain ⟨hnul, hagain⟩ := varchar100_again hh
  have hread : readConfigEvent (requestMessage I channel ⟨r', s, some h, a, some act, .pending⟩) =
      some (some ⟨s, cStr h, I.render a, act, r'.toUInt64⟩) := readConfigEvent_of_requested rfl rfl
  refine ⟨_, hread, ?_⟩
  rw [cStr_eq_self hnul]
  have hback : r'.toUInt64 = r := by
    simp only [bigint, Option.ite_none_right_eq_some, Option.some.injEq] at hr
    rw [← hr.2, UInt64.toUInt64_toInt64]
  exact ⟨hback ▸ hr, rfl, ⟨rfl, hagain⟩, I.parse_render a, rfl⟩

/-- **What a row change is dispatched on**: its own request, once, or nothing. -/
theorem dispatched_change (change : RowChange A) (hshows : Shows J text (change.payload I)) :
    onDbConfigEventReceived (parserNotifyText J "config_events" text) =
      some (change.newRequestId.map Int64.toUInt64) := by
  cases change with
  | insert row | update row =>
    obtain ⟨kvs', hperm, -, hnotify⟩ := parserNotifyText_of_shows "config_events" hshows
    rw [hnotify, onDbConfigEventReceived_perm hperm (by simp)]
    exact onDbConfigEventReceived_change I _ row
  | delete old =>
    obtain ⟨kvs', hperm, -, hnotify⟩ := parserNotifyText_of_shows "config_events" hshows
    rw [hnotify, onDbConfigEventReceived_perm hperm (by simp)]
    -- `at("new_ip")` throws, and the exception is caught
    cases old.requestId <;>
      simp [onDbConfigEventReceived, parserNotify, Json.contains, Json.asString, Json.asObject,
        Json.asInt64, RowChange.newRequestId]

/-- **The encoders and the decoders agree.**  A row that `add_pending_config` commits is upserted with
its own five values; a row change of `sensor_config` is dispatched on its own request. -/
theorem encoders_agree (I : InetType A) (J : Json.Codec String String) :
    (∀ link s hostname ip act r db row text,
      (addPendingConfig I link s hostname ip act r db).written = some row →
      Shows J text (notifyConfigRequest I row) → ReadsOwn J text "config_requested" →
        ∃ requested events e,
          publishRequested J true (parserNotifyText J "config_requested" text) =
            some (some requested) ∧
          publishEvents J requested = some events ∧ consumeEvents J events = some (some e) ∧
          e.Matches I row) ∧
      ∀ (change : RowChange A) text, Shows J text (change.payload I) →
        onDbConfigEventReceived (parserNotifyText J "config_events" text) =
          some (change.newRequestId.map Int64.toUInt64) := by
  refine ⟨fun link s hostname ip act r db row text hwritten hshows hjson => ?_,
    fun change text => dispatched_change change⟩
  obtain ⟨e, hread, hmatches⟩ := configEvent_of_written "config_events" hwritten
  have hscalar : ∀ p ∈ [("request_id", Json.int64 row.requestId),
      ("sensor_id", .int64 row.sensorId.toInt64),
      ("hostname", row.requestedHostname.elim .null .string),
      ("ip_address", .string (I.render row.requestedIp)),
      ("is_active", row.requestedIsActive.elim .null .bool),
      ("action", .string "INSERT")], p.2.IsScalar := by
    cases row.requestedHostname <;> cases row.requestedIsActive <;> simp [Json.IsScalar]
  obtain ⟨requested, events, hrequested, hevents, hconsume⟩ :=
    consumeEvents_of_shows hshows hscalar (by simp) hjson
  exact ⟨requested, events, e, hrequested, hevents, hconsume.trans hread, hmatches⟩

/-! ## One row and one change -/

/-- A row for sensor 3. -/
def movedRow : PendingRow Addr := ⟨5, 3, some "sensor-3", .two, some true, .pending⟩

/-- The row of sensor 3 that it leads to. -/
def movedChange : RowChange Addr := .update ⟨3, "sensor-3", .two, some true, 3, some 5⟩

/-- The members of the pending row, as a JSON library serialises them. -/
def movedMembers : String := "\x7b\"request_id\":5,\"sensor_id\":3,\"hostname\":\"sensor-3\"," ++
  "\"ip_address\":\"10.0.0.2\",\"is_active\":true,\"action\":\"INSERT\"\x7d"

/-- Its message on a channel. -/
def movedMessage (channel : String) : String :=
  "\x7b\"channel\":\"" ++ channel ++ "\",\"payload\":" ++ movedMembers ++ "\x7d"

/-- `json_build_object(..)::text` of the pending row. -/
def movedText : String := "\x7b\"request_id\" : 5, \"sensor_id\" : 3, \"hostname\" : \"sensor-3\", " ++
  "\"ip_address\" : \"10.0.0.2\", \"is_active\" : true, \"action\" : \"INSERT\"\x7d"

/-- `payload::text` of the change, with the keys in the order of JSONB. -/
def changedText : String := "\x7b\"action\": \"UPDATE\", \"new_ip\": \"10.0.0.2/32\", " ++
  "\"hostname\": \"sensor-3\", \"sensor_id\": 3, \"request_id\": 5\x7d"

/-- What that text holds. -/
def changedMembers : List (String × Json String) := [("action", .string "UPDATE"),
  ("new_ip", .string "10.0.0.2/32"), ("hostname", .string "sensor-3"),
  ("sensor_id", .int64 (Int32.toInt64 3)), ("request_id", .int64 5)]

/-- Whether a value is the message of the pending row. -/
def isMoved (channel : String) : Json String → Bool
  | .object [(k₁, .string c), (k₂, .object [(p₁, .int64 r), (p₂, .int64 s), (p₃, .string h),
      (p₄, .string ip), (p₅, .bool a), (p₆, .string op)])] =>
    [k₁, k₂, p₁, p₂, p₃, p₄, p₅, p₆] = ["channel", "payload", "request_id", "sensor_id", "hostname",
      "ip_address", "is_active", "action"] ∧
    [c, h, ip, op] = [channel, "sensor-3", "10.0.0.2", "INSERT"] ∧ r = 5 ∧ s = 3 ∧ a = true
  | _ => false

theorem eq_of_isMoved {v : Json String} (h : isMoved channel v = true) :
    v = .object (requestMessage addrInet channel movedRow) := by
  unfold isMoved at h
  split at h
  case h_1 =>
    simp only [List.cons.injEq, and_true, decide_eq_true_eq] at h
    obtain ⟨⟨rfl, rfl, rfl, rfl, rfl, rfl, rfl, rfl⟩, ⟨rfl, rfl, rfl, rfl⟩, rfl, rfl, rfl⟩ := h
    rfl
  case h_2 => cases h

/-- A JSON library, at these texts. -/
def movedCodec : Json.Codec String String where
  serialize v :=
    if isMoved "config_requested" v then movedMessage "config_requested"
    else if isMoved "config_events" v then movedMessage "config_events"
    else ""
  parse t :=
    if t = movedMessage "config_requested" then
      some (.object (requestMessage addrInet "config_requested" movedRow))
    else if t = movedMessage "config_events" then
      some (.object (requestMessage addrInet "config_events" movedRow))
    else if t = movedText then some (notifyConfigRequest addrInet movedRow)
    else if t = changedText then some (.object changedMembers)
    else none
  parse_serialize v w h := by
    by_cases hr : isMoved "config_requested" v = true
    · rw [if_pos hr, if_pos rfl] at h
      rw [eq_of_isMoved hr, ← Option.some.inj h]
      rfl
    · rw [if_neg hr] at h
      by_cases he : isMoved "config_events" v = true
      · rw [if_pos he, if_neg (by decide), if_pos rfl] at h
        rw [eq_of_isMoved he, ← Option.some.inj h]
        rfl
      · rw [if_neg he, if_neg (by decide), if_neg (by decide), if_neg (by decide),
          if_neg (by decide)] at h
        cases h

/-- The row of request 5, and the change it leads to. -/
theorem encoders_agree_moved :
    (∃ events e, consumeEvents movedCodec events = some (some e) ∧ e.Matches addrInet movedRow) ∧
      onDbConfigEventReceived (parserNotifyText movedCodec "config_events" changedText) =
        some (some 5) := by
  obtain ⟨hrow, hchange⟩ := encoders_agree addrInet movedCodec
  have hparse : movedCodec.parse movedText = some (notifyConfigRequest addrInet movedRow) := by
    simp only [movedCodec]
    rw [if_neg (by decide), if_neg (by decide), if_pos trivial]
  have hown : ∀ c ∈ ["config_requested", "config_events"], (movedCodec.parse (movedCodec.serialize
      (.object (parserNotify c (notifyConfigRequest addrInet movedRow))))).isSome := by
    decide +kernel
  have hchanged : movedCodec.parse changedText = some (.object changedMembers) := by
    simp only [movedCodec]
    rw [if_neg (by decide), if_neg (by decide), if_neg (by decide), if_pos trivial]
  have hid : movedChange.newRequestId.map Int64.toUInt64 = some 5 := by decide +kernel
  have hperm : changedMembers.Perm [("action", .string "UPDATE"),
      ("sensor_id", .int64 (Int32.toInt64 3)), ("new_ip", .string "10.0.0.2/32"),
      ("hostname", .string "sensor-3"), ("request_id", .int64 5)] :=
    .cons _ (((List.Perm.swap _ _ _).cons _).trans (List.Perm.swap _ _ _))
  constructor
  · obtain ⟨-, events, e, -, -, hconsume, hmatches⟩ := hrow .up 3 "sensor-3" "10.0.0.2" true 5
      oneSensor movedRow movedText (by decide +kernel)
      ⟨by decide +kernel, _, _, rfl, hparse, List.Perm.refl _⟩
      fun payload hpayload => Option.some.inj (hparse.symm.trans hpayload) ▸ hown
    exact ⟨events, e, hconsume, hmatches⟩
  · have hshows : Shows movedCodec changedText (movedChange.payload addrInet) :=
      ⟨by decide +kernel, _, changedMembers, rfl, hchanged, hperm⟩
    rw [hchange movedChange changedText hshows, hid]

end ManagementSensors
