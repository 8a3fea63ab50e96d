import ManagementSensors.Http.QuantumSafeHttp
import ManagementSensors.Mqtt.ConsumeLoop

/-!
# Server/JsonBoundary — what becomes of an identity and an address at a JSON boundary

Three decoders read a sensor and its texts from a JSON document.  Each makes an `int` of an `int64` and
a C string of a text, and refuses neither.  What they pass on is what the document holds where its
integer is an `int` and no text has a NUL, and nowhere else (`boundaries_exact_iff`).
-/

open Machinery

namespace ManagementSensors.JsonBoundary

open QuantumSafeHttp (Config Env World Request Effect configIp readConfigIp)

variable {κ A : Type} {ι : Type}

/-! ## What a document holds -/

/-- What a decoder reads: an integer, and the texts that go with it. -/
abbrev Fields (ι : Type) := ι × List String

/-- The fields of a `config_ip` document, where `integer` reads its integer. -/
def configIpFields (integer : Json String → Option ι) (obj : Message) : Option (Fields ι) := do
  let sensorId ← (Json.member "sensor_id" obj).bind integer
  let ip ← (Json.member "ip" obj).bind Json.asString
  return (sensorId, [ip])

/-- Those of a `telemetry/state` document. -/
def telemetryFields (integer : Json String → Option ι) (obj : Message) : Option (Fields ι) := do
  let sensorId ← (Json.member "sensor_id" obj).bind integer
  let _ ← (Json.member "temp" obj).bind Json.asDouble
  return (sensorId, [])

/-- Those of a `config/events` document. -/
def configEventFields (integer : Json String → Option ι) (obj : Message) : Option (Fields ι) := do
  let payload ← (Json.member "payload" obj).bind Json.asObject
  let sensorId ← (Json.member "sensor_id" payload).bind integer
  let hostname ← (Json.member "hostname" payload).bind Json.asString
  let ip ← (Json.member "ip_address" payload).bind Json.asString
  let _ ← (Json.member "is_active" payload).bind Json.asBool
  let _ ← (Json.member "action" payload).bind Json.asString
  let _ ← (Json.member "request_id" payload).bind Json.asInt64
  return (sensorId, [hostname, ip])

/-- An `int`. -/
def IsInt (n : ℤ) : Prop := -2 ^ 31 ≤ n ∧ n < 2 ^ 31

/-- Fields that an `int` and C strings can hold. -/
def Fits (d : Fields Int64) : Prop := IsInt d.1.toInt ∧ ∀ t ∈ d.2, '\x00' ∉ t.toList

/-- What the decoders make of fields. -/
def narrow (d : Fields Int64) : Fields SensorId := (d.1.toInt32, d.2.map cStr)

/-- The same sensor and the same texts. -/
def Same (p : Fields SensorId) (d : Fields ℤ) : Prop := p.1.toInt = d.1 ∧ p.2 = d.2

/-- **Exact**: what is passed on is what the document holds, and nothing is where its integer is no
`int`. -/
def Exact (holds : Option (Fields ℤ)) (passed : Option (Fields SensorId)) : Prop :=
  (∀ p ∈ passed, ∃ d ∈ holds, Same p d) ∧ ∀ d ∈ holds, ¬ IsInt d.1 → passed = none

theorem toInt_toInt32_iff {n : Int64} : n.toInt32.toInt = n.toInt ↔ IsInt n.toInt := by
  constructor
  · intro h
    rw [← h]
    exact ⟨Int32.le_toInt _, Int32.toInt_lt _⟩
  · rintro ⟨hlow, hhigh⟩
    rw [Int64.toInt_toInt32, Int.bmod_eq_of_le] <;> omega

theorem cStr_eq_iff {t : String} : cStr t = t ↔ '\x00' ∉ t.toList := by
  constructor
  · intro h
    rw [← h, cStr, String.toList_ofList]
    exact fun hmem => absurd (List.mem_takeWhile_imp hmem) (by simp)
  · exact cStr_eq_self

/-- **What is narrowed is the same** where it fits. -/
theorem same_narrow_iff {d : Fields Int64} : Same (narrow d) (d.1.toInt, d.2) ↔ Fits d := by
  have htexts : d.2.map cStr = d.2 ↔ ∀ t ∈ d.2, '\x00' ∉ t.toList := by
    have hid : d.2.map cStr = d.2 ↔ d.2.map cStr = d.2.map id := by rw [List.map_id]
    rw [hid, List.map_inj_left]
    exact forall₂_congr fun _ _ => cStr_eq_iff
  exact and_congr toInt_toInt32_iff htexts

/-- A decoder that narrows what it reads is exact where that fits. -/
theorem exact_iff {holds : Option (Fields ℤ)} {fields : Option (Fields Int64)}
    (h : ∀ d ∈ fields, holds = some (d.1.toInt, d.2)) :
    Exact holds (fields.map narrow) ↔ ∀ d ∈ fields, Fits d := by
  cases fields with
  | none => simp [Exact]
  | some d =>
    obtain rfl := h d rfl
    simp only [Exact, Option.map_some, Option.mem_def, Option.some.injEq, forall_eq', exists_eq_left',
      same_narrow_iff, reduceCtorEq, imp_false, not_not]
    exact and_iff_left_of_imp fun hfits => hfits.1

/-! ## The three decoders -/

theorem configIpFields_asInteger {obj : Message} {d : Fields Int64}
    (h : d ∈ configIpFields Json.asInt64 obj) :
    configIpFields Json.asInteger obj = some (d.1.toInt, d.2) := by
  simp only [configIpFields, Option.mem_def, Option.bind_eq_bind, Option.bind_eq_some_iff,
    Option.pure_def, Option.some.injEq] at h
  obtain ⟨n, ⟨v, hv, hn⟩, ip, ⟨u, hu, hip⟩, rfl⟩ := h
  simp [configIpFields, hv, hu, hip, Json.asInteger_of_asInt64 hn]

theorem telemetryFields_asInteger {obj : Message} {d : Fields Int64}
    (h : d ∈ telemetryFields Json.asInt64 obj) :
    telemetryFields Json.asInteger obj = some (d.1.toInt, d.2) := by
  simp only [telemetryFields, Option.mem_def, Option.bind_eq_bind, Option.bind_eq_some_iff,
    Option.pure_def, Option.some.injEq] at h
  obtain ⟨n, ⟨v, hv, hn⟩, temp, ⟨u, hu, htemp⟩, rfl⟩ := h
  simp [telemetryFields, hv, hu, htemp, Json.asInteger_of_asInt64 hn]

theorem configEventFields_asInteger {obj : Message} {d : Fields Int64}
    (h : d ∈ configEventFields Json.asInt64 obj) :
    configEventFields Json.asInteger obj = some (d.1.toInt, d.2) := by
  simp only [configEventFields, Option.mem_def, Option.bind_eq_bind, Option.bind_eq_some_iff,
    Option.pure_def, Option.some.injEq] at h ⊢
  obtain ⟨payload, hpayload, n, ⟨v, hv, hn⟩, rest⟩ := h
  obtain ⟨hostname, hhostname, ip, hip, act, hact, action, haction, r, hr, rfl⟩ := rest
  exact ⟨payload, hpayload, n.toInt, ⟨v, hv, Json.asInteger_of_asInt64 hn⟩, hostname, hhostname, ip,
    hip, act, hact, action, haction, r, hr, rfl⟩

/-- The arguments of `upsert_sensor_state`, if it is called. -/
def telemetryPassed (obj : Message) : Option (Fields SensorId) :=
  (readTelemetry obj).map fun a => (a.1, [])

theorem telemetryPassed_eq (obj : Message) :
    telemetryPassed obj = (telemetryFields Json.asInt64 obj).map narrow := by
  rw [telemetryPassed, readTelemetry, telemetryFields]
  cases (Json.member "sensor_id" obj).bind Json.asInt64 <;>
    cases (Json.member "temp" obj).bind Json.asDouble <;> rfl

/-- Those of `upsert_sensor_config`. -/
def configEventPassed (obj : Message) : Option (Fields SensorId) :=
  (readConfigEvent obj).join.map fun e => (e.sensorId, [e.hostname, e.ip])

theorem configEventPassed_eq (obj : Message) :
    configEventPassed obj = (configEventFields Json.asInt64 obj).map narrow := by
  rw [configEventPassed, readConfigEvent, configEventFields, Json.contains]
  cases hmember : Json.member "payload" obj with
  | none => rfl
  | some v =>
    cases hobj : v.asObject with
    | none => simp [hobj]
    | some payload =>
      simp only [Option.isSome_some, if_true, Option.bind_some, hobj, Option.bind_eq_bind]
      cases (Json.member "sensor_id" payload).bind Json.asInt64 <;> [rfl; skip]
      cases (Json.member "hostname" payload).bind Json.asString <;> [rfl; skip]
      cases (Json.member "ip_address" payload).bind Json.asString <;> [rfl; skip]
      cases (Json.member "is_active" payload).bind Json.asBool <;> [rfl; skip]
      cases (Json.member "action" payload).bind Json.asString <;> [rfl; skip]
      cases (Json.member "request_id" payload).bind Json.asInt64 <;> rfl

/-- `config_ip` reads a document as the two others do. -/
theorem readConfigIp_eq (h : Config A) (env : Env κ) (body : String) :
    ((readConfigIp h env body).toOption.map fun q => (q.sensorId, [q.ip])) =
      (((h.json.parse body).bind Json.asObject).bind (configIpFields Json.asInt64)).map narrow := by
  rw [readConfigIp]
  cases (h.json.parse body).bind Json.asObject with
  | none => rfl
  | some obj =>
    rw [Option.bind_some, configIpFields]
    simp only [Json.contains]
    rcases Option.eq_none_or_eq_some (Json.member "sensor_id" obj) with hn | ⟨n, hn⟩
    · simp [hn, Except.toOption]
    rcases Option.eq_none_or_eq_some (Json.member "ip" obj) with hip | ⟨ip, hip⟩
    · simp [hn, hip, Except.toOption]
    cases hint : n.asInt64 <;> cases hstr : ip.asString <;>
      simp [hn, hip, hint, hstr, Except.toOption, narrow]

/-- A call of the database. -/
def DatabaseCall : Effect → Prop
  | .generatedRequestId | .addedPendingConfig _ _ => True
  | _ => False

/-- **The calls of the database in `config_ip`**: none, unless a request has been read, and only for
that request. -/
theorem configIp_calls {h : Config A} {env : Env κ} {w : World κ A} {req : Request} {e : Effect}
    (he : e ∈ (configIp h env w req).effects) (hcall : DatabaseCall e) :
    h.dispatcher = true ∧ h.db = true ∧ ∃ q, readConfigIp h env req.body = .ok q ∧
      ∀ q' r, e = .addedPendingConfig q' r → q' = q := by
  have hnone : e ∉ [Effect.configIp] := fun hmem => by
    obtain rfl := List.mem_singleton.mp hmem
    exact hcall
  rw [configIp] at he
  split at he
  case isTrue => exact absurd he hnone
  case isFalse hconfigured =>
    simp only [Bool.or_eq_true, Bool.not_eq_true', not_or, Bool.not_eq_false] at hconfigured
    split at he
    case h_1 => exact absurd he hnone
    case h_2 q hread =>
      refine ⟨hconfigured.1, hconfigured.2, q, hread, ?_⟩
      rintro q' r rfl
      revert he
      rcases configIpCalls h.inet env.calls q w.db w.dispatcher with
        ⟨_ | r | ⟨r, status⟩, db, dispatcher⟩ <;> simp +contextual

/-- An empty database, with a sequence to take identifiers from. -/
def emptyDb (A : Type) : Db A where
  certs := []
  config := []
  pending := []
  state := []
  requestIdSeq := some ⟨1, false⟩
  configKey := List.nodup_nil
  certUnique := List.nodup_nil
  certRef := List.forall_mem_nil _
  pendingKey := List.nodup_nil
  pendingRef := List.forall_mem_nil _
  stateKey := List.nodup_nil
  stateRef := List.forall_mem_nil _

/-- The calls of an hour in which nothing else happens. -/
def quietCalls (κ : Type) : CallEnv κ := ⟨.up, .up, fun _ d => (.timeout, d)⟩

/-- **A request that has been read reaches the database.** -/
theorem configIp_reaches {h : Config A} {env : Env κ} {q : ConfigRequest} (w : World κ A)
    (req : Request) (hd : h.dispatcher = true) (hdb : h.db = true)
    (hcalls : env.calls = quietCalls κ) (hw : w.db = emptyDb A)
    (hread : readConfigIp h env req.body = .ok q) :
    .generatedRequestId ∈ (configIp h env w req).effects ∧
      .addedPendingConfig q 1 ∈ (configIp h env w req).effects := by
  have hresult : (configIpCalls h.inet (quietCalls κ) q (emptyDb A) w.dispatcher).1 = .notAdded 1 ∨
      ∃ status, (configIpCalls h.inet (quietCalls κ) q (emptyDb A) w.dispatcher).1 =
        .answered 1 status := by
    have hgenerate : (generateRequestId (quietCalls κ).generateLink (emptyDb A)).result = .ok 1 := rfl
    simp only [configIpCalls, hgenerate]
    split
    · exact Or.inl rfl
    · exact Or.inr ⟨_, rfl⟩
  rw [configIp, hd, hdb, hread, hcalls, hw]
  simp only [Bool.not_true, Bool.or_self, Bool.false_eq_true, if_false]
  revert hresult
  rcases configIpCalls h.inet (quietCalls κ) q (emptyDb A) w.dispatcher with ⟨result, db, dispatcher⟩
  rintro (rfl | ⟨status, rfl⟩) <;> simp

/-! ## Exact -/

/-- The object in the body of a request. -/
def document (h : Config A) (body : String) : Option Message := (h.json.parse body).bind Json.asObject

/-- **`config_ip` is exact on a body**, whatever it meets. -/
def ConfigIpExact (κ : Type) (h : Config A) (body : String) : Prop :=
  ∀ (env : Env κ) (w : World κ A) (req : Request), req.body = body →
    (∀ q r, .addedPendingConfig q r ∈ (configIp h env w req).effects →
      ∃ d ∈ (document h body).bind (configIpFields Json.asInteger), Same (q.sensorId, [q.ip]) d) ∧
    ∀ d ∈ (document h body).bind (configIpFields Json.asInteger), ¬ IsInt d.1 →
      ∀ e ∈ (configIp h env w req).effects, ¬ DatabaseCall e

/-- The handler of `telemetry/state` is exact on a document. -/
def TelemetryExact (obj : Message) : Prop :=
  Exact (telemetryFields Json.asInteger obj) (telemetryPassed obj)

/-- The handler of `config/events` is exact on a document. -/
def ConfigEventExact (obj : Message) : Prop :=
  Exact (configEventFields Json.asInteger obj) (configEventPassed obj)

/-- `config_ip` is exact where what it reads is. -/
theorem configIpExact_iff (h : Config A) (body : String) : ConfigIpExact κ h body ↔
    (h.dispatcher = true → h.db = true →
      ∀ d ∈ (document h body).bind (configIpFields Json.asInt64), Fits d) := by
  have hread : ∀ env : Env κ, ((readConfigIp h env body).toOption.map fun q => (q.sensorId, [q.ip])) =
      ((document h body).bind (configIpFields Json.asInt64)).map narrow := fun env =>
    readConfigIp_eq h env body
  have hfields : ∀ d ∈ (document h body).bind (configIpFields Json.asInt64),
      (document h body).bind (configIpFields Json.asInteger) = some (d.1.toInt, d.2) := by
    intro d hd
    obtain ⟨obj, hobj, hd⟩ := Option.bind_eq_some_iff.mp hd
    rw [hobj, Option.bind_some, configIpFields_asInteger hd]
  generalize (document h body).bind (configIpFields Json.asInt64) = fields at hread hfields ⊢
  constructor
  · intro hexact hd hdb d hmem
    obtain rfl : fields = some d := hmem
    let env : Env κ := ⟨0, none, quietCalls κ, "", fun _ => .noSuchFile, ""⟩
    let req : Request := ⟨.post, "/api/config_ip", [], true, body⟩
    obtain ⟨q, hq, hnarrow⟩ : ∃ q, readConfigIp h env body = .ok q ∧
        (q.sensorId, [q.ip]) = narrow d := by
      have hread := hread env
      cases hq : readConfigIp h env body with
      | error why => simp [hq, Except.toOption] at hread
      | ok q => exact ⟨q, rfl, by simpa [hq, Except.toOption] using hread⟩
    obtain ⟨-, hadded⟩ := configIp_reaches ⟨emptyDb A, {}, []⟩ req hd hdb rfl rfl hq
    obtain ⟨d', hd', hsame⟩ := (hexact env ⟨emptyDb A, {}, []⟩ req rfl).1 q 1 hadded
    obtain rfl := Option.some.inj ((hfields d rfl).symm.trans hd')
    rw [hnarrow] at hsame
    exact same_narrow_iff.mp hsame
  · rintro hfits env w req rfl
    -- Whatever call is made, it is made for fields that fit.
    have hcall : ∀ e ∈ (configIp h env w req).effects, DatabaseCall e → ∃ q d, fields = some d ∧
        Fits d ∧ (q.sensorId, [q.ip]) = narrow d ∧ ∀ q' r, e = .addedPendingConfig q' r → q' = q := by
      intro e he hcall
      obtain ⟨hd, hdb, q, hq, hadded⟩ := configIp_calls he hcall
      have hread := hread env
      rw [hq] at hread
      cases fields with
      | none => cases hread
      | some d => exact ⟨q, d, rfl, hfits hd hdb d rfl, Option.some.inj hread, hadded⟩
    refine ⟨fun q r he => ?_, fun d hd hno e he hdb => ?_⟩
    · obtain ⟨q', d, rfl, hfit, hnarrow, hadded⟩ := hcall _ he trivial
      obtain rfl := hadded q r rfl
      exact ⟨_, hfields d rfl, hnarrow ▸ same_narrow_iff.mpr hfit⟩
    · obtain ⟨q, d', rfl, hfit, -, -⟩ := hcall e he hdb
      obtain rfl := Option.some.inj ((hfields d' rfl).symm.trans hd)
      exact hno hfit.1

/-- **What crosses the three boundaries unchanged**: an `int`, and texts without NUL. -/
theorem boundaries_exact_iff (κ A : Type) :
    (∀ (h : Config A) (body : String), ConfigIpExact κ h body ↔
      (h.dispatcher = true → h.db = true →
        ∀ d ∈ (document h body).bind (configIpFields Json.asInt64), Fits d)) ∧
    (∀ obj : Message, TelemetryExact obj ↔ ∀ d ∈ telemetryFields Json.asInt64 obj, Fits d) ∧
    ∀ obj : Message, ConfigEventExact obj ↔ ∀ d ∈ configEventFields Json.asInt64 obj, Fits d := by
  refine ⟨configIpExact_iff, fun obj => ?_, fun obj => ?_⟩
  · rw [TelemetryExact, telemetryPassed_eq]
    exact exact_iff fun _ => telemetryFields_asInteger
  · rw [ConfigEventExact, configEventPassed_eq]
    exact exact_iff fun _ => configEventFields_asInteger

/-- The temperature of sensor 2 ^ 32 + 3. -/
def farTemp : Message := [("sensor_id", .int64 4294967299), ("temp", .double 20)]

/-- **Two integers, one sensor**: the temperature is written for sensor 3. -/
theorem not_boundaries_exact : telemetryPassed farTemp = some (3, []) ∧ ¬ TelemetryExact farTemp := by
  have hpassed : telemetryPassed farTemp = some (3, []) := by decide
  refine ⟨hpassed, ?_⟩
  rw [TelemetryExact, hpassed]
  rintro ⟨hsame, -⟩
  obtain ⟨d, hd, hsensor, -⟩ := hsame _ rfl
  obtain rfl : d = (4294967299, []) := by
    rw [Option.mem_def] at hd
    exact (Option.some.inj hd).symm
  exact absurd hsensor (by decide)

end ManagementSensors.JsonBoundary
