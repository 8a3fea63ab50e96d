import ManagementSensors.Machinery.PerKey
import ManagementSensors.Mqtt.ConsumeLoop

/-!
# Mqtt/Sensors — the sensors do not meet in the controller's tables

The broker interleaves the messages of the sensors as it likes.  A message reads and writes only the
rows of its sensor (`keyLocal_handle`), so that the loop goes through a sequence exactly where it goes
through each sensor's messages alone, and then leaves each sensor the rows they do
(`sensors_isolated`); what a row shows is what was last written to it (`last_write_stays`).
-/

open Machinery

namespace ManagementSensors

variable {A : Type}

/-! ## What a message writes -/

/-- What a message asks for. -/
inductive Delivery.Write
  | state (sensorId : SensorId) (temp : ℚ)
  | config (e : ConfigEvent)
  deriving DecidableEq

/-- The sensor whose rows are written. -/
def Delivery.Write.sensor : Delivery.Write → SensorId
  | .state sensorId _ => sensorId
  | .config e => e.sensorId

/-- `mqtt_dispatch_table`, up to the call of the manager. -/
def Delivery.write? (m : Delivery) : Option Delivery.Write := do
  let obj ← m.payload.bind Json.asObject
  if m.topic = "telemetry/state" then
    let (sensorId, temp) ← readTelemetry obj
    return .state sensorId temp
  else if m.topic = "config/events" then
    let e ← readConfigEvent obj
    return .config (← e)
  else none

/-- The sensor a message is about, if it asks for a write. -/
def Delivery.sensor (m : Delivery) : Option SensorId := m.write?.map Delivery.Write.sensor

/-- The statement of a write. -/
def Delivery.Write.apply [DoubleText] (I : InetType A) (w : Delivery.Write) (db : Db A) : Option (Db A) :=
  match w with
  | .state sensorId temp => (db.upsertTemp sensorId temp).map Prod.fst
  | .config e => (db.upsertRow I e.sensorId e.hostname e.ip e.isActive e.requestId).map Prod.fst

/-- Whether the statement takes effect, if it is not refused. -/
def Link.commits : Link → Bool
  | .up => true
  | .lost _ committed => committed
  | .closed => false

/-- Whether the exception of a call leaves it, where its statement is taken or `refused`. -/
def Delivery.Write.throws (w : Delivery.Write) (link : Link) (refused : Bool) : Bool :=
  match w, link with
  | _, .up => refused
  | _, .lost .sqlError _ => true
  | _, .lost _ committed => committed && refused
  | .state _ _, .closed => true
  | .config _, .closed => false

/-- `upsert_sensor_state`, on a link: its statement takes effect or not, and it throws or not. -/
theorem upsertSensorState_eq [DoubleText] (link : Link) (s : SensorId) (temp : ℚ) (db : Db A) :
    ((upsertSensorState link s temp db).db, (upsertSensorState link s temp db).threw) =
      ((if link.commits then (db.upsertTemp s temp).map Prod.fst else none).getD db,
        Delivery.Write.throws (.state s temp) link ((db.upsertTemp s temp).map Prod.fst).isNone) := by
  rcases link with _ | _ | ⟨_ | _ | _, _ | _⟩ <;> cases hdb : db.upsertTemp s temp <;>
    simp [upsertSensorState, transact, Outcome.caught, Outcome.threw, Link.commits,
      Delivery.Write.throws, hdb]

/-- `upsert_sensor_config`, on a link. -/
theorem upsertSensorConfig_eq [DoubleText] (I : InetType A) (link : Link) (e : ConfigEvent) (db : Db A) :
    ((upsertSensorConfig I link e.sensorId e.hostname e.ip e.isActive e.requestId db).db,
      (upsertSensorConfig I link e.sensorId e.hostname e.ip e.isActive e.requestId db).threw) =
      ((if link.commits then Delivery.Write.apply I (.config e) db else none).getD db,
        Delivery.Write.throws (.config e) link (Delivery.Write.apply I (.config e) db).isNone) := by
  rw [Delivery.Write.apply]
  rcases link with _ | _ | ⟨_ | _ | _, _ | _⟩ <;>
    cases hdb : db.upsertRow I e.sensorId e.hostname e.ip e.isActive e.requestId <;>
    simp [upsertSensorConfig, transact, Outcome.caught, Outcome.threw, Link.commits,
      Delivery.Write.throws, hdb]

/-- **A message that asks for a write** takes its statement, unless that is refused or the connection
is lost before its commit. -/
theorem handle_of_write [DoubleText] {m : Delivery} {w : Delivery.Write} (I : InetType A)
    (db : Db A) (h : m.write? = some w) : handle I db m =
      ((if m.link.commits then w.apply I db else none).getD db,
        w.throws m.link (w.apply I db).isNone) := by
  unfold Delivery.write? at h
  unfold handle
  cases hobj : m.payload.bind Json.asObject with
  | none => simp [hobj] at h
  | some obj =>
    rw [hobj] at h
    by_cases htelemetry : m.topic = "telemetry/state"
    · simp only [Option.bind_eq_bind, Option.bind_some, if_pos htelemetry, Option.bind_eq_some_iff,
        Option.pure_def, Option.some.injEq] at h
      obtain ⟨⟨s, temp⟩, hread, rfl⟩ := h
      simp only [if_pos htelemetry, hread]
      exact upsertSensorState_eq m.link s temp db
    · by_cases hevent : m.topic = "config/events"
      · simp only [Option.bind_eq_bind, Option.bind_some, if_neg htelemetry, if_pos hevent,
          Option.bind_eq_some_iff, Option.pure_def, Option.some.injEq] at h
        obtain ⟨_, hread, e, rfl, rfl⟩ := h
        simp only [if_neg htelemetry, if_pos hevent, hread]
        exact upsertSensorConfig_eq I m.link e db
      · simp [htelemetry, hevent] at h

/-- A message that asks for none throws or not, whatever the database. -/
theorem handle_of_no_write [DoubleText] {m : Delivery} (I : InetType A) (db db' : Db A)
    (h : m.write? = none) :
    (handle I db m).1 = db ∧ (handle I db m).2 = (handle I db' m).2 := by
  unfold Delivery.write? at h
  unfold handle
  cases hobj : m.payload.bind Json.asObject with
  | none => exact ⟨rfl, rfl⟩
  | some obj =>
    rw [hobj] at h
    by_cases htelemetry : m.topic = "telemetry/state"
    · cases hread : readTelemetry obj with
      | none => simp [htelemetry, hread]
      | some p => simp [htelemetry, hread] at h
    · by_cases hevent : m.topic = "config/events"
      · rcases hread : readConfigEvent obj with _ | _ | e
        · simp [hevent, hread]
        · simp [hevent, hread]
        · simp [hevent, hread] at h
      · simp [htelemetry, hevent]

/-! ## The rows of a sensor -/

namespace Db

variable {db db' : Db A} {s s' : SensorId}

/-- The row of `sensor_state` for a sensor. -/
def stateOf (db : Db A) (s : SensorId) : Option StateRow := db.state.find? fun row => row.sensorId = s

/-- Another sensor has the certificate with the number of this one. -/
def CertTaken (db : Db A) (s : SensorId) : Prop := ∃ row ∈ db.config, row.sensorId ≠ s ∧ row.certId = s

/-- **The databases agree in what belongs to a sensor**: its rows, and whether its first
configuration would be taken. -/
structure SameRows (s : SensorId) (db db' : Db A) : Prop where
  config : db.configOf s = db'.configOf s
  state : db.stateOf s = db'.stateOf s
  cert : s ∈ db.certs ↔ s ∈ db'.certs
  taken : db.CertTaken s ↔ db'.CertTaken s

theorem sameRows_equivalence (s : SensorId) : Equivalence (SameRows (A := A) s) where
  refl _ := ⟨rfl, rfl, Iff.rfl, Iff.rfl⟩
  symm h := ⟨h.config.symm, h.state.symm, h.cert.symm, h.taken.symm⟩
  trans h h' := ⟨h.config.trans h'.config, h.state.trans h'.state, h.cert.trans h'.cert,
    h.taken.trans h'.taken⟩

theorem mem_config_of_configOf : s ∈ db.config.map ConfigRow.sensorId ↔ (db.configOf s).isSome := by
  rw [Option.isSome_iff_ne_none, ne_eq, configOf_eq_none, not_not]

/-! ### Temperatures -/

theorem stateOf_map_update {rows : List StateRow} {temp : Numeric52} :
    (rows.map (StateRow.update s temp)).find? (fun row => row.sensorId = s') =
      (rows.find? fun row => row.sensorId = s').map (StateRow.update s temp) := by
  rw [List.find?_map]
  congr 2
  funext row
  simp

/-- **What a temperature writes**: the row of its sensor, and nothing else. -/
theorem upsertTemp_eq [DoubleText] {temp : ℚ} {row : StateRow}
    (h : db.upsertTemp s temp = some (db', row)) :
    row = ⟨s, numeric52 (DoubleText.decimal temp)⟩ ∧
      (∀ s', db'.stateOf s' = if s = s' then some row else db.stateOf s') ∧
      db'.config = db.config ∧ db'.certs = db.certs := by
  simp only [upsertTemp, Option.bind_eq_bind, Option.bind_eq_some_iff, Option.pure_def,
    Option.some.injEq, Prod.mk.injEq] at h
  obtain ⟨t, ht, _, hstate, rfl, rfl⟩ := h
  refine ⟨by rw [ht], ?_⟩
  rw [upsertState] at hstate
  split at hstate
  case isFalse => cases hstate
  case isTrue =>
    split at hstate <;> cases hstate
    case isTrue hold =>
      refine ⟨fun s' => ?_, rfl, rfl⟩
      rw [stateOf, stateOf_map_update]
      cases hrow : db.state.find? fun row => row.sensorId = s' with
      | none =>
        have hne : s ≠ s' := by
          rintro rfl
          obtain ⟨row, hmem, hs⟩ := List.mem_map.mp hold
          simpa [hs] using List.find?_eq_none.mp hrow row hmem
        rw [if_neg hne, Option.map_none, stateOf, hrow]
      | some row =>
        have hs' : row.sensorId = s' := by simpa using List.find?_some hrow
        rw [Option.map_some, stateOf, hrow, StateRow.update, hs']
        by_cases hs : s = s'
        · subst hs
          rw [if_pos rfl, if_pos rfl, ← hs']
        · rw [if_neg hs, if_neg (Ne.symm hs)]
    case isFalse hnew =>
      refine ⟨fun s' => ?_, rfl, rfl⟩
      rw [stateOf, List.find?_append]
      by_cases hs : s = s'
      · subst hs
        have hnone : db.state.find? (fun row => row.sensorId = s) = none := by
          rw [List.find?_eq_none]
          intro row hrow hrs
          exact hnew (List.mem_map.mpr ⟨row, hrow, by simpa using hrs⟩)
        simp [hnone]
      · simp [hs, stateOf]

/-- When a temperature is taken. -/
theorem upsertTemp_isSome [DoubleText] {temp : ℚ} : (db.upsertTemp s temp).isSome ↔
    (numeric52 (DoubleText.decimal temp)).isSome ∧ (db.configOf s).isSome := by
  rw [← mem_config_of_configOf]
  cases ht : numeric52 (DoubleText.decimal temp) with
  | none => simp [upsertTemp, ht]
  | some t =>
    by_cases hs : s ∈ db.config.map ConfigRow.sensorId
    · by_cases hold : s ∈ db.state.map StateRow.sensorId <;>
        simp only [upsertTemp, upsertState, ht, hs, hold, Option.bind_eq_bind, Option.bind_some,
          dite_true, dite_false, Option.pure_def, Option.isSome_some, and_self]
    · simp only [upsertTemp, upsertState, ht, hs, Option.bind_eq_bind, Option.bind_some, dite_false,
        Option.bind_none, Option.isSome_none, Bool.false_eq_true, and_false]

/-! ### Configurations -/

theorem insertConfig_isSome {row : ConfigRow A} : (db.insertConfig row).isSome ↔
    row.sensorId ∉ db.config.map ConfigRow.sensorId ∧ row.certId ∉ db.config.map ConfigRow.certId ∧
      row.certId ∈ db.certs := by
  rw [insertConfig]
  split
  case isTrue h => exact iff_of_true rfl h
  case isFalse h => exact iff_of_false Bool.false_ne_true h

variable {I : InetType A} {hostname ip : String} {act : Bool} {r : RequestId} {row : ConfigRow A}

/-- **The rest of what a configuration writes**: its certificate is the one the sensor has, or the one
with its number, and no temperature or certificate is changed. -/
theorem upsertRow_rest (h : db.upsertRow I s hostname ip act r = some (db', row)) :
    row.certId = ((db.configOf s).map ConfigRow.certId).getD s ∧ db'.state = db.state ∧
      db'.certs = db.certs ∧ ∀ s', db'.CertTaken s' ↔ db.CertTaken s' := by
  simp only [upsertRow, Option.bind_eq_bind, Option.bind_eq_some_iff, Option.pure_def] at h
  obtain ⟨r', -, h', -, a, -, h⟩ := h
  cases hold : db.configOf s with
  | some old =>
    simp only [hold, Option.some.injEq, Prod.mk.injEq] at h
    obtain ⟨rfl, rfl⟩ := h
    refine ⟨by simp, rfl, rfl, fun s' => ?_⟩
    simp [CertTaken, updateConfig]
  | none =>
    simp only [hold, Option.bind_eq_some_iff, Option.some.injEq, Prod.mk.injEq] at h
    obtain ⟨c, hc, _, hins, rfl, rfl⟩ := h
    obtain rfl : c = s := by simpa using List.find?_some hc
    have hconfig := (insertConfig_eq hins).1
    rw [insertConfig] at hins
    split at hins <;> cases hins
    refine ⟨rfl, rfl, rfl, fun s' => ?_⟩
    simp only [CertTaken, List.mem_append, List.mem_singleton, or_and_right, exists_or,
      exists_eq_left, or_iff_left_iff_imp]
    exact fun h => absurd h.2 h.1

/-- When a configuration is taken. -/
theorem upsertRow_isSome : (db.upsertRow I s hostname ip act r).isSome ↔
    (bigint r).isSome ∧ (varchar100 hostname).isSome ∧ (I.parse ip).isSome ∧
      ((db.configOf s).isSome ∨ s ∈ db.certs ∧ ¬ db.CertTaken s) := by
  cases hr : bigint r with
  | none => simp [upsertRow, hr]
  | some r' =>
    cases hh : varchar100 hostname with
    | none => simp [upsertRow, hr, hh]
    | some h' =>
      cases ha : I.parse ip with
      | none => simp [upsertRow, hr, hh, ha]
      | some a =>
        cases hold : db.configOf s with
        | some old => simp [upsertRow, hr, hh, ha, hold]
        | none =>
          -- no row is of this sensor: a certificate with its number is another's
          have hnew := configOf_eq_none.mp hold
          have htaken : s ∈ db.config.map ConfigRow.certId ↔ db.CertTaken s := by
            rw [CertTaken, List.mem_map]
            constructor
            · rintro ⟨row, hrow, hs⟩
              exact ⟨row, hrow, fun hid => hnew (List.mem_map.mpr ⟨row, hrow, hid⟩), hs⟩
            · rintro ⟨row, hrow, -, hs⟩
              exact ⟨row, hrow, hs⟩
          by_cases hc : s ∈ db.certs
          · have hfind : db.certs.find? (fun c => c = s) = some s := by
              obtain ⟨c, hfind⟩ := Option.isSome_iff_exists.mp
                (List.find?_isSome.mpr ⟨s, hc, by simp⟩ : (db.certs.find? fun c => c = s).isSome)
              obtain rfl : c = s := by simpa using List.find?_some hfind
              exact hfind
            simp only [upsertRow, hr, hh, ha, hold, hfind, Option.bind_eq_bind, Option.bind_some,
              Option.pure_def, Option.isSome_bind, Option.isSome_some, Option.any_true,
              insertConfig_isSome, htaken, hc]
            simp [hnew]
          · have hfind : db.certs.find? (fun c => c = s) = none := by
              rw [List.find?_eq_none]
              intro c hmem hcs
              exact hc ((by simpa using hcs : c = s) ▸ hmem)
            simp [upsertRow, hr, hh, ha, hold, hfind, hc]

end Db

/-- The row a configuration writes, over the one that is there. -/
def ConfigEvent.row (I : InetType A) (e : ConfigEvent) (old : Option (ConfigRow A)) :
    Option (ConfigRow A) := do
  let hostname ← varchar100 e.hostname
  let ip ← I.parse e.ip
  return ⟨e.sensorId, hostname, ip, some e.isActive, (old.map ConfigRow.certId).getD e.sensorId,
    some e.requestId.toInt64⟩

section Loop

variable [DoubleText] {I : InetType A} {w : Delivery.Write} {db db' db₁ db₂ : Db A} {s : SensorId}

namespace Delivery.Write

theorem exists_row_of_state {temp : ℚ} (h : apply I (.state s temp) db = some db') :
    ∃ row, db.upsertTemp s temp = some (db', row) := by
  rw [apply, Option.map_eq_some_iff] at h
  obtain ⟨⟨_, row⟩, hrow, rfl⟩ := h
  exact ⟨row, hrow⟩

theorem exists_row_of_config {e : ConfigEvent} (h : apply I (.config e) db = some db') :
    ∃ row, db.upsertRow I e.sensorId e.hostname e.ip e.isActive e.requestId = some (db', row) := by
  rw [apply, Option.map_eq_some_iff] at h
  obtain ⟨⟨_, row⟩, hrow, rfl⟩ := h
  exact ⟨row, hrow⟩

/-- **What a write leaves of the configurations.** -/
theorem configOf_apply (h : w.apply I db = some db') (s : SensorId) :
    (∀ e, w = .config e → e.sensorId = s →
      ∃ row, e.row I (db.configOf s) = some row ∧ db'.configOf s = some row) ∧
    ((∀ e, w = .config e → e.sensorId ≠ s) → db'.configOf s = db.configOf s) := by
  cases w with
  | state s' temp =>
    obtain ⟨row, hrow⟩ := exists_row_of_state h
    refine ⟨nofun, fun _ => ?_⟩
    rw [Db.configOf, (Db.upsertTemp_eq hrow).2.2.1, ← Db.configOf]
  | config e =>
    obtain ⟨row, hrow⟩ := exists_row_of_config h
    obtain ⟨hs, hr, -, hhost, hip, hact, hconf, -, -⟩ := Db.upsertRow_eq hrow
    refine ⟨?_, fun hne => by rw [hconf, if_neg (hne e rfl)]⟩
    intro e' he hs'
    cases he
    subst hs'
    refine ⟨row, ?_, by rw [hconf, if_pos rfl]⟩
    simp only [ConfigEvent.row, hhost, hip, Option.bind_eq_bind, Option.bind_some, Option.pure_def,
      ← (Db.upsertRow_rest hrow).1]
    rw [← hs, ← hr, ← hact]

/-- **What a write leaves of the temperatures.** -/
theorem stateOf_apply (h : w.apply I db = some db') (s : SensorId) :
    (∀ temp, w = .state s temp → db'.stateOf s = some ⟨s, numeric52 (DoubleText.decimal temp)⟩) ∧
    ((∀ temp, w ≠ .state s temp) → db'.stateOf s = db.stateOf s) := by
  cases w with
  | state s' temp =>
    obtain ⟨row, hrow⟩ := exists_row_of_state h
    obtain ⟨hrow', hstate, -, -⟩ := Db.upsertTemp_eq hrow
    refine ⟨fun temp' hw => ?_, fun hne => ?_⟩
    · cases hw
      rw [hstate, if_pos rfl, hrow']
    · rw [hstate, if_neg fun hs => hne temp (by rw [hs])]
  | config e =>
    obtain ⟨row, hrow⟩ := exists_row_of_config h
    refine ⟨nofun, fun _ => ?_⟩
    rw [Db.stateOf, (Db.upsertRow_rest hrow).2.1, ← Db.stateOf]

/-- What a write leaves of the certificates. -/
theorem certs_apply (h : w.apply I db = some db') :
    db'.certs = db.certs ∧ ∀ s, db'.CertTaken s ↔ db.CertTaken s := by
  cases w with
  | state s temp =>
    obtain ⟨row, hrow⟩ := exists_row_of_state h
    obtain ⟨-, -, hconfig, hcerts⟩ := Db.upsertTemp_eq hrow
    exact ⟨hcerts, fun s => by rw [Db.CertTaken, hconfig, ← Db.CertTaken]⟩
  | config e =>
    obtain ⟨row, hrow⟩ := exists_row_of_config h
    exact (Db.upsertRow_rest hrow).2.2

/-- Whether a write is taken depends on what belongs to its sensor. -/
theorem isSome_apply (h : db₁.SameRows w.sensor db₂) :
    (w.apply I db₁).isSome = (w.apply I db₂).isSome := by
  rw [Bool.eq_iff_iff]
  cases w with
  | state s temp =>
    rw [apply, apply, Option.isSome_map, Option.isSome_map, Db.upsertTemp_isSome,
      Db.upsertTemp_isSome, show db₁.configOf s = db₂.configOf s from h.config]
  | config e =>
    rw [apply, apply, Option.isSome_map, Option.isSome_map, Db.upsertRow_isSome, Db.upsertRow_isSome,
      show db₁.configOf e.sensorId = db₂.configOf e.sensorId from h.config]
    simp only [sensor] at h
    rw [h.cert, h.taken]

/-- A write leaves what belongs to the other sensors. -/
theorem sameRows_of_ne (h : w.apply I db = some db') (hs : w.sensor ≠ s) : db.SameRows s db' where
  config := by
    refine ((configOf_apply h s).2 fun e he hse => hs ?_).symm
    rw [he, sensor, hse]
  state := by
    refine ((stateOf_apply h s).2 fun temp he => hs ?_).symm
    rw [he, sensor]
  cert := by rw [(certs_apply h).1]
  taken := ((certs_apply h).2 s).symm

/-- A write does the same to what belongs to its sensor. -/
theorem sameRows_apply {db₁' db₂' : Db A} (h : db₁.SameRows w.sensor db₂)
    (h₁ : w.apply I db₁ = some db₁') (h₂ : w.apply I db₂ = some db₂') :
    db₁'.SameRows w.sensor db₂' where
  config := by
    cases w with
    | state s temp =>
      rw [(configOf_apply h₁ _).2 nofun, (configOf_apply h₂ _).2 nofun, h.config]
    | config e =>
      obtain ⟨row₁, hrow₁, hconf₁⟩ := (configOf_apply h₁ e.sensorId).1 e rfl rfl
      obtain ⟨row₂, hrow₂, hconf₂⟩ := (configOf_apply h₂ e.sensorId).1 e rfl rfl
      have hold : db₁.configOf e.sensorId = db₂.configOf e.sensorId := h.config
      rw [hold, hrow₂] at hrow₁
      exact hconf₁.trans (hrow₁.symm.trans hconf₂.symm)
  state := by
    cases w with
    | state s temp =>
      exact ((stateOf_apply h₁ s).1 temp rfl).trans ((stateOf_apply h₂ s).1 temp rfl).symm
    | config e =>
      rw [(stateOf_apply h₁ _).2 nofun, (stateOf_apply h₂ _).2 nofun, h.state]
  cert := by rw [(certs_apply h₁).1, (certs_apply h₂).1, h.cert]
  taken := by rw [(certs_apply h₁).2, (certs_apply h₂).2, h.taken]

end Delivery.Write

/-! ## The loop -/

/-- **A round keeps to the rows of its sensor.** -/
theorem keyLocal_handle (I : InetType A) : KeyLocal (handle I) Delivery.sensor Db.SameRows where
  equiv := Db.sameRows_equivalence
  frame s db m hm := by
    cases hw : m.write? with
    | none =>
      rw [(handle_of_no_write I db db hw).1]
      exact (Db.sameRows_equivalence s).refl db
    | some w =>
      have hs : w.sensor ≠ s := by simpa [Delivery.sensor, hw] using hm
      rw [handle_of_write I db hw]
      split
      case isFalse => exact (Db.sameRows_equivalence s).refl db
      case isTrue =>
        cases happly : w.apply I db with
        | none => exact (Db.sameRows_equivalence s).refl db
        | some db' => exact w.sameRows_of_ne happly hs
  own s db₁ db₂ m hm h := by
    obtain ⟨w, hw, rfl⟩ := Option.map_eq_some_iff.mp hm
    have hsome := w.isSome_apply (I := I) h
    rw [handle_of_write I db₁ hw, handle_of_write I db₂ hw]
    refine ⟨by simp only [← Option.not_isSome, hsome], ?_⟩
    split
    case isFalse => exact h
    case isTrue =>
      cases h₁ : w.apply I db₁ with
      | none =>
        rw [h₁, Option.isSome_none] at hsome
        rw [Option.isSome_eq_false_iff.mp hsome.symm |> Option.isNone_iff_eq_none.mp]
        exact h
      | some db₁' =>
        rw [h₁, Option.isSome_some] at hsome
        obtain ⟨db₂', h₂⟩ := Option.isSome_iff_exists.mp hsome.symm
        rw [h₂]
        exact w.sameRows_apply h h₁ h₂
  keyless db₁ db₂ m hm := (handle_of_no_write I db₁ db₂ (Option.map_eq_none_iff.mp hm)).2

theorem consumeAll_eq (I : InetType A) (db : Db A) (ms : List Delivery) :
    consumeAll I db ms = takeAll (handle I) db ms := by
  induction ms generalizing db with
  | nil => rfl
  | cons m ms ih =>
    rw [consumeAll, takeAll]
    split <;> simp [*]

/-- **The sensors do not meet.**  However the broker interleaves them, the loop goes through the
messages exactly where it goes through those of each sensor alone, and those that are about none; and
then the rows of each sensor are those that its own messages leave. -/
theorem sensors_isolated (I : InetType A) (db : Db A) (ms : List Delivery) :
    ((consumeAll I db ms).2 = true ↔
      ∀ k, (consumeAll I db (messagesOf Delivery.sensor k ms)).2 = true) ∧
    ((consumeAll I db ms).2 = true → ∀ s,
      (consumeAll I db ms).1.configOf s =
        (consumeAll I db (messagesOf Delivery.sensor (some s) ms)).1.configOf s ∧
      (consumeAll I db ms).1.stateOf s =
        (consumeAll I db (messagesOf Delivery.sensor (some s) ms)).1.stateOf s) := by
  simp only [consumeAll_eq]
  refine ⟨(keyLocal_handle I).goesOn_iff, fun hgoes s => ?_⟩
  obtain ⟨-, hsame⟩ := (keyLocal_handle I).same ((Db.sameRows_equivalence s).refl db) hgoes
  exact ⟨hsame.config, hsame.state⟩

/-- **Two ways to interleave the same messages** come to the same. -/
theorem consumeAll_interleaved (I : InetType A) (db : Db A) {ms ms' : List Delivery}
    (h : ∀ k, messagesOf Delivery.sensor k ms = messagesOf Delivery.sensor k ms') :
    ((consumeAll I db ms).2 = (consumeAll I db ms').2) ∧
      ((consumeAll I db ms).2 = true → ∀ s,
        (consumeAll I db ms).1.SameRows s (consumeAll I db ms').1) := by
  simp only [consumeAll_eq]
  have hgoes : (takeAll (handle I) db ms).2 = true ↔ (takeAll (handle I) db ms').2 = true := by
    rw [(keyLocal_handle I).goesOn_iff, (keyLocal_handle I).goesOn_iff]
    simp only [h]
  refine ⟨Bool.eq_iff_iff.mpr hgoes, fun hms s => ?_⟩
  have hrefl := (Db.sameRows_equivalence s).refl db
  have hown := ((keyLocal_handle I).same hrefl hms).2
  have hown' := ((keyLocal_handle I).same hrefl (hgoes.mp hms)).2
  rw [h] at hown
  exact (Db.sameRows_equivalence s).trans hown ((Db.sameRows_equivalence s).symm hown')

/-! ## The last write -/

/-- The configuration of sensor `s` that a message writes. -/
def Delivery.configWrite (s : SensorId) (m : Delivery) : Option ConfigEvent :=
  match m.link.commits, m.write? with
  | true, some (.config e) => if e.sensorId = s then some e else none
  | _, _ => none

/-- The temperature of sensor `s` that a message writes. -/
def Delivery.stateWrite (s : SensorId) (m : Delivery) : Option ℚ :=
  match m.link.commits, m.write? with
  | true, some (.state s' temp) => if s' = s then some temp else none
  | _, _ => none

omit [DoubleText] in
theorem Delivery.Write.throws_of_commits {link : Link} (w : Delivery.Write)
    (h : link.commits = true) : w.throws link true = true := by
  rcases link with _ | _ | ⟨_ | _ | _, _ | _⟩ <;> first | rfl | cases h

variable {m : Delivery} {ms : List Delivery}

/-- What a message writes that the loop gets over is not refused. -/
theorem exists_apply_of_goesOn (hgoes : (handle I db m).2 = false) (hcommits : m.link.commits = true)
    (hw : m.write? = some w) : ∃ db', w.apply I db = some db' ∧ (handle I db m).1 = db' := by
  rw [handle_of_write I db hw] at hgoes ⊢
  cases happly : w.apply I db with
  | none =>
    rw [happly] at hgoes
    exact absurd hgoes (by simp [w.throws_of_commits hcommits])
  | some db' => exact ⟨db', rfl, by simp [hcommits]⟩

/-- A round, seen in the configuration of a sensor. -/
theorem configOf_handle (hgoes : (handle I db m).2 = false) (s : SensorId) :
    (∀ e, m.configWrite s = some e → ∃ row, e.row I (db.configOf s) = some row ∧
      (handle I db m).1.configOf s = some row) ∧
    (m.configWrite s = none → (handle I db m).1.configOf s = db.configOf s) := by
  cases hw : m.write? with
  | none => simp [Delivery.configWrite, hw, (handle_of_no_write I db db hw).1]
  | some w =>
    cases hcommits : m.link.commits with
    | false => simp [Delivery.configWrite, hcommits, handle_of_write I db hw]
    | true =>
      obtain ⟨db', happly, hdb'⟩ := exists_apply_of_goesOn hgoes hcommits hw
      obtain ⟨hown, hother⟩ := w.configOf_apply happly s
      rw [hdb']
      cases w with
      | state s' temp => simpa [Delivery.configWrite, hcommits, hw] using hother nofun
      | config e =>
        simp only [Delivery.configWrite, hcommits, hw, Option.ite_none_right_eq_some,
          Option.some.injEq, ite_eq_right_iff, reduceCtorEq, imp_false]
        refine ⟨fun e' h => ?_, fun hne => hother fun e' he => ?_⟩
        · obtain ⟨hs, rfl⟩ := h
          exact hown e rfl hs
        · cases he
          exact hne

/-- A round, seen in the temperature of a sensor. -/
theorem stateOf_handle (hgoes : (handle I db m).2 = false) (s : SensorId) :
    (∀ temp, m.stateWrite s = some temp → ∃ t, numeric52 (DoubleText.decimal temp) = some t ∧
      (handle I db m).1.stateOf s = some ⟨s, some t⟩) ∧
    (m.stateWrite s = none → (handle I db m).1.stateOf s = db.stateOf s) := by
  cases hw : m.write? with
  | none => simp [Delivery.stateWrite, hw, (handle_of_no_write I db db hw).1]
  | some w =>
    cases hcommits : m.link.commits with
    | false => simp [Delivery.stateWrite, hcommits, handle_of_write I db hw]
    | true =>
      obtain ⟨db', happly, hdb'⟩ := exists_apply_of_goesOn hgoes hcommits hw
      obtain ⟨hown, hother⟩ := w.stateOf_apply happly s
      rw [hdb']
      cases w with
      | config e => simpa [Delivery.stateWrite, hcommits, hw] using hother nofun
      | state s' temp =>
        simp only [Delivery.stateWrite, hcommits, hw, Option.ite_none_right_eq_some,
          Option.some.injEq, ite_eq_right_iff, reduceCtorEq, imp_false]
        refine ⟨fun temp' h => ?_, fun hne => hother fun temp' he => ?_⟩
        · obtain ⟨rfl, rfl⟩ := h
          have htaken : (db.upsertTemp s' temp).isSome := by
            rw [← Option.isSome_map (f := Prod.fst)]
            exact Option.isSome_iff_exists.mpr ⟨db', happly⟩
          obtain ⟨t, ht⟩ := Option.isSome_iff_exists.mp (Db.upsertTemp_isSome.mp htaken).1
          exact ⟨t, ht, by rw [hown temp rfl, ht]⟩
        · cases he
          exact hne rfl

omit [DoubleText] in
/-- A configuration over another of the same certificate. -/
theorem ConfigEvent.row_row {e e' : ConfigEvent} {old : Option (ConfigRow A)} {row : ConfigRow A}
    (h : e.row I old = some row) (hs : e'.sensorId = e.sensorId) :
    e'.row I (some row) = e'.row I old := by
  have hcert : row.certId = (old.map ConfigRow.certId).getD e.sensorId := by
    simp only [ConfigEvent.row, Option.bind_eq_bind, Option.bind_eq_some_iff, Option.pure_def,
      Option.some.injEq] at h
    obtain ⟨_, _, _, _, rfl⟩ := h
    rfl
  simp [ConfigEvent.row, hcert, hs]

omit [DoubleText] in
theorem sensorId_of_configWrite {e : ConfigEvent} (h : m.configWrite s = some e) : e.sensorId = s := by
  rw [Delivery.configWrite] at h
  split at h
  · obtain ⟨hs, he⟩ := Option.ite_none_right_eq_some.mp h
    rwa [← Option.some.inj he]
  · cases h

omit [DoubleText] in
theorem sensorId_of_lastWrite {e : ConfigEvent}
    (h : lastWrite (Delivery.configWrite s) ms = some e) : e.sensorId = s := by
  obtain ⟨m, -, hm⟩ := List.mem_filterMap.mp (List.mem_of_getLast? h)
  exact sensorId_of_configWrite hm

/-- The configurations, message by message. -/
theorem configOf_takeAll (hgoes : (takeAll (handle I) db ms).2 = true) (s : SensorId) :
    (∀ e, lastWrite (Delivery.configWrite s) ms = some e → ∃ row,
        e.row I (db.configOf s) = some row ∧ (takeAll (handle I) db ms).1.configOf s = some row) ∧
      (lastWrite (Delivery.configWrite s) ms = none →
        (takeAll (handle I) db ms).1.configOf s = db.configOf s) := by
  induction ms using List.reverseRecOn with
  | nil => exact ⟨nofun, fun _ => rfl⟩
  | append_singleton ms m ih =>
    obtain ⟨hms, hm⟩ := goesOn_concat.mp hgoes
    obtain ⟨hlast, hnone⟩ := ih hms
    obtain ⟨hwrite, hkeep⟩ := configOf_handle hm s
    rw [takeAll_concat hgoes, lastWrite_concat]
    cases he : m.configWrite s with
    | none =>
      rw [Option.none_or, hkeep he]
      exact ⟨hlast, hnone⟩
    | some e =>
      rw [Option.some_or]
      refine ⟨?_, nofun⟩
      intro e' he'
      cases he'
      obtain ⟨row, hrow, hconf⟩ := hwrite e he
      refine ⟨row, ?_, hconf⟩
      -- the certificate is that of the configuration before, which is that of the first
      cases hl : lastWrite (Delivery.configWrite s) ms with
      | none => rwa [← hnone hl]
      | some e' =>
        obtain ⟨row', hrow', hconf'⟩ := hlast e' hl
        rwa [hconf', ConfigEvent.row_row hrow'
          ((sensorId_of_configWrite he).trans (sensorId_of_lastWrite hl).symm)] at hrow

/-- The temperatures, message by message. -/
theorem stateOf_takeAll (hgoes : (takeAll (handle I) db ms).2 = true) (s : SensorId) :
    (∀ temp, lastWrite (Delivery.stateWrite s) ms = some temp → ∃ t,
        numeric52 (DoubleText.decimal temp) = some t ∧
          (takeAll (handle I) db ms).1.stateOf s = some ⟨s, some t⟩) ∧
      (lastWrite (Delivery.stateWrite s) ms = none →
        (takeAll (handle I) db ms).1.stateOf s = db.stateOf s) := by
  induction ms using List.reverseRecOn with
  | nil => exact ⟨nofun, fun _ => rfl⟩
  | append_singleton ms m ih =>
    obtain ⟨hms, hm⟩ := goesOn_concat.mp hgoes
    obtain ⟨hlast, hnone⟩ := ih hms
    obtain ⟨hwrite, hkeep⟩ := stateOf_handle hm s
    rw [takeAll_concat hgoes, lastWrite_concat]
    cases htemp : m.stateWrite s with
    | none =>
      rw [Option.none_or, hkeep htemp]
      exact ⟨hlast, hnone⟩
    | some temp =>
      rw [Option.some_or]
      refine ⟨?_, nofun⟩
      intro temp' htemp'
      cases htemp'
      exact hwrite temp htemp

/-- **The last write stays.**  When the loop has got over all messages, each sensor's configuration is
that of the last message whose upsert took effect, its certificate kept, its temperature the last one
written, and what none has written is as it was. -/
theorem last_write_stays (I : InetType A) (db : Db A) (ms : List Delivery)
    (hgoes : (consumeAll I db ms).2 = true) (s : SensorId) :
    ((∀ e, lastWrite (Delivery.configWrite s) ms = some e → ∃ row,
        e.row I (db.configOf s) = some row ∧ (consumeAll I db ms).1.configOf s = some row) ∧
      (lastWrite (Delivery.configWrite s) ms = none →
        (consumeAll I db ms).1.configOf s = db.configOf s)) ∧
    ((∀ temp, lastWrite (Delivery.stateWrite s) ms = some temp → ∃ t,
        numeric52 (DoubleText.decimal temp) = some t ∧
          (consumeAll I db ms).1.stateOf s = some ⟨s, some t⟩) ∧
      (lastWrite (Delivery.stateWrite s) ms = none →
        (consumeAll I db ms).1.stateOf s = db.stateOf s)) := by
  rw [consumeAll_eq] at hgoes ⊢
  exact ⟨configOf_takeAll hgoes s, stateOf_takeAll hgoes s⟩

end Loop

/-- The double nearest to 21.005, which is below it. -/
def nearHalf : ℚ := binary64 (21005 / 1000)

/-- Two temperatures of sensor 3, and between them its move, which is lost before the commit. -/
def threeOfSensor : List Delivery :=
  [doubleTemp, { eventDelivery addrInet 3 .two 5 with link := .lost .other false },
    ⟨"telemetry/state", some (.object [("sensor_id", .int64 3), ("temp", .double nearHalf)]), .up⟩]

open ShortestText in
/-- The second temperature stays, rounded by its text, and the old address. -/
theorem last_write_stays_three :
    (consumeAll addrInet oneSensor threeOfSensor).1.configOf 3 = oneSensor.configOf 3 ∧
      ∃ t, (consumeAll addrInet oneSensor threeOfSensor).1.stateOf 3 = some ⟨3, some t⟩ ∧
        t.hundredths = 2101 := by
  have hlast := last_write_stays addrInet oneSensor threeOfSensor (by decide +kernel) 3
  obtain ⟨t, ht, hstate⟩ := hlast.2.1 nearHalf (by decide +kernel)
  have htext : numeric52 (DoubleText.decimal nearHalf) = some ⟨2101, by decide⟩ := by decide +kernel
  obtain rfl := Option.some.inj (htext.symm.trans ht)
  exact ⟨hlast.1.2 (by decide +kernel), _, hstate, rfl⟩

end ManagementSensors
