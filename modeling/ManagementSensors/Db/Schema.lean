import Mathlib.Data.List.Nodup
import Mathlib.Data.List.TakeWhile
import Mathlib.Data.Rat.Floor
import ManagementSensors.Server.Dispatcher

/-!
# Db/Schema — the tables of the pipeline, with their constraints

`sensor_certs`, `sensor_config`, `sensor_config_pending`, `sensor_state` and the sequence
`request_id_seq`.  The constraints PostgreSQL enforces are fields of `Db`, so a table that breaks one
cannot be built: a statement either says why its result keeps them, or is refused.

INET is a parameter (`InetType`): its text input, its text output, which reads back as the same
value, and its cast to TEXT, which shows the mask where the output leaves it out.  The timestamps and
the descriptive columns of a certificate are read by no function of the pipeline and are left out.
-/

namespace ManagementSensors

/-- `int sensor_id`, and the column type INT. -/
abbrev SensorId := Int32

/-- `std::string(s.c_str())`. -/
def cStr (s : String) : String := String.ofList (s.toList.takeWhile (· ≠ '\x00'))

theorem cStr_eq_self {s : String} (h : '\x00' ∉ s.toList) : cStr s = s := by
  have htake : s.toList.takeWhile (· ≠ '\x00') = s.toList :=
    List.takeWhile_eq_self_iff.mpr fun c hc => by
      simp only [ne_eq, decide_not, Bool.not_eq_true', decide_eq_false_iff_not]
      rintro rfl
      exact h hc
  rw [cStr, htake, String.ofList_toList]

/-- PostgreSQL's INET: what a text parameter is read as, what a value is shown as, and what its cast
to TEXT is. -/
structure InetType (A : Type) where
  parse : String → Option A
  render : A → String
  text : A → String
  parse_render : ∀ a, parse (render a) = some a
  render_noNul : ∀ a, '\x00' ∉ (render a).toList

/-- The CHECK on `sensor_config_pending.status`. -/
inductive PendingStatus
  | pending
  | success
  | error
  | timeout
  deriving DecidableEq, Repr

/-- A row of `sensor_config_pending`. -/
structure PendingRow (A : Type) where
  requestId : Int64
  sensorId : SensorId
  requestedHostname : Option String
  requestedIp : A
  requestedIsActive : Option Bool
  status : PendingStatus
  deriving DecidableEq, Repr

/-- A row of `sensor_config`. -/
structure ConfigRow (A : Type) where
  sensorId : SensorId
  hostname : String
  ipAddress : A
  isActive : Option Bool
  certId : Int32
  requestId : Option Int64
  deriving DecidableEq, Repr

namespace ConfigRow

variable {A : Type} {s : SensorId} {hostname : String} {ip : A} {isActive : Bool} {r : Int64}
  {row : ConfigRow A}

/-- The row, with the columns an UPDATE of sensor `s` sets. -/
def update (s : SensorId) (hostname : String) (ip : A) (isActive : Bool) (r : Int64)
    (row : ConfigRow A) : ConfigRow A :=
  if row.sensorId = s then
    { row with hostname := hostname, ipAddress := ip, isActive := some isActive, requestId := some r }
  else row

@[simp] theorem update_sensorId : (row.update s hostname ip isActive r).sensorId = row.sensorId := by
  rw [update]; split <;> rfl

@[simp] theorem update_certId : (row.update s hostname ip isActive r).certId = row.certId := by
  rw [update]; split <;> rfl

@[simp] theorem sensorId_comp_update :
    sensorId ∘ update s hostname ip isActive r = sensorId (A := A) := funext fun _ => update_sensorId

@[simp] theorem certId_comp_update :
    certId ∘ update s hostname ip isActive r = certId (A := A) := funext fun _ => update_certId

end ConfigRow

/-- **NUMERIC(5, 2)**: a number of hundredths, of five digits at most. -/
structure Numeric52 where
  hundredths : ℤ
  bounded : hundredths.natAbs < 100000
  deriving DecidableEq

/-- A number as NUMERIC(5, 2) takes it: rounded to hundredths, halves away from zero, and refused if
that has more than five digits. -/
def numeric52 (x : ℚ) : Option Numeric52 :=
  let n := if 0 ≤ x then ⌊100 * x + 1 / 2⌋ else -⌊-(100 * x) + 1 / 2⌋
  if h : n.natAbs < 100000 then some ⟨n, h⟩ else none

/-- A row of `sensor_state`. -/
structure StateRow where
  sensorId : SensorId
  currentTemp : Option Numeric52
  deriving DecidableEq

/-- The row, with the temperature an UPDATE of sensor `s` sets. -/
def StateRow.update (s : SensorId) (temp : Numeric52) (row : StateRow) : StateRow :=
  if row.sensorId = s then { row with currentTemp := some temp } else row

@[simp] theorem StateRow.update_sensorId {s : SensorId} {temp : Numeric52} {row : StateRow} :
    (row.update s temp).sensorId = row.sensorId := by
  rw [update]; split <;> rfl

@[simp] theorem StateRow.sensorId_comp_update {s : SensorId} {temp : Numeric52} :
    sensorId ∘ update s temp = sensorId := funext fun _ => update_sensorId

/-- `request_id_seq`: its last value, and whether that value has been handed out. -/
structure Sequence where
  lastValue : ℕ
  isCalled : Bool
  deriving DecidableEq, Repr

/-- **The database.** -/
structure Db (A : Type) where
  certs : List Int32
  config : List (ConfigRow A)
  pending : List (PendingRow A)
  state : List StateRow
  requestIdSeq : Option Sequence
  configKey : (config.map ConfigRow.sensorId).Nodup
  certUnique : (config.map ConfigRow.certId).Nodup
  certRef : ∀ r ∈ config, r.certId ∈ certs
  pendingKey : (pending.map PendingRow.requestId).Nodup
  pendingRef : ∀ p ∈ pending, p.sensorId ∈ config.map ConfigRow.sensorId
  stateKey : (state.map StateRow.sensorId).Nodup
  stateRef : ∀ row ∈ state, row.sensorId ∈ config.map ConfigRow.sensorId

namespace Db

variable {A : Type}

/-- The row of `sensor_config` for a sensor. -/
def configOf (db : Db A) (s : SensorId) : Option (ConfigRow A) :=
  db.config.find? fun r => r.sensorId = s

theorem configOf_mem {db : Db A} {s : SensorId} {r : ConfigRow A} (h : db.configOf s = some r) :
    r ∈ db.config ∧ r.sensorId = s :=
  ⟨List.mem_of_find?_eq_some h, by simpa using List.find?_some h⟩

theorem configOf_eq_none {db : Db A} {s : SensorId} :
    db.configOf s = none ↔ s ∉ db.config.map ConfigRow.sensorId := by
  simp [configOf]

/-- **The primary key of `sensor_config_pending`**: one row for a request identifier. -/
theorem pending_unique {db : Db A} {p q : PendingRow A} (hp : p ∈ db.pending) (hq : q ∈ db.pending)
    (h : p.requestId = q.requestId) : p = q :=
  List.inj_on_of_nodup_map db.pendingKey hp hq h

/-! ## Statements -/

/-- `INSERT INTO sensor_config_pending`: refused on a duplicate `request_id` and on an unknown
`sensor_id`. -/
def insertPending (db : Db A) (p : PendingRow A) : Option (Db A) :=
  if h : p.requestId ∉ db.pending.map PendingRow.requestId ∧
      p.sensorId ∈ db.config.map ConfigRow.sensorId then
    some { db with
      pending := db.pending ++ [p]
      pendingKey := by
        rw [List.map_append, List.nodup_append]
        refine ⟨db.pendingKey, List.nodup_singleton _, ?_⟩
        rintro a ha b hb rfl
        obtain rfl : a = p.requestId := by simpa using hb
        exact h.1 ha
      pendingRef := fun q hq => by
        rcases List.mem_append.mp hq with hq | hq
        · exact db.pendingRef q hq
        · rw [List.mem_singleton.mp hq]
          exact h.2 }
  else none

/-- `DO UPDATE SET hostname, ip_address, is_active, request_id`, on the row of a sensor. -/
def updateConfig (db : Db A) (s : SensorId) (hostname : String) (ip : A) (isActive : Bool)
    (r : Int64) : Db A where
  certs := db.certs
  config := db.config.map (ConfigRow.update s hostname ip isActive r)
  pending := db.pending
  state := db.state
  requestIdSeq := db.requestIdSeq
  configKey := by simpa using db.configKey
  certUnique := by simpa using db.certUnique
  certRef row hrow := by
    obtain ⟨row', hrow', rfl⟩ := List.mem_map.mp hrow
    simpa using db.certRef row' hrow'
  pendingKey := db.pendingKey
  pendingRef := by simpa using db.pendingRef
  stateKey := db.stateKey
  stateRef := by simpa using db.stateRef

/-- `INSERT INTO sensor_config`, where no row of the sensor stands in the way: refused on a
certificate that does not exist or that another sensor has. -/
def insertConfig (db : Db A) (row : ConfigRow A) : Option (Db A) :=
  if h : row.sensorId ∉ db.config.map ConfigRow.sensorId ∧
      row.certId ∉ db.config.map ConfigRow.certId ∧ row.certId ∈ db.certs then
    some { db with
      config := db.config ++ [row]
      configKey := by
        rw [List.map_append, List.nodup_append]
        refine ⟨db.configKey, List.nodup_singleton _, ?_⟩
        rintro a ha b hb rfl
        obtain rfl : a = row.sensorId := by simpa using hb
        exact h.1 ha
      certUnique := by
        rw [List.map_append, List.nodup_append]
        refine ⟨db.certUnique, List.nodup_singleton _, ?_⟩
        rintro a ha b hb rfl
        obtain rfl : a = row.certId := by simpa using hb
        exact h.2.1 ha
      certRef := fun r hr => by
        rcases List.mem_append.mp hr with hr | hr
        · exact db.certRef r hr
        · rw [List.mem_singleton.mp hr]
          exact h.2.2
      pendingRef := fun p hp => by
        rw [List.map_append]
        exact List.mem_append_left _ (db.pendingRef p hp)
      stateRef := fun row' hrow' => by
        rw [List.map_append]
        exact List.mem_append_left _ (db.stateRef row' hrow') }
  else none

/-- `INSERT INTO sensor_state … ON CONFLICT DO UPDATE`: refused on an unknown `sensor_id`. -/
def upsertState (db : Db A) (s : SensorId) (temp : Numeric52) : Option (Db A) :=
  if href : s ∈ db.config.map ConfigRow.sensorId then
    if hold : s ∈ db.state.map StateRow.sensorId then
      some { db with
        state := db.state.map (StateRow.update s temp)
        stateKey := by simpa using db.stateKey
        stateRef := by simpa using db.stateRef }
    else
      some { db with
        state := db.state ++ [⟨s, some temp⟩]
        stateKey := by
          rw [List.map_append, List.nodup_append]
          refine ⟨db.stateKey, List.nodup_singleton _, ?_⟩
          rintro a ha b hb rfl
          obtain rfl : a = s := by simpa using hb
          exact hold ha
        stateRef := fun row hrow => by
          rcases List.mem_append.mp hrow with hrow | hrow
          · exact db.stateRef row hrow
          · rw [List.mem_singleton.mp hrow]
            exact href }
  else none

/-! ## What a statement leaves as it was -/

variable {db db' : Db A} {p : PendingRow A}

theorem insertPending_eq (h : db.insertPending p = some db') :
    db'.pending = db.pending ++ [p] ∧ db'.config = db.config ∧
      db'.requestIdSeq = db.requestIdSeq ∧ p.requestId ∉ db.pending.map PendingRow.requestId := by
  rw [insertPending] at h
  split at h
  case isTrue hp =>
    cases h
    exact ⟨rfl, rfl, rfl, hp.1⟩
  case isFalse => cases h

@[simp] theorem updateConfig_pending {s : SensorId} {hostname : String} {ip : A} {act : Bool}
    {r : Int64} : (db.updateConfig s hostname ip act r).pending = db.pending := rfl

@[simp] theorem updateConfig_requestIdSeq {s : SensorId} {hostname : String} {ip : A} {act : Bool}
    {r : Int64} : (db.updateConfig s hostname ip act r).requestIdSeq = db.requestIdSeq := rfl

theorem insertConfig_eq {row : ConfigRow A} (h : db.insertConfig row = some db') :
    db'.config = db.config ++ [row] ∧ db'.pending = db.pending ∧
      db'.requestIdSeq = db.requestIdSeq := by
  rw [insertConfig] at h
  split at h
  case isTrue =>
    cases h
    exact ⟨rfl, rfl, rfl⟩
  case isFalse => cases h

/-- The row of a sensor after an update: the certificate, and the rows of other sensors, are as they
were. -/
theorem configOf_updateConfig {s s' : SensorId} {hostname : String} {ip : A} {act : Bool}
    {r : Int64} : (db.updateConfig s hostname ip act r).configOf s' =
      (db.configOf s').map (ConfigRow.update s hostname ip act r) := by
  rw [configOf, configOf, updateConfig, List.find?_map]
  congr 2
  funext row
  simp

theorem configOf_insertConfig {row : ConfigRow A} (h : db.insertConfig row = some db')
    (s : SensorId) : db'.configOf s = if row.sensorId = s then some row else db.configOf s := by
  have hnew : row.sensorId ∉ db.config.map ConfigRow.sensorId := by
    rw [insertConfig] at h
    split at h
    case isTrue hr => exact hr.1
    case isFalse => cases h
  rw [configOf, (insertConfig_eq h).1, List.find?_append, ← configOf]
  by_cases hs : row.sensorId = s
  · subst hs
    rw [configOf_eq_none.mpr hnew]
    simp
  · simp [hs]

end Db

/-! ## A database -/

/-- Two addresses. -/
inductive Addr
  | one
  | two
  deriving DecidableEq, Repr

/-- The addresses as INET reads and shows them. -/
def addrInet : InetType Addr where
  parse s :=
    if s = "10.0.0.1" ∨ s = "10.0.0.1/32" then some .one
    else if s = "10.0.0.2" ∨ s = "10.0.0.2/32" then some .two
    else none
  render a := match a with
    | .one => "10.0.0.1"
    | .two => "10.0.0.2"
  text a := match a with
    | .one => "10.0.0.1/32"
    | .two => "10.0.0.2/32"
  parse_render a := by cases a <;> decide
  render_noNul a := by cases a <;> decide

/-- The database of sensor 3, whose configuration was last set by request 4. -/
def oneSensor : Db Addr where
  certs := [3]
  config := [⟨3, "sensor-3", .one, some true, 3, some 4⟩]
  pending := []
  state := []
  requestIdSeq := some ⟨4, true⟩
  configKey := by decide
  certUnique := by decide
  certRef := by decide
  pendingKey := by decide
  pendingRef := by decide
  stateKey := by decide
  stateRef := by decide

end ManagementSensors
