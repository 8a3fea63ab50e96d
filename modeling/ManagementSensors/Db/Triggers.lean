import Mathlib.Logic.Function.Basic
import ManagementSensors.Machinery.Cascade
import ManagementSensors.Db.Notify

/-!
# Db/Triggers — what a notification says of the row that changed

Five trigger functions, on the five tables of the schema.  A trigger sees the row after an INSERT or an
UPDATE as NEW and the row before an UPDATE or a DELETE as OLD; a field of the one that there is not is
NULL.  A deletion cascades along the foreign keys, and fires the triggers of every row it takes.

`notify_config_change` asks which operation it is, the four others read NEW.  Two of these are declared
on DELETE: that of `sensor_config_errors` then sends NULLs, that of `sensor_certs` sends `FALSE` for
the revocation.  Every other notification describes its row (`described_iff`).

A timestamp is the text it is shown as.
-/

open Machinery Function

namespace ManagementSensors.Triggers

variable {A : Type}

/-! ## The tables -/

/-- The tables. -/
inductive Table
  | certs
  | config
  | pending
  | errors
  | state
  deriving DecidableEq, Repr

/-- A row of `sensor_certs`. -/
structure CertRow where
  certId : Int32
  commonName : Option String
  isRevoked : Option Bool
  deriving DecidableEq, Repr

/-- A row of `sensor_config_errors`. -/
structure ErrorRow where
  errorId : Int64
  requestId : Option Int64
  sensorId : SensorId
  errorCode : Option String
  errorDetail : Option String
  occurredAt : String
  deriving DecidableEq, Repr

/-- A row of `sensor_state`, with its timestamp. -/
structure TelemetryRow extends StateRow where
  lastUpdate : Option String

/-- The rows of a table. -/
abbrev Row (A : Type) : Table → Type
  | .certs => CertRow
  | .config => ConfigRow A
  | .pending => PendingRow A
  | .errors => ErrorRow
  | .state => TelemetryRow

/-- The contents of the tables. -/
abbrev Tables (A : Type) := (t : Table) → List (Row A t)

/-- `cert_id … REFERENCES sensor_certs`. -/
def certOfConfig : Reference (Row A) ℤ where
  child := .config
  parent := .certs
  foreign := fun r : ConfigRow A => some r.certId.toInt
  primary := fun c : CertRow => c.certId.toInt

/-- `sensor_config_pending.sensor_id`. -/
def sensorOfPending : Reference (Row A) ℤ where
  child := .pending
  parent := .config
  foreign := fun p : PendingRow A => some p.sensorId.toInt
  primary := fun r : ConfigRow A => r.sensorId.toInt

/-- `sensor_config_errors.request_id`, which may be NULL. -/
def requestOfError : Reference (Row A) ℤ where
  child := .errors
  parent := .pending
  foreign := fun e : ErrorRow => e.requestId.map Int64.toInt
  primary := fun p : PendingRow A => p.requestId.toInt

/-- `sensor_config_errors.sensor_id`. -/
def sensorOfError : Reference (Row A) ℤ where
  child := .errors
  parent := .config
  foreign := fun e : ErrorRow => some e.sensorId.toInt
  primary := fun r : ConfigRow A => r.sensorId.toInt

/-- `sensor_state.sensor_id`. -/
def sensorOfState : Reference (Row A) ℤ where
  child := .state
  parent := .config
  foreign := fun s : TelemetryRow => some s.sensorId.toInt
  primary := fun r : ConfigRow A => r.sensorId.toInt

/-- **The constraints of the schema**: primary keys, UNIQUE columns and foreign keys. -/
structure Valid (T : Tables A) : Prop where
  certKey : ((T .certs).map CertRow.certId).Nodup
  configKey : ((T .config).map ConfigRow.sensorId).Nodup
  certUnique : ((T .config).map ConfigRow.certId).Nodup
  pendingKey : ((T .pending).map PendingRow.requestId).Nodup
  errorKey : ((T .errors).map ErrorRow.errorId).Nodup
  requestUnique : ((T .errors).filterMap ErrorRow.requestId).Nodup
  stateKey : ((T .state).map fun s => s.sensorId).Nodup
  certRef : certOfConfig.Holds T
  pendingRef : sensorOfPending.Holds T
  errorRequestRef : requestOfError.Holds T
  errorSensorRef : sensorOfError.Holds T
  stateRef : sensorOfState.Holds T

/-! ## Statements -/

section Cascade

variable (T : Tables A) (seed : (t : Table) → Row A t → Bool)

/-- The rows of `sensor_config` that a deletion takes, with those it names. -/
def doomedConfig (r : ConfigRow A) : Bool :=
  seed .config r || certOfConfig.drags T (seed .certs) r

/-- The rows of `sensor_config_pending` that it takes. -/
def doomedPending (p : PendingRow A) : Bool :=
  seed .pending p || sensorOfPending.drags T (doomedConfig T seed) p

/-- The rows of `sensor_config_errors` that it takes. -/
def doomedErrors (e : ErrorRow) : Bool :=
  seed .errors e || requestOfError.drags T (doomedPending T seed) e ||
    sensorOfError.drags T (doomedConfig T seed) e

/-- The rows of `sensor_state` that it takes. -/
def doomedState (s : TelemetryRow) : Bool :=
  seed .state s || sensorOfState.drags T (doomedConfig T seed) s

/-- **The rows that a deletion takes.** -/
def doomed : (t : Table) → Row A t → Bool
  | .certs => seed .certs
  | .config => doomedConfig T seed
  | .pending => doomedPending T seed
  | .errors => doomedErrors T seed
  | .state => doomedState T seed

end Cascade

/-- `INSERT`, `UPDATE … SET … WHERE` and `DELETE … WHERE`, on a table. -/
inductive Statement (A : Type)
  | insert (t : Table) (rows : List (Row A t))
  | update (t : Table) (condition : Row A t → Bool) (set : Row A t → Row A t)
  | delete (t : Table) (condition : Row A t → Bool)

/-- A change of one row, as its trigger sees it. -/
inductive Change (ρ : Type)
  | insert (new : ρ)
  | update (old new : ρ)
  | delete (old : ρ)

/-- A change of a row of one of the tables. -/
abbrev RowChange (A : Type) := (t : Table) × Change (Row A t)

namespace Statement

/-- The rows that a DELETE names. -/
def named (t : Table) (condition : Row A t → Bool) : (t : Table) → Row A t → Bool :=
  Function.update (fun _ _ => false) t condition

/-- The tables after a statement. -/
def apply (T : Tables A) : Statement A → Tables A
  | .insert t rows => Function.update T t (T t ++ rows)
  | .update t condition set =>
    Function.update T t ((T t).map fun r => if condition r then set r else r)
  | .delete t condition => remove (doomed T (named t condition)) T

/-- The changes of a statement, row by row. -/
def changes (T : Tables A) : Statement A → List (RowChange A)
  | .insert t rows => rows.map fun r => ⟨t, .insert r⟩
  | .update t condition set => ((T t).filter condition).map fun r => ⟨t, .update r (set r)⟩
  | .delete t condition =>
    [Table.certs, .config, .pending, .errors, .state].flatMap fun t' =>
      ((T t').filter (doomed T (named t condition) t')).map fun r => ⟨t', .delete r⟩

end Statement

/-- The changes of a transaction. -/
def changesOf (T : Tables A) : List (Statement A) → List (RowChange A)
  | [] => []
  | stmt :: stmts => stmt.changes T ++ changesOf (stmt.apply T) stmts

/-! ## The trigger functions -/

namespace Change

variable {ρ : Type}

/-- `TG_OP`. -/
def op : Change ρ → String
  | .insert _ => "INSERT"
  | .update _ _ => "UPDATE"
  | .delete _ => "DELETE"

/-- `NEW`. -/
def new : Change ρ → Option ρ
  | .insert new => some new
  | .update _ new => some new
  | .delete _ => none

/-- `OLD`. -/
def old : Change ρ → Option ρ
  | .insert _ => none
  | .update old _ => some old
  | .delete old => some old

/-- **The row that a change is about**: that after it, or the one that is gone. -/
def row : Change ρ → ρ
  | .insert new => new
  | .update _ new => new
  | .delete old => old

end Change

/-- `notify_config_change`. -/
def notifyConfigChange (I : InetType A) (c : Change (ConfigRow A)) : Json String :=
  if c.op = "DELETE" then
    .object [
      ("action", .string "DELETE"),
      ("sensor_id", c.old.elim .null fun r => .int64 r.sensorId.toInt64),
      ("hostname", c.old.elim .null fun r => .string r.hostname),
      ("request_id", (c.old.bind ConfigRow.requestId).elim .null .int64)]
  else
    .object [
      ("action", .string c.op),
      ("sensor_id", c.new.elim .null fun r => .int64 r.sensorId.toInt64),
      ("new_ip", c.new.elim .null fun r => .string (I.text r.ipAddress)),
      ("hostname", c.new.elim .null fun r => .string r.hostname),
      ("request_id", (c.new.bind ConfigRow.requestId).elim .null .int64)]

/-- `notify_state_change`. -/
def notifyStateChange (c : Change TelemetryRow) : Json String :=
  .object [
    ("sensor_id", c.new.elim .null fun r => .int64 r.sensorId.toInt64),
    ("temp", (c.new.bind fun r => r.currentTemp).elim .null fun t => .double (t.hundredths / 100)),
    ("ts", (c.new.bind TelemetryRow.lastUpdate).elim .null .string)]

/-- `notify_cert_change`. -/
def notifyCertChange (c : Change CertRow) : Json String :=
  .object [
    ("action", .string c.op),
    ("cert_id", ((c.new.map CertRow.certId).or (c.old.map CertRow.certId)).elim .null
      fun n => .int64 n.toInt64),
    ("revoked", .bool ((c.new.bind CertRow.isRevoked).getD false)),
    ("cn", ((c.new.bind CertRow.commonName).or (c.old.bind CertRow.commonName)).elim .null .string)]

/-- `notify_config_request`. -/
def notifyConfigRequest (I : InetType A) (c : Change (PendingRow A)) : Json String :=
  .object [
    ("request_id", c.new.elim .null fun r => .int64 r.requestId),
    ("sensor_id", c.new.elim .null fun r => .int64 r.sensorId.toInt64),
    ("hostname", (c.new.bind PendingRow.requestedHostname).elim .null .string),
    ("ip_address", c.new.elim .null fun r => .string (I.render r.requestedIp)),
    ("is_active", (c.new.bind PendingRow.requestedIsActive).elim .null .bool),
    ("action", .string c.op)]

/-- `notify_config_error`. -/
def notifyConfigError (c : Change ErrorRow) : Json String :=
  .object [
    ("sensor_id", c.new.elim .null fun r => .int64 r.sensorId.toInt64),
    ("error_code", (c.new.bind ErrorRow.errorCode).elim .null .string),
    ("detail", (c.new.bind ErrorRow.errorDetail).elim .null .string),
    ("timestamp", c.new.elim .null fun r => .string r.occurredAt),
    ("request_id", (c.new.bind ErrorRow.requestId).elim .null .int64)]

/-- **The triggers**: the channel and the payload of a change, where its operation has a trigger. -/
def notification (I : InetType A) : RowChange A → Option (String × Json String)
  | ⟨.certs, c⟩ => some ("cert_events", notifyCertChange c)
  | ⟨.config, c⟩ => some ("config_events", notifyConfigChange I c)
  | ⟨.pending, .delete _⟩ => none
  | ⟨.pending, c⟩ => some ("config_requested", notifyConfigRequest I c)
  | ⟨.errors, c⟩ => some ("error_events", notifyConfigError c)
  | ⟨.state, .delete _⟩ => none
  | ⟨.state, c⟩ => some ("state_events", notifyStateChange c)

/-- The identifying fields and the status fields of a payload, and the columns they are named after. -/
def columns : (t : Table) → List (String × (Row A t → Json String))
  | .certs => [
    ("cert_id", fun r : CertRow => .int64 r.certId.toInt64),
    ("revoked", fun r : CertRow => r.isRevoked.elim .null .bool)]
  | .config => [
    ("sensor_id", fun r : ConfigRow A => .int64 r.sensorId.toInt64),
    ("request_id", fun r : ConfigRow A => r.requestId.elim .null .int64)]
  | .pending => [
    ("request_id", fun r : PendingRow A => .int64 r.requestId),
    ("sensor_id", fun r : PendingRow A => .int64 r.sensorId.toInt64),
    ("is_active", fun r : PendingRow A => r.requestedIsActive.elim .null .bool)]
  | .errors => [
    ("sensor_id", fun r : ErrorRow => .int64 r.sensorId.toInt64),
    ("error_code", fun r : ErrorRow => r.errorCode.elim .null .string),
    ("request_id", fun r : ErrorRow => r.requestId.elim .null .int64)]
  | .state => [("sensor_id", fun r : TelemetryRow => .int64 r.sensorId.toInt64)]

/-- **The notification of a change describes the row that changed**, if there is one. -/
def Described (I : InetType A) (c : RowChange A) : Prop :=
  ∀ n, notification I c = some n → ∀ column ∈ columns c.1,
    n.2.asObject.bind (Json.member column.1) = some (column.2 c.2.row)

/-- The changes whose notification describes the row: no deletion of an error, and of certificates
those that say whether it is revoked, a deletion only of one that is not. -/
def Plain : RowChange A → Prop
  | ⟨.certs, .insert new⟩ => CertRow.isRevoked new ≠ none
  | ⟨.certs, .update _ new⟩ => CertRow.isRevoked new ≠ none
  | ⟨.certs, .delete old⟩ => CertRow.isRevoked old = some false
  | ⟨.errors, .delete _⟩ => False
  | _ => True

/-! ## One change -/

variable {I : InetType A}

/-- The COALESCE of `notify_cert_change` against the column. -/
theorem described_certs_iff {c : Change CertRow} : Described I ⟨.certs, c⟩ ↔
    .bool ((c.new.bind CertRow.isRevoked).getD false) =
      (c.row.isRevoked.elim .null .bool : Json String) := by
  cases c <;>
    simp [Described, notification, columns, notifyCertChange, Change.new, Change.old, Change.row,
      Json.asObject]

theorem bool_getD_iff {o : Option Bool} :
    .bool (o.getD false) = (o.elim .null .bool : Json String) ↔ o ≠ none := by
  cases o <;> simp

theorem described_certs {c : Change CertRow} : Described I ⟨.certs, c⟩ ↔ Plain (A := A) ⟨.certs, c⟩ := by
  rw [described_certs_iff]
  cases c with
  | insert new => exact bool_getD_iff
  | update old new => exact bool_getD_iff
  | delete old =>
    -- NEW is not there, whatever the row that goes has said
    change .bool false = (old.isRevoked.elim .null .bool : Json String) ↔ old.isRevoked = some false
    cases old.isRevoked <;> simp

theorem described_config {c : Change (ConfigRow A)} : Described I ⟨.config, c⟩ := by
  cases c <;>
    simp [Described, notification, columns, notifyConfigChange, Change.op, Change.new, Change.old,
      Change.row, Json.asObject]

theorem described_pending {c : Change (PendingRow A)} : Described I ⟨.pending, c⟩ := by
  cases c <;>
    simp [Described, notification, columns, notifyConfigRequest, Change.new, Change.row,
      Json.asObject]

theorem described_errors {c : Change ErrorRow} :
    Described I ⟨.errors, c⟩ ↔ Plain (A := A) ⟨.errors, c⟩ := by
  cases c <;>
    simp [Described, notification, columns, notifyConfigError, Plain, Change.new, Change.row,
      Json.asObject]

theorem described_state {c : Change TelemetryRow} : Described I ⟨.state, c⟩ := by
  cases c <;>
    simp [Described, notification, columns, notifyStateChange, Change.new, Change.row,
      Json.asObject]

/-- **Which notifications describe their row.** -/
theorem described_iff {c : RowChange A} : Described I c ↔ Plain c := by
  obtain ⟨t, c⟩ := c
  cases t with
  | certs => exact described_certs
  | config => exact iff_of_true described_config trivial
  | pending => exact iff_of_true described_pending trivial
  | errors => exact described_errors
  | state => exact iff_of_true described_state trivial

/-- What the controller is told of a pending row is what `Db/Notify` says of one that is inserted. -/
theorem notifyConfigRequest_insert (row : PendingRow A) :
    notifyConfigRequest I (.insert row) = ManagementSensors.notifyConfigRequest I row := rfl

theorem notifyConfigChange_of_ne {c : Change (ConfigRow A)} (h : c.op ≠ "DELETE") :
    notifyConfigChange I c = ManagementSensors.notifyConfigChange I c.op c.row := by
  rw [notifyConfigChange, if_neg h]
  cases c with
  | insert new => rfl
  | update old new => rfl
  | delete old => exact absurd rfl h

/-! ## A statement -/

theorem mem_changes_delete {T : Tables A} {t : Table} {condition : Row A t → Bool}
    {c : RowChange A} : c ∈ (Statement.delete t condition).changes T ↔
      ∃ t', ∃ r ∈ T t', doomed T (Statement.named t condition) t' r = true ∧ c = ⟨t', .delete r⟩ := by
  simp only [Statement.changes, List.mem_flatMap, List.mem_map, List.mem_filter]
  constructor
  · rintro ⟨t', -, r, ⟨hr, hdoomed⟩, rfl⟩
    exact ⟨t', r, hr, hdoomed, rfl⟩
  · rintro ⟨t', r, hr, hdoomed, rfl⟩
    exact ⟨t', by cases t' <;> decide, r, ⟨hr, hdoomed⟩, rfl⟩

/-- **A deletion is never refused**: the cascade takes every row that refers to one that goes. -/
theorem valid_delete {T : Tables A} (h : Valid T) (t : Table) (condition : Row A t → Bool) :
    Valid ((Statement.delete t condition).apply T) where
  certKey := nodup_remove (T := T) (t := .certs) h.certKey
  configKey := nodup_remove (T := T) (t := .config) h.configKey
  certUnique := nodup_remove (T := T) (t := .config) h.certUnique
  pendingKey := nodup_remove (T := T) (t := .pending) h.pendingKey
  errorKey := nodup_remove (T := T) (t := .errors) h.errorKey
  requestUnique := h.requestUnique.sublist (List.filter_sublist.filterMap _)
  stateKey := nodup_remove (T := T) (t := .state) h.stateKey
  certRef := h.certRef.remove fun _ hdrag => Bool.or_eq_true_iff.mpr (Or.inr hdrag)
  pendingRef := h.pendingRef.remove fun _ hdrag => Bool.or_eq_true_iff.mpr (Or.inr hdrag)
  errorRequestRef := h.errorRequestRef.remove fun _ hdrag =>
    Bool.or_eq_true_iff.mpr (Or.inl (Bool.or_eq_true_iff.mpr (Or.inr hdrag)))
  errorSensorRef := h.errorSensorRef.remove fun _ hdrag => Bool.or_eq_true_iff.mpr (Or.inr hdrag)
  stateRef := h.stateRef.remove fun _ hdrag => Bool.or_eq_true_iff.mpr (Or.inr hdrag)

/-- **A sound statement**: no certificate is written without saying whether it is revoked, none that
is deleted is revoked, and no error goes, not with the rows it refers to either. -/
def Sound (T : Tables A) : Statement A → Prop
  | .insert .certs rows => ∀ r ∈ rows, CertRow.isRevoked r ≠ none
  | .update .certs condition set =>
    ∀ r ∈ T .certs, condition r = true → CertRow.isRevoked (set r) ≠ none
  | .delete t condition =>
    (∀ r ∈ T .certs, doomed T (Statement.named t condition) .certs r = true →
      CertRow.isRevoked r = some false) ∧
    ∀ r ∈ T .errors, doomed T (Statement.named t condition) .errors r = false
  | _ => True

theorem forall_plain_insert {T : Tables A} {t : Table} {rows : List (Row A t)} :
    (∀ c ∈ (Statement.insert t rows).changes T, Plain c) ↔ Sound T (.insert t rows) := by
  rw [Statement.changes, List.forall_mem_map]
  cases t with
  | certs => exact Iff.rfl
  | config | pending | errors | state => exact iff_of_true (fun _ _ => trivial) trivial

theorem forall_plain_update {T : Tables A} {t : Table} {condition : Row A t → Bool}
    {set : Row A t → Row A t} : (∀ c ∈ (Statement.update t condition set).changes T, Plain c) ↔
      Sound T (.update t condition set) := by
  rw [Statement.changes, List.forall_mem_map]
  cases t with
  | certs => exact List.forall_mem_filter
  | config | pending | errors | state => exact iff_of_true (fun _ _ => trivial) trivial

theorem forall_plain_delete {T : Tables A} {t : Table} {condition : Row A t → Bool} :
    (∀ c ∈ (Statement.delete t condition).changes T, Plain c) ↔ Sound T (.delete t condition) := by
  constructor
  · intro h
    refine ⟨fun r hr hdoomed => ?_, fun r hr => Bool.eq_false_iff.mpr fun hdoomed => ?_⟩
    · exact h _ (mem_changes_delete.mpr ⟨.certs, r, hr, hdoomed, rfl⟩)
    · exact h _ (mem_changes_delete.mpr ⟨.errors, r, hr, hdoomed, rfl⟩)
  · rintro ⟨hcerts, herrors⟩ c hc
    obtain ⟨t', r, hr, hdoomed, rfl⟩ := mem_changes_delete.mp hc
    cases t' with
    | certs => exact hcerts r hr hdoomed
    | errors =>
      rw [herrors r hr] at hdoomed
      cases hdoomed
    | config | pending | state => trivial

theorem forall_plain_iff (T : Tables A) (stmt : Statement A) :
    (∀ c ∈ stmt.changes T, Plain c) ↔ Sound T stmt := by
  cases stmt with
  | insert t rows => exact forall_plain_insert
  | update t condition set => exact forall_plain_update
  | delete t condition => exact forall_plain_delete

/-! ## A transaction -/

/-- The statements are sound, one after the other. -/
def SoundAll (T : Tables A) : List (Statement A) → Prop
  | [] => True
  | stmt :: stmts => Sound T stmt ∧ SoundAll (stmt.apply T) stmts

/-- **When every notification describes the row that changed.** -/
theorem notifications_describe_iff (I : InetType A) (T : Tables A) (stmts : List (Statement A)) :
    (∀ c ∈ changesOf T stmts, Described I c) ↔ SoundAll T stmts := by
  induction stmts generalizing T with
  | nil => exact iff_of_true (List.forall_mem_nil _) trivial
  | cons stmt stmts ih =>
    rw [changesOf, List.forall_mem_append, ih, SoundAll, ← forall_plain_iff]
    simp only [described_iff]

/-- The tables with an error of request 5, for sensor 3. -/
def oneError : Tables Addr
  | .certs => [⟨3, some "cpu-node-03", some false⟩]
  | .config => [⟨3, "cpu-node-03", .one, some true, 3, none⟩]
  | .pending => [⟨5, 3, some "cpu-node-03", .two, some true, .pending⟩]
  | .errors => [⟨1, some 5, 3, some "MQTT_TIMEOUT", none, "2030-01-01"⟩]
  | .state => []

theorem holds_singleton {ρ : Reference (Row A) ℤ} {T : Tables A} {r : Row A ρ.child}
    {p : Row A ρ.parent} (hchild : T ρ.child = [r]) (hparent : T ρ.parent = [p])
    (hkey : ρ.foreign r = some (ρ.primary p)) : ρ.Holds T := by
  intro r' hr k hk
  rw [hchild, List.mem_singleton] at hr
  rw [hr, hkey] at hk
  exact ⟨p, by rw [hparent]; exact List.mem_singleton.mpr rfl, Option.some.inj hk⟩

theorem oneError_valid : Valid oneError where
  certKey := List.nodup_singleton _
  configKey := List.nodup_singleton _
  certUnique := List.nodup_singleton _
  pendingKey := List.nodup_singleton _
  errorKey := List.nodup_singleton _
  requestUnique := List.nodup_singleton _
  stateKey := List.nodup_nil
  certRef := holds_singleton rfl rfl rfl
  pendingRef := holds_singleton rfl rfl rfl
  errorRequestRef := holds_singleton rfl rfl rfl
  errorSensorRef := holds_singleton rfl rfl rfl
  stateRef := List.forall_mem_nil _

/-- **A deletion that reaches an error sends NULLs** for it. -/
theorem not_notifications_describe :
    let stmt : Statement Addr := .delete .config fun r : ConfigRow Addr => r.sensorId = 3
    Valid oneError ∧ Valid (stmt.apply oneError) ∧
      ¬ ∀ c ∈ changesOf oneError [stmt], Described addrInet c := by
  refine ⟨oneError_valid, valid_delete oneError_valid _ _, fun hall => ?_⟩
  let e : ErrorRow := ⟨1, some 5, 3, some "MQTT_TIMEOUT", none, "2030-01-01"⟩
  have hgone : (⟨.errors, .delete e⟩ : RowChange Addr) ∈ changesOf oneError
      [.delete .config fun r : ConfigRow Addr => r.sensorId = 3] :=
    List.mem_append_left _ (mem_changes_delete.mpr
      ⟨.errors, e, List.mem_singleton.mpr rfl, by decide +kernel, rfl⟩)
  exact described_errors.mp (hall _ hgone)

end ManagementSensors.Triggers
