import Mathlib.Data.Option.NAry
import Mathlib.Data.UInt
import ManagementSensors.Db.Schema
import ManagementSensors.Machinery.Binary64

/-!
# Db/DatabaseManager — the calls the pipeline makes, and what a caller sees of one that fails

Every call is one transaction under `conn_mutex_`.  What the connection does to it is an input
(`Link`): an exception may end a call at any point, and the commit may have taken effect all the
same.  The catch clauses then decide what the caller sees (`Outcome.caught`): `add_pending_config`
does not rethrow `broken_connection`, `upsert_sensor_config` and `upsert_sensor_state` rethrow
`sql_error` only.

`written` is the NEW row of a commit that took effect — what the triggers see.
-/

open Machinery

namespace ManagementSensors

/-- The exceptions the catch clauses tell apart: `pqxx::sql_error`, `pqxx::broken_connection`, and any
other `std::exception`. -/
inductive DbException
  | sqlError
  | brokenConnection
  | other
  deriving DecidableEq, Repr

/-- What the connection does during a call: it stays up, it is closed already, or it is lost with an
exception, the commit having taken effect or not. -/
inductive Link
  | up
  | closed
  | lost (e : DbException) (committed : Bool)
  deriving DecidableEq, Repr

/-- **How a call ends**: the database it leaves, the row it has written, the result its caller
sees. -/
structure Outcome (A β γ : Type) where
  db : Db A
  written : Option β
  result : Except DbException γ

variable {A β γ : Type}

/-- A `pqxx::work` from its first statement to its commit.  A body that is refused raises `sql_error`
and leaves nothing behind. -/
def transact (link : Link) (body : Db A → Option (Db A × β)) (db : Db A) : Outcome A β β :=
  match link, body db with
  | .closed, _ => ⟨db, none, .error .brokenConnection⟩
  | .lost e false, _ => ⟨db, none, .error e⟩
  | .up, none => ⟨db, none, .error .sqlError⟩
  | .lost _ true, none => ⟨db, none, .error .sqlError⟩
  | .up, some (db', b) => ⟨db', some b, .ok b⟩
  | .lost e true, some (db', b) => ⟨db', some b, .error e⟩

/-- The catch clauses of a call that returns nothing; those of the `swallowed` exceptions end without
`throw`. -/
def Outcome.caught (swallowed : List DbException) (o : Outcome A β γ) : Outcome A β Unit where
  db := o.db
  written := o.written
  result := match o.result with
    | .error e => if e ∈ swallowed then .ok () else .error e
    | .ok _ => .ok ()

/-! ## Parameters -/

/-- A `uint64_t` for a BIGINT column. -/
def bigint (n : UInt64) : Option Int64 := if n < 2 ^ 63 then some n.toInt64 else none

theorem toNat_ofNat_of_lt_bigint {v : ℕ} (h : v < 2 ^ 63) : (UInt64.ofNat v).toNat = v :=
  UInt64.toNat_ofNat_of_lt' (h.trans (by decide))

/-- A string for a VARCHAR(100) column: a text parameter ends at its first NUL, and what is too long is
refused, blanks apart. -/
def varchar100 (s : String) : Option String :=
  let text := (cStr s).toList
  if (text.drop 100).all (· = ' ') then some (String.ofList (text.take 100)) else none

/-- **The text of a double**, which `pqxx::params` sends, as the number it says.  It is read as this
double again, so it is half a unit in the last place away from it at most. -/
class DoubleText where
  decimal : ℚ → ℚ
  decimal_near : ∀ x, 1 / 2 ^ 1022 ≤ |x| → |decimal x - x| ≤ |x| / 2 ^ 53

namespace ShortestText

/-- The shortest text there is. -/
scoped instance : DoubleText := ⟨shortestDecimal, abs_shortestDecimal_sub_le⟩

end ShortestText

/-- NUMERIC(5, 2) rounds the text of a double, and not the double. -/
example : numeric52 (shortestDecimal (binary64 (21005 / 1000))) = some ⟨2101, by decide⟩ ∧
    numeric52 (binary64 (21005 / 1000)) = some ⟨2100, by decide⟩ := by decide +kernel

/-! ## The transactions -/

namespace Db

/-- The row `add_pending_config` inserts. -/
def pendingRow (I : InetType A) (sensorId : SensorId) (hostname ip : String) (isActive : Bool)
    (requestId : RequestId) : Option (PendingRow A) := do
  let r ← bigint requestId
  let h ← varchar100 hostname
  let a ← I.parse ip
  return ⟨r, sensorId, some h, a, some isActive, .pending⟩

/-- The INSERT of `add_pending_config`. -/
def insertRequest (I : InetType A) (sensorId : SensorId) (hostname ip : String) (isActive : Bool)
    (requestId : RequestId) (db : Db A) : Option (Db A × PendingRow A) := do
  let row ← pendingRow I sensorId hostname ip isActive requestId
  let db' ← db.insertPending row
  return (db', row)

/-- The INSERT … ON CONFLICT of `upsert_sensor_config`: the certificate is the one the sensor has, or
the one with the sensor's number. -/
def upsertRow (I : InetType A) (sensorId : SensorId) (hostname ip : String) (isActive : Bool)
    (requestId : RequestId) (db : Db A) : Option (Db A × ConfigRow A) := do
  let r ← bigint requestId
  let h ← varchar100 hostname
  let a ← I.parse ip
  match db.configOf sensorId with
  | some row =>
    return (db.updateConfig sensorId h a isActive r, row.update sensorId h a isActive r)
  | none =>
    let certId ← db.certs.find? fun c => c = sensorId
    let row : ConfigRow A := ⟨sensorId, h, a, some isActive, certId, some r⟩
    let db' ← db.insertConfig row
    return (db', row)

/-- The INSERT … ON CONFLICT of `upsert_sensor_state`. -/
def upsertTemp [DoubleText] (sensorId : SensorId) (temp : ℚ) (db : Db A) :
    Option (Db A × StateRow) := do
  let t ← numeric52 (DoubleText.decimal temp)
  let db' ← db.upsertState sensorId t
  return (db', ⟨sensorId, some t⟩)

/-- `nextval('request_id_seq')`. -/
def nextval (db : Db A) : Option (Db A × ℕ) := do
  let q ← db.requestIdSeq
  let v := if q.isCalled then q.lastValue + 1 else q.lastValue
  if v < 2 ^ 63 then return ({ db with requestIdSeq := some ⟨v, true⟩ }, v) else none

/-- `MAX` over a column: NULL where there is nothing to take it of. -/
def maxOf (ids : List Int64) : Option ℤ := (ids.map Int64.toInt).max?

/-- `COALESCE(GREATEST(MAX, MAX), 0)` over the two tables. -/
def maxRequestId (db : Db A) : ℤ :=
  ((maxOf (db.pending.map PendingRow.requestId)).merge max
    (maxOf (db.config.filterMap ConfigRow.requestId))).getD 0

/-- `setval('request_id_seq', v)`, with the sequence made first where there is none: a value below
the minimum is refused. -/
def setval (v : ℤ) (db : Db A) : Option (Db A) :=
  if 1 ≤ v then some { db with requestIdSeq := some ⟨v.toNat, true⟩ } else none

end Db

/-! ## The calls -/

/-- `add_pending_config`. -/
def addPendingConfig (I : InetType A) (link : Link) (sensorId : SensorId) (hostname ip : String)
    (isActive : Bool) (requestId : RequestId) (db : Db A) : Outcome A (PendingRow A) Unit :=
  match link with
  | .closed => ⟨db, none, .error .other⟩
  | link => (transact link (Db.insertRequest I sensorId hostname ip isActive requestId) db).caught
      [.brokenConnection]

/-- `upsert_sensor_config`. -/
def upsertSensorConfig (I : InetType A) (link : Link) (sensorId : SensorId) (hostname ip : String)
    (isActive : Bool) (requestId : RequestId) (db : Db A) : Outcome A (ConfigRow A) Unit :=
  (transact link (Db.upsertRow I sensorId hostname ip isActive requestId) db).caught
    [.brokenConnection, .other]

/-- `upsert_sensor_state`. -/
def upsertSensorState [DoubleText] (link : Link) (sensorId : SensorId) (temp : ℚ) (db : Db A) :
    Outcome A StateRow Unit :=
  match link with
  | .closed => ⟨db, none, .error .other⟩
  | link => (transact link (Db.upsertTemp sensorId temp) db).caught [.brokenConnection, .other]

/-- `generate_request_id`: no catch clause keeps an exception back, and a value that has been taken
from the sequence stays taken. -/
def generateRequestId (link : Link) (db : Db A) : Outcome A ℕ RequestId :=
  match link with
  | .closed => ⟨db, none, .error .other⟩
  | link =>
    let o := transact link Db.nextval db
    ⟨o.db, o.written, o.result.map UInt64.ofNat⟩

/-! ## What a statement leaves behind -/

section Statements

variable {I : InetType A} {s : SensorId} {hostname ip : String} {act : Bool} {r : RequestId}
  {db db' : Db A}

/-- The columns of a pending row, as its request has them. -/
theorem Db.pendingRow_eq {row : PendingRow A}
    (h : pendingRow I s hostname ip act r = some row) :
    row.requestId = r.toInt64 ∧ r < 2 ^ 63 ∧ row.sensorId = s ∧
      varchar100 hostname = row.requestedHostname ∧ I.parse ip = some row.requestedIp ∧
      row.requestedIsActive = some act ∧ row.status = .pending := by
  simp only [pendingRow, bigint, Option.bind_eq_bind, Option.bind_eq_some_iff,
    Option.ite_none_right_eq_some, Option.some.injEq, Option.pure_def] at h
  obtain ⟨_, ⟨hr, rfl⟩, h, hh, a, ha, rfl⟩ := h
  exact ⟨rfl, hr, rfl, hh, ha, rfl, rfl⟩

theorem Db.insertRequest_eq {row : PendingRow A}
    (h : db.insertRequest I s hostname ip act r = some (db', row)) :
    pendingRow I s hostname ip act r = some row ∧ db.insertPending row = some db' := by
  simp only [insertRequest, Option.bind_eq_bind, Option.bind_eq_some_iff, Option.pure_def,
    Option.some.injEq, Prod.mk.injEq] at h
  obtain ⟨_, hrow, _, hins, rfl, rfl⟩ := h
  exact ⟨hrow, hins⟩

/-- **What an upsert writes**: the row of its sensor holds the values given, every other row and
every other table is as it was. -/
theorem Db.upsertRow_eq {row : ConfigRow A}
    (h : db.upsertRow I s hostname ip act r = some (db', row)) :
    row.sensorId = s ∧ row.requestId = some r.toInt64 ∧ r < 2 ^ 63 ∧
      varchar100 hostname = some row.hostname ∧ I.parse ip = some row.ipAddress ∧
      row.isActive = some act ∧ (∀ s', db'.configOf s' = if s = s' then some row else db.configOf s') ∧
      db'.pending = db.pending ∧ db'.requestIdSeq = db.requestIdSeq := by
  simp only [upsertRow, bigint, Option.bind_eq_bind, Option.bind_eq_some_iff,
    Option.ite_none_right_eq_some, Option.some.injEq, Option.pure_def] at h
  obtain ⟨_, ⟨hr, rfl⟩, hn, hh, a, ha, h⟩ := h
  cases hrow : db.configOf s with
  | some old =>
    have hs : old.sensorId = s := (configOf_mem hrow).2
    simp only [hrow, Option.some.injEq, Prod.mk.injEq] at h
    obtain ⟨rfl, rfl⟩ := h
    rw [ConfigRow.update, if_pos hs]
    refine ⟨hs, rfl, hr, hh, ha, rfl, fun s' => ?_, rfl, rfl⟩
    rw [configOf_updateConfig]
    by_cases hss : s = s'
    · subst hss
      simp [hrow, ConfigRow.update, hs]
    · rw [if_neg hss]
      cases hrow' : db.configOf s' with
      | none => rfl
      | some row' =>
        have hs' : row'.sensorId ≠ s := fun he => hss (he.symm.trans (configOf_mem hrow').2)
        simp [ConfigRow.update, hs']
  | none =>
    simp only [hrow, Option.bind_eq_some_iff, Option.some.injEq, Prod.mk.injEq] at h
    obtain ⟨c, hc, _, hins, rfl, rfl⟩ := h
    exact ⟨rfl, rfl, hr, hh, ha, rfl, fun s' => configOf_insertConfig hins s',
      (insertConfig_eq hins).2.1, (insertConfig_eq hins).2.2⟩

/-- **What `nextval` does**: it hands out a value above every value handed out before, and nothing
else changes. -/
theorem Db.nextval_eq {v : ℕ} (h : db.nextval = some (db', v)) :
    db'.requestIdSeq = some ⟨v, true⟩ ∧ v < 2 ^ 63 ∧
      (∀ q, db.requestIdSeq = some q → q.isCalled = true → v = q.lastValue + 1) ∧
      db'.pending = db.pending ∧ db'.config = db.config := by
  simp only [nextval, Option.bind_eq_bind, Option.bind_eq_some_iff, Option.ite_none_right_eq_some,
    Option.some.injEq, Option.pure_def, Prod.mk.injEq] at h
  obtain ⟨q, hq, hv, rfl, rfl⟩ := h
  refine ⟨rfl, hv, fun q' hq' hc => ?_, rfl, rfl⟩
  obtain rfl : q = q' := Option.some.inj (hq.symm.trans hq')
  rw [if_pos hc]

theorem Db.setval_eq {v : ℤ} (h : db.setval v = some db') :
    1 ≤ v ∧ db'.requestIdSeq = some ⟨v.toNat, true⟩ ∧ db'.pending = db.pending ∧
      db'.config = db.config := by
  rw [setval] at h
  split at h
  case isTrue hv =>
    cases h
    exact ⟨hv, rfl, rfl, rfl⟩
  case isFalse => cases h

end Statements

/-! ## What a call leaves behind -/

/-- A transaction leaves the database as it was and ends with an exception, or leaves what its body
leaves and writes its row. -/
theorem transact_cases (link : Link) (body : Db A → Option (Db A × β)) (db : Db A) :
    let o := transact link body db
    (o.db = db ∧ o.written = none ∧
        ∃ e, o.result = .error e ∧ (link = .lost e false ∨ link = .closed ∨ e = .sqlError)) ∨
      ∃ b, body db = some (o.db, b) ∧ o.written = some b ∧ ∀ b', o.result = .ok b' → b' = b := by
  cases hb : body db with
  | none =>
    refine Or.inl ?_
    rcases link with _ | _ | ⟨e, _ | _⟩ <;> simp [transact, hb]
  | some p =>
    obtain ⟨db', b⟩ := p
    rcases link with _ | _ | ⟨e, _ | _⟩
    · exact Or.inr ⟨b, by simp [transact, hb]⟩
    · exact Or.inl (by simp [transact])
    · exact Or.inl (by simp [transact])
    · exact Or.inr ⟨b, by simp [transact, hb]⟩

@[simp] theorem Outcome.caught_db (es : List DbException) (o : Outcome A β γ) :
    (o.caught es).db = o.db := rfl

@[simp] theorem Outcome.caught_written (es : List DbException) (o : Outcome A β γ) :
    (o.caught es).written = o.written := rfl

theorem Outcome.caught_of_error {es : List DbException} {o : Outcome A β γ} {e : DbException}
    (h : o.result = .error e) : (o.caught es).result = .ok () ↔ e ∈ es := by
  simp [Outcome.caught, h]

theorem addPendingConfig_of_ne (I : InetType A) {link : Link} (hl : link ≠ .closed) (s : SensorId)
    (hostname ip : String) (act : Bool) (r : RequestId) (db : Db A) :
    addPendingConfig I link s hostname ip act r db =
      (transact link (Db.insertRequest I s hostname ip act r) db).caught [.brokenConnection] := by
  cases link <;> first | rfl | exact absurd rfl hl

/-- **`add_pending_config`** inserts the row of its request, or leaves the database as it was.  It
returns without having inserted only where `broken_connection` is swallowed. -/
theorem addPendingConfig_cases (I : InetType A) (link : Link) (s : SensorId) (hostname ip : String)
    (act : Bool) (r : RequestId) (db : Db A) :
    let o := addPendingConfig I link s hostname ip act r db
    (o.db = db ∧ o.written = none ∧
        (o.result = .ok () → link = .lost .brokenConnection false)) ∨
      ∃ row, Db.pendingRow I s hostname ip act r = some row ∧ db.insertPending row = some o.db ∧
        o.written = some row := by
  by_cases hl : link = .closed
  · subst hl
    exact Or.inl ⟨rfl, rfl, fun h => by cases h⟩
  rw [addPendingConfig_of_ne I hl]
  rcases transact_cases link (Db.insertRequest I s hostname ip act r) db with
    ⟨h1, h2, e, he, hlink⟩ | ⟨row, h1, h2, -⟩
  · refine Or.inl ⟨h1, h2, fun hok => ?_⟩
    obtain rfl : e = .brokenConnection := by
      simpa using (Outcome.caught_of_error he).mp hok
    rcases hlink with h | h | h
    · exact h
    · exact absurd h hl
    · cases h
  · obtain ⟨hrow, hins⟩ := Db.insertRequest_eq h1
    exact Or.inr ⟨row, hrow, hins, h2⟩

/-- **`upsert_sensor_config`** writes the row of its sensor, or leaves the database as it was. -/
theorem upsertSensorConfig_cases (I : InetType A) (link : Link) (s : SensorId)
    (hostname ip : String) (act : Bool) (r : RequestId) (db : Db A) :
    let o := upsertSensorConfig I link s hostname ip act r db
    (o.db = db ∧ o.written = none) ∨
      ∃ row, db.upsertRow I s hostname ip act r = some (o.db, row) ∧ o.written = some row := by
  rcases transact_cases link (Db.upsertRow I s hostname ip act r) db with
    ⟨h1, h2, -⟩ | ⟨b, h1, h2, -⟩
  · exact Or.inl ⟨h1, h2⟩
  · exact Or.inr ⟨b, h1, h2⟩

/-- **`generate_request_id`** takes a value from the sequence, or leaves the database as it was; the
identifier it returns is the value taken. -/
theorem generateRequestId_cases (link : Link) (db : Db A) :
    let o := generateRequestId link db
    (o.db = db ∧ ∀ r, o.result ≠ .ok r) ∨
      ∃ v, db.nextval = some (o.db, v) ∧ ∀ r, o.result = .ok r → r = UInt64.ofNat v := by
  by_cases hl : link = .closed
  · subst hl
    exact Or.inl ⟨rfl, fun r h => by cases h⟩
  have ho : generateRequestId link db =
      ⟨(transact link Db.nextval db).db, (transact link Db.nextval db).written,
        (transact link Db.nextval db).result.map UInt64.ofNat⟩ := by
    cases link <;> first | rfl | exact absurd rfl hl
  rw [ho]
  rcases transact_cases link Db.nextval db with ⟨h1, -, e, he, -⟩ | ⟨v, h1, -, h3⟩
  · exact Or.inl ⟨h1, fun r h => by simp [he, Except.map] at h⟩
  · refine Or.inr ⟨v, h1, fun r h => ?_⟩
    cases hres : (transact link Db.nextval db).result with
    | error e => simp [hres, Except.map] at h
    | ok b =>
      obtain rfl := h3 b hres
      simpa [hres, Except.map] using h.symm

end ManagementSensors
