import Mathlib.Logic.Function.Basic
import ManagementSensors.Db.DatabaseManager

/-!
# Db/CertBinding — the certificate of a sensor, call after call of `upsert_sensor_config`

Seen from outside, `sensor_config` is a **binding**: each sensor has at most one certificate and each
certificate at most one sensor.  An upsert leaves it as it is, or binds a sensor that has none to the
certificate with its number, which nobody has (`binding_upsertRow`); a binding that grows so keeps
what it holds.  The constraints of the schema carry half of this, the two sub-selects and the columns
the conflict clause leaves out carry the other half.
-/

open Function

namespace ManagementSensors

/-! ## Bindings -/

/-- **A binding**: each key has at most one value, each value at most one key. -/
structure Binding (κ ν : Type*) where
  of : κ → Option ν
  injective : ∀ j k v, of j = some v → of k = some v → j = k

namespace Binding

variable {κ ν : Type*}

@[ext] theorem ext {b b' : Binding κ ν} (h : ∀ k, b.of k = b'.of k) : b = b' := by
  obtain ⟨of, _⟩ := b
  obtain ⟨of', _⟩ := b'
  obtain rfl : of = of' := funext h
  rfl

/-- What is bound stays bound. -/
def Extends (b b' : Binding κ ν) : Prop := ∀ k v, b.of k = some v → b'.of k = some v

theorem Extends.refl (b : Binding κ ν) : b.Extends b := fun _ _ h => h

theorem Extends.trans {b b' b'' : Binding κ ν} (h : b.Extends b') (h' : b'.Extends b'') :
    b.Extends b'' := fun k v hk => h' k v (h k v hk)

variable [DecidableEq κ]

/-- One more pair: the value is nobody's. -/
def bind (b : Binding κ ν) (k : κ) (v : ν) (hv : ∀ j, b.of j ≠ some v) : Binding κ ν where
  of := update b.of k (some v)
  injective i j w hi hj := by
    by_cases hik : i = k <;> by_cases hjk : j = k
    · rw [hik, hjk]
    · subst hik
      rw [update_self] at hi
      rw [update_of_ne hjk, ← hi] at hj
      exact absurd hj (hv j)
    · subst hjk
      rw [update_self] at hj
      rw [update_of_ne hik, ← hj] at hi
      exact absurd hi (hv i)
    · rw [update_of_ne hik] at hi
      rw [update_of_ne hjk] at hj
      exact b.injective i j w hi hj

theorem extends_bind {b : Binding κ ν} {k : κ} {v : ν} {hv : ∀ j, b.of j ≠ some v}
    (hk : b.of k = none) : b.Extends (b.bind k v hv) := fun j w hj => by
  by_cases hjk : j = k
  · rw [hjk, hk] at hj
    cases hj
  · exact (update_of_ne hjk (some v) b.of).trans hj

end Binding

/-! ## The statement -/

/-- A row as the VALUES of the statement have it: a certificate that no sub-select has found is
NULL. -/
structure ProposedRow (A : Type) where
  sensorId : SensorId
  hostname : String
  ipAddress : A
  isActive : Bool
  requestId : Int64
  certId : Option Int32

namespace Db

variable {A : Type} {I : InetType A} {s : SensorId} {hostname ip : String} {act : Bool}
  {r : RequestId} {db db' : Db A} {row old : ConfigRow A}

/-- The VALUES of `upsert_sensor_config`: `COALESCE` over the certificate the sensor has and the one
with its number. -/
def proposedRow (I : InetType A) (sensorId : SensorId) (hostname ip : String) (isActive : Bool)
    (requestId : RequestId) (db : Db A) : Option (ProposedRow A) := do
  let r ← bigint requestId
  let h ← varchar100 hostname
  let a ← I.parse ip
  return ⟨sensorId, h, a, isActive, r,
    ((db.configOf sensorId).map ConfigRow.certId).or (db.certs.find? fun c => c = sensorId)⟩

/-- `INSERT … ON CONFLICT (sensor_id) DO UPDATE`, with the row it returns: NOT NULL is checked before
the conflict, the other constraints where there is none. -/
def insertOnConflict (p : ProposedRow A) (db : Db A) : Option (Db A × ConfigRow A) := do
  let certId ← p.certId
  match db.configOf p.sensorId with
  | some row =>
    return (db.updateConfig p.sensorId p.hostname p.ipAddress p.isActive p.requestId,
      row.update p.sensorId p.hostname p.ipAddress p.isActive p.requestId)
  | none =>
    let row : ConfigRow A :=
      ⟨p.sensorId, p.hostname, p.ipAddress, some p.isActive, certId, some p.requestId⟩
    let db' ← db.insertConfig row
    return (db', row)

/-- **`upsertRow` is the statement.** -/
theorem upsertRow_eq_insertOnConflict : db.upsertRow I s hostname ip act r =
    (db.proposedRow I s hostname ip act r).bind fun p => db.insertOnConflict p := by
  simp only [upsertRow, proposedRow, insertOnConflict, Option.bind_eq_bind, Option.bind_assoc,
    Option.pure_def, Option.bind_some]
  cases hrow : db.configOf s <;> rfl

/-! ## The binding of a database -/

/-- The certificate of each sensor. -/
def binding (db : Db A) : Binding SensorId Int32 where
  of s := (db.configOf s).map ConfigRow.certId
  injective s t c hs ht := by
    obtain ⟨row, hrow, rfl⟩ := Option.map_eq_some_iff.mp hs
    obtain ⟨row', hrow', hcert⟩ := Option.map_eq_some_iff.mp ht
    obtain ⟨hmem, rfl⟩ := configOf_mem hrow
    obtain ⟨hmem', rfl⟩ := configOf_mem hrow'
    rw [List.inj_on_of_nodup_map db.certUnique hmem' hmem hcert]

theorem configOf_of_mem (h : row ∈ db.config) : db.configOf row.sensorId = some row := by
  cases hold : db.configOf row.sensorId with
  | none => exact absurd (List.mem_map_of_mem h) (configOf_eq_none.mp hold)
  | some old =>
    obtain ⟨hmem, hsensor⟩ := configOf_mem hold
    rw [List.inj_on_of_nodup_map db.configKey hmem h hsensor]

/-- The pairs of the binding are those of the rows. -/
theorem binding_eq_some_iff {c : Int32} :
    db.binding.of s = some c ↔ ∃ row ∈ db.config, row.sensorId = s ∧ row.certId = c := by
  constructor
  · intro h
    obtain ⟨row, hrow, rfl⟩ := Option.map_eq_some_iff.mp h
    exact ⟨row, (configOf_mem hrow).1, (configOf_mem hrow).2, rfl⟩
  · rintro ⟨row, hrow, rfl, rfl⟩
    exact Option.map_eq_some_iff.mpr ⟨row, configOf_of_mem hrow, rfl⟩

theorem binding_eq_none_iff : db.binding.of s = none ↔ s ∉ db.config.map ConfigRow.sensorId := by
  rw [← configOf_eq_none]
  exact Option.map_eq_none_iff

/-- An upsert keeps the certificate of its sensor. -/
theorem certId_of_upsertRow (hold : db.configOf s = some old)
    (h : db.upsertRow I s hostname ip act r = some (db', row)) : row.certId = old.certId := by
  simp only [upsertRow, hold, Option.bind_eq_bind, Option.bind_eq_some_iff, Option.pure_def,
    Option.some.injEq, Prod.mk.injEq] at h
  obtain ⟨_, -, _, -, _, -, -, rfl⟩ := h
  exact ConfigRow.update_certId

/-- An upsert takes, for a sensor that has none, the certificate with its number, if nobody has it. -/
theorem insertConfig_of_upsertRow (hnew : db.configOf s = none)
    (h : db.upsertRow I s hostname ip act r = some (db', row)) :
    row.certId = s ∧ db.insertConfig row = some db' := by
  simp only [upsertRow, hnew, Option.bind_eq_bind, Option.bind_eq_some_iff, Option.pure_def,
    Option.some.injEq, Prod.mk.injEq] at h
  obtain ⟨_, -, _, -, _, -, c, hc, _, hins, rfl, rfl⟩ := h
  exact ⟨by simpa using List.find?_some hc, hins⟩

theorem insertConfig_cert (h : db.insertConfig row = some db') :
    row.certId ∈ db.certs ∧ (∀ other ∈ db.config, other.certId ≠ row.certId) ∧
      db'.certs = db.certs := by
  rw [insertConfig] at h
  split at h
  case isFalse => cases h
  case isTrue hrow =>
    cases h
    exact ⟨hrow.2.2, fun other hmem he => hrow.2.1 (he ▸ List.mem_map_of_mem hmem), rfl⟩

theorem certs_upsertRow (h : db.upsertRow I s hostname ip act r = some (db', row)) :
    db'.certs = db.certs := by
  cases hold : db.configOf s with
  | none => exact (insertConfig_cert (insertConfig_of_upsertRow hold h).2).2.2
  | some old =>
    simp only [upsertRow, hold, Option.bind_eq_bind, Option.bind_eq_some_iff, Option.pure_def,
      Option.some.injEq, Prod.mk.injEq] at h
    obtain ⟨_, -, _, -, _, -, rfl, -⟩ := h
    rfl

/-- **What an upsert does to the binding**: nothing, or it binds its sensor, which was not bound, to
the certificate with its number, which nobody had. -/
theorem binding_upsertRow (h : db.upsertRow I s hostname ip act r = some (db', row)) :
    db'.binding = db.binding ∨
      ∃ hv, db.binding.of s = none ∧ s ∈ db.certs ∧ db'.binding = db.binding.bind s s hv := by
  obtain ⟨-, -, -, -, -, -, hrows, -⟩ := upsertRow_eq h
  cases hold : db.configOf s with
  | some old =>
    refine Or.inl (Binding.ext fun t => ?_)
    change (db'.configOf t).map _ = (db.configOf t).map _
    rw [hrows t]
    by_cases ht : s = t
    · subst ht
      rw [if_pos rfl, hold, Option.map_some, Option.map_some, certId_of_upsertRow hold h]
    · rw [if_neg ht]
  | none =>
    obtain ⟨hcert, hins⟩ := insertConfig_of_upsertRow hold h
    obtain ⟨hmem, hfree, -⟩ := insertConfig_cert hins
    rw [hcert] at hmem hfree
    have hv : ∀ t, db.binding.of t ≠ some s := fun t ht => by
      obtain ⟨other, hother, -, he⟩ := binding_eq_some_iff.mp ht
      exact hfree other hother he
    refine Or.inr ⟨hv, Option.map_eq_none_iff.mpr hold, hmem, Binding.ext fun t => ?_⟩
    change (db'.configOf t).map _ = update db.binding.of s (some s) t
    rw [hrows t]
    by_cases ht : s = t
    · subst ht
      rw [if_pos rfl, update_self, Option.map_some, hcert]
    · rw [if_neg ht, update_of_ne (Ne.symm ht)]
      rfl

end Db

/-! ## Call after call -/

/-- The arguments of an `upsert_sensor_config`, and what the connection does during it. -/
structure UpsertCall where
  link : Link
  sensorId : SensorId
  hostname : String
  ip : String
  isActive : Bool
  requestId : RequestId

variable {A : Type} (I : InetType A)

/-- The connections that let a commit take effect. -/
def Link.Commits : Link → Prop
  | .up => True
  | .closed => False
  | .lost _ committed => committed = true

namespace UpsertCall

/-- The call. -/
def run (db : Db A) (c : UpsertCall) : Db A :=
  (upsertSensorConfig I c.link c.sensorId c.hostname c.ip c.isActive c.requestId db).db

/-- **A call commits**: the statement is not refused, and the connection lets its commit take
effect. -/
def Commits (db : Db A) (c : UpsertCall) : Prop :=
  c.link.Commits ∧
    (db.upsertRow I c.sensorId c.hostname c.ip c.isActive c.requestId).isSome = true

variable {I} {db : Db A} {c : UpsertCall}

theorem run_of_not_commits (h : ¬ c.Commits I db) : c.run I db = db := by
  obtain ⟨link, s, hostname, ip, act, r⟩ := c
  unfold Commits Link.Commits at h
  cases hrow : db.upsertRow I s hostname ip act r with
  | none => rcases link with _ | _ | ⟨_, _ | _⟩ <;> simp [run, upsertSensorConfig, transact, hrow]
  | some p =>
    rw [hrow] at h
    rcases link with _ | _ | ⟨_, _ | _⟩
    · exact absurd ⟨trivial, rfl⟩ h
    · rfl
    · rfl
    · exact absurd ⟨rfl, rfl⟩ h

/-- **What a call does to the binding**, and to the certificates. -/
theorem binding_run : (c.run I db).certs = db.certs ∧
    ((c.run I db).binding = db.binding ∨
      ∃ hv, db.binding.of c.sensorId = none ∧ c.sensorId ∈ db.certs ∧
        (c.run I db).binding = db.binding.bind c.sensorId c.sensorId hv) := by
  rcases upsertSensorConfig_cases I c.link c.sensorId c.hostname c.ip c.isActive c.requestId db with
    ⟨hsame, -⟩ | ⟨row, hrow, -⟩
  · have hrun : c.run I db = db := hsame
    rw [hrun]
    exact ⟨rfl, Or.inl rfl⟩
  · exact ⟨Db.certs_upsertRow hrow, Db.binding_upsertRow hrow⟩

theorem extends_run : db.binding.Extends (c.run I db).binding := by
  rcases binding_run.2 with hsame | ⟨hv, hnone, -, hbind⟩
  · rw [hsame]
    exact .refl _
  · rw [hbind]
    exact Binding.extends_bind hnone

/-- A row for a sensor that had none is that of the call, with the sensor's own certificate. -/
theorem new_row {row : ConfigRow A} (hrow : row ∈ (c.run I db).config)
    (hnew : row.sensorId ∉ db.config.map ConfigRow.sensorId) :
    row.sensorId = c.sensorId ∧ row.certId = row.sensorId ∧ row.certId ∈ db.certs ∧
      ∀ other ∈ db.config, other.certId ≠ row.certId := by
  have hpair : (c.run I db).binding.of row.sensorId = some row.certId :=
    Db.binding_eq_some_iff.mpr ⟨row, hrow, rfl, rfl⟩
  have hnone := Db.binding_eq_none_iff.mpr hnew
  rcases binding_run.2 with hsame | ⟨hv, -, hcert, hbind⟩
  · rw [hsame, hnone] at hpair
    cases hpair
  · rw [hbind] at hpair
    change update db.binding.of c.sensorId (some c.sensorId) row.sensorId = _ at hpair
    by_cases hs : row.sensorId = c.sensorId
    · rw [hs, update_self] at hpair
      obtain hid : c.sensorId = row.certId := Option.some.inj hpair
      rw [← hid, hs]
      refine ⟨rfl, rfl, hcert, fun other hother he => hv other.sensorId ?_⟩
      exact Db.binding_eq_some_iff.mpr ⟨other, hother, rfl, he⟩
    · rw [update_of_ne hs, hnone] at hpair
      cases hpair

end UpsertCall

/-- The database after a sequence of calls. -/
def upsertAll (db : Db A) (calls : List UpsertCall) : Db A :=
  calls.foldl (UpsertCall.run I) db

variable {I}

theorem extends_upsertAll (db : Db A) (calls : List UpsertCall) :
    db.binding.Extends (upsertAll I db calls).binding := by
  induction calls generalizing db with
  | nil => exact .refl _
  | cons c calls ih => exact UpsertCall.extends_run.trans (ih _)

/-- **The binding is stable and injective.** -/
theorem certificate_binding (I : InetType A) (db : Db A) (calls : List UpsertCall) :
    (∀ row ∈ db.config, ∃ row' ∈ (upsertAll I db calls).config,
      row'.sensorId = row.sensorId ∧ row'.certId = row.certId) ∧
    (∀ row ∈ (upsertAll I db calls).config, ∀ row' ∈ (upsertAll I db calls).config,
      row.certId = row'.certId → row.sensorId = row'.sensorId) ∧
    ∀ pre c post, calls = pre ++ c :: post →
      let before := upsertAll I db pre
      let after := upsertAll I db (pre ++ [c])
      (∀ row ∈ after.config, row.sensorId ∉ before.config.map ConfigRow.sensorId →
        row.sensorId = c.sensorId ∧ row.certId = row.sensorId ∧ row.certId ∈ before.certs ∧
          ∀ other ∈ before.config, other.certId ≠ row.certId) ∧
      (¬ c.Commits I before → after = before) := by
  refine ⟨fun row hrow => ?_, fun row hrow row' hrow' he => ?_, fun pre c post _ => ?_⟩
  · have hpair : db.binding.of row.sensorId = some row.certId :=
      Db.binding_eq_some_iff.mpr ⟨row, hrow, rfl, rfl⟩
    exact Db.binding_eq_some_iff.mp (extends_upsertAll db calls _ _ hpair)
  · rw [List.inj_on_of_nodup_map (upsertAll I db calls).certUnique hrow hrow' he]
  · have hafter : upsertAll I db (pre ++ [c]) = c.run I (upsertAll I db pre) := by
      rw [upsertAll, List.foldl_append]
      rfl
    rw [hafter]
    exact ⟨fun row => UpsertCall.new_row, UpsertCall.run_of_not_commits⟩

end ManagementSensors
