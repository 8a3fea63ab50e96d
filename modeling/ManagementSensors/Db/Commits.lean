import ManagementSensors.Server.ConfigIp

/-!
# Db/Commits — a write that returns has been committed, unless an exception was kept back

The catch clauses of the three writes do not all end in `throw`: `broken_connection` is kept back by
each of them, every exception but `sql_error` by the two upserts.  So a write returns without having
been committed exactly where such an exception ends it before the commit (`caught_commits`), and
`config_ip` then waits for the response to a request that is nowhere.
-/

namespace ManagementSensors

variable {κ A β : Type} {I : InetType A} {link : Link} {s : SensorId} {hostname ip : String}
  {act : Bool} {r : RequestId} {db : Db A}

/-- A write is committed, with a row of which `Values` holds. -/
def Outcome.Committed (Values : Db A → β → Prop) (o : Outcome A β Unit) : Prop :=
  ∃ row, o.written = some row ∧ Values o.db row

/-- **Not silent**: a write that returns normally is committed. -/
def Outcome.NotSilent (Values : Db A → β → Prop) (o : Outcome A β Unit) : Prop :=
  o.result = .ok () → o.Committed Values

/-- The row that `add_pending_config` is to insert, with the values it is given. -/
def PendingValues (I : InetType A) (s : SensorId) (hostname ip : String) (act : Bool) (r : RequestId)
    (db : Db A) (row : PendingRow A) : Prop :=
  row ∈ db.pending ∧ row.requestId = r.toInt64 ∧ row.sensorId = s ∧
    varchar100 hostname = row.requestedHostname ∧ I.parse ip = some row.requestedIp ∧
    row.requestedIsActive = some act ∧ row.status = .pending

/-- The row that `upsert_sensor_config` is to leave. -/
def ConfigValues (I : InetType A) (s : SensorId) (hostname ip : String) (act : Bool) (r : RequestId)
    (db : Db A) (row : ConfigRow A) : Prop :=
  db.configOf s = some row ∧ row.requestId = some r.toInt64 ∧ varchar100 hostname = some row.hostname ∧
    I.parse ip = some row.ipAddress ∧ row.isActive = some act

/-- The row that `upsert_sensor_state` is to leave. -/
def StateValues [DoubleText] (s : SensorId) (temp : ℚ) (db : Db A) (row : StateRow) : Prop :=
  row ∈ db.state ∧ row.sensorId = s ∧ row.currentTemp.isSome ∧
    numeric52 (DoubleText.decimal temp) = row.currentTemp

/-! ## What is committed -/

theorem pendingValues_of_insertRequest {db' : Db A} {row : PendingRow A}
    (h : db.insertRequest I s hostname ip act r = some (db', row)) :
    PendingValues I s hostname ip act r db' row := by
  obtain ⟨hrow, hins⟩ := Db.insertRequest_eq h
  obtain ⟨hr, -, hs, hhost, hip, hact, hst⟩ := Db.pendingRow_eq hrow
  refine ⟨?_, hr, hs, hhost, hip, hact, hst⟩
  rw [(Db.insertPending_eq hins).1]
  exact List.mem_append_right _ (List.mem_singleton_self _)

theorem configValues_of_upsertRow {db' : Db A} {row : ConfigRow A}
    (h : db.upsertRow I s hostname ip act r = some (db', row)) :
    ConfigValues I s hostname ip act r db' row := by
  obtain ⟨-, hr, -, hhost, hip, hact, hconf, -, -⟩ := Db.upsertRow_eq h
  refine ⟨?_, hr, hhost, hip, hact⟩
  rw [hconf, if_pos rfl]

theorem Db.upsertState_mem {db' : Db A} {temp : Numeric52} (h : db.upsertState s temp = some db') :
    ⟨s, some temp⟩ ∈ db'.state := by
  rw [upsertState] at h
  split at h
  case isFalse => cases h
  case isTrue =>
    split at h <;> cases h
    case isTrue hold =>
      obtain ⟨row, hrow, rfl⟩ := List.mem_map.mp hold
      exact List.mem_map.mpr ⟨row, hrow, by simp [StateRow.update]⟩
    case isFalse => exact List.mem_append_right _ (List.mem_singleton_self _)

theorem stateValues_of_upsertTemp [DoubleText] {temp : ℚ} {db' : Db A} {row : StateRow}
    (h : db.upsertTemp s temp = some (db', row)) : StateValues s temp db' row := by
  simp only [Db.upsertTemp, Option.bind_eq_bind, Option.bind_eq_some_iff, Option.pure_def,
    Option.some.injEq, Prod.mk.injEq] at h
  obtain ⟨t, ht, _, hstate, rfl, rfl⟩ := h
  exact ⟨Db.upsertState_mem hstate, rfl, rfl, ht⟩

/-! ## What is kept back -/

/-- What a transaction has written is what its body leaves. -/
theorem transact_written {body : Db A → Option (Db A × β)} {b : β}
    (h : (transact link body db).written = some b) :
    body db = some ((transact link body db).db, b) := by
  rcases transact_cases link body db with ⟨-, hnone, -⟩ | ⟨b', hbody, hwritten, -⟩
  · rw [hnone] at h
    cases h
  · rw [hwritten] at h
    cases h
    exact hbody

/-- **When a transaction is not silent**: no exception that is kept back ends it before the commit. -/
theorem caught_notSilent (es : List DbException) (hes : .sqlError ∉ es) (link : Link)
    (body : Db A → Option (Db A × β)) (db : Db A) (Values : Db A → β → Prop)
    (hvalues : ∀ db' b, body db = some (db', b) → Values db' b) :
    ((transact link body db).caught es).NotSilent Values ↔
      (link = .closed → .brokenConnection ∉ es) ∧ ∀ e ∈ es, link ≠ .lost e false := by
  have hcommitted : ∀ b, (transact link body db).written = some b →
      ((transact link body db).caught es).Committed Values := fun b hb =>
    ⟨b, hb, hvalues _ _ (transact_written hb)⟩
  have hsilent : ∀ e, (transact link body db).result = .error e →
      (transact link body db).written = none →
      (((transact link body db).caught es).NotSilent Values ↔ e ∉ es) := by
    intro e he hnone
    constructor
    · intro h hmem
      obtain ⟨row, hrow, -⟩ := h ((Outcome.caught_of_error he).mpr hmem)
      rw [Outcome.caught_written, hnone] at hrow
      cases hrow
    · intro hmem hok
      exact absurd ((Outcome.caught_of_error he).mp hok) hmem
  rcases link with _ | _ | ⟨e, _ | _⟩
  · cases hbody : body db with
    | none =>
      rw [hsilent .sqlError (by simp [transact, hbody]) (by simp [transact, hbody])]
      simp [hes]
    | some p =>
      refine iff_of_true (fun _ => hcommitted p.2 ?_) (by simp)
      simp [transact, hbody]
  · rw [hsilent .brokenConnection rfl rfl]
    simp
  · rw [hsilent e rfl rfl]
    refine ⟨fun h => ⟨by simp, ?_⟩, fun h hmem => h.2 e hmem rfl⟩
    rintro e' he' heq
    cases heq
    exact h he'
  · cases hbody : body db with
    | none =>
      rw [hsilent .sqlError (by simp [transact, hbody]) (by simp [transact, hbody])]
      simp [hes]
    | some p =>
      refine iff_of_true (fun _ => hcommitted p.2 ?_) (by simp)
      simp [transact, hbody]

theorem addPendingConfig_notSilent (I : InetType A) (link : Link) (s : SensorId)
    (hostname ip : String) (act : Bool) (r : RequestId) (db : Db A) :
    (addPendingConfig I link s hostname ip act r db).NotSilent (PendingValues I s hostname ip act r) ↔
      link ≠ .lost .brokenConnection false := by
  by_cases hl : link = .closed
  · subst hl
    exact iff_of_true (fun h => by cases h) (by simp)
  · rw [addPendingConfig_of_ne I hl, caught_notSilent _ (by simp) _ _ _ _
      fun _ _ => pendingValues_of_insertRequest]
    simp [hl]

theorem upsertSensorConfig_notSilent (I : InetType A) (link : Link) (s : SensorId)
    (hostname ip : String) (act : Bool) (r : RequestId) (db : Db A) :
    (upsertSensorConfig I link s hostname ip act r db).NotSilent
        (ConfigValues I s hostname ip act r) ↔
      link ≠ .closed ∧ link ≠ .lost .brokenConnection false ∧ link ≠ .lost .other false := by
  rw [upsertSensorConfig, caught_notSilent _ (by simp) _ _ _ _ fun _ _ => configValues_of_upsertRow]
  simp

theorem upsertSensorState_notSilent [DoubleText] (link : Link) (s : SensorId) (temp : ℚ)
    (db : Db A) :
    (upsertSensorState link s temp db).NotSilent (StateValues s temp) ↔
      link ≠ .lost .brokenConnection false ∧ link ≠ .lost .other false := by
  by_cases hl : link = .closed
  · subst hl
    exact iff_of_true (fun h => by cases h) (by simp)
  · have hcaught : upsertSensorState link s temp db =
        (transact link (Db.upsertTemp s temp) db).caught [.brokenConnection, .other] := by
      cases link <;> first | rfl | exact absurd rfl hl
    rw [hcaught, caught_notSilent _ (by simp) _ _ _ _ fun _ _ => stateValues_of_upsertTemp]
    simp [hl]

/-! ## What `config_ip` waits for -/

/-- Where `config_ip` waits for the response to `r`, the pending row of `r` is committed. -/
def WaitsForCommitted (I : InetType A) (env : CallEnv κ) (q : ConfigRequest) (db : Db A)
    (d : Dispatcher κ) : Prop :=
  ∀ r st, (configIpCalls I env q db d).1 = .answered r st →
    (addPendingConfig I env.addLink q.sensorId (sensorHostname q.sensorId) q.ip true r
      (generateRequestId env.generateLink db).db).Committed
        (PendingValues I q.sensorId (sensorHostname q.sensorId) q.ip true r)

/-- `config_ip` waits where both calls of the database have returned. -/
theorem configIpCalls_answered (I : InetType A) (env : CallEnv κ) (q : ConfigRequest) (db : Db A)
    (d : Dispatcher κ) (r : RequestId) :
    (∃ st, (configIpCalls I env q db d).1 = .answered r st) ↔
      (generateRequestId env.generateLink db).result = .ok r ∧
        (addPendingConfig I env.addLink q.sensorId (sensorHostname q.sensorId) q.ip true r
          (generateRequestId env.generateLink db).db).result = .ok () := by
  cases hg : (generateRequestId env.generateLink db).result with
  | error e => simp [configIpCalls, hg]
  | ok r' =>
    cases ha : (addPendingConfig I env.addLink q.sensorId (sensorHostname q.sensorId) q.ip true r'
      (generateRequestId env.generateLink db).db).result with
    | error e =>
      simp only [configIpCalls, hg, ha, reduceCtorEq, exists_false, Except.ok.injEq, false_iff,
        not_and]
      rintro rfl
      simp [ha]
    | ok =>
      simp only [configIpCalls, hg, ha, CallResult.answered.injEq, Except.ok.injEq]
      constructor
      · rintro ⟨-, rfl, -⟩
        exact ⟨rfl, ha⟩
      · rintro ⟨rfl, -⟩
        exact ⟨_, rfl, rfl⟩

theorem waitsForCommitted_iff (I : InetType A) (env : CallEnv κ) (q : ConfigRequest) (db : Db A)
    (d : Dispatcher κ) : WaitsForCommitted I env q db d ↔
      (∀ r, (generateRequestId env.generateLink db).result ≠ .ok r) ∨
        env.addLink ≠ .lost .brokenConnection false := by
  constructor
  · intro h
    by_contra hno
    push Not at hno
    obtain ⟨⟨r, hr⟩, hlink⟩ := hno
    refine (addPendingConfig_notSilent I env.addLink q.sensorId (sensorHostname q.sensorId) q.ip true
      r (generateRequestId env.generateLink db).db).mp (fun hok => ?_) hlink
    obtain ⟨st, hst⟩ := (configIpCalls_answered I env q db d r).mpr ⟨hr, hok⟩
    exact h r st hst
  · rintro h r st hst
    obtain ⟨hr, hok⟩ := (configIpCalls_answered I env q db d r).mp ⟨st, hst⟩
    rcases h with h | h
    · exact absurd hr (h r)
    · exact (addPendingConfig_notSilent I env.addLink _ _ _ _ r _).mpr h hok

/-- **When no write fails silently.**  Each write, and each wait of `config_ip`, for every way its
transaction can end. -/
theorem writes_notSilent [DoubleText] (I : InetType A) :
    (∀ link s hostname ip act r db, (addPendingConfig I link s hostname ip act r db).NotSilent
        (PendingValues I s hostname ip act r) ↔ link ≠ .lost .brokenConnection false) ∧
      (∀ link s hostname ip act r db, (upsertSensorConfig I link s hostname ip act r db).NotSilent
        (ConfigValues I s hostname ip act r) ↔
          link ≠ .closed ∧ link ≠ .lost .brokenConnection false ∧ link ≠ .lost .other false) ∧
      (∀ link s temp (db : Db A), (upsertSensorState link s temp db).NotSilent (StateValues s temp) ↔
        link ≠ .lost .brokenConnection false ∧ link ≠ .lost .other false) ∧
      ∀ (env : CallEnv κ) q db d, WaitsForCommitted I env q db d ↔
        (∀ r, (generateRequestId env.generateLink db).result ≠ .ok r) ∨
          env.addLink ≠ .lost .brokenConnection false :=
  ⟨addPendingConfig_notSilent I, upsertSensorConfig_notSilent I, upsertSensorState_notSilent,
    waitsForCommitted_iff I⟩

open ShortestText in
/-- **Three silent failures**: the connection is lost before the commit, and nobody is told. -/
theorem writes_silent :
    ¬ (addPendingConfig addrInet (.lost .brokenConnection false) 3 "sensor-3" "10.0.0.2" true 5
        oneSensor).NotSilent (PendingValues addrInet 3 "sensor-3" "10.0.0.2" true 5) ∧
      ¬ (upsertSensorConfig addrInet (.lost .brokenConnection false) 3 "sensor-3" "10.0.0.2" true 5
        oneSensor).NotSilent (ConfigValues addrInet 3 "sensor-3" "10.0.0.2" true 5) ∧
      ¬ (upsertSensorState (.lost .brokenConnection false) 3 21 oneSensor).NotSilent
        (StateValues 3 21) ∧
      ¬ WaitsForCommitted addrInet (κ := Unit)
        ⟨.up, .lost .brokenConnection false, fun _ d => (.timeout, d)⟩ ⟨3, "10.0.0.2"⟩ oneSensor {} := by
  refine ⟨fun h => ?_, fun h => ?_, fun h => ?_, fun h => ?_⟩
  · obtain ⟨row, hrow, -⟩ := h rfl
    cases hrow
  · obtain ⟨row, hrow, -⟩ := h rfl
    cases hrow
  · obtain ⟨row, hrow, -⟩ := h rfl
    cases hrow
  · obtain ⟨row, hrow, -⟩ := h 5 .timeout (by decide)
    cases hrow

end ManagementSensors
