import ManagementSensors.Db.SequenceSeed
import ManagementSensors.Pipeline.Frame
import ManagementSensors.Pipeline.Refusal

/-!
# Pipeline/Completion — a request can always come through

No state is a dead end.  Whatever a run has left in flight, waiting or stuck, the processes can be
started again, and a request that is sent then is answered SUCCESS, with its address in
`sensor_config` (`request_can_succeed`).  Its way, from a state in which every process is up:

    request ▸ generate ▸ add ▸ lock ▸ forward ▸ brokerRequested ▸ echo ▸ brokerEvents ▸
      brokerDelivers ▸ consume ▸ notified ▸ wake

Each leg takes its message from the end of a queue and adds one at the end of the next, so that what
was queued before it does not matter.
-/

open Machinery Function

namespace ManagementSensors.Pipeline

variable {π κ ι A : Type} [DecidableEq π] [DecidableEq κ] [DecidableEq ι]
  {I : InetType A} {s : Pipeline π κ ι A} {τ : List (Event π A)} {p : π} {c : κ} {m : Message}

/-- A step that shows nothing. -/
theorem run_quiet {s₀ t : Pipeline π κ ι A} {i : Input π κ ι}
    (h : (machine π κ ι I).Run Guard.free s₀ τ s)
    (hstep : (machine π κ ι I).step s i = some (t, none)) :
    (machine π κ ι I).Run Guard.free s₀ τ t := by
  simpa using h.snoc (i := i) (o := none) trivial hstep

/-! ## The way of a message -/

/-- **From the controller's listener to its loop**: the notification is forwarded, echoed by a sensor
and delivered. -/
theorem run_travel {k : Controller} {u q : List Message} {session : List Message} {j : ι} {x : Sensor}
    (hk : s.controller = some k) (hinbox : k.inbox = some (u ++ [m])) (hconn : k.connected = true)
    (hmain : k.main = .consuming q) (hsession : s.session = some session) (hj : s.sensors j = some x)
    (hforward : onDbEventReceived true m = some (some m)) :
    ∃ t, (machine π κ ι I).Run Guard.free s [] t ∧ t.db = s.db ∧ t.servers = s.servers ∧
      ∃ k', t.controller = some k' ∧ k'.main = .consuming (q ++ [ManagementSensors.echo m]) := by
  let s₁ : Pipeline π κ ι A := { s with
    controller := some { k with inbox := some u, outbox := k.outbox ++ [m] } }
  have hforwarded : (machine π κ ι I).step s (.forward u.length false true) = some (s₁, none) := by
    simp [machine, step, forward, hk, hinbox, pick_concat, hconn, hforward, s₁]
  let s₂ : Pipeline π κ ι A := { s₁ with
    controller := some { k with inbox := some u }
    sensors := fun i => (s.sensors i).map (·.receive m) }
  have hrequested : (machine π κ ι I).step s₁ (.brokerRequested k.outbox.length false) =
      some (s₂, none) := by
    simp [machine, step, brokerRequested, pick_concat, s₁, s₂]
  let s₃ : Pipeline π κ ι A := { s₂ with
    sensors := update s₂.sensors j (some { x with outbox := x.outbox ++ [ManagementSensors.echo m] }) }
  have hechoed : (machine π κ ι I).step s₂ (.echo j x.inbox.length false true) = some (s₃, none) := by
    simp [machine, step, echo, hj, Sensor.receive, pick_concat, s₂, s₃]
  let s₄ : Pipeline π κ ι A := { s₃ with
    session := some (session ++ [ManagementSensors.echo m])
    sensors := update s₃.sensors j (some x) }
  have hevents : (machine π κ ι I).step s₃ (.brokerEvents j x.outbox.length false) = some (s₄, none) := by
    simp [machine, step, brokerEvents, pick_concat, hsession, s₁, s₂, s₃, s₄]
  let k' : Controller := { k with
    inbox := some u, main := .consuming (q ++ [ManagementSensors.echo m]) }
  let s₅ : Pipeline π κ ι A := { s₄ with session := some session, controller := some k' }
  have hdelivers : (machine π κ ι I).step s₄ (.brokerDelivers session.length false) =
      some (s₅, none) := by
    simp [machine, step, brokerDelivers, pick_concat, hconn, Controller.receive, hmain, s₁, s₂, s₃, s₄,
      s₅, k']
  have hrun : (machine π κ ι I).Run Guard.free s [] s₅ :=
    run_quiet (run_quiet (run_quiet (run_quiet (run_quiet .nil hforwarded) hrequested) hechoed)
      hevents) hdelivers
  exact ⟨s₅, hrun, rfl, rfl, k', rfl, rfl⟩

/-! ## From the client to the controller's listener -/

section Commit

variable {srv : Server κ} {inbox : Option (List Message)} {q : ConfigRequest} {a : A} {v : ℕ}

/-- What the calls of a request find: a next identifier, and a row the table takes. -/
structure Takes (I : InetType A) (db : Db A) (q : ConfigRequest) (a : A) (v : ℕ) : Prop where
  next : ∃ db', db.nextval = some (db', v)
  fresh : (UInt64.ofNat v).toInt64 ∉ db.pending.map PendingRow.requestId
  sensor : q.sensorId ∈ db.config.map ConfigRow.sensorId
  address : I.parse q.ip = some a

/-- The row of the request. -/
def requestedRow (q : ConfigRequest) (a : A) (v : ℕ) : PendingRow A :=
  ⟨(UInt64.ofNat v).toInt64, q.sensorId, some (sensorHostname q.sensorId), a, some true, .pending⟩

theorem ofNat_lt_bigint (h : v < 2 ^ 63) : UInt64.ofNat v < 2 ^ 63 := by
  rw [UInt64.lt_iff_toNat_lt, toNat_ofNat_of_lt_bigint h]
  have h63 : (2 ^ 63 : UInt64).toNat = 2 ^ 63 := by decide +kernel
  omega

theorem toInt_ofNat (h : v < 2 ^ 63) : (UInt64.ofNat v).toInt64.toInt = v := by
  have hv : (UInt64.ofNat v).toBitVec.toNat = v := by
    rw [UInt64.toNat_toBitVec, toNat_ofNat_of_lt_bigint h]
  rw [Int64.toInt, UInt64.toBitVec_toInt64, BitVec.toInt_eq_toNat_of_lt (by omega), hv]

/-- The two transactions of a handler. -/
theorem Takes.insert {db : Db A} (h : Takes I db q a v) : ∃ db' db'',
    db.nextval = some (db', v) ∧ Db.insertRequest I q.sensorId (sensorHostname q.sensorId) q.ip true
      (UInt64.ofNat v) db' = some (db'', requestedRow q a v) ∧ db''.config = db.config := by
  obtain ⟨db', hnext⟩ := h.next
  obtain ⟨-, hv, -, hpending, hconfig⟩ := Db.nextval_eq hnext
  have hrow : Db.pendingRow I q.sensorId (sensorHostname q.sensorId) q.ip true (UInt64.ofNat v) =
      some (requestedRow q a v) := by
    simp [Db.pendingRow, bigint, ofNat_lt_bigint hv, varchar100_sensorHostname, h.address, requestedRow]
  obtain ⟨db'', hins⟩ : ∃ db'', db'.insertPending (requestedRow q a v) = some db'' := by
    refine ⟨_, dif_pos ⟨?_, ?_⟩⟩
    · rw [hpending]
      exact h.fresh
    · rw [hconfig]
      exact h.sensor
  refine ⟨db', db'', hnext, ?_, (Db.insertPending_eq hins).2.1.trans hconfig⟩
  simp [Db.insertRequest, hrow, hins]

/-- **The row is committed, and the handler waits.** -/
theorem run_commit (hp : s.servers p = some (.serving srv inbox)) (hc : srv.handlers c = none)
    (hframe : srv.dispatcher.frames c = none) (hroom : srv.dispatcher.size < maxPending)
    (htakes : Takes I s.db q a v) :
    ∃ t srv', (machine π κ ι I).Run Guard.free s
        [.generated p (UInt64.ofNat v), .requested (requestedRow q a v)] t ∧
      t.servers p = some (.serving srv' inbox) ∧
      srv'.handlers c = some (.waiting q (UInt64.ofNat v)) ∧
      srv'.dispatcher = srv.dispatcher.register c (UInt64.ofNat v) ∧
      t.db.config = s.db.config ∧ t.session = s.session ∧ t.sensors = s.sensors ∧
      t.controller = s.controller.map
        (Controller.notify (requestMessage I "config_requested" (requestedRow q a v))) := by
  obtain ⟨db', db'', hnext, hins, hconfig⟩ := htakes.insert
  have h₁ := step_request (I := I) (q := q) hp hc
  generalize hsrv₁ : srv.setHandler c (some (.generating q)) = srv₁ at h₁
  have hc₁ : srv₁.handlers c = some (.generating q) := by simp [← hsrv₁]
  have hdisp₁ : srv₁.dispatcher = srv.dispatcher := by simp [← hsrv₁]
  have hp₁ : (s.setServer p (some (.serving srv₁ inbox))).servers p = some (.serving srv₁ inbox) := by
    simp [setServer]
  have h₂ := step_generate (I := I) hp₁ hc₁ hnext
  generalize hsrv₂ : srv₁.setHandler c (some (.adding q (UInt64.ofNat v))) = srv₂ at h₂
  have hc₂ : srv₂.handlers c = some (.adding q (UInt64.ofNat v)) := by simp [← hsrv₂]
  have hdisp₂ : srv₂.dispatcher = srv.dispatcher := by simp [← hsrv₂, hdisp₁]
  generalize hs₂ : ({ (s.setServer p (some (.serving srv₁ inbox))).setServer p
    (some (.serving srv₂ inbox)) with db := db' } : Pipeline π κ ι A) = s₂ at h₂
  have hp₂ : s₂.servers p = some (.serving srv₂ inbox) := by simp [← hs₂, setServer]
  have h₃ := step_add hp₂ hc₂ (by rw [← hs₂]; exact hins)
  generalize hsrv₃ : srv₂.setHandler c (some (.calling q (UInt64.ofNat v))) = srv₃ at h₃
  have hc₃ : srv₃.handlers c = some (.calling q (UInt64.ofNat v)) := by simp [← hsrv₃]
  have hdisp₃ : srv₃.dispatcher = srv.dispatcher := by simp [← hsrv₃, hdisp₂]
  generalize hs₃ : ({ s₂.setServer p (some (.serving srv₃ inbox)) with
    db := db'' } : Pipeline π κ ι A).notifyRequest I (requestedRow q a v) = s₃ at h₃
  have hp₃ : s₃.servers p = some (.serving srv₃ inbox) := by simp [← hs₃, setServer, notifyRequest]
  have h₄ := step_register (I := I) hp₃ hc₃ (by rw [hdisp₃]; exact hframe)
    (by rw [hdisp₃]; exact hroom)
  have hrun := run_quiet (((run_quiet .nil h₁).concat trivial h₂).concat trivial h₃) h₄
  refine ⟨_, ⟨srv₃.dispatcher.register c (UInt64.ofNat v),
    update srv₃.handlers c (some (.waiting q (UInt64.ofNat v)))⟩, by simpa using hrun, ?_, ?_, ?_, ?_,
    ?_, ?_, ?_⟩
  · simp [setServer]
  · exact update_self _ _ _
  · rw [hdisp₃]
  · rw [← hconfig, ← hs₃]
    rfl
  all_goals
    rw [← hs₃, ← hs₂]
    rfl

end Commit

/-! ## From the controller's loop to the client -/

section Answer

variable {srv : Server κ} {inbox u : List Message} {k : Controller} {prow : PendingRow A}
  {hostname : String} {act : Bool} {old : ConfigRow A}

/-- The row of a sensor, as the upsert of a pending row leaves it. -/
def appliedRow (old : ConfigRow A) (prow : PendingRow A) (hostname : String) (act : Bool) :
    ConfigRow A :=
  { old with hostname := hostname, ipAddress := prow.requestedIp, isActive := some act,
             requestId := some prow.requestId }

/-- A text parameter is cut at its first NUL once. -/
theorem varchar100_cStr (h : String) : varchar100 (cStr h) = varchar100 h := by
  have hidem : cStr (cStr h) = cStr h := cStr_eq_self fun hmem => by
    rw [cStr, String.toList_ofList] at hmem
    exact absurd (List.mem_takeWhile_imp hmem) (by decide)
  rw [varchar100, hidem, varchar100]

/-- The upsert of a pending row, where its sensor is known. -/
theorem upsertRow_of_known {db : Db A} (act : Bool) (hold : db.configOf prow.sensorId = some old)
    (hid : prow.requestId.toUInt64 < 2 ^ 63) (hhost : varchar100 hostname = some hostname) :
    db.upsertRow I prow.sensorId (cStr hostname) (I.render prow.requestedIp) act
      prow.requestId.toUInt64 =
        some (db.updateConfig prow.sensorId hostname prow.requestedIp act prow.requestId,
          appliedRow old prow hostname act) := by
  have hsensor : old.sensorId = prow.sensorId := (Db.configOf_mem hold).2
  simp [Db.upsertRow, bigint, hid, varchar100_cStr, hhost, I.parse_render, hold, ConfigRow.update,
    hsensor, appliedRow]

/-- **The last message of the loop is applied**, and every server that listens is notified. -/
theorem run_apply (hk : s.controller = some k)
    (hmain : k.main = .consuming (u ++ [requestMessage I "config_events" prow]))
    (hhost : prow.requestedHostname = some hostname) (hact : prow.requestedIsActive = some act)
    (hvarchar : varchar100 hostname = some hostname)
    (hid : prow.requestId.toUInt64 < 2 ^ 63) (hold : s.db.configOf prow.sensorId = some old)
    (hp : s.servers p = some (.serving srv (some inbox))) :
    ∃ t op, (machine π κ ι I).Run Guard.free s [.upserted (appliedRow old prow hostname act)] t ∧
      t.db.configOf prow.sensorId = some (appliedRow old prow hostname act) ∧
      t.servers p = some (.serving srv (some (inbox ++ [parserNotify "config_events"
        (notifyConfigChange I op (appliedRow old prow hostname act))]))) := by
  have hupsert := upsertRow_of_known (I := I) act hold hid hvarchar
  have hrow := (Db.upsertRow_eq hupsert).2.2.2.2.2.2.1 prow.sensorId
  rw [if_pos rfl] at hrow
  have hstep : (machine π κ ι I).step s (.consume u.length .up) =
      some (({ s with
        db := s.db.updateConfig prow.sensorId hostname prow.requestedIp act prow.requestId
        controller := some { k with main := .consuming u } } : Pipeline π κ ι A).notifyChange I
          (triggerOp s.db (appliedRow old prow hostname act).sensorId)
          (appliedRow old prow hostname act),
        some (.upserted (appliedRow old prow hostname act))) := by
    simp [machine, step, consume, hk, Controller.received, hmain, pick_concat,
      readConfigEvent_of_requested hhost hact, upsertSensorConfig, transact, hupsert, Outcome.caught]
  refine ⟨_, triggerOp s.db (appliedRow old prow hostname act).sensorId,
    Machine.Run.nil.concat trivial hstep, hrow, ?_⟩
  simp [notifyChange, hp, Process.notify]

/-- **The last notification of a server is dispatched**, and its handler answers. -/
theorem run_answer {op : String} {q : ConfigRequest} {r : RequestId} {row : ConfigRow A}
    {m : Message} {f : Frame} (hm : m = parserNotify "config_events" (notifyConfigChange I op row))
    (hp : s.servers p = some (.serving srv (some (inbox ++ [m]))))
    (hrow : row.requestId.map Int64.toUInt64 = some r)
    (hc : srv.handlers c = some (.waiting q r)) (hf : srv.dispatcher.frames c = some f)
    (hfid : f.id = r) (hlookup : srv.dispatcher.pendingRequests.lookup r = some c) :
    ∃ t, (machine π κ ι I).Run Guard.free s [.answered p q r .success] t ∧ t.db = s.db := by
  subst hm
  let d : Dispatcher κ := { srv.dispatcher with
    frames := update srv.dispatcher.frames c (some { f with ctx := ⟨.success, true⟩ }) }
  have hnotified : (machine π κ ι I).step s (.notified p inbox.length false) =
      some (s.setServer p (some (.serving { srv with dispatcher := d } (some inbox))), none) := by
    simp [machine, step, notified, hp, pick_concat, Server.step, onDbConfigEventReceived_change, hrow,
      Dispatcher.step, Dispatcher.dispatch, hlookup, Dispatcher.write, hf, Server.advance, d]
  have hwake : (machine π κ ι I).step
      (s.setServer p (some (.serving { srv with dispatcher := d } (some inbox)))) (.wake p c) =
        some ((s.setServer p (some (.serving { srv with dispatcher := d } (some inbox)))).setServer p
          (some (.serving ⟨d.leave c r, update srv.handlers c none⟩ (some inbox))),
            some (.answered p q r .success)) := by
    simp [machine, step, serve, setServer, Server.step, Dispatcher.step, Dispatcher.wake, d, hfid,
      Server.advance, answer, handler, hc, Phase.request]
  exact ⟨_, (run_quiet .nil hnotified).concat trivial hwake, rfl⟩

end Answer

/-! ## The whole way -/

variable {q : ConfigRequest} {a : A} {v : ℕ} {old : ConfigRow A}

/-- **What the way of a request needs**: a server that listens and has room, with a handler that is
idle; a controller that listens, is connected and consumes, with its session; and a sensor. -/
structure Ready (s : Pipeline π κ ι A) (p : π) (c : κ) : Prop where
  server : ∃ srv inbox, s.servers p = some (.serving srv (some inbox)) ∧ srv.handlers c = none ∧
    srv.dispatcher.frames c = none ∧ srv.dispatcher.size < maxPending
  controller : ∃ k u r, s.controller = some k ∧ k.inbox = some u ∧ k.connected = true ∧
    k.main = .consuming r
  session : ∃ session, s.session = some session
  sensor : ∃ j x, s.sensors j = some x

/-- What is seen of a request that comes through. -/
def comesThrough (p : π) (q : ConfigRequest) (a : A) (v : ℕ) (old : ConfigRow A) :
    List (Event π A) :=
  [.generated p (UInt64.ofNat v), .requested (requestedRow q a v),
    .upserted (appliedRow old (requestedRow q a v) (sensorHostname q.sensorId) true),
    .answered p q (UInt64.ofNat v) .success]

theorem Ready.run (h : s.Ready p c) (htakes : Takes I s.db q a v)
    (hold : s.db.configOf q.sensorId = some old) :
    ∃ t, (machine π κ ι I).Run Guard.free s (comesThrough p q a v old) t ∧
      t.db.configOf q.sensorId =
        some (appliedRow old (requestedRow q a v) (sensorHostname q.sensorId) true) := by
  obtain ⟨srv, inbox, hp, hc, hframe, hroom⟩ := h.server
  obtain ⟨k, u, r, hk, hu, hconn, hmain⟩ := h.controller
  obtain ⟨session, hsession⟩ := h.session
  obtain ⟨j, x, hj⟩ := h.sensor
  obtain ⟨-, hv, -⟩ := Db.nextval_eq htakes.next.choose_spec
  -- the row is committed
  obtain ⟨s₁, srv₁, hrun₁, hp₁, hc₁, hdisp₁, hconfig₁, hsession₁, hsensors₁, hk₁⟩ :=
    run_commit (p := p) (c := c) hp hc hframe hroom htakes
  rw [hk, Option.map_some, Controller.notify, hu, Option.map_some] at hk₁
  -- its message is sent round
  obtain ⟨s₂, hrun₂, hdb₂, hservers₂, k₂, hk₂, hmain₂⟩ := run_travel (I := I) hk₁ rfl hconn hmain
    (hsession₁.trans hsession) (by rw [hsensors₁, hj]) (onDbEventReceived_requestMessage true)
  rw [echo_requestMessage] at hmain₂
  -- and applied
  have hid : (requestedRow q a v).requestId.toUInt64 < 2 ^ 63 := by
    rw [requestedRow, UInt64.toUInt64_toInt64]
    exact ofNat_lt_bigint hv
  obtain ⟨s₃, op, hrun₃, hrow₃, hp₃⟩ := run_apply (I := I) (p := p) hk₂ hmain₂ rfl rfl
    (varchar100_sensorHostname q.sensorId) hid (by rw [hdb₂, Db.configOf, hconfig₁]; exact hold)
    (by rw [hservers₂]; exact hp₁)
  -- and the handler hears of it
  obtain ⟨s₄, hrun₄, hdb₄⟩ := run_answer (I := I) (c := c) (f := { id := UInt64.ofNat v }) rfl hp₃
    (by simp [appliedRow, requestedRow]) hc₁ (by simp [hdisp₁]) rfl (by simp [hdisp₁])
  exact ⟨s₄, ((hrun₁.trans hrun₂).trans hrun₃).trans hrun₄, by rw [hdb₄]; exact hrow₃⟩

/-! ## Starting again -/

/-- The sequence, once it has been seeded: the next identifier is above every one in use. -/
theorem takes_of_seeded {db db' : Db A} (hset : db.setval db.maxRequestId = some db')
    (hmax : db.maxRequestId + 1 < 2 ^ 63) (hold : db.configOf q.sensorId = some old)
    (haddress : I.parse q.ip = some a) : Takes I db' q a (db.maxRequestId.toNat + 1) := by
  obtain ⟨hpos, hseq, hpending, hconfig⟩ := Db.setval_eq hset
  have hlt : db.maxRequestId.toNat + 1 < 2 ^ 63 := by omega
  refine ⟨⟨{ db' with requestIdSeq := some ⟨db.maxRequestId.toNat + 1, true⟩ }, ?_⟩, fun hmem => ?_, ?_,
    haddress⟩
  · simp only [Db.nextval, hseq, Option.bind_eq_bind, Option.bind_some, if_true, if_pos hlt,
      Option.pure_def]
  · rw [hpending] at hmem
    have hstored : (UInt64.ofNat (db.maxRequestId.toNat + 1)).toInt64 ∈ db.requestIds :=
      List.mem_append_left _ hmem
    have hle := (Db.maxRequestId_of_ne_nil (List.ne_nil_of_mem hstored)).2 _ hstored
    rw [toInt_ofNat hlt] at hle
    omega
  · rw [hconfig]
    obtain ⟨hrow, hsensor⟩ := Db.configOf_mem hold
    exact List.mem_map.mpr ⟨old, hrow, hsensor⟩

/-- **The processes start again**: a server, the controller and a sensor are stopped and come up. -/
theorem run_restart {db : Db A} (I : InetType A) (s : Pipeline π κ ι A) (p : π) (c : κ) (j : ι)
    (hset : s.db.setval s.db.maxRequestId = some db) : ∃ t,
    (machine π κ ι I).Run Guard.free s [.seeded s.db.maxRequestId] t ∧ t.Ready p c ∧ t.db = db := by
  let s₁ := s.setServer p none
  have hstopped : (machine π κ ι I).step s (.stopServer p) = some (s₁, none) := rfl
  let s₂ := s.setServer p (some .starting)
  have hstarted : (machine π κ ι I).step s₁ (.startServer p) = some (s₂, none) := by
    simp [machine, step, setServer, s₁, s₂]
  let s₃ := s.setServer p (some (.seeding s.db.maxRequestId))
  have hread : (machine π κ ι I).step s₂ (.readMaximum p) = some (s₃, none) := by
    simp [machine, step, setServer, s₂, s₃]
  let s₄ := { s with db := db }.setServer p (some .seeded)
  have hseeded : (machine π κ ι I).step s₃ (.setSequence p) =
      some (s₄, some (.seeded s.db.maxRequestId)) := by
    simp [machine, step, setSequence, setServer, hset, s₃, s₄]
  let s₅ := { s with db := db }.setServer p (some (.serving {} (some [])))
  have hlistens : (machine π κ ι I).step s₄ (.listen p true) = some (s₅, none) := by
    simp [machine, step, setServer, s₄, s₅]
  let s₆ := { s₅ with controller := none }
  have hdown : (machine π κ ι I).step s₅ .stopController = some (s₆, none) := rfl
  let s₇ := { s₅ with controller := some { inbox := some [] } }
  have hup : (machine π κ ι I).step s₆ (.startController true) = some (s₇, none) := by
    simp [machine, step, s₆, s₇]
  let s₈ := { s₅ with
    controller := some { inbox := some [], connected := true, main := .consuming [] }
    session := some (s₅.session.getD []) }
  have hconnected : (machine π κ ι I).step s₇ .connectController = some (s₈, none) := by
    simp [machine, step, s₇, s₈]
  let s₉ := { s₈ with sensors := update s₈.sensors j none }
  have hoff : (machine π κ ι I).step s₈ (.stopSensor j) = some (s₉, none) := rfl
  let s₁₀ := { s₈ with sensors := update s₈.sensors j (some {}) }
  have hon : (machine π κ ι I).step s₉ (.startSensor j) = some (s₁₀, none) := by
    simp [machine, step, s₉, s₁₀]
  have hserver := run_quiet ((run_quiet (run_quiet (run_quiet .nil hstopped) hstarted)
    hread).concat trivial hseeded) hlistens
  have hcontroller := run_quiet (run_quiet (run_quiet hserver hdown) hup) hconnected
  refine ⟨s₁₀, run_quiet (run_quiet hcontroller hoff) hon, ⟨?_, ?_, ?_, ?_⟩, rfl⟩
  · exact ⟨{}, [], update_self _ _ _, rfl, rfl, Nat.zero_lt_succ _⟩
  · exact ⟨_, [], [], rfl, rfl, rfl, rfl⟩
  · exact ⟨_, rfl⟩
  · exact ⟨j, {}, update_self _ _ _⟩

/-- **A request can always come through.**  In every state, whatever is in flight or stuck, where an
identifier is stored: a server, the controller and a sensor are started again, and a request for a
sensor that is configured is answered SUCCESS, with the next identifier above every one in use, and
its address is in `sensor_config`. -/
theorem request_can_succeed (I : InetType A) (s : Pipeline π κ ι A) (p : π) (c : κ) (j : ι)
    (q : ConfigRequest) (a : A) (old : ConfigRow A) (hpos : 1 ≤ s.db.maxRequestId)
    (hmax : s.db.maxRequestId + 1 < 2 ^ 63) (hold : s.db.configOf q.sensorId = some old)
    (haddress : I.parse q.ip = some a) :
    ∃ t row, (machine π κ ι I).Run Guard.free s (.seeded s.db.maxRequestId ::
        comesThrough p q a (s.db.maxRequestId.toNat + 1) old) t ∧
      t.db.configOf q.sensorId = some row ∧ row.ipAddress = a ∧
      row.requestId.map Int64.toInt = some (s.db.maxRequestId + 1) := by
  have hset : ∃ db, s.db.setval s.db.maxRequestId = some db := ⟨_, if_pos hpos⟩
  obtain ⟨db, hset⟩ := hset
  obtain ⟨s₁, hrun₁, hready, hdb⟩ := run_restart I s p c j hset
  have htakes := takes_of_seeded hset hmax hold haddress
  rw [← hdb] at htakes
  obtain ⟨t, hrun, hrow⟩ := hready.run htakes
    (by rw [hdb, Db.configOf, (Db.setval_eq hset).2.2.2]; exact hold)
  have hid : (s.db.maxRequestId.toNat : ℤ) + 1 = s.db.maxRequestId + 1 := by omega
  refine ⟨t, _, hrun₁.trans hrun, hrow, rfl, ?_⟩
  simp only [appliedRow, requestedRow, Option.map_some]
  rw [toInt_ofNat (by omega), Nat.cast_add, Nat.cast_one, hid]

/-- Sensor 3 of the database whose configuration was last set by request 4. -/
theorem request_can_succeed_oneSensor : ∃ t row, (machine Bool Unit Bool addrInet).Run Guard.free
    atRest (.seeded 4 :: comesThrough true ⟨3, "10.0.0.2"⟩ .two 5 ⟨3, "sensor-3", .one, some true, 3,
      some 4⟩) t ∧ t.db.configOf 3 = some row ∧ row.ipAddress = .two ∧
      row.requestId.map Int64.toInt = some 5 :=
  request_can_succeed addrInet atRest true () true ⟨3, "10.0.0.2"⟩ .two _ (by decide) (by decide) rfl
    (by decide)

end ManagementSensors.Pipeline
