import Mathlib.Data.Fintype.Basic
import ManagementSensors.Db.CertBinding
import ManagementSensors.Pipeline.Carriers

/-!
# Pipeline/Frame — what a completed CONFIG_IP request changes

The two handlers choose a hostname and a state where the request has none: `sensor-` and the number of
the sensor, and active.  Nothing on the way reads the row they are written over, and the upsert sets
every column but the certificate.  A request that is completed sets these two with the address and the
identifier (`configIp_frame`).
-/

open Machinery Function

namespace ManagementSensors

/-! ## The hostname a handler chooses -/

/-- A number is a few digits and a sign. -/
theorem toList_toString_sensorId (n : SensorId) :
    (toString n).toList.length ≤ 11 ∧ ∀ c ∈ (toString n).toList, c ≠ '\x00' := by
  have hrepr : ∀ m : ℕ, m < 10 ^ 10 → m.repr.toList.length ≤ 10 ∧
      ∀ c ∈ m.repr.toList, c ≠ '\x00' := fun m hm => by
    refine ⟨(Nat.length_repr_le_iff (by decide)).mpr hm, ?_⟩
    rintro c hc rfl
    rw [Nat.toList_repr] at hc
    exact absurd (Nat.isDigit_of_mem_toDigits (by decide) (by decide) hc) (by decide)
  have hlow := n.le_toInt
  have hhigh := n.toInt_lt
  change n.toInt.repr.toList.length ≤ 11 ∧ ∀ c ∈ n.toInt.repr.toList, c ≠ '\x00'
  cases hn : n.toInt with
  | ofNat m =>
    rw [hn, Int.ofNat_eq_natCast] at hhigh
    obtain ⟨hlen, hnul⟩ := hrepr m (by omega)
    exact ⟨hlen.trans (by decide), hnul⟩
  | negSucc m =>
    rw [hn] at hlow
    obtain ⟨hlen, hnul⟩ := hrepr m.succ (by omega)
    have hsign : "-".toList.length = 1 := by decide
    rw [Int.repr, String.toList_append]
    refine ⟨?_, fun c hc => ?_⟩
    · rw [List.length_append, hsign]
      omega
    rcases List.mem_append.mp hc with hc | hc
    · rw [List.mem_singleton.mp hc]
      decide
    · exact hnul c hc

/-- It fits its column. -/
theorem varchar100_sensorHostname (n : SensorId) :
    varchar100 (sensorHostname n) = some (sensorHostname n) := by
  obtain ⟨hlen, hnul⟩ := toList_toString_sensorId n
  have hlist : (sensorHostname n).toList = "sensor-".toList ++ (toString n).toList :=
    String.toList_append
  have hc : cStr (sensorHostname n) = sensorHostname n := by
    refine cStr_eq_self ?_
    rw [hlist, List.mem_append, not_or]
    exact ⟨by decide, fun h => hnul _ h rfl⟩
  have hshort : (sensorHostname n).toList.length ≤ 100 := by
    have hprefix : "sensor-".toList.length = 7 := by decide
    rw [hlist, List.length_append]
    omega
  rw [varchar100, hc, List.drop_eq_nil_of_le hshort, List.take_of_length_le hshort]
  simp

namespace Pipeline

variable {π κ ι A : Type}

/-! ## What is in flight -/

/-- The row an event writes. -/
def Event.upsert : Event π A → Option (ConfigRow A)
  | .upserted row => some row
  | _ => none

/-- The rows that have been written. -/
def upserts (τ : List (Event π A)) : List (ConfigRow A) := τ.filterMap Event.upsert

theorem upserts_append (τ : List (Event π A)) (o : Option (Event π A)) :
    upserts (τ ++ o.toList) = upserts τ ++ (o.bind Event.upsert).toList := by
  cases o with
  | none => simp
  | some e => cases h : e.upsert <;> simp [upserts, h]

variable [DecidableEq π] [DecidableEq κ] [DecidableEq ι] {I : InetType A} {s t : Pipeline π κ ι A}
  {τ τ' : List (Event π A)} {i : Input π κ ι} {o : Option (Event π A)}

/-- **The invariant of every run**: what is in flight is of a row that a handler has committed, with
the hostname and the state it chooses. -/
structure Chosen (I : InetType A) (τ : List (Event π A)) (s : Pipeline π κ ι A) : Prop where
  carried : ∀ m, s.Carries m → ∃ channel row, .requested row ∈ τ ∧ m = requestMessage I channel row
  rows : ∀ row, .requested row ∈ τ → row ∈ s.db.pending ∧
    row.requestedHostname = some (sensorHostname row.sensorId) ∧ row.requestedIsActive = some true

omit [DecidableEq π] [DecidableEq κ] [DecidableEq ι] in
theorem chosen_atRest (I : InetType A) (db : Db A) :
    Chosen I [] ({ db := db } : Pipeline π κ ι A) where
  carried m h := by
    rcases h with ⟨k, hk, -⟩ | ⟨q, hq, -⟩ | ⟨i, x, hx, -⟩
    · cases hk
    · cases hq
    · cases hx
  rows := nofun

theorem Chosen.step (h : Chosen I τ s) (hstep : (machine π κ ι I).step s i = some (t, o)) :
    Chosen I (τ ++ o.toList) t where
  carried m hm := by
    rcases carries_step hstep hm with hm | ⟨m', hm', rfl⟩ | ⟨row, rfl, rfl⟩
    · obtain ⟨channel, row, hrow, rfl⟩ := h.carried m hm
      exact ⟨channel, row, List.mem_append_left _ hrow, rfl⟩
    · obtain ⟨channel, row, hrow, rfl⟩ := h.carried m' hm'
      exact ⟨_, row, List.mem_append_left _ hrow, echo_requestMessage⟩
    · exact ⟨_, row, by simp, rfl⟩
  rows row hrow := by
    rcases List.mem_append.mp hrow with hrow | hrow
    · obtain ⟨hmem, hvalues⟩ := h.rows row hrow
      exact ⟨pending_subset hstep hmem, hvalues⟩
    · obtain rfl : o = some (.requested row) := by simpa using hrow
      rcases pending_step hstep with ⟨-, hno, -⟩ | ⟨_, _, _, q, _, row', -, -, hvalues, hins, ho⟩
      · exact absurd rfl (hno row)
      · cases ho
        obtain ⟨-, -, hsensor, hhost, -, hact, -⟩ := Db.pendingRow_eq hvalues
        rw [varchar100_sensorHostname] at hhost
        exact ⟨by rw [(Db.insertPending_eq hins).1]; simp, by rw [← hhost, hsensor], hact⟩

/-! ## What is written -/

/-- The row of a sensor once its request is completed: all is new but the sensor and its
certificate. -/
def configured (prow : PendingRow A) (old : ConfigRow A) : ConfigRow A :=
  { old with
    hostname := sensorHostname prow.sensorId
    ipAddress := prow.requestedIp
    isActive := some true
    requestId := some prow.requestId }

/-- **What an upsert writes** over the row of its sensor, which there is. -/
theorem Chosen.upserted {row : ConfigRow A} (h : Chosen I τ s)
    (hstep : (machine π κ ι I).step s i = some (t, some (.upserted row))) :
    ∃ prow old, .requested prow ∈ τ ∧ s.db.configOf prow.sensorId = some old ∧
      row = configured prow old := by
  obtain ⟨m, e, hm, hev, hrow⟩ := upserted_step hstep
  obtain ⟨channel, prow, hprow, rfl⟩ := h.carried m hm
  obtain ⟨hpending, hhost, hact⟩ := h.rows prow hprow
  rw [readConfigEvent_of_requested hhost hact] at hev
  obtain rfl := Option.some.inj (Option.some.inj hev)
  obtain ⟨old, hold⟩ : ∃ old, s.db.configOf prow.sensorId = some old := by
    rw [← Option.ne_none_iff_exists', Ne, Db.configOf_eq_none, not_not]
    exact s.db.pendingRef prow hpending
  obtain ⟨hsensor, hid, -, hname, hip, hactive, -⟩ := Db.upsertRow_eq hrow
  have hcert := Db.certId_of_upsertRow hold hrow
  have hnul : cStr (sensorHostname prow.sensorId) = sensorHostname prow.sensorId := by
    refine cStr_eq_self fun hmem => ?_
    rw [sensorHostname, String.toList_append] at hmem
    rcases List.mem_append.mp hmem with hmem | hmem
    · exact absurd hmem (by decide)
    · exact (toList_toString_sensorId _).2 _ hmem rfl
  rw [hnul, varchar100_sensorHostname] at hname
  rw [I.parse_render] at hip
  refine ⟨prow, old, hprow, hold, ?_⟩
  cases row
  simp_all [configured, (Db.configOf_mem hold).2]

/-- No upsert leaves the configuration alone; one upsert is that of a row a handler has committed, and
sets the row of its sensor. -/
structure Written (I : InetType A) (db : Db A) (τ τ' : List (Event π A)) (t : Pipeline π κ ι A) :
    Prop where
  chosen : Chosen I (τ ++ τ') t
  same : upserts τ' = [] → ∀ n, t.db.configOf n = db.configOf n
  once : ∀ row, upserts τ' = [row] → ∃ prow old, .requested prow ∈ τ ++ τ' ∧
    db.configOf prow.sensorId = some old ∧ row = configured prow old ∧
    ∀ n, t.db.configOf n = if prow.sensorId = n then some row else db.configOf n

theorem Written.step {db : Db A} (h : Written I db τ τ' s)
    (hstep : (machine π κ ι I).step s i = some (t, o)) : Written I db τ (τ' ++ o.toList) t := by
  refine ⟨by rw [← List.append_assoc]; exact h.chosen.step hstep, ?_, ?_⟩ <;>
    rw [upserts_append]
  · intro hnil
    obtain ⟨hnil, ho⟩ := List.append_eq_nil_iff.mp hnil
    rcases config_step hstep with ⟨hsame, -⟩ | ⟨row, rfl, -⟩
    · exact fun n => (hsame n).trans (h.same hnil n)
    · cases ho
  · intro row hone
    rcases config_step hstep with ⟨hsame, hno⟩ | ⟨row', rfl, hset⟩
    · have hnone : o.bind Event.upsert = none := by
        cases o with
        | none => rfl
        | some e => cases e <;> first | rfl | exact absurd rfl (hno _)
      rw [hnone, Option.toList_none, List.append_nil] at hone
      obtain ⟨prow, old, hprow, hold, hrow, hconf⟩ := h.once row hone
      refine ⟨prow, old, ?_, hold, hrow, fun n => (hsame n).trans (hconf n)⟩
      rw [← List.append_assoc]
      exact List.mem_append_left _ hprow
    · -- the step is the upsert, and there was none before it
      obtain ⟨hnil, hrow⟩ : upserts τ' = [] ∧ [row'] = [row] := List.append_inj' hone rfl
      obtain rfl : row' = row := List.head_eq_of_cons_eq hrow
      obtain ⟨prow, old, hprow, hold, hrow⟩ := h.chosen.upserted hstep
      have hsensor : row'.sensorId = prow.sensorId := by
        rw [hrow]
        exact (Db.configOf_mem hold).2
      rw [h.same hnil] at hold
      refine ⟨prow, old, ?_, hold, hrow, fun n => by rw [hset n, hsensor, h.same hnil]⟩
      rw [← List.append_assoc]
      exact List.mem_append_left _ hprow

/-! ## A request that is completed -/

/-- **Only the address**: of the row of one sensor the address and the identifier have changed, and of
every other row nothing. -/
def OnlyAddress (db db' : Db A) (n : SensorId) : Prop :=
  (∀ m, m ≠ n → db'.configOf m = db.configOf m) ∧
    ∀ old ∈ db.configOf n, ∃ ip r, db'.configOf n = some { old with ipAddress := ip, requestId := r }

/-- **The frame of CONFIG_IP.**  A request that is committed, and completed by the one upsert there is
meanwhile, sets four columns of the row of its sensor, and changes no other; so that only the address
has changed where the two that a handler chooses were as it chooses them. -/
theorem configIp_frame {db : Db A} {prow : PendingRow A} {row : ConfigRow A}
    (hrun : (machine π κ ι I).Run Guard.free { db := db } τ s)
    (hrun' : (machine π κ ι I).Run Guard.free s τ' t) (hreq : .requested prow ∈ τ')
    (hone : upserts τ' = [row]) (hid : row.requestId = some prow.requestId) :
    ∃ old, s.db.configOf prow.sensorId = some old ∧
      t.db.configOf prow.sensorId = some (configured prow old) ∧
      (∀ m, m ≠ prow.sensorId → t.db.configOf m = s.db.configOf m) ∧
      (OnlyAddress s.db t.db prow.sensorId ↔
        old.hostname = sensorHostname prow.sensorId ∧ old.isActive = some true) := by
  have hstart : Chosen I τ s := hrun.invariant (I := Chosen I) (chosen_atRest I db)
    fun _ _ _ _ _ hI _ hstep => hI.step hstep
  have hwritten : Written I s.db τ τ' t := by
    refine hrun'.invariant (I := Written I s.db τ) ⟨by rwa [List.append_nil], fun _ _ => rfl, ?_⟩
      fun _ _ _ _ _ hI _ hstep => hI.step hstep
    rintro _ ⟨⟩
  obtain ⟨prow', old, hprow', hold, rfl, hconf⟩ := hwritten.once row hone
  -- the primary key: the upsert is that of the request
  obtain rfl : prow' = prow := Db.pending_unique (hwritten.chosen.rows _ hprow').1
    (hwritten.chosen.rows _ (List.mem_append_right _ hreq)).1 (Option.some.inj hid)
  have hrow := hconf prow'.sensorId
  rw [if_pos rfl] at hrow
  have hothers : ∀ m, m ≠ prow'.sensorId → t.db.configOf m = s.db.configOf m := fun m hm => by
    rw [hconf, if_neg (Ne.symm hm)]
  refine ⟨old, hold, hrow, hothers, ?_⟩
  constructor
  · rintro ⟨-, honly⟩
    obtain ⟨ip, r, hsome⟩ := honly old hold
    have heq := Option.some.inj (hrow.symm.trans hsome)
    exact ⟨(congrArg ConfigRow.hostname heq).symm, (congrArg ConfigRow.isActive heq).symm⟩
  · rintro ⟨hhost, hact⟩
    refine ⟨hothers, fun old' hold' => ⟨prow'.requestedIp, some prow'.requestId, ?_⟩⟩
    obtain rfl := Option.some.inj (hold.symm.trans hold')
    rw [hrow, configured, ← hhost, ← hact]

/-- Sensor 3 under a name of its own, and not active. -/
def namedSensor : Pipeline Bool Unit Bool Addr where
  db := oneSensor.updateConfig 3 "cpu-node-03" .one false 4

/-- Everything comes up, and a request for sensor 3 goes all the way. -/
def completeRequest : List (Input Bool Unit Bool) :=
  comeUp ++ serveRequest true ⟨3, "10.0.0.2"⟩ ++ commitRequest true ++ roundTrip

/-- What is seen of it. -/
def completed : List (Event Bool Addr) :=
  [.seeded 4, .generated true 5, .requested ⟨5, 3, some "sensor-3", .two, some true, .pending⟩,
    .upserted ⟨3, "sensor-3", .two, some true, 3, some 5⟩]

/-- The request is completed on a sensor whose row is as the handlers choose it. -/
theorem configIp_frame_atRest : ∃ t, (machine Bool Unit Bool addrInet).Run Guard.free atRest
    completed t ∧ OnlyAddress atRest.db t.db 3 := by
  obtain ⟨t, hrun⟩ := (machine Bool Unit Bool addrInet).exists_run_of_exec Guard.free atRest
    completeRequest completed (by decide +kernel)
  have hreq : .requested ⟨5, 3, some "sensor-3", .two, some true, .pending⟩ ∈ completed := by decide
  obtain ⟨old, hold, -, -, honly⟩ := configIp_frame .nil hrun hreq rfl rfl
  obtain rfl : ⟨3, "sensor-3", .one, some true, 3, some 4⟩ = old := Option.some.inj hold
  exact ⟨t, hrun, honly.mpr (by decide)⟩

/-- **A new name**: the sensor that was not active is `sensor-3`, and active. -/
theorem not_onlyAddress : ¬ ∀ τ t prow row,
    (machine Bool Unit Bool addrInet).Run Guard.free namedSensor τ t → .requested prow ∈ τ →
      upserts τ = [row] → row.requestId = some prow.requestId →
        OnlyAddress namedSensor.db t.db prow.sensorId := by
  intro h
  obtain ⟨τ, t, hrun, rfl, hconf⟩ := (machine Bool Unit Bool addrInet).exists_run_of_exec_all
    Guard.free namedSensor completeRequest (fun τ t => τ = completed ∧
      t.db.configOf 3 = some ⟨3, "sensor-3", .two, some true, 3, some 5⟩) (by decide +kernel)
  obtain ⟨-, honly⟩ := h completed t ⟨5, 3, some "sensor-3", .two, some true, .pending⟩ _ hrun
    (by decide) rfl rfl
  obtain ⟨ip, r, hsome⟩ := honly _ rfl
  have hname : "sensor-3" = "cpu-node-03" :=
    congrArg ConfigRow.hostname (Option.some.inj (hconf.symm.trans hsome))
  exact absurd hname (by decide)

end Pipeline

end ManagementSensors
