import ManagementSensors.Machinery.Register
import ManagementSensors.Pipeline.Frame

/-!
# Pipeline/Provenance — the two tables of the pipeline are a register of orders

Seen through `sensor_config_pending` and `sensor_config` alone, the servers, the controller, the
broker and the sensors are a register: a committed request is an order for the row of its sensor,
and an upsert carries out one that has been given (`register_run`).

So `sensor_config_pending` is a log.  A request is appended to it as PENDING; no component reads it
again, sets its status or takes it out, whatever has become of the request.  And `sensor_config` holds
nothing that has not been requested: the row of a sensor is the one it had at first, or that one with
the four columns of a single request for this sensor (`tables_recorded`).
-/

open Machinery Function

namespace ManagementSensors.Pipeline

variable {π κ ι A : Type}

/-! ## The register -/

/-- **The orders of the pipeline**: a pending row sets four columns of the row of its sensor. -/
def configurations (A : Type) : Orders (PendingRow A) SensorId (ConfigRow A) where
  key := PendingRow.sensorId
  carryOut := configured
  overwrites _ _ _ := rfl

/-- What an event is for the tables. -/
def Event.onTables : Event π A → Option (Register.Event (PendingRow A) (ConfigRow A))
  | .requested row => some (.given row)
  | .upserted row => some (.written row)
  | _ => none

/-- The tables as a register; of the pending rows, those after the first `n`. -/
def register (n : ℕ) (s : Pipeline π κ ι A) : Register (PendingRow A) SensorId (ConfigRow A) where
  given := s.db.pending.drop n
  rows := s.db.configOf

/-- The pending row an event commits. -/
def Event.request : Event π A → Option (PendingRow A)
  | .requested row => some row
  | _ => none

/-- The pending rows that have been committed, in the order of their commits. -/
def requests (τ : List (Event π A)) : List (PendingRow A) := τ.filterMap Event.request

theorem requests_append (τ : List (Event π A)) (o : Option (Event π A)) :
    requests (τ ++ o.toList) = requests τ ++ (o.bind Event.request).toList := by
  cases o with
  | none => simp
  | some e => cases h : e.request <;> simp [requests, h]

theorem mem_requests {τ : List (Event π A)} {prow : PendingRow A} :
    prow ∈ requests τ ↔ .requested prow ∈ τ := by
  rw [requests, List.mem_filterMap]
  refine ⟨fun ⟨e, he, hrow⟩ => ?_, fun h => ⟨_, h, rfl⟩⟩
  cases e with
  | requested row =>
    cases hrow
    exact he
  | seeded | generated | upserted | answered => cases hrow

theorem bind_request_eq_none {o : Option (Event π A)} (h : ∀ row, o ≠ some (.requested row)) :
    o.bind Event.request = none := by
  cases o with
  | none => rfl
  | some e =>
    cases e with
    | requested row => exact absurd rfl (h row)
    | seeded | generated | upserted | answered => rfl

/-- The orders of the register are the requests. -/
theorem orders_onTables (τ : List (Event π A)) :
    Register.orders (τ.filterMap Event.onTables) = requests τ := by
  rw [Register.orders, List.filterMap_filterMap, requests]
  congr 1
  funext e
  cases e <;> rfl

variable {I : InetType A} {s t : Pipeline π κ ι A} {τ : List (Event π A)} {db : Db A}

/-! ## The steps, as the register sees them -/

/-- A step that neither commits a request nor upserts one does not touch the tables. -/
theorem onTables_eq_none {o : Option (Event π A)} (hreq : ∀ row, o ≠ some (.requested row))
    (hup : ∀ row, o ≠ some (.upserted row)) : o.bind Event.onTables = none := by
  cases o with
  | none => rfl
  | some e =>
    cases e with
    | requested row => exact absurd rfl (hreq row)
    | upserted row => exact absurd rfl (hup row)
    | seeded | generated | answered => rfl

/-- A committed request is an order that has not been given before, for a row there is. -/
theorem register_requested [DecidableEq A] {n : ℕ} {prow : PendingRow A} (hn : n ≤ s.db.pending.length)
    (hins : s.db.insertPending prow = some t.db) (hconf : ∀ k, t.db.configOf k = s.db.configOf k) :
    (configurations A).machine.step (s.register n) (.give prow) =
      some (t.register n, some (.given prow)) := by
  obtain ⟨hpending, -, -, hnew⟩ := Db.insertPending_eq hins
  have hknown : (s.db.configOf prow.sensorId).isSome := by
    rw [← hconf, Option.isSome_iff_ne_none, Ne, Db.configOf_eq_none, not_not]
    exact t.db.pendingRef prow (by rw [hpending]; simp)
  have hgiven : prow ∉ (s.register n).given := fun h =>
    hnew (List.mem_map_of_mem (List.mem_of_mem_drop h))
  rw [Orders.step_give (O := configurations A) hgiven hknown, register, register, hpending,
    List.drop_append_of_le_length hn, funext hconf]

/-- An upsert carries out an order that has been given. -/
theorem register_upserted [DecidableEq A] {n : ℕ} {prow : PendingRow A} {old : ConfigRow A}
    (hprow : prow ∈ s.db.pending.drop n) (hold : s.db.configOf prow.sensorId = some old)
    (hpending : t.db.pending = s.db.pending)
    (hset : ∀ k, t.db.configOf k =
      if (configured prow old).sensorId = k then some (configured prow old) else s.db.configOf k) :
    (configurations A).machine.step (s.register n) (.carryOut prow) =
      some (t.register n, some (.written (configured prow old))) := by
  have hsensor : (configured prow old).sensorId = prow.sensorId := (Db.configOf_mem hold).2
  have hrows : t.db.configOf =
      update s.db.configOf prow.sensorId (some (configured prow old)) := by
    funext k
    rw [hset, hsensor, update_apply]
    simp only [eq_comm]
  rw [Orders.step_carryOut (O := configurations A) (s := s.register n) hprow hold, register,
    register, hpending, hrows]
  rfl

variable [DecidableEq π] [DecidableEq κ] [DecidableEq ι]

/-! ## The runs -/

theorem chosen_run (hrun : (machine π κ ι I).Run Guard.free { db := db } τ s) : Chosen I τ s :=
  hrun.invariant (I := Chosen I) (chosen_atRest I db) fun _ _ _ _ _ hI _ hstep => hI.step hstep

/-- **A log**: the pending rows are those there were, and those that have been committed. -/
theorem pending_run (hrun : (machine π κ ι I).Run Guard.free { db := db } τ s) :
    s.db.pending = db.pending ++ requests τ := by
  refine hrun.invariant (I := fun τ s => s.db.pending = db.pending ++ requests τ)
    (List.append_nil _).symm ?_
  intro τ s i t o hI _ hstep
  rw [requests_append]
  rcases pending_step hstep with ⟨hsame, hno, -⟩ | ⟨_, _, _, _, _, prow, -, -, -, hins, rfl⟩
  · rw [hsame, hI, bind_request_eq_none hno, Option.toList_none, List.append_nil]
  · rw [(Db.insertPending_eq hins).1, hI, List.append_assoc]
    rfl

/-- A handler commits its request as PENDING. -/
theorem status_run (hrun : (machine π κ ι I).Run Guard.free { db := db } τ s) :
    ∀ prow ∈ requests τ, prow.status = .pending := by
  refine hrun.invariant (I := fun τ _ => ∀ prow ∈ requests τ, prow.status = .pending) nofun ?_
  intro τ s i t o hI _ hstep prow hprow
  rw [requests_append, List.mem_append] at hprow
  rcases hprow with hprow | hprow
  · exact hI prow hprow
  · rcases pending_step hstep with ⟨-, hno, -⟩ | ⟨_, _, _, _, _, prow', -, -, hvalues, -, rfl⟩
    · rw [bind_request_eq_none hno] at hprow
      cases hprow
    · obtain rfl : prow = prow' := by simpa [Event.request] using hprow
      exact (Db.pendingRow_eq hvalues).2.2.2.2.2.2

/-- **The pipeline is a register.**  Every run of it is, in its two tables, a run of the register that
starts with the rows there are and without an order. -/
theorem register_run [DecidableEq A] (hrun : (machine π κ ι I).Run Guard.free { db := db } τ s) :
    (configurations A).machine.Run Guard.free ⟨[], db.configOf⟩ (τ.filterMap Event.onTables)
      (s.register db.pending.length) := by
  have hstart : Register.mk [] db.configOf =
      ({ db := db } : Pipeline π κ ι A).register db.pending.length := by
    rw [register, List.drop_length]
  rw [hstart]
  refine hrun.project (D := Guard.free) (register db.pending.length) Event.onTables ?_
  intro τ s i t o hrun _ hstep
  have hlog := pending_run hrun
  rcases config_step hstep with ⟨hsame, hup⟩ | ⟨row, rfl, hset⟩
  · rcases pending_step hstep with ⟨hpending, hreq, -⟩ | ⟨_, _, _, _, _, prow, -, -, -, hins, rfl⟩
    · refine Or.inl ⟨?_, onTables_eq_none hreq hup⟩
      rw [register, register, hpending, funext hsame]
    · exact Or.inr ⟨.give prow, trivial, register_requested (by simp [hlog]) hins hsame⟩
  · obtain ⟨prow, old, hprow, hold, rfl⟩ := (chosen_run hrun).upserted hstep
    rcases pending_step hstep with ⟨hpending, -⟩ | ⟨_, _, _, _, _, _, -, -, -, -, ho⟩
    · refine Or.inr ⟨.carryOut prow, trivial, register_upserted ?_ hold hpending hset⟩
      rw [hlog, List.drop_left]
      exact mem_requests.mpr hprow
    · cases ho

/-- A requested row: the one its sensor had at first, with the columns of a request for it. -/
def RequestedRow (db : Db A) (τ : List (Event π A)) (row : ConfigRow A) : Prop :=
  ∃ prow ∈ requests τ, ∃ old, db.configOf prow.sensorId = some old ∧ row = configured prow old

/-- **The tables are the record of what has been requested.**  Every run of the pipeline is one of the
register.  The pending rows are those there were at first and, in the order of their commits, those
that handlers have committed, all of them PENDING still; an upsert writes over the first row of its
sensor the columns of a request that has been committed before; and the row of a sensor is its first
one or such a one. -/
theorem tables_recorded [DecidableEq A] (hrun : (machine π κ ι I).Run Guard.free { db := db } τ s) :
    (configurations A).machine.Run Guard.free ⟨[], db.configOf⟩ (τ.filterMap Event.onTables)
        (s.register db.pending.length) ∧
      s.db.pending = db.pending ++ requests τ ∧ (∀ prow ∈ requests τ, prow.status = .pending) ∧
      Always (fun τ₁ e => ∀ row, e = .upserted row → RequestedRow db τ₁ row) τ ∧
      ∀ n, s.db.configOf n = db.configOf n ∨
        ∃ row, s.db.configOf n = some row ∧ RequestedRow db τ row := by
  have hregister := register_run hrun
  obtain ⟨hgiven, halways, hrows⟩ := Orders.rows_run hregister
  rw [orders_onTables, List.nil_append] at hgiven
  refine ⟨hregister, pending_run hrun, status_run hrun, ?_, fun n => (hrows n).imp_right ?_⟩
  · -- an upsert of the run is a row written in the register, at the same place of the trace
    rintro τ₁ e τ₂ rfl row rfl
    rw [List.filterMap_append] at halways
    obtain ⟨n, prow, hprow, rfl, hold⟩ := halways (τ₁.filterMap Event.onTables) (.written row)
      (τ₂.filterMap Event.onTables) rfl row rfl
    rw [orders_onTables, List.nil_append] at hprow
    exact ⟨prow, hprow, hold⟩
  · rintro ⟨row, hrow, prow, hprow, rfl, hold⟩
    rw [hgiven] at hprow
    exact ⟨row, hrow, prow, hprow, hold⟩

/-- A request that has been completed is pending still. -/
theorem tables_recorded_completed : ∃ t, (machine Bool Unit Bool addrInet).Run Guard.free atRest
    completed t ∧ t.db.pending = atRest.db.pending ++
      [⟨5, 3, some "sensor-3", .two, some true, .pending⟩] := by
  obtain ⟨t, hrun⟩ := (machine Bool Unit Bool addrInet).exists_run_of_exec Guard.free atRest
    completeRequest completed (by decide +kernel)
  exact ⟨t, hrun, (tables_recorded hrun).2.1⟩

end ManagementSensors.Pipeline
