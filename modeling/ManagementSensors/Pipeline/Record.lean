import ManagementSensors.Machinery.History
import ManagementSensors.Pipeline.Provenance

/-!
# Pipeline/Record — what every handler has committed for the request it serves

An answer is owed to one request, and an identifier need not name one.  So the system is run here with
a record: for every handler, what `add_pending_config` has done for the request it serves.  An answer
is seen with the record of the handler that gives it (`recorded`).

A handler that waits has inserted a row with the sensor, the address and the identifier of its own
request, or has been told so by a `broken_connection` that was swallowed (`Recorded`).
-/

open Machinery Function

namespace ManagementSensors.Pipeline

variable {π κ ι A : Type}

/-! ## The record -/

/-- What `add_pending_config` has done for a request: what became of the connection, and the row that
has been committed. -/
structure Added (A : Type) where
  link : Link
  row? : Option (PendingRow A)
  deriving DecidableEq, Repr

/-- The handler whose step an input is. -/
def Input.handler : Input π κ ι → Option (π × κ)
  | .request p c _ | .generate p c _ | .add p c _ | .lock p c | .expire p c | .wake p c => some (p, c)
  | _ => none

variable [DecidableEq π] [DecidableEq κ]

/-- The record after a step: a new request has nothing added yet. -/
def record (rec : π → κ → Option (Added A)) (i : Input π κ ι) (o : Option (Event π A)) :
    π → κ → Option (Added A) :=
  match i with
  | .request p c _ => update rec p (update (rec p) c none)
  | .add p c link => update rec p (update (rec p) c (some ⟨link, o.bind Event.request⟩))
  | _ => rec

variable [DecidableEq ι]

/-- **The system with its record.**  An event is seen with what has been added for the request of the
handler whose step it is. -/
def recorded (π κ ι : Type) [DecidableEq π] [DecidableEq κ] [DecidableEq ι] (I : InetType A) :
    Machine (Pipeline π κ ι A × (π → κ → Option (Added A))) (Input π κ ι)
      (Event π A × Option (Added A)) :=
  (machine π κ ι I).withHistory record fun rec i => i.handler.bind fun x => rec x.1 x.2

/-- The row holds what the request asks for, addresses compared as INET values. -/
def Matches (I : InetType A) (q : ConfigRequest) (row : PendingRow A) : Prop :=
  row.sensorId = q.sensorId ∧ I.parse q.ip = some row.requestedIp

/-- **What has been added for request `q` under identifier `r`**: its row, which is pending since, or
nothing, where `broken_connection` was swallowed. -/
def Added.IsFor (I : InetType A) (τ : List (Event π A)) (q : ConfigRequest) (r : RequestId) :
    Added A → Prop
  | ⟨_, some row⟩ => .requested row ∈ τ ∧ row.requestId = r.toInt64 ∧ Matches I q row
  | ⟨link, none⟩ => link = .lost .brokenConnection false

variable {I : InetType A} {s t : Pipeline π κ ι A} {rec : π → κ → Option (Added A)}
  {τ : List (Event π A)} {i : Input π κ ι} {o : Option (Event π A)} {p : π} {c : κ}
  {q : ConfigRequest} {r : RequestId} {db : Db A}

omit [DecidableEq π] [DecidableEq κ] [DecidableEq ι] in
theorem Added.IsFor.append {a : Added A} (h : a.IsFor I τ q r) (τ' : List (Event π A)) :
    a.IsFor I (τ ++ τ') q r := by
  obtain ⟨link, row?⟩ := a
  cases row? with
  | none => exact h
  | some row => exact ⟨List.mem_append_left _ h.1, h.2⟩

omit [DecidableEq ι] in
@[simp] theorem record_add {link : Link} :
    record rec (.add p c link : Input π κ ι) o p c = some ⟨link, o.bind Event.request⟩ := by
  simp [record]

omit [DecidableEq ι] in
theorem update_update_of_ne {p' : π} {c' : κ} {a : Option (Added A)} (h : ¬ (p = p' ∧ c = c')) :
    update rec p' (update (rec p') c' a) p c = rec p c := by
  by_cases hp : p = p'
  · subst hp
    rw [update_self, update_of_ne fun hc => h ⟨rfl, hc⟩]
  · rw [update_of_ne hp]

/-- The record of a handler that waits stays as it is. -/
theorem record_of_awaits (hstep : (machine π κ ι I).step s i = some (t, o))
    (hw : (s.handler p c).bind Phase.awaits = some (q, r)) : record rec i o p c = rec p c := by
  cases step_cases hstep with
  | @request p' c' _ _ _ x hp hx =>
    refine update_update_of_ne ?_
    rintro ⟨rfl, rfl⟩
    obtain ⟨srv', o'⟩ := x
    cases Server.step_cases hx with
    | request hc =>
      rw [handler_serving hp, hc] at hw
      cases hw
    | call hi => cases hi
  | @add p' c' _ _ _ _ _ _ _ hp hc =>
    refine update_update_of_ne ?_
    rintro ⟨rfl, rfl⟩
    rw [handler_serving hp, hc] at hw
    cases hw
  | call hi => cases hi <;> rfl
  | _ => rfl

/-! ## Whoever waits has added its row -/

/-- **The invariant of the record**: whoever waits, or is about to, has added what its request asks
for. -/
def Recorded (I : InetType A) (τ : List (Event π A)) (s : Pipeline π κ ι A)
    (rec : π → κ → Option (Added A)) : Prop :=
  ∀ p c q r, (s.handler p c).bind Phase.awaits = some (q, r) → ∃ a, rec p c = some a ∧ a.IsFor I τ q r

omit [DecidableEq π] [DecidableEq κ] [DecidableEq ι] in
theorem recorded_atRest (I : InetType A) (db : Db A) (rec : π → κ → Option (Added A)) :
    Recorded I [] ({ db := db } : Pipeline π κ ι A) rec := fun _ _ _ _ hw => by cases hw

/-- **The step lemma.** -/
theorem Recorded.step (h : Recorded I τ s rec) (hstep : (machine π κ ι I).step s i = some (t, o)) :
    Recorded I (τ ++ o.toList) t (record rec i o) := by
  intro p c q r hw
  rcases awaits_step hstep hw with hs | ⟨link, rfl, hc, hres⟩
  · obtain ⟨a, ha, hfor⟩ := h p c q r hs
    exact ⟨a, (record_of_awaits hstep hs).trans ha, hfor.append _⟩
  · refine ⟨_, record_add, ?_⟩
    rcases pending_step hstep with ⟨-, hno, hlost⟩ | ⟨_, _, _, q', r', row, he, hc', hrow, -, rfl⟩
    · rw [bind_request_eq_none hno]
      exact hlost p c link q r rfl hc hres
    · cases he
      rw [hc] at hc'
      cases hc'
      obtain ⟨hid, -, hs, -, hip, -⟩ := Db.pendingRow_eq hrow
      exact ⟨by simp, hid, hs, hip⟩

/-- A step of the recorded system. -/
theorem recorded_step {x y : Pipeline π κ ι A × (π → κ → Option (Added A))}
    {o : Option (Event π A × Option (Added A))}
    (hstep : (recorded π κ ι I).step x i = some (y, o)) :
    (machine π κ ι I).step x.1 i = some (y.1, o.map Prod.fst) ∧ y.2 = record x.2 i (o.map Prod.fst) ∧
      ∀ e ∈ o, e.2 = i.handler.bind fun z => x.2 z.1 z.2 :=
  Machine.withHistory_step hstep

/-- **An answer and its handler**: the call returns in a step of the handler it answers for. -/
theorem answered_handler {st : ResponseStatus}
    (hstep : (machine π κ ι I).step s i = some (t, some (.answered p q r st))) :
    ∃ c srv inbox i' srv', i.handler = some (p, c) ∧ s.servers p = some (.serving srv inbox) ∧
      (Server.machine κ).step srv i' = some (srv', some (.dispatcher (.returned c r st))) ∧
      ∃ ph, srv.handlers c = some ph ∧ ph.request = q := by
  obtain ⟨c, ph, srv, inbox, i', srv', hp, hi, hx, hc, hq⟩ := answered_step hstep
  refine ⟨c, srv, inbox, i', srv', ?_, hp, hx, ph, hc, hq⟩
  rcases Server.returned_of_step hx with rfl | rfl <;> cases hi <;> rfl

/-! ## What has been upserted before -/

/-- An upsert writes the values of a row that has been committed before. -/
theorem upserted_run (hrun : (machine π κ ι I).Run Guard.free { db := db } τ s) :
    Always (fun τ e => ∀ row, e = .upserted row → ∃ prow, .requested prow ∈ τ ∧
      row.requestId = some prow.requestId ∧ row.sensorId = prow.sensorId ∧
      row.ipAddress = prow.requestedIp) τ := by
  refine hrun.always (chosen_atRest I db) (fun _ _ _ _ _ hI _ hstep => hI.step hstep) ?_
  rintro τ s i t _ hI - hstep row rfl
  obtain ⟨prow, old, hprow, hold, rfl⟩ := hI.upserted hstep
  exact ⟨prow, hprow, rfl, (Db.configOf_mem hold).2, rfl⟩

end ManagementSensors.Pipeline
