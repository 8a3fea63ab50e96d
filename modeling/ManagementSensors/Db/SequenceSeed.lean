import ManagementSensors.Db.DatabaseManager

/-!
# Db/SequenceSeed — when the sequence can be seeded from the tables

`init_request_id_sequence` sets `request_id_seq` to the largest identifier in the tables, or to 0
where there is none.  A sequence starts at 1, so that 0 is refused: the seeding works, and what
`generate_request_id` returns next is above every identifier stored, exactly where one is stored
(`seeds_iff`).
-/

namespace ManagementSensors

variable {A : Type} {db : Db A}

/-- `init_request_id_sequence`: no catch clause keeps an exception back. -/
def initRequestIdSequence (link : Link) (db : Db A) : Outcome A Unit Unit :=
  match link with
  | .closed => ⟨db, none, .error .other⟩
  | link => transact link (fun db => (db.setval db.maxRequestId).map fun db' => (db', ())) db

namespace Db

/-- The identifiers the two tables store. -/
def requestIds (db : Db A) : List Int64 :=
  db.pending.map PendingRow.requestId ++ db.config.filterMap ConfigRow.requestId

/-- The identifiers are those a request can have: from 1 to `2 ^ 63 - 2`. -/
def InRange (db : Db A) : Prop := ∀ id ∈ db.requestIds, 1 ≤ id.toInt ∧ id.toInt ≤ 2 ^ 63 - 2

instance (db : Db A) : Decidable db.InRange := List.decidableBAll _ _

/-- **The database is seeded**: `init_request_id_sequence` succeeds, and the identifier generated
next is above every identifier stored. -/
def Seeds (db : Db A) : Prop :=
  (initRequestIdSequence .up db).result = .ok () ∧
    ∃ r, (generateRequestId .up (initRequestIdSequence .up db).db).result = .ok r ∧
      ∀ id ∈ db.requestIds, id.toInt < r.toNat

/-! ## The seed -/

theorem maxOf_eq_some {ids : List Int64} {v : ℤ} :
    maxOf ids = some v ↔ (∃ id ∈ ids, id.toInt = v) ∧ ∀ id ∈ ids, id.toInt ≤ v := by
  simp [maxOf, List.max?_eq_some_iff]

theorem maxOf_append (ids ids' : List Int64) :
    maxOf (ids ++ ids') = (maxOf ids).merge max (maxOf ids') := by
  cases h : maxOf ids with
  | none =>
    obtain rfl : ids = [] := by simpa [maxOf] using h
    simp
  | some v =>
    cases h' : maxOf ids' with
    | none =>
      obtain rfl : ids' = [] := by simpa [maxOf] using h'
      simpa using h
    | some v' =>
      obtain ⟨hmem, hle⟩ := maxOf_eq_some.mp h
      obtain ⟨hmem', hle'⟩ := maxOf_eq_some.mp h'
      refine maxOf_eq_some.mpr ⟨?_, fun id hid => ?_⟩
      · rcases max_choice v v' with hv | hv <;> rw [hv]
        · exact hmem.imp fun id hid => ⟨List.mem_append_left _ hid.1, hid.2⟩
        · exact hmem'.imp fun id hid => ⟨List.mem_append_right _ hid.1, hid.2⟩
      · rcases List.mem_append.mp hid with hid | hid
        · exact (hle id hid).trans (le_max_left _ _)
        · exact (hle' id hid).trans (le_max_right _ _)

/-- The two maxima are one, over both tables. -/
theorem maxRequestId_eq (db : Db A) : db.maxRequestId = (maxOf db.requestIds).getD 0 := by
  rw [maxRequestId, requestIds, maxOf_append]

theorem maxRequestId_of_nil (h : db.requestIds = []) : db.maxRequestId = 0 := by
  rw [maxRequestId_eq, h]
  rfl

/-- The seed is one of the identifiers, and no identifier is above it. -/
theorem maxRequestId_of_ne_nil (h : db.requestIds ≠ []) :
    (∃ id ∈ db.requestIds, id.toInt = db.maxRequestId) ∧
      ∀ id ∈ db.requestIds, id.toInt ≤ db.maxRequestId := by
  obtain ⟨v, hv⟩ : ∃ v, maxOf db.requestIds = some v := by
    rw [maxOf, ← Option.isSome_iff_exists, List.isSome_max?_iff]
    simpa using h
  rw [maxRequestId_eq, hv, Option.getD_some]
  exact maxOf_eq_some.mp hv

/-! ## Seeding -/

/-- A seed of 0 is refused, and the tables are as they were. -/
theorem initRequestIdSequence_of_nil (h : db.requestIds = []) :
    (initRequestIdSequence .up db).result = .error .sqlError := by
  simp [initRequestIdSequence, transact, setval, maxRequestId_of_nil h]

/-- A seed that is an identifier is set. -/
theorem initRequestIdSequence_of_le (h : 1 ≤ db.maxRequestId) :
    (initRequestIdSequence .up db).result = .ok () ∧
      (initRequestIdSequence .up db).db.requestIdSeq = some ⟨db.maxRequestId.toNat, true⟩ := by
  simp [initRequestIdSequence, transact, setval, h]

/-- What is generated from a sequence that has handed out `v`. -/
theorem generateRequestId_of_called {v : ℕ} (h : db.requestIdSeq = some ⟨v, true⟩)
    (hv : v + 1 < 2 ^ 63) : (generateRequestId .up db).result = .ok (UInt64.ofNat (v + 1)) := by
  have hnext : db.nextval = some ({ db with requestIdSeq := some ⟨v + 1, true⟩ }, v + 1) := by
    simp only [nextval, h, Option.bind_eq_bind, Option.bind_some, if_true, if_pos hv, Option.pure_def]
  simp only [generateRequestId, transact, hnext, Except.map]

/-- **When the seeding works.**  For every content of the tables, and a sequence at any value or
absent: `init_request_id_sequence` succeeds, and the identifier generated next is above every
identifier stored, exactly where an identifier is stored. -/
theorem seeds_iff (h : db.InRange) : db.Seeds ↔ db.requestIds ≠ [] := by
  constructor
  · rintro ⟨hinit, -⟩ hnil
    rw [initRequestIdSequence_of_nil hnil] at hinit
    cases hinit
  · intro hne
    obtain ⟨⟨id, hid, hmax⟩, hle⟩ := maxRequestId_of_ne_nil hne
    obtain ⟨hlow, hhigh⟩ := h id hid
    rw [hmax] at hlow hhigh
    obtain ⟨hok, hseq⟩ := initRequestIdSequence_of_le hlow
    have hnext : db.maxRequestId.toNat + 1 < 2 ^ 63 := by omega
    refine ⟨hok, _, generateRequestId_of_called hseq hnext, fun id' hid' => ?_⟩
    rw [toNat_ofNat_of_lt_bigint hnext]
    have := hle id' hid'
    omega

/-- The sensor whose configuration was last set by request 4. -/
theorem seeds_oneSensor : oneSensor.Seeds := (seeds_iff (by decide)).mpr (by decide)

/-- A database with a certificate, and no sensor yet. -/
def noSensor : Db Addr where
  certs := [3]
  config := []
  pending := []
  state := []
  requestIdSeq := none
  configKey := List.nodup_nil
  certUnique := List.nodup_nil
  certRef := List.forall_mem_nil _
  pendingKey := List.nodup_nil
  pendingRef := List.forall_mem_nil _
  stateKey := List.nodup_nil
  stateRef := List.forall_mem_nil _

/-- **An empty database is not seeded**: the first server on it cannot start. -/
theorem not_seeds : ¬ ∀ db : Db Addr, db.InRange → db.Seeds := by
  intro h
  obtain ⟨hinit, -⟩ := h noSensor (by decide)
  rw [initRequestIdSequence_of_nil rfl] at hinit
  cases hinit

end Db

end ManagementSensors
