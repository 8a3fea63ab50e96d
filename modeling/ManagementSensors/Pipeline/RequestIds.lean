import ManagementSensors.Pipeline.Steps

/-!
# Pipeline/RequestIds — when the identifiers of all the servers are increasing

`nextval` alone never goes back; every server that starts sets the shared sequence to the largest
identifier it has read from the tables.  The identifiers are increasing while no server sets the
sequence below one that has been returned (`SeedsAbove`), and no longer once one does
(`not_increasing_of_seed_below`): an identifier that is generated and not yet inserted is not in the
tables.
-/

open Machinery Function

namespace ManagementSensors.Pipeline

variable {π κ ι A : Type} [DecidableEq π] [DecidableEq κ] [DecidableEq ι]

/-- The identifier an event shows `generate_request_id` to return. -/
def Event.generatedId : Event π A → Option RequestId
  | .generated _ r => some r
  | _ => none

/-- The identifiers `generate_request_id` has returned, in the order of their `nextval`. -/
def generatedIds (τ : List (Event π A)) : List RequestId := τ.filterMap Event.generatedId

/-- The value a starting server is about to set the sequence to. -/
def seed (s : Pipeline π κ ι A) (p : π) : Option ℤ :=
  match s.servers p with
  | some (.seeding v) => some v
  | _ => none

/-- **No sequence is set back**: a server that starts sets the sequence to no less than every
identifier returned so far. -/
def SeedsAbove : Guard (Pipeline π κ ι A) (Input π κ ι) (Event π A) := fun τ s i =>
  match i with
  | .setSequence p => ∀ v ∈ s.seed p, 1 ≤ v → ∀ r ∈ generatedIds τ, (r.toNat : ℤ) ≤ v
  | _ => True

/-- The test for it. -/
def SeedsAbove.test (τ : List (Event π A)) (s : Pipeline π κ ι A) : Input π κ ι → Bool
  | .setSequence p => (s.seed p).all fun v =>
    !decide (1 ≤ v) || (generatedIds τ).all fun r => decide ((r.toNat : ℤ) ≤ v)
  | _ => true

omit [DecidableEq π] [DecidableEq κ] [DecidableEq ι] in
theorem SeedsAbove.test_iff {τ : List (Event π A)} {s : Pipeline π κ ι A} {i : Input π κ ι} :
    SeedsAbove.test τ s i = true ↔ SeedsAbove τ s i := by
  cases i with
  | setSequence p =>
    simp only [SeedsAbove.test, SeedsAbove, Option.all_eq_true, Option.mem_def, Bool.or_eq_true,
      Bool.not_eq_true', decide_eq_false_iff_not, List.all_eq_true, decide_eq_true_eq,
      ← imp_iff_not_or]
  | _ => simp [SeedsAbove.test, SeedsAbove]

instance (τ : List (Event π A)) (s : Pipeline π κ ι A) (i : Input π κ ι) :
    Decidable (SeedsAbove τ s i) := decidable_of_iff _ SeedsAbove.test_iff

variable {I : InetType A} {s t u : Pipeline π κ ι A} {o o' : Option (Event π A)}
  {τ : List (Event π A)} {i : Input π κ ι} {p : π} {c : κ} {r : RequestId}

omit [DecidableEq π] in
theorem generatedIds_concat (τ : List (Event π A)) (o : Option (Event π A)) :
    generatedIds (τ ++ o.toList) = generatedIds τ ++ (o.bind Event.generatedId).toList := by
  cases o with
  | none => simp
  | some e => cases h : e.generatedId <;> simp [generatedIds, h]

/-- What a step returns as an identifier: nothing, or what its `nextval` has taken. -/
inductive IdCases (s : Pipeline π κ ι A) (i : Input π κ ι) (db : Db A) :
    Option RequestId → Prop
  | none (hseq : db.requestIdSeq = s.db.requestIdSeq) : IdCases s i db none
  | seeded {p : π} {v : ℤ} (hi : i = .setSequence p) (hp : s.seed p = some v) (hv : 1 ≤ v)
      (hseq : db.requestIdSeq = some ⟨v.toNat, true⟩) : IdCases s i db none
  | nextval {v : ℕ} {r : Option RequestId} (hdb : s.db.nextval = some (db, v))
      (hr : ∀ r' ∈ r, r' = UInt64.ofNat v) : IdCases s i db r

theorem id_cases (h : (machine π κ ι I).step s i = some (t, o)) :
    IdCases s i t.db (o.bind Event.generatedId) := by
  generalize hdb : t.db = db
  have hcases := db_cases h
  rw [hdb] at hcases
  cases hcases with
  | quiet _ ho =>
    have hnone : o.bind Event.generatedId = none := by
      cases o with
      | none => rfl
      | some e =>
        obtain ⟨p, q, r, st, rfl⟩ := ho e rfl
        rfl
    rw [hnone]
    exact .none rfl
  | @seeded p v _ hp hv =>
    have hseed : s.seed p = some v := by rw [seed, hp]
    exact .seeded rfl hseed (Db.setval_eq hv).1 (Db.setval_eq hv).2.1
  | @generate p c link =>
    rcases generateRequestId_cases link s.db with ⟨hsame, hnot⟩ | ⟨v, hv, hr⟩
    · cases hres : (generateRequestId link s.db).result with
      | error e => exact .none (by rw [hsame])
      | ok r => exact absurd hres (hnot r)
    · refine .nextval hv fun r' hr' => ?_
      cases hres : (generateRequestId link s.db).result with
      | error e => simp [hres] at hr'
      | ok r =>
        obtain rfl : r = r' := by simpa [hres, Event.generatedId] using hr'
        exact hr r hres
  | @add p c link q r out hc hout =>
    subst hout
    have hnone : ∀ w : Option (PendingRow A),
        (w.map (Event.requested (π := π))).bind Event.generatedId = none := by
      intro w
      cases w <;> rfl
    rw [hnone]
    rcases addPendingConfig_cases I link q.sensorId (sensorHostname q.sensorId) q.ip true r s.db with
      ⟨hsame, -, -⟩ | ⟨row, -, hins, -⟩
    · exact .none (by rw [hsame])
    · exact .none (Db.insertPending_eq hins).2.2.1
  | @consume k n link q m e out hk hm hev hout =>
    subst hout
    have hnone : ∀ w : Option (ConfigRow A),
        (w.map (Event.upserted (π := π))).bind Event.generatedId = none := by
      intro w
      cases w <;> rfl
    rw [hnone]
    rcases upsertSensorConfig_cases I link e.sensorId e.hostname e.ip e.isActive e.requestId s.db with
      ⟨hsame, -⟩ | ⟨row, hrow, -⟩
    · exact .none (by rw [hsame])
    · exact .none (Db.upsertRow_eq hrow).2.2.2.2.2.2.2.2

/-! ## Increasing -/

/-- **The invariant**: the identifiers returned are increasing, and the sequence has handed out a
value no less than each. -/
structure Increasing (τ : List (Event π A)) (db : Db A) : Prop where
  sorted : (generatedIds τ).Pairwise (· < ·)
  handedOut : ∀ r ∈ generatedIds τ, ∃ q, db.requestIdSeq = some q ∧ q.isCalled = true ∧
    r.toNat ≤ q.lastValue

theorem Increasing.step (h : Increasing τ s.db) (hC : SeedsAbove τ s i)
    (hstep : (machine π κ ι I).step s i = some (t, o)) : Increasing (τ ++ o.toList) t.db := by
  have hids := generatedIds_concat τ o
  generalize ho : o.bind Event.generatedId = r? at hids
  have hcase := id_cases hstep
  rw [ho] at hcase
  cases hcase with
  | none hseq =>
    rw [Option.toList_none, List.append_nil] at hids
    exact ⟨hids ▸ h.sorted, fun r hr => by rw [hseq]; exact h.handedOut r (hids ▸ hr)⟩
  | @seeded p v hi hp hv hseq =>
    subst hi
    rw [Option.toList_none, List.append_nil] at hids
    refine ⟨hids ▸ h.sorted, fun r hr => ⟨_, hseq, rfl, ?_⟩⟩
    have hle : (r.toNat : ℤ) ≤ v := hC v hp hv r (hids ▸ hr)
    change r.toNat ≤ v.toNat
    omega
  | @nextval v _ hdb hr =>
    obtain ⟨hseq, hv, hnext, -, -⟩ := Db.nextval_eq hdb
    have hlt : ∀ r ∈ generatedIds τ, r.toNat < v := fun r hr' => by
      obtain ⟨q, hq, hc, hle⟩ := h.handedOut r hr'
      have := hnext q hq hc
      omega
    have hval : ∀ r' ∈ r?, r'.toNat = v := fun r' hr' => by
      rw [hr r' hr']
      exact toNat_ofNat_of_lt_bigint hv
    refine ⟨?_, fun r hr' => ⟨_, hseq, rfl, ?_⟩⟩
    · rw [hids, List.pairwise_append]
      refine ⟨h.sorted, by cases r? <;> simp, fun a ha b hb => ?_⟩
      have hb' : b.toNat = v := hval b (by simpa using hb)
      exact UInt64.lt_iff_toNat_lt.mpr (hb' ▸ hlt a ha)
    · rw [hids, List.mem_append] at hr'
      rcases hr' with hr' | hr'
      · exact (hlt r hr').le
      · exact (hval r (by simpa using hr')).le

/-- **When the identifiers are unique and increasing.**  In every run, from any database, in which no
server sets the sequence below an identifier already returned, the identifiers
`generate_request_id` returns are strictly increasing in the order of their `nextval`. -/
theorem generateRequestId_increasing {s₀ : Pipeline π κ ι A}
    (hrun : (machine π κ ι I).Run SeedsAbove s₀ τ s) : (generatedIds τ).Pairwise (· < ·) :=
  (hrun.invariant (I := fun τ s => Increasing τ s.db) ⟨List.Pairwise.nil, nofun⟩
    fun _ _ _ _ _ hI hC hstep => hI.step hC hstep).sorted

/-- **The condition is needed**: where a server sets the sequence below an identifier already
returned, the next identifier a server is given is not above that one. -/
theorem not_increasing_of_seed_below {v : ℤ} (hr : r ∈ generatedIds τ) (hlt : v < r.toNat)
    (hp : s.servers p = some (.seeding v)) (hv : 1 ≤ v)
    (hset : (machine π κ ι I).step s (.setSequence p) = some (t, o)) {p' : π}
    (hgen : (machine π κ ι I).step t (.generate p' c .up) = some (u, o')) {r' : RequestId}
    (ho' : o' = some (.generated p' r')) :
    ¬ (generatedIds ((τ ++ o.toList) ++ o'.toList)).Pairwise (· < ·) := by
  have hseq : t.db.requestIdSeq = some ⟨v.toNat, true⟩ := by
    cases step_cases hset with
    | @seeded _ v' _ hp' hdb =>
      rw [hp] at hp'
      cases hp'
      exact (Db.setval_eq hdb).2.1
    | notSeeded hp' hdb =>
      rw [hp] at hp'
      cases hp'
      simp [Db.setval, hv] at hdb
    | call hi _ _ => cases hi
  have hr' : r'.toNat ≤ r.toNat := by
    have hid := id_cases hgen
    subst ho'
    cases hid with
    | nextval hdb hval =>
      obtain ⟨-, hlt', hnext, -, -⟩ := Db.nextval_eq hdb
      have heq := hnext _ hseq rfl
      rw [hval r' rfl, toNat_ofNat_of_lt_bigint hlt']
      change _ = v.toNat + 1 at heq
      omega
  intro hsorted
  rw [generatedIds_concat, generatedIds_concat, ho', List.pairwise_append] at hsorted
  have := hsorted.2.2 r (List.mem_append_left _ hr) r' (by simp [Event.generatedId])
  exact absurd (UInt64.lt_iff_toNat_lt.mp this) (by omega)

/-- Two servers that start one after the other, and are given two identifiers. -/
theorem generateRequestId_increasing_twice :
    (generatedIds [.seeded 4, .generated true 5, .requested ⟨5, 3, some "sensor-3", Addr.two, some true,
      .pending⟩, .seeded 5, .generated false 6]).Pairwise (· < ·) := by
  obtain ⟨s, hrun⟩ := (machine Bool Unit Bool addrInet).exists_run_of_exec SeedsAbove atRest
    (serveRequest true ⟨3, "10.0.0.2"⟩ ++ [.generate true () .up, .add true () .up] ++
      serveRequest false ⟨3, "10.0.0.2"⟩ ++ [.generate false () .up])
    [.seeded 4, .generated true 5, .requested ⟨5, 3, some "sensor-3", .two, some true, .pending⟩,
      .seeded 5, .generated false 6] (by decide +kernel)
  exact generateRequestId_increasing hrun

/-- **An identifier handed out twice**: the second server reads the tables before the row of
identifier 5 is inserted, and sets the sequence back to 4. -/
theorem not_increasing :
    ¬ ∀ τ s, (machine Bool Unit Bool addrInet).Run Guard.free atRest τ s →
      (generatedIds τ).Pairwise (· < ·) := by
  intro h
  obtain ⟨s, hrun⟩ := (machine Bool Unit Bool addrInet).exists_run_of_exec Guard.free atRest
    (serveRequest true ⟨3, "10.0.0.2"⟩ ++ [.generate true () .up] ++
      serveRequest false ⟨3, "10.0.0.2"⟩ ++ [.generate false () .up])
    [.seeded 4, .generated true 5, .seeded 4, .generated false 5] (by decide +kernel)
  exact absurd (h _ _ hrun) (by decide)

end ManagementSensors.Pipeline
