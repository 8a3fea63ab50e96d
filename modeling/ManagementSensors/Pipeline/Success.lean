import Mathlib.Data.FinEnum
import ManagementSensors.Pipeline.Record

/-!
# Pipeline/Success — when SUCCESS means that the request was applied

Whatever the order and the number of deliveries, every message in flight is the message of a pending
row, every upsert is that of a pending row, and every SUCCESS is dispatched on the identifier of an
upsert (`Faithful`): the primary key of `sensor_config_pending` makes that identifier name one row.

A handler that waits on it is owed that row where it is its own.  `add_pending_config` swallows
`broken_connection`, so a handler may wait without a row; and a server that starts may hand the same
identifier out again.  `NoReuse` excludes the steps by which a handler comes to wait on an identifier
that another request uses: what a handler without a row waits on stays `Unused`, and its call is never
told SUCCESS.
-/

open Machinery Function

namespace ManagementSensors.Pipeline

variable {π κ ι A : Type} [DecidableEq π] [DecidableEq κ] [DecidableEq ι]

/-! ## Every message, upsert and SUCCESS has its pending row -/

/-- Some upsert with identifier `r` has been committed. -/
def Confirmed (τ : List (Event π A)) (r : RequestId) : Prop :=
  ∃ row, .upserted row ∈ τ ∧ row.requestId = some r.toInt64

/-- **The invariant of every run**: messages and upserts are those of pending rows, and servers know
of SUCCESS on confirmed identifiers only. -/
structure Faithful (I : InetType A) (τ : List (Event π A)) (s : Pipeline π κ ι A) : Prop where
  carried : ∀ m, s.Carries m → ∃ channel, ∃ row ∈ s.db.pending, m = requestMessage I channel row
  upserts : ∀ row, .upserted row ∈ τ → ∃ prow ∈ s.db.pending, row.requestId = some prow.requestId ∧
    row.sensorId = prow.sensorId ∧ row.ipAddress = prow.requestedIp
  servers : ∀ p srv inbox, s.servers p = some (.serving srv inbox) → srv.Sound (Confirmed τ) ∧
    ∀ q ∈ inbox, ∀ m ∈ q, ∀ r, onDbConfigEventReceived m = some (some r) → Confirmed τ r

variable {I : InetType A} {s t : Pipeline π κ ι A} {τ : List (Event π A)} {i : Input π κ ι}
  {o : Option (Event π A)} {p : π} {c : κ} {q : ConfigRequest} {r : RequestId} {db : Db A}
  {rec : π → κ → Option (Added A)}

omit [DecidableEq π] in
theorem Confirmed.append (h : Confirmed τ r) (τ' : List (Event π A)) : Confirmed (τ ++ τ') r := by
  obtain ⟨row, hrow, hr⟩ := h
  exact ⟨row, List.mem_append_left _ hrow, hr⟩

omit [DecidableEq π] [DecidableEq κ] [DecidableEq ι] in
theorem faithful_atRest (I : InetType A) (db : Db A) :
    Faithful I [] ({ db := db } : Pipeline π κ ι A) where
  carried m h := by
    rcases h with ⟨k, hk, -⟩ | ⟨q, hq, -⟩ | ⟨i, x, hx, -⟩
    · cases hk
    · cases hq
    · cases hx
  upserts := nofun
  servers := nofun

/-- The row an upsert writes holds the values of the pending row its message is of. -/
theorem Faithful.upserted {row : ConfigRow A} (h : Faithful I τ s)
    (hstep : (machine π κ ι I).step s i = some (t, some (.upserted row))) :
    ∃ prow ∈ s.db.pending, row.requestId = some prow.requestId ∧ row.sensorId = prow.sensorId ∧
      row.ipAddress = prow.requestedIp := by
  obtain ⟨m, e, hm, hev, hrow⟩ := upserted_step hstep
  obtain ⟨channel, prow, hprow, rfl⟩ := h.carried m hm
  obtain ⟨hostname, act, -, -, he⟩ := readConfigEvent_requestMessage hev
  obtain rfl := Option.some.inj he
  obtain ⟨hs, hid, -, -, hip, -⟩ := Db.upsertRow_eq hrow
  rw [I.parse_render] at hip
  exact ⟨prow, hprow, by simpa using hid, hs, (Option.some.inj hip).symm⟩

theorem Faithful.step (h : Faithful I τ s) (hstep : (machine π κ ι I).step s i = some (t, o)) :
    Faithful I (τ ++ o.toList) t where
  carried m hm := by
    rcases carries_step hstep hm with hm | ⟨m', hm', rfl⟩ | ⟨row, ho, rfl⟩
    · obtain ⟨channel, row, hrow, rfl⟩ := h.carried m hm
      exact ⟨channel, row, pending_subset hstep hrow, rfl⟩
    · obtain ⟨channel, row, hrow, rfl⟩ := h.carried m' hm'
      exact ⟨_, row, pending_subset hstep hrow, echo_requestMessage⟩
    · rcases pending_step hstep with ⟨-, hno, -⟩ | ⟨_, _, _, _, _, row', -, -, -, hins, ho'⟩
      · exact absurd ho (hno row)
      · obtain rfl : row = row' := by
          rw [ho] at ho'
          cases ho'
          rfl
        exact ⟨_, row, by rw [(Db.insertPending_eq hins).1]; simp, rfl⟩
  upserts row hrow := by
    rcases List.mem_append.mp hrow with hrow | hrow
    · obtain ⟨prow, hprow, hvals⟩ := h.upserts row hrow
      exact ⟨prow, pending_subset hstep hprow, hvals⟩
    · obtain rfl : o = some (.upserted row) := by simpa using hrow
      obtain ⟨prow, hprow, hvals⟩ := h.upserted hstep
      exact ⟨prow, pending_subset hstep hprow, hvals⟩
  servers p srv' inbox' ht := by
    -- what a server hears of after the step has been confirmed by then
    have hinbox : ∀ {inbox}, InboxStep I o inbox inbox' →
        (∀ q ∈ inbox, ∀ m ∈ q, ∀ r, onDbConfigEventReceived m = some (some r) → Confirmed τ r) →
        ∀ q ∈ inbox', ∀ m ∈ q, ∀ r, onDbConfigEventReceived m = some (some r) →
          Confirmed (τ ++ o.toList) r := by
      intro inbox hin hq q' hq' m hm r hr
      rcases hin q' hq' m hm with ⟨q, hmem, hm⟩ | ⟨op, row, rfl, rfl⟩
      · exact (hq q hmem m hm r hr).append _
      · rw [onDbConfigEventReceived_change] at hr
        obtain ⟨id, hid, rfl⟩ := Option.map_eq_some_iff.mp (Option.some.inj hr)
        exact ⟨row, by simp, by simpa using hid⟩
    cases server_step hstep ht with
    | fresh hin =>
      refine ⟨Server.sound_empty, fun q hq m hm => ?_⟩
      rw [hin q hq] at hm
      cases hm
    | same hp hin =>
      obtain ⟨hs, hq⟩ := h.servers p _ _ hp
      exact ⟨hs.mono fun r hr => hr.append _, hinbox hin hq⟩
    | @step srv inbox _ i' x hp hin hi hx =>
      obtain ⟨hs, hq⟩ := h.servers p _ _ hp
      refine ⟨(hs.step hx fun msg r hmsg hr => ?_).mono fun r hr => hr.append _, hinbox hin hq⟩
      subst hmsg
      cases hi with
      | call hi => cases hi
      | @notified _ _ _ _ inbox₀ _ hp' hm =>
        rw [hp] at hp'
        cases hp'
        exact hq inbox₀ rfl msg hm r hr

/-! ## What a handler that waits is owed -/

/-- There is a row with identifier `r`. -/
def HasRow (s : Pipeline π κ ι A) (r : RequestId) : Prop :=
  ∃ row ∈ s.db.pending, row.requestId = r.toInt64

/-- **No identifier is used by two requests**: a `broken_connection` is swallowed only where no other
request has a row with the identifier or is about to insert one, and no identifier is handed out on
which a handler waits without a row. -/
def NoReuse : Guard (Pipeline π κ ι A) (Input π κ ι) (Event π A) := fun _ s i =>
  match i with
  | .add p c link => link = .lost .brokenConnection false →
      ∀ x ∈ (s.handler p c).bind Phase.adds, ¬ s.HasRow x.2 ∧
        ∀ p' c', (p', c') ≠ (p, c) → ∀ y ∈ (s.handler p' c').bind Phase.adds, y.2 ≠ x.2
  | .generate _ _ link => ∀ r ∈ (generateRequestId link s.db).result.toOption,
      ∀ p c, ∀ x ∈ (s.handler p c).bind Phase.awaits, x.2 = r → s.HasRow r
  | _ => True

section Decidable

variable [Fintype π] [Fintype κ]

instance (s : Pipeline π κ ι A) (r : RequestId) : Decidable (s.HasRow r) :=
  inferInstanceAs (Decidable (∃ row ∈ s.db.pending, row.requestId = r.toInt64))

/-- The test for it. -/
def NoReuse.test (s : Pipeline π κ ι A) : Input π κ ι → Bool
  | .add p c link => !decide (link = .lost .brokenConnection false) ||
      ((s.handler p c).bind Phase.adds).all fun x => decide (¬ s.HasRow x.2 ∧
        ∀ p' c', (p', c') ≠ (p, c) → ∀ y ∈ (s.handler p' c').bind Phase.adds, y.2 ≠ x.2)
  | .generate _ _ link => (generateRequestId link s.db).result.toOption.all fun r =>
      decide (∀ p c, ∀ x ∈ (s.handler p c).bind Phase.awaits, x.2 = r → s.HasRow r)
  | _ => true

omit [DecidableEq ι] in
theorem NoReuse.test_iff {s : Pipeline π κ ι A} {i : Input π κ ι} :
    NoReuse.test s i = true ↔ NoReuse τ s i := by
  cases i with
  | add p c link =>
    simp only [NoReuse.test, NoReuse, Option.all_eq_true, Option.mem_def, Bool.or_eq_true,
      Bool.not_eq_true', decide_eq_false_iff_not, decide_eq_true_eq, ← imp_iff_not_or]
  | generate p c link =>
    simp only [NoReuse.test, NoReuse, Option.all_eq_true, Option.mem_def, decide_eq_true_eq]
  | _ => simp [NoReuse.test, NoReuse]

instance (τ : List (Event π A)) (s : Pipeline π κ ι A) (i : Input π κ ι) :
    Decidable (NoReuse τ s i) := decidable_of_iff _ NoReuse.test_iff

end Decidable

/-- No row has identifier `r`, and no handler is about to insert one. -/
def Unused (s : Pipeline π κ ι A) (r : RequestId) : Prop :=
  ¬ s.HasRow r ∧ ∀ p c q, s.handler p c ≠ some (.adding q r)

/-- What no row has and nobody is about to insert comes into use only when it is handed out. -/
theorem Unused.step (h : s.Unused r) (hstep : (machine π κ ι I).step s i = some (t, o))
    (hgen : ∀ p c link, i = .generate p c link → (generateRequestId link s.db).result ≠ .ok r) :
    t.Unused r := by
  constructor
  · rintro ⟨row, hrow, hid⟩
    rcases pending_step hstep with ⟨hdb, -⟩ | ⟨p, c, _, q, r', row', -, hc, hvalues, hins, -⟩
    · exact h.1 ⟨row, hdb ▸ hrow, hid⟩
    · rw [(Db.insertPending_eq hins).1] at hrow
      rcases List.mem_append.mp hrow with hrow | hrow
      · exact h.1 ⟨row, hrow, hid⟩
      · -- the row inserted is that of a handler that was about to insert it
        rw [List.mem_singleton.mp hrow, (Db.pendingRow_eq hvalues).1] at hid
        obtain rfl : r' = r := congrArg Int64.toUInt64 hid
        exact h.2 p c q hc
  · intro p c q hc
    rcases adding_step hstep hc with hc | ⟨link, hi, -, hres⟩
    · exact h.2 p c q hc
    · exact hgen p c link hi hres

/-- **The invariant of the guarded runs**: an identifier a handler waits on without a row of its own is
unused. -/
structure Served (I : InetType A) (τ : List (Event π A)) (s : Pipeline π κ ι A)
    (rec : π → κ → Option (Added A)) : Prop extends Faithful I τ s where
  recorded : Recorded I τ s rec
  unused : ∀ p c q r link, (s.handler p c).bind Phase.awaits = some (q, r) →
    rec p c = some ⟨link, none⟩ → s.Unused r

omit [DecidableEq π] [DecidableEq κ] [DecidableEq ι] in
theorem served_atRest (I : InetType A) (db : Db A) (rec : π → κ → Option (Added A)) :
    Served I [] ({ db := db } : Pipeline π κ ι A) rec :=
  ⟨faithful_atRest I db, recorded_atRest I db rec, fun _ _ _ _ _ hw => by cases hw⟩

/-- A handler whose row was not committed waits on an identifier that nobody uses. -/
theorem unused_of_swallowed {link : Link} (hC : NoReuse τ s (.add p c link))
    (hstep : (machine π κ ι I).step s (.add p c link) = some (t, o))
    (hc : s.handler p c = some (.adding q r)) (hlink : link = .lost .brokenConnection false)
    (hdb : t.db.pending = s.db.pending) (hw : (t.handler p c).bind Phase.awaits = some (q, r)) :
    t.Unused r := by
  obtain ⟨hrow, hothers⟩ := hC hlink (q, r) (by rw [hc]; rfl)
  refine ⟨fun ⟨row, hmem, hid⟩ => hrow ⟨row, hdb ▸ hmem, hid⟩, fun p' c' q' hc' => ?_⟩
  rcases adding_step hstep hc' with hs | ⟨_, hi, -⟩
  · by_cases hpc : (p', c') = (p, c)
    · cases hpc
      rw [hc'] at hw
      cases hw
    · exact hothers p' c' hpc (q', r) (by rw [hs]; rfl) rfl
  · cases hi

/-- **The step lemma.** -/
theorem Served.step (h : Served I τ s rec) (hC : NoReuse τ s i)
    (hstep : (machine π κ ι I).step s i = some (t, o)) :
    Served I (τ ++ o.toList) t (record rec i o) where
  toFaithful := h.toFaithful.step hstep
  recorded := h.recorded.step hstep
  unused p c q r link hw hrec := by
    rcases awaits_step hstep hw with hs | ⟨link', rfl, hc, hres⟩
    · have hun := h.unused p c q r link hs ((record_of_awaits hstep hs).symm.trans hrec)
      refine hun.step hstep fun p' c' link' hi hres => hun.1 ?_
      subst hi
      exact hC r (by rw [hres]; rfl) p c (q, r) hs rfl
    · rw [record_add] at hrec
      rcases pending_step hstep with ⟨hdb, -, hlost⟩ | ⟨_, _, _, _, _, row, -, -, -, -, rfl⟩
      · exact unused_of_swallowed hC hstep hc (hlost p c link' q r rfl hc hres) hdb hw
      · cases hrec

/-! ## No false success -/

/-- **SUCCESS is true**: where a handler that serves `q` is told SUCCESS on `r`, it has committed a row
with the sensor, the address and the identifier, and after that an upsert of exactly these was
committed. -/
def TrueSuccess (I : InetType A) (τ : List (Event π A × Option (Added A))) :
    Event π A × Option (Added A) → Prop
  | (.answered _ q r .success, added) => ∃ link row, added = some ⟨link, some row⟩ ∧
      row.requestId = r.toInt64 ∧ Matches I q row ∧
      ∃ τ₁ crow τ₂, τ.map Prod.fst = τ₁ ++ .upserted crow :: τ₂ ∧ .requested row ∈ τ₁ ∧
        crow.sensorId = q.sensorId ∧ I.parse q.ip = some crow.ipAddress ∧
        crow.requestId = some r.toInt64
  | _ => True

/-- An upsert with the identifier of a row that a handler has committed comes after it, and writes its
values. -/
theorem upserted_of_requested (hrun : (machine π κ ι I).Run Guard.free { db := db } τ s)
    {row : PendingRow A} {crow : ConfigRow A} (hrow : .requested row ∈ τ) (hcrow : .upserted crow ∈ τ)
    (hid : crow.requestId = some row.requestId) :
    ∃ τ₁ τ₂, τ = τ₁ ++ .upserted crow :: τ₂ ∧ .requested row ∈ τ₁ ∧
      crow.sensorId = row.sensorId ∧ crow.ipAddress = row.requestedIp := by
  obtain ⟨τ₁, τ₂, hτ⟩ := List.append_of_mem hcrow
  obtain ⟨prow, hprow, hid', hs, hip⟩ := upserted_run hrun τ₁ _ τ₂ hτ crow rfl
  have hrows := (chosen_run hrun).rows
  -- the primary key: the two rows are one
  obtain rfl : prow = row := Db.pending_unique
    (hrows prow (hτ ▸ List.mem_append_left _ hprow)).1 (hrows row hrow).1
    (Option.some.inj (hid'.symm.trans hid))
  exact ⟨τ₁, τ₂, hτ, hprow, hs, hip⟩

theorem Served.trueSuccess {σ : List (Event π A × Option (Added A))}
    {e : Event π A × Option (Added A)} (h : Served I (σ.map Prod.fst) s rec)
    (hrun : (machine π κ ι I).Run Guard.free { db := db } (σ.map Prod.fst) s)
    (hstep : (machine π κ ι I).step s i = some (t, some e.1))
    (he : e.2 = i.handler.bind fun x => rec x.1 x.2) : TrueSuccess I σ e := by
  obtain ⟨e, added⟩ := e
  unfold TrueSuccess
  split
  case h_2 => trivial
  case h_1 p q r added' heq =>
    cases heq
    obtain ⟨c, srv, inbox, i', srv', hi, hp, hx, ph, hc, rfl⟩ := answered_handler hstep
    obtain ⟨⟨crow, hcrow, hid⟩, q, hq⟩ := (h.servers p srv inbox hp).1.answers hx
    rw [hc] at hq
    cases hq
    have hw : (s.handler p c).bind Phase.awaits = some (q, r) := by
      rw [handler_serving hp, hc]
      rfl
    obtain ⟨⟨link, row?⟩, hrec, hfor⟩ := h.recorded p c q r hw
    have hadded : added = some ⟨link, row?⟩ := he.trans (by rw [hi]; exact hrec)
    cases row? with
    | none =>
      -- the row that was upserted would be one with an identifier nobody uses
      obtain ⟨prow, hprow, hid', -⟩ := h.upserts crow hcrow
      exact absurd ⟨prow, hprow, Option.some.inj (hid'.symm.trans hid)⟩
        (h.unused p c q r link hw hrec).1
    | some row =>
      obtain ⟨hrow, hid', hmatch⟩ := hfor
      obtain ⟨τ₁, τ₂, hσ, hbefore, hs, hip⟩ := upserted_of_requested hrun hrow hcrow (hid' ▸ hid)
      exact ⟨link, row, hadded, hid', hmatch, τ₁, crow, τ₂, hσ, hbefore, hs.trans hmatch.1,
        hip ▸ hmatch.2, hid⟩

/-- **No false success.**  In every run of the system, from any database, in which no identifier is
used by two requests, every SUCCESS a client is told is true. -/
theorem trueSuccess_of_noReuse {x : Pipeline π κ ι A × (π → κ → Option (Added A))}
    {σ : List (Event π A × Option (Added A))}
    (hrun : (recorded π κ ι I).Run NoReuse.withHistory ({ db := db }, fun _ _ => none) σ x) :
    Always (TrueSuccess I) σ := by
  refine hrun.always (I := fun σ x => Served I (σ.map Prod.fst) x.1 x.2 ∧
    (machine π κ ι I).Run Guard.free { db := db } (σ.map Prod.fst) x.1) ?_ ?_ ?_
  · exact ⟨served_atRest I db _, .nil⟩
  · rintro σ x i y o ⟨hserved, hrun⟩ hC hstep
    obtain ⟨hstep, hrec, -⟩ := recorded_step hstep
    rw [Machine.map_append_toList, hrec]
    exact ⟨hserved.step hC hstep, hrun.snoc trivial hstep⟩
  · rintro σ x i y e ⟨hserved, hrun⟩ - hstep
    obtain ⟨hstep, -, hseen⟩ := recorded_step hstep
    exact hserved.trueSuccess hrun hstep (hseen e rfl)

/-- The row of a request for the second address, and what its handler has added. -/
private def movedRow : PendingRow Addr := ⟨5, 3, some "sensor-3", .two, some true, .pending⟩

/-- A request that goes all the way. -/
theorem trueSuccess_of_noReuse_served :
    TrueSuccess addrInet [(.seeded 4, none), (.generated true 5, none), (.requested movedRow, none),
      (.upserted ⟨3, "sensor-3", .two, some true, 3, some 5⟩, none)]
      (.answered true ⟨3, "10.0.0.2"⟩ 5 .success, some ⟨.up, some movedRow⟩) := by
  obtain ⟨x, hrun⟩ := (recorded Bool Unit Bool addrInet).exists_run_of_exec NoReuse.withHistory
    (atRest, fun _ _ => none)
    (comeUp ++ serveRequest true ⟨3, "10.0.0.2"⟩ ++ [.generate true () .up, .add true () .up,
      .lock true ()] ++ roundTrip ++ [.notified true 0 false, .wake true ()])
    [(.seeded 4, none), (.generated true 5, none), (.requested movedRow, none),
      (.upserted ⟨3, "sensor-3", .two, some true, 3, some 5⟩, none),
      (.answered true ⟨3, "10.0.0.2"⟩ 5 .success, some ⟨.up, some movedRow⟩)] (by decide +kernel)
  exact trueSuccess_of_noReuse hrun _ _ [] rfl

/-- What is seen up to a false success: server `true` loses its connection while it adds the row of
request 5, server `false` starts and is given 5 as well. -/
private def reused : List (Event Bool Addr × Option (Added Addr)) :=
  [(.seeded 4, none), (.generated true 5, none), (.seeded 4, none), (.generated false 5, none),
    (.requested movedRow, none), (.upserted ⟨3, "sensor-3", .two, some true, 3, some 5⟩, none)]

/-- **A false success**: the client of server `true`, which asked for the first address, is told
SUCCESS by the upsert of the second. -/
theorem not_trueSuccess :
    ¬ ∀ σ x, (recorded Bool Unit Bool addrInet).Run Guard.free (atRest, fun _ _ => none) σ x →
      Always (TrueSuccess addrInet) σ := by
  intro h
  obtain ⟨x, hrun⟩ := (recorded Bool Unit Bool addrInet).exists_run_of_exec Guard.free
    (atRest, fun _ _ => none)
    (comeUp ++ serveRequest true ⟨3, "10.0.0.1"⟩ ++ [.generate true () .up,
      .add true () (.lost .brokenConnection false), .lock true ()] ++
      serveRequest false ⟨3, "10.0.0.2"⟩ ++ [.generate false () .up, .add false () .up] ++
      roundTrip ++ [.notified true 0 false, .wake true ()])
    (reused ++ [(.answered true ⟨3, "10.0.0.1"⟩ 5 .success,
      some ⟨.lost .brokenConnection false, none⟩)]) (by decide +kernel)
  obtain ⟨_, _, -, -, -, τ₁, crow, τ₂, hτ, -, -, hip, -⟩ := h _ _ hrun reused _ [] rfl
  have hmem : Event.upserted crow ∈ reused.map Prod.fst := by
    rw [hτ]
    simp
  simp only [reused, List.map_cons, List.map_nil, List.mem_cons, Event.upserted.injEq, reduceCtorEq,
    List.not_mem_nil, false_or, or_false] at hmem
  subst hmem
  exact absurd hip (by decide)

end ManagementSensors.Pipeline
