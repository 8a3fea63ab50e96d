import ManagementSensors.Pipeline.Record

/-!
# Pipeline/Refusal — a request that is answered SYSTEM_FULL

The table of a dispatcher is looked at in `wait_for_response`, and a handler calls that last: its row
is inserted, and its NOTIFY sent, by then.  The refusal itself changes nothing
(`refused_only`), and takes nothing back: unless its own `broken_connection` was swallowed, the
configuration that was refused is on its way (`systemFull_after_request`), and applied like any other.
-/

open Machinery Function

namespace ManagementSensors

/-! ## No frame holds SYSTEM_FULL -/

namespace Dispatcher

variable {κ : Type} [DecidableEq κ] {d t : Dispatcher κ} {i : Input κ} {o : Option (Event κ)}

/-- No frame has been told SYSTEM_FULL. -/
def NotFull (d : Dispatcher κ) : Prop := ∀ c f, d.frames c = some f → f.ctx.status ≠ .systemFull

/-- Where SYSTEM_FULL is not dispatched, no frame is told so. -/
theorem NotFull.step (h : d.NotFull) (hi : ∀ id, i ≠ .dispatch id .systemFull)
    (hstep : (machine κ).step d i = some (t, o)) : t.NotFull := by
  intro c' f' hf'
  cases step_cases hstep with
  | refuse | sleepOn => exact h c' f' hf'
  | register =>
    rw [register_frames] at hf'
    split at hf'
    case isTrue =>
      cases hf'
      exact nofun
    case isFalse => exact h c' f' hf'
  | @expire c f hf =>
    rw [expire_frames] at hf'
    split at hf'
    case isTrue =>
      cases hf'
      exact h c f hf
    case isFalse => exact h c' f' hf'
  | answer | timeOut =>
    rw [leave_frames] at hf'
    split at hf'
    case isTrue => cases hf'
    case isFalse => exact h c' f' hf'
  | @dispatch id st =>
    rw [dispatch_frames] at hf'
    split at hf'
    case isTrue =>
      obtain ⟨f, -, rfl⟩ := Option.map_eq_some_iff.mp hf'
      rintro rfl
      exact hi id rfl
    case isFalse => exact h c' f' hf'

end Dispatcher

namespace Server

variable {κ : Type} [DecidableEq κ] {srv t : Server κ} {i : Input κ} {o : Option (Event κ)} {c : κ}
  {r : RequestId}

/-- A server dispatches nothing but SUCCESS. -/
theorem notFull_step (h : srv.dispatcher.NotFull) (hstep : (machine κ).step srv i = some (t, o)) :
    t.dispatcher.NotFull := by
  cases step_cases hstep with
  | request | generated | notGenerated | added | notAdded | ignored => exact h
  | call hi hd =>
    refine h.step (fun id he => ?_) hd
    subst he
    cases hi

/-- **SYSTEM_FULL is the answer of a full table** to a handler that was about to wait; nothing else
changes. -/
theorem refused_eq (h : srv.dispatcher.NotFull)
    (hstep : (machine κ).step srv i = some (t, some (.dispatcher (.returned c r .systemFull)))) :
    i = .lock c ∧ maxPending ≤ srv.dispatcher.size ∧ t = srv.setHandler c none ∧
      ∃ q, srv.handlers c = some (.calling q r) := by
  generalize ho : some (Event.dispatcher (.returned c r .systemFull)) = o at hstep
  cases step_cases hstep with
  | request | generated | notGenerated | ignored => cases ho
  | added | notAdded => split at ho <;> cases ho
  | @call i i' p hi hd =>
    obtain ⟨d, o⟩ := p
    obtain ⟨e, rfl, he⟩ := Option.map_eq_some_iff.mp ho.symm
    generalize hst : ResponseStatus.systemFull = st at he
    cases he
    cases Dispatcher.step_cases hd with
    | refuse _ hfull =>
      cases hi with
      | lock hc => exact ⟨rfl, hfull, rfl, _, hc⟩
    | answer hf _ => exact absurd hst.symm (h _ _ hf)
    | timeOut => cases hst

end Server

namespace Pipeline

variable {π κ ι A : Type} [DecidableEq π] [DecidableEq κ] [DecidableEq ι] {I : InetType A}
  {s t : Pipeline π κ ι A} {τ : List (Event π A)} {i : Input π κ ι} {o : Option (Event π A)} {p : π}
  {c : κ} {q : ConfigRequest} {r : RequestId}

/-! ## The refusal -/

/-- No server has a frame that has been told SYSTEM_FULL. -/
def NotFull (s : Pipeline π κ ι A) : Prop :=
  ∀ p srv inbox, s.servers p = some (.serving srv inbox) → srv.dispatcher.NotFull

theorem NotFull.step (h : s.NotFull) (hstep : (machine π κ ι I).step s i = some (t, o)) :
    t.NotFull := by
  intro p srv' inbox' ht
  cases server_step hstep ht with
  | fresh => exact nofun
  | same hp => exact h p _ _ hp
  | step hp _ _ hx => exact Server.notFull_step (h p _ _ hp) hx

/-- **A refusal, and nothing else**: a handler of `p` that was about to wait on `r` finds the table
full and ends; the database, every queue and every table are as they were. -/
def RefusedOnly (s t : Pipeline π κ ι A) (p : π) (q : ConfigRequest) (r : RequestId) : Prop :=
  ∃ c srv inbox, s.servers p = some (.serving srv inbox) ∧ srv.handlers c = some (.calling q r) ∧
    maxPending ≤ srv.dispatcher.size ∧
    t = s.setServer p (some (.serving (srv.setHandler c none) inbox))

theorem refused_only (h : s.NotFull)
    (hstep : (machine π κ ι I).step s i = some (t, some (.answered p q r .systemFull))) :
    RefusedOnly s t p q r := by
  generalize ho : some (Event.answered p q r .systemFull) = o at hstep
  cases step_cases hstep with
  | startServer | readMaximum | seeded | notSeeded | listen | listenerEnds | stopServer | request
  | notified | startController | connectController | disconnectController | controllerListenerEnds
  | loopEnds | stopController | forwardEnds | forward | consumeEnds | consumeOther | brokerRequested
  | brokerEvents | brokerDelivers | startSensor | stopSensor | echo => cases ho
  | generate => split at ho <;> cases ho
  | add | consume =>
    obtain ⟨_, _, he⟩ := Option.map_eq_some_iff.mp ho.symm
    cases he
  | @call _ p₀ i' srv inbox x hi hp hx =>
    unfold answer at ho
    split at ho
    case h_2 => cases ho
    case h_1 e c r' st' he =>
      obtain ⟨ph, hph, hans⟩ := Option.map_eq_some_iff.mp ho.symm
      obtain ⟨srv', o'⟩ := x
      obtain rfl : o' = some (.dispatcher (.returned c r' st')) := he
      generalize hst : ResponseStatus.systemFull = st at hans
      cases hans
      subst hst
      obtain ⟨-, hfull, rfl, q', hq'⟩ := Server.refused_eq (h p srv inbox hp) hx
      rw [handler_serving hp, hq'] at hph
      cases hph
      exact ⟨c, srv, inbox, hp, hq', hfull, rfl⟩

/-- What the handler that is refused has added for its request. -/
theorem Recorded.refused {rec : π → κ → Option (Added A)} (h : Recorded I τ s rec) (hfull : s.NotFull)
    (hstep : (machine π κ ι I).step s i = some (t, some (.answered p q r .systemFull))) :
    ∃ a, (i.handler.bind fun x => rec x.1 x.2) = some a ∧ a.IsFor I τ q r := by
  obtain ⟨c, srv, inbox, i', srv', hi, hp, hx, ph, hc, rfl⟩ := answered_handler hstep
  obtain ⟨-, -, -, q, hq⟩ := Server.refused_eq (hfull p srv inbox hp) hx
  rw [hc] at hq
  cases hq
  rw [hi]
  exact h p c q r (by rw [handler_serving hp, hc]; rfl)

/-- **SYSTEM_FULL, and what is there by then.**  In every run from any database the answer SYSTEM_FULL
is a refusal and nothing else; and by then the row of the refused request has been inserted, and its
NOTIFY sent, unless its `add_pending_config` has swallowed a `broken_connection`. -/
theorem systemFull_after_request (I : InetType A) (db : Db A) :
    (∀ τ s, (machine π κ ι I).Run Guard.free { db := db } τ s → ∀ i t p q r,
      (machine π κ ι I).step s i = some (t, some (.answered p q r .systemFull)) →
        RefusedOnly s t p q r) ∧
    ∀ σ x, (recorded π κ ι I).Run Guard.free ({ db := db }, fun _ _ => none) σ x →
      Always (fun σ e => ∀ p q r, e.1 = .answered p q r .systemFull →
        ∃ a, e.2 = some a ∧ a.IsFor I (σ.map Prod.fst) q r) σ := by
  constructor
  · intro τ s hrun i t p q r hstep
    have hfull : s.NotFull := hrun.invariant (I := fun _ s => s.NotFull) nofun
      fun _ _ _ _ _ hI _ hstep => hI.step hstep
    exact refused_only hfull hstep
  · intro σ x hrun
    refine hrun.always (I := fun σ x => Recorded I (σ.map Prod.fst) x.1 x.2 ∧ x.1.NotFull) ?_ ?_ ?_
    · exact ⟨recorded_atRest I db _, nofun⟩
    · rintro σ x i y o ⟨hrecorded, hfull⟩ - hstep
      obtain ⟨hstep, hrec, -⟩ := recorded_step hstep
      rw [Machine.map_append_toList, hrec]
      exact ⟨hrecorded.step hstep, hfull.step hstep⟩
    · rintro σ x i y ⟨e, added⟩ ⟨hrecorded, hfull⟩ - hstep p q r rfl
      obtain ⟨hstep, -, hseen⟩ := recorded_step hstep
      obtain ⟨a, ha, hfor⟩ := hrecorded.refused hfull hstep
      exact ⟨a, (hseen _ rfl).trans ha, hfor⟩

/-! ## Filling a table -/

section Filling

variable {srv : Server κ} {inbox : Option (List Message)} {row : PendingRow A} {db : Db A} {v : ℕ}

theorem step_request (hp : s.servers p = some (.serving srv inbox)) (hc : srv.handlers c = none) :
    (machine π κ ι I).step s (.request p c q) = some (s.setServer p
      (some (.serving (srv.setHandler c (some (.generating q))) inbox)), none) := by
  simp [machine, step, serve, hp, Server.step, hc]

theorem step_generate (hp : s.servers p = some (.serving srv inbox))
    (hc : srv.handlers c = some (.generating q)) (hv : s.db.nextval = some (db, v)) :
    (machine π κ ι I).step s (.generate p c .up) = some ({ s.setServer p
      (some (.serving (srv.setHandler c (some (.adding q (UInt64.ofNat v)))) inbox)) with db := db },
        some (.generated p (UInt64.ofNat v))) := by
  simp [machine, step, generate, generateRequestId, transact, hv, Except.map, serve, hp, Server.step,
    hc]

theorem step_add (hp : s.servers p = some (.serving srv inbox))
    (hc : srv.handlers c = some (.adding q r))
    (hins : s.db.insertRequest I q.sensorId (sensorHostname q.sensorId) q.ip true r =
      some (db, row)) :
    (machine π κ ι I).step s (.add p c .up) = some (({ s.setServer p
      (some (.serving (srv.setHandler c (some (.calling q r))) inbox)) with db := db }).notifyRequest
        I row, some (.requested row)) := by
  simp [machine, step, add, handler, addPendingConfig, transact, Outcome.caught, hins, serve, hp,
    Server.step, hc]

theorem step_register (hp : s.servers p = some (.serving srv inbox))
    (hc : srv.handlers c = some (.calling q r)) (hf : srv.dispatcher.frames c = none)
    (hroom : srv.dispatcher.size < maxPending) :
    (machine π κ ι I).step s (.lock p c) = some (s.setServer p (some (.serving
      ⟨srv.dispatcher.register c r, update srv.handlers c (some (.waiting q r))⟩ inbox)), none) := by
  simp [machine, step, serve, hp, Server.step, hc, Dispatcher.step, hf, Dispatcher.waitForResponse,
    not_le.mpr hroom, Server.advance, Phase.request, answer]

theorem step_refuse (hp : s.servers p = some (.serving srv inbox))
    (hc : srv.handlers c = some (.calling q r)) (hf : srv.dispatcher.frames c = none)
    (hfull : maxPending ≤ srv.dispatcher.size) :
    (machine π κ ι I).step s (.lock p c) = some (s.setServer p (some (.serving
      ⟨srv.dispatcher, update srv.handlers c none⟩ inbox)), some (.answered p q r .systemFull)) := by
  simp [machine, step, serve, hp, Server.step, hc, Dispatcher.step, hf, Dispatcher.waitForResponse,
    hfull, Server.advance, Phase.request, answer, handler]

/-- A table with room takes an identifier that is in it nowhere. -/
theorem size_register {d : Dispatcher κ} (h : r ∉ d.pendingRequests.keys) :
    (d.register c r).size = d.size + 1 := by
  rw [Dispatcher.size, Dispatcher.register_pendingRequests, AList.keys_insert,
    List.erase_of_not_mem h, List.length_cons, Dispatcher.size]

end Filling

/-- A request for sensor 3, as every handler serves it. -/
def sameRequest : ConfigRequest := ⟨3, "10.0.0.2"⟩

/-- **A server of which `n` handlers wait**, each on an identifier of its own up to `4 + n`, and whose
other handlers are idle. -/
structure Filled (n : ℕ) (srv : Server ℕ) (s : Pipeline Unit ℕ Unit Addr) : Prop where
  serving : s.servers () = some (.serving srv (some []))
  size : srv.dispatcher.size = n
  keys : ∀ id ∈ srv.dispatcher.pendingRequests.keys, id.toNat ≤ 4 + n
  idle : ∀ c, n ≤ c → srv.handlers c = none ∧ srv.dispatcher.frames c = none
  seq : s.db.requestIdSeq = some ⟨4 + n, true⟩
  pending : ∀ row ∈ s.db.pending, row.requestId.toUInt64.toNat ≤ 4 + n
  sensor : 3 ∈ s.db.config.map ConfigRow.sensorId

/-- The row of the request with the next identifier. -/
def nextRow (n : ℕ) : PendingRow Addr :=
  ⟨(UInt64.ofNat (5 + n)).toInt64, 3, some "sensor-3", .two, some true, .pending⟩

theorem toNat_next {n : ℕ} (hn : n ≤ maxPending) : (UInt64.ofNat (5 + n)).toNat = 5 + n :=
  toNat_ofNat_of_lt_bigint (by rw [maxPending] at hn; omega)

theorem bigint_next {n : ℕ} (hn : n ≤ maxPending) :
    bigint (UInt64.ofNat (5 + n)) = some (UInt64.ofNat (5 + n)).toInt64 := by
  have hlt : UInt64.ofNat (5 + n) < 2 ^ 63 := by
    rw [UInt64.lt_iff_toNat_lt, toNat_next hn]
    have h63 : (2 ^ 63 : UInt64).toNat = 2 ^ 63 := by decide +kernel
    rw [maxPending] at hn
    omega
  rw [bigint, if_pos hlt]

theorem pendingRow_next {n : ℕ} (hn : n ≤ maxPending) :
    Db.pendingRow addrInet sameRequest.sensorId (sensorHostname sameRequest.sensorId) sameRequest.ip
      true (UInt64.ofNat (5 + n)) = some (nextRow n) := by
  have hhost : varchar100 (sensorHostname sameRequest.sensorId) = some "sensor-3" := by
    decide +kernel
  have hip : addrInet.parse sameRequest.ip = some .two := by decide
  simp only [Db.pendingRow, bigint_next hn, hhost, hip]
  rfl

/-- One more handler is given the next identifier, and inserts its row. -/
theorem Filled.called {n : ℕ} {srv : Server ℕ} {s : Pipeline Unit ℕ Unit Addr} (h : Filled n srv s)
    (hn : n ≤ maxPending) : ∃ srv' s' t, (machine Unit ℕ Unit addrInet).Run Guard.free s
        [.generated () (UInt64.ofNat (5 + n))] s' ∧
      (machine Unit ℕ Unit addrInet).step s' (.add () n .up) =
        some (t, some (.requested (nextRow n))) ∧
      t.servers () = some (.serving srv' (some [])) ∧ srv'.dispatcher = srv.dispatcher ∧
      srv'.handlers = update srv.handlers n (some (.calling sameRequest (UInt64.ofNat (5 + n)))) ∧
      t.db.requestIdSeq = some ⟨5 + n, true⟩ ∧ t.db.pending = s.db.pending ++ [nextRow n] ∧
      t.db.config = s.db.config := by
  -- the identifier
  obtain ⟨db, hv⟩ : ∃ db, s.db.nextval = some (db, 5 + n) := by
    have hlt : 5 + n < 2 ^ 63 := by
      rw [maxPending] at hn
      omega
    have hnext : 4 + n + 1 = 5 + n := by omega
    refine ⟨{ s.db with requestIdSeq := some ⟨5 + n, true⟩ }, ?_⟩
    simp only [Db.nextval, h.seq, Option.bind_eq_bind, Option.bind_some, if_true, hnext, if_pos hlt]
    rfl
  obtain ⟨hseq, -, -, hpending, hconfig⟩ := Db.nextval_eq hv
  -- the row
  obtain ⟨db', hins⟩ : ∃ db', db.insertPending (nextRow n) = some db' := by
    refine ⟨_, dif_pos ⟨fun hmem => ?_, by rw [hconfig]; exact h.sensor⟩⟩
    rw [hpending] at hmem
    obtain ⟨row, hrow, hid⟩ := List.mem_map.mp hmem
    have hle := h.pending row hrow
    rw [hid, nextRow, UInt64.toUInt64_toInt64, toNat_next hn] at hle
    omega
  obtain ⟨hpending', hconfig', hseq', -⟩ := Db.insertPending_eq hins
  have hrequest : db.insertRequest addrInet sameRequest.sensorId
      (sensorHostname sameRequest.sensorId) sameRequest.ip true (UInt64.ofNat (5 + n)) =
        some (db', nextRow n) := by
    rw [Db.insertRequest, pendingRow_next hn]
    simp [hins]
  -- the three steps
  have h₁ := step_request (I := addrInet) (q := sameRequest) h.serving (h.idle n le_rfl).1
  generalize hsrv₁ : srv.setHandler n (some (.generating sameRequest)) = srv₁ at h₁
  generalize hs₁ : s.setServer () (some (.serving srv₁ (some []))) = s₁ at h₁
  have hp₁ : s₁.servers () = some (.serving srv₁ (some [])) := by simp [← hs₁, setServer]
  have hc₁ : srv₁.handlers n = some (.generating sameRequest) := by
    rw [← hsrv₁, Server.setHandler_handlers, if_pos rfl]
  have hdb₁ : s₁.db = s.db := by
    rw [← hs₁]
    rfl
  have hv₁ : s₁.db.nextval = some (db, 5 + n) := by
    rw [hdb₁]
    exact hv
  have h₂ := step_generate (I := addrInet) hp₁ hc₁ hv₁
  generalize hsrv₂ : srv₁.setHandler n (some (.adding sameRequest (UInt64.ofNat (5 + n)))) = srv₂ at h₂
  generalize hs₂ : ({ s₁.setServer () (some (.serving srv₂ (some []))) with db := db } :
    Pipeline Unit ℕ Unit Addr) = s₂ at h₂
  have hp₂ : s₂.servers () = some (.serving srv₂ (some [])) := by simp [← hs₂, setServer]
  have hc₂ : srv₂.handlers n = some (.adding sameRequest (UInt64.ofNat (5 + n))) := by
    rw [← hsrv₂, Server.setHandler_handlers, if_pos rfl]
  have h₃ := step_add hp₂ hc₂ (by rw [← hs₂]; exact hrequest)
  have hrun := (Machine.Run.nil.snoc (C := Guard.free) trivial h₁).snoc trivial h₂
  refine ⟨srv₂.setHandler n (some (.calling sameRequest (UInt64.ofNat (5 + n)))), _, _, hrun, h₃, ?_,
    ?_, ?_, hseq'.trans hseq, ?_, hconfig'.trans hconfig⟩
  · simp [setServer, notifyRequest]
  · simp [← hsrv₂, ← hsrv₁]
  · simp [← hsrv₂, ← hsrv₁, Server.setHandler]
  · rw [← hpending]
    exact hpending'

/-- Where there is room, it registers, and one more waits. -/
theorem Filled.register {n : ℕ} {srv : Server ℕ} {s : Pipeline Unit ℕ Unit Addr} (h : Filled n srv s)
    (hn : n < maxPending) : ∃ τ srv' t,
      (machine Unit ℕ Unit addrInet).Run Guard.free s τ t ∧ Filled (n + 1) srv' t := by
  obtain ⟨srv', s', t, hrun, hadd, hp, hdisp, hhandlers, hseq, hpending, hconfig⟩ := h.called hn.le
  have hr : UInt64.ofNat (5 + n) ∉ srv'.dispatcher.pendingRequests.keys := fun hmem => by
    rw [hdisp] at hmem
    have hle := h.keys _ hmem
    rw [toNat_next hn.le] at hle
    omega
  have hc : srv'.handlers n = some (.calling sameRequest (UInt64.ofNat (5 + n))) := by
    rw [hhandlers, update_self]
  have hlock := step_register (I := addrInet) hp hc (by rw [hdisp]; exact (h.idle n le_rfl).2)
    (by rw [hdisp, h.size]; exact hn)
  refine ⟨_, ⟨srv'.dispatcher.register n (UInt64.ofNat (5 + n)),
    update srv'.handlers n (some (.waiting sameRequest (UInt64.ofNat (5 + n))))⟩, _,
    (hrun.snoc trivial hadd).snoc trivial hlock, by simp [setServer], ?_, ?_, ?_, ?_, ?_, ?_⟩
  · rw [size_register hr, hdisp, h.size]
  · intro id hid
    rw [Dispatcher.register_pendingRequests, AList.keys_insert, List.mem_cons] at hid
    rcases hid with rfl | hid
    · rw [toNat_next hn.le]
      omega
    · have hle := h.keys id (hdisp ▸ List.mem_of_mem_erase hid)
      omega
  · intro c hle
    have hne : c ≠ n := by omega
    obtain ⟨hidle, hframe⟩ := h.idle c (by omega)
    refine ⟨?_, ?_⟩
    · exact (update_of_ne hne _ _).trans (by rw [hhandlers, update_of_ne hne, hidle])
    · rw [Dispatcher.register_frames, if_neg hne, hdisp, hframe]
  · rw [show 4 + (n + 1) = 5 + n by omega]
    exact hseq
  · intro row hrow
    have hmem : row ∈ s.db.pending ++ [nextRow n] := hpending ▸ hrow
    rcases List.mem_append.mp hmem with hmem | hmem
    · have hle := h.pending row hmem
      omega
    · rw [List.mem_singleton.mp hmem, nextRow, UInt64.toUInt64_toInt64, toNat_next hn.le]
      omega
  · have hsensor := h.sensor
    rw [← hconfig] at hsensor
    exact hsensor

/-- **The table fills up**, one request after the other. -/
theorem exists_filled : ∀ n ≤ maxPending, ∃ τ srv s,
    (machine Unit ℕ Unit addrInet).Run Guard.free { db := oneSensor } τ s ∧ Filled n srv s
  | 0, _ => by
    have hrun := (((Machine.Run.nil.snoc (M := machine Unit ℕ Unit addrInet) (C := Guard.free)
      (i := .startServer ()) (s := { db := oneSensor }) trivial rfl).snoc
      (i := .readMaximum ()) trivial rfl).snoc
      (i := .setSequence ()) trivial rfl).snoc
      (i := .listen () true) trivial rfl
    exact ⟨_, {}, _, hrun, rfl, rfl, nofun, fun _ _ => ⟨rfl, rfl⟩, rfl, nofun, by decide⟩
  | n + 1, hn => by
    obtain ⟨τ, srv, s, hrun, hfilled⟩ := exists_filled n (by omega)
    obtain ⟨τ', srv', t, hrun', hfilled'⟩ := hfilled.register (by omega)
    exact ⟨τ ++ τ', srv', t, hrun.trans hrun', hfilled'⟩

/-- The request that finds the table full: it inserts its row, and is refused. -/
theorem exists_refused : ∃ τ s' s t,
    (machine Unit ℕ Unit addrInet).Run Guard.free { db := oneSensor } τ s' ∧
    (machine Unit ℕ Unit addrInet).step s' (.add () maxPending .up) =
      some (s, some (.requested (nextRow maxPending))) ∧
    (machine Unit ℕ Unit addrInet).step s (.lock () maxPending) =
      some (t, some (.answered () sameRequest (UInt64.ofNat (5 + maxPending)) .systemFull)) := by
  obtain ⟨τ, srv, s, hrun, hfilled⟩ := exists_filled maxPending le_rfl
  obtain ⟨srv', s', t, hrun', hadd, hp, hdisp, hhandlers, -⟩ := hfilled.called le_rfl
  have hc : srv'.handlers maxPending =
      some (.calling sameRequest (UInt64.ofNat (5 + maxPending))) := by
    rw [hhandlers, update_self]
  have hframe : srv'.dispatcher.frames maxPending = none := by
    rw [hdisp]
    exact (hfilled.idle _ le_rfl).2
  have hfull : maxPending ≤ srv'.dispatcher.size := by
    rw [hdisp, hfilled.size]
  exact ⟨_, s', t, _, hrun.trans hrun', hadd, step_refuse hp hc hframe hfull⟩

/-- The refusal of that request, and the row its handler has committed. -/
theorem systemFull_after_request_filled :
    ∃ (σ : List (Event Unit Addr × Option (Added Addr))) (s t : Pipeline Unit ℕ Unit Addr),
      RefusedOnly s t () sameRequest (UInt64.ofNat (5 + maxPending)) ∧
        (Added.mk .up (some (nextRow maxPending))).IsFor addrInet (σ.map Prod.fst) sameRequest
          (UInt64.ofNat (5 + maxPending)) := by
  obtain ⟨τ, s', s, t, hrun, hadd, hlock⟩ := exists_refused
  obtain ⟨hrefused, hadded⟩ := systemFull_after_request (π := Unit) (κ := ℕ) (ι := Unit)
    addrInet oneSensor
  obtain ⟨σ, rec, hrec, -⟩ := hrun.exists_history record
    (fun rec i => i.handler.bind fun x => rec x.1 x.2) fun _ _ => none
  have hrec' := hrec.mono (D := Guard.free) fun _ _ _ _ => trivial
  have hall := (hrec'.snoc trivial (Machine.step_withHistory hadd)).snoc trivial
    (Machine.step_withHistory hlock)
  obtain ⟨a, ha, hfor⟩ := hadded _ _ hall _ _ [] rfl _ _ _ rfl
  obtain rfl : Added.mk .up (some (nextRow maxPending)) = a := Option.some.inj ha
  exact ⟨_, s, t, hrefused _ s (hrun.snoc trivial hadd) _ t _ _ _ hlock, hfor⟩

/-- **A refused request has an effect**: its row has been inserted, and its NOTIFY sent, before
SYSTEM_FULL is answered. -/
theorem refused_with_effect : ¬ ∀ τ s,
    (machine Unit ℕ Unit addrInet).Run Guard.free { db := oneSensor } τ s →
      Always (fun τ e => ∀ p q r, e = .answered p q r .systemFull →
        ∀ row, .requested row ∈ τ → row.requestId ≠ r.toInt64) τ := by
  intro h
  obtain ⟨τ, s', s, t, hrun, hadd, hlock⟩ := exists_refused
  exact h _ _ ((hrun.snoc trivial hadd).snoc trivial hlock) _ _ [] rfl () sameRequest _ rfl
    (nextRow maxPending) (by simp) rfl

end Pipeline

end ManagementSensors
