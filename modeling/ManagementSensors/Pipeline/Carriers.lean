import ManagementSensors.Pipeline.Steps

/-!
# Pipeline/Carriers — the messages in flight, and the servers, after one step

A request is carried by the messages of the controller, the broker and the sensors (`Carries`).  A
step makes a new one in two ways only: it notifies of a row it has committed, or a sensor echoes one
that is carried already (`carries_step`).

The servers of the system are servers: each has started afresh, is as it was, or has taken a step of
its own (`server_step`).

A request is upserted from a message in flight (`upserted_step`), so that one of which nothing is in
flight any more is settled (`Settled.not_upserted`).
-/

open Machinery Function

namespace ManagementSensors

/-- The messages a controller holds. -/
def Controller.Carries (k : Controller) (m : Message) : Prop :=
  (∃ q ∈ k.inbox, m ∈ q) ∨ m ∈ k.outbox ∨ m ∈ k.received

/-- The messages a sensor holds. -/
def Sensor.Carries (x : Sensor) (m : Message) : Prop := m ∈ x.inbox ∨ m ∈ x.outbox

theorem Controller.carries_notify {k : Controller} {m m' : Message}
    (h : (k.notify m').Carries m) : k.Carries m ∨ m = m' := by
  rcases h with ⟨q', hq', hm⟩ | h | h
  · obtain ⟨q, hq, rfl⟩ := Option.map_eq_some_iff.mp hq'
    rcases List.mem_append.mp hm with hm | hm
    · exact Or.inl (Or.inl ⟨q, hq, hm⟩)
    · exact Or.inr (List.mem_singleton.mp hm)
  · exact Or.inl (Or.inr (Or.inl h))
  · exact Or.inl (Or.inr (Or.inr h))

theorem Controller.carries_receive {k : Controller} {m m' : Message}
    (h : (k.receive m').Carries m) : k.Carries m ∨ m = m' := by
  unfold Controller.receive at h
  split at h
  · next q hq =>
    rcases h with h | h | h
    · exact Or.inl (Or.inl h)
    · exact Or.inl (Or.inr (Or.inl h))
    · rcases List.mem_append.mp h with h | h
      · exact Or.inl (Or.inr (Or.inr (by simpa [Controller.received, hq] using h)))
      · exact Or.inr (List.mem_singleton.mp h)
  · exact Or.inl h

theorem Sensor.carries_receive {x : Sensor} {m m' : Message} (h : (x.receive m').Carries m) :
    x.Carries m ∨ m = m' := by
  rcases h with h | h
  · rcases List.mem_append.mp h with h | h
    · exact Or.inl (Or.inl h)
    · exact Or.inr (List.mem_singleton.mp h)
  · exact Or.inl (Or.inr h)

/-- The outcome of a round of the loop. -/
theorem Controller.carries_main {k : Controller} {m : Message} {main : MainThread}
    (hmain : ∀ q, main = .consuming q → ∀ m ∈ q, m ∈ k.received)
    (h : Controller.Carries { k with main := main } m) : k.Carries m := by
  rcases h with h | h | h
  · exact Or.inl h
  · exact Or.inr (Or.inl h)
  · cases main with
    | consuming q => exact Or.inr (Or.inr (hmain q rfl m h))
    | connecting | joining => cases h

namespace Pipeline

variable {π κ ι A : Type}

/-- **A message in flight**: the controller, its session at the broker or a sensor has it. -/
def Carries (s : Pipeline π κ ι A) (m : Message) : Prop :=
  (∃ k ∈ s.controller, k.Carries m) ∨ (∃ q ∈ s.session, m ∈ q) ∨ ∃ i, ∃ x ∈ s.sensors i, x.Carries m

/-- The notifications the controller has not handled. -/
def noticed (s : Pipeline π κ ι A) : List Message := (s.controller.bind Controller.inbox).getD []

/-- What the controller has published. -/
def published (s : Pipeline π κ ι A) : List Message := s.controller.elim [] Controller.outbox

/-- What the controller's loop has received. -/
def received (s : Pipeline π κ ι A) : List Message := s.controller.elim [] Controller.received

variable [DecidableEq π] [DecidableEq κ] [DecidableEq ι] {I : InetType A} {s t : Pipeline π κ ι A}
  {i : Input π κ ι} {o : Option (Event π A)} {p : π} {c : κ} {q : ConfigRequest} {r : RequestId}
  {m : Message}

omit [DecidableEq π] [DecidableEq κ] in
/-- A sensor that holds something else. -/
theorem carries_sensor {k : ι} {x : Option Sensor}
    (h : Carries { s with sensors := update s.sensors k x } m) :
    s.Carries m ∨ ∃ y ∈ x, y.Carries m := by
  rcases h with h | h | ⟨i, y, hy, hm⟩
  · exact Or.inl (Or.inl h)
  · exact Or.inl (Or.inr (Or.inl h))
  · change y ∈ update s.sensors k x i at hy
    by_cases hi : i = k
    · subst hi
      rw [update_self] at hy
      exact Or.inr ⟨y, hy, hm⟩
    · rw [update_of_ne hi] at hy
      exact Or.inl (Or.inr (Or.inr ⟨i, y, hy, hm⟩))

omit [DecidableEq π] [DecidableEq κ] [DecidableEq ι] in
/-- A controller that holds something else. -/
theorem carries_controller {k : Option Controller} (h : Carries { s with controller := k } m) :
    s.Carries m ∨ ∃ k' ∈ k, k'.Carries m := by
  rcases h with h | h
  · exact Or.inr h
  · exact Or.inl (Or.inr h)

omit [DecidableEq π] [DecidableEq κ] [DecidableEq ι] in
/-- A controller that holds no more than it did. -/
theorem carries_replace {k k' : Controller} (hk : s.controller = some k)
    (hsub : k'.Carries m → k.Carries m) (h : Carries { s with controller := some k' } m) :
    s.Carries m := by
  rcases carries_controller h with h | ⟨k'', hk'', hm⟩
  · exact h
  · cases hk''
    exact Or.inl ⟨k, hk, hsub hm⟩

/-- **What is in flight after a step** was in flight before it, is the echo of a message that was, or
is the notification of a row the step has committed. -/
theorem carries_step (hstep : (machine π κ ι I).step s i = some (t, o)) (h : t.Carries m) :
    s.Carries m ∨ (∃ m', s.Carries m' ∧ m = ManagementSensors.echo m') ∨
      ∃ row, o = some (.requested row) ∧ m = requestMessage I "config_requested" row := by
  have held : ∀ {k : Controller}, s.controller = some k → k.Carries m → s.Carries m :=
    fun hk hm => Or.inl ⟨_, hk, hm⟩
  cases step_cases hstep with
  | startServer | readMaximum | seeded | notSeeded | listen | listenerEnds | stopServer | request
  | generate | call | notified => exact Or.inl h
  | @add p c link srv inbox q r out x hp hc hout hx =>
    cases hw : out.written with
    | none =>
      rw [hw] at h
      exact Or.inl h
    | some row =>
      rw [hw] at h
      rcases h with ⟨k', hk', hm⟩ | h
      · obtain ⟨k, hk, rfl⟩ := Option.map_eq_some_iff.mp hk'
        rcases Controller.carries_notify hm with hm | rfl
        · exact Or.inl (held hk hm)
        · exact Or.inr (Or.inr ⟨row, rfl, rfl⟩)
      · exact Or.inl (Or.inr h)
  | startController hk =>
    rcases carries_controller h with h | ⟨k', hk', hm⟩
    · exact Or.inl h
    · cases hk'
      rcases hm with ⟨q, hq, hm⟩ | hm | hm
      · change (if _ then some ([] : List Message) else none) = some q at hq
        split at hq <;> cases hq
        cases hm
      · cases hm
      · cases hm
  | connectController hk _ =>
    rcases h with ⟨k', hk', hm⟩ | ⟨q, hq, hm⟩ | h
    · cases hk'
      rcases hm with hm | hm | hm
      · exact Or.inl (held hk (Or.inl hm))
      · exact Or.inl (held hk (Or.inr (Or.inl hm)))
      · cases hm
    · cases hs : s.session with
      | none =>
        simp only [hs, Option.getD_none, Option.mem_some_iff] at hq
        subst hq
        cases hm
      | some q' =>
        simp only [hs, Option.getD_some, Option.mem_some_iff] at hq
        subst hq
        exact Or.inl (Or.inr (Or.inl ⟨q', hs, hm⟩))
    · exact Or.inl (Or.inr (Or.inr h))
  | disconnectController hk =>
    refine Or.inl (carries_replace hk (fun hm => ?_) h)
    rcases hm with hm | hm | hm
    · exact Or.inl hm
    · cases hm
    · exact Or.inr (Or.inr hm)
  | controllerListenerEnds hk | forwardEnds hk _ _ _ =>
    refine Or.inl (carries_replace hk (fun hm => ?_) h)
    rcases hm with ⟨_, hq, _⟩ | hm
    · cases hq
    · exact Or.inr hm
  | loopEnds hk _ | consumeEnds hk _ _ =>
    exact Or.inl (carries_replace hk (Controller.carries_main fun _ hq => by cases hq) h)
  | stopController =>
    rcases carries_controller h with h | ⟨k', hk', _⟩
    · exact Or.inl h
    · cases hk'
  | @forward k n again published inbox inbox' m₀ m' hk hin hm₀ hev =>
    refine Or.inl (carries_replace hk (fun hm => ?_) h)
    rcases hm with ⟨q, hq, hm⟩ | hm | hm
    · cases hq
      exact Or.inl ⟨inbox, hin, pick_subset hm₀ hm⟩
    · rcases List.mem_append.mp hm with hm | hm
      · exact Or.inr (Or.inl hm)
      · -- what is forwarded is the notification itself
        have hm' : m' = some m := by
          cases published with
          | false => cases hm
          | true => simpa using hm
        subst hm'
        exact Or.inl ⟨inbox, hin, onDbEventReceived_eq hev ▸ pick_mem hm₀⟩
    · exact Or.inr (Or.inr hm)
  | @consumeOther k n link q m₀ hk hm₀ _ =>
    refine Or.inl (carries_replace hk (Controller.carries_main fun q' hq' m hm => ?_) h)
    cases hq'
    exact pick_subset hm₀ hm
  | @consume k n link q m₀ e main out hk hm₀ hev hout hmain =>
    have hround : Carries (s.setMain k main) m := by
      cases hw : out.written <;> rw [hw] at h <;> exact h
    refine Or.inl (carries_replace hk (Controller.carries_main fun q' hq' m hm => ?_) hround)
    rw [hmain] at hq'
    split at hq' <;> cases hq'
    exact pick_subset hm₀ hm
  | @brokerRequested k n again m₀ q hk hm₀ =>
    rcases h with ⟨k', hk', hm⟩ | h | ⟨j, x', hx', hm⟩
    · cases hk'
      rcases hm with hm | hm | hm
      · exact Or.inl (held hk (Or.inl hm))
      · exact Or.inl (held hk (Or.inr (Or.inl (pick_subset hm₀ hm))))
      · exact Or.inl (held hk (Or.inr (Or.inr hm)))
    · exact Or.inl (Or.inr (Or.inl h))
    · obtain ⟨x, hx, rfl⟩ := Option.map_eq_some_iff.mp hx'
      rcases Sensor.carries_receive hm with hm | rfl
      · exact Or.inl (Or.inr (Or.inr ⟨j, x, hx, hm⟩))
      · exact Or.inl (held hk (Or.inr (Or.inl (pick_mem hm₀))))
  | @brokerEvents k x n again m₀ q hx hm₀ =>
    have hx₀ : ∀ m ∈ x.outbox, s.Carries m := fun m hm => Or.inr (Or.inr ⟨k, x, hx, Or.inr hm⟩)
    rcases carries_sensor (s := { s with session := s.session.map (· ++ [m₀]) }) h with
      h | ⟨y, hy, hm⟩
    · rcases h with h | ⟨q', hq', hm⟩ | h
      · exact Or.inl (Or.inl h)
      · obtain ⟨q₀, hq₀, rfl⟩ := Option.map_eq_some_iff.mp hq'
        rcases List.mem_append.mp hm with hm | hm
        · exact Or.inl (Or.inr (Or.inl ⟨q₀, hq₀, hm⟩))
        · exact Or.inl (hx₀ _ (List.mem_singleton.mp hm ▸ pick_mem hm₀))
      · exact Or.inl (Or.inr (Or.inr h))
    · cases hy
      rcases hm with hm | hm
      · exact Or.inl (Or.inr (Or.inr ⟨k, x, hx, Or.inl hm⟩))
      · exact Or.inl (hx₀ _ (pick_subset hm₀ hm))
  | @brokerDelivers k n again m₀ session q hk hs hm₀ hcon =>
    have hs₀ : ∀ m ∈ session, s.Carries m := fun m hm => Or.inr (Or.inl ⟨session, hs, hm⟩)
    rcases h with ⟨k', hk', hm⟩ | ⟨q', hq', hm⟩ | h
    · cases hk'
      rcases Controller.carries_receive hm with hm | rfl
      · exact Or.inl (held hk hm)
      · exact Or.inl (hs₀ _ (pick_mem hm₀))
    · cases hq'
      exact Or.inl (hs₀ _ (pick_subset hm₀ hm))
    · exact Or.inl (Or.inr (Or.inr h))
  | startSensor hx =>
    rcases carries_sensor h with h | ⟨y, hy, hm⟩
    · exact Or.inl h
    · cases hy
      rcases hm with hm | hm <;> cases hm
  | stopSensor =>
    rcases carries_sensor h with h | ⟨y, hy, _⟩
    · exact Or.inl h
    · cases hy
  | @echo k x n again published m₀ q hx hm₀ =>
    have hx₀ : ∀ m ∈ x.inbox, s.Carries m := fun m hm => Or.inr (Or.inr ⟨k, x, hx, Or.inl hm⟩)
    rcases carries_sensor h with h | ⟨y, hy, hm⟩
    · exact Or.inl h
    · cases hy
      rcases hm with hm | hm
      · exact Or.inl (hx₀ _ (pick_subset hm₀ hm))
      · rcases List.mem_append.mp hm with hm | hm
        · exact Or.inl (Or.inr (Or.inr ⟨k, x, hx, Or.inr hm⟩))
        · cases published with
          | false => cases hm
          | true => exact Or.inr (Or.inl ⟨m₀, hx₀ _ (pick_mem hm₀), List.mem_singleton.mp hm⟩)

/-- Some message of request `r` is in flight. -/
def CarriesId (s : Pipeline π κ ι A) (r : Int64) : Prop := ∃ m, s.Carries m ∧ requestOf m = some r

/-- A request comes to be in flight where its row is committed, and only then. -/
theorem carriesId_step {r : Int64} (hstep : (machine π κ ι I).step s i = some (t, o))
    (h : t.CarriesId r) : s.CarriesId r ∨ ∃ row, o = some (.requested row) ∧ row.requestId = r := by
  obtain ⟨m, hm, hr⟩ := h
  rcases carries_step hstep hm with hm | ⟨m', hm', rfl⟩ | ⟨row, ho, rfl⟩
  · exact Or.inl ⟨m, hm, hr⟩
  · exact Or.inl ⟨m', hm', by rwa [requestOf_echo] at hr⟩
  · rw [requestOf_requestMessage] at hr
    exact Or.inr ⟨row, ho, Option.some.inj hr⟩

/-! ## The servers after one step -/

/-- The step of its own a server takes in a step of the system. -/
inductive Drives (I : InetType A) (s : Pipeline π κ ι A) :
    Input π κ ι → π → Server.Input κ → Prop
  | request {p : π} {c : κ} {q : ConfigRequest} : Drives I s (.request p c q) p (.request c q)
  | generate {p : π} {c : κ} {link : Link} :
      Drives I s (.generate p c link) p (.generated c (generateRequestId link s.db).result)
  | add {p : π} {c : κ} {link : Link} {q : ConfigRequest} {r : RequestId}
      {out : Outcome A (PendingRow A) Unit} (hc : s.handler p c = some (.adding q r))
      (hout : out = addPendingConfig I link q.sensorId (sensorHostname q.sensorId) q.ip true r s.db) :
      Drives I s (.add p c link) p (.added c out.result out.written.isSome)
  | call {i : Input π κ ι} {p : π} {i' : Server.Input κ} (hi : Calls i p i') : Drives I s i p i'
  | notified {p : π} {n : ℕ} {again : Bool} {srv : Server κ} {inbox : List Message} {m : Message}
      (hp : s.servers p = some (.serving srv (some inbox))) (hm : m ∈ inbox) :
      Drives I s (.notified p n again) p (.notified m)

/-- What is in the inbox of a server after a step was in it before, or is the notification of a row
of `sensor_config` the step has committed. -/
def InboxStep (I : InetType A) (o : Option (Event π A)) (inbox inbox' : Option (List Message)) :
    Prop :=
  ∀ q' ∈ inbox', ∀ m ∈ q', (∃ q ∈ inbox, m ∈ q) ∨
    ∃ op row, o = some (.upserted row) ∧ m = parserNotify "config_events" (notifyConfigChange I op row)

omit [DecidableEq π] [DecidableEq κ] [DecidableEq ι] in
theorem InboxStep.of_subset {inbox inbox' : Option (List Message)}
    (h : ∀ q' ∈ inbox', ∀ m ∈ q', ∃ q ∈ inbox, m ∈ q) : InboxStep I o inbox inbox' :=
  fun q' hq' m hm => Or.inl (h q' hq' m hm)

omit [DecidableEq π] [DecidableEq κ] [DecidableEq ι] in
theorem InboxStep.refl (inbox : Option (List Message)) : InboxStep I o inbox inbox :=
  .of_subset fun q hq _ hm => ⟨q, hq, hm⟩

/-- **How a server that serves has come about.** -/
inductive ServerCases (I : InetType A) (s : Pipeline π κ ι A) (i : Input π κ ι)
    (o : Option (Event π A)) (p : π) : Server κ → Option (List Message) → Prop
  | fresh {inbox : Option (List Message)} (hin : ∀ q ∈ inbox, q = []) :
      ServerCases I s i o p {} inbox
  | same {srv : Server κ} {inbox inbox' : Option (List Message)}
      (hp : s.servers p = some (.serving srv inbox)) (hin : InboxStep I o inbox inbox') :
      ServerCases I s i o p srv inbox'
  | step {srv : Server κ} {inbox inbox' : Option (List Message)} {i' : Server.Input κ}
      {x : Server κ × Option (Server.Event κ)} (hp : s.servers p = some (.serving srv inbox))
      (hin : InboxStep I o inbox inbox') (hi : Drives I s i p i')
      (hx : (Server.machine κ).step srv i' = some x) : ServerCases I s i o p x.1 inbox'

omit [DecidableEq κ] [DecidableEq ι] in
theorem setServer_servers {p₀ : π} {proc proc' : Option (Process κ)}
    (h : (s.setServer p₀ proc).servers p = proc') :
    p = p₀ ∧ proc = proc' ∨ s.servers p = proc' := by
  by_cases hp : p = p₀
  · subst hp
    exact Or.inl ⟨rfl, by simpa [setServer] using h⟩
  · exact Or.inr (by simpa [setServer, hp] using h)

theorem server_step (hstep : (machine π κ ι I).step s i = some (t, o)) {srv' : Server κ}
    {inbox' : Option (List Message)} (ht : t.servers p = some (.serving srv' inbox')) :
    ServerCases I s i o p srv' inbox' := by
  cases step_cases hstep with
  | startServer | readMaximum | stopServer | notSeeded =>
    rcases setServer_servers ht with ⟨rfl, hproc⟩ | ht
    · cases hproc
    · exact .same ht (.refl _)
  | @seeded p₀ v db hp hdb =>
    rcases setServer_servers (s := { s with db := db }) ht with ⟨rfl, hproc⟩ | ht
    · cases hproc
    · exact .same ht (.refl _)
  | @listen p₀ ok hp =>
    rcases setServer_servers ht with ⟨rfl, hproc⟩ | ht
    · cases hproc
      refine .fresh fun q hq => ?_
      split at hq <;> cases hq
      rfl
    · exact .same ht (.refl _)
  | @listenerEnds p₀ srv inbox hp =>
    rcases setServer_servers ht with ⟨rfl, hproc⟩ | ht
    · cases hproc
      exact .same hp nofun
    · exact .same ht (.refl _)
  | @request p₀ c q srv inbox x hp hx =>
    rcases setServer_servers ht with ⟨rfl, hproc⟩ | ht
    · cases hproc
      exact .step hp (.refl _) .request hx
    · exact .same ht (.refl _)
  | @generate p₀ c link srv inbox x hp hx =>
    rcases setServer_servers (s := s) ht with ⟨rfl, hproc⟩ | ht
    · cases hproc
      exact .step hp (.refl _) .generate hx
    · exact .same ht (.refl _)
  | @add p₀ c link srv inbox q r out x hp hc hout hx =>
    have ht' : (s.setServer p₀ (some (.serving x.1 inbox))).servers p =
        some (.serving srv' inbox') := by
      cases hw : out.written <;> rw [hw] at ht <;> exact ht
    rcases setServer_servers ht' with ⟨rfl, hproc⟩ | ht
    · cases hproc
      have hc' : s.handler p c = some (.adding q r) := by simpa [handler, hp] using hc
      exact .step hp (.refl _) (.add hc' hout) hx
    · exact .same ht (.refl _)
  | @call i' p₀ i'' srv inbox x hi hp hx =>
    rcases setServer_servers ht with ⟨rfl, hproc⟩ | ht
    · cases hproc
      exact .step hp (.refl _) (.call hi) hx
    · exact .same ht (.refl _)
  | @notified p₀ n again srv inbox inbox₁ m x hp hm hx =>
    rcases setServer_servers ht with ⟨rfl, hproc⟩ | ht
    · cases hproc
      refine .step hp (.of_subset fun q' hq' m' hm' => ⟨inbox, rfl, ?_⟩)
        (.notified hp (pick_mem hm)) hx
      split at hq' <;> cases hq'
      exact pick_subset hm hm'
    · exact .same ht (.refl _)
  | @consume k n link q m e main out hk hm hev hout hmain =>
    cases hw : out.written with
    | none =>
      rw [hw] at ht
      exact .same ht (.refl _)
    | some row =>
      rw [hw] at ht
      -- the notification of the row is appended to every inbox
      obtain ⟨proc, hproc, hnot⟩ := Option.map_eq_some_iff.mp ht
      cases proc with
      | serving srv inbox =>
        cases hnot
        refine .same hproc fun q' hq' m' hm' => ?_
        obtain ⟨q₀, hq₀, rfl⟩ := Option.map_eq_some_iff.mp hq'
        rcases List.mem_append.mp hm' with hm' | hm'
        · exact Or.inl ⟨q₀, hq₀, hm'⟩
        · exact Or.inr ⟨_, row, rfl, List.mem_singleton.mp hm'⟩
      | starting | seeding | seeded => cases hnot
  | startController | connectController | disconnectController | controllerListenerEnds | loopEnds
  | stopController | forwardEnds | forward | consumeEnds | consumeOther | brokerRequested
  | brokerEvents | brokerDelivers | startSensor | stopSensor | echo => exact .same ht (.refl _)

/-! ## The handlers after one step -/

omit [DecidableEq π] [DecidableEq κ] [DecidableEq ι] in
theorem handler_serving {srv : Server κ} {inbox : Option (List Message)}
    (hp : s.servers p = some (.serving srv inbox)) : s.handler p c = srv.handlers c := by
  simp [handler, hp]

/-- A handler that waits after a step waited before it, or has just been told that its row is
added. -/
theorem awaits_step (hstep : (machine π κ ι I).step s i = some (t, o))
    (h : (t.handler p c).bind Phase.awaits = some (q, r)) :
    (s.handler p c).bind Phase.awaits = some (q, r) ∨
      ∃ link, i = .add p c link ∧ s.handler p c = some (.adding q r) ∧
        (addPendingConfig I link q.sensorId (sensorHostname q.sensorId) q.ip true r s.db).result =
          .ok () := by
  obtain ⟨ph, hph, -⟩ := Option.bind_eq_some_iff.mp h
  obtain ⟨srv', inbox', ht, -⟩ := handler_eq hph
  rw [handler_serving ht] at h
  cases server_step hstep ht with
  | fresh => cases h
  | same hp _ => exact Or.inl (handler_serving hp ▸ h)
  | @step srv inbox _ i' x hp _ hi hx =>
    rcases Server.awaits_of_step hx h with h | ⟨committed, rfl, hc⟩
    · exact Or.inl (handler_serving hp ▸ h)
    · generalize hi'' : Server.Input.added c (.ok ()) committed = i' at hi
      cases hi with
      | request | generate | notified => cases hi''
      | call hi => cases hi <;> cases hi''
      | @add _ c' link q' r' out hc' hout =>
        obtain ⟨rfl, hres, -⟩ := Server.Input.added.inj hi''
        rw [handler_serving hp, hc] at hc'
        cases hc'
        exact Or.inr ⟨link, rfl, handler_serving hp ▸ hc, hout ▸ hres.symm⟩

/-- A handler that is about to insert its row was so before the step, or has just been given its
identifier. -/
theorem adding_step (hstep : (machine π κ ι I).step s i = some (t, o))
    (h : t.handler p c = some (.adding q r)) : s.handler p c = some (.adding q r) ∨
      ∃ link, i = .generate p c link ∧ s.handler p c = some (.generating q) ∧
        (generateRequestId link s.db).result = .ok r := by
  obtain ⟨srv', inbox', ht, -⟩ := handler_eq h
  rw [handler_serving ht] at h
  cases server_step hstep ht with
  | fresh => cases h
  | same hp _ => exact Or.inl (handler_serving hp ▸ h)
  | @step srv inbox _ i' x hp _ hi hx =>
    rcases Server.adding_of_step hx h with h | ⟨rfl, hc⟩
    · exact Or.inl (handler_serving hp ▸ h)
    · generalize hi'' : Server.Input.generated c (.ok r) = i' at hi
      cases hi with
      | request | add | notified => cases hi''
      | call hi => cases hi <;> cases hi''
      | @generate _ c' link =>
        obtain ⟨rfl, hres⟩ := Server.Input.generated.inj hi''
        exact Or.inr ⟨link, rfl, handler_serving hp ▸ hc, hres.symm⟩

/-- **What one step does to the pending rows**: nothing, and then a handler is told that its row is
added only where `broken_connection` is swallowed; or it inserts the row of a handler. -/
theorem pending_step (hstep : (machine π κ ι I).step s i = some (t, o)) :
    (t.db.pending = s.db.pending ∧ (∀ row, o ≠ some (.requested row)) ∧
      ∀ p c link q r, i = .add p c link → s.handler p c = some (.adding q r) →
        (addPendingConfig I link q.sensorId (sensorHostname q.sensorId) q.ip true r s.db).result =
          .ok () → link = .lost .brokenConnection false) ∨
      ∃ p c link q r row, i = .add p c link ∧ s.handler p c = some (.adding q r) ∧
        Db.pendingRow I q.sensorId (sensorHostname q.sensorId) q.ip true r = some row ∧
        s.db.insertPending row = some t.db ∧ o = some (.requested row) := by
  generalize hdb : t.db = db
  have hcases := db_cases hstep
  rw [hdb] at hcases
  cases hcases with
  | quiet hi ho =>
    refine Or.inl ⟨rfl, fun row hrow => ?_, fun p c link _ _ he => absurd he (hi p c link)⟩
    obtain ⟨_, _, _, _, he⟩ := ho _ hrow
    cases he
  | seeded _ hv => exact Or.inl ⟨(Db.setval_eq hv).2.2.1, nofun, nofun⟩
  | @generate p c link =>
    refine Or.inl ⟨?_, fun row hrow => (by split at hrow <;> cases hrow), nofun⟩
    rcases generateRequestId_cases link s.db with ⟨hsame, -⟩ | ⟨v, hv, -⟩
    · rw [hsame]
    · exact (Db.nextval_eq hv).2.2.2.1
  | @add p c link q r out hc hout =>
    subst hout
    rcases addPendingConfig_cases I link q.sensorId (sensorHostname q.sensorId) q.ip true r s.db with
      ⟨hsame, hw, hlost⟩ | ⟨row, hrow, hins, hw⟩
    · refine Or.inl ⟨by rw [hsame], fun row hrow => (by rw [hw] at hrow; cases hrow), ?_⟩
      intro p' c' link' q' r' he hc' hres
      cases he
      rw [hc] at hc'
      cases hc'
      exact hlost hres
    · exact Or.inr ⟨p, c, link, q, r, row, rfl, hc, hrow, hins, by rw [hw]; rfl⟩
  | @consume k n link q m e out hk hm hev hout =>
    subst hout
    refine Or.inl ⟨?_, fun row hrow => ?_, nofun⟩
    · rcases upsertSensorConfig_cases I link e.sensorId e.hostname e.ip e.isActive e.requestId s.db with
        ⟨hsame, -⟩ | ⟨row, hrow, -⟩
      · rw [hsame]
      · exact (Db.upsertRow_eq hrow).2.2.2.2.2.2.2.1
    · obtain ⟨_, _, he⟩ := Option.map_eq_some_iff.mp hrow
      cases he

theorem pending_subset (hstep : (machine π κ ι I).step s i = some (t, o)) {row : PendingRow A}
    (h : row ∈ s.db.pending) : row ∈ t.db.pending := by
  rcases pending_step hstep with ⟨hp, -⟩ | ⟨_, _, _, _, _, row', -, -, -, hins, -⟩
  · rwa [hp]
  · rw [(Db.insertPending_eq hins).1]
    exact List.mem_append_left _ h

/-! ## The events of one step -/

/-- A row is upserted from a message in flight. -/
theorem upserted_step {row : ConfigRow A}
    (hstep : (machine π κ ι I).step s i = some (t, some (.upserted row))) :
    ∃ m e, s.Carries m ∧ readConfigEvent m = some (some e) ∧
      s.db.upsertRow I e.sensorId e.hostname e.ip e.isActive e.requestId = some (t.db, row) := by
  generalize hdb : t.db = db
  generalize ho : some (Event.upserted row) = o at hstep
  have hcases := db_cases hstep
  rw [hdb] at hcases
  cases hcases with
  | quiet _ hq =>
    obtain ⟨_, _, _, _, he⟩ := hq _ ho.symm
    cases he
  | seeded => cases ho
  | generate => split at ho <;> cases ho
  | add =>
    obtain ⟨_, _, he⟩ := Option.map_eq_some_iff.mp ho.symm
    cases he
  | @consume k n link q m e out hk hm hev hout =>
    subst hout
    refine ⟨m, e, Or.inl ⟨k, hk, Or.inr (Or.inr (pick_mem hm))⟩, hev, ?_⟩
    rcases upsertSensorConfig_cases I link e.sensorId e.hostname e.ip e.isActive e.requestId s.db with
      ⟨-, hw⟩ | ⟨row', hrow, hw⟩
    · rw [hw] at ho
      cases ho
    · rw [hw] at ho
      cases ho
      exact hrow

/-- A request that is upserted is in flight. -/
theorem carriesId_of_upserted {row : ConfigRow A}
    (hstep : (machine π κ ι I).step s i = some (t, some (.upserted row))) :
    ∃ r, row.requestId = some r ∧ s.CarriesId r := by
  obtain ⟨m, e, hm, hev, hrow⟩ := upserted_step hstep
  exact ⟨_, (Db.upsertRow_eq hrow).2.1, m, hm, requestOf_of_readConfigEvent hev⟩

/-- **What one step does to the configuration**: nothing, or it sets the row of the sensor that is
upserted. -/
theorem config_step (hstep : (machine π κ ι I).step s i = some (t, o)) :
    ((∀ n, t.db.configOf n = s.db.configOf n) ∧ ∀ row, o ≠ some (.upserted row)) ∨
      ∃ row, o = some (.upserted row) ∧
        ∀ n, t.db.configOf n = if row.sensorId = n then some row else s.db.configOf n := by
  have hconf : ∀ {db : Db A}, db.config = s.db.config → ∀ n, db.configOf n = s.db.configOf n :=
    fun h n => by rw [Db.configOf, h, ← Db.configOf]
  generalize hdb : t.db = db
  have hcases := db_cases hstep
  rw [hdb] at hcases
  cases hcases with
  | quiet hi ho =>
    refine Or.inl ⟨fun _ => rfl, fun row hrow => ?_⟩
    obtain ⟨_, _, _, _, he⟩ := ho _ hrow
    cases he
  | seeded _ hv => exact Or.inl ⟨hconf (Db.setval_eq hv).2.2.2, by simp⟩
  | @generate p c link =>
    refine Or.inl ⟨?_, fun row hrow => by split at hrow <;> cases hrow⟩
    rcases generateRequestId_cases link s.db with ⟨hsame, -⟩ | ⟨v, hv, -⟩
    · rw [hsame]
      exact fun _ => rfl
    · exact hconf (Db.nextval_eq hv).2.2.2.2
  | @add p c link q r out hc hout =>
    subst hout
    refine Or.inl ⟨?_, fun row hrow => ?_⟩
    · rcases addPendingConfig_cases I link q.sensorId (sensorHostname q.sensorId) q.ip true r s.db with
        ⟨hsame, -, -⟩ | ⟨row, -, hins, -⟩
      · rw [hsame]
        exact fun _ => rfl
      · exact hconf (Db.insertPending_eq hins).2.1
    · obtain ⟨_, _, he⟩ := Option.map_eq_some_iff.mp hrow
      cases he
  | @consume k n link q m e out hk hm hev hout =>
    subst hout
    rcases upsertSensorConfig_cases I link e.sensorId e.hostname e.ip e.isActive e.requestId s.db with
      ⟨hsame, hw⟩ | ⟨row, hrow, hw⟩
    · refine Or.inl ⟨fun _ => by rw [hsame], fun row hrow => ?_⟩
      rw [hw] at hrow
      cases hrow
    · obtain ⟨hs, -, -, -, -, -, hconf', -⟩ := Db.upsertRow_eq hrow
      exact Or.inr ⟨row, by rw [hw]; rfl, fun n => by rw [hconf' n, hs]⟩

/-- A client is answered by the call of its handler, which returns. -/
theorem answered_step {st : ResponseStatus}
    (hstep : (machine π κ ι I).step s i = some (t, some (.answered p q r st))) :
    ∃ c ph srv inbox i' srv', s.servers p = some (.serving srv inbox) ∧ Calls i p i' ∧
      (Server.machine κ).step srv i' = some (srv', some (.dispatcher (.returned c r st))) ∧
      srv.handlers c = some ph ∧ ph.request = q := by
  generalize ho : some (Event.answered p q r st) = o at hstep
  cases step_cases hstep with
  | startServer | readMaximum | seeded | notSeeded | listen | listenerEnds | stopServer | request
  | notified | startController | connectController | disconnectController | controllerListenerEnds
  | loopEnds | stopController | forwardEnds | forward | consumeEnds | consumeOther | brokerRequested
  | brokerEvents | brokerDelivers | startSensor | stopSensor | echo => cases ho
  | generate => split at ho <;> cases ho
  | add | consume =>
    obtain ⟨_, _, he⟩ := Option.map_eq_some_iff.mp ho.symm
    cases he
  | @call _ p₀ i' srv inbox x hi hp hx =>
    unfold answer at ho
    split at ho
    case h_2 => cases ho
    case h_1 e c r' st' he =>
      obtain ⟨ph, hph, hans⟩ := Option.map_eq_some_iff.mp ho.symm
      cases hans
      rw [handler_serving hp] at hph
      exact ⟨c, ph, srv, inbox, i', x.1, hp, hi, by rw [hx, ← he], hph, rfl⟩

/-! ## A request that is settled -/

/-- Request `r` has been committed, and nothing of it is in flight. -/
def Settled (r : Int64) (s : Pipeline π κ ι A) : Prop :=
  r ∈ s.db.pending.map PendingRow.requestId ∧ ¬ s.CarriesId r

/-- Once settled, always settled: the primary key keeps its identifier from being committed again. -/
theorem Settled.step {r : Int64} (h : Settled r s)
    (hstep : (machine π κ ι I).step s i = some (t, o)) : Settled r t := by
  obtain ⟨row, hrow, rfl⟩ := List.mem_map.mp h.1
  refine ⟨List.mem_map_of_mem (pending_subset hstep hrow), fun hc => ?_⟩
  rcases carriesId_step hstep hc with hc | ⟨row', ho, hid⟩
  · exact h.2 hc
  · rcases pending_step hstep with ⟨-, hno, -⟩ | ⟨_, _, _, _, _, row'', -, -, -, hins, ho'⟩
    · exact hno row' ho
    · rw [ho] at ho'
      cases ho'
      exact (Db.insertPending_eq hins).2.2.2 (hid ▸ h.1)

/-- **A settled request is not upserted any more**, in whatever way the run goes on. -/
theorem Settled.not_upserted {C : Guard (Pipeline π κ ι A) (Input π κ ι) (Event π A)}
    {τ : List (Event π A)} {r : Int64} (h : Settled r s) (hrun : (machine π κ ι I).Run C s τ t) :
    Always (fun _ e => ∀ row, e = .upserted row → row.requestId ≠ some r) τ := by
  refine hrun.always (I := fun _ s => Settled r s) h (fun _ _ _ _ _ hI _ hstep => hI.step hstep) ?_
  rintro _ s i t _ hI - hstep row rfl hid
  obtain ⟨r', hr', hc⟩ := carriesId_of_upserted hstep
  obtain rfl : r = r' := Option.some.inj (hid.symm.trans hr')
  exact hI.2 hc

end Pipeline

end ManagementSensors
