import Mathlib.Data.Fintype.Sum
import Mathlib.Tactic.DeriveFintype
import ManagementSensors.Pipeline.Success

/-!
# Pipeline/Loss — what a request needs, to be applied or still in flight

A pending row is told of once, by the NOTIFY of its commit.  Each step leaves some of the messages
in flight where they are (`left`), and hands one on or drops it (`HandsOn`).  Where every step keeps
a message of every request that is not applied, and no row is committed while the controller does
not listen (`KeepsOrders`), every pending row of the run is applied or in flight
(`ordersKept_of_keepsOrders`).  Otherwise the order is gone: nothing reads the table again
(`lost_of_not_listening`), and no start-up step publishes (`carriesId_of_recovers`).
-/

open Machinery Function

namespace ManagementSensors.Pipeline

variable {π κ ι A : Type}

/-! ## Where a message may be -/

/-- The queues of the system that hold requests. -/
inductive Place (ι : Type)
  | noticed
  | published
  | toSensor (k : ι)
  | fromSensor (k : ι)
  | session
  | received
  deriving DecidableEq, Fintype

/-- The messages at a place. -/
def held (s : Pipeline π κ ι A) : Place ι → List Message
  | .noticed => s.noticed
  | .published => s.published
  | .toSensor k => (s.sensors k).elim [] Sensor.inbox
  | .fromSensor k => (s.sensors k).elim [] Sensor.outbox
  | .session => s.session.getD []
  | .received => s.received

theorem mem_elim {α : Type} {o : Option α} {f : α → List Message} {m : Message} :
    m ∈ o.elim [] f ↔ ∃ a ∈ o, m ∈ f a := by
  cases o <;> simp

theorem mem_noticed {s : Pipeline π κ ι A} {m : Message} :
    m ∈ s.noticed ↔ ∃ k ∈ s.controller, ∃ q ∈ k.inbox, m ∈ q := by
  rw [noticed]
  cases s.controller with
  | none => simp
  | some k => cases hq : k.inbox <;> simp [hq]

/-- A message is in flight where some place holds it. -/
theorem carries_iff {s : Pipeline π κ ι A} {m : Message} : s.Carries m ↔ ∃ l, m ∈ s.held l := by
  constructor
  · rintro (⟨k, hk, hin | hm | hm⟩ | ⟨q, hq, hm⟩ | ⟨k, x, hx, hm | hm⟩)
    · exact ⟨.noticed, mem_noticed.mpr ⟨k, hk, hin⟩⟩
    · exact ⟨.published, mem_elim.mpr ⟨k, hk, hm⟩⟩
    · exact ⟨.received, mem_elim.mpr ⟨k, hk, hm⟩⟩
    · exact ⟨.session, by rw [held, Option.mem_def.mp hq]; exact hm⟩
    · exact ⟨.toSensor k, mem_elim.mpr ⟨x, hx, hm⟩⟩
    · exact ⟨.fromSensor k, mem_elim.mpr ⟨x, hx, hm⟩⟩
  · rintro ⟨l, hm⟩
    cases l with
    | noticed =>
      obtain ⟨k, hk, hin⟩ := mem_noticed.mp hm
      exact Or.inl ⟨k, hk, Or.inl hin⟩
    | published =>
      obtain ⟨k, hk, hm⟩ := mem_elim.mp hm
      exact Or.inl ⟨k, hk, Or.inr (Or.inl hm)⟩
    | received =>
      obtain ⟨k, hk, hm⟩ := mem_elim.mp hm
      exact Or.inl ⟨k, hk, Or.inr (Or.inr hm)⟩
    | session =>
      cases hq : s.session with
      | none => simp [held, hq] at hm
      | some q => exact Or.inr (Or.inl ⟨q, hq, by simpa [held, hq] using hm⟩)
    | toSensor k =>
      obtain ⟨x, hx, hm⟩ := mem_elim.mp hm
      exact Or.inr (Or.inr ⟨k, x, hx, Or.inl hm⟩)
    | fromSensor k =>
      obtain ⟨x, hx, hm⟩ := mem_elim.mp hm
      exact Or.inr (Or.inr ⟨k, x, hx, Or.inr hm⟩)

variable [DecidableEq π] [DecidableEq κ] [DecidableEq ι]

/-! ## What a step leaves, and what it hands on -/

/-- What `pick` leaves of a queue. -/
def rest (q : List Message) (n : ℕ) (again : Bool) : List Message := (pick q n again).elim [] Prod.snd

/-- The round that consumes message `n` is the last: reading it or upserting it raises an
exception. -/
def lastRound (I : InetType A) (s : Pipeline π κ ι A) (n : ℕ) (link : Link) : Bool :=
  match (pick s.received n false).map fun x => readConfigEvent x.1 with
  | some none => true
  | some (some (some e)) =>
    !(upsertSensorConfig I link e.sensorId e.hostname e.ip e.isActive e.requestId s.db).result.isOk
  | _ => false

/-- The message that ends the listener of the controller: one without a channel. -/
def lastNotice (s : Pipeline π κ ι A) (n : ℕ) : Bool :=
  match s.controller, (pick s.noticed n true).map Prod.fst with
  | some k, some m => (onDbEventReceived k.connected m).isNone
  | _, _ => false

/-- **What a step leaves** of the messages at a place. -/
def left (I : InetType A) (s : Pipeline π κ ι A) (i : Input π κ ι) : Place ι → List Message
  | .noticed => match i with
    | .controllerListenerEnds | .stopController => []
    | .forward n again _ => if s.lastNotice n then [] else rest s.noticed n again
    | _ => s.noticed
  | .published => match i with
    | .disconnectController | .stopController => []
    | .brokerRequested n again => rest s.published n again
    | _ => s.published
  | .toSensor k => match i with
    | .stopSensor j => if j = k then [] else s.held (.toSensor k)
    | .echo j n again _ =>
      if j = k then rest (s.held (.toSensor k)) n again else s.held (.toSensor k)
    | _ => s.held (.toSensor k)
  | .fromSensor k => match i with
    | .stopSensor j => if j = k then [] else s.held (.fromSensor k)
    | .brokerEvents j n again =>
      if j = k then rest (s.held (.fromSensor k)) n again else s.held (.fromSensor k)
    | _ => s.held (.fromSensor k)
  | .session => match i with
    | .brokerDelivers n again => rest (s.held .session) n again
    | _ => s.held .session
  | .received => match i with
    | .loopEnds | .stopController => []
    | .consume n link => if s.lastRound I n link then [] else rest s.received n false
    | _ => s.received

/-- The message a step takes. -/
def taken (s : Pipeline π κ ι A) : Input π κ ι → Option Message
  | .forward n _ _ => s.noticed[n]?
  | .brokerRequested n _ => s.published[n]?
  | .echo k n _ _ => (s.held (.toSensor k))[n]?
  | .brokerEvents k n _ => (s.held (.fromSensor k))[n]?
  | .brokerDelivers n _ => (s.held .session)[n]?
  | .consume n _ => s.received[n]?
  | _ => none

/-- The loop of the controller is running. -/
def LoopRuns (s : Pipeline π κ ι A) : Prop :=
  match s.controller.map Controller.main with
  | some (.consuming _) => True
  | _ => False

/-- **Where a step hands its message on**: the controller, connected, publishes it; some sensor is
subscribed; the sensor publishes its echo; the session exists; the loop runs; its upsert is
committed. -/
def HandsOn (I : InetType A) (s : Pipeline π κ ι A) (m : Message) : Input π κ ι → Prop
  | .forward _ _ published =>
    published = true ∧ (s.controller.bind fun k => onDbEventReceived k.connected m).join.isSome
  | .brokerRequested _ _ => ∃ k, (s.sensors k).isSome
  | .echo _ _ _ published => published = true
  | .brokerEvents _ _ _ => s.session.isSome
  | .brokerDelivers _ _ => s.LoopRuns
  | .consume _ link => match readConfigEvent m with
    | some (some e) => (upsertSensorConfig I link e.sensorId e.hostname e.ip e.isActive e.requestId
        s.db).written.isSome
    | _ => False
  | _ => False

/-- Some message of request `r` is left where it is, or handed on. -/
def Survives (I : InetType A) (s : Pipeline π κ ι A) (i : Input π κ ι) (r : Int64) : Prop :=
  (∃ l, ∃ m ∈ s.left I i l, requestOf m = some r) ∨
    ∃ m ∈ s.taken i, requestOf m = some r ∧ s.HandsOn I m i

variable {I : InetType A} {s t : Pipeline π κ ι A} {τ : List (Event π A)} {i : Input π κ ι}
  {o : Option (Event π A)} {m : Message} {r : Int64}

theorem rest_eq {q q' : List Message} {n : ℕ} {again : Bool} (h : pick q n again = some (m, q')) :
    rest q n again = q' := by
  rw [rest, h]
  rfl

theorem pick_again {q q' : List Message} {n : ℕ} {again : Bool}
    (h : pick q n again = some (m, q')) : pick q n true = some (m, q) := by
  simp only [pick, Option.map_eq_some_iff, Prod.mk.injEq] at h ⊢
  obtain ⟨m', hm, rfl, -⟩ := h
  exact ⟨m', hm, rfl, rfl⟩

omit [DecidableEq π] [DecidableEq κ] [DecidableEq ι] in
/-- A NOTIFY takes nothing away. -/
theorem held_notifyRequest {l : Place ι} (row : PendingRow A) (hm : m ∈ s.held l) :
    m ∈ (s.notifyRequest I row).held l := by
  cases l with
  | noticed =>
    obtain ⟨k, hk, q, hq, hm⟩ := mem_noticed.mp hm
    exact mem_noticed.mpr ⟨k.notify _, Option.mem_map_of_mem _ hk, _, Option.mem_map_of_mem _ hq,
      List.mem_append_left _ hm⟩
  | published | received =>
    obtain ⟨k, hk, hm⟩ := mem_elim.mp hm
    exact mem_elim.mpr ⟨k.notify _, Option.mem_map_of_mem _ hk, hm⟩
  | toSensor | fromSensor | session => exact hm

/-- A delivery takes nothing away. -/
theorem Controller.mem_received_receive {k : Controller} {m' : Message} (hm : m ∈ k.received) :
    m ∈ (k.receive m').received := by
  cases hmain : k.main with
  | consuming q =>
    simp only [Controller.received, hmain] at hm
    simpa [Controller.receive, Controller.received, hmain] using Or.inl hm
  | connecting | joining => simp [Controller.received, hmain] at hm

/-- What a step leaves is there after it. -/
theorem held_of_left (hstep : (machine π κ ι I).step s i = some (t, o)) {l : Place ι}
    (hm : m ∈ s.left I i l) : m ∈ t.held l := by
  cases step_cases hstep with
  | startServer | readMaximum | seeded | notSeeded | listen | listenerEnds | stopServer | request
  | generate | notified => cases l <;> exact hm
  | call hi => cases hi <;> cases l <;> exact hm
  | @add p c link srv inbox q r out x hp hc hout hx =>
    have hm' : m ∈ s.held l := by cases l <;> exact hm
    cases out.written with
    | none => cases l <;> exact hm'
    | some row => exact held_notifyRequest row (by cases l <;> exact hm')
  | startController hk =>
    cases l with
    | noticed | published | received => simp [left, noticed, published, received, hk] at hm
    | toSensor | fromSensor | session => exact hm
  | connectController hk hmain =>
    cases l with
    | noticed | published => simpa [left, held, noticed, published, hk] using hm
    | received => simp [left, received, Controller.received, hk, hmain] at hm
    | toSensor | fromSensor | session => exact hm
  | disconnectController hk =>
    cases l with
    | published => cases hm
    | noticed | received =>
      simpa [left, held, noticed, received, Controller.received, hk] using hm
    | toSensor | fromSensor | session => exact hm
  | controllerListenerEnds hk =>
    cases l with
    | noticed => cases hm
    | published | received =>
      simpa [left, held, published, received, Controller.received, hk] using hm
    | toSensor | fromSensor | session => exact hm
  | loopEnds hk hmain =>
    cases l with
    | received => cases hm
    | noticed | published => simpa [left, held, setMain, noticed, published, hk] using hm
    | toSensor | fromSensor | session => exact hm
  | stopController => cases l <;> exact hm
  | @forwardEnds k n again pub inbox inbox' m' hk hin hpick hev =>
    have hlast : s.lastNotice n = true := by
      simp [lastNotice, noticed, hk, hin, pick_again hpick, hev]
    cases l with
    | noticed => simp [left, hlast] at hm
    | published | received =>
      simpa [left, held, published, received, Controller.received, hk] using hm
    | toSensor | fromSensor | session => exact hm
  | @forward k n again pub inbox inbox' m' m'' hk hin hpick hev =>
    cases l with
    | noticed =>
      simp only [left] at hm
      split at hm
      · cases hm
      · simpa [held, noticed, hk, hin, rest_eq hpick] using hm
    | published => exact List.mem_append_left _ (by simpa [left, published, hk] using hm)
    | received => simpa [left, held, received, Controller.received, hk] using hm
    | toSensor | fromSensor | session => exact hm
  | @consumeEnds k n link q m' hk hpick hev =>
    have hlast : s.lastRound I n link = true := by simp [lastRound, received, hk, hpick, hev]
    cases l with
    | received => simp [left, hlast] at hm
    | noticed | published => simpa [left, held, setMain, noticed, published, hk] using hm
    | toSensor | fromSensor | session => exact hm
  | @consumeOther k n link q m' hk hpick hev =>
    cases l with
    | received =>
      simp only [left] at hm
      split at hm
      · cases hm
      · rwa [received, hk, Option.elim_some, rest_eq hpick] at hm
    | noticed | published => simpa [left, held, setMain, noticed, published, hk] using hm
    | toSensor | fromSensor | session => exact hm
  | @consume k n link q m' e main out hk hpick hev hout hmain =>
    -- the row that is upserted, if any, goes to the servers
    suffices hm' : m ∈ (s.setMain k main).held l by cases out.written <;> exact hm'
    cases l with
    | received =>
      simp only [left] at hm
      split at hm
      case isTrue => cases hm
      case isFalse hlast =>
        rw [received, hk, Option.elim_some, rest_eq hpick] at hm
        cases hres : out.result with
        | ok a =>
          obtain rfl : main = .consuming q := by rw [hmain, hres]
          exact hm
        | error a =>
          refine absurd ?_ hlast
          simp [lastRound, received, hk, hpick, hev, ← hout, hres, Except.isOk, Except.toBool]
    | noticed | published => simpa [left, held, setMain, noticed, published, hk] using hm
    | toSensor | fromSensor | session => exact hm
  | @brokerRequested k n again m' q hk hpick =>
    cases l with
    | published => simpa [left, held, published, hk, rest_eq hpick] using hm
    | noticed | received =>
      simpa [left, held, noticed, received, Controller.received, hk] using hm
    | toSensor j =>
      obtain ⟨x, hx, hm⟩ := mem_elim.mp hm
      exact mem_elim.mpr ⟨x.receive m', Option.mem_map_of_mem _ hx, List.mem_append_left _ hm⟩
    | fromSensor j =>
      obtain ⟨x, hx, hm⟩ := mem_elim.mp hm
      exact mem_elim.mpr ⟨x.receive m', Option.mem_map_of_mem _ hx, hm⟩
    | session => exact hm
  | @brokerEvents j y n again m' q hy hpick =>
    cases l with
    | session =>
      change m ∈ s.session.getD [] at hm
      cases hs : s.session with
      | none => simp [hs] at hm
      | some q' => simpa [held, hs] using Or.inl (by simpa [hs] using hm)
    | toSensor k =>
      by_cases hkj : k = j
      · subst hkj
        simpa [left, held, hy] using hm
      · simpa [left, held, update_of_ne hkj] using hm
    | fromSensor k =>
      by_cases hkj : k = j
      · subst hkj
        simpa [left, held, hy, rest_eq hpick] using hm
      · simpa [left, held, update_of_ne hkj, Ne.symm hkj] using hm
    | noticed | published | received => exact hm
  | @brokerDelivers k n again m' session q hk hs hpick hcon =>
    cases l with
    | session => simpa [left, held, hs, rest_eq hpick] using hm
    | noticed | published =>
      cases hmain : k.main <;>
        simpa [left, held, noticed, published, hk, Controller.receive, hmain] using hm
    | received =>
      change m ∈ s.received at hm
      rw [received, hk, Option.elim_some] at hm
      exact Controller.mem_received_receive hm
    | toSensor | fromSensor => exact hm
  | @startSensor j hj =>
    cases l with
    | toSensor k | fromSensor k =>
      by_cases hkj : k = j
      · subst hkj
        simp [left, held, hj] at hm
      · simpa [left, held, update_of_ne hkj] using hm
    | noticed | published | received | session => exact hm
  | @stopSensor j =>
    cases l with
    | toSensor k | fromSensor k =>
      by_cases hkj : k = j
      · subst hkj
        simp [left] at hm
      · simpa [left, held, update_of_ne hkj, Ne.symm hkj] using hm
    | noticed | published | received | session => exact hm
  | @echo j y n again pub m' q hy hpick =>
    cases l with
    | toSensor k =>
      by_cases hkj : k = j
      · subst hkj
        simpa [left, held, hy, rest_eq hpick] using hm
      · simpa [left, held, update_of_ne hkj, Ne.symm hkj] using hm
    | fromSensor k =>
      by_cases hkj : k = j
      · subst hkj
        simpa [left, held, hy] using Or.inl (by simpa [left, held, hy] using hm)
      · simpa [left, held, update_of_ne hkj] using hm
    | noticed | published | received | session => exact hm

theorem pick_getElem? {q q' : List Message} {n : ℕ} {again : Bool} {m' : Message}
    (h : pick q n again = some (m', q')) : q[n]? = some m' := by
  simp only [pick, Option.map_eq_some_iff, Prod.mk.injEq] at h
  obtain ⟨_, hm, rfl, -⟩ := h
  exact hm

/-- The message that is picked is the one at its place. -/
theorem eq_of_pick {q q' : List Message} {n : ℕ} {again : Bool} {m' : Message}
    (h : pick q n again = some (m', q')) (hm : q[n]? = some m) : m = m' :=
  Option.some.inj (hm.symm.trans (pick_getElem? h))

omit [DecidableEq π] [DecidableEq κ] [DecidableEq ι] in
/-- What is at a place is in flight. -/
theorem carriesId_of_held {l : Place ι} (hm : m ∈ s.held l) (hr : requestOf m = some r) :
    s.CarriesId r := ⟨m, carries_iff.mpr ⟨l, hm⟩, hr⟩

/-- A message that is handed on is in flight after the step, or has been upserted. -/
theorem carriesId_of_handsOn (hstep : (machine π κ ι I).step s i = some (t, o))
    (hm : m ∈ s.taken i) (hr : requestOf m = some r) (hon : s.HandsOn I m i) :
    t.CarriesId r ∨ ∃ row, o = some (.upserted row) ∧ row.requestId = some r := by
  cases step_cases hstep with
  | startServer | readMaximum | seeded | notSeeded | listen | listenerEnds | stopServer | request
  | generate | add | notified | startController | connectController | disconnectController
  | controllerListenerEnds | loopEnds | stopController | startSensor | stopSensor => cases hon
  | call hi => cases hi <;> cases hon
  | @forwardEnds k n again pub inbox inbox' m' hk hin hpick hev =>
    obtain ⟨-, hsent⟩ := hon
    rw [hk, Option.bind_some] at hsent
    have hm' : inbox[n]? = some m := by simpa [taken, noticed, hk, hin] using hm
    obtain rfl := eq_of_pick hpick hm'
    rw [hev] at hsent
    cases hsent
  | @forward k n again pub inbox inbox' m' m'' hk hin hpick hev =>
    obtain ⟨rfl, hsent⟩ := hon
    rw [hk, Option.bind_some] at hsent
    have hm' : inbox[n]? = some m := by simpa [taken, noticed, hk, hin] using hm
    obtain rfl := eq_of_pick hpick hm'
    rw [hev] at hsent
    obtain ⟨m₀, rfl⟩ : ∃ m₀, m'' = some m₀ := Option.isSome_iff_exists.mp hsent
    obtain rfl := onDbEventReceived_eq hev
    exact Or.inl (carriesId_of_held (l := .published) (List.mem_append_right _ (by simp)) hr)
  | @consumeEnds k n link q m' hk hpick hev | @consumeOther k n link q m' hk hpick hev =>
    have hm' : k.received[n]? = some m := by simpa [taken, received, hk] using hm
    obtain rfl := eq_of_pick hpick hm'
    rw [HandsOn, hev] at hon
    exact hon.elim
  | @consume k n link q m' e main out hk hpick hev hout hmain =>
    have hm' : k.received[n]? = some m := by simpa [taken, received, hk] using hm
    obtain rfl := eq_of_pick hpick hm'
    rw [HandsOn, hev] at hon
    obtain ⟨row, hw⟩ := Option.isSome_iff_exists.mp hon
    rw [← hout] at hw
    refine Or.inr ⟨row, by rw [hw]; rfl, ?_⟩
    rw [requestOf_of_readConfigEvent hev] at hr
    rcases upsertSensorConfig_cases I link e.sensorId e.hostname e.ip e.isActive e.requestId s.db with
      ⟨-, hw'⟩ | ⟨row', hrow, hw'⟩
    · rw [← hout, hw] at hw'
      cases hw'
    · rw [← hout, hw] at hw'
      cases hw'
      exact (Db.upsertRow_eq hrow).2.1.trans hr
  | @brokerRequested k n again m' q hk hpick =>
    obtain ⟨j, hj⟩ := hon
    obtain ⟨x, hx⟩ := Option.isSome_iff_exists.mp hj
    have hm' : k.outbox[n]? = some m := by simpa [taken, published, hk] using hm
    obtain rfl := eq_of_pick hpick hm'
    refine Or.inl (carriesId_of_held (l := .toSensor j) (mem_elim.mpr ⟨x.receive m, ?_, ?_⟩) hr)
    · exact Option.mem_map_of_mem _ hx
    · exact List.mem_append_right _ (List.mem_singleton_self _)
  | @brokerEvents j y n again m' q hy hpick =>
    obtain ⟨session, hs⟩ := Option.isSome_iff_exists.mp hon
    have hm' : y.outbox[n]? = some m := by simpa [taken, held, hy] using hm
    obtain rfl := eq_of_pick hpick hm'
    exact Or.inl (carriesId_of_held (l := .session) (by simp [held, hs]) hr)
  | @brokerDelivers k n again m' session q hk hs hpick hcon =>
    obtain ⟨q', hmain⟩ : ∃ q', k.main = .consuming q' := by
      cases hmain : k.main with
      | consuming q' => exact ⟨q', rfl⟩
      | connecting | joining => simp [HandsOn, LoopRuns, hk, hmain] at hon
    have hm' : session[n]? = some m := by simpa [taken, held, hs] using hm
    obtain rfl := eq_of_pick hpick hm'
    refine Or.inl (carriesId_of_held (l := .received) ?_ hr)
    simp [held, received, Controller.receive, Controller.received, hmain]
  | @echo j y n again pub m' q hy hpick =>
    obtain rfl : pub = true := hon
    have hm' : y.inbox[n]? = some m := by simpa [taken, held, hy] using hm
    obtain rfl := eq_of_pick hpick hm'
    exact Or.inl (carriesId_of_held (l := .fromSensor j) (m := ManagementSensors.echo m)
      (by simp [held]) (by rwa [requestOf_echo]))

/-! ## The condition -/

/-- The request an event applies. -/
def Event.appliedId : Event π A → Option Int64
  | .upserted row => row.requestId
  | _ => none

/-- An upsert of request `r` has been committed. -/
def Applied (τ : List (Event π A)) (r : Int64) : Prop := ∃ e ∈ τ, e.appliedId = some r

/-- The controller listens to `config_requested`. -/
def Listening (s : Pipeline π κ ι A) : Prop := (s.controller.bind Controller.inbox).isSome

/-- The step commits a pending row. -/
def Commits (I : InetType A) (s : Pipeline π κ ι A) : Input π κ ι → Prop
  | .add p c link => match s.handler p c with
    | some (.adding q r) => (addPendingConfig I link q.sensorId (sensorHostname q.sensorId) q.ip true
        r s.db).written.isSome
    | _ => False
  | _ => False

/-- **No step drops an order**: some message of every request that is in flight and not applied
survives, and a row is committed only while the controller listens. -/
def KeepsOrders (I : InetType A) : Guard (Pipeline π κ ι A) (Input π κ ι) (Event π A) := fun τ s i =>
  (∀ row ∈ s.db.pending, ¬ Applied τ row.requestId → s.CarriesId row.requestId →
    s.Survives I i row.requestId) ∧ (s.Commits I i → s.Listening)

/-! ## What is kept -/

/-- A start-up or reconnect step of some component. -/
def StartsUp : Guard (Pipeline π κ ι A) (Input π κ ι) (Event π A) := fun _ _ i =>
  match i with
  | .startServer _ | .readMaximum _ | .setSequence _ | .listen _ _ | .startController _
  | .connectController | .startSensor _ => True
  | _ => False

/-- Request `r` is in flight again after start-up and reconnect steps alone. -/
def Recovers (I : InetType A) (s : Pipeline π κ ι A) (r : Int64) : Prop :=
  ∃ τ t, (machine π κ ι I).Run StartsUp s τ t ∧ t.CarriesId r

/-- **No order is lost**: every PENDING row of the run is applied, or carried, or will be published
again by a start-up or reconnect step; and with the controller connected and nothing in flight,
every one is applied. -/
structure OrdersKept (I : InetType A) (db : Db A) (τ : List (Event π A)) (s : Pipeline π κ ι A) :
    Prop where
  kept : ∀ row ∈ s.db.pending, row ∉ db.pending → row.status = .pending →
    Applied τ row.requestId ∨ s.CarriesId row.requestId ∨ s.Recovers I row.requestId
  idle : (∃ k ∈ s.controller, k.connected = true) → (∀ m, ¬ s.Carries m) →
    ∀ row ∈ s.db.pending, row ∉ db.pending → row.status = .pending → Applied τ row.requestId

omit [DecidableEq π] in
theorem Applied.append (h : Applied τ r) (τ' : List (Event π A)) : Applied (τ ++ τ') r := by
  obtain ⟨e, he, hr⟩ := h
  exact ⟨e, List.mem_append_left _ he, hr⟩

/-- A row is committed by `add_pending_config` alone, and the controller is notified of it. -/
theorem requested_step {row : PendingRow A}
    (hstep : (machine π κ ι I).step s i = some (t, some (.requested row))) :
    s.Commits I i ∧ t.session = s.session ∧ t.sensors = s.sensors ∧
      t.controller = s.controller.map (·.notify (requestMessage I "config_requested" row)) := by
  generalize ho : some (Event.requested row) = o at hstep
  cases step_cases hstep with
  | startServer | readMaximum | seeded | notSeeded | listen | listenerEnds | stopServer | request
  | notified | startController | connectController | disconnectController | controllerListenerEnds
  | loopEnds | stopController | forwardEnds | forward | consumeEnds | consumeOther | brokerRequested
  | brokerEvents | brokerDelivers | startSensor | stopSensor | echo => cases ho
  | generate => split at ho <;> cases ho
  | call =>
    obtain ⟨_, _, _, _, he⟩ := quiet_answer _ _ _ _ ho.symm
    cases he
  | consume =>
    obtain ⟨_, _, he⟩ := Option.map_eq_some_iff.mp ho.symm
    cases he
  | @add p c link srv inbox q r out x hp hc hout hx =>
    obtain ⟨row', hw, he⟩ := Option.map_eq_some_iff.mp ho.symm
    cases he
    constructor
    · simp only [Commits, (handler_serving hp).trans hc, ← hout, hw]
      rfl
    · rw [hw]
      exact ⟨rfl, rfl, rfl⟩

/-- The controller is notified of a row, where it listens. -/
theorem carriesId_of_requested {row : PendingRow A}
    (hstep : (machine π κ ι I).step s i = some (t, some (.requested row))) (hl : s.Listening) :
    t.CarriesId row.requestId := by
  obtain ⟨q, hl⟩ := Option.isSome_iff_exists.mp hl
  obtain ⟨k, hk, hq⟩ := Option.bind_eq_some_iff.mp hl
  obtain ⟨-, -, -, hcontroller⟩ := requested_step hstep
  have hk' : k.notify (requestMessage I "config_requested" row) ∈ t.controller := by
    rw [hcontroller]
    exact Option.mem_map_of_mem _ hk
  exact carriesId_of_held (l := .noticed) (mem_noticed.mpr ⟨_, hk', _, Option.mem_map_of_mem _ hq,
    List.mem_append_right _ (List.mem_singleton_self _)⟩) requestOf_requestMessage

/-- It is not, where it does not. -/
theorem carries_of_not_listening {row : PendingRow A}
    (hstep : (machine π κ ι I).step s i = some (t, some (.requested row))) (hl : ¬ s.Listening)
    (hm : t.Carries m) : s.Carries m := by
  obtain ⟨-, hsession, hsensors, hcontroller⟩ := requested_step hstep
  rcases hm with ⟨k', hk', hm⟩ | ⟨q, hq, hm⟩ | ⟨j, x, hx, hm⟩
  · rw [hcontroller] at hk'
    obtain ⟨k, hk, rfl⟩ := Option.map_eq_some_iff.mp hk'
    have hnone : k.inbox = none := by
      simpa [Listening, Option.mem_def.mp hk] using hl
    refine Or.inl ⟨k, hk, ?_⟩
    rwa [Controller.notify, hnone, Option.map_none, ← hnone] at hm
  · exact Or.inr (Or.inl ⟨q, hsession ▸ hq, hm⟩)
  · exact Or.inr (Or.inr ⟨j, x, hsensors ▸ hx, hm⟩)

/-- A request that is not applied is in flight after a step that keeps it. -/
theorem kept_step (hi : KeepsOrders I τ s i) (hstep : (machine π κ ι I).step s i = some (t, o))
    {row : PendingRow A} (hrow : row ∈ s.db.pending)
    (h : Applied τ row.requestId ∨ s.CarriesId row.requestId) :
    Applied (τ ++ o.toList) row.requestId ∨ t.CarriesId row.requestId := by
  by_cases happ : Applied τ row.requestId
  · exact Or.inl (happ.append _)
  · rcases hi.1 row hrow happ (h.resolve_left happ) with ⟨l, m, hm, hr⟩ | ⟨m, hm, hr, hon⟩
    · exact Or.inr (carriesId_of_held (held_of_left hstep hm) hr)
    · rcases carriesId_of_handsOn hstep hm hr hon with hc | ⟨row', rfl, hid⟩
      · exact Or.inr hc
      · exact Or.inl ⟨.upserted row', by simp, hid⟩

/-! ## What is lost -/

/-- **No component publishes a request again when it starts**: only what is in flight already can be
in flight after start-up and reconnect steps. -/
theorem carriesId_of_recovers (h : s.Recovers I r) : s.CarriesId r := by
  obtain ⟨τ, t, hrun, hc⟩ := h
  have hback : t.CarriesId r → s.CarriesId r := by
    refine hrun.invariant (I := fun _ t => t.CarriesId r → s.CarriesId r) id ?_
    intro τ t i u o hI hC hstep hu
    rcases carriesId_step hstep hu with ht | ⟨row, rfl, -⟩
    · exact hI ht
    · have hcom := (requested_step hstep).1
      cases i <;> first | exact hcom.elim | exact hC.elim
  exact hback hc

/-- **An order that is lost**: a row committed while the controller does not listen is settled, and
its request is not upserted in any continuation (`Settled.not_upserted`). -/
theorem lost_of_not_listening {db : Db A} {row : PendingRow A}
    (hrun : (machine π κ ι I).Run Guard.free { db := db } τ s) (hl : ¬ s.Listening)
    (hstep : (machine π κ ι I).step s i = some (t, some (.requested row))) :
    Settled row.requestId t := by
  have hfaithful : Faithful I τ s := hrun.invariant (faithful_atRest I db)
    fun _ _ _ _ _ hI _ hstep => hI.step hstep
  rcases pending_step hstep with ⟨-, hno, -⟩ | ⟨_, _, _, _, _, row', -, -, -, hins, ho⟩
  · exact absurd rfl (hno row)
  · cases ho
    obtain ⟨hpending, -, -, hfresh⟩ := Db.insertPending_eq hins
    refine ⟨by simp [hpending], fun ⟨m, hm, hr⟩ => hfresh ?_⟩
    -- what is in flight is of a row that was there before
    obtain ⟨channel, row', hrow', rfl⟩ := hfaithful.carried m (carries_of_not_listening hstep hl hm)
    rw [requestOf_requestMessage] at hr
    exact Option.some.inj hr ▸ List.mem_map_of_mem hrow'

/-! ## No order is lost -/

instance (τ : List (Event π A)) (r : Int64) : Decidable (Applied τ r) :=
  inferInstanceAs (Decidable (∃ e ∈ τ, e.appliedId = some r))

omit [DecidableEq π] [DecidableEq κ] [DecidableEq ι] in
theorem carriesId_iff : s.CarriesId r ↔ ∃ l, ∃ m ∈ s.held l, requestOf m = some r := by
  simp only [CarriesId, carries_iff]
  constructor
  · rintro ⟨m, ⟨l, hm⟩, hr⟩
    exact ⟨l, m, hm, hr⟩
  · rintro ⟨l, m, hm, hr⟩
    exact ⟨m, ⟨l, hm⟩, hr⟩

instance [Fintype ι] (s : Pipeline π κ ι A) (r : Int64) : Decidable (s.CarriesId r) :=
  decidable_of_iff _ carriesId_iff.symm

instance (s : Pipeline π κ ι A) : Decidable s.LoopRuns := by
  unfold LoopRuns
  split <;> infer_instance

/-- The test for handing on. -/
def handsOn [Fintype ι] (I : InetType A) (s : Pipeline π κ ι A) (m : Message) : Input π κ ι → Bool
  | .forward _ _ published =>
    published && (s.controller.bind fun k => onDbEventReceived k.connected m).join.isSome
  | .brokerRequested _ _ => decide (∃ k, (s.sensors k).isSome)
  | .echo _ _ _ published => published
  | .brokerEvents _ _ _ => s.session.isSome
  | .brokerDelivers _ _ => decide s.LoopRuns
  | .consume _ link => (readConfigEvent m).join.any fun e => (upsertSensorConfig I link e.sensorId
      e.hostname e.ip e.isActive e.requestId s.db).written.isSome
  | _ => false

omit [DecidableEq π] [DecidableEq κ] [DecidableEq ι] in
theorem handsOn_iff [Fintype ι] : s.handsOn I m i = true ↔ s.HandsOn I m i := by
  cases i with
  | consume n link =>
    rw [handsOn, HandsOn]
    rcases readConfigEvent m with _ | _ | e <;> simp
  | _ => simp [handsOn, HandsOn]

instance [Fintype ι] (I : InetType A) (s : Pipeline π κ ι A) (m : Message) (i : Input π κ ι) :
    Decidable (s.HandsOn I m i) := decidable_of_iff _ handsOn_iff

instance [Fintype ι] (I : InetType A) (s : Pipeline π κ ι A) (i : Input π κ ι) (r : Int64) :
    Decidable (s.Survives I i r) :=
  inferInstanceAs (Decidable (_ ∨ _))

/-- The test for committing. -/
def commits (I : InetType A) (s : Pipeline π κ ι A) : Input π κ ι → Bool
  | .add p c link => ((s.handler p c).bind Phase.adds).any fun x => (addPendingConfig I link
      x.1.sensorId (sensorHostname x.1.sensorId) x.1.ip true x.2 s.db).written.isSome
  | _ => false

omit [DecidableEq π] [DecidableEq κ] [DecidableEq ι] in
theorem commits_iff : s.commits I i = true ↔ s.Commits I i := by
  cases i with
  | add p c link =>
    rw [commits, Commits]
    split
    case h_1 q r hph => simp [hph, Phase.adds]
    case h_2 hno =>
      have hnone : (s.handler p c).bind Phase.adds = none := by
        cases hph : s.handler p c with
        | none => rfl
        | some ph => cases ph <;> first | rfl | exact absurd hph (hno _ _)
      simp [hnone]
  | _ => simp [commits, Commits]

instance (I : InetType A) (s : Pipeline π κ ι A) (i : Input π κ ι) : Decidable (s.Commits I i) :=
  decidable_of_iff _ commits_iff

instance (s : Pipeline π κ ι A) : Decidable s.Listening :=
  inferInstanceAs (Decidable ((s.controller.bind Controller.inbox).isSome = true))

instance [Fintype ι] (I : InetType A) (τ : List (Event π A)) (s : Pipeline π κ ι A)
    (i : Input π κ ι) : Decidable (KeepsOrders I τ s i) :=
  inferInstanceAs (Decidable (_ ∧ _))

/-- **No order is lost**, in every run in which no step drops one. -/
theorem ordersKept_of_keepsOrders {db : Db A}
    (hrun : (machine π κ ι I).Run (KeepsOrders I) { db := db } τ s) : OrdersKept I db τ s := by
  have hkept : ∀ row ∈ s.db.pending, row ∉ db.pending →
      Applied τ row.requestId ∨ s.CarriesId row.requestId := by
    refine hrun.invariant (I := fun τ s => ∀ row ∈ s.db.pending, row ∉ db.pending →
      Applied τ row.requestId ∨ s.CarriesId row.requestId) (fun _ h hn => absurd h hn) ?_
    intro τ s i t o hI hC hstep row hrow hnew
    rcases pending_step hstep with ⟨hp, -⟩ | ⟨_, _, _, _, _, row', -, -, -, hins, rfl⟩
    · rw [hp] at hrow
      exact kept_step hC hstep hrow (hI row hrow hnew)
    · rw [(Db.insertPending_eq hins).1] at hrow
      rcases List.mem_append.mp hrow with hrow | hrow
      · exact kept_step hC hstep hrow (hI row hrow hnew)
      · obtain rfl := List.mem_singleton.mp hrow
        exact Or.inr (carriesId_of_requested hstep (hC.2 (requested_step hstep).1))
  constructor
  · intro row hrow hnew _
    exact (hkept row hrow hnew).imp_right Or.inl
  · intro _ hidle row hrow hnew _
    exact (hkept row hrow hnew).resolve_right fun ⟨m, hm, _⟩ => hidle m hm

/-- A request that is applied, and one that is on its way. -/
theorem ordersKept_of_keepsOrders_twice : ∃ τ s,
    (machine Bool Unit Bool addrInet).Run (KeepsOrders addrInet) atRest τ s ∧
      OrdersKept addrInet oneSensor τ s ∧
      s.db.pending.map PendingRow.requestId = [5, 6] ∧ Applied τ 5 ∧ ¬ Applied τ 6 := by
  obtain ⟨τ, s, hrun, hids, h5, h6⟩ := (machine Bool Unit Bool addrInet).exists_run_of_exec_all
    (KeepsOrders addrInet) atRest
    (comeUp ++ serveRequest true ⟨3, "10.0.0.1"⟩ ++ commitRequest true ++ roundTrip ++
      serveRequest false ⟨3, "10.0.0.2"⟩ ++ commitRequest false ++
      [.forward 0 false true, .brokerRequested 0 false])
    (fun τ s => s.db.pending.map PendingRow.requestId = [5, 6] ∧ Applied τ 5 ∧ ¬ Applied τ 6)
    (by decide +kernel)
  exact ⟨τ, s, hrun, ordersKept_of_keepsOrders hrun, hids, h5, h6⟩

/-- **An order that is lost**: the row of request 5 is committed before the controller starts.  The
controller starts and connects, nothing is in flight, and the row stays as it is. -/
theorem order_lost :
    ¬ ∀ τ s, (machine Bool Unit Bool addrInet).Run Guard.free atRest τ s →
      OrdersKept addrInet oneSensor τ s := by
  intro h
  obtain ⟨τ, s, hrun, hrow, happ, hcarries⟩ :=
    (machine Bool Unit Bool addrInet).exists_run_of_exec_all Guard.free atRest
      (serveRequest true ⟨3, "10.0.0.2"⟩ ++ commitRequest true ++ comeUp)
      (fun τ s => ⟨5, 3, some "sensor-3", .two, some true, .pending⟩ ∈ s.db.pending ∧
        ¬ Applied τ 5 ∧ ¬ s.CarriesId 5) (by decide +kernel)
  rcases (h τ s hrun).kept _ hrow (List.not_mem_nil) rfl with hc | hc | hc
  · exact happ hc
  · exact hcarries hc
  · exact hcarries (carriesId_of_recovers hc)

end ManagementSensors.Pipeline
