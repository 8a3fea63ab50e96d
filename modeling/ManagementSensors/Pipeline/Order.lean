import Mathlib.Data.Fintype.Basic
import ManagementSensors.Pipeline.Carriers

/-!
# Pipeline/Order — the last delivery wins, and the order in which requests are applied

`upsert_sensor_config` compares nothing: `sensor_config` holds the values of the upsert committed
last (`configOf_last`).  Whether that is the newest request is a matter of the deliveries: a message
delivered again, or late, puts its values back.  A request of which nothing is in flight stays
settled (`Settled`); and where every leg delivers in order and once, and one sensor at a time is
subscribed (`InOrder`), the messages in flight form one line in the order of their commits
(`Lined`), and the configuration never goes back (`config_never_back`).
-/

open Machinery Function

namespace ManagementSensors.Pipeline

variable {π κ ι A : Type}

/-! ## The last upsert -/

/-- The row an event writes for sensor `n`. -/
def Event.upsertOf (n : SensorId) : Event π A → Option (ConfigRow A)
  | .upserted row => if row.sensorId = n then some row else none
  | _ => none

/-- The row the last upsert of sensor `n` has written. -/
def lastUpsert (n : SensorId) (τ : List (Event π A)) : Option (ConfigRow A) :=
  (τ.filterMap (Event.upsertOf n)).getLast?

theorem lastUpsert_concat (n : SensorId) (τ : List (Event π A)) (o : Option (Event π A)) :
    lastUpsert n (τ ++ o.toList) = (o.bind (Event.upsertOf n)).or (lastUpsert n τ) := by
  cases o with
  | none => simp
  | some e =>
    rw [lastUpsert, List.filterMap_append, List.getLast?_append]
    cases h : e.upsertOf n <;> simp [h, lastUpsert]

variable [DecidableEq π] [DecidableEq κ] [DecidableEq ι] {I : InetType A} {s t : Pipeline π κ ι A}
  {τ : List (Event π A)} {i : Input π κ ι} {o : Option (Event π A)} {x : Sensor}

/-- **The last delivery wins**: in every run, the row of a sensor is the one its last upsert has
written, and the initial one before there is any. -/
theorem configOf_last {C : Guard (Pipeline π κ ι A) (Input π κ ι) (Event π A)} {db : Db A}
    (hrun : (machine π κ ι I).Run C { db := db } τ s) (n : SensorId) :
    s.db.configOf n = (lastUpsert n τ).or (db.configOf n) := by
  refine hrun.invariant (I := fun τ s => s.db.configOf n = (lastUpsert n τ).or (db.configOf n)) rfl ?_
  intro τ s i t o hI _ hstep
  rw [lastUpsert_concat]
  rcases config_step hstep with ⟨hsame, hno⟩ | ⟨row, rfl, hset⟩
  · have hnone : o.bind (Event.upsertOf n) = none := by
      cases o with
      | none => rfl
      | some e => cases e <;> first | rfl | exact absurd rfl (hno _)
    rw [hsame n, hI, hnone, Option.none_or]
  · rw [hset n]
    by_cases hn : row.sensorId = n <;> simp [Event.upsertOf, hn, hI]

/-! ## The order of the commits -/

/-- The identifier of the pending row an event commits. -/
def Event.committedId : Event π A → Option Int64
  | .requested row => some row.requestId
  | _ => none

/-- The identifiers of the pending rows, in the order of their commits. -/
def committedIds (τ : List (Event π A)) : List Int64 := τ.filterMap Event.committedId

omit [DecidableEq π] in
theorem committedIds_concat (τ : List (Event π A)) (o : Option (Event π A)) :
    committedIds (τ ++ o.toList) = committedIds τ ++ (o.bind Event.committedId).toList := by
  cases o with
  | none => simp
  | some e => cases h : e.committedId <;> simp [committedIds, h]

/-- **The configuration does not go back**: no upsert of a request comes after that of a request, of
the same sensor, whose pending row was committed later. -/
def NeverBack (τ : List (Event π A)) : Event π A → Prop
  | .upserted row => ∀ row', .upserted row' ∈ τ → row'.sensorId = row.sensorId →
      ∀ r r', row.requestId = some r → row'.requestId = some r' →
        ¬ [r, r'].Sublist (committedIds τ)
  | _ => True

/-- **Every leg delivers in order and once**, and a sensor subscribes while no other is subscribed. -/
def InOrder : Guard (Pipeline π κ ι A) (Input π κ ι) (Event π A) := fun _ s i =>
  match i with
  | .forward n again _ | .brokerRequested n again | .brokerEvents _ n again
  | .brokerDelivers n again | .echo _ n again _ => n = 0 ∧ again = false
  | .consume n _ => n = 0
  | .startSensor _ => ∀ k, (s.sensors k).isNone
  | _ => True

instance [Fintype ι] (τ : List (Event π A)) (s : Pipeline π κ ι A) (i : Input π κ ι) :
    Decidable (InOrder τ s i) := by
  unfold InOrder
  split <;> infer_instance

/-! ## The line of the messages in flight -/

/-- The requests of the messages in flight, the one nearest to its upsert first, where `x` is the
sensor that is subscribed. -/
def line (s : Pipeline π κ ι A) (x : Sensor) : List (Option Int64) :=
  (s.received ++ (s.session.getD [] ++ (x.outbox ++ (x.inbox ++ (s.published ++ s.noticed))))).map
    requestOf

/-- `x` is the only sensor that is subscribed, or is empty and none is. -/
structure Sole (s : Pipeline π κ ι A) (x : Sensor) : Prop where
  only : ∀ k y, s.sensors k = some y → y = x ∧ ∀ k', s.sensors k' ≠ none → k' = k
  empty : (∀ k, s.sensors k = none) → x = {}

/-- **What one step does to the line**: some messages go, a new one is last, or the first is
upserted. -/
inductive LineCases (s : Pipeline π κ ι A) (x : Sensor) (l' : List (Option Int64)) :
    Option (Event π A) → Prop
  | thins {o : Option (Event π A)} (ho : ∀ e ∈ o, e.committedId = none ∧ ∀ row, e ≠ .upserted row)
      (h : l'.Sublist (s.line x)) : LineCases s x l' o
  | grows {row : PendingRow A} (h : l'.Sublist (s.line x ++ [some row.requestId])) :
      LineCases s x l' (some (.requested row))
  | applies {row : ConfigRow A} {r : Int64} {l : List (Option Int64)} (hr : row.requestId = some r)
      (hl : s.line x = some r :: l) (h : l'.Sublist l) : LineCases s x l' (some (.upserted row))

variable {k : Controller}

omit [DecidableEq π] [DecidableEq κ] [DecidableEq ι] in
theorem line_eq (hk : s.controller = some k) :
    s.line x = (k.received ++ (s.session.getD [] ++ (x.outbox ++ (x.inbox ++ (k.outbox ++
      k.inbox.getD []))))).map requestOf := by
  simp [line, received, published, noticed, hk]

omit [DecidableEq π] [DecidableEq κ] in
theorem Sole.update (h : s.Sole x) {j : ι} {y z : Sensor} (hj : s.sensors j = some y) :
    Sole { s with sensors := update s.sensors j (some z) } z where
  only k z' hz' := by
    have hk : k = j := by
      by_contra hne
      have hz'' : s.sensors k = some z' := by simpa [update_of_ne hne] using hz'
      exact hne ((h.only j y hj).2 k (by simp [hz'']))
    subst hk
    refine ⟨by simpa using hz'.symm, fun k' hk' => ?_⟩
    by_contra hne
    exact hne ((h.only k y hj).2 k' (by simpa [update_of_ne hne] using hk'))
  empty hall := by
    have := hall j
    simp at this

omit [DecidableEq π] [DecidableEq κ] [DecidableEq ι] in
theorem Sole.congr (h : s.Sole x) (he : t.sensors = s.sensors) : t.Sole x where
  only := by
    rw [he]
    exact h.only
  empty := by
    rw [he]
    exact h.empty

omit [DecidableEq π] [DecidableEq κ] [DecidableEq ι] in
/-- No sensor is subscribed. -/
theorem Sole.of_none (h : ∀ j, s.sensors j = none) : s.Sole {} where
  only j y hy := by
    rw [h j] at hy
    cases hy
  empty _ := rfl

omit [DecidableEq π] [DecidableEq κ] in
/-- One is subscribed, where none was. -/
theorem Sole.start (h : ∀ j, s.sensors j = none) (j : ι) :
    Sole { s with sensors := Function.update s.sensors j (some {}) } {} where
  only j' y hy := by
    have hj : ∀ k', Function.update s.sensors j (some {}) k' ≠ none → k' = j := fun k' hk' => by
      by_contra hne
      exact hk' (by rw [update_of_ne hne, h])
    obtain rfl := hj j' (by change Function.update s.sensors j (some {}) j' = some y at hy; simp [hy])
    exact ⟨by simpa using hy.symm, hj⟩
  empty _ := rfl

omit [DecidableEq π] [DecidableEq κ] in
/-- The one that was is no longer. -/
theorem Sole.stop (h : s.Sole x) {j : ι} {y : Sensor} (hy : s.sensors j = some y) :
    Sole { s with sensors := Function.update s.sensors j none } {} := by
  refine Sole.of_none fun k => ?_
  change Function.update s.sensors j none k = none
  by_cases hk : k = j
  · rw [hk, update_self]
  · rw [update_of_ne hk]
    by_contra hne
    exact hk ((h.only j y hy).2 k hne)

omit [DecidableEq π] [DecidableEq κ] [DecidableEq ι] in
/-- It receives what the broker has for it. -/
theorem Sole.receive (h : s.Sole x) {j : ι} (hj : s.sensors j ≠ none) {m : Message}
    (he : t.sensors = fun k => (s.sensors k).map (·.receive m)) : t.Sole (x.receive m) where
  only k y hy := by
    rw [he] at hy ⊢
    obtain ⟨y', hy', rfl⟩ := Option.map_eq_some_iff.mp hy
    obtain ⟨rfl, honly⟩ := h.only k y' hy'
    exact ⟨rfl, fun k' hk' => honly k' (by simpa using hk')⟩
  empty hall := by
    rw [he] at hall
    exact absurd (by simpa using hall j) hj

/-- A message moves from the head of one queue to the end of the next, or is lost. -/
theorem moved {u v ins : List Message} {m : Message} (h : (ins.map requestOf).Sublist [requestOf m]) :
    ((u ++ (ins ++ v)).map requestOf).Sublist ((u ++ m :: v).map requestOf) := by
  rw [List.map_append, List.map_append, List.map_append, List.map_cons]
  exact (List.Sublist.refl _).append (h.append (List.Sublist.refl _))

omit [DecidableEq π] [DecidableEq κ] [DecidableEq ι] in
/-- Where nothing moves, queue by queue. -/
theorem line_sublist {k' : Controller} {y : Sensor} (hk : s.controller = some k)
    (ht : t.controller = some k') (hr : k'.received.Sublist k.received)
    (hs : (t.session.getD []).Sublist (s.session.getD [])) (hyo : y.outbox.Sublist x.outbox)
    (hyi : y.inbox.Sublist x.inbox) (ho : k'.outbox.Sublist k.outbox)
    (hi : (k'.inbox.getD []).Sublist (k.inbox.getD [])) : (t.line y).Sublist (s.line x) := by
  rw [line_eq hk, line_eq ht]
  exact (hr.append (hs.append (hyo.append (hyi.append (ho.append hi))))).map _

omit [DecidableEq π] [DecidableEq κ] [DecidableEq ι] in
/-- The queue of the loop is thinned. -/
theorem line_sublist_received {main : MainThread} (hk : s.controller = some k)
    (ht : t.controller = some { k with main := main }) (hs : t.session.getD [] = s.session.getD [])
    (hr : (Controller.received { k with main := main }).Sublist k.received) :
    (t.line x).Sublist (s.line x) :=
  line_sublist hk ht hr (hs ▸ List.Sublist.refl _) (List.Sublist.refl _) (List.Sublist.refl _)
    (List.Sublist.refl _) (List.Sublist.refl _)

omit [DecidableEq π] [DecidableEq κ] [DecidableEq ι] in
/-- The notifications are gone. -/
theorem line_sublist_noticed (hk : s.controller = some k)
    (ht : t.controller = some { k with inbox := none }) (hs : t.session = s.session) :
    (t.line x).Sublist (s.line x) :=
  line_sublist hk ht (List.Sublist.refl _) (hs ▸ List.Sublist.refl _) (List.Sublist.refl _)
    (List.Sublist.refl _) (List.Sublist.refl _) (List.nil_sublist _)

/-- What the loop is handed is last in its queue, or gone. -/
theorem received_receive (k : Controller) (m : Message) : ∃ ins : List Message,
    (k.receive m).received = k.received ++ ins ∧ (ins.map requestOf).Sublist [requestOf m] ∧
      (k.receive m).outbox = k.outbox ∧ (k.receive m).inbox = k.inbox := by
  cases hmain : k.main with
  | consuming q' => exact ⟨[m], by simp [Controller.receive, Controller.received, hmain]⟩
  | connecting | joining => exact ⟨[], by simp [Controller.receive, Controller.received, hmain]⟩

omit [DecidableEq π] [DecidableEq κ] [DecidableEq ι] in
/-- **The head of the line is consumed**, and upserted if the transaction is committed. -/
theorem line_consume {link : Link} {q : List Message} {m : Message} {e : ConfigEvent}
    {main : MainThread} {out : Outcome A (ConfigRow A) Unit} (hk : s.controller = some k)
    (hm : pick k.received 0 false = some (m, q)) (hev : readConfigEvent m = some (some e))
    (hout : out = upsertSensorConfig I link e.sensorId e.hostname e.ip e.isActive e.requestId s.db)
    (hmain : main = match out.result with
      | .ok () => .consuming q
      | .error _ => .joining)
    (hline : t.line x = (s.setMain k main).line x) :
    LineCases s x (t.line x) (out.written.map .upserted) := by
  have hmainq : (Controller.received { k with main := main }).Sublist q := by
    rw [hmain]
    split
    · exact List.Sublist.refl _
    · exact List.nil_sublist _
  have htail : (t.line x).Sublist ((q ++ (s.session.getD [] ++ (x.outbox ++ (x.inbox ++
      (k.outbox ++ k.inbox.getD []))))).map requestOf) := by
    rw [hline, line_eq rfl]
    exact (hmainq.append (List.Sublist.refl _)).map _
  have hhead : s.line x = requestOf m :: (q ++ (s.session.getD [] ++ (x.outbox ++ (x.inbox ++
      (k.outbox ++ k.inbox.getD []))))).map requestOf := by
    rw [line_eq hk, pick_head hm]
    rfl
  cases hw : out.written with
  | none =>
    refine .thins (by simp) ?_
    rw [hhead]
    exact List.Sublist.cons _ htail
  | some row =>
    refine .applies (r := e.requestId.toInt64) ?_
      (by rw [hhead, requestOf_of_readConfigEvent hev]) htail
    subst hout
    rcases upsertSensorConfig_cases I link e.sensorId e.hostname e.ip e.isActive e.requestId s.db with
      ⟨-, hw'⟩ | ⟨row', hrow, hw'⟩
    · rw [hw] at hw'
      cases hw'
    · rw [hw] at hw'
      cases hw'
      exact (Db.upsertRow_eq hrow).2.1

/-- **The line after one step**, in order. -/
theorem line_step (hx : s.Sole x) (hi : InOrder τ s i)
    (hstep : (machine π κ ι I).step s i = some (t, o)) :
    ∃ y, t.Sole y ∧ LineCases s x (t.line y) o := by
  have same : ∀ {u : Pipeline π κ ι A}, u.sensors = s.sensors → u.Sole x := hx.congr
  cases step_cases hstep with
  | startServer | readMaximum | notSeeded | listen | listenerEnds | stopServer | request | notified =>
    exact ⟨x, same rfl, .thins (by simp) (List.Sublist.refl _)⟩
  | seeded =>
    refine ⟨x, same rfl, .thins (fun e he => ?_) (List.Sublist.refl _)⟩
    cases he
    exact ⟨rfl, by simp⟩
  | generate =>
    refine ⟨x, same rfl, .thins (fun e he => ?_) (List.Sublist.refl _)⟩
    split at he <;> cases he
    exact ⟨rfl, by simp⟩
  | call =>
    refine ⟨x, same rfl, .thins (fun e he => ?_) (List.Sublist.refl _)⟩
    obtain ⟨p, q, r, st, rfl⟩ := quiet_answer _ _ _ e he
    exact ⟨rfl, by simp⟩
  | @add p c link srv inbox q r out x' hp hc hout hx' =>
    cases hw : out.written with
    | none => exact ⟨x, same rfl, .thins (by simp) (List.Sublist.refl _)⟩
    | some row =>
      refine ⟨x, same rfl, .grows ?_⟩
      cases hk : s.controller with
      | none => simp [line, received, published, noticed, notifyRequest, setServer, hk]
      | some k =>
        -- the notification is the last message of the line, where the controller listens
        cases hin : k.inbox <;>
          simp [line, received, published, noticed, notifyRequest, setServer, hk, Controller.notify,
            Controller.received, hin]
  | startController hk =>
    refine ⟨x, same rfl, .thins (by simp) ?_⟩
    rw [line_eq rfl]
    simp only [line, received, published, noticed, hk]
    split <;> simp [Controller.received]
  | connectController hk hmain =>
    exact ⟨x, same rfl, .thins (by simp) (line_sublist hk rfl (List.nil_sublist _) (List.Sublist.refl _)
      (List.Sublist.refl _) (List.Sublist.refl _) (List.Sublist.refl _) (List.Sublist.refl _))⟩
  | disconnectController hk =>
    exact ⟨x, same rfl, .thins (by simp) (line_sublist hk rfl (List.Sublist.refl _) (List.Sublist.refl _)
      (List.Sublist.refl _) (List.Sublist.refl _) (List.nil_sublist _) (List.Sublist.refl _))⟩
  | controllerListenerEnds hk | forwardEnds hk _ _ _ =>
    exact ⟨x, same rfl, .thins (by simp) (line_sublist_noticed hk rfl rfl)⟩
  | loopEnds hk _ | consumeEnds hk _ _ =>
    exact ⟨x, same rfl, .thins (by simp) (line_sublist_received hk rfl rfl (List.nil_sublist _))⟩
  | stopController =>
    refine ⟨x, same rfl, .thins (by simp) ?_⟩
    have hnil : line { s with controller := none } x =
        (s.session.getD [] ++ (x.outbox ++ x.inbox)).map requestOf := by
      simp [line, received, published, noticed]
    rw [hnil, line]
    refine List.Sublist.map _ (List.sublist_append_of_sublist_right ?_)
    exact (List.Sublist.refl _).append ((List.Sublist.refl _).append (List.sublist_append_left _ _))
  | @forward k n again pub inbox inbox' m m' hk hin hm hev =>
    obtain ⟨rfl, rfl⟩ := hi
    refine ⟨x, same rfl, .thins (by simp) ?_⟩
    rw [line_eq hk, line_eq rfl]
    have hins : ((if pub then m'.toList else []).map requestOf).Sublist [requestOf m] := by
      cases pub with
      | false => simp
      | true =>
        cases m' with
        | none => simp
        | some m'' => simp [onDbEventReceived_eq hev]
    have hmove := moved (u := k.received ++ s.session.getD [] ++ x.outbox ++ x.inbox ++ k.outbox)
      (v := inbox') hins
    simpa [hin, pick_head hm, Controller.received] using hmove
  | @consumeOther k n link q m hk hm hev =>
    exact ⟨x, same rfl, .thins (by simp) (line_sublist_received hk rfl rfl (pick_sublist hm))⟩
  | @consume k n link q m e main out hk hm hev hout hmain =>
    obtain rfl : n = 0 := hi
    refine ⟨x, same ?_, line_consume hk hm hev hout hmain ?_⟩
    · cases out.written <;> rfl
    · cases out.written <;> rfl
  | @brokerRequested k n again m q hk hm =>
    obtain ⟨rfl, rfl⟩ := hi
    by_cases hnone : ∀ j, s.sensors j = none
    · -- no sensor is subscribed: the message is gone
      obtain rfl := hx.empty hnone
      refine ⟨{}, Sole.of_none fun j => by simp [hnone j], .thins (by simp) ?_⟩
      exact line_sublist hk rfl (List.Sublist.refl _) (List.Sublist.refl _) (List.Sublist.refl _)
        (List.Sublist.refl _) (pick_sublist hm) (List.Sublist.refl _)
    · obtain ⟨j, hj⟩ := not_forall.mp hnone
      refine ⟨x.receive m, hx.receive hj rfl, .thins (by simp) ?_⟩
      rw [line_eq hk, line_eq rfl]
      simp [pick_head hm, Controller.received, Sensor.receive]
  | @brokerEvents j y n again m q hy hm =>
    obtain ⟨rfl, rfl⟩ := hi
    obtain ⟨rfl, -⟩ := hx.only j y hy
    refine ⟨{ y with outbox := q }, ?_, .thins (by simp) ?_⟩
    · have := hx.update (z := { y with outbox := q }) hy
      exact ⟨this.only, this.empty⟩
    · cases hs : s.session <;> simp [line, received, published, noticed, pick_head hm, hs]
  | @brokerDelivers k n again m session q hk hs hm hcon =>
    obtain ⟨rfl, rfl⟩ := hi
    refine ⟨x, same rfl, .thins (by simp) ?_⟩
    rw [line_eq hk, line_eq rfl]
    obtain ⟨ins, hr, hins, ho, hin⟩ := received_receive k m
    have hmove := moved (u := k.received)
      (v := q ++ (x.outbox ++ (x.inbox ++ (k.outbox ++ k.inbox.getD [])))) hins
    simpa [hr, ho, hin, hs, pick_head hm] using hmove
  | @startSensor j hj =>
    have hnone : ∀ j, s.sensors j = none := fun j => Option.isNone_iff_eq_none.mp (hi j)
    obtain rfl := hx.empty hnone
    exact ⟨{}, Sole.start hnone j, .thins (by simp) (List.Sublist.refl _)⟩
  | @stopSensor j =>
    cases hy : s.sensors j with
    | none =>
      refine ⟨x, same ?_, .thins (by simp) (List.Sublist.refl _)⟩
      change update s.sensors j none = s.sensors
      rw [← hy, update_eq_self]
    | some y =>
      refine ⟨{}, hx.stop hy, .thins (by simp) ?_⟩
      exact List.Sublist.map _ ((List.Sublist.refl _).append ((List.Sublist.refl _).append
        ((List.nil_sublist _).append ((List.nil_sublist _).append (List.Sublist.refl _)))))
  | @echo j y n again pub m q hy hm =>
    obtain ⟨rfl, rfl⟩ := hi
    obtain ⟨rfl, -⟩ := hx.only j y hy
    refine ⟨_, hx.update hy, .thins (by simp) ?_⟩
    have hins : ((if pub then [ManagementSensors.echo m] else []).map requestOf).Sublist
        [requestOf m] := by
      cases pub <;> simp
    have hmove := moved (u := s.received ++ s.session.getD [] ++ y.outbox)
      (v := q ++ (s.published ++ s.noticed)) hins
    simpa [line, received, published, noticed, pick_head hm] using hmove

/-! ## The configuration never goes back -/

/-- The pending rows are those of `db` and those committed since, in this order. -/
def Committed (db : Db A) (τ : List (Event π A)) (s : Pipeline π κ ι A) : Prop :=
  s.db.pending.map PendingRow.requestId = db.pending.map PendingRow.requestId ++ committedIds τ

omit [DecidableEq π] [DecidableEq κ] [DecidableEq ι] in
theorem committed_atRest (db : Db A) : Committed db [] ({ db := db } : Pipeline π κ ι A) :=
  (List.append_nil _).symm

theorem Committed.step {db : Db A} (h : Committed db τ s)
    (hstep : (machine π κ ι I).step s i = some (t, o)) : Committed db (τ ++ o.toList) t := by
  rw [Committed, committedIds_concat]
  rcases pending_step hstep with ⟨hp, hno, -⟩ | ⟨_, _, _, _, _, row, -, -, -, hins, rfl⟩
  · have hnone : o.bind Event.committedId = none := by
      cases o with
      | none => rfl
      | some e => cases e <;> first | rfl | exact absurd rfl (hno _)
    rw [hp, h, hnone, Option.toList_none, List.append_nil]
  · rw [(Db.insertPending_eq hins).1, List.map_append, h, List.append_assoc]
    rfl

omit [DecidableEq π] [DecidableEq κ] [DecidableEq ι] in
/-- No identifier is committed twice. -/
theorem Committed.nodup {db : Db A} (h : Committed db τ s) : (committedIds τ).Nodup := by
  have hkey := s.db.pendingKey
  rw [h] at hkey
  exact hkey.of_append_right

/-- **The invariant**: the identifiers committed so far are those done with, among them every one
upserted, and then those of the line, in the order of their commits. -/
def Lined (τ : List (Event π A)) (s : Pipeline π κ ι A) : Prop :=
  ∃ x past future, s.Sole x ∧ committedIds τ = past ++ future ∧
    (s.line x).Sublist (future.map some) ∧
    ∀ row, .upserted row ∈ τ → ∃ r ∈ past, row.requestId = some r

omit [DecidableEq π] [DecidableEq κ] [DecidableEq ι] in
theorem lined_atRest (db : Db A) : Lined [] ({ db := db } : Pipeline π κ ι A) :=
  ⟨{}, [], [], ⟨nofun, fun _ => rfl⟩, rfl, List.Sublist.refl _, nofun⟩

/-- An identifier that is upserted now is of the line, and what was committed before it is done
with. -/
theorem Lined.applied (past : List Int64) {future : List Int64} {row : ConfigRow A} {r : Int64}
    {l : List (Option Int64)} (h : (some r :: l).Sublist (future.map some))
    (hrow : row.requestId = some r) : ∃ done rest, future = done ++ rest ∧ r ∈ done ∧
      l.Sublist (rest.map some) ∧ ∃ r ∈ past ++ done, row.requestId = some r := by
  obtain ⟨done, rest, hsplit, hr, hl⟩ := List.cons_sublist_iff.mp h
  obtain ⟨done, rest, rfl, rfl, rfl⟩ := List.map_eq_append_iff.mp hsplit
  have hmem : r ∈ done := by simpa using hr
  exact ⟨done, rest, rfl, hmem, hl, r, List.mem_append_right _ hmem, hrow⟩

theorem Lined.step (h : Lined τ s) (hi : InOrder τ s i)
    (hstep : (machine π κ ι I).step s i = some (t, o)) : Lined (τ ++ o.toList) t := by
  obtain ⟨x, past, future, hx, hids, hline, hups⟩ := h
  obtain ⟨y, hy, hcases⟩ := line_step hx hi hstep
  rw [Lined, committedIds_concat]
  cases hcases with
  | thins ho hsub =>
    refine ⟨y, past, future, hy, ?_, hsub.trans hline, fun row hrow => ?_⟩
    · have hnone : o.bind Event.committedId = none :=
        Option.bind_eq_none_iff.mpr fun e he => (ho e he).1
      rw [hids, hnone, Option.toList_none, List.append_nil]
    · rcases List.mem_append.mp hrow with hrow | hrow
      · exact hups row hrow
      · exact absurd rfl ((ho _ (by simpa using hrow)).2 row)
  | @grows row hsub =>
    refine ⟨y, past, future ++ [row.requestId], hy, ?_, ?_, fun row' hrow => ?_⟩
    · rw [hids, List.append_assoc]
      rfl
    · rw [List.map_append]
      exact hsub.trans (hline.append (List.Sublist.refl _))
    · rcases List.mem_append.mp hrow with hrow | hrow
      · exact hups row' hrow
      · simp at hrow
  | @applies row r l hr hl hsub =>
    rw [hl] at hline
    obtain ⟨done, rest, rfl, -, hrest, hrow⟩ := Lined.applied past hline hr
    refine ⟨y, past ++ done, rest, hy, ?_, hsub.trans hrest, fun row' hrow' => ?_⟩
    · have hnone : (some (Event.upserted (π := π) row)).bind Event.committedId = none := rfl
      rw [hids, hnone, Option.toList_none, List.append_nil, List.append_assoc]
    · rcases List.mem_append.mp hrow' with hrow' | hrow'
      · obtain ⟨r', hr', hid⟩ := hups row' hrow'
        exact ⟨r', List.mem_append_left _ hr', hid⟩
      · obtain rfl : row' = row := by simpa using hrow'
        exact hrow

/-- What comes later in a list is not before what comes earlier. -/
theorem not_sublist_of_split {past future : List Int64} (h : (past ++ future).Nodup) {r r' : Int64}
    (hr : r ∈ future) (hr' : r' ∈ past) : ¬ [r, r'].Sublist (past ++ future) := by
  intro hsub
  have hdis := (List.nodup_append.mp h).2.2
  obtain ⟨l₁, l₂, hl, h₁, h₂⟩ := List.sublist_append_iff.mp hsub
  cases l₁ with
  | nil =>
    rw [List.nil_append] at hl
    exact hdis r' hr' r' (h₂.subset (by simp [← hl])) rfl
  | cons a l₁ =>
    obtain rfl : r = a := (List.cons.inj hl).1
    exact hdis r (h₁.subset (by simp)) r hr rfl

theorem Lined.neverBack {e : Event π A} (h : Lined τ s) (hnodup : (committedIds τ).Nodup)
    (hi : InOrder τ s i) (hstep : (machine π κ ι I).step s i = some (t, some e)) :
    NeverBack τ e := by
  obtain ⟨x, past, future, hx, hids, hline, hups⟩ := h
  unfold NeverBack
  split
  case h_2 => trivial
  case h_1 row =>
    intro row' hrow' _ r r' hr hr'
    obtain ⟨y, -, hcases⟩ := line_step hx hi hstep
    cases hcases with
    | thins ho => exact absurd rfl ((ho _ rfl).2 row)
    | @applies _ r₁ l hr₁ hl _ =>
      obtain rfl : r = r₁ := Option.some.inj (hr.symm.trans hr₁)
      rw [hl] at hline
      obtain ⟨done, rest, rfl, hmem, -, -⟩ := Lined.applied past hline hr
      obtain ⟨r₂, hr₂, hid⟩ := hups row' hrow'
      obtain rfl : r' = r₂ := Option.some.inj (hr'.symm.trans hid)
      rw [hids] at hnodup ⊢
      exact not_sublist_of_split hnodup (List.mem_append_left _ hmem) hr₂

/-- **When the configuration never goes back.**  In every run the row of a sensor is the one its last
upsert has written; a request that is committed, and of which nothing is in flight, is never upserted
again; and where each leg delivers in order and once, and a sensor subscribes while no other is
subscribed, no upsert comes after that of a request committed later. -/
theorem config_never_back {db : Db A} (hrun : (machine π κ ι I).Run Guard.free { db := db } τ s) :
    (∀ n, s.db.configOf n = (lastUpsert n τ).or (db.configOf n)) ∧
      (∀ r ∈ committedIds τ, ¬ s.CarriesId r → ∀ τ' s', (machine π κ ι I).Run Guard.free s τ' s' →
        ∀ row, .upserted row ∈ τ' → row.requestId ≠ some r) ∧
      ((machine π κ ι I).Run InOrder { db := db } τ s → Always NeverBack τ) := by
  refine ⟨configOf_last hrun, fun r hr hc τ' s' hrun' row hrow => ?_, fun hord => ?_⟩
  · have hcom : Committed db τ s := hrun.invariant (I := Committed db) (committed_atRest db)
      fun _ _ _ _ _ hI _ hstep => hI.step hstep
    have hset : Settled r s := ⟨by rw [hcom]; exact List.mem_append_right _ hr, hc⟩
    obtain ⟨τ₁, τ₂, rfl⟩ := List.append_of_mem hrow
    exact hset.not_upserted hrun' τ₁ _ τ₂ rfl row rfl
  · refine hord.always (I := fun τ s => Committed db τ s ∧ Lined τ s)
      ⟨committed_atRest db, lined_atRest db⟩ ?_ ?_
    · exact fun _ _ _ _ _ hI hC hstep => ⟨hI.1.step hstep, hI.2.step hC hstep⟩
    · exact fun _ _ _ _ _ hI hC hstep => hI.2.neverBack hI.1.nodup hC hstep

/-- Two requests, in order: the configuration is that of the second. -/
theorem config_never_back_twice : ∃ τ s,
    (machine Bool Unit Bool addrInet).Run InOrder atRest τ s ∧ Always NeverBack τ ∧
    committedIds τ = [5, 6] ∧
    s.db.configOf 3 = some ⟨3, "sensor-3", .two, some true, 3, some 6⟩ := by
  obtain ⟨s, hrun⟩ := (machine Bool Unit Bool addrInet).exists_run_of_exec InOrder atRest
    (comeUp ++ serveRequest true ⟨3, "10.0.0.1"⟩ ++ commitRequest true ++
      serveRequest false ⟨3, "10.0.0.2"⟩ ++ commitRequest false ++ roundTrip ++ roundTrip)
    [.seeded 4, .generated true 5, .requested ⟨5, 3, some "sensor-3", .one, some true, .pending⟩,
      .seeded 5, .generated false 6,
      .requested ⟨6, 3, some "sensor-3", .two, some true, .pending⟩,
      .upserted ⟨3, "sensor-3", .one, some true, 3, some 5⟩,
      .upserted ⟨3, "sensor-3", .two, some true, 3, some 6⟩] (by decide +kernel)
  obtain ⟨hlast, -, hback⟩ := config_never_back hrun.free
  exact ⟨_, s, hrun, hback hrun, by decide, by rw [hlast 3]; decide⟩

/-- **An echo that comes late**: the configuration of request 5 replaces that of request 6. -/
theorem goes_back :
    ¬ ∀ τ s, (machine Bool Unit Bool addrInet).Run Guard.free atRest τ s → Always NeverBack τ := by
  intro h
  obtain ⟨s, hrun⟩ := (machine Bool Unit Bool addrInet).exists_run_of_exec Guard.free atRest
    (comeUp ++ serveRequest true ⟨3, "10.0.0.1"⟩ ++ commitRequest true ++
      [.forward 0 false true, .brokerRequested 0 false, .echo true 0 false true,
        .brokerEvents true 0 false, .brokerDelivers 0 true, .consume 0 .up] ++
      serveRequest false ⟨3, "10.0.0.2"⟩ ++ commitRequest false ++
      [.forward 0 false true, .brokerRequested 0 false, .echo true 0 false true,
        .brokerEvents true 0 false, .brokerDelivers 1 false, .consume 0 .up] ++
      [.brokerDelivers 0 false, .consume 0 .up])
    [.seeded 4, .generated true 5, .requested ⟨5, 3, some "sensor-3", .one, some true, .pending⟩,
      .upserted ⟨3, "sensor-3", .one, some true, 3, some 5⟩, .seeded 5, .generated false 6,
      .requested ⟨6, 3, some "sensor-3", .two, some true, .pending⟩,
      .upserted ⟨3, "sensor-3", .two, some true, 3, some 6⟩,
      .upserted ⟨3, "sensor-3", .one, some true, 3, some 5⟩] (by decide +kernel)
  exact h _ _ hrun [.seeded 4, .generated true 5,
    .requested ⟨5, 3, some "sensor-3", .one, some true, .pending⟩,
    .upserted ⟨3, "sensor-3", .one, some true, 3, some 5⟩, .seeded 5, .generated false 6,
    .requested ⟨6, 3, some "sensor-3", .two, some true, .pending⟩,
    .upserted ⟨3, "sensor-3", .two, some true, 3, some 6⟩] _ [] rfl
    ⟨3, "sensor-3", .two, some true, 3, some 6⟩ (by simp) rfl 5 6 rfl rfl (by decide)

end ManagementSensors.Pipeline
