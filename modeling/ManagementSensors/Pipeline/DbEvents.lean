import Mathlib.Data.List.Forall2
import ManagementSensors.Db.Triggers
import ManagementSensors.Pipeline.Encoding

/-!
# Pipeline/DbEvents — from the statements of any client to what the server does

    statements ──triggers──▸ texts ──COMMIT──▸ queue ──parser_notify──▸ callbacks of `main`

The server listens on three channels.  Its callbacks take what `parser_notify` hands them, and that is
an object of a channel and a payload, whatever the text: no text that any client sends, JSON or not,
ends the listener, and none raises the alarm, which looks for a member `type` beside the payload.
SUCCESS is dispatched, transaction after transaction, on the requests of the rows of `sensor_config`
that have been inserted or updated, and on nothing else (`events_dispatch`).

PostgreSQL sends the notifications of a transaction when it commits, in order, and equal ones once.
-/

open Machinery

namespace ManagementSensors.DbEvents

open Triggers (Tables Statement Change changesOf notification)

variable {A : Type} {J : Json.Codec String String} {I : InetType A}

/-! ## The callbacks -/

/-- `on_db_state_event_received`. -/
def onDbStateEventReceived (msg : Message) : Option Unit :=
  if msg = [] then some ()
  else do
    let channel ← Json.member "channel" msg
    let _ ← channel.asString
    return ()

/-- `on_db_error_event_received`: whether it reports an alarm. -/
def onDbErrorEventReceived (msg : Message) : Option Bool :=
  if msg = [] then some false
  else do
    let channel ← Json.member "channel" msg
    let _ ← channel.asString
    if Json.contains "type" msg then do
      let type ← (Json.member "type" msg).bind Json.asString
      return type = "alarm"
    else return false

/-- What a callback does. -/
inductive Effect
  | dispatched (r : RequestId)
  | alarm
  deriving DecidableEq, Repr

/-- The callback that `main` has registered for a channel, if any; `none` is an exception. -/
def callback (channel : String) (msg : Message) : Option (List Effect) :=
  if channel = "config_events" then
    (onDbConfigEventReceived msg).map fun r => r.toList.map .dispatched
  else if channel = "state_events" then (onDbStateEventReceived msg).map fun _ => []
  else if channel = "error_events" then
    (onDbErrorEventReceived msg).map fun alarm => if alarm then [.alarm] else []
  else some []

/-- The listener thread, on the notifications in their order; an exception ends it. -/
def listen (J : Json.Codec String String) : List (String × String) → Option (List Effect)
  | [] => some []
  | n :: ns => do
    let effects ← callback n.1 (parserNotifyText J n.1 n.2)
    let rest ← listen J ns
    return effects ++ rest

/-! ## What PostgreSQL sends -/

/-- What a client commits: a transaction, or a NOTIFY of its own. -/
inductive Commit (A : Type)
  | transaction (stmts : List (Statement A))
  | notify (channel text : String)

/-- The tables after some statements. -/
def applyAll (T : Tables A) (stmts : List (Statement A)) : Tables A :=
  stmts.foldl (fun T stmt => stmt.apply T) T

/-- The notifications of a transaction, with `text` the text that a JSON value is cast to. -/
def notices (I : InetType A) (text : Json String → String) (T : Tables A)
    (stmts : List (Statement A)) : List (String × String) :=
  (((changesOf T stmts).filterMap (notification I)).map fun n => (n.1, text n.2)).eraseDups

/-- The commits, each with the tables it meets. -/
def met (T : Tables A) : List (Commit A) → List (Tables A × Commit A)
  | [] => []
  | .transaction stmts :: cs => (T, .transaction stmts) :: met (applyAll T stmts) cs
  | .notify channel text :: cs => (T, .notify channel text) :: met T cs

/-- What one commit sends. -/
def sends (I : InetType A) (text : Json String → String) : Tables A × Commit A → List (String × String)
  | (T, .transaction stmts) => notices I text T stmts
  | (_, .notify channel text) => [(channel, text)]

/-- What is sent to the listener of a server. -/
def sent (I : InetType A) (text : Json String → String) (T : Tables A) (cs : List (Commit A)) :
    List (String × String) :=
  (met T cs).flatMap (sends I text)

/-! ## What is done about it -/

/-- The request of a row change: NEW.request_id of a row of `sensor_config`. -/
def requestOf : Triggers.RowChange A → Option RequestId
  | ⟨.config, c⟩ => (c.new.bind ConfigRow.requestId).map Int64.toUInt64
  | _ => none

/-- **What a commit leads to**: SUCCESS on the requests of its row changes; a NOTIFY of a client's own
leads to one dispatch at most. -/
def LeadsTo : Tables A × Commit A → List Effect → Prop
  | (T, .transaction stmts), effects => ∀ e, e ∈ effects ↔
      ∃ c ∈ changesOf T stmts, ∃ r ∈ requestOf c, e = .dispatched r
  | (_, .notify _ _), effects => effects.length ≤ 1 ∧ .alarm ∉ effects

/-- The texts of the row changes of `sensor_config` are read as what they show. -/
def Readable (J : Json.Codec String String) (I : InetType A) (text : Json String → String) :
    Tables A × Commit A → Prop
  | (T, .transaction stmts) => ∀ c, ⟨.config, c⟩ ∈ changesOf T stmts →
      Shows J (text (Triggers.notifyConfigChange I c)) (Triggers.notifyConfigChange I c)
  | (_, .notify _ _) => True

/-! ## One notification -/

variable {channel : String} {payload : Json String}

/-- What is wrong with a payload is caught. -/
theorem onDbConfigEventReceived_parserNotify (channel : String) (payload : Json String) :
    ∃ r, onDbConfigEventReceived (parserNotify channel payload) = some r := by
  simp [onDbConfigEventReceived, parserNotify, Json.contains, Json.asString]

theorem onDbStateEventReceived_parserNotify :
    onDbStateEventReceived (parserNotify channel payload) = some () := by
  simp [onDbStateEventReceived, parserNotify, Json.asString]

/-- There is no member `type` beside the payload. -/
theorem onDbErrorEventReceived_parserNotify :
    onDbErrorEventReceived (parserNotify channel payload) = some false := by
  simp [onDbErrorEventReceived, parserNotify, Json.contains, Json.asString]

/-- **No text ends the listener, or raises the alarm.** -/
theorem callback_parserNotifyText (J : Json.Codec String String) (channel text : String) :
    ∃ effects, callback channel (parserNotifyText J channel text) = some effects ∧
      effects.length ≤ 1 ∧ .alarm ∉ effects := by
  unfold callback parserNotifyText
  split
  case isTrue =>
    obtain ⟨r, hr⟩ := onDbConfigEventReceived_parserNotify channel
      ((J.parse (cStr text)).getD (.string (cStr text)))
    rw [hr]
    cases r <;> exact ⟨_, rfl, by simp, by simp⟩
  case isFalse =>
    rw [onDbStateEventReceived_parserNotify, onDbErrorEventReceived_parserNotify]
    split
    case isTrue => exact ⟨_, rfl, by simp, by simp⟩
    case isFalse => split <;> exact ⟨_, rfl, by simp, by simp⟩

/-- The change of a row of `sensor_config`, as `Pipeline/Encoding` has it. -/
def rowChange : Change (ConfigRow A) → RowChange A
  | .insert new => .insert new
  | .update _ new => .update new
  | .delete old => .delete old

theorem payload_rowChange (c : Change (ConfigRow A)) :
    (rowChange c).payload I = Triggers.notifyConfigChange I c := by
  cases c <;> rfl

/-- The text of a row change leads to SUCCESS on its request, or to nothing. -/
theorem callback_notification (text : Json String → String) {c : Triggers.RowChange A}
    {n : String × Json String} (hn : notification I c = some n)
    (hreadable : ∀ d, c = ⟨.config, d⟩ → Shows J (text (Triggers.notifyConfigChange I d))
      (Triggers.notifyConfigChange I d)) :
    callback n.1 (parserNotifyText J n.1 (text n.2)) =
      some ((requestOf c).toList.map .dispatched) := by
  obtain ⟨t, c⟩ := c
  cases t with
  | certs =>
    cases hn
    rfl
  | config =>
    cases hn
    have hshows := hreadable c rfl
    rw [← payload_rowChange] at hshows
    have hdispatched := dispatched_change _ hshows
    rw [payload_rowChange] at hdispatched
    simp only [callback, if_true, hdispatched, Option.map_some, requestOf]
    cases c <;> rfl
  | pending =>
    cases c <;> cases hn <;> rfl
  | errors =>
    cases hn
    simp [callback, parserNotifyText, onDbErrorEventReceived_parserNotify, requestOf]
  | state =>
    cases c <;> cases hn <;>
      simp [callback, parserNotifyText, onDbStateEventReceived_parserNotify, requestOf]

/-! ## The queue -/

/-- The listener handles what one commit sends after what another has sent. -/
theorem listen_append {ns ms : List (String × String)} {es fs : List Effect}
    (hns : listen J ns = some es) (hms : listen J ms = some fs) :
    listen J (ns ++ ms) = some (es ++ fs) := by
  induction ns generalizing es with
  | nil =>
    cases hns
    exact hms
  | cons n ns ih =>
    simp only [listen, Option.bind_eq_bind, Option.bind_eq_some_iff, Option.pure_def,
      Option.some.injEq] at hns
    obtain ⟨es₁, h₁, es₂, h₂, rfl⟩ := hns
    simp only [List.cons_append, listen, h₁, ih h₂, Option.bind_eq_bind, Option.bind_some,
      Option.pure_def, List.append_assoc]

/-- What the listener does is what its callbacks do. -/
theorem exists_listen (ns : List (String × String)) : ∃ es, listen J ns = some es ∧
    ∀ e, e ∈ es ↔ ∃ n ∈ ns, ∃ fs, callback n.1 (parserNotifyText J n.1 n.2) = some fs ∧ e ∈ fs := by
  induction ns with
  | nil => exact ⟨[], rfl, by simp⟩
  | cons n ns ih =>
    obtain ⟨es, hes, hmem⟩ := ih
    obtain ⟨fs, hfs, -⟩ := callback_parserNotifyText J n.1 n.2
    refine ⟨fs ++ es, by simp [listen, hfs, hes], fun e => ?_⟩
    rw [List.mem_append, hmem]
    simp [hfs]

/-- A transaction leads to SUCCESS on the requests of its row changes. -/
theorem leadsTo_transaction {text : Json String → String} {T : Tables A} {stmts : List (Statement A)}
    (hreadable : Readable J I text (T, .transaction stmts)) : ∃ es,
      listen J (sends I text (T, .transaction stmts)) = some es ∧
        LeadsTo (T, .transaction stmts) es := by
  obtain ⟨es, hes, hmem⟩ := exists_listen (J := J) (sends I text (T, .transaction stmts))
  refine ⟨es, hes, fun e => ?_⟩
  rw [hmem]
  constructor
  · rintro ⟨n, hn, fs, hfs, he⟩
    rw [sends, notices, List.mem_eraseDups, List.mem_map] at hn
    obtain ⟨m, hm, rfl⟩ := hn
    obtain ⟨c, hc, hnotification⟩ := List.mem_filterMap.mp hm
    have hcallback := callback_notification text hnotification fun d hd =>
      hreadable d (hd ▸ hc)
    obtain rfl := Option.some.inj (hfs.symm.trans hcallback)
    obtain ⟨r, hr, rfl⟩ := List.mem_map.mp he
    exact ⟨c, hc, r, Option.mem_toList.mp hr, rfl⟩
  · rintro ⟨c, hc, r, hr, rfl⟩
    obtain ⟨n, hn⟩ : ∃ n, notification I c = some n := by
      obtain ⟨t, c⟩ := c
      cases t with
      | config => exact ⟨_, rfl⟩
      | certs | pending | errors | state => cases hr
    refine ⟨(n.1, text n.2), ?_, _, callback_notification text hn fun d hd => hreadable d (hd ▸ hc), ?_⟩
    · rw [sends, notices, List.mem_eraseDups]
      exact List.mem_map.mpr ⟨n, List.mem_filterMap.mpr ⟨c, hc, hn⟩, rfl⟩
    · exact List.mem_map.mpr ⟨r, Option.mem_toList.mpr hr, rfl⟩

/-- A NOTIFY of a client's own. -/
theorem leadsTo_notify (T : Tables A) (text : Json String → String) (channel payload : String) : ∃ es,
    listen J (sends I text (T, .notify channel payload)) = some es ∧
      LeadsTo (T, .notify channel payload) es := by
  obtain ⟨es, hes, hlen, halarm⟩ := callback_parserNotifyText J channel payload
  exact ⟨es, by simp [sends, listen, hes], hlen, halarm⟩

/-- **What the server does about what is committed.**  Whatever any client commits, the listener takes
all notifications, without an exception or an alarm; each transaction in turn leads to SUCCESS on the
requests of the rows of `sensor_config` it has inserted or updated, and to nothing else. -/
theorem events_dispatch {text : Json String → String} (T : Tables A) (cs : List (Commit A))
    (hreadable : ∀ c ∈ met T cs, Readable J I text c) : ∃ effects : List (List Effect),
      listen J (sent I text T cs) = some effects.flatten ∧
        List.Forall₂ LeadsTo (met T cs) effects := by
  suffices hall : ∀ ms : List (Tables A × Commit A), (∀ c ∈ ms, Readable J I text c) →
      ∃ effects : List (List Effect), listen J (ms.flatMap (sends I text)) = some effects.flatten ∧
        List.Forall₂ LeadsTo ms effects from hall _ hreadable
  intro ms hms
  induction ms with
  | nil => exact ⟨[], rfl, .nil⟩
  | cons m ms ih =>
    obtain ⟨hm, hms⟩ := List.forall_mem_cons.mp hms
    obtain ⟨effects, hlisten, hforall⟩ := ih hms
    obtain ⟨es, hes, hleads⟩ : ∃ es, listen J (sends I text m) = some es ∧ LeadsTo m es := by
      obtain ⟨T, c⟩ := m
      cases c with
      | transaction stmts => exact leadsTo_transaction hm
      | notify channel payload => exact leadsTo_notify T text channel payload
    exact ⟨es :: effects, listen_append hes hlisten, .cons hleads hforall⟩

/-! ## An update, and a text that is no JSON -/

/-- Sensor 3 before it is moved. -/
def beforeMove : Tables Addr
  | .config => [⟨3, "sensor-3", .one, some true, 3, some 4⟩]
  | .certs | .pending | .errors | .state => []

/-- The UPDATE that moves it. -/
def moveIt : Statement Addr :=
  .update .config (fun _ => true) fun _ => (⟨3, "sensor-3", .two, some true, 3, some 5⟩ : ConfigRow Addr)

/-- The client that moves the sensor, and one that sends what it likes. -/
theorem events_dispatch_moved : ∃ effects : List (List Effect),
    listen movedCodec (sent addrInet (fun _ => changedText) beforeMove
      [.transaction [moveIt], .notify "config_events" "moved"]) = some effects.flatten ∧
    List.Forall₂ LeadsTo (met beforeMove [.transaction [moveIt], .notify "config_events" "moved"])
      effects := by
  refine events_dispatch beforeMove _ fun c hc => ?_
  rcases List.mem_cons.mp hc with rfl | hc
  · intro d hd
    have hchange : d = .update ⟨3, "sensor-3", .one, some true, 3, some 4⟩
        ⟨3, "sensor-3", .two, some true, 3, some 5⟩ := by
      simpa [changesOf, Statement.changes, moveIt, beforeMove] using hd
    subst hchange
    have hparse : movedCodec.parse changedText = some (.object changedMembers) := by
      simp only [movedCodec]
      rw [if_neg (by decide), if_neg (by decide), if_neg (by decide), if_pos trivial]
    refine ⟨by decide +kernel, _, changedMembers, rfl, hparse, ?_⟩
    exact .cons _ (((List.Perm.swap _ _ _).cons _).trans (List.Perm.swap _ _ _))
  · rw [List.mem_singleton.mp hc]
    trivial

end ManagementSensors.DbEvents
