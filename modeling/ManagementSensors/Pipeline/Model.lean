import ManagementSensors.Machinery.Queue
import ManagementSensors.Mqtt.Handlers
import ManagementSensors.Server.Handler

/-!
# Pipeline/Model — servers, database, controller, broker and sensors, in any interleaving

A request travels: a server's handler commits a pending row; its NOTIFY reaches the controller if it
listens at that moment; the controller publishes it to `config/requested`; every sensor that is
subscribed echoes it to `config/events`; the broker keeps it in the persistent session of the
controller; the controller's loop upserts it; the NOTIFY of the upsert reaches every server that
listens.

Every leg is a queue, and may deliver in any order and more than once (`pick`).  A process may stop
at any moment, and what it holds is lost; so are the messages a client has published and the broker
has not received when the client disconnects.  No component has a step that reads
`sensor_config_pending` again.
-/

open Machinery Function

namespace ManagementSensors

/-! ## The processes -/

/-- A server process, from `connect` on: it reads the largest identifier, sets the sequence, listens,
and serves.  Its inbox holds the notifications of `config_events`, where it does listen. -/
inductive Process (κ : Type)
  | starting
  | seeding (maxId : ℤ)
  | seeded
  | serving (srv : Server κ) (inbox : Option (List Message))

/-- The main thread of the controller: before `connect` has returned, in its loop, with the messages
it has not consumed, and after an exception has ended the loop. -/
inductive MainThread
  | connecting
  | consuming (received : List Message)
  | joining

/-- The controller process: the notifications of `config_requested` its listener has not handled,
where it does listen, its MQTT client, with the messages that are published and the broker has not
received, and its main thread. -/
structure Controller where
  inbox : Option (List Message)
  connected : Bool := false
  outbox : List Message := []
  main : MainThread := .connecting

/-- A sensor that is subscribed: what it has not consumed, and what it has published and the broker
has not received. -/
structure Sensor where
  inbox : List Message := []
  outbox : List Message := []

/-- The system.  `session` is the controller's persistent session at the broker. -/
structure Pipeline (π κ ι A : Type) where
  db : Db A
  servers : π → Option (Process κ) := fun _ => none
  controller : Option Controller := none
  session : Option (List Message) := none
  sensors : ι → Option Sensor := fun _ => none

/-- A notification on a channel the server listens to. -/
def Process.notify {κ : Type} (msg : Message) : Process κ → Process κ
  | .serving srv inbox => .serving srv (inbox.map (· ++ [msg]))
  | p => p

/-- A notification on a channel the controller listens to. -/
def Controller.notify (msg : Message) (k : Controller) : Controller :=
  { k with inbox := k.inbox.map (· ++ [msg]) }

/-- The messages the loop has not consumed. -/
def Controller.received (k : Controller) : List Message :=
  match k.main with
  | .consuming q => q
  | _ => []

/-- A message delivered to the controller's client: it is for the loop, while that is running. -/
def Controller.receive (msg : Message) (k : Controller) : Controller :=
  match k.main with
  | .consuming q => { k with main := .consuming (q ++ [msg]) }
  | _ => k

/-- A message delivered to a sensor. -/
def Sensor.receive (msg : Message) (x : Sensor) : Sensor := { x with inbox := x.inbox ++ [msg] }

namespace Pipeline

variable {π κ ι A : Type} [DecidableEq π] [DecidableEq κ] [DecidableEq ι]

/-- What an observer sees of the system. -/
inductive Event (π A : Type)
  | seeded (v : ℤ)
  | generated (p : π) (r : RequestId)
  | requested (row : PendingRow A)
  | upserted (row : ConfigRow A)
  | answered (p : π) (q : ConfigRequest) (r : RequestId) (st : ResponseStatus)
  deriving DecidableEq, Repr

/-- One step of one process, or of the broker. -/
inductive Input (π κ ι : Type)
  | startServer (p : π)
  | readMaximum (p : π)
  | setSequence (p : π)
  | listen (p : π) (ok : Bool)
  | listenerEnds (p : π)
  | stopServer (p : π)
  | request (p : π) (c : κ) (q : ConfigRequest)
  | generate (p : π) (c : κ) (link : Link)
  | add (p : π) (c : κ) (link : Link)
  | lock (p : π) (c : κ)
  | expire (p : π) (c : κ)
  | wake (p : π) (c : κ)
  | notified (p : π) (n : ℕ) (again : Bool)
  | startController (listening : Bool)
  | connectController
  | disconnectController
  | controllerListenerEnds
  | loopEnds
  | stopController
  | forward (n : ℕ) (again : Bool) (published : Bool)
  | consume (n : ℕ) (link : Link)
  | brokerRequested (n : ℕ) (again : Bool)
  | brokerEvents (k : ι) (n : ℕ) (again : Bool)
  | brokerDelivers (n : ℕ) (again : Bool)
  | startSensor (k : ι)
  | stopSensor (k : ι)
  | echo (k : ι) (n : ℕ) (again : Bool) (published : Bool)
  deriving DecidableEq, Repr

/-- The phase of a handler of a server that serves. -/
def handler (s : Pipeline π κ ι A) (p : π) (c : κ) : Option Phase :=
  match s.servers p with
  | some (.serving srv _) => srv.handlers c
  | _ => none

/-- A process in another state. -/
def setServer (s : Pipeline π κ ι A) (p : π) (proc : Option (Process κ)) : Pipeline π κ ι A :=
  { s with servers := update s.servers p proc }

/-- A step of the server `p`. -/
def serve (s : Pipeline π κ ι A) (p : π) (i : Server.Input κ) :
    Option (Pipeline π κ ι A × Option (Server.Event κ)) :=
  match s.servers p with
  | some (.serving srv inbox) =>
    (srv.step i).map fun x => (s.setServer p (some (.serving x.1 inbox)), x.2)
  | _ => none

/-- What is seen of a call that returns: the answer to the request its handler serves. -/
def answer (s : Pipeline π κ ι A) (p : π) : Option (Server.Event κ) → Option (Event π A)
  | some (.dispatcher (.returned c r st)) =>
    (s.handler p c).map fun ph => .answered p ph.request r st
  | _ => none

/-- The NOTIFY of a commit to `sensor_config_pending`. -/
def notifyRequest (I : InetType A) (s : Pipeline π κ ι A) (row : PendingRow A) : Pipeline π κ ι A :=
  { s with controller := s.controller.map (·.notify (requestMessage I "config_requested" row)) }

/-- The NOTIFY of a commit to `sensor_config`. -/
def notifyChange (I : InetType A) (s : Pipeline π κ ι A) (op : String) (row : ConfigRow A) :
    Pipeline π κ ι A :=
  { s with
    servers := fun p => (s.servers p).map
      (Process.notify (parserNotify "config_events" (notifyConfigChange I op row))) }

/-- Whether the upsert of a sensor's row is an INSERT or an UPDATE. -/
def triggerOp (db : Db A) (sensorId : SensorId) : String :=
  if (db.configOf sensorId).isSome then "UPDATE" else "INSERT"

/-! ## Steps of a server process -/

/-- `init_request_id_sequence`, from its snapshot on: `setval`, or the process ends. -/
def setSequence (s : Pipeline π κ ι A) (p : π) : Option (Pipeline π κ ι A × Option (Event π A)) :=
  match s.servers p with
  | some (.seeding v) =>
    match s.db.setval v with
    | some db => some ({ s with db := db }.setServer p (some .seeded), some (.seeded v))
    | none => some (s.setServer p none, none)
  | _ => none

/-- `generate_request_id`, called by handler `c`. -/
def generate (s : Pipeline π κ ι A) (p : π) (c : κ) (link : Link) :
    Option (Pipeline π κ ι A × Option (Event π A)) :=
  let o := generateRequestId link s.db
  (s.serve p (.generated c o.result)).map fun x =>
    ({ x.1 with db := o.db }, match o.result with
      | .ok r => some (.generated p r)
      | .error _ => none)

/-- `add_pending_config`, called by handler `c`. -/
def add (I : InetType A) (s : Pipeline π κ ι A) (p : π) (c : κ) (link : Link) :
    Option (Pipeline π κ ι A × Option (Event π A)) :=
  match s.handler p c with
  | some (.adding q r) =>
    let o := addPendingConfig I link q.sensorId (sensorHostname q.sensorId) q.ip true r s.db
    (s.serve p (.added c o.result o.written.isSome)).map fun x =>
      let s' := { x.1 with db := o.db }
      match o.written with
      | some row => (s'.notifyRequest I row, some (.requested row))
      | none => (s', none)
  | _ => none

/-- The listener of server `p` handles a notification; an exception ends it. -/
def notified (s : Pipeline π κ ι A) (p : π) (n : ℕ) (again : Bool) :
    Option (Pipeline π κ ι A × Option (Event π A)) := do
  match s.servers p with
  | some (.serving srv (some inbox)) =>
    let (m, inbox') ← pick inbox n again
    let x ← srv.step (.notified m)
    return (s.setServer p (some (.serving x.1
      (if (onDbConfigEventReceived m).isSome then some inbox' else none))), none)
  | _ => none

/-! ## Steps of the controller -/

/-- `on_db_event_received`; an exception of `publish` is caught, one outside the `try` ends the
listener. -/
def forward (s : Pipeline π κ ι A) (n : ℕ) (again published : Bool) :
    Option (Pipeline π κ ι A × Option (Event π A)) := do
  let k ← s.controller
  let inbox ← k.inbox
  let (m, inbox') ← pick inbox n again
  match onDbEventReceived k.connected m with
  | none => return ({ s with controller := some { k with inbox := none } }, none)
  | some m' => return ({ s with controller := some { k with
      inbox := some inbox'
      outbox := k.outbox ++ if published then m'.toList else [] } }, none)

/-- One round of the controller's loop; an exception ends it. -/
def consume (I : InetType A) (s : Pipeline π κ ι A) (n : ℕ) (link : Link) :
    Option (Pipeline π κ ι A × Option (Event π A)) := do
  let k ← s.controller
  let (m, received') ← pick k.received n false
  match readConfigEvent m with
  | none => return ({ s with controller := some { k with main := .joining } }, none)
  | some none => return ({ s with controller := some { k with main := .consuming received' } }, none)
  | some (some e) =>
    let o := upsertSensorConfig I link e.sensorId e.hostname e.ip e.isActive e.requestId s.db
    let s' := { s with
      db := o.db
      controller := some { k with main := match o.result with
        | .ok () => .consuming received'
        | .error _ => .joining } }
    match o.written with
    | some row => return (s'.notifyChange I (triggerOp s.db row.sensorId) row, some (.upserted row))
    | none => return (s', none)

/-! ## Steps of the broker and of the sensors -/

/-- A message of the controller reaches the broker, and every sensor that is subscribed. -/
def brokerRequested (s : Pipeline π κ ι A) (n : ℕ) (again : Bool) :
    Option (Pipeline π κ ι A × Option (Event π A)) := do
  let k ← s.controller
  let (m, outbox') ← pick k.outbox n again
  return ({ s with
    controller := some { k with outbox := outbox' }
    sensors := fun i => (s.sensors i).map (·.receive m) }, none)

/-- A message of a sensor reaches the broker, and the session of the controller, if it has one. -/
def brokerEvents (s : Pipeline π κ ι A) (k : ι) (n : ℕ) (again : Bool) :
    Option (Pipeline π κ ι A × Option (Event π A)) := do
  let x ← s.sensors k
  let (m, outbox') ← pick x.outbox n again
  return ({ s with
    session := s.session.map (· ++ [m])
    sensors := update s.sensors k (some { x with outbox := outbox' }) }, none)

/-- The broker delivers a message of the session to the controller's client; nothing is done with it
where the loop has ended. -/
def brokerDelivers (s : Pipeline π κ ι A) (n : ℕ) (again : Bool) :
    Option (Pipeline π κ ι A × Option (Event π A)) := do
  let k ← s.controller
  let session ← s.session
  let (m, session') ← pick session n again
  if k.connected then
    return ({ s with
      session := some session'
      controller := some (k.receive m) }, none)
  else none

/-- A sensor consumes a message and echoes it; an exception of `publish` is caught. -/
def echo (s : Pipeline π κ ι A) (k : ι) (n : ℕ) (again published : Bool) :
    Option (Pipeline π κ ι A × Option (Event π A)) := do
  let x ← s.sensors k
  let (m, inbox') ← pick x.inbox n again
  return ({ s with
    sensors := update s.sensors k (some { x with
      inbox := inbox'
      outbox := x.outbox ++ if published then [ManagementSensors.echo m] else [] }) }, none)

/-! ## One step -/

/-- **One step of the system.** -/
def step (I : InetType A) (s : Pipeline π κ ι A) :
    Input π κ ι → Option (Pipeline π κ ι A × Option (Event π A))
  | .startServer p =>
    match s.servers p with
    | none => some (s.setServer p (some .starting), none)
    | some _ => none
  | .readMaximum p =>
    match s.servers p with
    | some .starting => some (s.setServer p (some (.seeding s.db.maxRequestId)), none)
    | _ => none
  | .setSequence p => s.setSequence p
  | .listen p ok =>
    match s.servers p with
    | some .seeded => some (s.setServer p (some (.serving {} (if ok then some [] else none))), none)
    | _ => none
  | .listenerEnds p =>
    match s.servers p with
    | some (.serving srv _) => some (s.setServer p (some (.serving srv none)), none)
    | _ => none
  | .stopServer p => some (s.setServer p none, none)
  | .request p c q => (s.serve p (.request c q)).map fun x => (x.1, none)
  | .generate p c link => s.generate p c link
  | .add p c link => s.add I p c link
  | .lock p c => (s.serve p (.lock c)).map fun x => (x.1, s.answer p x.2)
  | .expire p c => (s.serve p (.expire c)).map fun x => (x.1, s.answer p x.2)
  | .wake p c => (s.serve p (.wake c)).map fun x => (x.1, s.answer p x.2)
  | .notified p n again => s.notified p n again
  | .startController listening =>
    match s.controller with
    | none => some ({ s with
        controller := some { inbox := if listening then some [] else none } }, none)
    | some _ => none
  | .connectController => do
    let k ← s.controller
    match k.main with
    | .connecting => return ({ s with
        controller := some { k with connected := true, main := .consuming [] }
        session := some (s.session.getD []) }, none)
    | _ => none
  | .disconnectController => s.controller.map fun k =>
      ({ s with controller := some { k with connected := false, outbox := [] } }, none)
  | .controllerListenerEnds => s.controller.map fun k =>
      ({ s with controller := some { k with inbox := none } }, none)
  | .loopEnds => do
    let k ← s.controller
    match k.main with
    | .consuming _ => return ({ s with controller := some { k with main := .joining } }, none)
    | _ => none
  | .stopController => some ({ s with controller := none }, none)
  | .forward n again published => s.forward n again published
  | .consume n link => s.consume I n link
  | .brokerRequested n again => s.brokerRequested n again
  | .brokerEvents k n again => s.brokerEvents k n again
  | .brokerDelivers n again => s.brokerDelivers n again
  | .startSensor k =>
    match s.sensors k with
    | none => some ({ s with sensors := update s.sensors k (some {}) }, none)
    | some _ => none
  | .stopSensor k => some ({ s with sensors := update s.sensors k none }, none)
  | .echo k n again published => s.echo k n again published

/-- The system as a machine. -/
def machine (π κ ι : Type) [DecidableEq π] [DecidableEq κ] [DecidableEq ι] (I : InetType A) :
    Machine (Pipeline π κ ι A) (Input π κ ι) (Event π A) := ⟨step I⟩

/-! ## A system to run

Two servers, two sensors, and the database of sensor 3. -/

/-- Nothing runs yet. -/
def atRest : Pipeline Bool Unit Bool Addr := { db := oneSensor }

/-- Server `p` starts, and takes a request. -/
def serveRequest (p : Bool) (q : ConfigRequest) : List (Input Bool Unit Bool) :=
  [.startServer p, .readMaximum p, .setSequence p, .listen p true, .request p () q]

/-- The handler of server `p` is given an identifier, and commits its row. -/
def commitRequest (p : Bool) : List (Input Bool Unit Bool) := [.generate p () .up, .add p () .up]

/-- The controller and a sensor come up. -/
def comeUp : List (Input Bool Unit Bool) :=
  [.startController true, .connectController, .startSensor true]

/-- A notification goes to the sensor and back, and is upserted. -/
def roundTrip : List (Input Bool Unit Bool) :=
  [.forward 0 false true, .brokerRequested 0 false, .echo true 0 false true, .brokerEvents true 0 false,
    .brokerDelivers 0 false, .consume 0 .up]

end Pipeline

end ManagementSensors
