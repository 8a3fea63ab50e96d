import Mathlib.Data.List.Infix
import ManagementSensors.Jwt.JwtManager
import ManagementSensors.Server.ConfigIp

/-!
# Http/QuantumSafeHttp — the HTTP session, its two routers and the API handlers

A session reads one request after another; each is answered by `handle_api_request` or, where its
target does not start with `/api`, by `handle_request`, which serves files.  What a request does is
recorded in the order of the calls (`Effect`), with the world it leaves behind and the response, or
none where an exception ends the session.

What the rest of the system does meanwhile — the clock, the connection to the database, the
dispatches during a wait, the files — is an input (`Env`).  A `std::string` is a `String` with one
character a byte.
-/

open Machinery

namespace ManagementSensors

namespace QuantumSafeHttp

open JwtManager (Bytes JwtClaims ascii)

/-! ## Requests and responses -/

/-- The methods the handlers tell apart. -/
inductive Verb
  | get
  | head
  | post
  | other (name : String)
  deriving DecidableEq, Repr

/-- The field names the handlers look for. -/
inductive Field
  | authorization
  | other (name : String)
  deriving DecidableEq, Repr

/-- A request that has been read. -/
structure Request where
  method : Verb
  target : String
  fields : List (Field × String)
  keepAlive : Bool
  body : String
  deriving DecidableEq, Repr

/-- `find`: the value of the first field of a name. -/
def Request.find (req : Request) (f : Field) : Option String := req.fields.lookup f

/-- The status codes of the responses. -/
inductive Status
  | ok
  | badRequest
  | unauthorized
  | notFound
  | internalServerError
  | serviceUnavailable
  deriving DecidableEq, Repr

/-- The body of a response: a string, none for HEAD, or a file. -/
inductive Body
  | text (s : String)
  | empty (contentLength : ℕ)
  | file (path : String) (contentLength : ℕ)
  deriving DecidableEq, Repr

/-- A response. -/
structure Response where
  status : Status
  contentType : String
  wwwAuthenticate : Option String := none
  keepAlive : Bool
  body : Body
  deriving DecidableEq, Repr

/-- `bad_request`. -/
def badRequest (req : Request) (why : String) : Response :=
  ⟨.badRequest, "text/plain", none, req.keepAlive, .text why⟩

/-- `unauthorized`. -/
def unauthorized (req : Request) (why : String) : Response :=
  ⟨.unauthorized, "application/json", some "Bearer", req.keepAlive, .text why⟩

/-- `not_found`. -/
def notFound (req : Request) : Response :=
  ⟨.notFound, "text/plain", none, req.keepAlive, .text req.target⟩

/-- `server_error`. -/
def serverError (req : Request) (what : String) : Response :=
  ⟨.internalServerError, "text/plain", none, req.keepAlive, .text ("An error occurred: " ++ what)⟩

/-- `success_text`. -/
def successText (req : Request) (body contentType : String) : Response :=
  ⟨.ok, contentType, none, req.keepAlive, .text body⟩

/-! ## The server around a session -/

/-- The JWT manager of a server. -/
structure Manager where
  codec : JwtManager.Codec
  base64Decode : Bytes → Option Bytes
  scheme : JwtManager.Scheme

/-- `jwt_->verify(token)`, at time `now`, where `signed` has been signed so far. -/
def Manager.verify (m : Manager) (signed : List (Bytes × Bytes)) (token : String) (now : UInt64) :
    Option JwtClaims :=
  JwtManager.verify m.codec m.base64Decode (m.scheme.verifyMessage signed) (ascii token) now

/-- How a server is configured: what its pointers point to, its JSON library, its type of
addresses. -/
structure Config (A : Type) where
  connectionDetailsProvider : Bool
  documentRoot : String
  dispatcher : Bool
  db : Bool
  jwt : Option Manager
  json : Json.Codec String String
  inet : InetType A

/-- What a request can change. -/
structure World (κ A : Type) where
  db : Db A
  dispatcher : Dispatcher κ
  signed : List (Bytes × Bytes)

/-- What opening a file gives. -/
inductive FileResult
  | opened (size : ℕ)
  | noSuchFile
  | failed (message : String)

/-- What a request meets: the clock, the signer (which may throw), the calls of `config_ip`, the
connection details, the files, and the text of an exception. -/
structure Env (κ : Type) where
  now : UInt64
  signature : Option Bytes
  calls : CallEnv κ
  connectionDetails : String
  files : String → FileResult
  what : String

/-- A call a request makes. -/
inductive Effect
  | verified (token : String) (claims : Option JwtClaims)
  | issued (subject role : String)
  | opened (path : String)
  | connectionDetails
  | configIp
  | generatedRequestId
  | addedPendingConfig (q : ConfigRequest) (r : RequestId)
  | waitedForResponse (r : RequestId)
  deriving DecidableEq, Repr

/-- **What a request comes to**: the calls it has made, the world after them, and its response, if
no exception has left the handler. -/
structure Reply (κ A : Type) where
  effects : List Effect
  world : World κ A
  response : Option Response

/-! ## Files -/

/-- `mime_type`: by the last extension of the path. -/
def mimeType (path : String) : String :=
  let name := path.toList.reverse.takeWhile (· ≠ '.')
  let ext := if '.' ∈ path.toList then String.ofList ('.' :: name.reverse.map Char.toLower) else ""
  if ext ∈ [".htm", ".html"] then "text/html"
  else if ext = ".css" then "text/css"
  else if ext = ".txt" then "text/plain"
  else if ext = ".js" then "application/javascript"
  else if ext = ".json" then "application/json"
  else if ext = ".png" then "image/png"
  else if ext ∈ [".jpe", ".jpeg", ".jpg"] then "image/jpeg"
  else if ext = ".gif" then "image/gif"
  else if ext = ".ico" then "image/vnd.microsoft.icon"
  else if ext ∈ [".svg", ".svgz"] then "image/svg+xml"
  else "application/text"

/-- `path_cat`. -/
def pathCat (base path : String) : String :=
  if base = "" then path
  else if base.toList.getLast? = some '/' then String.ofList base.toList.dropLast ++ path
  else base ++ path

variable {κ A : Type}

/-- `handle_request`: GET and HEAD of a file under the document root. -/
def handleRequest (h : Config A) (env : Env κ) (w : World κ A) (req : Request) : Reply κ A :=
  if req.method ≠ .get ∧ req.method ≠ .head then
    ⟨[], w, some (badRequest req "Unknown HTTP-method")⟩
  else if req.target = "" ∨ req.target.toList.head? ≠ some '/' ∨
      ['.', '.'] <:+: req.target.toList then
    ⟨[], w, some (badRequest req "Illegal request-target")⟩
  else
    let path := pathCat h.documentRoot req.target ++
      if req.target.toList.getLast? = some '/' then "index.html" else ""
    match env.files path with
    | .noSuchFile => ⟨[.opened path], w, some (notFound req)⟩
    | .failed message => ⟨[.opened path], w, some (serverError req message)⟩
    | .opened size =>
      let body := if req.method = .head then .empty size else .file path size
      ⟨[.opened path], w, some ⟨.ok, mimeType path, none, req.keepAlive, body⟩⟩

/-! ## The API -/

/-- `"Bearer "`. -/
def bearerPrefix : String := "Bearer "

/-- `require_auth`: the error it leaves, or the claims, and whether it has verified a token. -/
def requireAuth (h : Config A) (env : Env κ) (w : World κ A) (req : Request) :
    Except String JwtClaims × List Effect :=
  match h.jwt with
  | none => (.error "JWT authentication not configured", [])
  | some m =>
    match req.find .authorization with
    | none => (.error "Missing Authorization header", [])
    | some value =>
      if value.toList.length ≤ bearerPrefix.toList.length ∨
          value.toList.take bearerPrefix.toList.length ≠ bearerPrefix.toList then
        (.error "Authorization header must use Bearer scheme", [])
      else
        let token := String.ofList (value.toList.drop bearerPrefix.toList.length)
        match m.verify w.signed token env.now with
        | none => (.error "Invalid or expired token", [.verified token none])
        | some claims => (.ok claims, [.verified token (some claims)])

/-- The two strings of a login, or the body of the error. -/
def readLogin (h : Config A) (body : String) : Except String (String × String) :=
  match (h.json.parse body).bind Json.asObject with
  | none => .error "\x7b\"status\":\"error\",\"message\":\"Invalid JSON body\"\x7d"
  | some obj =>
    if !Json.contains "username" obj || !Json.contains "password" obj then
      .error "\x7b\"status\":\"error\",\"message\":\"Missing username or password\"\x7d"
    else
      match (Json.member "username" obj).bind Json.asString,
        (Json.member "password" obj).bind Json.asString with
      | some username, some password => .ok (username, password)
      | _, _ => .error "\x7b\"status\":\"error\",\"message\":\"Invalid JSON body\"\x7d"

/-- `handle_login`. -/
def handleLogin (h : Config A) (env : Env κ) (w : World κ A) (req : Request) : Reply κ A :=
  match h.jwt with
  | none => ⟨[], w, some (serverError req "JWT authentication not configured")⟩
  | some m =>
    match readLogin h req.body with
    | .error why => ⟨[], w, some (badRequest req why)⟩
    | .ok (username, password) =>
      if username ≠ "admin" ∨ password ≠ "admin" then
        ⟨[], w, some (unauthorized req (h.json.serialize (.object [("status", .string "error"),
          ("message", .string "Invalid credentials")])))⟩
      else
        match env.signature with
        | none => ⟨[.issued username "admin"], w, none⟩
        | some signature =>
          let input := JwtManager.signingInput m.codec (ascii username) (ascii "admin") 3600 env.now
          let token := JwtManager.generate m.codec (ascii username) (ascii "admin") 3600 env.now signature
          ⟨[.issued username "admin"], { w with signed := w.signed ++ [(input, signature)] },
            some (successText req (h.json.serialize (.object [("status", .string "success"),
              ("token", .string (String.ofList (token.map fun b => Char.ofNat b.toNat))),
              ("expires_in", .int64 3600)])) "application/json")⟩

/-- The request in the body of `config_ip`, or the text of the error. -/
def readConfigIp (h : Config A) (env : Env κ) (body : String) : Except String ConfigRequest :=
  match (h.json.parse body).bind Json.asObject with
  | none => .error ("Invalid JSON body: " ++ env.what)
  | some obj =>
    if !Json.contains "sensor_id" obj then
      .error "\x7b\"status\":\"error\",\"message\":\"Missing required field: sensor_id\"\x7d"
    else if !Json.contains "ip" obj then
      .error "\x7b\"status\":\"error\",\"message\":\"Missing required field: ip\"\x7d"
    else
      match (Json.member "sensor_id" obj).bind Json.asInt64,
        (Json.member "ip" obj).bind Json.asString with
      | some sensorId, some ip => .ok ⟨sensorId.toInt32, cStr ip⟩
      | _, _ => .error ("Invalid JSON body: " ++ env.what)

/-- `status_to_string`. -/
def statusToString : ResponseStatus → String
  | .success => "SUCCESS"
  | .timeout => "Request Timed Out"
  | .dbError => "Database Failure"
  | .systemFull => "Maximum Pending Requests Reached"
  | .pending => "PENDING"

/-- The body of a database error. -/
def databaseError (h : Config A) (env : Env κ) (requestId : RequestId) : String :=
  h.json.serialize (.object [("status", .string "error"),
    ("message", .string ("Database error: " ++ env.what)), ("request_id", .int64 requestId.toInt64)])

/-- The response of `config_ip`, once the call has returned. -/
def configIpResponse (h : Config A) (req : Request) (sensorId : SensorId) (requestId : RequestId)
    (status : ResponseStatus) : Response :=
  if status = .success then
    successText req (h.json.serialize (.object [("status", .string "success"),
      ("sensor_id", .int64 sensorId.toInt64), ("request_id", .int64 requestId.toInt64),
      ("message", .string ("Sensor " ++ toString sensorId ++ " updated successfully"))]))
      "application/json"
  else
    ⟨.serviceUnavailable, "application/json", none, req.keepAlive,
      .text (h.json.serialize (.object [("status", .string "error"),
        ("sensor_id", .int64 sensorId.toInt64), ("request_id", .int64 requestId.toInt64),
        ("message", .string (statusToString status))]))⟩

/-- `config_ip`. -/
def configIp (h : Config A) (env : Env κ) (w : World κ A) (req : Request) : Reply κ A :=
  if !h.dispatcher || !h.db then
    ⟨[.configIp], w, some (serverError req "Dispatcher or database not configured")⟩
  else
    match readConfigIp h env req.body with
    | .error why => ⟨[.configIp], w, some (badRequest req why)⟩
    | .ok q =>
      let (result, db, dispatcher) := configIpCalls h.inet env.calls q w.db w.dispatcher
      let w' := { w with db := db, dispatcher := dispatcher }
      match result with
      | .notGenerated =>
        ⟨[.configIp, .generatedRequestId], w', some (serverError req (databaseError h env 0))⟩
      | .notAdded r =>
        ⟨[.configIp, .generatedRequestId, .addedPendingConfig q r], w',
          some (serverError req (databaseError h env r))⟩
      | .answered r status =>
        ⟨[.configIp, .generatedRequestId, .addedPendingConfig q r, .waitedForResponse r], w',
          some (configIpResponse h req q.sensorId r status)⟩

/-- `handle_api_request`. -/
def handleApiRequest (h : Config A) (env : Env κ) (w : World κ A) (req : Request) : Reply κ A :=
  if req.target = "/api/auth/login" ∧ req.method = .post then handleLogin h env w req
  else
    match requireAuth h env w req with
    | (.error why, effects) => ⟨effects, w, some (unauthorized req why)⟩
    | (.ok _, effects) =>
      if req.target = "/api/connection_details" ∧ req.method = .get then
        if !h.connectionDetailsProvider then
          ⟨effects, w, some (serverError req "Connection details provider is not configured")⟩
        else
          ⟨effects ++ [.connectionDetails], w,
            some (successText req env.connectionDetails "application/json")⟩
      else if req.target = "/api/config_ip" ∧ req.method = .post then
        let reply := configIp h env w req
        { reply with effects := effects ++ reply.effects }
      else ⟨effects, w, some (notFound req)⟩

/-! ## The session -/

/-- `req.target().starts_with("/api")`. -/
def isApi (req : Request) : Prop := "/api".toList <+: req.target.toList

instance (req : Request) : Decidable (isApi req) :=
  inferInstanceAs (Decidable ("/api".toList <+: req.target.toList))

/-- One round of `handle_session`, from the request to the response. -/
def handle (h : Config A) (env : Env κ) (w : World κ A) (req : Request) : Reply κ A :=
  if isApi req then handleApiRequest h env w req else handleRequest h env w req

/-- A session: the world it is in, and whether it goes on. -/
structure Session (κ A : Type) where
  world : World κ A
  live : Bool := true

/-- A request is read; the world changes by what others do; reading or writing fails. -/
inductive Input (κ A : Type)
  | request (req : Request) (env : Env κ)
  | elsewhere (w : World κ A)
  | fails

/-- What is seen of a request: the world and the inputs it meets, and what it comes to. -/
structure Event (κ A : Type) where
  req : Request
  env : Env κ
  before : World κ A
  reply : Reply κ A

/-- `handle_session`. -/
def machine (κ : Type) (h : Config A) : Machine (Session κ A) (Input κ A) (Event κ A) where
  step s
    | .request req env =>
      if s.live then
        let reply := handle h env s.world req
        some (⟨reply.world, reply.response.any Response.keepAlive⟩, some ⟨req, env, s.world, reply⟩)
      else none
    | .elsewhere w => some ({ s with world := w }, none)
    | .fails => some ({ s with live := false }, none)

end QuantumSafeHttp

end ManagementSensors
