import ManagementSensors.Http.QuantumSafeHttp
import ManagementSensors.Jwt.RoundTrip

/-!
# Http/Gate — no API handler without a token of the request's own

`require_auth` lets a request pass where its own Authorization value is `Bearer ` and a token that
verifies at that moment, and for no other reason (`requireAuth_ok`, `requireAuth_error`).  Both
routers put it before every handler but the login, so that in a session of any length each request
is gated (`api_gated`).
-/

open Machinery

namespace ManagementSensors.QuantumSafeHttp

variable {κ A : Type} {h : Config A} {env : Env κ} {w : World κ A} {req : Request}

/-- **An authorised request**: its Authorization value is `Bearer ` and a token that verifies now. -/
def Authorised (h : Config A) (env : Env κ) (w : World κ A) (req : Request) : Prop :=
  ∃ m ∈ h.jwt, ∃ token claims, req.find .authorization = some (bearerPrefix ++ token) ∧
    m.verify w.signed token env.now = some claims

/-- The calls behind the gate: `config_ip` with all it calls, and the connection details. -/
def Effect.Protected : Effect → Prop
  | .connectionDetails | .configIp | .generatedRequestId | .addedPendingConfig _ _
  | .waitedForResponse _ => True
  | _ => False

/-- **One request is gated.** -/
structure Gated (h : Config A) (e : Event κ A) : Prop where
  /-- What is protected is reached by an authorised API request alone. -/
  reached : (∃ f ∈ e.reply.effects, f.Protected) → isApi e.req ∧ Authorised h e.env e.before e.req
  /-- Any other API request but a login is refused, and changes nothing. -/
  refused : isApi e.req → ¬ (e.req.target = "/api/auth/login" ∧ e.req.method = .post) →
    ¬ Authorised h e.env e.before e.req →
      (∃ resp, e.reply.response = some resp ∧ resp.status = .unauthorized) ∧ e.reply.world = e.before
  /-- A login reaches nothing that is protected; what it changes is what has been signed. -/
  login : e.req.target = "/api/auth/login" → e.req.method = .post →
    e.reply.world.db = e.before.db ∧ e.reply.world.dispatcher = e.before.dispatcher
  /-- The files are served by opening them, and nothing else. -/
  files : ¬ isApi e.req →
    (∀ f ∈ e.reply.effects, ∃ path, f = .opened path) ∧ e.reply.world = e.before

/-! ## The gate -/

/-- The empty string does not verify. -/
theorem Manager.verify_empty (m : Manager) (signed : List (JwtManager.Bytes × JwtManager.Bytes))
    (now : UInt64) : m.verify signed "" now = none := rfl

/-- A value that starts with `Bearer ` is `Bearer ` and what follows. -/
theorem bearer_split {value : String}
    (htake : value.toList.take bearerPrefix.toList.length = bearerPrefix.toList) :
    value = bearerPrefix ++ String.ofList (value.toList.drop bearerPrefix.toList.length) := by
  refine String.toList_injective ?_
  rw [String.toList_append, String.toList_ofList]
  calc value.toList = value.toList.take bearerPrefix.toList.length ++
        value.toList.drop bearerPrefix.toList.length := (List.take_append_drop _ _).symm
    _ = bearerPrefix.toList ++ value.toList.drop bearerPrefix.toList.length := by rw [htake]

/-- What follows `Bearer `. -/
theorem bearer_drop (token : String) : String.ofList
    ((bearerPrefix ++ token).toList.drop bearerPrefix.toList.length) = token := by
  rw [String.toList_append, List.drop_left, String.ofList_toList]

/-- **What `require_auth` does**: it passes an authorised request, having verified its token, and
refuses any other. -/
theorem requireAuth_cases (h : Config A) (env : Env κ) (w : World κ A) (req : Request) :
    (∃ token claims, Authorised h env w req ∧
      requireAuth h env w req = (.ok claims, [.verified token (some claims)])) ∨
    ∃ why effects, ¬ Authorised h env w req ∧ requireAuth h env w req = (.error why, effects) ∧
      ∀ f ∈ effects, ∃ token, f = .verified token none := by
  unfold requireAuth
  split
  case h_1 hjwt =>
    refine Or.inr ⟨_, _, ?_, rfl, nofun⟩
    rintro ⟨m, hm, -⟩
    rw [hjwt] at hm
    cases hm
  case h_2 m hjwt =>
    split
    case h_1 hfind =>
      refine Or.inr ⟨_, _, ?_, rfl, nofun⟩
      rintro ⟨-, -, token, claims, hvalue, -⟩
      rw [hfind] at hvalue
      cases hvalue
    case h_2 value hfind =>
      split
      case isTrue hbearer =>
        refine Or.inr ⟨_, _, ?_, rfl, nofun⟩
        rintro ⟨m', -, token, claims, hvalue, hverify⟩
        obtain rfl := Option.some.inj (hfind.symm.trans hvalue)
        rw [String.toList_append] at hbearer
        rcases hbearer with hlen | htake
        · -- the token would be empty
          have hnil : token.toList = [] := by
            rw [List.length_append] at hlen
            exact List.length_eq_zero_iff.mp (by omega)
          obtain rfl : token = "" := String.toList_injective hnil
          rw [Manager.verify_empty] at hverify
          cases hverify
        · exact htake List.take_left
      case isFalse hbearer =>
        rw [not_or, not_ne_iff] at hbearer
        have hsplit := bearer_split hbearer.2
        dsimp only
        split
        case h_1 hverify =>
          refine Or.inr ⟨_, _, ?_, rfl, fun f hf => ⟨_, List.mem_singleton.mp hf⟩⟩
          rintro ⟨m', hm', token, claims, hvalue, hverify'⟩
          obtain rfl := Option.some.inj (hjwt.symm.trans hm')
          obtain rfl := Option.some.inj (hfind.symm.trans hvalue)
          rw [bearer_drop, hverify'] at hverify
          cases hverify
        case h_2 claims hverify =>
          exact Or.inl ⟨_, claims, ⟨m, hjwt, _, claims, by rw [hfind, ← hsplit], hverify⟩, rfl⟩

/-! ## The routers -/

/-- A login makes no call that is protected. -/
theorem handleLogin_eq (h : Config A) (env : Env κ) (w : World κ A) (req : Request) :
    (∀ f ∈ (handleLogin h env w req).effects, ¬ f.Protected) ∧
    (handleLogin h env w req).world.db = w.db ∧
    (handleLogin h env w req).world.dispatcher = w.dispatcher := by
  unfold handleLogin
  split
  case h_1 => exact ⟨nofun, rfl, rfl⟩
  case h_2 m hjwt =>
    split
    case h_1 => exact ⟨nofun, rfl, rfl⟩
    case h_2 username password hread =>
      split
      case isTrue => exact ⟨nofun, rfl, rfl⟩
      case isFalse =>
        have hissued : ∀ f ∈ [Effect.issued username "admin"], ¬ f.Protected := fun f hf => by
          obtain rfl := List.mem_singleton.mp hf
          exact id
        split <;> exact ⟨hissued, rfl, rfl⟩

/-- The files are served by opening them. -/
theorem handleRequest_eq (h : Config A) (env : Env κ) (w : World κ A) (req : Request) :
    (∀ f ∈ (handleRequest h env w req).effects, ∃ path, f = .opened path) ∧
    (handleRequest h env w req).world = w := by
  unfold handleRequest
  split
  case isTrue => exact ⟨nofun, rfl⟩
  case isFalse =>
    split
    case isTrue => exact ⟨nofun, rfl⟩
    case isFalse =>
      dsimp only
      split <;> exact ⟨fun f hf => ⟨_, List.mem_singleton.mp hf⟩, rfl⟩

/-- **An API request that is not authorised**, and is not a login, is refused. -/
theorem handleApiRequest_refused (hlogin : ¬ (req.target = "/api/auth/login" ∧ req.method = .post))
    (hauth : ¬ Authorised h env w req) :
    ∃ why effects, handleApiRequest h env w req = ⟨effects, w, some (unauthorized req why)⟩ ∧
      ∀ f ∈ effects, ¬ f.Protected := by
  rcases requireAuth_cases h env w req with
    ⟨_, _, hauth', -⟩ | ⟨why, effects, -, hreq, heff⟩
  · exact absurd hauth' hauth
  · refine ⟨why, effects, by rw [handleApiRequest, if_neg hlogin, hreq], fun f hf => ?_⟩
    obtain ⟨token, rfl⟩ := heff f hf
    exact id

/-- **An authorised request for the connection details** gets what the provider says at that moment. -/
theorem handle_details (hauth : Authorised h env w req)
    (htarget : req.target = "/api/connection_details") (hmethod : req.method = .get)
    (hprovider : h.connectionDetailsProvider = true) :
    ∃ token claims, handle h env w req = ⟨[.verified token (some claims), .connectionDetails], w,
      some (successText req env.connectionDetails "application/json")⟩ := by
  rcases requireAuth_cases h env w req with ⟨token, claims, -, hpass⟩ | ⟨_, _, hno, -, -⟩
  · have hapi : isApi req := by
      rw [isApi, htarget]
      decide
    have hlogin : ¬ (req.target = "/api/auth/login" ∧ req.method = .post) := by
      rw [htarget]
      exact fun h => absurd h.1 (by decide)
    refine ⟨token, claims, ?_⟩
    rw [handle, if_pos hapi, handleApiRequest, if_neg hlogin, hpass]
    dsimp only
    rw [if_pos ⟨htarget, hmethod⟩, hprovider]
    rfl
  · exact absurd hauth hno

/-- **Every request is gated**, whatever the world it meets. -/
theorem gated_handle (h : Config A) (env : Env κ) (w : World κ A) (req : Request) :
    Gated h ⟨req, env, w, handle h env w req⟩ := by
  by_cases hapi : isApi req
  · have hhandle : handle h env w req = handleApiRequest h env w req := if_pos hapi
    rw [hhandle]
    by_cases hlogin : req.target = "/api/auth/login" ∧ req.method = .post
    · have hreply : handleApiRequest h env w req = handleLogin h env w req := if_pos hlogin
      obtain ⟨heff, hdb, hdisp⟩ := handleLogin_eq h env w req
      rw [hreply]
      exact ⟨fun ⟨f, hf, hp⟩ => absurd hp (heff f hf), fun _ hno => absurd hlogin hno,
        fun _ _ => ⟨hdb, hdisp⟩, fun hno => absurd hapi hno⟩
    · by_cases hauth : Authorised h env w req
      · exact ⟨fun _ => ⟨hapi, hauth⟩, fun _ _ hno => absurd hauth hno,
          fun ht hm => absurd ⟨ht, hm⟩ hlogin, fun hno => absurd hapi hno⟩
      · obtain ⟨why, effects, hreply, heff⟩ := handleApiRequest_refused hlogin hauth
        rw [hreply]
        exact ⟨fun ⟨f, hf, hp⟩ => absurd hp (heff f hf), fun _ _ _ => ⟨⟨_, rfl, rfl⟩, rfl⟩,
          fun ht hm => absurd ⟨ht, hm⟩ hlogin, fun hno => absurd hapi hno⟩
  · have hhandle : handle h env w req = handleRequest h env w req := if_neg hapi
    obtain ⟨heff, hworld⟩ := handleRequest_eq h env w req
    rw [hhandle]
    refine ⟨fun ⟨f, hf, hp⟩ => ?_, fun hyes => absurd hyes hapi, fun _ _ => ?_,
      fun _ => ⟨heff, hworld⟩⟩
    · obtain ⟨path, rfl⟩ := heff f hf
      exact hp.elim
    · exact ⟨congrArg World.db hworld, congrArg World.dispatcher hworld⟩

/-! ## The session -/

/-- **The API gate.**  In every session, of any length, from any world, under every configuration,
every request is gated, and what it comes to is a matter of that request and of the world it
meets. -/
theorem api_gated {s₀ s : Session κ A} {τ : List (Event κ A)}
    (hrun : (machine κ h).Run Guard.free s₀ τ s) :
    Always (fun _ e => Gated h e ∧ e.reply = handle h e.env e.before e.req) τ := by
  refine hrun.always (I := fun _ _ => True) trivial (fun _ _ _ _ _ _ _ _ => trivial) ?_
  intro τ s i t e _ _ hstep
  cases i with
  | request req env =>
    simp only [machine] at hstep
    split at hstep
    case isTrue =>
      cases hstep
      exact ⟨gated_handle h env s.world req, rfl⟩
    case isFalse => cases hstep
  | elsewhere | fails => cases hstep

/-- A server with a JWT manager that knows one token. -/
def oneToken : Config Addr where
  connectionDetailsProvider := true
  documentRoot := "/srv"
  dispatcher := true
  db := true
  jwt := some ⟨JwtManager.adminCodec, Base64.decode, JwtManager.ledger⟩
  json := ⟨fun _ => "", fun _ => none, nofun⟩
  inet := addrInet

/-- The world in which that token has been issued. -/
def issuedOne : World Unit Addr where
  db := oneSensor
  dispatcher := {}
  signed := [(JwtManager.signingInput JwtManager.adminCodec (JwtManager.ascii "admin")
    (JwtManager.ascii "operator") 3600 1700000000, [1, 2, 3])]

/-- The token, as a header holds it. -/
def bearerToken : String := String.ofList (JwtManager.adminToken.map fun b => Char.ofNat b.toNat)

/-- A request for the connection details. -/
def detailsRequest (fields : List (Field × String)) : Request :=
  ⟨.get, "/api/connection_details", fields, true, ""⟩

/-- An hour in which nothing else happens. -/
def quietEnv : Env Unit where
  now := 1700000100
  signature := none
  calls := ⟨.up, .up, fun _ d => (.timeout, d)⟩
  connectionDetails := "[]"
  files _ := .noSuchFile
  what := ""

/-- The token authorises a request, minutes after it has been issued. -/
theorem authorised_bearerToken (hjwt : h.jwt = oneToken.jwt) (hnow : env.now = quietEnv.now)
    (hsigned : w.signed = issuedOne.signed)
    (hfind : req.find .authorization = some (bearerPrefix ++ bearerToken)) :
    Authorised h env w req := by
  refine ⟨_, hjwt, bearerToken, ⟨JwtManager.ascii "admin", JwtManager.ascii "operator", 1700000000,
    1700003600⟩, hfind, ?_⟩
  rw [Manager.verify, bearerToken, JwtManager.ascii_bytes, hnow, hsigned]
  exact JwtManager.verify_generate Base64.decode_encode JwtManager.parse_jwtHeader
    (by decide +kernel) (by decide +kernel) (by decide)

/-- The same request with the token, and then without. -/
theorem api_gated_twice : ∃ τ s, (machine Unit oneToken).Run Guard.free ⟨issuedOne, true⟩ τ s ∧
    Always (fun _ e => Gated oneToken e ∧ e.reply = handle oneToken e.env e.before e.req) τ ∧
    τ.map (fun e => (e.reply.response.map Response.status, e.reply.effects.contains .connectionDetails)) =
      [(some .ok, true), (some .unauthorized, false)] := by
  let withToken := detailsRequest [(.authorization, bearerPrefix ++ bearerToken)]
  have hauth : Authorised oneToken quietEnv issuedOne withToken :=
    authorised_bearerToken rfl rfl rfl List.lookup_cons_self
  obtain ⟨token, claims, hfirst⟩ := handle_details hauth rfl rfl rfl
  have hsecond : handle oneToken quietEnv issuedOne (detailsRequest []) = ⟨[], issuedOne,
      some (unauthorized (detailsRequest []) "Missing Authorization header")⟩ := by
    rw [handle, if_pos (by decide), handleApiRequest, if_neg (by decide)]
    rfl
  have hrun₁ : (machine Unit oneToken).Run Guard.free ⟨issuedOne, true⟩
      [⟨withToken, quietEnv, issuedOne, handle oneToken quietEnv issuedOne withToken⟩]
      ⟨(handle oneToken quietEnv issuedOne withToken).world,
        (handle oneToken quietEnv issuedOne withToken).response.any Response.keepAlive⟩ :=
    Machine.Run.nil.concat (i := .request withToken quietEnv) trivial rfl
  rw [hfirst] at hrun₁
  have hrun₂ := hrun₁.concat (i := .request (detailsRequest []) quietEnv)
    (e := ⟨detailsRequest [], quietEnv, issuedOne, handle oneToken quietEnv issuedOne
      (detailsRequest [])⟩) trivial rfl
  refine ⟨_, _, hrun₂, api_gated hrun₂, ?_⟩
  rw [hsecond]
  rfl

end ManagementSensors.QuantumSafeHttp
