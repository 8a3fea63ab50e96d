import ManagementSensors.Http.Gate

/-!
# Http/Login — what a login is good for

A login that is answered 200 was one of `admin` with the password `admin`, and the token in its body
opens the gate: presented in any session, over any run, it is refused from the moment it expires on
and not before (`login_opens_gate`).  Meanwhile other tokens may be signed, but nothing that has been
signed is forgotten (`Grows`).
-/

open Machinery

namespace ManagementSensors.QuantumSafeHttp

open JwtManager (Bytes ascii)

variable {κ A : Type} {h : Config A} {env : Env κ} {w : World κ A} {req : Request} {resp : Response}

/-! ## The login -/

/-- The one request of the API that needs no token. -/
def isLogin (req : Request) : Prop := req.target = "/api/auth/login" ∧ req.method = .post

/-- The token of the administrator. -/
def adminToken (m : Manager) (now : UInt64) (signature : Bytes) : Bytes :=
  JwtManager.generate m.codec (ascii "admin") (ascii "admin") 3600 now signature

/-- What is signed for it. -/
def adminInput (m : Manager) (now : UInt64) : Bytes :=
  JwtManager.signingInput m.codec (ascii "admin") (ascii "admin") 3600 now

/-- The body of the response to a login. -/
def loginBody (token : String) : Json String := .object [("status", .string "success"),
  ("token", .string token), ("expires_in", .int64 3600)]

/-- The token that a client reads in a response. -/
def tokenOf (h : Config A) (resp : Response) : Option String :=
  match resp.body with
  | .text body => ((h.json.parse body).bind Json.asObject).bind fun obj =>
      (Json.member "token" obj).bind Json.asString
  | _ => none

/-- **What a login comes to**: the token of the administrator, an exception of the signer, or an
error, which signs nothing. -/
inductive LoginCases (h : Config A) (env : Env κ) (w : World κ A) (req : Request) : Reply κ A → Prop
  | issued {m : Manager} {signature : Bytes} (hjwt : h.jwt = some m)
      (hread : readLogin h req.body = .ok ("admin", "admin")) :
      LoginCases h env w req ⟨[.issued "admin" "admin"],
        { w with signed := w.signed ++ [(adminInput m env.now, signature)] },
        some (successText req (h.json.serialize (loginBody
          (String.ofList ((adminToken m env.now signature).map fun b => Char.ofNat b.toNat))))
          "application/json")⟩
  | threw (hread : readLogin h req.body = .ok ("admin", "admin")) :
      LoginCases h env w req ⟨[.issued "admin" "admin"], w, none⟩
  | refused {resp : Response} (hresp : resp.status ≠ .ok) : LoginCases h env w req ⟨[], w, some resp⟩

theorem handleLogin_cases (h : Config A) (env : Env κ) (w : World κ A) (req : Request) :
    LoginCases h env w req (handleLogin h env w req) := by
  unfold handleLogin
  split
  case h_1 => exact .refused nofun
  case h_2 m hjwt =>
    split
    case h_1 => exact .refused nofun
    case h_2 username password hread =>
      split
      case isTrue => exact .refused nofun
      case isFalse hadmin =>
        rw [not_or, not_ne_iff, not_ne_iff] at hadmin
        obtain ⟨rfl, rfl⟩ := hadmin
        split
        case h_1 => exact .threw hread
        case h_2 => exact .issued hjwt hread

/-- The token in a body that is read is the token that was written. -/
theorem tokenOf_successText {token token' contentType : String}
    (htoken : tokenOf h (successText req (h.json.serialize (loginBody token)) contentType) =
      some token') : token' = token := by
  obtain ⟨obj, hobj, hmember⟩ := Option.bind_eq_some_iff.mp htoken
  obtain ⟨v, hv, hobj⟩ := Option.bind_eq_some_iff.mp hobj
  obtain rfl := h.json.parse_serialize _ _ hv
  simp only [loginBody, Json.normal, Json.normalMembers, Json.asObject, Option.some.injEq] at hobj
  subst hobj
  simpa [Json.asString, eq_comm] using hmember

/-! ## The gate, from both sides -/

/-- `config_ip` answers with what it has come to, never with 401, and signs nothing. -/
theorem configIp_eq (h : Config A) (env : Env κ) (w : World κ A) (req : Request) :
    (configIp h env w req).response.map Response.status ≠ some .unauthorized ∧
      (configIp h env w req).world.signed = w.signed := by
  unfold configIp
  split
  case isTrue => exact ⟨nofun, rfl⟩
  case isFalse =>
    split
    case h_1 => exact ⟨nofun, rfl⟩
    case h_2 =>
      dsimp only
      split
      case h_1 | h_2 => exact ⟨nofun, rfl⟩
      case h_3 =>
        rw [configIpResponse]
        split <;> exact ⟨nofun, rfl⟩

/-- Behind the gate nothing is refused for want of a token, and nothing is signed. -/
theorem handleApiRequest_authorised (hlogin : ¬ isLogin req) (hauth : Authorised h env w req) :
    (handleApiRequest h env w req).response.map Response.status ≠ some .unauthorized ∧
      (handleApiRequest h env w req).world.signed = w.signed := by
  rcases requireAuth_cases h env w req with ⟨_, _, -, hpass⟩ | ⟨_, _, hno, -, -⟩
  · unfold handleApiRequest
    rw [if_neg (show ¬ (_ ∧ _) from hlogin), hpass]
    dsimp only
    split
    case isTrue => split <;> exact ⟨nofun, rfl⟩
    case isFalse =>
      split
      case isTrue => exact configIp_eq h env w req
      case isFalse => exact ⟨nofun, rfl⟩
  · exact absurd hauth hno

/-- **401 is the answer to a request that is not authorised**, and to no other. -/
theorem handle_unauthorized_iff (hapi : isApi req) (hlogin : ¬ isLogin req) :
    (handle h env w req).response.map Response.status = some .unauthorized ↔
      ¬ Authorised h env w req := by
  rw [handle, if_pos hapi]
  refine ⟨fun hstatus hauth => (handleApiRequest_authorised hlogin hauth).1 hstatus, fun hno => ?_⟩
  obtain ⟨why, effects, hreply, -⟩ := handleApiRequest_refused hlogin hno
  rw [hreply]
  rfl

/-- What has been signed stays signed. -/
theorem signed_subset_handle (h : Config A) (env : Env κ) (w : World κ A) (req : Request) :
    w.signed ⊆ (handle h env w req).world.signed := by
  by_cases hapi : isApi req
  · rw [handle, if_pos hapi]
    by_cases hlogin : isLogin req
    · rw [handleApiRequest, if_pos (show _ ∧ _ from hlogin)]
      have hcases := handleLogin_cases h env w req
      generalize handleLogin h env w req = reply at hcases ⊢
      cases hcases with
      | issued => exact List.subset_append_left _ _
      | threw | refused => exact List.Subset.refl _
    · by_cases hauth : Authorised h env w req
      · rw [(handleApiRequest_authorised hlogin hauth).2]
        exact List.Subset.refl _
      · obtain ⟨_, _, hreply, -⟩ := handleApiRequest_refused hlogin hauth
        rw [hreply]
        exact List.Subset.refl _
  · rw [handle, if_neg hapi, (handleRequest_eq h env w req).2]
    exact List.Subset.refl _

/-! ## The token, over a run -/

/-- What others do meanwhile forgets no signature. -/
def Grows : Guard (Session κ A) (Input κ A) (Event κ A) := fun _ s i =>
  ∀ w, i = .elsewhere w → s.world.signed ⊆ w.signed

/-- A step keeps the signatures. -/
theorem signed_subset_step {s t : Session κ A} {τ : List (Event κ A)} {i : Input κ A}
    {o : Option (Event κ A)} (hgrows : Grows τ s i) (hstep : (machine κ h).step s i = some (t, o)) :
    s.world.signed ⊆ t.world.signed := by
  cases i with
  | request req env =>
    simp only [machine] at hstep
    split at hstep
    case isTrue =>
      cases hstep
      exact signed_subset_handle h env s.world req
    case isFalse => cases hstep
  | elsewhere w =>
    cases hstep
    exact hgrows w rfl
  | fails =>
    cases hstep
    exact List.Subset.refl _

/-- Every request of a run meets the signatures there were at its start. -/
theorem signed_subset_run {s₀ s : Session κ A} {τ : List (Event κ A)}
    (hrun : (machine κ h).Run Grows s₀ τ s) : Always (fun _ e =>
      s₀.world.signed ⊆ e.before.signed ∧ e.reply = handle h e.env e.before e.req) τ := by
  refine hrun.always (I := fun _ s => s₀.world.signed ⊆ s.world.signed) (List.Subset.refl _)
    (fun _ _ _ _ _ hI hgrows hstep => List.Subset.trans hI (signed_subset_step hgrows hstep)) ?_
  intro τ s i t e hI _ hstep
  cases i with
  | request req env =>
    simp only [machine] at hstep
    split at hstep
    case isTrue =>
      cases hstep
      exact ⟨hI, rfl⟩
    case isFalse => cases hstep
  | elsewhere | fails => cases hstep

/-- A token as a header holds it. -/
def bearer (token : Bytes) : String :=
  bearerPrefix ++ String.ofList (token.map fun b => Char.ofNat b.toNat)

theorem bearer_inj {token t : String} (ht : bearerPrefix ++ token = bearerPrefix ++ t) : t = token := by
  rw [← bearer_drop t, ← ht, bearer_drop]

/-- **The window of a token** that has been signed. -/
theorem authorised_iff {m : Manager} {signature : Bytes} {now : UInt64} (hjwt : h.jwt = some m)
    (hdecode : ∀ data, m.base64Decode (Base64.encode data) = some data)
    (hheader : m.codec.parse JwtManager.jwtHeader = some (.object JwtManager.jwtHeaderObject))
    (hjson : (m.codec.parse (m.codec.serialize
      (JwtManager.payload (ascii "admin") (ascii "admin") 3600 now))).isSome)
    (hverifies : m.scheme.verifyMessage w.signed (adminInput m now) signature = true)
    (hnow : now.toNat + 3600 < 2 ^ 63)
    (hfind : req.find .authorization = some (bearer (adminToken m now signature))) :
    Authorised h env w req ↔ env.now.toNat < now.toNat + 3600 := by
  have hexpiry : (now + 3600).toNat = now.toNat + 3600 := JwtManager.toNat_expiry hnow
  have hwindow : env.now < now + 3600 ↔ env.now.toNat < now.toNat + 3600 := by
    rw [UInt64.lt_iff_toNat_lt, hexpiry]
  have hverify : m.verify w.signed (String.ofList ((adminToken m now signature).map
      fun b => Char.ofNat b.toNat)) env.now =
        if env.now < now + 3600 then some ⟨ascii "admin", ascii "admin", now, now + 3600⟩ else none := by
    rw [Manager.verify, JwtManager.ascii_bytes]
    exact JwtManager.verify_generate hdecode hheader hjson hverifies hnow
  rw [← hwindow]
  constructor
  · rintro ⟨m', hm', token, claims, htoken, hclaims⟩
    obtain rfl := Option.some.inj (hjwt.symm.trans hm')
    obtain rfl := bearer_inj (Option.some.inj (hfind.symm.trans htoken))
    rw [hverify] at hclaims
    exact (Option.ite_none_right_eq_some.mp hclaims).1
  · intro hlt
    rw [if_pos hlt] at hverify
    exact ⟨m, hjwt, _, _, hfind, hverify⟩

/-- **A login opens the gate for an hour.**  A login that is answered 200 was one of `admin` with the
password `admin`; and in every run of every session, from a world that has its signature on, a request
of the API that presents the token of its body is answered 401 exactly from the moment on at which the
token expires. -/
theorem login_opens_gate {m : Manager} (hjwt : h.jwt = some m)
    (hdecode : ∀ data, m.base64Decode (Base64.encode data) = some data)
    (hheader : m.codec.parse JwtManager.jwtHeader = some (.object JwtManager.jwtHeaderObject))
    (hjson : (m.codec.parse (m.codec.serialize
      (JwtManager.payload (ascii "admin") (ascii "admin") 3600 env.now))).isSome)
    (hverifies : ∀ signed x signature, (x, signature) ∈ signed →
      m.scheme.verifyMessage signed x signature = true)
    (hnow : env.now.toNat + 3600 < 2 ^ 63) (hlogin : isLogin req) {token : String}
    (hresp : (handle h env w req).response = some resp) (hok : resp.status = .ok)
    (htoken : tokenOf h resp = some token) {s₀ s : Session κ A} {τ : List (Event κ A)}
    (hrun : (machine κ h).Run Grows s₀ τ s)
    (hsince : (handle h env w req).world.signed ⊆ s₀.world.signed) :
    readLogin h req.body = .ok ("admin", "admin") ∧
      Always (fun _ e => isApi e.req → ¬ isLogin e.req →
        e.req.find .authorization = some (bearerPrefix ++ token) →
          (e.reply.response.map Response.status = some .unauthorized ↔
            env.now.toNat + 3600 ≤ e.env.now.toNat)) τ := by
  have hapi : isApi req := by
    rw [isApi, hlogin.1]
    decide
  have hreply : handle h env w req = handleLogin h env w req := by
    rw [handle, if_pos hapi, handleApiRequest, if_pos (show _ ∧ _ from hlogin)]
  rw [hreply] at hresp hsince
  have hcases := handleLogin_cases h env w req
  generalize handleLogin h env w req = reply at hcases hresp hsince
  cases hcases with
  | threw => cases hresp
  | refused hno =>
    cases hresp
    exact absurd hok hno
  | @issued m' signature hjwt' hread =>
    cases hresp
    obtain rfl := Option.some.inj (hjwt.symm.trans hjwt')
    obtain rfl := tokenOf_successText htoken
    refine ⟨hread, fun τ₁ e τ₂ hτ hapi' hno hfind => ?_⟩
    obtain ⟨hsigned, he⟩ := signed_subset_run hrun τ₁ e τ₂ hτ
    have hmem : (adminInput m env.now, signature) ∈ e.before.signed :=
      hsigned (hsince (List.mem_append_right _ List.mem_cons_self))
    rw [he, handle_unauthorized_iff hapi' hno, authorised_iff hjwt hdecode hheader hjson
      (hverifies _ _ _ hmem) hnow hfind, not_lt]

/-! ## A login, and what follows -/

open Classical in
/-- A JSON library that writes one value as a text of its own, and any other as a text that it does not
read. -/
noncomputable def writesOne {S T : Type} (v : Json S) (text garbage : T) (hne : garbage ≠ text)
    (reads : T → Option (Json S)) (hreads : reads garbage = none) : Json.Codec S T where
  serialize x := if x = v then text else garbage
  parse t := if t = text then some v.normal else reads t
  parse_serialize x y hxy := by
    split at hxy
    case isTrue hx =>
      rw [if_pos rfl] at hxy
      rw [hx]
      exact (Option.some.inj hxy).symm
    case isFalse =>
      rw [hreads] at hxy
      cases hxy

/-- A JWT manager that knows one payload. -/
noncomputable def adminManager : Manager where
  codec := writesOne (JwtManager.payload (ascii "admin") (ascii "admin") 3600 1700000000)
    (ascii "payload") [] (by decide)
    (fun t => if t = JwtManager.jwtHeader then some (.object JwtManager.jwtHeaderObject) else none)
    (by decide)
  base64Decode := Base64.decode
  scheme := JwtManager.ledger

/-- A server whose libraries know what a login and its token need. -/
noncomputable def adminServer : Config Addr where
  connectionDetailsProvider := true
  documentRoot := "/srv"
  dispatcher := true
  db := true
  jwt := some adminManager
  json := writesOne (loginBody (String.ofList ((adminToken adminManager 1700000000 [1, 2, 3]).map
      fun b => Char.ofNat b.toNat))) "answer" "" (by decide)
    (fun t => if t = "login" then
      some (.object [("username", .string "admin"), ("password", .string "admin")]) else none)
    (by decide)
  inet := addrInet

/-- The login, and a request with its token. -/
def loginRequest : Request := ⟨.post, "/api/auth/login", [], true, "login"⟩

/-- A world in which nothing has been signed. -/
def unsignedWorld : World Unit Addr := ⟨oneSensor, {}, []⟩

/-- The signer at work. -/
def signingEnv : Env Unit := { quietEnv with now := 1700000000, signature := some [1, 2, 3] }

/-- What the server answers. -/
theorem handle_loginRequest : handle adminServer signingEnv unsignedWorld loginRequest =
    ⟨[.issued "admin" "admin"], { unsignedWorld with
      signed := [(adminInput adminManager 1700000000, [1, 2, 3])] },
      some (successText loginRequest (adminServer.json.serialize (loginBody (String.ofList
        ((adminToken adminManager 1700000000 [1, 2, 3]).map fun b => Char.ofNat b.toNat))))
        "application/json")⟩ := by
  have hparse : adminServer.json.parse loginRequest.body =
      some (.object [("username", .string "admin"), ("password", .string "admin")]) := by
    simp only [adminServer, writesOne, loginRequest]
    rw [if_neg (by decide), if_pos trivial]
  have hread : readLogin adminServer loginRequest.body = .ok ("admin", "admin") := by
    rw [readLogin, hparse]
    rfl
  rw [handle, if_pos (by decide), handleApiRequest, if_pos (by decide), handleLogin]
  simp only [hread]
  rfl

/-- A request with that token. -/
noncomputable def tokenRequest : Request :=
  detailsRequest [(.authorization, bearer (adminToken adminManager 1700000000 [1, 2, 3]))]

/-- The token minutes and an hour after the login. -/
theorem login_opens_gate_hour : ∃ τ s,
    (machine Unit adminServer).Run Grows ⟨(handle adminServer signingEnv unsignedWorld
      loginRequest).world, true⟩ τ s ∧
    τ.map (fun e => (e.env.now, decide (e.reply.response.map Response.status = some .unauthorized))) =
      [(1700000100, false), (1700003600, true)] := by
  have hresp := congrArg Reply.response handle_loginRequest
  have hworld := congrArg Reply.world handle_loginRequest
  have hheader : adminManager.codec.parse JwtManager.jwtHeader =
      some (.object JwtManager.jwtHeaderObject) := by
    simp only [adminManager, writesOne]
    rw [if_neg (by decide), if_pos trivial]
  have hjson : (adminManager.codec.parse (adminManager.codec.serialize
      (JwtManager.payload (ascii "admin") (ascii "admin") 3600 1700000000))).isSome := by
    simp [adminManager, writesOne]
  have htoken : tokenOf adminServer (successText loginRequest (adminServer.json.serialize (loginBody
      (String.ofList ((adminToken adminManager 1700000000 [1, 2, 3]).map fun b => Char.ofNat b.toNat))))
      "application/json") = some (String.ofList ((adminToken adminManager 1700000000 [1, 2, 3]).map
        fun b => Char.ofNat b.toNat)) := by
    simp [tokenOf, successText, adminServer, writesOne, loginBody, Json.normal, Json.normalMembers,
      Json.asObject, Json.asString]
  have hsigned : (adminInput adminManager 1700000000, [1, 2, 3]) ∈
      (handle adminServer signingEnv unsignedWorld loginRequest).world.signed := by
    rw [hworld]
    exact List.mem_cons_self
  have hfind : tokenRequest.find .authorization =
      some (bearer (adminToken adminManager 1700000000 [1, 2, 3])) := rfl
  generalize hw : (handle adminServer signingEnv unsignedWorld loginRequest).world = w at hsigned
  have hauth : Authorised adminServer quietEnv w tokenRequest :=
    (authorised_iff rfl Base64.decode_encode hheader hjson (decide_eq_true hsigned) (by decide)
      hfind).mpr (by decide)
  obtain ⟨_, _, hfirst⟩ := handle_details hauth rfl rfl rfl
  -- the session goes on after the first request
  have hstep : (machine Unit adminServer).step ⟨w, true⟩ (.request tokenRequest quietEnv) =
      some (⟨w, true⟩,
        some ⟨tokenRequest, quietEnv, w, handle adminServer quietEnv w tokenRequest⟩) := by
    simp only [machine, if_true, hfirst]
    rfl
  have hrun := ((Machine.Run.nil (M := machine Unit adminServer) (C := Grows)).concat
    (by rintro _ ⟨⟩) hstep).concat (i := .request tokenRequest { quietEnv with now := 1700003600 })
    (by rintro _ ⟨⟩) rfl
  refine ⟨_, _, hrun, ?_⟩
  subst hw
  obtain ⟨-, hwindow⟩ := login_opens_gate (h := adminServer) rfl Base64.decode_encode hheader hjson
    (fun _ _ _ hmem => decide_eq_true hmem) (by decide) ⟨rfl, rfl⟩ hresp rfl htoken hrun
    (List.Subset.refl _)
  have hno : ¬ isLogin tokenRequest := fun hlogin => absurd hlogin.2 (by decide)
  have h₁ := hwindow [] _ [_] rfl (by decide) hno hfind
  have h₂ := hwindow [_] _ [] rfl (by decide) hno hfind
  have hbefore : ¬ (1700000000 : UInt64).toNat + 3600 ≤ (1700000100 : UInt64).toNat := by decide
  have hafter : (1700000000 : UInt64).toNat + 3600 ≤ (1700003600 : UInt64).toNat := by decide
  simp only [List.nil_append, List.cons_append, List.map_cons, List.map_nil, List.cons.injEq,
    Prod.mk.injEq, and_true, decide_eq_false_iff_not, decide_eq_true_eq]
  exact ⟨⟨rfl, fun hstatus => hbefore (h₁.mp hstatus)⟩, trivial, h₂.mpr hafter⟩

end ManagementSensors.QuantumSafeHttp
