import ManagementSensors.Http.Login
import ManagementSensors.Server.ConnectionDetails

/-!
# Server/DeclaredJson — which bodies that are declared JSON are JSON

    handle_login, config_ip, connection_details ──▸ application/json, and JSON
    require_auth ──▸ application/json, and a line of English

`unauthorized` declares every body `application/json`.  A login gives it an object; the gate gives it the
error of `require_auth` as it is, and no parser reads that (`not_isJson_of_requireAuth`).  So a client
that parses what is declared JSON gets through with its logins and with the requests that pass the gate,
and with no others (`declared_iff`).
-/

open Machinery Machinery.Json

namespace ManagementSensors

namespace QuantumSafeHttp

/-- **How the texts of a JSON library are read**: what it writes is JSON, and no number begins with a
letter. -/
structure TextReader (json : Json.Codec String String) where
  number : List Char → Option Atom
  number_letter : ∀ c cs, c.isAlpha = true → number (c :: cs) = none
  reads : ∀ v, (Json.parse number (json.serialize v).toList).isSome

section Texts

variable {json : Json.Codec String String} (R : TextReader json)

/-- A text that a parser reads. -/
def TextReader.IsJson (s : String) : Prop := (Json.parse R.number s.toList).isSome

variable {R}

theorem isAlpha_of_isUpper {d : Char} (hd : d.isUpper = true) : d.isAlpha = true :=
  Bool.or_eq_true_iff.mpr (Or.inl hd)

theorem readWord_of_upper {d : Char} {w : List Char} (hd : d.isUpper = true) :
    readWord R.number (d :: w) = none := by
  have hne : ∀ {c : Char} {v : List Char}, c.isUpper = false → d :: w ≠ c :: v := by
    rintro c v hc ⟨⟩
    cases hd.symm.trans hc
  have hnull : d :: w ≠ "null".toList := hne (c := 'n') rfl
  have htrue : d :: w ≠ "true".toList := hne (c := 't') rfl
  have hfalse : d :: w ≠ "false".toList := hne (c := 'f') rfl
  have hnumber : R.number (d :: w) = none := R.number_letter d w (isAlpha_of_isUpper hd)
  rw [readWord, if_neg hnull, if_neg htrue, if_neg hfalse, hnumber]

/-- **A text that begins with a capitalised word** is not JSON. -/
theorem not_isJson {s : String} (d : Char) (w rest : List Char) (hs : s.toList = d :: w ++ ' ' :: rest)
    (hd : d.isUpper = true) (hw : w.all isWordChar = true) : ¬ R.IsJson s := by
  have hword : isWordChar d = true := by
    simp [isWordChar, Char.isAlphanum, isAlpha_of_isUpper hd]
  have hlex := lex_eq_none_of_word (v := rest) hword hw (c := ' ') rfl (readWord_of_upper (R := R) hd)
  rw [TextReader.IsJson, hs, Json.parse, hlex]
  exact Bool.false_ne_true

end Texts

variable {κ A : Type} {h : Config A} {env : Env κ} {w : World κ A} {req : Request} {res : Response}
  {s : String}

/-- No error of `require_auth` is JSON. -/
theorem not_isJson_of_requireAuth (R : TextReader h.json) {why : String} {effects : List Effect}
    (hreq : requireAuth h env w req = (.error why, effects)) : ¬ R.IsJson why := by
  unfold requireAuth at hreq
  split at hreq
  case h_1 =>
    cases hreq
    exact not_isJson 'J' ['W', 'T'] "authentication not configured".toList rfl rfl rfl
  case h_2 =>
    split at hreq
    case h_1 =>
      cases hreq
      exact not_isJson 'M' "issing".toList "Authorization header".toList rfl rfl rfl
    case h_2 =>
      split at hreq
      case isTrue =>
        cases hreq
        exact not_isJson 'A' "uthorization".toList "header must use Bearer scheme".toList rfl rfl rfl
      case isFalse =>
        dsimp only at hreq
        split at hreq <;> cases hreq
        exact not_isJson 'I' "nvalid".toList "or expired token".toList rfl rfl rfl

/-! ## The handlers -/

/-- A text response, declared JSON. -/
def Declared (res : Response) (s : String) : Prop :=
  res.contentType = "application/json" ∧ res.body = .text s

theorem not_declared_plain {status : Status} {auth : Option String} {keep : Bool} {body : Body} :
    ¬ Declared ⟨status, "text/plain", auth, keep, body⟩ s := fun hdecl =>
  absurd hdecl.1 (by decide : ¬ "text/plain" = "application/json")

theorem declared_handleLogin (R : TextReader h.json)
    (hres : (handleLogin h env w req).response = some res) (hdecl : Declared res s) : R.IsJson s := by
  rw [handleLogin] at hres
  split at hres
  case h_1 =>
    cases hres
    exact absurd hdecl not_declared_plain
  case h_2 =>
    split at hres
    case h_1 =>
      cases hres
      exact absurd hdecl not_declared_plain
    case h_2 =>
      split at hres
      case isTrue =>
        cases hres
        obtain ⟨-, ⟨⟩⟩ := hdecl
        exact R.reads _
      case isFalse =>
        split at hres <;> cases hres
        obtain ⟨-, ⟨⟩⟩ := hdecl
        exact R.reads _

theorem declared_configIp (R : TextReader h.json)
    (hres : (configIp h env w req).response = some res) (hdecl : Declared res s) : R.IsJson s := by
  rw [configIp] at hres
  split at hres
  case isTrue =>
    cases hres
    exact absurd hdecl not_declared_plain
  case isFalse =>
    split at hres
    case h_1 =>
      cases hres
      exact absurd hdecl not_declared_plain
    case h_2 q _ =>
      generalize configIpCalls h.inet env.calls q w.db w.dispatcher = calls at hres
      obtain ⟨result, db, dispatcher⟩ := calls
      cases result with
      | notGenerated | notAdded =>
        cases hres
        exact absurd hdecl not_declared_plain
      | answered r status =>
        cases hres
        rw [configIpResponse] at hdecl
        split at hdecl
        all_goals
          obtain ⟨-, ⟨⟩⟩ := hdecl
          exact R.reads _

/-- The files are no texts, and their errors are plain. -/
theorem not_declared_handleRequest (hres : (handleRequest h env w req).response = some res) :
    ¬ Declared res s := by
  rw [handleRequest] at hres
  split at hres
  case isTrue =>
    cases hres
    exact not_declared_plain
  case isFalse =>
    split at hres
    case isTrue =>
      cases hres
      exact not_declared_plain
    case isFalse =>
      generalize pathCat h.documentRoot req.target ++ _ = path at hres
      dsimp only at hres
      split at hres
      case h_1 | h_2 =>
        cases hres
        exact not_declared_plain
      case h_3 size _ =>
        cases hres
        rintro ⟨-, hbody⟩
        dsimp only at hbody
        split at hbody <;> cases hbody

/-- **What a session declares JSON** is JSON where the request is a login or is authorised, and is not
where it is refused. -/
theorem declared_handle (R : TextReader h.json) (hdetails : R.IsJson env.connectionDetails)
    (hres : (handle h env w req).response = some res) (hdecl : Declared res s) :
    R.IsJson s ↔ isLogin req ∨ Authorised h env w req := by
  rw [handle] at hres
  split at hres
  case isFalse => exact absurd hdecl (not_declared_handleRequest hres)
  case isTrue =>
    rw [handleApiRequest] at hres
    split at hres
    case isTrue hlogin => exact iff_of_true (declared_handleLogin R hres hdecl) (Or.inl hlogin)
    case isFalse hlogin =>
      rcases requireAuth_cases h env w req with
        ⟨token, claims, hauth, hreq⟩ | ⟨why, effects, hauth, hreq, -⟩
      · refine iff_of_true ?_ (Or.inr hauth)
        rw [hreq] at hres
        dsimp only at hres
        split at hres
        case isTrue =>
          split at hres <;> cases hres
          · exact absurd hdecl not_declared_plain
          · obtain ⟨-, ⟨⟩⟩ := hdecl
            exact hdetails
        case isFalse =>
          split at hres
          case isTrue => exact declared_configIp R hres hdecl
          case isFalse =>
            cases hres
            exact absurd hdecl not_declared_plain
      · rw [hreq] at hres
        cases hres
        obtain ⟨-, ⟨⟩⟩ := hdecl
        exact iff_of_false (not_isJson_of_requireAuth R hreq) (not_or.mpr ⟨hlogin, hauth⟩)

end QuantumSafeHttp

namespace QuantumSafeTlsEngine

open QuantumSafeHttp (Config World Declared TextReader isLogin Authorised)

/-! ## Along a run -/

section Run

variable {ι κ A : Type} [DecidableEq ι] {G : GroupParams} {h : Config A} {τ : List (Event ι κ A)}
  {s : Engine ι κ A} {w : World κ A}

omit [DecidableEq ι] in
/-- The field of the details holds JSON, before any handshake and after. -/
theorem Holds.isJson (R : TextReader h.json) (hplain : ∀ group, Plain (nameOf G group))
    (hI : Holds G τ s) : R.IsJson s.latestConnectionDetails := by
  rw [hI.latest]
  cases lastStored τ with
  | none =>
    have hempty : Json.parse R.number "\x7b\x7d".toList = some (.object []) := rfl
    exact Option.isSome_of_mem hempty
  | some group => exact Option.isSome_of_mem (parse_connectionDetails_iff.mpr (hplain group))

/-- **Which bodies that are declared JSON are JSON.**  However handshakes and requests are interleaved,
where the names of the groups are plain, a text that is declared `application/json` is JSON if and only
if it answers a login, or a request that was authorised. -/
theorem declared_iff (R : TextReader h.json) (hplain : ∀ group, Plain (nameOf G group))
    (hrun : (machine ι κ G h).Run Guard.free { world := w } τ s) :
    Always (fun _ e => ∀ i r res text, e = .answered i r → r.reply.response = some res →
      Declared res text →
        (R.IsJson text ↔ isLogin r.req ∨ Authorised (handler h) r.env r.before r.req)) τ := by
  refine hrun.always (I := Holds G) (holds_start w)
    (fun _ _ _ _ _ hI _ hstep => hI.step (step_cases hstep)) ?_
  rintro τ s inp t _ hI - hstep i r res text rfl hres hdecl
  cases step_cases hstep with
  | request hs henv hreply =>
    rw [hreply] at hres
    refine QuantumSafeHttp.declared_handle (h := handler h) R ?_ hres hdecl
    rw [henv]
    exact hI.isJson R hplain

end Run

/-! ## A server that writes what it says -/

/-- A flat value, with the characters of its strings. -/
def chars : Json String → Json (List Char)
  | .object kvs => .object (kvs.map fun p => (p.1.toList, leaf p.2))
  | v => leaf v
where
  leaf : Json String → Json (List Char)
    | .bool b => .bool b
    | .int64 n => .int64 n
    | .string s => .string s.toList
    | _ => .null

/-- The text of a value, as `JsonUtils` prints it, or `null` where that is no JSON. -/
def textOf (v : Json String) : String :=
  let text := JsonUtils.toString JsonUtils.serializeDecimal (chars v)
  if (Json.parse JsonUtils.decimal text).isSome then String.ofList text else "null"

example : textOf (.object [("status", .string "success"), ("expires_in", .int64 3600)]) =
    "\x7b\n  \"status\" : \"success\",\n  \"expires_in\" : 3600\n\x7d" := by decide +kernel

theorem isSome_parse_textOf (v : Json String) :
    (Json.parse JsonUtils.decimal (textOf v).toList).isSome := by
  rw [textOf]
  split
  case isTrue htext => rwa [String.toList_ofList]
  case isFalse =>
    have hnull : Json.parse JsonUtils.decimal "null".toList = some .null := rfl
    exact Option.isSome_of_mem hnull

/-- The body of a login, as a client writes it. -/
def loginText : String := "\x7b\"username\":\"admin\",\"password\":\"admin\"\x7d"

/-- A leaf does not begin with a brace. -/
theorem head?_leaf (v : Json String) :
    (JsonUtils.toString JsonUtils.serializeDecimal (chars.leaf v)).head? ≠ some '\x7b' := by
  cases v with
  | int64 n =>
    intro hhead
    have hdigit := Nat.isDigit_of_mem_toDigits (by decide) (by decide) (List.mem_of_head? hhead)
    exact absurd hdigit (by decide)
  | bool b => cases b <;> decide
  | string s => exact fun hhead => absurd (Option.some.inj hhead) (by decide)
  | null | uint64 | double | array | object =>
    exact fun hhead => absurd (Option.some.inj hhead) (by decide)

/-- It is written in another layout. -/
theorem textOf_ne_loginText (v : Json String) : textOf v ≠ loginText := by
  intro heq
  have hchars := congrArg String.toList heq
  rw [textOf] at hchars
  split at hchars
  case isFalse => exact absurd hchars (by decide)
  case isTrue =>
    rw [String.toList_ofList] at hchars
    have hleaf : chars v ≠ chars.leaf v := fun he => by
      rw [he] at hchars
      exact head?_leaf v (by rw [hchars]; rfl)
    cases v with
    | object kvs => cases hchars
    | null | bool | int64 | uint64 | double | string | array => exact hleaf rfl

/-- A server whose JSON library writes these texts, and reads that one. -/
def writesJson : Config Addr :=
  { QuantumSafeHttp.oneToken with
    json :=
      { serialize := textOf
        parse := fun text => if text = loginText then
          some (.object [("username", .string "admin"), ("password", .string "admin")]) else none
        parse_serialize := fun v _ hread => by
          rw [if_neg (textOf_ne_loginText v)] at hread
          cases hread } }

theorem decimal_letter (c : Char) (cs : List Char) (hc : c.isAlpha = true) :
    JsonUtils.decimal (c :: cs) = none := by
  have hdigit : c.isDigit = false := by
    by_contra hd
    rw [Bool.not_eq_false] at hd
    have hlow : c.val ≤ '9'.val := of_decide_eq_true (Bool.and_eq_true_iff.mp hd).2
    rcases Bool.or_eq_true_iff.mp hc with hupper | hlower
    · exact absurd (UInt32.le_trans (of_decide_eq_true hupper).1 hlow) (by decide)
    · have hge : 'a'.val ≤ c.val := of_decide_eq_true (Bool.and_eq_true_iff.mp hlower).1
      exact absurd (UInt32.le_trans hge hlow) (by decide)
  rw [JsonUtils.decimal, if_neg]
  simp [hdigit]

def decimalReader : TextReader writesJson.json where
  number := JsonUtils.decimal
  number_letter := decimal_letter
  reads := isSome_parse_textOf

/-- A login. -/
def loginJson : QuantumSafeHttp.Request := ⟨.post, "/api/auth/login", [], true, loginText⟩

/-- It is answered with a token, where the signer is at work. -/
theorem response_loginJson (env : QuantumSafeHttp.Env Unit) (w : World Unit Addr)
    {signature : JwtManager.Bytes} (hsigns : env.signature = some signature) : ∃ text,
      (QuantumSafeHttp.handle (handler writesJson) env w loginJson).response =
        some (QuantumSafeHttp.successText loginJson text "application/json") := by
  have hread : QuantumSafeHttp.readLogin (handler writesJson) loginJson.body =
      .ok ("admin", "admin") := rfl
  rw [QuantumSafeHttp.handle, if_pos (by decide), QuantumSafeHttp.handleApiRequest, if_pos ⟨rfl, rfl⟩,
    QuantumSafeHttp.handleLogin]
  simp only [hread, hsigns]
  exact ⟨_, rfl⟩

/-- Of two sessions one asks without a token, and parses what is declared JSON in vain; the other logs
in, and reads its answer. -/
theorem declared_iff_two : ∃ r₀ r₁ res₀ res₁ text s, (machine ℕ Unit twoGroups writesJson).Run Guard.free
      { world := QuantumSafeHttp.issuedOne }
      [.collected 0 0x001d, .stored 0 0x001d, .collected 1 0x11ec, .stored 1 0x11ec, .answered 0 r₀,
        .answered 1 r₁] s ∧
    (r₀.reply.response = some res₀ ∧ Declared res₀ "Missing Authorization header" ∧
      ¬ decimalReader.IsJson "Missing Authorization header") ∧
    r₁.reply.response = some res₁ ∧ res₁.status = .ok ∧ Declared res₁ text ∧
      decimalReader.IsJson text := by
  have hplain : ∀ group, Plain (nameOf twoGroups group) := fun group => by
    rw [nameOf, twoGroups]
    dsimp only
    split
    · decide
    · split <;> decide
  have hstart : (machine ℕ Unit twoGroups writesJson).Run Guard.free
      { world := QuantumSafeHttp.issuedOne } [] { world := QuantumSafeHttp.issuedOne } := .nil
  have hconnect := connect (i := 1) (connect (i := 0) hstart rfl 0x001d) rfl 0x11ec
  let req := QuantumSafeHttp.detailsRequest []
  let env := { QuantumSafeHttp.quietEnv with
    connectionDetails := connectionDetails twoGroups 0x11ec }
  have hrefused : QuantumSafeHttp.handle (handler writesJson) env QuantumSafeHttp.issuedOne req =
      ⟨[], QuantumSafeHttp.issuedOne,
        some (QuantumSafeHttp.unauthorized req "Missing Authorization header")⟩ := by
    rw [QuantumSafeHttp.handle, if_pos (by decide), QuantumSafeHttp.handleApiRequest, if_neg (by decide)]
    rfl
  obtain ⟨t, hfirst, hw, hother⟩ := answer (i := 0) hconnect rfl req QuantumSafeHttp.quietEnv hrefused
  obtain ⟨s, hrun, -, -⟩ := answer (i := 1) hfirst (hother 1 (by decide)) loginJson
    QuantumSafeHttp.signingEnv rfl
  obtain ⟨text, htoken⟩ := response_loginJson
    { QuantumSafeHttp.signingEnv with connectionDetails := t.latestConnectionDetails } t.world rfl
  refine ⟨_, _, _, _, text, s, hrun, ⟨rfl, ⟨rfl, rfl⟩, fun hjson => ?_⟩, htoken, rfl, ⟨rfl, rfl⟩, ?_⟩
  · have hiff := declared_iff decimalReader hplain hfirst _ _ [] rfl 0 _
      (QuantumSafeHttp.unauthorized req "Missing Authorization header") _ rfl rfl ⟨rfl, rfl⟩
    rcases hiff.mp hjson with hlogin | ⟨_, _, _, _, hfind, _⟩
    · exact absurd hlogin.2 (by decide)
    · cases hfind
  · exact (declared_iff decimalReader hplain hrun _ _ [] rfl 1 _ _ _ rfl htoken ⟨rfl, rfl⟩).mpr
      (Or.inl ⟨rfl, rfl⟩)

end QuantumSafeTlsEngine

end ManagementSensors
