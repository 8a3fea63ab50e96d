import ManagementSensors.Cli.Grammar
import ManagementSensors.Db.Commits
import ManagementSensors.Http.Gate
import ManagementSensors.Jwt.RoundTrip

/-!
# Cli/SameAsHttp — CONFIG_IP over the two front ends

The line `CONFIG_IP n ip x` is parsed into the number and the word it shows
(`parseSensorCommand_line`), the body of a POST into the same two values, and from there both make the
same calls.  They differ where a call of the database throws: `config_ip` catches and answers, the
command does not, and its session ends without a word.
-/

open Machinery

namespace ManagementSensors

namespace QuantumCommandCli

/-! ## Parsing a line -/

/-- The decimal text of a natural number is its digits. -/
theorem digits_repr (m : ℕ) : m.repr.toList ≠ [] ∧ (∀ c ∈ m.repr.toList, c.isDigit = true) ∧
    decimal m.repr.toList = m := by
  rw [Nat.toList_repr]
  exact ⟨Nat.toDigits_ne_nil, fun c hc => Nat.isDigit_of_mem_toDigits (by decide) (by decide) hc,
    Nat.ofDigitChars_ten_toDigits⟩

/-- **A number is spelt as it is written.** -/
theorem spells_repr (v : ℤ) : Spells v.repr.toList v := by
  cases v with
  | ofNat m =>
    obtain ⟨hne, hall, hvalue⟩ := digits_repr m
    have hplain := Spells.plain hne hall
    rwa [hvalue] at hplain
  | negSucc m =>
    obtain ⟨hne, hall, hvalue⟩ := digits_repr m.succ
    have hminus := Spells.minus hne hall
    rw [hvalue] at hminus
    rw [Int.repr, String.toList_append]
    exact hminus

theorem Spells.isWord {word : List Char} {v : ℤ} (h : Spells word v) : IsWord word := by
  cases h with
  | plain hne hall => exact ⟨hne, fun c hc => isSpace_of_isDigit (hall c hc)⟩
  | plus hne hall | minus hne hall =>
    exact ⟨List.cons_ne_nil _ _,
      List.forall_mem_cons.mpr ⟨rfl, fun c hc => isSpace_of_isDigit (hall c hc)⟩⟩

/-- **A line of a word, a number and two words is parsed** into these. -/
theorem parseSensorCommand_words {cmd attr value : List Char} (hcmd : IsWord cmd) (n : Int32)
    (hattr : IsWord attr) (hvalue : IsWord value) :
    parseSensorCommand (cmd ++ ' ' :: ((toString n).toList ++ ' ' :: (attr ++ ' ' :: value))) =
      { cmd := cmd, id := n, attr := attr, value := value, valid := true } := by
  have hspells : Spells (toString n).toList n.toInt := spells_repr n.toInt
  have hblank : isSpace ' ' = true := rfl
  have hend : ∀ rest, EndsWord (' ' :: rest) := fun rest c hc => by
    cases hc
    rfl
  have htokens : tokens (cmd ++ ' ' :: ((toString n).toList ++ ' ' :: (attr ++ ' ' :: value))) =
      [cmd, (toString n).toList, attr, value] := by
    rw [hcmd.tokens_append (hend _), tokens_cons hblank, hspells.isWord.tokens_append (hend _),
      tokens_cons hblank, hattr.tokens_append (hend _), tokens_cons hblank, hvalue.tokens]
  rw [parseSensorCommand_eq, htokens, commandOf_four hspells.isWord (beginsWith_nil.mpr hspells)]

/-- The line of a CONFIG_IP command. -/
def configIpLine (n : Int32) (x : List Char) : List Char :=
  "CONFIG_IP".toList ++ ' ' :: ((toString n).toList ++ ' ' :: ("ip".toList ++ ' ' :: x))

/-- The command it holds. -/
def configIpCommand (n : Int32) (x : List Char) : QuantumCommand where
  cmd := "CONFIG_IP".toList
  id := n
  attr := "ip".toList
  value := x
  valid := true

theorem parseSensorCommand_line (n : Int32) {x : List Char} (hx : IsWord x) :
    parseSensorCommand (configIpLine n x) = configIpCommand n x :=
  parseSensorCommand_words (by decide) n (by decide) hx

/-- A printable character that is no blank. -/
def IsGraph (c : Char) : Prop := '!' ≤ c ∧ c ≤ '~'

instance (c : Char) : Decidable (IsGraph c) := inferInstanceAs (Decidable (_ ∧ _))

theorem isSpace_of_isGraph {c : Char} (h : IsGraph c) : isSpace c = false := by
  have hne : ∀ d : Char, d < '!' → c ≠ d := by
    rintro d hd rfl
    exact absurd h.1 (Char.not_le.mpr hd)
  simp [isSpace, isBlank, hne ' ' (by decide), hne '\t' (by decide), hne '\r' (by decide),
    hne '\n' (by decide), hne '\x0b' (by decide), hne '\x0c' (by decide)]

end QuantumCommandCli

/-! ## The calls, as the two front ends make them -/

/-- A call of a CONFIG_IP request. -/
inductive PipelineCall
  | generateRequestId
  | addPendingConfig (q : ConfigRequest) (r : RequestId)
  | waitForResponse (r : RequestId)
  deriving DecidableEq

def QuantumCommandCli.Event.call? : QuantumCommandCli.Event → Option PipelineCall
  | .generatedRequestId => some .generateRequestId
  | .addedPendingConfig q r => some (.addPendingConfig q r)
  | .waitedForResponse r => some (.waitForResponse r)
  | _ => none

def QuantumSafeHttp.Effect.call? : QuantumSafeHttp.Effect → Option PipelineCall
  | .generatedRequestId => some .generateRequestId
  | .addedPendingConfig q r => some (.addPendingConfig q r)
  | .waitedForResponse r => some (.waitForResponse r)
  | _ => none

variable {κ A : Type}

/-- The CLI reports success. -/
def QuantumCommandCli.Succeeds (events : List QuantumCommandCli.Event) : Prop :=
  ∃ text, .wrote text ∈ events ∧ "OK: ".toList <+: text

/-- The CLI answers with an error, and the session goes on. -/
def QuantumCommandCli.Refuses (events : List QuantumCommandCli.Event) : Prop :=
  (∃ text, .wrote text ∈ events ∧ "ERROR: ".toList <+: text) ∧ .threw ∉ events ∧ .quit ∉ events

/-- The REST API reports success. -/
def QuantumSafeHttp.Succeeds (reply : QuantumSafeHttp.Reply κ A) : Prop :=
  ∃ res, reply.response = some res ∧ res.status = .ok

/-- The REST API answers with an error, and the session goes on where the client has asked for it. -/
def QuantumSafeHttp.Refuses (req : QuantumSafeHttp.Request) (reply : QuantumSafeHttp.Reply κ A) :
    Prop :=
  ∃ res, reply.response = some res ∧ res.status ≠ .ok ∧ res.keepAlive = req.keepAlive

/-- **The same pipeline**: the same calls with the same arguments, success in the same cases, and an
error reply of both in every other. -/
structure SamePipeline (req : QuantumSafeHttp.Request) (events : List QuantumCommandCli.Event)
    (reply : QuantumSafeHttp.Reply κ A) : Prop where
  calls : events.filterMap QuantumCommandCli.Event.call? =
    reply.effects.filterMap QuantumSafeHttp.Effect.call?
  success : QuantumCommandCli.Succeeds events ↔ QuantumSafeHttp.Succeeds reply
  refused : ¬ QuantumSafeHttp.Succeeds reply →
    QuantumCommandCli.Refuses events ∧ QuantumSafeHttp.Refuses req reply

/-- The reply of the CLI to a response. -/
def cliText (n : SensorId) (r : RequestId) (st : ResponseStatus) : String :=
  if st = .success then "OK: Sensor " ++ toString n ++ " updated successfully."
  else "ERROR: " ++ QuantumCommandCli.statusToString st ++ " (ID: " ++ toString r ++ ")"

theorem prefix_cliText (n : SensorId) (r : RequestId) (st : ResponseStatus) :
    (if st = .success then "OK: Sensor " else "ERROR: ").toList <+: (cliText n r st).toList := by
  rw [cliText]
  split <;> simp only [String.toList_append, List.append_assoc] <;> exact List.prefix_append _ _

theorem cliText_ne_empty (n : SensorId) (r : RequestId) (st : ResponseStatus) :
    cliText n r st ≠ "" := by
  intro h
  have hstart := prefix_cliText n r st
  rw [h] at hstart
  have hnil := List.eq_nil_of_prefix_nil hstart
  split at hnil <;> exact absurd hnil (by decide)

/-- What the CLI makes of the three calls: the calls seen, and its reply or the exception. -/
def cliEvents (n : SensorId) (q : ConfigRequest) : CallResult → List QuantumCommandCli.Event
  | .notGenerated => [.generatedRequestId, .threw]
  | .notAdded r => [.generatedRequestId, .addedPendingConfig q r, .threw]
  | .answered r st => [.generatedRequestId, .addedPendingConfig q r, .waitedForResponse r,
      .wrote ((cliText n r st).toList ++ ['\n'])]

theorem QuantumCommandCli.handleSession_line (I : InetType A) (envs : ℕ → CallEnv κ)
    (w : QuantumCommandCli.World κ A) (n : Int32) {x : List Char} (hx : IsWord x) :
    handleSession I envs w [configIpLine n x] = .executed (configIpCommand n x) ::
      cliEvents n ⟨n, String.ofList x⟩
        (configIpCalls I (envs 0) ⟨n, String.ofList x⟩ w.db w.dispatcher).1 := by
  have hquits : quits (configIpCommand n x) = false := rfl
  have hexec : execute I (envs 0) w (configIpCommand n x) = configIp I (envs 0) w
    (configIpCommand n x) := if_pos rfl
  rw [handleSession, parseSensorCommand_line n hx]
  simp only [hquits, hexec, Bool.false_eq_true, if_false]
  have hrequest : (⟨(configIpCommand n x).id, String.ofList (configIpCommand n x).value⟩ :
      ConfigRequest) = ⟨n, String.ofList x⟩ := rfl
  simp only [configIp, hrequest]
  rcases configIpCalls I (envs 0) ⟨n, String.ofList x⟩ w.db w.dispatcher with
    ⟨_ | r | ⟨r, st⟩, db, d⟩
  · rfl
  · rfl
  · change _ :: _ ++ ((if cliText n r st = "" then [] else _) ++ []) = _
    rw [if_neg (cliText_ne_empty n r st)]
    rfl

namespace QuantumSafeHttp

variable {h : Config A} {env : Env κ} {w : World κ A} {req : Request} {n : SensorId} {x : List Char}

/-- A POST of a number and an address to `/api/config_ip`. -/
structure PostsConfigIp (h : Config A) (req : Request) (n : SensorId) (x : List Char) : Prop where
  target : req.target = "/api/config_ip"
  method : req.method = .post
  body : h.json.parse req.body =
    some (.object [("sensor_id", .int64 n.toInt64), ("ip", .string (String.ofList x))])

theorem readConfigIp_body (env : Env κ) (hreq : PostsConfigIp h req n x) (hx : '\x00' ∉ x) :
    readConfigIp h env req.body = .ok ⟨n, String.ofList x⟩ := by
  have hip : cStr (String.ofList x) = String.ofList x :=
    cStr_eq_self (by rwa [String.toList_ofList])
  have hobj : (h.json.parse req.body).bind Json.asObject =
      some [("sensor_id", .int64 n.toInt64), ("ip", .string (String.ofList x))] := by
    rw [hreq.body]
    rfl
  rw [readConfigIp, hobj]
  simp [Json.contains, Json.asInt64, Json.asString, hip]

/-- What `config_ip` makes of the three calls: the calls it has made, and its response. -/
def configIpReply (h : Config A) (env : Env κ) (req : Request) (q : ConfigRequest) :
    CallResult → List Effect × Response
  | .notGenerated => ([.configIp, .generatedRequestId], serverError req (databaseError h env 0))
  | .notAdded r => ([.configIp, .generatedRequestId, .addedPendingConfig q r],
      serverError req (databaseError h env r))
  | .answered r st => ([.configIp, .generatedRequestId, .addedPendingConfig q r,
      .waitedForResponse r], configIpResponse h req q.sensorId r st)

/-- An authorised POST goes through the three calls. -/
theorem handle_configIp (hauth : Authorised h env w req) (hreq : PostsConfigIp h req n x)
    (hd : h.dispatcher = true) (hdb : h.db = true) (hx : '\x00' ∉ x) :
    let p := configIpReply h env req ⟨n, String.ofList x⟩
      (configIpCalls h.inet env.calls ⟨n, String.ofList x⟩ w.db w.dispatcher).1
    ∃ token claims, (handle h env w req).effects = .verified token (some claims) :: p.1 ∧
      (handle h env w req).response = some p.2 := by
  rcases requireAuth_cases h env w req with
    ⟨token, claims, -, hpass⟩ | ⟨_, _, hno, -, -⟩
  swap
  · exact absurd hauth hno
  refine ⟨token, claims, ?_⟩
  have hapi : isApi req := by
    rw [isApi, hreq.target]
    decide
  have hlogin : ¬ (req.target = "/api/auth/login" ∧ req.method = .post) := by
    rw [hreq.target]
    exact fun h => absurd h.1 (by decide)
  have hdetails : ¬ (req.target = "/api/connection_details" ∧ req.method = .get) := by
    rw [hreq.target]
    exact fun h => absurd h.1 (by decide)
  have hconfig : req.target = "/api/config_ip" ∧ req.method = .post := ⟨hreq.target, hreq.method⟩
  have hread := readConfigIp_body env hreq hx
  rw [handle, if_pos hapi, handleApiRequest, if_neg hlogin, hpass]
  dsimp only
  rw [if_neg hdetails, if_pos hconfig, configIp, hd, hdb, hread]
  simp only [Bool.not_true, Bool.or_self, Bool.false_eq_true, if_false]
  rcases configIpCalls h.inet env.calls ⟨n, String.ofList x⟩ w.db w.dispatcher with
    ⟨_ | r | ⟨r, st⟩, db, d⟩ <;> exact ⟨rfl, rfl⟩

theorem configIpResponse_status (h : Config A) (req : Request) (n : SensorId) (r : RequestId)
    (st : ResponseStatus) : ((configIpResponse h req n r st).status = .ok ↔ st = .success) ∧
      (configIpResponse h req n r st).keepAlive = req.keepAlive := by
  rw [configIpResponse]
  split
  case isTrue hst => exact ⟨by simp [hst, successText], rfl⟩
  case isFalse hst => exact ⟨by simp [hst], rfl⟩

end QuantumSafeHttp

/-! ## The two against each other -/

theorem not_prefix_error {text : List Char} (h : "ERROR: ".toList <+: text) :
    ¬ "OK: ".toList <+: text := by
  intro hok
  obtain ⟨u, rfl⟩ := h
  obtain ⟨v, hv⟩ := hok
  exact absurd (List.cons.inj hv).1 (by decide)

section SameCalls

variable {h : QuantumSafeHttp.Config A} {env : QuantumSafeHttp.Env κ} {req : QuantumSafeHttp.Request}
  {n : SensorId} {x : List Char} {token : String} {claims : JwtManager.JwtClaims}
  {reply : QuantumSafeHttp.Reply κ A}

/-- **Answered by both**: the CLI says OK where the REST API does, and ERROR where it does not. -/
theorem samePipeline_answered {r : RequestId} {st : ResponseStatus}
    (heff : reply.effects = .verified token (some claims) ::
      (QuantumSafeHttp.configIpReply h env req ⟨n, String.ofList x⟩ (.answered r st)).1)
    (hresp : reply.response =
      some (QuantumSafeHttp.configIpReply h env req ⟨n, String.ofList x⟩ (.answered r st)).2) :
    SamePipeline req (.executed (QuantumCommandCli.configIpCommand n x) ::
      cliEvents n ⟨n, String.ofList x⟩ (.answered r st)) reply := by
  obtain ⟨hstatus, halive⟩ := QuantumSafeHttp.configIpResponse_status h req n r st
  have hstart := prefix_cliText n r st
  have hwrote : ∀ text, .wrote text ∈ QuantumCommandCli.Event.executed
      (QuantumCommandCli.configIpCommand n x) :: cliEvents n ⟨n, String.ofList x⟩ (.answered r st) →
      text = (cliText n r st).toList ++ ['\n'] := by
    intro text htext
    simpa [cliEvents] using htext
  have hmem : .wrote ((cliText n r st).toList ++ ['\n']) ∈ QuantumCommandCli.Event.executed
      (QuantumCommandCli.configIpCommand n x) ::
        cliEvents n ⟨n, String.ofList x⟩ (.answered r st) := by
    simp [cliEvents]
  have hok : QuantumSafeHttp.Succeeds reply ↔ st = .success := by
    rw [QuantumSafeHttp.Succeeds, hresp]
    constructor
    · rintro ⟨res, hres, hst⟩
      obtain rfl := Option.some.inj hres
      exact hstatus.mp hst
    · exact fun hst => ⟨_, rfl, hstatus.mpr hst⟩
  refine ⟨by rw [heff]; rfl, ?_, fun hno => ?_⟩
  · rw [hok]
    constructor
    · rintro ⟨text, htext, hpre⟩
      rw [hwrote text htext] at hpre
      by_contra hst
      rw [if_neg hst] at hstart
      exact not_prefix_error (hstart.trans (List.prefix_append _ _)) hpre
    · intro hst
      rw [if_pos hst] at hstart
      have hsensor : "OK: ".toList <+: "OK: Sensor ".toList := by decide
      exact ⟨_, hmem, (hsensor.trans hstart).trans (List.prefix_append _ _)⟩
  · rw [hok] at hno
    rw [if_neg hno] at hstart
    refine ⟨⟨⟨_, hmem, hstart.trans (List.prefix_append _ _)⟩, ?_, ?_⟩,
      _, hresp, fun hres => hno (hstatus.mp hres), halive⟩
    · simp [cliEvents]
    · simp [cliEvents]

/-- **An exception is not answered by the CLI**, where the REST API answers it. -/
theorem not_samePipeline_threw {events : List QuantumCommandCli.Event} {res : QuantumSafeHttp.Response}
    (hthrew : .threw ∈ events) (hresp : reply.response = some res) (hst : res.status ≠ .ok) :
    ¬ SamePipeline req events reply := by
  intro hsame
  have hno : ¬ QuantumSafeHttp.Succeeds reply := by
    rintro ⟨res', hres', hok⟩
    obtain rfl := Option.some.inj (hresp.symm.trans hres')
    exact hst hok
  exact (hsame.refused hno).1.2.1 hthrew

/-- The two replies to the same calls. -/
theorem samePipeline_calls {result : CallResult}
    (heff : reply.effects = .verified token (some claims) ::
      (QuantumSafeHttp.configIpReply h env req ⟨n, String.ofList x⟩ result).1)
    (hresp : reply.response =
      some (QuantumSafeHttp.configIpReply h env req ⟨n, String.ofList x⟩ result).2) :
    SamePipeline req (.executed (QuantumCommandCli.configIpCommand n x) ::
      cliEvents n ⟨n, String.ofList x⟩ result) reply ↔ ∃ r st, result = .answered r st := by
  cases result with
  | notGenerated =>
    exact iff_of_false (not_samePipeline_threw (by simp [cliEvents]) hresp nofun) (by simp)
  | notAdded r =>
    exact iff_of_false (not_samePipeline_threw (by simp [cliEvents]) hresp nofun) (by simp)
  | answered r st => exact iff_of_true (samePipeline_answered heff hresp) ⟨r, st, rfl⟩

end SameCalls

/-- **When the CLI and the REST API are the same pipeline**: neither call of the database throws. -/
theorem same_pipeline_iff (h : QuantumSafeHttp.Config A) (env : QuantumSafeHttp.Env κ)
    (w : QuantumSafeHttp.World κ A) (req : QuantumSafeHttp.Request) (n : SensorId) (x : List Char)
    (hx : x ≠ []) (hgraph : ∀ c ∈ x, QuantumCommandCli.IsGraph c)
    (hauth : QuantumSafeHttp.Authorised h env w req)
    (hreq : QuantumSafeHttp.PostsConfigIp h req n x) (hd : h.dispatcher = true) (hdb : h.db = true) :
    SamePipeline req
        (QuantumCommandCli.handleSession h.inet (fun _ => env.calls) ⟨w.db, w.dispatcher⟩
          [QuantumCommandCli.configIpLine n x])
        (QuantumSafeHttp.handle h env w req) ↔
      ∃ r, (generateRequestId env.calls.generateLink w.db).result = .ok r ∧
        (addPendingConfig h.inet env.calls.addLink n (sensorHostname n) (String.ofList x) true r
          (generateRequestId env.calls.generateLink w.db).db).result = .ok () := by
  have hword : QuantumCommandCli.IsWord x :=
    ⟨hx, fun c hc => QuantumCommandCli.isSpace_of_isGraph (hgraph c hc)⟩
  have hnul : '\x00' ∉ x := fun hmem => absurd (hgraph _ hmem).1 (by decide)
  obtain ⟨token, claims, heff, hresp⟩ := QuantumSafeHttp.handle_configIp hauth hreq hd hdb hnul
  rw [QuantumCommandCli.handleSession_line h.inet _ _ n hword, samePipeline_calls heff hresp]
  exact exists_congr fun r => configIpCalls_answered h.inet env.calls ⟨n, String.ofList x⟩ w.db
    w.dispatcher r

/-! ## An address and a word that is none -/

/-- The body of a request for sensor 3. -/
def postedBody (ip : String) : String := "\x7b\"sensor_id\":3,\"ip\":\"" ++ ip ++ "\"\x7d"

/-- What it is parsed as. -/
def postedObject (ip : String) : Json String := .object [("sensor_id", .int64 3), ("ip", .string ip)]

/-- The server that knows one token, with a reader of two such bodies. -/
def postedServer : QuantumSafeHttp.Config Addr :=
  { QuantumSafeHttp.oneToken with
    json.parse := fun body =>
      if body = postedBody "10.0.0.2" then some (postedObject "10.0.0.2")
      else if body = postedBody "bogus" then some (postedObject "bogus")
      else none
    json.parse_serialize := nofun }

/-- A request for sensor 3, with that token. -/
def postedRequest (ip : String) : QuantumSafeHttp.Request :=
  ⟨.post, "/api/config_ip",
    [(.authorization, QuantumSafeHttp.bearerPrefix ++ QuantumSafeHttp.bearerToken)], true,
    postedBody ip⟩

theorem postedRequest_authorised (ip : String) : QuantumSafeHttp.Authorised postedServer
    QuantumSafeHttp.quietEnv QuantumSafeHttp.issuedOne (postedRequest ip) := by
  refine QuantumSafeHttp.authorised_bearerToken rfl rfl rfl ?_
  simp only [QuantumSafeHttp.Request.find, postedRequest]
  exact List.lookup_cons_self

/-- The line and the request of sensor 3, in the world of that token. -/
def SamePosted (ip : String) : Prop :=
  SamePipeline (postedRequest ip)
    (QuantumCommandCli.handleSession postedServer.inet (fun _ => QuantumSafeHttp.quietEnv.calls)
      ⟨QuantumSafeHttp.issuedOne.db, QuantumSafeHttp.issuedOne.dispatcher⟩
      [QuantumCommandCli.configIpLine 3 ip.toList])
    (QuantumSafeHttp.handle postedServer QuantumSafeHttp.quietEnv QuantumSafeHttp.issuedOne
      (postedRequest ip))

/-- An address is the same to both. -/
theorem same_pipeline_posted : SamePosted "10.0.0.2" := by
  have hall : "10.0.0.2".toList.all (fun c => decide (QuantumCommandCli.IsGraph c)) = true := by decide
  have hgraph : ∀ c ∈ "10.0.0.2".toList, QuantumCommandCli.IsGraph c := fun c hc =>
    of_decide_eq_true (List.all_eq_true.mp hall c hc)
  exact (same_pipeline_iff postedServer QuantumSafeHttp.quietEnv QuantumSafeHttp.issuedOne
    (postedRequest "10.0.0.2") 3 "10.0.0.2".toList (by decide) hgraph (postedRequest_authorised _)
    ⟨rfl, rfl, rfl⟩ rfl rfl).mpr ⟨5, by decide +kernel, by decide +kernel⟩

/-- **A word that is no address** is answered by the REST API, and ends the session of the CLI without
an answer. -/
theorem not_same_pipeline : ¬ SamePosted "bogus" := by
  have hword : QuantumCommandCli.IsWord "bogus".toList := by decide
  have hcalls : (configIpCalls postedServer.inet QuantumSafeHttp.quietEnv.calls
      ⟨3, String.ofList "bogus".toList⟩ QuantumSafeHttp.issuedOne.db
      QuantumSafeHttp.issuedOne.dispatcher).1 = .notAdded 5 := by
    decide +kernel
  obtain ⟨token, claims, heff, hresp⟩ := QuantumSafeHttp.handle_configIp
    (postedRequest_authorised "bogus") (n := 3) (x := "bogus".toList) ⟨rfl, rfl, rfl⟩ rfl rfl
    (by decide)
  rw [SamePosted, QuantumCommandCli.handleSession_line _ _ _ 3 hword, samePipeline_calls heff hresp,
    hcalls]
  rintro ⟨r, st, h⟩
  cases h

end ManagementSensors
