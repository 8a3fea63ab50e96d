import ManagementSensors.Http.QuantumSafeHttp

/-!
# Http/Responses — what the responses of the handlers have in common

Each builder copies `keep_alive` from its request and sets a content type of its own, so that every
response is kept alive as its request is, and has a short head (`made_of_handle`).  Only `success_file`
leaves its content to the write, which reads the file; and only a login whose token cannot be signed
has no response (`login_of_throws`).
-/

namespace ManagementSensors.QuantumSafeHttp

/-- The length of the content a response announces. -/
def Response.contentLength (res : Response) : ℕ :=
  match res.body with
  | .text s => s.toList.length
  | .empty contentLength | .file _ contentLength => contentLength

/-- The longest content that `http::async_read` takes of a response: the parser's own limit. -/
def bodyLimit : ℕ := 8 * 1024 * 1024

/-- A response that announces a content and has none, as `success_head` makes it. -/
def Response.HeadOnly (res : Response) : Prop :=
  match res.body with
  | .empty contentLength => contentLength ≠ 0
  | _ => False

/-- A response whose content is read from a file while it is written, as `success_file` makes it. -/
def Response.FromFile (res : Response) : Prop :=
  match res.body with
  | .file _ _ => True
  | _ => False

instance : ∀ res : Response, Decidable res.FromFile
  | ⟨_, _, _, _, .file _ _⟩ => inferInstanceAs (Decidable True)
  | ⟨_, _, _, _, .text _⟩ | ⟨_, _, _, _, .empty _⟩ => inferInstanceAs (Decidable False)

/-- The content types of the responses. -/
def contentTypes : List String :=
  ["text/html", "text/css", "text/plain", "application/javascript", "application/json", "image/png",
    "image/jpeg", "image/gif", "image/vnd.microsoft.icon", "image/svg+xml", "application/text"]

/-- **A short head**: one of the content types, and no challenge but `Bearer`. -/
structure Response.ShortHead (res : Response) : Prop where
  contentType : res.contentType ∈ contentTypes
  wwwAuthenticate : res.wwwAuthenticate ∈ [none, some "Bearer"]

/-- **A response to a request**, as the handlers make it. -/
structure Made (req : Request) (res : Response) : Prop extends res.ShortHead where
  keepAlive : res.keepAlive = req.keepAlive
  fromFile : res.FromFile → req.method = .get ∧ ¬ isApi req

variable {κ A : Type} {h : Config A} {env : Env κ} {w : World κ A} {req : Request} {res : Response}

/-- A response with a text. -/
theorem made_text {status : Status} {contentType text : String} {wwwAuthenticate : Option String}
    (hcontent : contentType ∈ contentTypes) (hwww : wwwAuthenticate ∈ [none, some "Bearer"]) :
    Made req ⟨status, contentType, wwwAuthenticate, req.keepAlive, .text text⟩ :=
  ⟨⟨hcontent, hwww⟩, rfl, False.elim⟩

theorem mimeType_mem (path : String) : mimeType path ∈ contentTypes := by
  rw [mimeType]
  generalize (if '.' ∈ path.toList then _ else "" : String) = ext
  repeat' split
  all_goals decide

theorem made_handleRequest (hfile : ¬ isApi req) :
    ∃ res, (handleRequest h env w req).response = some res ∧ Made req res := by
  rw [handleRequest]
  split
  case isTrue => exact ⟨_, rfl, made_text (by decide) (by decide)⟩
  case isFalse hmethod =>
    split
    case isTrue => exact ⟨_, rfl, made_text (by decide) (by decide)⟩
    case isFalse =>
      generalize pathCat h.documentRoot req.target ++ _ = path
      dsimp only
      split
      case h_1 | h_2 => exact ⟨_, rfl, made_text (by decide) (by decide)⟩
      case h_3 size _ =>
        refine ⟨_, rfl, ⟨mimeType_mem path, by simp⟩, rfl, fun hfrom => ⟨?_, hfile⟩⟩
        by_contra hget
        have hhead : req.method = .head := not_not.mp fun hne => hmethod ⟨hget, hne⟩
        rw [Response.FromFile, hhead] at hfrom
        exact hfrom

/-- A login has a response, unless signing its token throws. -/
theorem made_handleLogin : (∃ res, (handleLogin h env w req).response = some res ∧ Made req res) ∨
    (handleLogin h env w req).response = none ∧ env.signature = none := by
  rw [handleLogin]
  split
  case h_1 => exact Or.inl ⟨_, rfl, made_text (by decide) (by decide)⟩
  case h_2 =>
    split
    case h_1 => exact Or.inl ⟨_, rfl, made_text (by decide) (by decide)⟩
    case h_2 =>
      split
      case isTrue => exact Or.inl ⟨_, rfl, made_text (by decide) (by decide)⟩
      case isFalse =>
        split
        case h_1 hnone => exact Or.inr ⟨rfl, hnone⟩
        case h_2 => exact Or.inl ⟨_, rfl, made_text (by decide) (by decide)⟩

theorem made_configIp : ∃ res, (configIp h env w req).response = some res ∧ Made req res := by
  rw [configIp]
  split
  case isTrue => exact ⟨_, rfl, made_text (by decide) (by decide)⟩
  case isFalse =>
    split
    case h_1 => exact ⟨_, rfl, made_text (by decide) (by decide)⟩
    case h_2 q _ =>
      generalize configIpCalls h.inet env.calls q w.db w.dispatcher = calls
      obtain ⟨result, db, dispatcher⟩ := calls
      cases result with
      | notGenerated | notAdded => exact ⟨_, rfl, made_text (by decide) (by decide)⟩
      | answered r status =>
        refine ⟨_, rfl, ?_⟩
        rw [configIpResponse]
        split <;> exact made_text (by decide) (by decide)

theorem made_handleApiRequest :
    (∃ res, (handleApiRequest h env w req).response = some res ∧ Made req res) ∨
      (handleApiRequest h env w req).response = none ∧ req.target = "/api/auth/login" ∧
        req.method = .post ∧ env.signature = none := by
  rw [handleApiRequest]
  split
  case isTrue hlogin => exact made_handleLogin.imp_right fun ⟨hnone, hthrows⟩ =>
    ⟨hnone, hlogin.1, hlogin.2, hthrows⟩
  case isFalse =>
    refine Or.inl ?_
    split
    case h_1 => exact ⟨_, rfl, made_text (by decide) (by decide)⟩
    case h_2 =>
      split
      case isTrue => split <;> exact ⟨_, rfl, made_text (by decide) (by decide)⟩
      case isFalse =>
        split
        case isTrue => exact made_configIp
        case isFalse => exact ⟨_, rfl, made_text (by decide) (by decide)⟩

/-- **All that the handlers can do**: make a response to the request, or throw, where signing the token
of a login does. -/
theorem handle_cases (h : Config A) (env : Env κ) (w : World κ A) (req : Request) :
    (∃ res, (handle h env w req).response = some res ∧ Made req res) ∨
      (handle h env w req).response = none ∧ req.target = "/api/auth/login" ∧ req.method = .post ∧
        env.signature = none := by
  rw [handle]
  split
  case isTrue => exact made_handleApiRequest
  case isFalse hfile => exact Or.inl (made_handleRequest hfile)

/-- **Every response is kept alive as its request is**, has a short head, and reads a file only where a
GET that is no API request has asked for it. -/
theorem made_of_handle (hres : (handle h env w req).response = some res) : Made req res := by
  rcases handle_cases h env w req with ⟨res', hres', hmade⟩ | ⟨hnone, -⟩
  · obtain rfl := Option.some.inj (hres.symm.trans hres')
    exact hmade
  · exact absurd (hnone.symm.trans hres) (Option.some_ne_none res).symm

/-- **A handler throws** where signing the token of a login does, and nowhere else. -/
theorem login_of_throws (hthrows : (handle h env w req).response = none) :
    req.target = "/api/auth/login" ∧ req.method = .post ∧ env.signature = none := by
  rcases handle_cases h env w req with ⟨res', hres', -⟩ | ⟨-, hlogin⟩
  · exact absurd (hthrows.symm.trans hres') (Option.some_ne_none res').symm
  · exact hlogin

end ManagementSensors.QuantumSafeHttp
