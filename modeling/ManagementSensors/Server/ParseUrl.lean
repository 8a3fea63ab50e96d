import ManagementSensors.Machinery.Text

/-!
# Server/ParseUrl — where the certificate's OCSP responder is contacted

`parse_url` takes a URL apart by positions.  Host, port and target come out as they went in
(`parseUrl_text`); the scheme does not, `protocol` is set to `"http"` where there is no port and left
empty where there is one.  So the default port of an `https` responder is that of `http`.
-/

open Machinery.Text

namespace ManagementSensors.OcspCache

/-- `URL`. -/
structure Url where
  protocol : List Char := []
  host : List Char := []
  port : Option (List Char) := none
  target : List Char := []
  deriving DecidableEq, Repr

/-- `parse_url`, from its second half on: what stands behind a colon of the host is the port. -/
def Url.splitPort (url : Url) : Url :=
  match find [':'] url.host 0 with
  | none => { url with protocol := "http".toList }
  | some portSep =>
    { url with
      port := some (substr url.host (portSep + 1) none)
      host := substr url.host 0 (some portSep) }

/-- `parse_url`. -/
def parseUrl (urlstr : List Char) : Option Url :=
  match find "://".toList urlstr 0 with
  | none => none
  | some protocolHostSep =>
    let url : Url :=
      match find ['/'] urlstr (protocolHostSep + 3) with
      | none => { host := substr urlstr (protocolHostSep + 3) none, target := ['/'] }
      | some hostTargetSep =>
        { host := substr urlstr (protocolHostSep + 3) (some (hostTargetSep - protocolHostSep - 3))
          target := substr urlstr hostTargetSep none }
    some url.splitPort

/-- The service `fetchOCSPResponse` resolves: `url->port.value_or(…)`. -/
def Url.service (url : Url) : List Char :=
  url.port.getD (if url.protocol = "http".toList then "80".toList else "443".toList)

/-- Where a request goes: the host and service that are resolved, the target that is posted to. -/
structure Contact where
  host : List Char
  service : List Char
  target : List Char
  deriving DecidableEq, Repr

/-- `fetchOCSPResponse`, up to the request: nothing is contacted where the certificate names no
responder, or one that is no URL. -/
def contacted (responder : List Char) : Option Contact :=
  if responder = [] then none
  else (parseUrl responder).map fun url => ⟨url.host, url.service, url.target⟩

/-! ## The URL of a responder -/

/-- The schemes of a responder. -/
inductive Scheme
  | http
  | https
  deriving DecidableEq, Repr

/-- The scheme, as it is written. -/
def Scheme.name : Scheme → List Char
  | .http => "http".toList
  | .https => "https".toList

/-- The port of a scheme. -/
def Scheme.defaultPort : Scheme → List Char
  | .http => "80".toList
  | .https => "443".toList

/-- **The parts of a responder's URL.** -/
structure Responder where
  scheme : Scheme
  host : List Char
  port : Option (List Char)
  target : List Char
  host_ne_nil : host ≠ []
  host_chars : ∀ c ∈ host, c ≠ ':' ∧ c ≠ '/'
  port_digits : ∀ p, port = some p → p ≠ [] ∧ ∀ c ∈ p, c.isDigit = true
  target_slash : target = [] ∨ target.head? = some '/'

namespace Responder

variable (r : Responder)

/-- Host and port, as they are written. -/
def authority : List Char := r.host ++ r.port.elim [] fun p => ':' :: p

/-- The URL. -/
def text : List Char := r.scheme.name ++ ("://".toList ++ (r.authority ++ r.target))

/-- What the URL says. -/
def url : Url := ⟨r.scheme.name, r.host, r.port, if r.target = [] then ['/'] else r.target⟩

/-- Where the URL says that the responder is. -/
def contact : Contact := ⟨r.host, r.port.getD r.scheme.defaultPort, r.url.target⟩

/-! ## Taking it apart -/

theorem colon_notMem_name : ':' ∉ r.scheme.name := by
  cases r.scheme <;> decide

theorem colon_notMem_host : ':' ∉ r.host := fun h => (r.host_chars _ h).1 rfl

theorem slash_notMem_authority : '/' ∉ r.authority := by
  rw [authority, List.mem_append, not_or]
  refine ⟨fun h => (r.host_chars _ h).2 rfl, ?_⟩
  cases hport : r.port with
  | none => exact List.not_mem_nil
  | some p =>
    rw [Option.elim_some, List.mem_cons, not_or]
    exact ⟨by decide, fun h => absurd ((r.port_digits p hport).2 _ h) (by decide)⟩

theorem text_eq : r.text = (r.scheme.name ++ "://".toList) ++ (r.authority ++ r.target) := by
  rw [text, List.append_assoc]

theorem length_protocol : (r.scheme.name ++ "://".toList).length = r.scheme.name.length + 3 :=
  List.length_append

theorem find_protocol : find "://".toList r.text 0 = some r.scheme.name.length := by
  have h := find_append (p := []) (w := "//".toList) (v := r.authority ++ r.target)
    r.colon_notMem_name
  rwa [List.nil_append, List.length_nil, Nat.zero_add] at h

/-- The target starts at the first slash behind the authority. -/
theorem find_target : find ['/'] r.text (r.scheme.name.length + 3) =
    if r.target = [] then none else some (r.scheme.name.length + 3 + r.authority.length) := by
  rw [text_eq, ← length_protocol]
  rcases r.target_slash with hnil | hslash
  · rw [if_pos hnil, hnil, List.append_nil]
    exact find_of_notMem r.slash_notMem_authority
  · obtain ⟨rest, htarget⟩ := List.head?_eq_some_iff.mp hslash
    rw [htarget, if_neg (List.cons_ne_nil _ _)]
    exact find_append r.slash_notMem_authority

/-- The port starts at the first colon of the authority. -/
theorem find_port : find [':'] r.authority 0 = r.port.map fun _ => r.host.length := by
  rw [authority]
  cases r.port with
  | none => exact find_of_notMem (p := []) (by simpa using r.colon_notMem_host)
  | some p => simpa using find_append (p := []) (w := []) (v := p) r.colon_notMem_host

theorem drop_protocol : r.text.drop (r.scheme.name.length + 3) = r.authority ++ r.target := by
  rw [text_eq, ← length_protocol, List.drop_left]

theorem drop_authority :
    r.text.drop (r.scheme.name.length + 3 + r.authority.length) = r.target := by
  rw [← List.drop_drop, drop_protocol, List.drop_left]

/-- Host and port of an authority. -/
theorem splitPort_authority (target : List Char) :
    Url.splitPort { host := r.authority, target := target } =
      ⟨if r.port = none then "http".toList else [], r.host, r.port, target⟩ := by
  rw [Url.splitPort, find_port]
  cases hport : r.port with
  | none => simp [authority, hport]
  | some p =>
    have hauthority : r.authority = r.host ++ ':' :: p := by rw [authority, hport, Option.elim_some]
    have hdrop : (r.host ++ ':' :: p).drop (r.host.length + 1) = p := by
      rw [List.drop_length_add_append, List.drop_succ_cons, List.drop_zero]
    simp [hauthority, substr, hdrop]

/-- **What `parse_url` makes of a responder's URL**: host, port and target are its own. -/
theorem parseUrl_text : parseUrl r.text = some
    ⟨if r.port = none then "http".toList else [], r.host, r.port, r.url.target⟩ := by
  rw [← splitPort_authority, parseUrl, find_protocol]
  simp only [find_target, url]
  by_cases hnil : r.target = []
  · rw [if_pos hnil, if_pos hnil]
    simp only [substr, drop_protocol, hnil, List.append_nil]
  · have hlen : r.scheme.name.length + 3 + r.authority.length - r.scheme.name.length - 3 =
        r.authority.length := by omega
    simp only [if_neg hnil, substr, drop_protocol, drop_authority, hlen, List.take_left]

theorem text_ne_nil : r.text ≠ [] := by
  rw [text]
  cases r.scheme <;> simp [Scheme.name]

theorem contacted_text : contacted r.text = some
    ⟨r.host, r.port.getD "80".toList, r.url.target⟩ := by
  rw [contacted, if_neg r.text_ne_nil, parseUrl_text, Option.map_some, Url.service]
  cases r.port <;> rfl

/-- **The responder is contacted where it is**, unless it is an `https` one without a port. -/
theorem contacted_eq_iff : contacted r.text = some r.contact ↔ r.scheme = .http ∨ r.port ≠ none := by
  rw [contacted_text, contact]
  cases r.port with
  | none => cases r.scheme <;> simp [Scheme.defaultPort]
  | some p => simp

/-- **The parts come back as they went in** exactly where there is no port and the scheme is `http`. -/
theorem parseUrl_eq_iff : parseUrl r.text = some r.url ↔ r.scheme = .http ∧ r.port = none := by
  rw [parseUrl_text, Option.some.injEq, url, Url.mk.injEq]
  cases r.port with
  | none => cases r.scheme <;> simp [Scheme.name]
  | some p => cases r.scheme <;> simp [Scheme.name]

end Responder

/-- **When a responder's URL is parsed faithfully**, and its responder contacted. -/
theorem responder_parsed_iff (r : Responder) :
    (parseUrl r.text = some r.url ∧ contacted r.text = some r.contact) ↔
      r.scheme = .http ∧ r.port = none := by
  rw [r.parseUrl_eq_iff, r.contacted_eq_iff]
  exact and_iff_left_of_imp fun h => Or.inl h.1

/-- A responder with neither port nor target. -/
def secureResponder : Responder where
  scheme := .https
  host := ['a']
  port := none
  target := []
  host_ne_nil := List.cons_ne_nil _ _
  host_chars := List.forall_mem_singleton.mpr ⟨by decide, by decide⟩
  port_digits := fun _ h => by cases h
  target_slash := Or.inl rfl

/-- It is contacted on the port of `http`. -/
theorem not_responder_parsed :
    secureResponder.text = "https://a".toList ∧
      parseUrl secureResponder.text = some ⟨"http".toList, "a".toList, none, ['/']⟩ ∧
      contacted secureResponder.text = some ⟨"a".toList, "80".toList, ['/']⟩ ∧
      ¬ (parseUrl secureResponder.text = some secureResponder.url ∧
        contacted secureResponder.text = some secureResponder.contact) := by
  decide

end ManagementSensors.OcspCache
