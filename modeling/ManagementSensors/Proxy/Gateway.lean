import ManagementSensors.Http.Gate
import ManagementSensors.Http.Responses
import ManagementSensors.Proxy.Errors

/-!
# Proxy/Gateway — the proxy in front of the HTTP server

    frontend ──request──▸ do_session ──keep_alive(true)──▸ handle_session ──▸ handle_request, …
    frontend ◂──keep_alive(false)── do_session ◂──response──

The backend of the proxy is one session of the server.  A run of the two is a run of each
(`proxy_run`, `server_run`), so that a frontend receives what the handlers make of its own request
(`gateway_serves`).  As every request is kept alive on its way, and every response as its request is,
the server closes the connection they all share only where signing a login throws, or where the content
of a file cannot be read while it is written, as that of a directory cannot (`gateway_keeps`).
-/

open Machinery Function

namespace ManagementSensors

/-! ## The two together -/

namespace Gateway

open Proxy (Beast Own)
open QuantumSafeHttp (Config Env Request Response Session World bodyLimit)

/-- **The wire between proxy and server**: a request as the handlers see it, the bytes a response is
written as, with the files as they are, and what the proxy's parser makes of them.  It waits for a
content that is announced, and refuses one that is over its limit. -/
structure Wire (Req Res : Type) extends Beast Req Res where
  request : Req → Request
  writeResponse : Response → List UInt8
  seen : Response → Res
  keepAlive_request : ∀ req, (request (requestKeepAlive true req)).keepAlive = true
  readResponse_short : ∀ res, res.ShortHead → res.contentLength ≤ bodyLimit → ∀ u,
    u <+: writeResponse res → u ≠ writeResponse res → readResponse u = .more
  readResponse_write : ∀ res, res.ShortHead → res.contentLength ≤ bodyLimit → ¬ res.HeadOnly →
    readResponse (writeResponse res) = .done (seen res)
  readResponse_head : ∀ res, res.ShortHead → res.contentLength ≤ bodyLimit → res.HeadOnly →
    readResponse (writeResponse res) = .more
  readResponse_over : ∀ res, res.ShortHead → bodyLimit < res.contentLength → ∀ u,
    u <+: writeResponse res → ∀ m, readResponse u ≠ .done m

variable {κ Req Res ω A : Type}

structure State (κ Req ω A : Type) where
  proxy : Proxy.State κ Req := {}
  server : Session ω A

/-- A step of the proxy; the server reads a request and writes its response, to its end or up to the
byte at which the write throws; its world changes; its connection fails. -/
inductive Input (κ Req ω A : Type)
  | proxy (i : Proxy.Input κ Req)
  | serve (n : ℕ) (env : Env ω) (cut : Option ℕ)
  | elsewhere (w : World ω A)
  | serverFails

/-- What is seen: of the proxy, or of the server as it answers a request that sessions have written. -/
inductive Event (κ Req Res ω A : Type)
  | proxy (e : Proxy.Event κ Req Res)
  | served (owners : List κ) (req : Req) (e : QuantumSafeHttp.Event ω A) (cut : Option ℕ)

/-- The bytes of a response; an exception of a handler leaves none. -/
def Wire.written (W : Wire Req Res) (response : Option Response) : List UInt8 :=
  (response.map W.writeResponse).getD []

/-- The bytes that the server writes of it. -/
def Wire.sent (W : Wire Req Res) (response : Option Response) : Option ℕ → List UInt8
  | none => W.written response
  | some m => (W.written response).take m

/-- A write that throws has not come to its end. -/
def Wire.CutShort (W : Wire Req Res) (response : Option Response) : Option ℕ → Prop
  | none => True
  | some m => m < (W.written response).length

instance (W : Wire Req Res) (response : Option Response) : ∀ cut, Decidable (W.CutShort response cut)
  | none => inferInstanceAs (Decidable True)
  | some m => inferInstanceAs (Decidable (m < (W.written response).length))

/-- **One step.**  The answers of the backend are the server's; an exception of a handler or of a write
ends its session. -/
def step [DecidableEq κ] (W : Wire Req Res) (h : Config A) (s : State κ Req ω A) :
    Input κ Req ω A → Option (State κ Req ω A × Option (Event κ Req Res ω A))
  | .proxy (.answer _ _) => none
  | .proxy i => (Proxy.step W.toBeast s.proxy i).map fun p => ({ s with proxy := p.1 }, p.2.map .proxy)
  | .serve n env cut =>
    match W.requestEnd (s.proxy.wire.map Prod.snd) n with
    | none => none
    | some req =>
      let reply := QuantumSafeHttp.handle h env s.server.world (W.request req)
      if s.server.live ∧ W.CutShort reply.response cut then
        let owners := (s.proxy.wire.take n).map Prod.fst
        some (⟨{ s.proxy with
            wire := s.proxy.wire.drop n
            inbox := s.proxy.inbox ++ (W.sent reply.response cut).map fun b => (owners, b) },
          ⟨reply.world, cut.isNone && reply.response.any Response.keepAlive⟩⟩,
          some (.served owners req ⟨W.request req, env, s.server.world, reply⟩ cut))
      else none
  | .elsewhere w => some ({ s with server := { s.server with world := w } }, none)
  | .serverFails => some ({ s with server := { s.server with live := false } }, none)

/-- The proxy with this server as its backend. -/
def machine [DecidableEq κ] (W : Wire Req Res) (h : Config A) :
    Machine (State κ Req ω A) (Input κ Req ω A) (Event κ Req Res ω A) := ⟨step W h⟩

/-- **Frontends one after the other**, and a session that fails leaves nothing on the stream. -/
def InTurn (W : Wire Req Res) : Guard (State κ Req ω A) (Input κ Req ω A) (Event κ Req Res ω A) :=
  fun _ s i =>
    match i with
    | .proxy i => Proxy.Sequential ([] : List (Proxy.Event κ Req Res)) s.proxy i ∧
        Proxy.Clean W.toBeast [] s.proxy i
    | _ => True

/-- What is seen of the proxy. -/
def proxyEvent (W : Wire Req Res) : Event κ Req Res ω A → Option (Proxy.Event κ Req Res)
  | .proxy e => some e
  | .served owners req e cut => some (.answered owners req (W.sent e.reply.response cut))

/-- What is seen of the server. -/
def serverEvent : Event κ Req Res ω A → Option (QuantumSafeHttp.Event ω A)
  | .proxy _ => none
  | .served _ _ e _ => some e

/-! ## A file of one letter -/

/-- The head of a response with a content of one letter. -/
def letterHead : List UInt8 := Proxy.ascii
  "HTTP/1.1 200 OK\r\nServer: Botan 3.7.1\r\nContent-Type: application/text\r\nContent-Length: 1\r\n\r\n"

/-- The response with that content. -/
def letterResponse (content : UInt8) : List UInt8 := letterHead ++ [content]

/-- The head of a response with a content that is over the limit. -/
def letterLarge : List UInt8 := Proxy.ascii
  "HTTP/1.1 200 OK\r\nServer: Botan 3.7.1\r\nContent-Type: image/png\r\nContent-Length: 9000000\r\n\r\n"

/-- What the server writes: the content is `A`, unless it is only announced. -/
def letterWritten (res : Response) : List UInt8 :=
  if bodyLimit < res.contentLength then letterLarge
  else
    match res.body with
    | .empty (_ + 1) => letterHead
    | _ => letterResponse 65

theorem letterWritten_of_headOnly {res : Response} (hlimit : res.contentLength ≤ bodyLimit)
    (h : res.HeadOnly) : letterWritten res = letterHead := by
  rw [QuantumSafeHttp.Response.HeadOnly] at h
  split at h
  case h_1 n hn =>
    obtain ⟨m, rfl⟩ := Nat.exists_eq_succ_of_ne_zero h
    rw [letterWritten, if_neg (not_lt.mpr hlimit), hn]
  case h_2 => exact h.elim

theorem letterWritten_of_not {res : Response} (hlimit : res.contentLength ≤ bodyLimit)
    (h : ¬ res.HeadOnly) : letterWritten res = letterResponse 65 := by
  rw [letterWritten, if_neg (not_lt.mpr hlimit)]
  split
  case h_1 hbody => simp [QuantumSafeHttp.Response.HeadOnly, hbody] at h
  case h_2 => rfl

/-- The reader of a response: it knows a content of one letter, and keeps the connection. -/
def letterRead (u : List UInt8) : Proxy.Parsed (UInt8 × Bool) :=
  (Proxy.parseFrame letterResponse 92 91 u).map fun content => (content, true)

theorem letterRead_nil : letterRead [] = .more := rfl

theorem letterRead_append (u v : List UInt8) (res : UInt8 × Bool) (h : letterRead u = .done res) :
    letterRead (u ++ v) = .done res := by
  rw [letterRead] at h ⊢
  cases hu : Proxy.parseFrame letterResponse 92 91 u <;> simp only [hu, Proxy.Parsed.map] at h <;>
    cases h
  rw [Proxy.parseFrame_append (by decide) v hu, Proxy.Parsed.map]

theorem length_letterWritten {res : Response} (hlimit : res.contentLength ≤ bodyLimit) :
    (letterWritten res).length ≤ 92 := by
  by_cases hhead : res.HeadOnly
  · rw [letterWritten_of_headOnly hlimit hhead]
    decide
  · rw [letterWritten_of_not hlimit hhead]
    decide

theorem letterRead_short (res : Response) (_ : res.ShortHead) (hlimit : res.contentLength ≤ bodyLimit)
    (u : List UInt8) (hu : u <+: letterWritten res) (hne : u ≠ letterWritten res) :
    letterRead u = .more := by
  have hlen := length_letterWritten hlimit
  have hlt : u.length ≠ (letterWritten res).length := fun he => hne (hu.eq_of_length he)
  have hle := hu.length_le
  rw [letterRead, Proxy.parseFrame, if_pos (by omega), Proxy.Parsed.map]

theorem letterRead_write (res : Response) (_ : res.ShortHead) (hlimit : res.contentLength ≤ bodyLimit)
    (hhead : ¬ res.HeadOnly) : letterRead (letterWritten res) = .done (65, true) := by
  have hframe : Proxy.parseFrame letterResponse 92 91 (letterResponse 65) = .done 65 :=
    Proxy.parseFrame_frame rfl rfl
  rw [letterWritten_of_not hlimit hhead, letterRead, hframe, Proxy.Parsed.map]

theorem letterRead_head (res : Response) (_ : res.ShortHead) (hlimit : res.contentLength ≤ bodyLimit)
    (hhead : res.HeadOnly) : letterRead (letterWritten res) = .more := by
  rw [letterWritten_of_headOnly hlimit hhead]
  rfl

theorem letterRead_over (res : Response) (_ : res.ShortHead) (hover : bodyLimit < res.contentLength)
    (u : List UInt8) (hu : u <+: letterWritten res) (m : UInt8 × Bool) : letterRead u ≠ .done m := by
  rw [letterWritten, if_pos hover] at hu
  rw [letterRead, Proxy.parseFrame]
  by_cases hlen : u.length < 92
  · rw [if_pos hlen]
    intro h
    cases h
  · -- its length is not that of a letter
    have htake : u.take 92 = letterLarge.take 92 := by
      rw [List.prefix_iff_eq_take.mp hu, List.take_take, min_eq_left (by omega)]
    have hframe : ∀ b, letterLarge.take 92 ≠ letterResponse b := fun b he => by
      have hhead : (letterLarge.take 92).take 91 = letterHead := by
        rw [he]
        exact List.take_left' rfl
      exact absurd hhead (by decide)
    rw [if_neg hlen, htake, if_neg (hframe _)]
    intro h
    cases h

/-- The request of a page. -/
def letterRequest (name : UInt8) : Request :=
  ⟨.get, String.ofList ['/', Char.ofNat name.toNat], [], true, ""⟩

theorem keepAlive_letterRequest (name : UInt8) : (letterRequest name).keepAlive = true := rfl

/-- **The wire, for pages of one letter.** -/
def letterWire : Wire UInt8 (UInt8 × Bool) where
  toBeast := { Proxy.pages with
    readResponse := letterRead
    readResponse_nil := letterRead_nil
    readResponse_append := letterRead_append }
  request := letterRequest
  writeResponse := letterWritten
  seen _ := (65, true)
  keepAlive_request := keepAlive_letterRequest
  readResponse_short := letterRead_short
  readResponse_write := letterRead_write
  readResponse_head := letterRead_head
  readResponse_over := letterRead_over

/-- The file `/srv/a` is there, and no other. -/
def oneFile : Env Unit :=
  { QuantumSafeHttp.quietEnv with
    files := fun path => if path = "/srv/a" then .opened 1 else .noSuchFile }

/-- `/srv/.` opens, and cannot be read. -/
def theDirectory : Env Unit :=
  { QuantumSafeHttp.quietEnv with
    files := fun path => if path = "/srv/." then .opened 4096 else .noSuchFile }

/-- A frontend asks for the file. -/
def asksForA : List (Input Bool UInt8 Unit Addr) :=
  [.proxy (.accept false), .proxy (.request false 97), .proxy (.writeSome false 19),
    .serve 19 oneFile none, .proxy (.readSome false 92), .proxy (.reply false)]

/-- A frontend asks for the directory. -/
def asksForDirectory : List (Input Bool UInt8 Unit Addr) :=
  [.proxy (.accept false), .proxy (.request false 46), .proxy (.writeSome false 19),
    .serve 19 theDirectory (some 0), .proxy (.fails false)]

/-- It has received the file. -/
def receivedA : Event Bool UInt8 (UInt8 × Bool) Unit Addr → Bool
  | .proxy (.received k res) => !k && res = (65, false)
  | _ => false

instance (τ : List (Event Bool UInt8 (UInt8 × Bool) Unit Addr)) (s : State Bool UInt8 Unit Addr) :
    ∀ i, Decidable (InTurn letterWire τ s i)
  | .proxy i => inferInstanceAs (Decidable (Proxy.Sequential _ s.proxy i ∧
      Proxy.Clean letterWire.toBeast [] s.proxy i))
  | .serve _ _ _ | .elsewhere _ | .serverFails => inferInstanceAs (Decidable True)

section Model

variable [DecidableEq κ] {W : Wire Req Res} {h : Config A} {s t : State κ Req ω A}
  {i : Input κ Req ω A} {o : Option (Event κ Req Res ω A)} {τ : List (Event κ Req Res ω A)}

/-- **All that a step can do**: a step of the proxy, a request served, or neither. -/
inductive StepCases (W : Wire Req Res) (h : Config A) (s : State κ Req ω A) :
    Input κ Req ω A → State κ Req ω A → Option (Event κ Req Res ω A) → Prop
  | proxy {i : Proxy.Input κ Req} {p : Proxy.State κ Req} {e : Option (Proxy.Event κ Req Res)}
      (hi : ∀ n bytes, i ≠ .answer n bytes) (hstep : Proxy.step W.toBeast s.proxy i = some (p, e)) :
      StepCases W h s (.proxy i) { s with proxy := p } (e.map .proxy)
  | serve {n : ℕ} {env : Env ω} {cut : Option ℕ} {req : Req} {owners : List κ}
      {p : Proxy.State κ Req} {e : QuantumSafeHttp.Event ω A} (hlive : s.server.live = true)
      (hend : W.requestEnd (s.proxy.wire.map Prod.snd) n = some req)
      (he : e = ⟨W.request req, env, s.server.world,
        QuantumSafeHttp.handle h env s.server.world (W.request req)⟩)
      (hcut : W.CutShort e.reply.response cut)
      (hstep : Proxy.step W.toBeast s.proxy (.answer n (W.sent e.reply.response cut)) =
        some (p, some (.answered owners req (W.sent e.reply.response cut)))) :
      StepCases W h s (.serve n env cut)
        ⟨p, ⟨e.reply.world, cut.isNone && e.reply.response.any Response.keepAlive⟩⟩
        (some (.served owners req e cut))
  | elsewhere (w : World ω A) :
      StepCases W h s (.elsewhere w) { s with server := { s.server with world := w } } none
  | serverFails :
      StepCases W h s .serverFails { s with server := { s.server with live := false } } none

theorem step_cases (hstep : step W h s i = some (t, o)) : StepCases W h s i t o := by
  cases i with
  | proxy i =>
    cases i with
    | answer n bytes => cases hstep
    | accept | request | writeSome | readSome | reply | fails =>
      simp only [step, Option.map_eq_some_iff, Prod.mk.injEq] at hstep
      obtain ⟨⟨p, e⟩, hproxy, rfl, rfl⟩ := hstep
      exact .proxy nofun hproxy
  | serve n env cut =>
    simp only [step] at hstep
    split at hstep
    case h_1 => cases hstep
    case h_2 req hend =>
      split at hstep <;> cases hstep
      case isTrue hserve =>
        refine .serve hserve.1 hend rfl hserve.2 ?_
        simp only [Proxy.step, hend]
  | elsewhere w =>
    cases hstep
    exact .elsewhere w
  | serverFails =>
    cases hstep
    exact .serverFails

/-! ## What is seen of each -/

/-- A response is not complete before its end, whether it is within the limit or not. -/
theorem not_isComplete_of_short (W : Wire Req Res) {res : Response} (hres : res.ShortHead)
    {u : List UInt8} (hu : u <+: W.writeResponse res) (hne : u ≠ W.writeResponse res) :
    W.isComplete u = false := by
  rw [Beast.isComplete]
  rcases Nat.lt_or_ge bodyLimit res.contentLength with hover | hlimit
  · have hnot := W.readResponse_over res hres hover u hu
    cases hread : W.readResponse u with
    | done m => exact absurd hread (hnot m)
    | more | error => rfl
  · rw [W.readResponse_short res hres hlimit u hu hne]
    rfl

/-- What is sent of a response is one response to the proxy, if it is one at all. -/
theorem oneResponse_sent (W : Wire Req Res) {response : Option Response}
    (hres : ∀ res, response = some res → res.ShortHead) (cut : Option ℕ) :
    Proxy.OneResponse W.toBeast (W.sent response cut) := by
  intro m hm
  have hprefix : W.sent response cut <+: W.written response := by
    cases cut with
    | none => exact List.prefix_rfl
    | some m => exact List.take_prefix m _
  have hlen := hprefix.length_le
  cases response with
  | none => exact absurd (hm.trans_le hlen) (Nat.not_lt_zero m)
  | some res =>
    refine not_isComplete_of_short W (hres res rfl) ((List.take_prefix m _).trans hprefix) fun he => ?_
    have hwhole := congrArg List.length he
    rw [List.length_take] at hwhole
    change _ = (W.written (some res)).length at hwhole
    omega

/-- A step of the two is a step of the proxy, before a backend that is up, or none. -/
theorem proxy_step (hC : InTurn W τ s i) (hstep : step W h s i = some (t, o)) :
    (t.proxy = s.proxy ∧ o.bind (proxyEvent W) = none) ∨
      ∃ i', Proxy.CleanSequence W.toBeast (τ.filterMap (proxyEvent W)) s.proxy i' ∧
        Proxy.step W.toBeast s.proxy i' = some (t.proxy, o.bind (proxyEvent W)) := by
  cases step_cases hstep with
  | @proxy i p e hi hproxy =>
    refine Or.inr ⟨i, ⟨⟨?_, ?_⟩, ?_⟩, ?_⟩
    · exact hC.1
    · cases i with
      | answer n bytes => exact absurd rfl (hi n bytes)
      | accept | request | writeSome | readSome | reply | fails => trivial
    · exact hC.2
    · rw [Option.bind_map]
      cases e <;> exact hproxy
  | @serve n env cut req owners p e hlive hend he hcut hproxy =>
    subst he
    exact Or.inr ⟨.answer n _, ⟨⟨trivial, oneResponse_sent W (fun res hres =>
      (QuantumSafeHttp.made_of_handle hres).toShortHead) cut⟩, trivial⟩, hproxy⟩
  | elsewhere w => exact Or.inl ⟨rfl, rfl⟩
  | serverFails => exact Or.inl ⟨rfl, rfl⟩

/-- **A run of the two is a run of the proxy** before a backend that is up. -/
theorem proxy_run {s₀ : State κ Req ω A} (hrun : (machine W h).Run (InTurn W) s₀ τ s) :
    (Proxy.proxy W.toBeast).Run (Proxy.CleanSequence W.toBeast) s₀.proxy
      (τ.filterMap (proxyEvent W)) s.proxy :=
  hrun.project State.proxy (proxyEvent W) fun _ _ _ _ _ _ hC hstep => proxy_step hC hstep

/-- **A run of the two is a run of a session of the server**, in which a write that breaks off fails
after its request. -/
theorem server_run {s₀ : State κ Req ω A} (hrun : (machine W h).Run (InTurn W) s₀ τ s) :
    (QuantumSafeHttp.machine ω h).Run Guard.free s₀.server (τ.filterMap serverEvent) s.server := by
  refine hrun.invariant
    (I := fun τ s => (QuantumSafeHttp.machine ω h).Run Guard.free s₀.server
      (τ.filterMap serverEvent) s.server) .nil fun τ s i t o hserver _ hstep => ?_
  rw [List.filterMap_append]
  cases step_cases hstep with
  | @proxy i p e hi hproxy =>
    have hnone : (e.map Event.proxy).toList.filterMap (serverEvent (κ := κ) (ω := ω) (A := A)) = [] := by
      cases e <;> rfl
    rw [hnone, List.append_nil]
    exact hserver
  | @serve n env cut req owners p e hlive hend he hcut hproxy =>
    have hrequest : (QuantumSafeHttp.machine ω h).step s.server (.request (W.request req) env) =
        some (⟨e.reply.world, e.reply.response.any Response.keepAlive⟩, some e) := by
      rw [he]
      simp [QuantumSafeHttp.machine, hlive]
    have hserved := hserver.concat trivial hrequest
    cases cut with
    | none => exact hserved
    | some m =>
      have hfails := hserved.snoc (i := .fails) (o := none) trivial rfl
      rwa [Option.toList_none, List.append_nil] at hfails
  | elsewhere w => simpa using hserver.snoc (i := .elsewhere w) trivial rfl
  | serverFails => simpa using hserver.snoc (i := .fails) trivial rfl

/-! ## What a frontend receives -/

/-- **Served**: what a frontend receives is the server's response to the request of that frontend,
written to its end; a response without its content, or with one over the limit, is not received. -/
def Served (W : Wire Req Res) (h : Config A) (τ : List (Event κ Req Res ω A)) :
    Event κ Req Res ω A → Prop
  | .proxy (.received k res) => ∃ req owners env w reply response,
      .proxy (.asked k req) ∈ τ ∧
      .served owners (W.requestKeepAlive true req)
        ⟨W.request (W.requestKeepAlive true req), env, w, reply⟩ none ∈ τ ∧ Own k owners ∧
      reply = QuantumSafeHttp.handle h env w (W.request (W.requestKeepAlive true req)) ∧
      reply.response = some response ∧ ¬ response.HeadOnly ∧ response.contentLength ≤ bodyLimit ∧
      res = W.responseKeepAlive false (W.seen response)
  | _ => True

/-- The answers are the server's, and are what its handlers make of the requests. -/
def Handled (W : Wire Req Res) (h : Config A) : Event κ Req Res ω A → Prop
  | .served _ req e cut => e.req = W.request req ∧
      e.reply = QuantumSafeHttp.handle h e.env e.before e.req ∧ W.CutShort e.reply.response cut
  | .proxy (.answered _ _ _) => False
  | .proxy _ => True

/-- No session answers. -/
theorem ne_answered {P : Beast Req Res} {p p' : Proxy.State κ Req} {i : Proxy.Input κ Req}
    {e : Proxy.Event κ Req Res} (hi : ∀ n bytes, i ≠ .answer n bytes)
    (hstep : Proxy.step P p i = some (p', some e)) (owners : List κ) (req : Req) (bytes : List UInt8) :
    e ≠ .answered owners req bytes := by
  rintro rfl
  cases i with
  | answer n bytes => exact hi n bytes rfl
  | accept => cases (Proxy.step_accept hstep).2.2
  | request => cases (Proxy.step_request hstep).2.1
  | writeSome =>
    obtain ⟨_, _, _, _, _, ho, _⟩ := Proxy.step_writeSome hstep
    cases ho
  | readSome =>
    obtain ⟨_, _, _, _, _, _, ho, _⟩ := Proxy.step_readSome hstep
    cases ho
  | reply =>
    obtain ⟨_, _, _, _, _, ho, _⟩ := Proxy.step_reply hstep
    cases ho
  | fails => cases (Proxy.step_fails hstep).2

theorem handled {s₀ : State κ Req ω A} {C : Guard (State κ Req ω A) (Input κ Req ω A)
    (Event κ Req Res ω A)} (hrun : (machine W h).Run C s₀ τ s) : ∀ e ∈ τ, Handled W h e := by
  refine always_const_iff.mp (hrun.always (I := fun _ _ => True) trivial
    (fun _ _ _ _ _ _ _ _ => trivial) fun τ s i t e _ _ hstep => ?_)
  generalize ho : some e = o at hstep
  cases step_cases hstep with
  | @proxy i p e' hi hproxy =>
    cases e' with
    | none => cases ho
    | some e' =>
      cases ho
      have hne := ne_answered hi hproxy
      cases e' with
      | answered owners req bytes => exact hne owners req bytes rfl
      | asked | took | received => trivial
  | @serve n env cut req owners p e' hlive hend he hcut hproxy =>
    cases ho
    subst he
    exact ⟨rfl, rfl, hcut⟩
  | elsewhere | serverFails => cases ho

/-- **Bytes on the stream have a session that is about them**, at its write or at its read. -/
def Attended (P : Beast Req Res) (s : Proxy.State κ Req) : Prop :=
  s.wire ≠ [] → ∃ k, P.current (s.phase k) ≠ none

/-- A step of a clean sequence leaves no bytes unattended. -/
theorem attended_step {P : Beast Req Res} {p p' : Proxy.State κ Req} {σ : List (Proxy.Event κ Req Res)}
    {i : Proxy.Input κ Req} {o : Option (Proxy.Event κ Req Res)} (hB : Proxy.Boundary P σ p)
    (h : Attended P p) (hC : Proxy.CleanSequence P σ p i)
    (hstep : Proxy.step P p i = some (p', o)) : Attended P p' := by
  -- a session that was at neither gives way to no other
  have hput : ∀ {k : κ} {q : Proxy.Phase Req}, p'.phase = Function.update p.phase k q →
      p'.wire = p.wire → P.current (p.phase k) = none → Attended P p' := by
    intro k q hphase hwire hk hne
    obtain ⟨j, hj⟩ := h (hwire ▸ hne)
    have hjk : j ≠ k := by
      rintro rfl
      exact hj hk
    exact ⟨j, by rwa [hphase, Function.update_of_ne hjk]⟩
  cases i with
  | accept k =>
    obtain ⟨hphase, rfl, -⟩ := Proxy.step_accept hstep
    exact hput (k := k) rfl rfl (by rw [hphase]; rfl)
  | request k req =>
    obtain ⟨hphase, -, rfl⟩ := Proxy.step_request hstep
    exact hput (k := k) rfl rfl (by rw [hphase]; rfl)
  | writeSome k n =>
    obtain ⟨req, rest, -, -, -, -, rfl⟩ := Proxy.step_writeSome hstep
    refine fun _ => ⟨k, ?_⟩
    simp [Proxy.current_asyncWrite]
  | answer n bytes =>
    obtain ⟨req, -, -, rfl⟩ := Proxy.step_answer hstep
    exact fun hne => h fun hnil => hne (by simp [hnil])
  | readSome k n =>
    obtain ⟨req, beBuf, hphase, hmore, hn, hle, -, rfl⟩ := Proxy.step_readSome hstep
    have hcur : P.current (p.phase k) = some (req, [], beBuf) := by
      rw [hphase, Beast.current, if_pos hmore]
    obtain ⟨owners, unread, hwire, -, -, -⟩ := (hB.stage k _ _ _ hcur).unread_of_lt (by omega)
    exact fun hne => absurd hwire hne
  | reply k =>
    obtain ⟨req, beBuf, res, hphase, hdone, -, rfl⟩ := Proxy.step_reply hstep
    refine hput (k := k) rfl rfl ?_
    rw [hphase, Beast.current, hdone]
    rfl
  | fails k =>
    obtain ⟨rfl, -⟩ := Proxy.step_fails hstep
    by_cases hcur : P.current (p.phase k) = none
    · exact hput (k := k) rfl rfl hcur
    · have hidle : ∀ j, j ≠ k → P.isMidway (p.phase j) = false := fun j hjk => by
        by_contra hmid
        rw [Bool.not_eq_false] at hmid
        exact hjk (hB.active j k (Proxy.isActive_of_isMidway hmid)
          (Proxy.isActive_of_isMidway (Proxy.isMidway_of_current hcur)))
      exact fun hne => absurd (hB.empty_fails hC.2 hidle).1 hne

/-- **What the backend reads is kept alive**: a request of a frontend, as its session forwards it. -/
theorem exists_asked_of_answer {P : Beast Req Res} {p p' : Proxy.State κ Req}
    {σ : List (Proxy.Event κ Req Res)} {n : ℕ} {bytes : List UInt8} {owners : List κ} {req : Req}
    (hB : Proxy.Boundary P σ p) (h : Attended P p)
    (hstep : Proxy.step P p (.answer n bytes) = some (p', some (.answered owners req bytes))) :
    ∃ k asked, .asked k asked ∈ σ ∧ req = P.requestKeepAlive true asked := by
  obtain ⟨req', hend, ho, -⟩ := Proxy.step_answer hstep
  cases ho
  have hwire : p.wire ≠ [] := by
    intro hnil
    have hread := (Proxy.requestEnd_eq_some hend).2
    rw [hnil, List.map_nil, List.take_nil, P.readRequest_nil] at hread
    cases hread
  obtain ⟨k, hcur⟩ := h hwire
  obtain ⟨⟨kept, rest, beBuf⟩, hcur⟩ := Option.ne_none_iff_exists'.mp hcur
  obtain ⟨rfl, -⟩ := (hB.stage k _ _ _ hcur).of_requestEnd hend
  have hrequest : (p.phase k).request? = some req := by
    cases hphase : p.phase k with
    | writingRequest r rest' =>
      rw [hphase] at hcur
      cases hcur
      rfl
    | readingResponse r buf =>
      rw [hphase, Beast.current] at hcur
      split at hcur <;> cases hcur
      rfl
    | fresh | readingRequest | «over» =>
      rw [hphase] at hcur
      cases hcur
  obtain ⟨asked, hasked, hkept⟩ := hB.asked k req hrequest
  exact ⟨k, asked, hasked, hkept⟩

/-- **A request ends the session of the server** where its handler throws, or the write of its
response. -/
def Ends : Event κ Req Res ω A → Prop
  | .served _ _ e cut => e.reply.response = none ∨ cut ≠ none
  | .proxy _ => False

/-- A login whose token cannot be signed. -/
def Unsigned : Event κ Req Res ω A → Prop
  | .served _ _ e _ => e.req.target = "/api/auth/login" ∧ e.req.method = .post ∧ e.env.signature = none
  | .proxy _ => False

/-- A file whose content cannot be read to its end. -/
def Unreadable : Event κ Req Res ω A → Prop
  | .served _ _ e cut => cut ≠ none ∧ e.req.method = .get ∧ ¬ QuantumSafeHttp.isApi e.req
  | .proxy _ => False

/-- The connection of the server does not fail: a write throws where it reads a file, if at all. -/
def Connected (W : Wire Req Res) (h : Config A) : Guard (State κ Req ω A) (Input κ Req ω A)
    (Event κ Req Res ω A) := fun τ s i =>
  match i with
  | .serverFails => False
  | .serve n env (some _) => ∃ req ∈ W.requestEnd (s.proxy.wire.map Prod.snd) n,
      ∃ res ∈ (QuantumSafeHttp.handle h env s.server.world (W.request req)).response, res.FromFile
  | i => InTurn W τ s i

/-- The stream between two sessions of the proxy, and the bytes on it. -/
theorem boundary_step (hproxies : Proxy.Boundary W.toBeast (τ.filterMap (proxyEvent W)) s.proxy ∧
    Attended W.toBeast s.proxy) (hC : InTurn W τ s i) (hstep : (machine W h).step s i = some (t, o)) :
    Proxy.Boundary W.toBeast ((τ ++ o.toList).filterMap (proxyEvent W)) t.proxy ∧
      Attended W.toBeast t.proxy := by
  have hev : (τ ++ o.toList).filterMap (proxyEvent W) =
      τ.filterMap (proxyEvent W) ++ (o.bind (proxyEvent W)).toList := by
    cases o with
    | none => simp
    | some e => cases he : proxyEvent W e <;> simp [he]
  rw [hev]
  rcases proxy_step hC hstep with ⟨hp, ho⟩ | ⟨i', hC', hstep'⟩
  · rw [hp, ho]
    simpa using hproxies
  · exact ⟨hproxies.1.step hC' hstep', attended_step hproxies.1 hproxies.2 hC' hstep'⟩

/-- The session of the server is live while no request has ended it; only a login that is not signed
and a file that is not read do. -/
def Kept (τ : List (Event κ Req Res ω A)) (s : State κ Req ω A) : Prop :=
  (s.server.live = true ↔ ∀ e ∈ τ, ¬ Ends e) ∧ ∀ e ∈ τ, Ends e → Unsigned e ∨ Unreadable e

omit [DecidableEq κ] in
/-- What ends no session changes nothing. -/
theorem Kept.concat (hkept : Kept τ s) (hlive : t.server.live = s.server.live)
    (ho : ∀ e, o = some e → ¬ Ends e) : Kept (τ ++ o.toList) t := by
  cases o with
  | none => simpa [Kept, hlive] using hkept
  | some e =>
    have he := ho e rfl
    rw [Kept, hlive, hkept.1, Option.toList_some]
    refine ⟨?_, fun e' he' hends => ?_⟩
    · rw [List.forall_mem_append, List.forall_mem_singleton]
      exact (and_iff_left he).symm
    · rcases List.mem_append.mp he' with he' | he'
      · exact hkept.2 e' he' hends
      · rw [List.mem_singleton.mp he'] at hends
        exact absurd hends he

/-- A request that is served is kept alive, and so is its response. -/
theorem Kept.step (hkept : Kept τ s)
    (hproxies : Proxy.Boundary W.toBeast (τ.filterMap (proxyEvent W)) s.proxy ∧
      Attended W.toBeast s.proxy) (hC : Connected W h τ s i)
    (hstep : (machine W h).step s i = some (t, o)) : Kept (τ ++ o.toList) t := by
  cases step_cases hstep with
  | @proxy i p e =>
    refine hkept.concat rfl fun e' he' => ?_
    obtain ⟨_, _, rfl⟩ := Option.map_eq_some_iff.mp he'
    exact id
  | elsewhere w => exact hkept.concat rfl fun e he => absurd he.symm (Option.some_ne_none e)
  | serverFails => exact hC.elim
  | @serve n env cut req owners p e hlive hend he hcut hproxy =>
    obtain ⟨k, asked, -, rfl⟩ := exists_asked_of_answer hproxies.1 hproxies.2 hproxy
    have hnone := hkept.1.mp hlive
    refine ⟨?_, fun e' he' hends => ?_⟩
    · have hnew : (cut.isNone && e.reply.response.any Response.keepAlive) = true ↔
          ¬ (e.reply.response = none ∨ cut ≠ none) := by
        cases hres : e.reply.response with
        | none => simp
        | some res =>
          subst he
          have hkeep : res.keepAlive = true :=
            (QuantumSafeHttp.made_of_handle hres).keepAlive.trans (W.keepAlive_request asked)
          simp [hkeep]
      rw [Option.toList_some, List.forall_mem_append, List.forall_mem_singleton, and_iff_right hnone]
      exact hnew
    · rcases List.mem_append.mp he' with he' | he'
      · exact absurd hends (hnone e' he')
      obtain rfl := List.mem_singleton.mp he'
      subst he
      rcases hends with hthrew | hne
      · exact Or.inl (QuantumSafeHttp.login_of_throws hthrew)
      · -- a write that throws reads a file
        obtain ⟨m, rfl⟩ := Option.ne_none_iff_exists'.mp hne
        obtain ⟨req', hend', res, hres, hfrom⟩ := hC
        obtain rfl := Option.some.inj (hend.symm.trans hend')
        exact Or.inr ⟨hne, (QuantumSafeHttp.made_of_handle hres).fromFile hfrom⟩

omit [DecidableEq κ] in
theorem Connected.inTurn (hC : Connected W h τ s i) : InTurn W τ s i := by
  cases i with
  | serverFails => exact hC.elim
  | serve | elsewhere => trivial
  | proxy => exact hC

/-- **No frontend makes the server close the connection** by asking for it: whatever they ask, the
session of the server goes on exactly while no request has ended it, and only a login whose token
cannot be signed does, or a GET of a file that cannot be read to its end. -/
theorem gateway_keeps (W : Wire Req Res) (h : Config A) (w : World ω A)
    (hrun : (machine W h).Run (Connected W h) ⟨{}, ⟨w, true⟩⟩ τ s) :
    (s.server.live = true ↔ ∀ e ∈ τ, ¬ Ends e) ∧ ∀ e ∈ τ, Ends e → Unsigned e ∨ Unreadable e := by
  suffices hinv : (Proxy.Boundary W.toBeast (τ.filterMap (proxyEvent W)) s.proxy ∧
      Attended W.toBeast s.proxy) ∧ Kept τ s from hinv.2
  refine hrun.invariant (I := fun τ s => (Proxy.Boundary W.toBeast (τ.filterMap (proxyEvent W)) s.proxy ∧
      Attended W.toBeast s.proxy) ∧ Kept τ s)
    ⟨⟨Proxy.boundary_nil, fun hne => absurd rfl hne⟩, iff_of_true rfl (List.forall_mem_nil _),
      List.forall_mem_nil _⟩ ?_
  rintro τ s i t o ⟨hproxies, hkept⟩ hC hstep
  exact ⟨boundary_step hproxies hC.inTurn hstep, hkept.step hproxies hC hstep⟩

instance (h : Config Addr) (τ : List (Event Bool UInt8 (UInt8 × Bool) Unit Addr))
    (s : State Bool UInt8 Unit Addr) : ∀ i, Decidable (Connected letterWire h τ s i)
  | .proxy i => inferInstanceAs (Decidable (InTurn letterWire τ s (.proxy i)))
  | .serve n env (some _) => inferInstanceAs (Decidable
      (∃ req ∈ letterWire.requestEnd (s.proxy.wire.map Prod.snd) n, ∃ res ∈
        (QuantumSafeHttp.handle h env s.server.world (letterWire.request req)).response, res.FromFile))
  | .serve _ _ none | .elsewhere _ => inferInstanceAs (Decidable True)
  | .serverFails => inferInstanceAs (Decidable False)

instance : ∀ e : Event Bool UInt8 (UInt8 × Bool) Unit Addr, Decidable (Ends e)
  | .served _ _ e cut => inferInstanceAs (Decidable (e.reply.response = none ∨ cut ≠ none))
  | .proxy _ => inferInstanceAs (Decidable False)

/-- The session of the server goes on after the file, and not after the directory. -/
theorem gateway_keeps_file : (∃ τ s, (machine letterWire QuantumSafeHttp.oneToken).Run
      (Connected letterWire QuantumSafeHttp.oneToken) ⟨{}, ⟨QuantumSafeHttp.issuedOne, true⟩⟩ τ s ∧
      τ.any receivedA = true ∧ s.server.live = true) ∧
    ∃ (τ : List (Event Bool UInt8 (UInt8 × Bool) Unit Addr)) (s : State Bool UInt8 Unit Addr),
      (machine letterWire QuantumSafeHttp.oneToken).Run
        (Connected letterWire QuantumSafeHttp.oneToken) ⟨{}, ⟨QuantumSafeHttp.issuedOne, true⟩⟩ τ s ∧
      s.server.live = false ∧ ∃ e ∈ τ, Unsigned e ∨ Unreadable e := by
  obtain ⟨τ, s, hrun, hreceived, hnone⟩ :=
    (machine letterWire QuantumSafeHttp.oneToken).exists_run_of_exec_all
    (Connected letterWire QuantumSafeHttp.oneToken) ⟨{}, ⟨QuantumSafeHttp.issuedOne, true⟩⟩ asksForA
    (fun τ _ => τ.any receivedA = true ∧ ∀ e ∈ τ, ¬ Ends e) (by decide +kernel)
  obtain ⟨τ', s', hrun', e, he, hends⟩ :=
    (machine letterWire QuantumSafeHttp.oneToken).exists_run_of_exec_all
    (Connected letterWire QuantumSafeHttp.oneToken) ⟨{}, ⟨QuantumSafeHttp.issuedOne, true⟩⟩
    asksForDirectory (fun τ _ => ∃ e ∈ τ, Ends e) (by decide +kernel)
  obtain ⟨hlive, -⟩ := gateway_keeps letterWire _ _ hrun
  obtain ⟨hlive', hwhy⟩ := gateway_keeps letterWire _ _ hrun'
  refine ⟨⟨τ, s, hrun, hreceived, hlive.mpr hnone⟩, τ', s', hrun', ?_, e, he, hwhy e he hends⟩
  exact Bool.eq_false_iff.mpr fun hl => hlive'.mp hl e he hends

/-! ## The way through -/

/-- A step of the proxy alone. -/
theorem run_proxy {s₀ : State κ Req ω A} (hrun : (machine W h).Run (InTurn W) s₀ τ s)
    {i : Proxy.Input κ Req} {p : Proxy.State κ Req} {e : Option (Proxy.Event κ Req Res)}
    (hC : InTurn W τ s (.proxy i)) (hi : ∀ n bytes, i ≠ .answer n bytes)
    (hstep : Proxy.step W.toBeast s.proxy i = some (p, e)) :
    (machine W h).Run (InTurn W) s₀ (τ ++ (e.map Event.proxy).toList) { s with proxy := p } := by
  refine hrun.snoc hC ?_
  cases i with
  | answer n bytes => exact absurd rfl (hi n bytes)
  | accept | request | writeSome | readSome | reply | fails => simp [machine, step, hstep]

/-- **One session**, from its accept to its reply, on a stream that is empty, with a response that is
written to its end. -/
theorem run_session {s₀ : State κ Req ω A} (hrun : (machine W h).Run (InTurn W) s₀ τ s)
    (hidle : ∀ j, (s.proxy.phase j).isActive = false) (hwire : s.proxy.wire = [])
    (hinbox : s.proxy.inbox = []) (hlive : s.server.live = true) {k : κ}
    (hk : s.proxy.phase k = .fresh) (req : Req) (env : Env ω) {reply : QuantumSafeHttp.Reply ω A}
    (hreply : reply =
      QuantumSafeHttp.handle h env s.server.world (W.request (W.requestKeepAlive true req)))
    {response : Response} (hresponse : reply.response = some response) (hhead : ¬ response.HeadOnly)
    (hlimit : response.contentLength ≤ bodyLimit) : ∃ τ', (machine W h).Run (InTurn W) s₀ (τ ++ τ')
        ⟨⟨update s.proxy.phase k .over, [], []⟩, ⟨reply.world, response.keepAlive⟩⟩ ∧
      (∃ owners, .served owners (W.requestKeepAlive true req)
        ⟨W.request (W.requestKeepAlive true req), env, s.server.world, reply⟩ none ∈ τ') ∧
      .proxy (.received k (W.responseKeepAlive false (W.seen response))) ∈ τ' := by
  obtain ⟨⟨phase, wire, inbox⟩, server⟩ := s
  dsimp only at hidle hwire hinbox hlive hk hreply
  subst hwire hinbox
  let kept := W.requestKeepAlive true req
  let asked := W.writeRequest kept
  let written := W.writeResponse response
  have hne : asked ≠ [] := W.writeRequest_ne_nil kept
  have hpos : 0 < asked.length := List.length_pos_iff.mpr hne
  have hread : W.readResponse written = .done (W.seen response) :=
    W.readResponse_write response (QuantumSafeHttp.made_of_handle (hreply ▸ hresponse)).toShortHead
      hlimit hhead
  have hpos' : 0 < written.length := by
    refine List.length_pos_iff.mpr fun hnil => ?_
    rw [hnil, W.readResponse_nil] at hread
    cases hread
  have hwrite : Proxy.asyncWrite kept asked = .writingRequest kept asked := by
    cases hw : asked with
    | nil => exact absurd hw hne
    | cons b rest => rfl
  -- accepted, and the request read
  have h₁ := run_proxy (i := .accept k) (e := none) (p := ⟨update phase k .readingRequest, [], []⟩)
    hrun ⟨hidle, trivial⟩ (by simp) (by simp [Proxy.step, hk, Proxy.State.put])
  have h₂ := run_proxy (i := .request k req) (e := some (.asked k req))
    (p := ⟨update phase k (.writingRequest kept asked), [], []⟩) h₁ ⟨trivial, trivial⟩ (by simp)
    (by simp [Proxy.step, Proxy.State.put, hwrite, kept, asked])
  -- written, and served
  have h₃ := run_proxy (i := .writeSome k asked.length) (e := none)
    (p := ⟨update phase k (.readingResponse kept []), asked.map fun b => (k, b), []⟩)
    h₂ ⟨trivial, trivial⟩ (by simp)
    (by simp [Proxy.step, Proxy.State.put, hpos, Proxy.asyncWrite])
  let owners := asked.map fun _ => k
  have h₄ := h₃.snoc (i := .serve asked.length env none)
    (t := ⟨⟨update phase k (.readingResponse kept []), [], written.map fun b => (owners, b)⟩,
      ⟨reply.world, response.keepAlive⟩⟩)
    (o := some (.served owners kept ⟨W.request kept, env, server.world, reply⟩ none))
    (show InTurn W _ _ (.serve asked.length env none) from trivial) (by
      have hend := Proxy.requestEnd_write W.toBeast kept []
      rw [List.append_nil] at hend
      have hsent : W.sent (some response) none = written := rfl
      simp [machine, step, Function.comp_def, hend, asked, hlive, ← hreply, hresponse, hsent,
        Wire.CutShort, owners, kept])
  -- read, and passed on
  have h₅ := run_proxy (i := .readSome k written.length)
    (e := some (.took k (written.map fun b => (owners, b))))
    (p := ⟨update phase k (.readingResponse kept written), [], []⟩)
    h₄ ⟨trivial, trivial⟩ (by simp)
    (by simp [Proxy.step, Proxy.State.put, W.readResponse_nil, Proxy.Parsed.isMore, hpos',
      Function.comp_def])
  have h₆ := run_proxy (i := .reply k)
    (e := some (.received k (W.responseKeepAlive false (W.seen response))))
    (p := ⟨update phase k .over, [], []⟩)
    h₅ ⟨trivial, trivial⟩ (by simp) (by simp [Proxy.step, Proxy.State.put, hread])
  refine ⟨_, by simpa only [List.append_assoc] using h₆, ⟨owners, ?_⟩, ?_⟩
  · simp [kept]
  · simp

/-- **A frontend gets through**: from every state that turns have reached with no session active and
the server's session live, whatever the frontend asks can be served and answered with what the handlers
make of it, if that is a response with its content and within the limit that is written to its end, and
the next frontend finds the same. -/
theorem gateway_passes (W : Wire Req Res) (h : Config A) (w₀ : Session ω A)
    (hrun : (machine W h).Run (InTurn W) ⟨{}, w₀⟩ τ s)
    (hidle : ∀ j, (s.proxy.phase j).isActive = false) (hlive : s.server.live = true) {k : κ}
    (hk : s.proxy.phase k = .fresh) (req : Req) (env : Env ω) (response : Response)
    (hresponse : (QuantumSafeHttp.handle h env s.server.world
      (W.request (W.requestKeepAlive true req))).response = some response)
    (hhead : ¬ response.HeadOnly) (hlimit : response.contentLength ≤ bodyLimit) :
    ∃ τ' t, (machine W h).Run (InTurn W) ⟨{}, w₀⟩ (τ ++ τ') t ∧
      (∃ owners e, .served owners (W.requestKeepAlive true req) e none ∈ τ' ∧ e.env = env ∧
        e.before = s.server.world) ∧
      .proxy (.received k (W.responseKeepAlive false (W.seen response))) ∈ τ' ∧
      (∀ j, (t.proxy.phase j).isActive = false) ∧ t.server.live = true := by
  have hboundary := (proxy_run hrun).invariant (I := Proxy.Boundary W.toBeast) Proxy.boundary_nil
    fun τ p i p' o hI hC hstep => hI.step hC hstep
  obtain ⟨hwire, hinbox⟩ := hboundary.empty fun j => by
    by_contra hmid
    rw [Bool.not_eq_false] at hmid
    exact absurd (Proxy.isActive_of_isMidway hmid) (by simp [hidle j])
  obtain ⟨τ', hrun', ⟨owners, hserved⟩, hreceived⟩ :=
    run_session hrun hidle hwire hinbox hlive hk req env rfl hresponse hhead hlimit
  refine ⟨τ', _, hrun', ⟨owners, _, hserved, rfl, rfl⟩, hreceived, fun j => ?_, ?_⟩
  · rcases eq_or_ne j k with rfl | hjk
    · simp [Proxy.Phase.isActive]
    · simpa [hjk] using hidle j
  · exact (QuantumSafeHttp.made_of_handle hresponse).keepAlive.trans (W.keepAlive_request req)

/-- The first frontend gets through. -/
theorem gateway_passes_file : ∃ τ t, (machine letterWire QuantumSafeHttp.oneToken).Run
    (InTurn letterWire) ⟨{}, ⟨QuantumSafeHttp.issuedOne, true⟩⟩ ([] ++ τ) t ∧
      (∃ owners e, .served owners 97 e none ∈ τ ∧ e.env = oneFile ∧
        e.before = QuantumSafeHttp.issuedOne) ∧
      .proxy (.received false (65, false)) ∈ τ ∧ (∀ j, (t.proxy.phase j).isActive = false) ∧
      t.server.live = true :=
  gateway_passes letterWire QuantumSafeHttp.oneToken ⟨QuantumSafeHttp.issuedOne, true⟩ .nil
    (fun _ => rfl) rfl rfl 97 oneFile ⟨.ok, "application/text", none, true, .file "/srv/a" 1⟩
    (by decide +kernel) id (by decide)

end Model

end Gateway

end ManagementSensors
