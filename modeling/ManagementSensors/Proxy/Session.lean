import ManagementSensors.Machinery.Run

/-!
# Proxy/Session — the sessions of the proxy on its one stream to the backend

`do_listen` spawns one `do_session` for each frontend it accepts, and all of them are given the same
TLS stream: a session writes its request to it, and reads its response from it into a buffer of its
own.  The state holds where each session stands, the bytes on their way to the backend (`wire`) and
the bytes of its answers that no session has read yet (`inbox`); a step is one completion at a
`co_await`, or the backend answering the request at the head of the stream.

Each byte carries the session it is written by or, in a response, the sessions whose bytes made the
request it answers.  The sessions do not see these marks; only `Paired` speaks of them.
-/

namespace ManagementSensors.Proxy

open Machinery

/-- What a parser has made of the bytes it was given. -/
inductive Parsed (M : Type)
  | more
  | done (m : M)
  | error

def Parsed.isMore {M : Type} : Parsed M → Bool
  | .more => true
  | _ => false

def Parsed.map {M N : Type} (f : M → N) : Parsed M → Parsed N
  | .more => .more
  | .done m => .done (f m)
  | .error => .error

def Parsed.message? {M : Type} : Parsed M → Option M
  | .done m => some m
  | _ => none

/-- **The messages and their wire format**, as the HTTP library has them: how `keep_alive` changes a
message, the bytes a request is written as, and what the parsers of the two sides make of a prefix
of their stream.  The parser of responses is told nothing of the request, a `HEAD` no more than any
other.  A `Req` is within the limits that the parsers of requests set. -/
structure Beast (Req Res : Type) where
  requestKeepAlive : Bool → Req → Req
  responseKeepAlive : Bool → Res → Res
  writeRequest : Req → List UInt8
  readRequest : List UInt8 → Parsed Req
  readResponse : List UInt8 → Parsed Res
  readRequest_nil : readRequest [] = .more
  readRequest_write : ∀ req, readRequest (writeRequest req) = .done req
  readRequest_short : ∀ req u, u <+: writeRequest req → u ≠ writeRequest req → readRequest u = .more
  readResponse_nil : readResponse [] = .more
  readResponse_append : ∀ u v res, readResponse u = .done res → readResponse (u ++ v) = .done res

variable {κ Req Res : Type}

/-- **Where a session stands**: not accepted, at the read of its frontend's request, at the write of
the request (with the bytes not yet written), at the read of the response (with `be_buf`), or
over.  A response that is complete in `be_buf` is at its write to the frontend. -/
inductive Phase (Req : Type)
  | fresh
  | readingRequest
  | writingRequest (req : Req) (rest : List UInt8)
  | readingResponse (req : Req) (beBuf : List UInt8)
  | over

structure State (κ Req : Type) where
  phase : κ → Phase Req := fun _ => .fresh
  wire : List (κ × UInt8) := []
  inbox : List (List κ × UInt8) := []

/-- What completes next. -/
inductive Input (κ Req : Type)
  | accept (k : κ)
  | request (k : κ) (req : Req)
  | writeSome (k : κ) (n : ℕ)
  | answer (n : ℕ) (bytes : List UInt8)
  | readSome (k : κ) (n : ℕ)
  | reply (k : κ)
  | fails (k : κ)

inductive Event (κ Req Res : Type)
  | asked (k : κ) (req : Req)
  | answered (owners : List κ) (req : Req) (bytes : List UInt8)
  | took (k : κ) (cells : List (List κ × UInt8))
  | received (k : κ) (res : Res)
  deriving DecidableEq

section Model

variable [DecidableEq κ]

/-- The session `k` goes on to `p`. -/
def State.put (s : State κ Req) (k : κ) (p : Phase Req) : State κ Req :=
  { s with phase := Function.update s.phase k p }

@[simp] theorem State.put_wire (s : State κ Req) (k : κ) (p : Phase Req) :
    (s.put k p).wire = s.wire := rfl

@[simp] theorem State.put_inbox (s : State κ Req) (k : κ) (p : Phase Req) :
    (s.put k p).inbox = s.inbox := rfl

@[simp] theorem State.put_phase (s : State κ Req) (k : κ) (p : Phase Req) :
    (s.put k p).phase = Function.update s.phase k p := rfl

/-- `async_write` on the stream, once `rest` is left to write. -/
def asyncWrite (req : Req) : List UInt8 → Phase Req
  | [] => .readingResponse req []
  | rest => .writingRequest req rest

/-- The request that ends `n` bytes into the stream, and no earlier. -/
def Beast.requestEnd (P : Beast Req Res) (wire : List UInt8) (n : ℕ) : Option Req :=
  if n ≤ wire.length ∧ ∀ m < n, (P.readRequest (wire.take m)).isMore then
    (P.readRequest (wire.take n)).message?
  else none

/-- **One step** of the sessions and of the backend.

* `request` is the frontend's request read in full: it is kept alive and its write begins.
* `writeSome` and `readSome` are the transfers that `async_write` and `async_read` are made of.  A
  read goes on for as long as `be_buf` holds no complete response, and may take bytes past its end.
* `answer` is the backend taking the next request off the stream and answering it with any bytes.
* `reply` is the response written to the frontend; `fails` is any exception, and ends a session. -/
def step (P : Beast Req Res) (s : State κ Req) :
    Input κ Req → Option (State κ Req × Option (Event κ Req Res))
  | .accept k =>
    match s.phase k with
    | .fresh => some (s.put k .readingRequest, none)
    | _ => none
  | .request k req =>
    match s.phase k with
    | .readingRequest =>
      let kept := P.requestKeepAlive true req
      some (s.put k (asyncWrite kept (P.writeRequest kept)), some (.asked k req))
    | _ => none
  | .writeSome k n =>
    match s.phase k with
    | .writingRequest req rest =>
      if 0 < n ∧ n ≤ rest.length then
        some ({ s.put k (asyncWrite req (rest.drop n)) with
          wire := s.wire ++ (rest.take n).map fun b => (k, b) }, none)
      else none
    | _ => none
  | .answer n bytes =>
    match P.requestEnd (s.wire.map Prod.snd) n with
    | some req =>
      let owners := (s.wire.take n).map Prod.fst
      some ({ s with
          wire := s.wire.drop n
          inbox := s.inbox ++ bytes.map fun b => (owners, b) },
        some (.answered owners req bytes))
    | none => none
  | .readSome k n =>
    match s.phase k with
    | .readingResponse req beBuf =>
      if (P.readResponse beBuf).isMore ∧ 0 < n ∧ n ≤ s.inbox.length then
        some ({ s.put k (.readingResponse req (beBuf ++ (s.inbox.take n).map Prod.snd)) with
          inbox := s.inbox.drop n }, some (.took k (s.inbox.take n)))
      else none
    | _ => none
  | .reply k =>
    match s.phase k with
    | .readingResponse _ beBuf =>
      match P.readResponse beBuf with
      | .done res => some (s.put k .over, some (.received k (P.responseKeepAlive false res)))
      | _ => none
    | _ => none
  | .fails k =>
    match s.phase k with
    | .fresh | .over => none
    | _ => some (s.put k .over, none)

/-- The proxy and its backend, as a machine. -/
def proxy (P : Beast Req Res) : Machine (State κ Req) (Input κ Req) (Event κ Req Res) := ⟨step P⟩

/-! ## What each step does -/

theorem step_accept {P : Beast Req Res} {s t : State κ Req} {k : κ} {o : Option (Event κ Req Res)}
    (h : step P s (.accept k) = some (t, o)) :
    s.phase k = .fresh ∧ t = s.put k .readingRequest ∧ o = none := by
  simp only [step] at h
  split at h <;> cases h
  exact ⟨‹_›, rfl, rfl⟩

theorem step_request {P : Beast Req Res} {s t : State κ Req} {k : κ} {req : Req}
    {o : Option (Event κ Req Res)} (h : step P s (.request k req) = some (t, o)) :
    s.phase k = .readingRequest ∧ o = some (.asked k req) ∧
      t = s.put k (asyncWrite (P.requestKeepAlive true req)
        (P.writeRequest (P.requestKeepAlive true req))) := by
  simp only [step] at h
  split at h <;> cases h
  exact ⟨‹_›, rfl, rfl⟩

theorem step_writeSome {P : Beast Req Res} {s t : State κ Req} {k : κ} {n : ℕ}
    {o : Option (Event κ Req Res)} (h : step P s (.writeSome k n) = some (t, o)) :
    ∃ req rest, s.phase k = .writingRequest req rest ∧ 0 < n ∧ n ≤ rest.length ∧ o = none ∧
      t = { s.put k (asyncWrite req (rest.drop n)) with
        wire := s.wire ++ (rest.take n).map fun b => (k, b) } := by
  simp only [step] at h
  split at h
  case h_2 => cases h
  case h_1 req rest hphase =>
    split at h <;> cases h
    case isTrue hn => exact ⟨req, rest, hphase, hn.1, hn.2, rfl, rfl⟩

omit [DecidableEq κ] in
theorem requestEnd_eq_some {P : Beast Req Res} {wire : List UInt8} {n : ℕ} {req : Req}
    (h : P.requestEnd wire n = some req) :
    n ≤ wire.length ∧ P.readRequest (wire.take n) = .done req := by
  simp only [Beast.requestEnd] at h
  split at h
  case isFalse => cases h
  case isTrue hn =>
    refine ⟨hn.1, ?_⟩
    cases hread : P.readRequest (wire.take n) <;> rw [hread] at h <;> cases h
    rfl

theorem step_answer {P : Beast Req Res} {s t : State κ Req} {n : ℕ} {bytes : List UInt8}
    {o : Option (Event κ Req Res)} (h : step P s (.answer n bytes) = some (t, o)) :
    ∃ req, P.requestEnd (s.wire.map Prod.snd) n = some req ∧
      o = some (.answered ((s.wire.take n).map Prod.fst) req bytes) ∧
      t = { s with
        wire := s.wire.drop n
        inbox := s.inbox ++ bytes.map fun b => ((s.wire.take n).map Prod.fst, b) } := by
  simp only [step] at h
  split at h <;> cases h
  exact ⟨_, ‹_›, rfl, rfl⟩

theorem step_readSome {P : Beast Req Res} {s t : State κ Req} {k : κ} {n : ℕ}
    {o : Option (Event κ Req Res)} (h : step P s (.readSome k n) = some (t, o)) :
    ∃ req beBuf, s.phase k = .readingResponse req beBuf ∧ (P.readResponse beBuf).isMore ∧ 0 < n ∧
      n ≤ s.inbox.length ∧ o = some (.took k (s.inbox.take n)) ∧
      t = { s.put k (.readingResponse req (beBuf ++ (s.inbox.take n).map Prod.snd)) with
        inbox := s.inbox.drop n } := by
  simp only [step] at h
  split at h
  case h_2 => cases h
  case h_1 req beBuf hphase =>
    split at h <;> cases h
    case isTrue hn => exact ⟨req, beBuf, hphase, hn.1, hn.2.1, hn.2.2, rfl, rfl⟩

theorem step_reply {P : Beast Req Res} {s t : State κ Req} {k : κ} {o : Option (Event κ Req Res)}
    (h : step P s (.reply k) = some (t, o)) :
    ∃ req beBuf res, s.phase k = .readingResponse req beBuf ∧ P.readResponse beBuf = .done res ∧
      o = some (.received k (P.responseKeepAlive false res)) ∧ t = s.put k .over := by
  simp only [step] at h
  split at h
  case h_2 => cases h
  case h_1 req beBuf hphase =>
    split at h <;> cases h
    exact ⟨req, beBuf, _, hphase, ‹_›, rfl, rfl⟩

theorem step_fails {P : Beast Req Res} {s t : State κ Req} {k : κ} {o : Option (Event κ Req Res)}
    (h : step P s (.fails k) = some (t, o)) : t = s.put k .over ∧ o = none := by
  simp only [step] at h
  split at h <;> cases h
  exact ⟨rfl, rfl⟩

end Model

/-! ## Pages of one letter -/

/-- The bytes of an ASCII text. -/
def ascii (s : String) : List UInt8 := s.toList.map fun c => UInt8.ofNat c.toNat

/-- A parser of messages of `len` bytes that differ in byte `i` only. -/
def parseFrame (frame : UInt8 → List UInt8) (len i : ℕ) (u : List UInt8) : Parsed UInt8 :=
  if u.length < len then .more
  else if u.take len = frame (u[i]?.getD 0) then .done (u[i]?.getD 0)
  else .error

theorem parseFrame_append {frame : UInt8 → List UInt8} {len i : ℕ} (hi : i < len) {u : List UInt8}
    (v : List UInt8) {b : UInt8} (h : parseFrame frame len i u = .done b) :
    parseFrame frame len i (u ++ v) = .done b := by
  by_cases hlen : u.length < len
  · rw [parseFrame, if_pos hlen] at h
    cases h
  · have hget : (u ++ v)[i]? = u[i]? := List.getElem?_append_left (by omega)
    rw [parseFrame, if_neg hlen] at h
    rwa [parseFrame, if_neg (by rw [List.length_append]; omega), hget,
      List.take_append_of_le_length (by omega)]

theorem parseFrame_frame {frame : UInt8 → List UInt8} {len i : ℕ} {b : UInt8}
    (hlen : (frame b).length = len) (hget : (frame b)[i]? = some b) :
    parseFrame frame len i (frame b) = .done b := by
  rw [parseFrame, if_neg (by omega), hget, Option.getD_some,
    if_pos (by rw [← hlen, List.take_length])]

theorem parseFrame_short {frame : UInt8 → List UInt8} {len i : ℕ} {b : UInt8} {u : List UInt8}
    (hlen : (frame b).length = len) (hu : u <+: frame b) (hne : u ≠ frame b) :
    parseFrame frame len i u = .more := by
  have hle := hu.length_le
  have hlt : u.length ≠ (frame b).length := fun he => hne (hu.eq_of_length he)
  rw [parseFrame, if_pos (by omega)]

/-- The request for a page with a name of one letter, kept alive as HTTP/1.1 is by default. -/
def pageRequest (name : UInt8) : List UInt8 := ascii "GET /" ++ name :: ascii " HTTP/1.1\r\n\r\n"

/-- The response with a body of one letter. -/
def pageResponse (body : UInt8) : List UInt8 :=
  ascii "HTTP/1.1 200 OK\r\nContent-Length: 1\r\n\r\n" ++ [body]

/-- **One-letter pages over HTTP/1.1**: a request is the letter of its page, a response the letter
of its body and whether the connection is kept. -/
def pages : Beast UInt8 (UInt8 × Bool) where
  requestKeepAlive _ req := req
  responseKeepAlive keep res := (res.1, keep)
  writeRequest := pageRequest
  readRequest := parseFrame pageRequest 19 5
  readResponse u := (parseFrame pageResponse 39 38 u).map fun body => (body, true)
  readRequest_nil := rfl
  readRequest_write _ := parseFrame_frame rfl rfl
  readRequest_short _ _ := parseFrame_short rfl
  readResponse_nil := rfl
  readResponse_append u v res h := by
    cases hu : parseFrame pageResponse 39 38 u <;> simp only [hu, Parsed.map] at h <;> cases h
    rw [parseFrame_append (by decide) v hu, Parsed.map]

end ManagementSensors.Proxy
