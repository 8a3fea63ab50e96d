import ManagementSensors.Http.Gate

/-!
# Server/QuantumSafeTlsEngine — many TLS sessions, and one field for the connection details

A session negotiates a group, collects its connection details, stores them in the engine's
`latest_connection_details_`, and hands over to the HTTP session.  The field is the engine's: a session
that asks is told what was stored last, by whichever session.  So it is told its own details exactly
where the session that stored last had negotiated the same group (`own_details_iff`).  On its own, each
session is a run of the HTTP machine (`session_run`).

A group is its wire code; what Botan says of it is a parameter.
-/

open Machinery Function

namespace ManagementSensors.QuantumSafeTlsEngine

open QuantumSafeHttp (Config World Env Request Authorised)

/-- What Botan says of a group, by its wire code. -/
structure GroupParams where
  toString : UInt16 → Option String
  isPostQuantum : UInt16 → Bool

/-- Four hexadecimal digits: `hex`, `setw(4)`, `setfill('0')`. -/
def hex4 (code : UInt16) : List Char :=
  [code.toNat / 4096 % 16, code.toNat / 256 % 16, code.toNat / 16 % 16, code.toNat % 16].map
    Nat.digitChar

/-- The details of a group, up to its wire code. -/
def detailsOf (G : GroupParams) (group : UInt16) : String :=
  "\x7b\"kex_algo\": \"" ++ (G.toString group).getD "unknown" ++ "\",\"is_quantum_safe\": " ++
    (if G.isPostQuantum group then "true" else "false") ++ ",\"wire_code\": \"0x"

/-- `collect_connection_details_as_json`. -/
def connectionDetails (G : GroupParams) (group : UInt16) : String :=
  detailsOf G group ++ String.ofList (hex4 group) ++ "\"\x7d"

/-- How far a session has come. -/
inductive Stage
  | handshaking
  | collected (connectionDetails : String)
  | handling
  | over
  deriving DecidableEq, Repr

/-- A session: the group its callbacks have seen, and how far it has come. -/
structure TlsSession where
  group : UInt16 := 0
  stage : Stage := .handshaking
  deriving DecidableEq, Repr

variable {ι κ A : Type} [DecidableEq ι]

/-- The engine, with its sessions and the world their requests change. -/
structure Engine (ι κ A : Type) where
  latestConnectionDetails : String := "\x7b\x7d"
  sessions : ι → Option TlsSession := fun _ => none
  world : World κ A

/-- What happens: a connection is accepted; its handshake encapsulates for a group, and completes; its
details are stored; a request is read; an exception ends the session; something else changes the
world. -/
inductive Input (ι κ A : Type)
  | accept (session : ι)
  | tlsKemEncapsulate (session : ι) (group : UInt16)
  | handshake (session : ι)
  | store (session : ι)
  | request (session : ι) (req : Request) (env : Env κ)
  | fails (session : ι)
  | elsewhere (w : World κ A)

/-- What is seen: details are collected, details are stored, a request is answered. -/
inductive Event (ι κ A : Type)
  | collected (session : ι) (group : UInt16)
  | stored (session : ι) (group : UInt16)
  | answered (session : ι) (e : QuantumSafeHttp.Event κ A)

def Engine.setSession (s : Engine ι κ A) (i : ι) (x : TlsSession) : Engine ι κ A :=
  { s with sessions := update s.sessions i (some x) }

/-- The HTTP handler of a server: its provider of the connection details is the engine. -/
def handler (h : Config A) : Config A := { h with connectionDetailsProvider := true }

/-- One step of one session: `do_listen`, `tls_kem_encapsulate`, `do_session`, and `handle_session`
with what `get_latest_connection_details` returns. -/
def step (G : GroupParams) (h : Config A) (s : Engine ι κ A) :
    Input ι κ A → Option (Engine ι κ A × Option (Event ι κ A))
  | .accept i => if s.sessions i = none then some (s.setSession i {}, none) else none
  | .tlsKemEncapsulate i group =>
    match s.sessions i with
    | some ⟨_, .handshaking⟩ => some (s.setSession i ⟨group, .handshaking⟩, none)
    | _ => none
  | .handshake i =>
    match s.sessions i with
    | some ⟨group, .handshaking⟩ =>
      some (s.setSession i ⟨group, .collected (connectionDetails G group)⟩, some (.collected i group))
    | _ => none
  | .store i =>
    match s.sessions i with
    | some ⟨group, .collected details⟩ =>
      some ({ s.setSession i ⟨group, .handling⟩ with latestConnectionDetails := details },
        some (.stored i group))
    | _ => none
  | .request i req env =>
    match s.sessions i with
    | some ⟨group, .handling⟩ =>
      let env := { env with connectionDetails := s.latestConnectionDetails }
      let reply := QuantumSafeHttp.handle (handler h) env s.world req
      let stage := if reply.response.any QuantumSafeHttp.Response.keepAlive then .handling else .over
      some ({ s.setSession i ⟨group, stage⟩ with world := reply.world },
        some (.answered i ⟨req, env, s.world, reply⟩))
    | _ => none
  | .fails i =>
    match s.sessions i with
    | some x => some (s.setSession i { x with stage := .over }, none)
    | none => none
  | .elsewhere w => some ({ s with world := w }, none)

/-- The server's sessions, interleaved. -/
def machine (ι κ : Type) [DecidableEq ι] (G : GroupParams) (h : Config A) :
    Machine (Engine ι κ A) (Input ι κ A) (Event ι κ A) := ⟨step G h⟩

/-- **All that a step can do.** -/
inductive StepCases (G : GroupParams) (h : Config A) (s : Engine ι κ A) :
    Engine ι κ A → Option (Event ι κ A) → Prop
  | accept {i : ι} (hs : s.sessions i = none) : StepCases G h s (s.setSession i {}) none
  | tlsKemEncapsulate {i : ι} {group group' : UInt16}
      (hs : s.sessions i = some ⟨group, .handshaking⟩) :
      StepCases G h s (s.setSession i ⟨group', .handshaking⟩) none
  | handshake {i : ι} {group : UInt16} (hs : s.sessions i = some ⟨group, .handshaking⟩) :
      StepCases G h s (s.setSession i ⟨group, .collected (connectionDetails G group)⟩)
        (some (.collected i group))
  | store {i : ι} {group : UInt16} {details : String}
      (hs : s.sessions i = some ⟨group, .collected details⟩) :
      StepCases G h s
        { s.setSession i ⟨group, .handling⟩ with latestConnectionDetails := details }
        (some (.stored i group))
  | request {i : ι} {group : UInt16} {stage : Stage} {req : Request} {env : Env κ}
      {reply : QuantumSafeHttp.Reply κ A} (hs : s.sessions i = some ⟨group, .handling⟩)
      (henv : env.connectionDetails = s.latestConnectionDetails)
      (hreply : reply = QuantumSafeHttp.handle (handler h) env s.world req)
      (hstage : stage = if reply.response.any QuantumSafeHttp.Response.keepAlive then .handling
        else .over) :
      StepCases G h s { s.setSession i ⟨group, stage⟩ with world := reply.world }
        (some (.answered i ⟨req, env, s.world, reply⟩))
  | fails {i : ι} {x : TlsSession} (hs : s.sessions i = some x) :
      StepCases G h s (s.setSession i { x with stage := .over }) none
  | elsewhere {w : World κ A} : StepCases G h s { s with world := w } none

theorem step_cases {G : GroupParams} {h : Config A} {s t : Engine ι κ A} {inp : Input ι κ A}
    {o : Option (Event ι κ A)} (hstep : step G h s inp = some (t, o)) : StepCases G h s t o := by
  cases inp with
  | accept i =>
    simp only [step] at hstep
    split at hstep
    case isTrue hnone =>
      cases hstep
      exact .accept hnone
    case isFalse => cases hstep
  | tlsKemEncapsulate i group =>
    simp only [step] at hstep
    split at hstep
    case h_1 hs =>
      cases hstep
      exact .tlsKemEncapsulate hs
    case h_2 => cases hstep
  | handshake i =>
    simp only [step] at hstep
    split at hstep
    case h_1 hs =>
      cases hstep
      exact .handshake hs
    case h_2 => cases hstep
  | store i =>
    simp only [step] at hstep
    split at hstep
    case h_1 hs =>
      cases hstep
      exact .store hs
    case h_2 => cases hstep
  | request i req env =>
    simp only [step] at hstep
    split at hstep
    case h_1 hs =>
      cases hstep
      exact .request hs rfl rfl rfl
    case h_2 => cases hstep
  | fails i =>
    simp only [step] at hstep
    split at hstep
    case h_1 hs =>
      cases hstep
      exact .fails hs
    case h_2 => cases hstep
  | elsewhere w =>
    cases hstep
    exact .elsewhere

/-! ## What is promised, and when it holds -/

/-- The group of a session that stores its details. -/
def Event.storedGroup : Event ι κ A → Option UInt16
  | .stored _ group => some group
  | _ => none

/-- The group of the session that has stored last. -/
def lastStored (τ : List (Event ι κ A)) : Option UInt16 := (τ.filterMap Event.storedGroup).getLast?

/-- An authorised GET of the connection details. -/
def AsksDetails (h : Config A) (e : QuantumSafeHttp.Event κ A) : Prop :=
  e.req.target = "/api/connection_details" ∧ e.req.method = .get ∧
    Authorised (handler h) e.env e.before e.req

/-- **Its own details**: a session that asks is told what its own handshake has collected. -/
def OwnDetails (G : GroupParams) (h : Config A) (τ : List (Event ι κ A)) (e : Event ι κ A) : Prop :=
  ∀ i r, e = .answered i r → AsksDetails h r → ∃ group, .collected i group ∈ τ ∧
    r.reply.response =
      some (QuantumSafeHttp.successText r.req (connectionDetails G group) "application/json")

/-- **When it is told them**: the session that has stored last had negotiated the same group. -/
def SameGroup (h : Config A) (τ : List (Event ι κ A)) (e : Event ι κ A) : Prop :=
  ∀ i r, e = .answered i r → AsksDetails h r → ∃ group, .collected i group ∈ τ ∧
    lastStored τ = some group

/-! ## The details tell the groups apart -/

theorem digitChar_inj {m n : ℕ} (hm : m < 16) (hn : n < 16) (h : Nat.digitChar m = Nat.digitChar n) :
    m = n := by
  have hall : ∀ a b : Fin 16, Nat.digitChar a = Nat.digitChar b → a = b := by decide
  exact congrArg Fin.val (hall ⟨m, hm⟩ ⟨n, hn⟩ h)

theorem hex4_injective : Injective hex4 := by
  intro a b h
  simp only [hex4, List.map_cons, List.map_nil, List.cons.injEq, and_true] at h
  obtain ⟨h₁, h₂, h₃, h₄⟩ := h
  have h₁ := digitChar_inj (by omega) (by omega) h₁
  have h₂ := digitChar_inj (by omega) (by omega) h₂
  have h₃ := digitChar_inj (by omega) (by omega) h₃
  have h₄ := digitChar_inj (by omega) (by omega) h₄
  have ha := a.toNat_lt
  have hb := b.toNat_lt
  exact UInt16.toNat_inj.mp (by omega)

/-- **Two groups with the same details are the same group**: the details end in the wire code. -/
theorem connectionDetails_injective (G : GroupParams) : Injective (connectionDetails G) := by
  intro a b h
  have hchars := congrArg String.toList h
  simp only [connectionDetails, String.toList_append, String.toList_ofList] at hchars
  have hcodes := List.append_cancel_right hchars
  exact hex4_injective (List.append_inj' hcodes rfl).2

/-! ## Along a run -/

section Run

variable {G : GroupParams} {h : Config A} {τ : List (Event ι κ A)} {s t : Engine ι κ A}

omit [DecidableEq ι] in
theorem lastStored_concat (e : Event ι κ A) :
    lastStored (τ ++ [e]) = e.storedGroup.orElse fun _ => lastStored τ := by
  rw [lastStored, List.filterMap_append]
  cases e <;> simp [Event.storedGroup, lastStored]

/-- **What the field holds**: the details of the session that has stored last; and whoever is past its
handshake has collected the details of its group, once. -/
structure Holds (G : GroupParams) (τ : List (Event ι κ A)) (s : Engine ι κ A) : Prop where
  latest : s.latestConnectionDetails = (lastStored τ).elim "\x7b\x7d" (connectionDetails G)
  collected : ∀ i group details, s.sessions i = some ⟨group, .collected details⟩ →
    details = connectionDetails G group
  handling : ∀ i group, s.sessions i = some ⟨group, .handling⟩ → (lastStored τ).isSome
  once : ∀ i group, .collected i group ∈ τ →
    ∃ x, s.sessions i = some x ∧ x.group = group ∧ x.stage ≠ .handshaking

variable {τ' : List (Event ι κ A)} {i : ι} {x : TlsSession} {o : Option (Event ι κ A)}

/-- One session has moved on; the rest are where they were. -/
theorem Holds.set (hI : Holds G τ s) (hsessions : t.sessions = update s.sessions i (some x))
    (hlatest : t.latestConnectionDetails = (lastStored τ').elim "\x7b\x7d" (connectionDetails G))
    (hlast : (lastStored τ).isSome → (lastStored τ').isSome)
    (hcollected : ∀ details, x.stage = .collected details → details = connectionDetails G x.group)
    (hhandling : x.stage = .handling → (lastStored τ').isSome)
    (honce : ∀ j group, .collected j group ∈ τ' →
      (j = i → x.group = group ∧ x.stage ≠ .handshaking) ∧ (j ≠ i → .collected j group ∈ τ)) :
    Holds G τ' t := by
  have hself : t.sessions i = some x := by rw [hsessions, update_self]
  have hother : ∀ j, j ≠ i → t.sessions j = s.sessions j := fun j hj => by
    rw [hsessions, update_of_ne hj]
  refine ⟨hlatest, fun j group details hj => ?_, fun j group hj => ?_, fun j group hmem => ?_⟩
  · rcases eq_or_ne j i with rfl | hji
    · cases hself.symm.trans hj
      exact hcollected details rfl
    · exact hI.collected j group details ((hother j hji).symm.trans hj)
  · rcases eq_or_ne j i with rfl | hji
    · cases hself.symm.trans hj
      exact hhandling rfl
    · exact hlast (hI.handling j group ((hother j hji).symm.trans hj))
  · rcases eq_or_ne j i with rfl | hji
    · exact ⟨x, hself, (honce j group hmem).1 rfl⟩
    · obtain ⟨y, hy, hyx⟩ := hI.once j group ((honce j group hmem).2 hji)
      exact ⟨y, (hother j hji).trans hy, hyx⟩

omit [DecidableEq ι] in
/-- While a session shakes hands, or before, it has collected nothing. -/
theorem Holds.not_collected (hI : Holds G τ s) {group : UInt16}
    (hs : ∀ x, s.sessions i = some x → x.stage = .handshaking) : .collected i group ∉ τ := by
  intro hmem
  obtain ⟨x, hx, -, hne⟩ := hI.once i group hmem
  exact hne (hs x hx)

omit [DecidableEq ι] in
/-- A session that goes on with its group has collected the details of no other. -/
theorem Holds.same_group {y : TlsSession} (hI : Holds G τ s) (hs : s.sessions i = some y)
    (hgroup : x.group = y.group) (hx : x.stage ≠ .handshaking) {j : ι} {group : UInt16}
    (hmem : .collected j group ∈ τ) :
    (j = i → x.group = group ∧ x.stage ≠ .handshaking) ∧ (j ≠ i → .collected j group ∈ τ) := by
  refine ⟨?_, fun _ => hmem⟩
  rintro rfl
  obtain ⟨z, hz, hzg, -⟩ := hI.once j group hmem
  cases hs.symm.trans hz
  exact ⟨hgroup.trans hzg, hx⟩

/-- **The step lemma.** -/
theorem Holds.step (hI : Holds G τ s) (hstep : StepCases G h s t o) :
    Holds G (τ ++ o.toList) t := by
  cases hstep with
  | accept hs =>
    rw [Option.toList_none, List.append_nil]
    refine hI.set rfl hI.latest id (by rintro _ ⟨⟩) (by rintro ⟨⟩) fun j group hmem =>
      ⟨?_, fun _ => hmem⟩
    rintro rfl
    exact absurd hmem (hI.not_collected (by simp [hs]))
  | tlsKemEncapsulate hs =>
    rw [Option.toList_none, List.append_nil]
    refine hI.set rfl hI.latest id (by rintro _ ⟨⟩) (by rintro ⟨⟩) fun j group hmem =>
      ⟨?_, fun _ => hmem⟩
    rintro rfl
    exact absurd hmem (hI.not_collected (by simp [hs]))
  | @handshake i group hs =>
    have hlast : lastStored (τ ++ [.collected i group]) = lastStored τ := by
      rw [lastStored_concat]
      rfl
    refine hI.set rfl (hlast ▸ hI.latest) (hlast ▸ id) (by rintro _ ⟨⟩; rfl) (by rintro ⟨⟩) ?_
    intro j group' hmem
    rcases List.mem_append.mp hmem with hold | hnew
    · refine ⟨?_, fun _ => hold⟩
      rintro rfl
      exact absurd hold (hI.not_collected (by simp [hs]))
    · cases List.mem_singleton.mp hnew
      exact ⟨fun _ => ⟨rfl, by simp⟩, fun hne => absurd rfl hne⟩
  | @store i group details hs =>
    have hlast : lastStored (τ ++ [.stored i group]) = some group := by
      rw [lastStored_concat]
      rfl
    refine hI.set rfl ?_ (fun _ => by simp [hlast]) (by rintro _ ⟨⟩) (fun _ => by simp [hlast]) ?_
    · rw [Option.toList_some, hlast]
      exact hI.collected i group details hs
    · exact fun j group' hmem => hI.same_group hs (by rfl) (by simp) (by simpa using hmem)
  | @request i group stage req env reply hs henv hreply hstage =>
    have hlast : lastStored (τ ++ [.answered i ⟨req, env, s.world, reply⟩]) = lastStored τ := by
      rw [lastStored_concat]
      rfl
    have hstage' : stage = .handling ∨ stage = .over := by
      rw [hstage]
      split <;> simp
    have hsome := hI.handling i group hs
    refine hI.set rfl (hlast ▸ hI.latest) (hlast ▸ id) ?_ (fun _ => hlast ▸ hsome)
      fun j group' hmem => hI.same_group hs (by rfl) ?_ (by simpa using hmem)
    · rintro details rfl
      simp at hstage'
    · rintro rfl
      simp at hstage'
  | fails hs =>
    rw [Option.toList_none, List.append_nil]
    exact hI.set rfl hI.latest id (by rintro _ ⟨⟩) (by rintro ⟨⟩) fun j group' hmem =>
      hI.same_group hs (by rfl) (by simp) hmem
  | elsewhere =>
    rw [Option.toList_none, List.append_nil]
    exact ⟨hI.latest, hI.collected, hI.handling, hI.once⟩

/-- **What a session that asks is told**: what the field holds at that moment. -/
theorem reply_of_step {r : QuantumSafeHttp.Event κ A}
    (hstep : StepCases G h s t (some (.answered i r))) (hasks : AsksDetails h r) :
    (∃ group, s.sessions i = some ⟨group, .handling⟩) ∧ r.reply.response =
      some (QuantumSafeHttp.successText r.req s.latestConnectionDetails "application/json") := by
  cases hstep with
  | request hs henv hreply hstage =>
    obtain ⟨htarget, hmethod, hauth⟩ := hasks
    obtain ⟨token, claims, heq⟩ := QuantumSafeHttp.handle_details hauth htarget hmethod rfl
    refine ⟨⟨_, hs⟩, ?_⟩
    rw [← henv, hreply, heq]

/-- At one answer, a session is told its own details exactly where the last to store had its group. -/
theorem Holds.own_iff {e : Event ι κ A} (hI : Holds G τ s)
    (hstep : StepCases G h s t (some e)) : OwnDetails G h τ e ↔ SameGroup h τ e := by
  refine forall₄_congr fun i r he hasks => ?_
  subst he
  obtain ⟨⟨group₀, hs⟩, hresponse⟩ := reply_of_step hstep hasks
  obtain ⟨group, hgroup⟩ := Option.isSome_iff_exists.mp (hI.handling i group₀ hs)
  have hlatest : s.latestConnectionDetails = connectionDetails G group := by
    rw [hI.latest, hgroup]
    rfl
  rw [hresponse, hlatest, hgroup]
  refine exists_congr fun own => and_congr_right fun _ => ?_
  constructor
  · intro heq
    injection heq with heq
    injection heq with _ _ _ _ hbody
    injection hbody with hdetails
    rw [connectionDetails_injective G hdetails]
  · intro heq
    cases heq
    rfl

omit [DecidableEq ι] in
theorem holds_start (w : World κ A) : Holds G ([] : List (Event ι κ A)) { world := w } :=
  ⟨rfl, by rintro _ _ _ ⟨⟩, by rintro _ _ ⟨⟩, by rintro _ _ ⟨⟩⟩

theorem holds_of_run {w : World κ A} (hrun : (machine ι κ G h).Run Guard.free { world := w } τ s) :
    Holds G τ s :=
  hrun.invariant (I := Holds G) (holds_start w) fun _ _ _ _ _ hI _ hstep => hI.step (step_cases hstep)

/-- A session collects the details of one group. -/
theorem collected_once {w : World κ A} (hrun : (machine ι κ G h).Run Guard.free { world := w } τ s)
    {group group' : UInt16} (hmem : .collected i group ∈ τ) (hmem' : .collected i group' ∈ τ) :
    group = group' := by
  obtain ⟨x, hx, hgroup, -⟩ := (holds_of_run hrun).once i group hmem
  obtain ⟨y, hy, hgroup', -⟩ := (holds_of_run hrun).once i group' hmem'
  cases hx.symm.trans hy
  exact hgroup.symm.trans hgroup'

/-- Answer by answer, along a run. -/
theorem own_iff_of_run {w : World κ A} (hrun : (machine ι κ G h).Run Guard.free { world := w } τ s) :
    Always (fun τ e => OwnDetails G h τ e ↔ SameGroup h τ e) τ :=
  hrun.always (I := Holds G) (holds_start w)
    (fun _ _ _ _ _ hI _ hstep => hI.step (step_cases hstep))
    fun _ _ _ _ _ hI _ hstep => hI.own_iff (step_cases hstep)

/-- **Connection details belong to whoever has stored last.**  However handshakes and requests are
interleaved, every session that asks is told its own details if and only if, whenever one asks, the
session that has stored last had negotiated the same group. -/
theorem own_details_iff {w : World κ A}
    (hrun : (machine ι κ G h).Run Guard.free { world := w } τ s) :
    Always (OwnDetails G h) τ ↔ Always (SameGroup h) τ := by
  have hall := own_iff_of_run hrun
  exact ⟨fun hown τ₁ e τ₂ hs => (hall τ₁ e τ₂ hs).mp (hown τ₁ e τ₂ hs),
    fun hsame τ₁ e τ₂ hs => (hall τ₁ e τ₂ hs).mpr (hsame τ₁ e τ₂ hs)⟩

/-! ## One session among the others -/

/-- A session, as its HTTP handler sees it. -/
def Engine.session (s : Engine ι κ A) (i : ι) : QuantumSafeHttp.Session κ A where
  world := s.world
  live := (s.sessions i).all fun x => decide (x.stage ≠ .over)

/-- What is answered on one session. -/
def Event.answeredOn (i : ι) : Event ι κ A → Option (QuantumSafeHttp.Event κ A)
  | .answered j e => if j = i then some e else none
  | _ => none

theorem session_setSession {j : ι} (s : Engine ι κ A) (x : TlsSession) :
    (s.setSession j x).session i =
      if i = j then ⟨s.world, decide (x.stage ≠ .over)⟩ else s.session i := by
  by_cases hij : i = j
  · subst hij
    simp [Engine.session, Engine.setSession]
  · simp [Engine.session, Engine.setSession, hij]

/-- A session that is not over, and goes on, is the same to its HTTP handler. -/
theorem session_goesOn {j : ι} (hs : ∀ y, s.sessions j = some y → y.stage ≠ .over)
    (hx : x.stage ≠ .over) : (s.setSession j x).session i = s.session i := by
  rw [session_setSession]
  split
  case isTrue hij =>
    subst hij
    cases hsess : s.sessions i with
    | none => simp [Engine.session, hsess, hx]
    | some y => simp [Engine.session, hsess, hx, hs y hsess]
  case isFalse => rfl

/-- **Every session is an HTTP session**: what the engine answers on it is what `handle_session`
answers, where the other sessions change the world meanwhile. -/
theorem session_run {w : World κ A} (hrun : (machine ι κ G h).Run Guard.free { world := w } τ s)
    (i : ι) : (QuantumSafeHttp.machine κ (handler h)).Run Guard.free ⟨w, true⟩
      (τ.filterMap (Event.answeredOn i)) (s.session i) := by
  refine hrun.project (D := Guard.free) (fun s => s.session i) (Event.answeredOn i)
    fun τ s inp t o _ _ hstep => ?_
  cases step_cases hstep with
  | accept hs => exact Or.inl ⟨session_goesOn (by simp [hs]) (by simp), rfl⟩
  | tlsKemEncapsulate hs => exact Or.inl ⟨session_goesOn (by simp [hs]) (by simp), rfl⟩
  | handshake hs => exact Or.inl ⟨session_goesOn (by simp [hs]) (by simp), rfl⟩
  | store hs => exact Or.inl ⟨session_goesOn (s := s) (by simp [hs]) (by simp), rfl⟩
  | @request j group stage req env reply hs henv hreply hstage =>
    refine Or.inr ?_
    by_cases hij : j = i
    · subst hij
      refine ⟨.request req env, trivial, ?_⟩
      have hlive : reply.response.any QuantumSafeHttp.Response.keepAlive =
          decide (stage ≠ .over) := by
        rw [hstage]
        split
        case isTrue hkeep => simp [hkeep]
        case isFalse hkeep => simp [hkeep]
      simp [QuantumSafeHttp.machine, Engine.session, Engine.setSession, Event.answeredOn, hs,
        ← hreply, hlive]
    · refine ⟨.elsewhere reply.world, trivial, ?_⟩
      simp [QuantumSafeHttp.machine, Engine.session, Engine.setSession, Event.answeredOn, hij,
        Ne.symm hij]
  | @fails j x hs =>
    by_cases hij : i = j
    · refine Or.inr ⟨.fails, trivial, ?_⟩
      simp [hij, QuantumSafeHttp.machine, Engine.session, Engine.setSession]
    · exact Or.inl ⟨by simp [session_setSession, hij], rfl⟩
  | @elsewhere w => exact Or.inr ⟨.elsewhere w, trivial, rfl⟩

/-! ## On the running system -/

/-- A session, from its accept to the end of its handshake. -/
theorem collect {s₀ : Engine ι κ A} (hrun : (machine ι κ G h).Run Guard.free s₀ τ s)
    (hnone : s.sessions i = none) (group : UInt16) :
    (machine ι κ G h).Run Guard.free s₀ (τ ++ [.collected i group])
      (s.setSession i ⟨group, .collected (connectionDetails G group)⟩) := by
  have h₁ := hrun.snoc (i := .accept i) (t := s.setSession i {}) (o := none) trivial
    (by simp [machine, step, hnone])
  have h₂ := h₁.snoc (i := .tlsKemEncapsulate i group) (o := none)
    (t := s.setSession i ⟨group, .handshaking⟩) trivial
    (by simp [machine, step, Engine.setSession])
  have h₃ := h₂.concat (i := .handshake i) (e := .collected i group)
    (t := s.setSession i ⟨group, .collected (connectionDetails G group)⟩) trivial
    (by simp [machine, step, Engine.setSession])
  simpa using h₃

/-- Its details are stored, and it is handed over to its HTTP session. -/
theorem store {s₀ : Engine ι κ A} (hrun : (machine ι κ G h).Run Guard.free s₀ τ s) {group : UInt16}
    {details : String} (hs : s.sessions i = some ⟨group, .collected details⟩) :
    (machine ι κ G h).Run Guard.free s₀ (τ ++ [.stored i group])
      { s.setSession i ⟨group, .handling⟩ with latestConnectionDetails := details } :=
  hrun.concat (i := .store i) trivial (by simp [machine, step, hs])

/-- A session that connects, from its handshake to its HTTP session. -/
theorem connect {s₀ : Engine ι κ A} (hrun : (machine ι κ G h).Run Guard.free s₀ τ s)
    (hnone : s.sessions i = none) (group : UInt16) :
    (machine ι κ G h).Run Guard.free s₀ (τ ++ [.collected i group] ++ [.stored i group])
      { s.setSession i ⟨group, .handling⟩ with
        latestConnectionDetails := connectionDetails G group } := by
  have hstored := store (collect hrun hnone group) (update_self ..)
  simpa [Engine.setSession] using hstored

/-- A session that is served is answered, and the others are where they were. -/
theorem answer {s₀ : Engine ι κ A} (hrun : (machine ι κ G h).Run Guard.free s₀ τ s) {group : UInt16}
    (hs : s.sessions i = some ⟨group, .handling⟩) (req : Request) (env : Env κ)
    {reply : QuantumSafeHttp.Reply κ A} (hreply : QuantumSafeHttp.handle (handler h)
      { env with connectionDetails := s.latestConnectionDetails } s.world req = reply) :
    ∃ t, (machine ι κ G h).Run Guard.free s₀ (τ ++ [.answered i
        ⟨req, { env with connectionDetails := s.latestConnectionDetails }, s.world, reply⟩]) t ∧
      t.world = reply.world ∧ ∀ j, j ≠ i → t.sessions j = s.sessions j := by
  have hstep : ∃ stage, (machine ι κ G h).step s (.request i req env) =
      some ({ s.setSession i ⟨group, stage⟩ with world := reply.world }, some (.answered i
        ⟨req, { env with connectionDetails := s.latestConnectionDetails }, s.world, reply⟩)) := by
    simp only [machine, step, hs, hreply]
    exact ⟨_, rfl⟩
  obtain ⟨stage, hstep⟩ := hstep
  exact ⟨_, hrun.concat trivial hstep, rfl, fun j hj => update_of_ne hj _ _⟩

/-- A session that asks with the token. -/
def asks (details : String) : QuantumSafeHttp.Event Unit Addr :=
  let req := QuantumSafeHttp.detailsRequest
    [(.authorization, QuantumSafeHttp.bearerPrefix ++ QuantumSafeHttp.bearerToken)]
  let env := { QuantumSafeHttp.quietEnv with connectionDetails := details }
  ⟨req, env, QuantumSafeHttp.issuedOne,
    QuantumSafeHttp.handle (handler QuantumSafeHttp.oneToken) env QuantumSafeHttp.issuedOne req⟩

theorem asksDetails_asks (details : String) : AsksDetails QuantumSafeHttp.oneToken (asks details) :=
  ⟨rfl, rfl, QuantumSafeHttp.authorised_bearerToken rfl rfl rfl List.lookup_cons_self⟩

theorem response_asks (details : String) : (asks details).reply.response =
    some (QuantumSafeHttp.successText (asks details).req details "application/json") := by
  obtain ⟨token, claims, hreply⟩ :=
    QuantumSafeHttp.handle_details (asksDetails_asks details).2.2 rfl rfl rfl
  exact congrArg QuantumSafeHttp.Reply.response hreply

/-- A session that is served asks, and the others are where they were. -/
theorem ask {s : Engine ℕ Unit Addr} {s₀ : Engine ℕ Unit Addr} {τ : List (Event ℕ Unit Addr)} {i : ℕ}
    {group : UInt16}
    (hrun : (machine ℕ Unit G QuantumSafeHttp.oneToken).Run Guard.free s₀ τ s)
    (hs : s.sessions i = some ⟨group, .handling⟩) (hw : s.world = QuantumSafeHttp.issuedOne) :
    ∃ t, (machine ℕ Unit G QuantumSafeHttp.oneToken).Run Guard.free s₀
        (τ ++ [.answered i (asks s.latestConnectionDetails)]) t ∧
      t.world = QuantumSafeHttp.issuedOne ∧ ∀ j, j ≠ i → t.sessions j = s.sessions j := by
  obtain ⟨token, claims, hreply⟩ := QuantumSafeHttp.handle_details
    (asksDetails_asks s.latestConnectionDetails).2.2 rfl rfl rfl
  obtain ⟨t, hrun', hworld, hother⟩ := answer hrun hs (asks "").req QuantumSafeHttp.quietEnv rfl
  rw [hw] at hrun' hworld
  exact ⟨t, hrun', hworld.trans (congrArg QuantumSafeHttp.Reply.world hreply), hother⟩

end Run

/-- A classical group and a hybrid one. -/
def twoGroups : GroupParams where
  toString group :=
    if group = 0x001d then some "x25519" else if group = 0x11ec then some "X25519MLKEM768" else none
  isPostQuantum group := group = 0x11ec

/-- The first session, on the classical group. -/
theorem connect_classical :
    (machine ℕ Unit twoGroups QuantumSafeHttp.oneToken).Run Guard.free
      { world := QuantumSafeHttp.issuedOne } [.collected 0 0x001d, .stored 0 0x001d]
      { Engine.setSession { world := QuantumSafeHttp.issuedOne } 0 ⟨0x001d, .handling⟩ with
        latestConnectionDetails := connectionDetails twoGroups 0x001d } :=
  connect .nil rfl 0x001d

/-- Two handshakes side by side. -/
theorem collect_two :
    (machine ℕ Unit twoGroups QuantumSafeHttp.oneToken).Run Guard.free
      { world := QuantumSafeHttp.issuedOne } [.collected 0 0x001d, .collected 1 0x11ec]
      (Engine.setSession
        (Engine.setSession { world := QuantumSafeHttp.issuedOne } 0
          ⟨0x001d, .collected (connectionDetails twoGroups 0x001d)⟩) 1
        ⟨0x11ec, .collected (connectionDetails twoGroups 0x11ec)⟩) :=
  collect (collect .nil rfl 0x001d) rfl 0x11ec

/-- Two sessions on different groups are told their own details: the first asks before the second has
stored. -/
theorem own_details_two : ∃ r₀ r₁ s, AsksDetails QuantumSafeHttp.oneToken r₀ ∧
    AsksDetails QuantumSafeHttp.oneToken r₁ ∧
    (machine ℕ Unit twoGroups QuantumSafeHttp.oneToken).Run Guard.free
      { world := QuantumSafeHttp.issuedOne }
      [.collected 0 0x001d, .collected 1 0x11ec, .stored 0 0x001d, .answered 0 r₀, .stored 1 0x11ec,
        .answered 1 r₁] s ∧
    Always (OwnDetails twoGroups QuantumSafeHttp.oneToken)
      [.collected 0 0x001d, .collected 1 0x11ec, .stored 0 0x001d, .answered 0 r₀, .stored 1 0x11ec,
        .answered 1 r₁] := by
  obtain ⟨t, hfirst, hw, hother⟩ := ask (i := 0) (store collect_two (i := 0) rfl) rfl rfl
  have hs : t.sessions 1 = some ⟨0x11ec, .collected (connectionDetails twoGroups 0x11ec)⟩ :=
    hother 1 (by decide)
  have hserved : update t.sessions 1 (some ⟨0x11ec, .handling⟩) 1 = some ⟨0x11ec, .handling⟩ :=
    update_self ..
  obtain ⟨s, hrun, -, -⟩ := ask (i := 1) (store hfirst hs) hserved hw
  refine ⟨_, _, s, asksDetails_asks _, asksDetails_asks _, hrun, (own_details_iff hrun).mpr ?_⟩
  refine ((((((always_nil.append (some _) ?_).append (some _) ?_).append (some _) ?_).append
    (some _) ?_).append (some _) ?_).append (some _) ?_)
  · rintro _ ⟨⟩ i r ⟨⟩
  · rintro _ ⟨⟩ i r ⟨⟩
  · rintro _ ⟨⟩ i r ⟨⟩
  · rintro _ ⟨⟩ i r ⟨⟩ -
    exact ⟨0x001d, by simp, rfl⟩
  · rintro _ ⟨⟩ i r ⟨⟩
  · rintro _ ⟨⟩ i r ⟨⟩ -
    exact ⟨0x11ec, by simp, rfl⟩

/-- **A session on a classical group is told that it is quantum safe**, once another has connected. -/
theorem not_own_details : ∃ τ r s,
    (machine ℕ Unit twoGroups QuantumSafeHttp.oneToken).Run Guard.free
      { world := QuantumSafeHttp.issuedOne } (τ ++ [.answered 0 r]) s ∧
    .collected 0 0x001d ∈ τ ∧ twoGroups.isPostQuantum 0x001d = false ∧
    r.reply.response = some (QuantumSafeHttp.successText r.req
      "\x7b\"kex_algo\": \"X25519MLKEM768\",\"is_quantum_safe\": true,\"wire_code\": \"0x11ec\"\x7d"
      "application/json") ∧
    ¬ Always (OwnDetails twoGroups QuantumSafeHttp.oneToken) (τ ++ [.answered 0 r]) := by
  obtain ⟨s, hrun, -, -⟩ := ask (i := 0) (connect (i := 1) connect_classical rfl 0x11ec) rfl rfl
  have hdetails : connectionDetails twoGroups 0x11ec = "\x7b\"kex_algo\": \"X25519MLKEM768\"," ++
      "\"is_quantum_safe\": true,\"wire_code\": \"0x11ec\"\x7d" := by
    decide +kernel
  refine ⟨_, _, s, hrun, by simp, rfl, ?_, fun hown => ?_⟩
  · exact (response_asks _).trans (by rw [hdetails]; rfl)
  · obtain ⟨group, hmem, hlast⟩ := (own_iff_of_run hrun _ _ [] rfl).mp (hown _ _ [] rfl) 0 _ rfl
      (asksDetails_asks _)
    cases hlast
    simp only [List.cons_append, List.nil_append, List.mem_cons, Event.collected.injEq, reduceCtorEq,
      List.not_mem_nil, or_false, false_or] at hmem
    exact absurd hmem (by decide)

end ManagementSensors.QuantumSafeTlsEngine
