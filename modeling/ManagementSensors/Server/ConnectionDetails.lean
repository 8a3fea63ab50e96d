import ManagementSensors.Json.JsonUtils
import ManagementSensors.Server.QuantumSafeTlsEngine

/-!
# Server/ConnectionDetails — what a client reads from the connection details

    group ──collect_connection_details_as_json──▸ characters ──parse──▸ value

The details are put together by hand: the name of the group goes to the stream as it is, between two
quotes.  A JSON parser reads the three members back if and only if the name is plain
(`parse_connectionDetails_iff`).  Any other name loses weight, or leaves the parser inside a string when
the text is over.

So whoever asks, in whatever interleaving, is told of a group that some session of the server has
stored, never of the `{}` that the field holds at first, and reads which (`details_answered`).
-/

open Machinery Machinery.Json

namespace ManagementSensors.QuantumSafeTlsEngine

variable {number : List Char → Option Atom} {G : GroupParams} {group : UInt16}

/-! ## The value and its text -/

/-- The name of a group, or `unknown`. -/
def nameOf (G : GroupParams) (group : UInt16) : List Char :=
  ((G.toString group).getD "unknown").toList

/-- The value that the details stand for. -/
def detailsValue (G : GroupParams) (group : UInt16) : Json (List Char) :=
  .object [("kex_algo".toList, .string (nameOf G group)),
    ("is_quantum_safe".toList, .bool (G.isPostQuantum group)),
    ("wire_code".toList, .string ('0' :: 'x' :: hex4 group))]

/-- What stands after the name and its quote. -/
def afterName (G : GroupParams) (group : UInt16) : List Char :=
  ",\"is_quantum_safe\": ".toList ++ (if G.isPostQuantum group then "true" else "false").toList ++
    ",\"wire_code\": \"0x".toList ++ (hex4 group ++ ['"']) ++ ['\x7d']

/-- Its tokens. -/
def tokensAfter (G : GroupParams) (group : UInt16) : List Token :=
  [.comma, .string "is_quantum_safe".toList, .colon, .atom ⟨.bool (G.isPostQuantum group), rfl⟩,
    .comma, .string "wire_code".toList, .colon, .string ('0' :: 'x' :: hex4 group), .closeObject]

theorem toList_quoted :
    "\",\"is_quantum_safe\": ".toList = '"' :: ",\"is_quantum_safe\": ".toList := by
  decide

theorem toList_end : "\"\x7d".toList = ['"', '\x7d'] := by decide

theorem toList_connectionDetails : (connectionDetails G group).toList =
    "\x7b\"kex_algo\": \"".toList ++ (nameOf G group ++ ['"']) ++ afterName G group := by
  unfold afterName
  simp only [connectionDetails, detailsOf, nameOf, String.toList_append, String.toList_ofList,
    toList_quoted, toList_end, List.append_assoc, List.cons_append, List.nil_append]

theorem plain_hex4 (code : UInt16) : Plain (hex4 code) := by
  have hdigit : ∀ n : Fin 16, Plain [Nat.digitChar n] := by decide
  intro c hc
  obtain ⟨n, hn, rfl⟩ := List.mem_map.mp hc
  have hlt : n < 16 := by
    simp only [List.mem_cons, List.not_mem_nil, or_false] at hn
    omega
  exact hdigit ⟨n, hlt⟩ _ (List.mem_singleton_self _)

/-! ## Reading it -/

/-- Up to the name there is one member, with its value begun. -/
theorem run_beforeName : run number .outside "\x7b\"kex_algo\": \"".toList =
    some (.string [], [.openObject, .string "kex_algo".toList, .colon]) := rfl

theorem run_afterName :
    run number .outside (afterName G group) = some (.outside, tokensAfter G group) := by
  have hbegin : run number .outside (",\"is_quantum_safe\": ".toList ++
      (if G.isPostQuantum group then "true" else "false").toList ++ ",\"wire_code\": \"0x".toList) =
        some (.string ['0', 'x'], [.comma, .string "is_quantum_safe".toList, .colon,
          .atom ⟨.bool (G.isPostQuantum group), rfl⟩, .comma, .string "wire_code".toList, .colon]) := by
    cases hpost : G.isPostQuantum group <;> rfl
  refine run_append.mpr ⟨.outside, _, [.closeObject], run_append.mpr ⟨_, _, _, hbegin,
    run_plain (plain_hex4 group), rfl⟩, rfl, rfl⟩

theorem weight_tokensAfter : tokensWeight (tokensAfter G group) = 30 := by
  simp [tokensAfter, Token.weight, hex4]

theorem weight_detailsValue : (detailsValue G group).weight = 38 + (nameOf G group).length := by
  simp [detailsValue, weight, membersWeight, hex4]
  omega

/-- The tokens of the details, where the name is one token, are those of their value. -/
theorem reads_details : Reads ([.openObject, .string "kex_algo".toList, .colon] ++
    [.string (nameOf G group)] ++ tokensAfter G group) (detailsValue G group) := by
  intro stack
  rfl

/-- **What is read of the connection details.**  They are read as the value they stand for if and only
if the name of the group is plain. -/
theorem parse_connectionDetails_iff :
    Json.parse number (connectionDetails G group).toList = some (detailsValue G group) ↔
      Plain (nameOf G group) := by
  rw [toList_connectionDetails, parse_eq_some]
  constructor
  · rintro ⟨ts, hlex, hreads⟩
    obtain ⟨m, _, ts', hrun, hclose, rfl⟩ := lex_eq_some.mp hlex
    obtain ⟨m₁, _, ts₂, hupto, hafter, rfl⟩ := run_append.mp hrun
    obtain ⟨m₀, ts₀, ts₁, hbefore, hname, rfl⟩ := run_append.mp hupto
    cases run_beforeName.symm.trans hbefore
    rcases JsonUtils.run_quote hname with rfl | hin
    · -- the name has ended with its quote: what it weighs decides
      cases run_afterName.symm.trans hafter
      cases hclose
      refine (weight_key hname).2 ?_
      have hle := hreads.weight_le
      have hname := (weight_key hname).1
      rw [weight_detailsValue] at hle
      simp [weight_tokensAfter, Token.weight] at hle hname ⊢
      omega
    · -- it has not: what follows ends inside a string
      have hinner := (run_inner run_afterName hafter rfl).1 rfl hin
      have houter := isOuter_of_close hclose
      cases m with
      | string => cases houter
      | outside | word | escape | unicode | high | highEscape => cases hinner
  · intro hplain
    refine ⟨_, lex_eq_some.mpr ⟨.outside, _, [], run_append.mpr ⟨_, _, _, run_append.mpr
      ⟨_, _, _, run_beforeName, run_plain hplain, rfl⟩, run_afterName, rfl⟩, rfl, ?_⟩, reads_details⟩
    rw [List.append_nil, List.nil_append]

/-- The value tells the groups apart. -/
theorem detailsValue_injective (G : GroupParams) : Function.Injective (detailsValue G) := by
  intro a b h
  simp only [detailsValue, Json.object.injEq, List.cons.injEq, Prod.mk.injEq, Json.string.injEq,
    true_and, and_true] at h
  exact hex4_injective h.2.2

/-! ## Along a run -/

section Run

open QuantumSafeHttp (Config World successText)

variable {ι κ A : Type} [DecidableEq ι] {h : Config A} {τ : List (Event ι κ A)}
  {s : Engine ι κ A} {w : World κ A}

/-- **Who asks is told of a group.**  However handshakes and requests are interleaved, every authorised
GET is answered with the details of the group that was stored last, and there is one; they are read as
their value if and only if the name of that group is plain, and their value names no other group. -/
theorem details_answered (number : List Char → Option Atom)
    (hrun : (machine ι κ G h).Run Guard.free { world := w } τ s) :
    Always (fun τ e => ∀ i r, e = .answered i r → AsksDetails h r → ∃ group,
      lastStored τ = some group ∧
      r.reply.response = some (successText r.req (connectionDetails G group) "application/json") ∧
      (Json.parse number (connectionDetails G group).toList = some (detailsValue G group) ↔
        Plain (nameOf G group)) ∧
      ∀ group', detailsValue G group' = detailsValue G group → group' = group) τ := by
  refine hrun.always (I := Holds G) (holds_start w)
    (fun _ _ _ _ _ hI _ hstep => hI.step (step_cases hstep)) ?_
  rintro τ s i t _ hI - hstep i r rfl hasks
  obtain ⟨⟨group₀, hs⟩, hresponse⟩ := reply_of_step (step_cases hstep) hasks
  obtain ⟨group, hgroup⟩ := Option.isSome_iff_exists.mp (hI.handling i group₀ hs)
  have hlatest : s.latestConnectionDetails = connectionDetails G group := by
    rw [hI.latest, hgroup]
    rfl
  rw [hlatest] at hresponse
  exact ⟨group, hgroup, hresponse, parse_connectionDetails_iff, fun _ he => detailsValue_injective G he⟩

end Run

/-- Of two sessions the first asks once both have stored: it reads the group of the second. -/
theorem details_answered_two : ∃ r s,
    (machine ℕ Unit twoGroups QuantumSafeHttp.oneToken).Run Guard.free
      { world := QuantumSafeHttp.issuedOne }
      [.collected 0 0x001d, .collected 1 0x11ec, .stored 0 0x001d, .stored 1 0x11ec, .answered 0 r] s ∧
    r.reply.response = some (QuantumSafeHttp.successText r.req (connectionDetails twoGroups 0x11ec)
      "application/json") ∧
    Json.parse (fun _ => none) (connectionDetails twoGroups 0x11ec).toList =
      some (detailsValue twoGroups 0x11ec) := by
  have hboth := store (store collect_two (i := 0) rfl) (i := 1) rfl
  obtain ⟨s, hrun, -, -⟩ := ask (i := 0) hboth rfl rfl
  obtain ⟨group, hlast, hresponse, hread, -⟩ :=
    details_answered (fun _ => none) hrun _ _ [] rfl 0 _ rfl (asksDetails_asks _)
  cases hlast
  exact ⟨_, s, hrun, hresponse, hread.mpr (by decide)⟩

end ManagementSensors.QuantumSafeTlsEngine
