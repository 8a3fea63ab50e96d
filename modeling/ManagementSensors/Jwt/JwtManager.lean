import Mathlib.Data.Option.Basic
import ManagementSensors.Machinery.Base64
import ManagementSensors.Machinery.Json
import ManagementSensors.Machinery.Run

/-!
# Jwt/JwtManager — what a token that verifies says

`generate` signs a header and a payload in base 64, joined by a dot; `verify` splits a string at its
first two dots, checks the signature of the first two segments as they stand, and reads the claims
from the second.  The segments of a signed string have no dots, so what was signed can be split in
one way only (`segments_join`), and its payload is decoded to what was encoded
(`base64urlDecode_encode`): the claims are those of the call that signed (`token_authentic`).

The base 64 decoder, the JSON library and the signature scheme are parameters.
-/

open Machinery

namespace ManagementSensors.JwtManager

/-- A `std::string`, or a vector of bytes. -/
abbrev Bytes := List UInt8

/-- The bytes of an ASCII text. -/
def ascii (s : String) : Bytes := s.toList.map fun c => UInt8.ofNat c.toNat

/-- `.` -/
def dot : UInt8 := 46

/-- What `verify` returns. -/
structure JwtClaims where
  sub : Bytes
  role : Bytes
  iat : UInt64
  exp : UInt64
  deriving DecidableEq, Repr

/-- A JSON library over strings of bytes. -/
abbrev Codec := Json.Codec Bytes Bytes

/-! ## base64url -/

/-- `+` is replaced by `-`, and `/` by `_`. -/
def toUrl (c : UInt8) : UInt8 := if c = 43 then 45 else if c = 47 then 95 else c

/-- `-` is replaced by `+`, and `_` by `/`. -/
def ofUrl (c : UInt8) : UInt8 := if c = 45 then 43 else if c = 95 then 47 else c

/-- `base64url_encode`: the two symbols that differ are replaced, the padding is removed. -/
def base64urlEncode (data : Bytes) : Bytes :=
  ((Base64.encode data).map toUrl).filter fun c => c ≠ Base64.pad

/-- The string `base64url_decode` hands to the decoder: the two symbols put back, `=` appended until
the length is a multiple of four. -/
def restored (input : Bytes) : Bytes :=
  let b64 := input.map ofUrl
  b64 ++ List.replicate ((4 - b64.length % 4) % 4) Base64.pad

/-! ## The segments of a token -/

/-- `s.find(c, pos)`. -/
def find (s : Bytes) (c : UInt8) (pos : ℕ) : Option ℕ :=
  ((s.drop pos).findIdx? fun x => x = c).map fun i => pos + i

/-- `s.substr(pos, n)`. -/
def substr (s : Bytes) (pos n : ℕ) : Bytes := (s.drop pos).take n

/-- The header, the payload and the signature, as `verify` cuts them out. -/
def segments (token : Bytes) : Option (Bytes × Bytes × Bytes) := do
  let dot1 ← find token dot 0
  let dot2 ← find token dot (dot1 + 1)
  return (substr token 0 dot1, substr token (dot1 + 1) (dot2 - dot1 - 1), token.drop (dot2 + 1))

/-! ## Generation and verification -/

section

variable (J : Codec)

/-- `JWT_HEADER`. -/
def jwtHeader : Bytes := ascii "\x7b\"alg\":\"ES384\",\"typ\":\"JWT\"\x7d"

/-- The payload of a call of `generate` at time `now`. -/
def payload (subject role : Bytes) (ttlSeconds now : UInt64) : Json Bytes :=
  .object [
    (ascii "iss", .string (ascii "management-sensors")),
    (ascii "sub", .string subject),
    (ascii "role", .string role),
    (ascii "iat", .uint64 now),
    (ascii "exp", .uint64 (now + ttlSeconds))]

/-- What `generate` signs. -/
def signingInput (subject role : Bytes) (ttlSeconds now : UInt64) : Bytes :=
  base64urlEncode jwtHeader ++ dot ::
    base64urlEncode (J.serialize (payload subject role ttlSeconds now))

/-- `generate`, at time `now`, where `signature` is what the signer has produced. -/
def generate (subject role : Bytes) (ttlSeconds now : UInt64) (signature : Bytes) : Bytes :=
  signingInput J subject role ttlSeconds now ++ dot :: base64urlEncode signature

/-- The claims of a payload that has been parsed. -/
def readClaims (obj : List (Bytes × Json Bytes)) : Option JwtClaims := do
  let sub ← (Json.member (ascii "sub") obj).bind Json.asString
  let role ← (Json.member (ascii "role") obj).bind Json.asString
  let iat ← (Json.member (ascii "iat") obj).bind Json.asInt64
  let exp ← (Json.member (ascii "exp") obj).bind Json.asInt64
  return ⟨sub, role, iat.toUInt64, exp.toUInt64⟩

variable (base64Decode : Bytes → Option Bytes)

/-- `base64url_decode`. -/
def base64urlDecode (input : Bytes) : Option Bytes := base64Decode (restored input)

/-- `verify`, at time `now`; every exception is caught. -/
def verify (verifyMessage : Bytes → Bytes → Bool) (token : Bytes) (now : UInt64) :
    Option JwtClaims := do
  let (headerB64, payloadB64, sigB64) ← segments token
  let headerRaw ← base64urlDecode base64Decode headerB64
  let header ← (J.parse headerRaw).bind Json.asObject
  let alg ← (Json.member (ascii "alg") header).bind Json.asString
  guard (alg = ascii "ES384")
  let sigBytes ← base64urlDecode base64Decode sigB64
  guard (verifyMessage (headerB64 ++ dot :: payloadB64) sigBytes)
  let payloadRaw ← base64urlDecode base64Decode payloadB64
  let obj ← (J.parse payloadRaw).bind Json.asObject
  let claims ← readClaims obj
  guard (now < claims.exp)
  return claims

end

/-! ## What is signed can be split in one way -/

variable {s t h p g h' p' : Bytes}

/-- A string is cut at its first dot in one way. -/
theorem join_inj (hh : dot ∉ h) (hh' : dot ∉ h') (he : h ++ dot :: p = h' ++ dot :: p') :
    h = h' ∧ p = p' := by
  induction h generalizing h' with
  | nil =>
    cases h' with
    | nil => exact ⟨rfl, (List.cons.inj he).2⟩
    | cons c h' => exact absurd ((List.cons.inj he).1 ▸ List.mem_cons_self) hh'
  | cons c h ih =>
    cases h' with
    | nil => exact absurd ((List.cons.inj he).1 ▸ List.mem_cons_self) hh
    | cons c' h' =>
      obtain ⟨rfl, htail⟩ := List.cons.inj he
      obtain ⟨rfl, rfl⟩ :=
        ih (List.not_mem_of_not_mem_cons hh) (List.not_mem_of_not_mem_cons hh') htail
      exact ⟨rfl, rfl⟩

theorem find_eq {c : UInt8} {pos i : ℕ} (hf : find s c pos = some i) :
    ∃ u v, s.drop pos = u ++ c :: v ∧ c ∉ u ∧ i = pos + u.length := by
  obtain ⟨j, hj, rfl⟩ := Option.map_eq_some_iff.mp hf
  obtain ⟨hlt, hc, hbefore⟩ := List.findIdx?_eq_some_iff_getElem.mp hj
  refine ⟨(s.drop pos).take j, (s.drop pos).drop (j + 1), ?_, fun hmem => ?_, ?_⟩
  · have hget : (s.drop pos)[j] = c := of_decide_eq_true hc
    rw [← hget, ← List.drop_eq_getElem_cons hlt, List.take_append_drop]
  · obtain ⟨k, hk, hget⟩ := List.mem_take_iff_getElem.mp hmem
    exact hbefore k (by omega) (decide_eq_true hget)
  · rw [List.length_take_of_le hlt.le]

theorem find_of_drop {c : UInt8} {pos : ℕ} {u v : Bytes} (hs : s.drop pos = u ++ c :: v)
    (hu : c ∉ u) : find s c pos = some (pos + u.length) := by
  have hnone : u.findIdx? (fun x => x = c) = none := by
    simp only [List.findIdx?_eq_none_iff, decide_eq_false_iff_not]
    rintro x hx rfl
    exact hu hx
  rw [find, hs, List.findIdx?_append, hnone]
  simp [List.findIdx?_cons]

/-- **The segments of a string** are joined by its first two dots. -/
theorem segments_eq (hs : segments t = some (h, p, g)) :
    t = h ++ dot :: (p ++ dot :: g) ∧ dot ∉ h ∧ dot ∉ p := by
  simp only [segments, Option.bind_eq_bind, Option.bind_eq_some_iff, Option.pure_def,
    Option.some.injEq, Prod.mk.injEq] at hs
  obtain ⟨dot1, h1, dot2, h2, rfl, rfl, rfl⟩ := hs
  obtain ⟨u, v, hu, hdu, rfl⟩ := find_eq h1
  rw [List.drop_zero] at hu
  subst hu
  rw [Nat.zero_add] at h2 ⊢
  obtain ⟨u', v', hu', hdu', rfl⟩ := find_eq h2
  have hdrop : (u ++ dot :: v).drop (u.length + 1) = v := by simp
  rw [hdrop] at hu'
  subst hu'
  have h1 : substr (u ++ dot :: (u' ++ dot :: v')) 0 u.length = u := by simp [substr]
  have h2 : substr (u ++ dot :: (u' ++ dot :: v')) (u.length + 1)
      (u.length + 1 + u'.length - u.length - 1) = u' := by
    rw [substr, hdrop, show u.length + 1 + u'.length - u.length - 1 = u'.length by omega]
    simp
  have h3 : (u ++ dot :: (u' ++ dot :: v')).drop (u.length + 1 + u'.length + 1) = v' := by
    rw [Nat.add_assoc, ← List.drop_drop, hdrop]
    simp
  rw [h1, h2, h3]
  exact ⟨rfl, hdu, hdu'⟩

/-- A string joined from segments without dots has these segments. -/
theorem segments_join (hh : dot ∉ h) (hp : dot ∉ p) :
    segments (h ++ dot :: p ++ dot :: g) = some (h, p, g) := by
  have hs : h ++ dot :: p ++ dot :: g = h ++ dot :: (p ++ dot :: g) := by simp
  have h1 : find (h ++ dot :: (p ++ dot :: g)) dot 0 = some h.length := by
    rw [find_of_drop (u := h) (v := p ++ dot :: g) rfl hh, Nat.zero_add]
  have h2 : find (h ++ dot :: (p ++ dot :: g)) dot (h.length + 1) =
      some (h.length + 1 + p.length) := find_of_drop (v := g) (by simp) hp
  have hseg : (segments (h ++ dot :: (p ++ dot :: g))).isSome := by
    simp [segments, h1, h2]
  obtain ⟨⟨h', p', g'⟩, hseg⟩ := Option.isSome_iff_exists.mp hseg
  obtain ⟨he, hh', hp'⟩ := segments_eq hseg
  obtain ⟨rfl, htail⟩ := join_inj hh hh' he
  obtain ⟨rfl, rfl⟩ := join_inj hp hp' htail
  rw [hs, hseg]

/-! ## What the decoder is handed -/

/-- A symbol survives the two replacements, and is neither a pad nor a dot in between. -/
theorem toUrl_symbol {k : ℕ} (hk : k < 64) : ofUrl (toUrl (Base64.symbol k)) = Base64.symbol k ∧
    toUrl (Base64.symbol k) ≠ Base64.pad ∧ toUrl (Base64.symbol k) ≠ dot := by
  interval_cases k <;> decide

/-- base64url keeps the symbols of an encoding, and they tell how many pads have gone. -/
theorem base64urlEncode_eq (data : Bytes) : ∃ symbols, base64urlEncode data = symbols.map toUrl ∧
    Base64.encode data = symbols ++ List.replicate ((4 - symbols.length % 4) % 4) Base64.pad ∧
    ∀ c ∈ symbols, ∃ k < 64, c = Base64.symbol k := by
  obtain ⟨symbols, n, henc, hn, hlen, hsym⟩ := Base64.encode_eq data
  have hpads : (List.replicate n Base64.pad).map toUrl = List.replicate n Base64.pad :=
    List.map_replicate
  refine ⟨symbols, ?_, ?_, hsym⟩
  · rw [base64urlEncode, henc, List.map_append, List.filter_append, hpads]
    have hkeep : (symbols.map toUrl).filter (fun c => c ≠ Base64.pad) = symbols.map toUrl := by
      refine List.filter_eq_self.mpr fun c hc => ?_
      obtain ⟨c, hmem, rfl⟩ := List.mem_map.mp hc
      obtain ⟨k, hk, rfl⟩ := hsym c hmem
      exact decide_eq_true (toUrl_symbol hk).2.1
    rw [hkeep]
    simp
  · rw [henc, show (4 - symbols.length % 4) % 4 = n by omega]

/-- base64url writes no dots. -/
theorem dot_notMem_base64urlEncode (data : Bytes) : dot ∉ base64urlEncode data := by
  obtain ⟨symbols, henc, -, hsym⟩ := base64urlEncode_eq data
  rw [henc]
  intro hmem
  obtain ⟨c, hc, hdot⟩ := List.mem_map.mp hmem
  obtain ⟨k, hk, rfl⟩ := hsym c hc
  exact (toUrl_symbol hk).2.2 hdot

/-- What the decoder is handed is what the encoder has produced. -/
theorem restored_base64urlEncode (data : Bytes) :
    restored (base64urlEncode data) = Base64.encode data := by
  obtain ⟨symbols, henc, hpads, hsym⟩ := base64urlEncode_eq data
  have hback : (symbols.map toUrl).map ofUrl = symbols := by
    rw [List.map_map]
    refine (List.map_congr_left fun c hc => ?_).trans (List.map_id symbols)
    obtain ⟨k, hk, rfl⟩ := hsym c hc
    exact (toUrl_symbol hk).1
  rw [restored, henc, hback, hpads]

/-! ## What is decoded from a payload -/

variable {J : Codec} {base64Decode : Bytes → Option Bytes} {subject role : Bytes}
  {ttlSeconds now : UInt64}

/-- **The claims of a payload**: what is read back from a serialised payload was written there. -/
theorem readClaims_payload {claims : JwtClaims} {obj : List (Bytes × Json Bytes)}
    (hobj : (J.parse (J.serialize (payload subject role ttlSeconds now))).bind Json.asObject = some obj)
    (h : readClaims obj = some claims) : claims = ⟨subject, role, now, now + ttlSeconds⟩ := by
  obtain ⟨w, hw, hobj⟩ := Option.bind_eq_some_iff.mp hobj
  obtain rfl := J.parse_serialize _ _ hw
  simp only [payload, Json.normal, Json.normalMembers, Json.asObject, Option.some.injEq] at hobj
  subst hobj
  -- the keys differ, so each accessor finds the member written under its key
  have hkeys : ascii "iss" ≠ ascii "sub" ∧ ascii "iss" ≠ ascii "role" ∧ ascii "sub" ≠ ascii "role" ∧
      ascii "iss" ≠ ascii "iat" ∧ ascii "sub" ≠ ascii "iat" ∧ ascii "role" ≠ ascii "iat" ∧
      ascii "iss" ≠ ascii "exp" ∧ ascii "sub" ≠ ascii "exp" ∧ ascii "role" ≠ ascii "exp" ∧
      ascii "iat" ≠ ascii "exp" := by decide
  simp only [readClaims, Json.member_cons, hkeys, if_false, if_true, Option.bind_some,
    Option.bind_eq_bind, Json.asString, Option.bind_eq_some_iff, Option.pure_def,
    Option.some.injEq] at h
  obtain ⟨iat, hiat, exp, hexp, rfl⟩ := h
  rw [Json.toUInt64_of_asInt64_ofUInt64 hiat, Json.toUInt64_of_asInt64_ofUInt64 hexp]

/-! ## The manager over time -/

/-- A call of the manager: the clock it reads, and the signature the signer produces. -/
inductive Input
  | generate (subject role : Bytes) (ttlSeconds now : UInt64) (signature : Bytes)
  | verify (token : Bytes) (now : UInt64)

/-- What its caller sees. -/
inductive Event
  | generated (subject role : Bytes) (ttlSeconds now : UInt64) (token : Bytes)
  | verified (token : Bytes) (now : UInt64) (claims : Option JwtClaims)
  deriving DecidableEq

/-- A signature scheme: what verifies, given what has been signed so far.  It is ideal where only
what has been signed does. -/
structure Scheme where
  verifyMessage : List (Bytes × Bytes) → Bytes → Bytes → Bool
  ideal : ∀ signed m sig, verifyMessage signed m sig = true → (m, sig) ∈ signed

variable (J base64Decode) in
/-- The manager, which remembers what its signer has signed. -/
def machine (V : Scheme) : Machine (List (Bytes × Bytes)) Input Event where
  step signed
    | .generate subject role ttlSeconds now signature =>
      some (signed ++ [(signingInput J subject role ttlSeconds now, signature)],
        some (.generated subject role ttlSeconds now
          (generate J subject role ttlSeconds now signature)))
    | .verify token now =>
      some (signed, some (.verified token now (verify J base64Decode (V.verifyMessage signed) token now)))

/-- **An authentic token**: some earlier call has produced a token with the same header and payload
segments, the claims are those of that call, and have not expired. -/
def Authentic (τ : List Event) : Event → Prop
  | .verified token t (some claims) => ∃ subject role ttlSeconds now token',
      .generated subject role ttlSeconds now token' ∈ τ ∧
      (∃ h p g g', segments token = some (h, p, g) ∧ segments token' = some (h, p, g')) ∧
      claims = ⟨subject, role, now, now + ttlSeconds⟩ ∧ t < claims.exp
  | _ => True

/-- What is remembered as signed was signed by a call. -/
def SignedByCalls (J : Codec) (τ : List Event) (signed : List (Bytes × Bytes)) : Prop :=
  ∀ m sig, (m, sig) ∈ signed → ∃ subject role ttlSeconds now signature,
    m = signingInput J subject role ttlSeconds now ∧
    .generated subject role ttlSeconds now (generate J subject role ttlSeconds now signature) ∈ τ

variable {V : Scheme} {τ : List Event} {signed signed' : List (Bytes × Bytes)} {i : Input}
  {o : Option Event}

theorem SignedByCalls.step (h : SignedByCalls J τ signed)
    (hstep : (machine J base64Decode V).step signed i = some (signed', o)) :
    SignedByCalls J (τ ++ o.toList) signed' := by
  intro m sig hm
  cases i with
  | generate subject role ttlSeconds now signature =>
    cases hstep
    rcases List.mem_append.mp hm with hm | hm
    · obtain ⟨subject', role', ttl', now', signature', hsigned, hmem⟩ := h m sig hm
      exact ⟨subject', role', ttl', now', signature', hsigned, List.mem_append_left _ hmem⟩
    · obtain ⟨rfl, rfl⟩ := Prod.mk.inj (List.mem_singleton.mp hm)
      exact ⟨subject, role, ttlSeconds, now, sig, rfl, by simp⟩
  | verify token now =>
    cases hstep
    obtain ⟨subject', role', ttl', now', signature', hsigned, hmem⟩ := h m sig hm
    exact ⟨subject', role', ttl', now', signature', hsigned, List.mem_append_left _ hmem⟩

/-- **What `verify` accepts**: the first two segments were signed as they stand, and the claims are
read from the second. -/
theorem verify_eq {verifyMessage : Bytes → Bytes → Bool} {token : Bytes} {claims : JwtClaims}
    (h : verify J base64Decode verifyMessage token now = some claims) :
    ∃ h p g sig raw obj, segments token = some (h, p, g) ∧
      verifyMessage (h ++ dot :: p) sig = true ∧ base64urlDecode base64Decode p = some raw ∧
      (J.parse raw).bind Json.asObject = some obj ∧ readClaims obj = some claims ∧
      now < claims.exp := by
  simp only [verify, Option.bind_eq_bind, Option.pure_def] at h
  obtain ⟨⟨h', p, g⟩, hseg, h⟩ := Option.bind_eq_some_iff.mp h
  obtain ⟨headerRaw, -, h⟩ := Option.bind_eq_some_iff.mp h
  obtain ⟨header, -, h⟩ := Option.bind_eq_some_iff.mp h
  obtain ⟨alg, -, h⟩ := Option.bind_eq_some_iff.mp h
  obtain ⟨_, -, h⟩ := Option.bind_eq_some_iff.mp h
  obtain ⟨sig, -, h⟩ := Option.bind_eq_some_iff.mp h
  obtain ⟨_, hsig, h⟩ := Option.bind_eq_some_iff.mp h
  obtain ⟨raw, hraw, h⟩ := Option.bind_eq_some_iff.mp h
  obtain ⟨obj, hobj, h⟩ := Option.bind_eq_some_iff.mp h
  obtain ⟨claims', hclaims, h⟩ := Option.bind_eq_some_iff.mp h
  obtain ⟨_, hlt, h⟩ := Option.bind_eq_some_iff.mp h
  cases h
  exact ⟨h', p, g, sig, raw, obj, hseg, (Option.guard_eq_some' _).mp hsig, hraw, hobj, hclaims,
    (Option.guard_eq_some' _).mp hlt⟩

/-- **Token authenticity.**  With an ideal signature scheme, a decoder that gives back what was
encoded and a JSON library that gives back what was serialised, every token that is ever verified is
authentic. -/
theorem token_authentic (hdecode : ∀ data, base64Decode (Base64.encode data) = some data)
    (hrun : (machine J base64Decode V).Run Guard.free [] τ signed) : Always Authentic τ := by
  refine hrun.always (I := SignedByCalls J) (fun _ _ hm => absurd hm List.not_mem_nil)
    (fun _ _ _ _ _ hI _ hstep => hI.step hstep) ?_
  intro τ signed i signed' e hI _ hstep
  unfold Authentic
  split
  case h_2 => trivial
  case h_1 token t claims =>
    cases i with
    | generate => cases hstep
    | verify token' now' =>
      simp only [machine, Option.some.injEq, Prod.mk.injEq, Event.verified.injEq] at hstep
      obtain ⟨rfl, rfl, rfl, hverify⟩ := hstep
      obtain ⟨h, p, g, sig, raw, obj, hseg, hsig, hraw, hobj, hclaims, hlt⟩ := verify_eq hverify
      obtain ⟨subject, role, ttlSeconds, now, signature, hsigned, hmem⟩ :=
        hI _ sig (V.ideal _ _ _ hsig)
      obtain ⟨-, hh, hp⟩ := segments_eq hseg
      -- what was signed is cut at its dot in one way
      obtain ⟨rfl, rfl⟩ := join_inj hh (dot_notMem_base64urlEncode _) hsigned
      rw [base64urlDecode, restored_base64urlEncode, hdecode, Option.some.injEq] at hraw
      subst hraw
      exact ⟨subject, role, ttlSeconds, now, _, hmem, ⟨_, _, _, _, hseg, segments_join hh hp⟩,
        readClaims_payload hobj hclaims, hlt⟩

/-! ## A token -/

/-- Only what has been signed verifies. -/
def ledger : Scheme where
  verifyMessage signed m sig := decide ((m, sig) ∈ signed)
  ideal _ _ _ h := of_decide_eq_true h

/-- The payload of one call of `generate`. -/
def adminPayload : Json Bytes := payload (ascii "admin") (ascii "operator") 3600 1700000000

/-- Its text. -/
def adminText : Bytes := ascii
  "\x7b\"iss\":\"management-sensors\",\"sub\":\"admin\",\"role\":\"operator\",\"iat\":1700000000,\"exp\":1700003600\x7d"

/-- Whether a value is that payload. -/
def isAdminPayload : Json Bytes → Bool
  | .object [(k₁, .string iss), (k₂, .string sub), (k₃, .string role), (k₄, .uint64 iat),
      (k₅, .uint64 exp)] =>
    [k₁, k₂, k₃, k₄, k₅] = ["iss", "sub", "role", "iat", "exp"].map ascii ∧
      [iss, sub, role] = ["management-sensors", "admin", "operator"].map ascii ∧
      iat = 1700000000 ∧ exp = 1700003600
  | _ => false

theorem eq_of_isAdminPayload {v : Json Bytes} (h : isAdminPayload v = true) : v = adminPayload := by
  unfold isAdminPayload at h
  split at h
  case h_1 =>
    simp only [List.map_cons, List.map_nil, List.cons.injEq, and_true, decide_eq_true_eq] at h
    obtain ⟨⟨rfl, rfl, rfl, rfl, rfl⟩, ⟨rfl, rfl, rfl⟩, rfl, rfl⟩ := h
    rfl
  case h_2 => cases h

/-- A JSON library, at that payload and at the header. -/
def adminCodec : Codec where
  serialize v := if isAdminPayload v then adminText else []
  parse t :=
    if t = adminText then some adminPayload.normal
    else if t = jwtHeader then
      some (.object [(ascii "alg", .string (ascii "ES384")), (ascii "typ", .string (ascii "JWT"))])
    else none
  parse_serialize v w h := by
    by_cases hv : isAdminPayload v = true
    · rw [if_pos hv, if_pos rfl] at h
      rw [eq_of_isAdminPayload hv]
      exact (Option.some.inj h).symm
    · rw [if_neg hv, if_neg (by decide), if_neg (by decide)] at h
      cases h

/-- The token of that call. -/
def adminToken : Bytes :=
  generate adminCodec (ascii "admin") (ascii "operator") 3600 1700000000 [1, 2, 3]

/-- A token that is generated and verified. -/
theorem token_authentic_admin :
    Authentic [.generated (ascii "admin") (ascii "operator") 3600 1700000000 adminToken]
      (.verified adminToken 1700000100
        (some ⟨ascii "admin", ascii "operator", 1700000000, 1700003600⟩)) := by
  obtain ⟨s, hrun⟩ := (machine adminCodec Base64.decode ledger).exists_run_of_exec Guard.free []
    [.generate (ascii "admin") (ascii "operator") 3600 1700000000 [1, 2, 3],
      .verify adminToken 1700000100]
    [.generated (ascii "admin") (ascii "operator") 3600 1700000000 adminToken,
      .verified adminToken 1700000100
        (some ⟨ascii "admin", ascii "operator", 1700000000, 1700003600⟩)] (by decide +kernel)
  exact token_authentic Base64.decode_encode hrun [_] _ [] rfl

end ManagementSensors.JwtManager
