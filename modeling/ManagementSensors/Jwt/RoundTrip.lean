import Mathlib.Tactic.IntervalCases
import ManagementSensors.Jwt.JwtManager

/-!
# Jwt/RoundTrip — a token verifies until it expires, with the claims it was generated with

`generate` writes both times as `uint64` and `verify` reads them as `int64`; below `2 ^ 63` a number
is parsed as the latter, so that nothing is lost between the two (`readClaims_normal`).  The rest of
the way back is the three segments, which base64url writes without dots, and the expiry.
-/

open Machinery

namespace ManagementSensors.JwtManager

/-- The bytes are the UTF-8 encoding of a text. -/
def IsUtf8 (s : Bytes) : Prop := ∃ t : String, t.toUTF8.data.toList = s

/-- A base64url character: a letter, a digit, `-` or `_`. -/
def isBase64url (c : UInt8) : Bool :=
  (65 ≤ c && c ≤ 90) || (97 ≤ c && c ≤ 122) || (48 ≤ c && c ≤ 57) || c = 45 || c = 95

/-- The object `verify` reads the algorithm from. -/
def jwtHeaderObject : List (Bytes × Json Bytes) :=
  [(ascii "alg", .string (ascii "ES384")), (ascii "typ", .string (ascii "JWT"))]

variable {J : Codec} {base64Decode : Bytes → Option Bytes} {verifyMessage : Bytes → Bytes → Bool}
  {subject role signature : Bytes} {ttlSeconds now t : UInt64}

/-! ## The characters of a token -/

theorem isBase64url_of_mem {data : Bytes} {c : UInt8} (h : c ∈ base64urlEncode data) :
    isBase64url c = true := by
  obtain ⟨symbols, henc, -, hsym⟩ := base64urlEncode_eq data
  rw [henc] at h
  obtain ⟨c, hc, rfl⟩ := List.mem_map.mp h
  obtain ⟨k, hk, rfl⟩ := hsym c hc
  interval_cases k <;> decide

theorem count_dot_base64urlEncode (data : Bytes) : (base64urlEncode data).count dot = 0 :=
  List.count_eq_zero.mpr (dot_notMem_base64urlEncode data)

/-- A token is three base64url texts joined by two dots. -/
theorem count_dot_generate (J : Codec) (subject role : Bytes) (ttlSeconds now : UInt64)
    (signature : Bytes) : (generate J subject role ttlSeconds now signature).count dot = 2 := by
  simp only [generate, signingInput, List.count_append, List.count_cons_self,
    count_dot_base64urlEncode]

theorem mem_generate {c : UInt8} (h : c ∈ generate J subject role ttlSeconds now signature) :
    c = dot ∨ isBase64url c = true := by
  simp only [generate, signingInput, List.mem_append, List.mem_cons] at h
  rcases h with (h | rfl | h) | rfl | h
  · exact Or.inr (isBase64url_of_mem h)
  · exact Or.inl rfl
  · exact Or.inr (isBase64url_of_mem h)
  · exact Or.inl rfl
  · exact Or.inr (isBase64url_of_mem h)

/-! ## The way back -/

theorem segments_generate (J : Codec) (subject role : Bytes) (ttlSeconds now : UInt64)
    (signature : Bytes) : segments (generate J subject role ttlSeconds now signature) =
      some (base64urlEncode jwtHeader,
        base64urlEncode (J.serialize (payload subject role ttlSeconds now)),
        base64urlEncode signature) := by
  rw [generate, signingInput]
  exact segments_join (dot_notMem_base64urlEncode _) (dot_notMem_base64urlEncode _)

/-- base64url gives back what it was given. -/
theorem base64urlDecode_encode (hdecode : ∀ data, base64Decode (Base64.encode data) = some data)
    (data : Bytes) : base64urlDecode base64Decode (base64urlEncode data) = some data := by
  rw [base64urlDecode, restored_base64urlEncode, hdecode]

/-- A base64url character is none of those a token, a header or a line is split at. -/
theorem not_of_isBase64url {c : UInt8} (h : isBase64url c = true) :
    c ≠ dot ∧ c ≠ Base64.pad ∧ c ∉ ascii " \t\n\x0b\x0c\r" := by
  have hnot : (dot :: Base64.pad :: ascii " \t\n\x0b\x0c\r").all (fun c => !isBase64url c) = true := by
    decide
  rw [List.all_eq_true] at hnot
  have hne : ∀ c' ∈ dot :: Base64.pad :: ascii " \t\n\x0b\x0c\r", c ≠ c' := by
    rintro c' hmem rfl
    have hfalse := hnot c hmem
    rw [h] at hfalse
    cases hfalse
  refine ⟨hne dot List.mem_cons_self, hne _ (List.mem_cons_of_mem _ List.mem_cons_self), fun hmem => ?_⟩
  exact hne c (List.mem_cons_of_mem _ (List.mem_cons_of_mem _ hmem)) rfl

/-- **The base64url round trip.** -/
theorem base64url_roundTrip (base64Decode : Bytes → Option Bytes)
    (hdecode : ∀ data, base64Decode (Base64.encode data) = some data) (data : Bytes) :
    (∀ c ∈ base64urlEncode data, isBase64url c = true ∧ c ≠ dot ∧ c ≠ Base64.pad ∧
        c ∉ ascii " \t\n\x0b\x0c\r") ∧
      base64urlDecode base64Decode (base64urlEncode data) = some data := by
  refine ⟨fun c hc => ?_, base64urlDecode_encode hdecode data⟩
  have hurl : isBase64url c = true := isBase64url_of_mem hc
  exact ⟨hurl, not_of_isBase64url hurl⟩

/-- One byte is two characters, and is read back. -/
theorem base64url_roundTrip_byte : base64urlEncode [251] = ascii "-w" ∧
    base64urlDecode Base64.decode (base64urlEncode [251]) = some [251] :=
  ⟨by decide, (base64url_roundTrip Base64.decode Base64.decode_encode [251]).2⟩

theorem toNat_two_pow_63 : (2 ^ 63 : UInt64).toNat = 2 ^ 63 := by decide +kernel

/-- A number below `2 ^ 63` that was written as a `uint64` is read as an `int64`. -/
theorem asInt64_ofUInt64 {n : UInt64} (h : n.toNat < 2 ^ 63) :
    (Json.ofUInt64 n : Json Bytes).asInt64 = some n.toInt64 := by
  rw [Json.ofUInt64, if_pos (UInt64.lt_iff_toNat_lt.mpr (h.trans_eq toNat_two_pow_63.symm)),
    Json.asInt64]

theorem toNat_expiry (h : now.toNat + ttlSeconds.toNat < 2 ^ 63) :
    (now + ttlSeconds).toNat = now.toNat + ttlSeconds.toNat := by
  rw [UInt64.toNat_add, Nat.mod_eq_of_lt (by omega)]

/-- **The claims of a payload that has been parsed** are those it was made of. -/
theorem readClaims_normal (subject role : Bytes) (h : now.toNat + ttlSeconds.toNat < 2 ^ 63) :
    ((payload subject role ttlSeconds now).normal.asObject).bind readClaims =
      some ⟨subject, role, now, now + ttlSeconds⟩ := by
  have hkeys : ascii "iss" ≠ ascii "sub" ∧ ascii "iss" ≠ ascii "role" ∧ ascii "sub" ≠ ascii "role" ∧
      ascii "iss" ≠ ascii "iat" ∧ ascii "sub" ≠ ascii "iat" ∧ ascii "role" ≠ ascii "iat" ∧
      ascii "iss" ≠ ascii "exp" ∧ ascii "sub" ≠ ascii "exp" ∧ ascii "role" ≠ ascii "exp" ∧
      ascii "iat" ≠ ascii "exp" := by decide
  have hnow : now.toNat < 2 ^ 63 := by omega
  have hexp : (now + ttlSeconds).toNat < 2 ^ 63 := by rwa [toNat_expiry h]
  simp [payload, Json.normal, Json.normalMembers, Json.asObject, readClaims, hkeys, Json.asString,
    asInt64_ofUInt64 hnow, asInt64_ofUInt64 hexp]

/-- **What `verify` makes of a token**, at any time. -/
theorem verify_generate (hdecode : ∀ data, base64Decode (Base64.encode data) = some data)
    (hheader : J.parse jwtHeader = some (.object jwtHeaderObject))
    (hjson : (J.parse (J.serialize (payload subject role ttlSeconds now))).isSome)
    (hsig : verifyMessage (signingInput J subject role ttlSeconds now) signature = true)
    (hexp : now.toNat + ttlSeconds.toNat < 2 ^ 63) :
    verify J base64Decode verifyMessage (generate J subject role ttlSeconds now signature) t =
      if t < now + ttlSeconds then some ⟨subject, role, now, now + ttlSeconds⟩ else none := by
  obtain ⟨w, hw⟩ := Option.isSome_iff_exists.mp hjson
  have hclaims := readClaims_normal subject role hexp
  rw [← J.parse_serialize _ _ hw] at hclaims
  obtain ⟨obj, hobj, hread⟩ := Option.bind_eq_some_iff.mp hclaims
  have hhead : (some (Json.object jwtHeaderObject)).bind Json.asObject = some jwtHeaderObject := rfl
  have halg : (Json.member (ascii "alg") jwtHeaderObject).bind Json.asString =
      some (ascii "ES384") := rfl
  have hinput : base64urlEncode jwtHeader ++ dot ::
      base64urlEncode (J.serialize (payload subject role ttlSeconds now)) =
        signingInput J subject role ttlSeconds now := rfl
  simp only [verify, segments_generate, base64urlDecode_encode hdecode, hheader, hhead, hw, hobj,
    hread, halg, hinput, hsig, Option.bind_eq_bind, Option.bind_some, Option.pure_def, guard_true]
  by_cases ht : t < now + ttlSeconds <;> simp [ht, guard]

/-- **Round trip and validity window.** -/
theorem token_roundTrip (J : Codec) (base64Decode : Bytes → Option Bytes)
    (verifyMessage : Bytes → Bytes → Bool) (subject role signature : Bytes)
    (ttlSeconds now : UInt64)
    (hdecode : ∀ data, base64Decode (Base64.encode data) = some data)
    (hheader : J.parse jwtHeader = some (.object jwtHeaderObject))
    (hjson : IsUtf8 subject → IsUtf8 role →
      (J.parse (J.serialize (payload subject role ttlSeconds now))).isSome)
    (hsig : verifyMessage (signingInput J subject role ttlSeconds now) signature = true)
    (hsubject : IsUtf8 subject) (hrole : IsUtf8 role)
    (hexp : now.toNat + ttlSeconds.toNat < 2 ^ 63) :
    let token := generate J subject role ttlSeconds now signature
    token.count dot = 2 ∧ (∀ c ∈ token, c = dot ∨ isBase64url c = true) ∧
      (∀ t < now + ttlSeconds, verify J base64Decode verifyMessage token t =
        some ⟨subject, role, now, now + ttlSeconds⟩) ∧
      ∀ t, now + ttlSeconds ≤ t → verify J base64Decode verifyMessage token t = none := by
  have hverify : ∀ t, _ := fun t =>
    verify_generate (t := t) hdecode hheader (hjson hsubject hrole) hsig hexp
  refine ⟨count_dot_generate _ _ _ _ _ _, fun c => mem_generate, fun t ht => ?_, fun t ht => ?_⟩
  · rw [hverify, if_pos ht]
  · rw [hverify, if_neg (UInt64.not_lt.mpr ht)]

theorem parse_jwtHeader : adminCodec.parse jwtHeader = some (.object jwtHeaderObject) := by
  simp only [adminCodec]
  rw [if_neg (by decide), if_pos trivial]
  rfl

/-- The administrator's token, before and after it expires. -/
theorem token_roundTrip_admin :
    adminToken.count dot = 2 ∧
      verify adminCodec Base64.decode (fun _ _ => true) adminToken 1700003599 =
        some ⟨ascii "admin", ascii "operator", 1700000000, 1700003600⟩ ∧
      verify adminCodec Base64.decode (fun _ _ => true) adminToken 1700003600 = none := by
  obtain ⟨hdots, -, hbefore, hafter⟩ := token_roundTrip adminCodec Base64.decode (fun _ _ => true)
    (ascii "admin") (ascii "operator") [1, 2, 3] 3600 1700000000 Base64.decode_encode
    parse_jwtHeader (fun _ _ => by decide +kernel) rfl ⟨"admin", by decide⟩
    ⟨"operator", by decide⟩ (by decide)
  exact ⟨hdots, hbefore _ (by decide), hafter _ (by decide)⟩

/-- A token goes through a header and back. -/
theorem ascii_bytes (bs : Bytes) :
    ascii (String.ofList (bs.map fun b => Char.ofNat b.toNat)) = bs := by
  rw [ascii, String.toList_ofList, List.map_map]
  refine (List.map_congr_left fun b _ => ?_).trans (List.map_id bs)
  have hb : b.toNat < 256 := b.toNat_lt
  have hval : (Char.ofNat b.toNat).toNat = b.toNat := by
    rw [Char.ofNat, dif_pos (Or.inl (by omega))]
    rfl
  simp [hval]

end ManagementSensors.JwtManager
