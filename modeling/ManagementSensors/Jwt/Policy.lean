import ManagementSensors.Jwt.RoundTrip

/-!
# Jwt/Policy — what `verify` asks of a token whose signature is valid

The header, the subject, the role and the expiry are asked for.  The issuer is not, an `int64` below
zero is read as a `uint64_t`, and a number that is not held as an `int64` is refused.  The policy is
enforced exactly where these defects do not show, or cancel out (`policy_iff`).
-/

open Machinery

namespace ManagementSensors.JwtManager

/-- A member that holds a string. -/
def HasString (obj : List (Bytes × Json Bytes)) (key : String) : Prop :=
  ∃ s, (Json.member (ascii key) obj).bind Json.asString = some s

/-- A member that holds the integer `n`, of either kind. -/
def HasInteger (obj : List (Bytes × Json Bytes)) (key : String) (n : ℤ) : Prop :=
  (Json.member (ascii key) obj).bind Json.asInteger = some n

/-- A member that holds the integer `n` as an `int64`. -/
def HasInt64 (obj : List (Bytes × Json Bytes)) (key : String) (n : Int64) : Prop :=
  (Json.member (ascii key) obj).bind Json.asInt64 = some n

/-- A member that holds an integer below zero. -/
def Negative (obj : List (Bytes × Json Bytes)) (key : String) : Prop :=
  ∃ n, HasInteger obj key n ∧ n < 0

/-- A member that holds an integer as a `uint64`. -/
def HeldAsUInt64 (obj : List (Bytes × Json Bytes)) (key : String) : Prop :=
  ∃ n : UInt64, Json.member (ascii key) obj = some (.uint64 n)

/-- Two integers, of which the second, as a `uint64_t`, is not yet reached. -/
def Unexpired (obj : List (Bytes × Json Bytes)) (now : UInt64) : Prop :=
  ∃ iat exp : ℤ, HasInteger obj "iat" iat ∧ HasInteger obj "exp" exp ∧ now.toNat < exp % 2 ^ 64

/-- What `verify` does not look at: the issuer is missing, or a time is below zero. -/
def SlipsThrough (obj : List (Bytes × Json Bytes)) : Prop :=
  ¬ HasString obj "iss" ∨ Negative obj "iat" ∨ Negative obj "exp"

/-- What it cannot read: a time is held as a `uint64`. -/
def HeldBack (obj : List (Bytes × Json Bytes)) : Prop :=
  HeldAsUInt64 obj "iat" ∨ HeldAsUInt64 obj "exp"

/-- A header that names ES384. -/
def NamesEs384 (header : List (Bytes × Json Bytes)) : Prop :=
  (Json.member (ascii "alg") header).bind Json.asString = some (ascii "ES384")

instance (header : List (Bytes × Json Bytes)) : Decidable (NamesEs384 header) :=
  inferInstanceAs (Decidable (_ = _))

section

variable (J : Codec) (base64Decode : Bytes → Option Bytes)

/-- The object a segment holds. -/
def objectOf (segment : Bytes) : Option (List (Bytes × Json Bytes)) :=
  ((base64urlDecode base64Decode segment).bind J.parse).bind Json.asObject

/-- The header names ES384, and the payload is `obj`, with a subject and a role. -/
structure Presents (h p : Bytes) (obj : List (Bytes × Json Bytes)) : Prop where
  header : ∃ header, objectOf J base64Decode h = some header ∧ NamesEs384 header
  payload : objectOf J base64Decode p = some obj
  sub : HasString obj "sub"
  role : HasString obj "role"

/-- **The token policy**, at time `now`: ES384, an issuer, a subject and a role, and two integers that
are not negative, of which the second is not yet reached. -/
def Policy (h p : Bytes) (now : UInt64) : Prop :=
  ∃ obj, Presents J base64Decode h p obj ∧ HasString obj "iss" ∧
    ∃ iat exp : ℤ, HasInteger obj "iat" iat ∧ HasInteger obj "exp" exp ∧ 0 ≤ iat ∧ 0 ≤ exp ∧
      now.toNat < exp

/-- What `verify` accepts, in the same terms. -/
def Accepts (h p : Bytes) (now : UInt64) : Prop :=
  ∃ obj, Presents J base64Decode h p obj ∧
    ∃ iat exp : Int64, HasInt64 obj "iat" iat ∧ HasInt64 obj "exp" exp ∧ now < exp.toUInt64

/-- **The two defects do not tell**: of the tokens that have not expired, those that no issuer or a time
below zero should have kept out are those that a time above `INT64_MAX` does keep out. -/
def Enforced (h p : Bytes) (now : UInt64) : Prop :=
  ∀ obj, Presents J base64Decode h p obj → Unexpired obj now → (SlipsThrough obj ↔ HeldBack obj)

end

variable {J : Codec} {base64Decode : Bytes → Option Bytes} {verifyMessage : Bytes → Bytes → Bool}
  {token h p g sig : Bytes} {now : UInt64} {obj : List (Bytes × Json Bytes)}

/-- The claims of a payload are its strings and its `int64`s. -/
theorem readClaims_isSome : (∃ claims, readClaims obj = some claims ∧ now < claims.exp) ↔
    HasString obj "sub" ∧ HasString obj "role" ∧
      ∃ iat exp : Int64, HasInt64 obj "iat" iat ∧ HasInt64 obj "exp" exp ∧ now < exp.toUInt64 := by
  simp only [readClaims, HasString, HasInt64, Option.bind_eq_bind, Option.pure_def]
  constructor
  · rintro ⟨claims, hclaims, hlt⟩
    obtain ⟨sub, hsub, hclaims⟩ := Option.bind_eq_some_iff.mp hclaims
    obtain ⟨role, hrole, hclaims⟩ := Option.bind_eq_some_iff.mp hclaims
    obtain ⟨iat, hiat, hclaims⟩ := Option.bind_eq_some_iff.mp hclaims
    obtain ⟨exp, hexp, hclaims⟩ := Option.bind_eq_some_iff.mp hclaims
    cases hclaims
    exact ⟨⟨sub, hsub⟩, ⟨role, hrole⟩, iat, exp, hiat, hexp, hlt⟩
  · rintro ⟨⟨sub, hsub⟩, ⟨role, hrole⟩, iat, exp, hiat, hexp, hlt⟩
    exact ⟨⟨sub, role, iat.toUInt64, exp.toUInt64⟩, by simp only [hsub, hrole, hiat, hexp]; rfl, hlt⟩

/-- **What `verify` accepts** of the tokens whose signature is valid. -/
theorem verify_isSome_iff (hseg : segments token = some (h, p, g))
    (hdecode : base64urlDecode base64Decode g = some sig)
    (hsig : verifyMessage (h ++ dot :: p) sig = true) :
    (verify J base64Decode verifyMessage token now).isSome ↔ Accepts J base64Decode h p now := by
  have hobject : ∀ segment obj, objectOf J base64Decode segment = some obj ↔
      ∃ raw, base64urlDecode base64Decode segment = some raw ∧
        (J.parse raw).bind Json.asObject = some obj := fun segment obj => by
    rw [objectOf, Option.bind_assoc, Option.bind_eq_some_iff]
  rw [Option.isSome_iff_exists]
  simp only [verify, hseg, hdecode, hsig, Option.bind_eq_bind, Option.bind_some, Option.pure_def,
    guard_true]
  constructor
  · rintro ⟨claims, hclaims⟩
    obtain ⟨headerRaw, hraw, hclaims⟩ := Option.bind_eq_some_iff.mp hclaims
    obtain ⟨header, hheader, hclaims⟩ := Option.bind_eq_some_iff.mp hclaims
    obtain ⟨alg, halg, hclaims⟩ := Option.bind_eq_some_iff.mp hclaims
    obtain ⟨_, hes, hclaims⟩ := Option.bind_eq_some_iff.mp hclaims
    obtain ⟨payloadRaw, hpraw, hclaims⟩ := Option.bind_eq_some_iff.mp hclaims
    obtain ⟨obj, hobj, hclaims⟩ := Option.bind_eq_some_iff.mp hclaims
    obtain ⟨claims', hread, hclaims⟩ := Option.bind_eq_some_iff.mp hclaims
    obtain ⟨_, hlt, -⟩ := Option.bind_eq_some_iff.mp hclaims
    obtain rfl := (Option.guard_eq_some' _).mp hes
    obtain ⟨hsub, hrole, htimes⟩ :=
      readClaims_isSome.mp ⟨claims', hread, (Option.guard_eq_some' _).mp hlt⟩
    exact ⟨obj, ⟨⟨header, (hobject _ _).mpr ⟨_, hraw, hheader⟩, halg⟩,
      (hobject _ _).mpr ⟨_, hpraw, hobj⟩, hsub, hrole⟩, htimes⟩
  · rintro ⟨obj, ⟨⟨header, hheader, halg⟩, hpayload, hsub, hrole⟩, htimes⟩
    obtain ⟨headerRaw, hraw, hheader⟩ := (hobject _ _).mp hheader
    obtain ⟨payloadRaw, hpraw, hobj⟩ := (hobject _ _).mp hpayload
    obtain ⟨claims, hread, hlt⟩ := readClaims_isSome.mpr ⟨hsub, hrole, htimes⟩
    rw [NamesEs384] at halg
    exact ⟨claims, by simp [hraw, hheader, halg, hpraw, hobj, hread, hlt, guard]⟩

theorem HasInt64.hasInteger {key : String} {n : Int64} (hn : HasInt64 obj key n) :
    HasInteger obj key n.toInt := by
  obtain ⟨v, hv, hint⟩ := Option.bind_eq_some_iff.mp hn
  exact Option.bind_eq_some_iff.mpr ⟨v, hv, Json.asInteger_of_asInt64 hint⟩

/-- A number held as an `int64` is not held as a `uint64`. -/
theorem HasInt64.not_heldAsUInt64 {key : String} {n : Int64} (hn : HasInt64 obj key n) :
    ¬ HeldAsUInt64 obj key := by
  rintro ⟨u, hu⟩
  rw [HasInt64, hu] at hn
  cases hn

/-- An integer is held in one of the two ways. -/
theorem HasInteger.hasInt64 {key : String} {n : ℤ} (hn : HasInteger obj key n)
    (hheld : ¬ HeldAsUInt64 obj key) : ∃ m : Int64, HasInt64 obj key m ∧ m.toInt = n := by
  obtain ⟨v, hv, hint⟩ := Option.bind_eq_some_iff.mp hn
  cases v with
  | int64 m => exact ⟨m, Option.bind_eq_some_iff.mpr ⟨_, hv, rfl⟩, Option.some.inj hint⟩
  | uint64 u => exact absurd ⟨u, hv⟩ hheld
  | null | bool | double | string | array | object => cases hint

theorem HasInteger.lt {key : String} {n : ℤ} (hn : HasInteger obj key n) : n < 2 ^ 64 := by
  obtain ⟨v, -, hint⟩ := Option.bind_eq_some_iff.mp hn
  cases v with
  | int64 m =>
    obtain rfl : m.toInt = n := Option.some.inj hint
    have := Int64.toInt_lt m
    omega
  | uint64 u =>
    obtain rfl : (u.toNat : ℤ) = n := Option.some.inj hint
    have := UInt64.toNat_lt u
    omega
  | null | bool | double | string | array | object => cases hint

theorem HasInteger.negative_iff {key : String} {n : ℤ} (hn : HasInteger obj key n) :
    Negative obj key ↔ n < 0 := by
  refine ⟨fun ⟨m, hm, hneg⟩ => ?_, fun hneg => ⟨n, hn, hneg⟩⟩
  obtain rfl : n = m := Option.some.inj (hn.symm.trans hm)
  exact hneg

/-- The cast of `exp` to `uint64_t`. -/
theorem lt_toUInt64_iff {n : Int64} : now < n.toUInt64 ↔ now.toNat < n.toInt % 2 ^ 64 := by
  have hcast : (n.toUInt64.toNat : ℤ) = n.toInt % 2 ^ 64 := by
    have hlt := n.toUInt64.toNat_lt
    have hint : n.toInt = (n.toUInt64.toNat : ℤ).bmod (2 ^ 64) := BitVec.toInt_eq_toNat_bmod _
    have hmod : n.toInt % (2 ^ 64 : ℕ) = (n.toUInt64.toNat : ℤ) % (2 ^ 64 : ℕ) := by
      rw [hint, Int.bmod_emod]
    omega
  rw [UInt64.lt_iff_toNat_lt, ← hcast, Int.ofNat_lt]

/-- **What `verify` asks of the times**: that the token has not expired, and that it can read both. -/
theorem unexpired_not_heldBack : (∃ iat exp : Int64, HasInt64 obj "iat" iat ∧ HasInt64 obj "exp" exp ∧
    now < exp.toUInt64) ↔ Unexpired obj now ∧ ¬ HeldBack obj := by
  constructor
  · rintro ⟨iat, exp, hiat, hexp, hlt⟩
    exact ⟨⟨iat.toInt, exp.toInt, hiat.hasInteger, hexp.hasInteger, lt_toUInt64_iff.mp hlt⟩,
      not_or.mpr ⟨hiat.not_heldAsUInt64, hexp.not_heldAsUInt64⟩⟩
  · rintro ⟨⟨iat, exp, hiat, hexp, hlt⟩, hheld⟩
    obtain ⟨hheldIat, hheldExp⟩ := not_or.mp hheld
    obtain ⟨iat', hiat', -⟩ := hiat.hasInt64 hheldIat
    obtain ⟨exp', hexp', rfl⟩ := hexp.hasInt64 hheldExp
    exact ⟨iat', exp', hiat', hexp', lt_toUInt64_iff.mpr hlt⟩

/-- **What the policy asks beside the subject and the role**: that the token has not expired, and that
nothing slips through. -/
theorem unexpired_not_slipsThrough : (HasString obj "iss" ∧ ∃ iat exp : ℤ, HasInteger obj "iat" iat ∧
    HasInteger obj "exp" exp ∧ 0 ≤ iat ∧ 0 ≤ exp ∧ now.toNat < exp) ↔
      Unexpired obj now ∧ ¬ SlipsThrough obj := by
  constructor
  · rintro ⟨hiss, iat, exp, hiat, hexp, hiat0, hexp0, hlt⟩
    refine ⟨⟨iat, exp, hiat, hexp, by rwa [Int.emod_eq_of_lt hexp0 hexp.lt]⟩, ?_⟩
    rw [SlipsThrough, hiat.negative_iff, hexp.negative_iff]
    rintro (hno | hneg | hneg)
    · exact hno hiss
    · omega
    · omega
  · rintro ⟨⟨iat, exp, hiat, hexp, hlt⟩, hslips⟩
    rw [SlipsThrough, hiat.negative_iff, hexp.negative_iff, not_or, not_or, not_not] at hslips
    obtain ⟨hiss, hiat0, hexp0⟩ := hslips
    rw [Int.emod_eq_of_lt (by omega) hexp.lt] at hlt
    exact ⟨hiss, iat, exp, hiat, hexp, by omega, by omega, hlt⟩

/-- **When `verify` enforces the policy** on a token whose signature is valid. -/
theorem policy_iff (J : Codec) (base64Decode : Bytes → Option Bytes)
    (verifyMessage : Bytes → Bytes → Bool) (token h p g sig : Bytes) (now : UInt64)
    (hseg : segments token = some (h, p, g)) (hdecode : base64urlDecode base64Decode g = some sig)
    (hsig : verifyMessage (h ++ dot :: p) sig = true) :
    ((verify J base64Decode verifyMessage token now).isSome ↔ Policy J base64Decode h p now) ↔
      Enforced J base64Decode h p now := by
  rw [verify_isSome_iff hseg hdecode hsig]
  -- The payload is one object only.
  have hunique : ∀ {obj obj'}, Presents J base64Decode h p obj → Presents J base64Decode h p obj' →
      obj' = obj := fun hobj hobj' => Option.some.inj (hobj'.payload.symm.trans hobj.payload)
  have haccepts : ∀ {obj}, Presents J base64Decode h p obj →
      (Accepts J base64Decode h p now ↔ Unexpired obj now ∧ ¬ HeldBack obj) := by
    intro obj hobj
    rw [← unexpired_not_heldBack]
    refine ⟨fun ⟨obj', hobj', htimes⟩ => ?_, fun htimes => ⟨obj, hobj, htimes⟩⟩
    rwa [hunique hobj hobj'] at htimes
  have hpolicy : ∀ {obj}, Presents J base64Decode h p obj →
      (Policy J base64Decode h p now ↔ Unexpired obj now ∧ ¬ SlipsThrough obj) := by
    intro obj hobj
    rw [← unexpired_not_slipsThrough]
    refine ⟨fun ⟨obj', hobj', hclaims⟩ => ?_, fun hclaims => ⟨obj, hobj, hclaims⟩⟩
    rwa [hunique hobj hobj'] at hclaims
  constructor
  · intro hiff obj hobj hunexpired
    have hboth := (haccepts hobj).symm.trans (hiff.trans (hpolicy hobj))
    simp only [hunexpired, true_and] at hboth
    exact (not_iff_not.mp hboth).symm
  · intro henforced
    constructor
    · rintro ⟨obj, hobj, htimes⟩
      obtain ⟨hunexpired, hheld⟩ := unexpired_not_heldBack.mp htimes
      exact (hpolicy hobj).mpr ⟨hunexpired, fun hslips =>
        hheld ((henforced obj hobj hunexpired).mp hslips)⟩
    · rintro ⟨obj, hobj, hclaims⟩
      obtain ⟨hunexpired, hslips⟩ := unexpired_not_slipsThrough.mp hclaims
      exact (haccepts hobj).mpr ⟨hunexpired, fun hheld =>
        hslips ((henforced obj hobj hunexpired).mpr hheld)⟩

/-- What the administrator's token holds. -/
def adminObject : List (Bytes × Json Bytes) :=
  [(ascii "iss", .string (ascii "management-sensors")), (ascii "sub", .string (ascii "admin")),
    (ascii "role", .string (ascii "operator")), (ascii "iat", .int64 1700000000),
    (ascii "exp", .int64 1700003600)]

/-- The administrator's token is of the policy while it has not expired. -/
theorem policy_admin : Policy adminCodec Base64.decode (base64urlEncode jwtHeader)
    (base64urlEncode adminText) 1700000100 := by
  have hpayload : objectOf adminCodec Base64.decode (base64urlEncode adminText) =
      some adminObject := by
    have hparse : adminCodec.parse adminText = some (.object adminObject) := by
      simp only [adminCodec, if_true, adminPayload, payload, Json.normal, Json.normalMembers,
        Json.ofUInt64]
      rw [if_pos (by decide +kernel), if_pos (by decide +kernel)]
      rfl
    rw [objectOf, base64urlDecode_encode Base64.decode_encode, Option.bind_some, hparse]
    rfl
  have henforced : Enforced adminCodec Base64.decode (base64urlEncode jwtHeader)
      (base64urlEncode adminText) 1700000100 := by
    intro obj hobj
    obtain rfl := Option.some.inj (hobj.payload.symm.trans hpayload)
    have hiat : HasInt64 adminObject "iat" 1700000000 := rfl
    have hexp : HasInt64 adminObject "exp" 1700003600 := rfl
    intro _
    rw [SlipsThrough, hiat.hasInteger.negative_iff, hexp.hasInteger.negative_iff]
    refine iff_of_false (not_or.mpr ⟨not_not.mpr ⟨_, rfl⟩, by decide⟩)
      (not_or.mpr ⟨hiat.not_heldAsUInt64, hexp.not_heldAsUInt64⟩)
  exact ((policy_iff adminCodec Base64.decode (fun _ _ => true) adminToken _ _
    (base64urlEncode [1, 2, 3]) [1, 2, 3] 1700000100 (segments_generate _ _ _ _ _ _)
    (base64urlDecode_encode Base64.decode_encode _) rfl).mpr henforced).mp (by decide +kernel)

/-- The payload of a token that no one has issued. -/
def bareText : Bytes :=
  ascii "\x7b\"sub\":\"admin\",\"role\":\"operator\",\"iat\":1700000000,\"exp\":1700003600\x7d"

/-- What it holds. -/
def bareObject : List (Bytes × Json Bytes) := adminObject.tail

/-- A JSON library, at that payload and at the header. -/
def bareCodec : Codec where
  serialize _ := []
  parse t :=
    if t = jwtHeader then some (.object jwtHeaderObject)
    else if t = bareText then some (.object bareObject)
    else none
  parse_serialize _ _ h := by
    rw [if_neg (by decide), if_neg (by decide)] at h
    cases h

/-- That token. -/
def bareToken : Bytes :=
  base64urlEncode jwtHeader ++ dot :: base64urlEncode bareText ++ dot :: base64urlEncode [1, 2, 3]

/-- **A token without an issuer** is accepted. -/
theorem not_policy : ¬ ((verify bareCodec Base64.decode (fun _ _ => true) bareToken
    1700000100).isSome ↔ Policy bareCodec Base64.decode (base64urlEncode jwtHeader)
      (base64urlEncode bareText) 1700000100) := by
  have hpayload : objectOf bareCodec Base64.decode (base64urlEncode bareText) = some bareObject := by
    have hparse : bareCodec.parse bareText = some (.object bareObject) := by
      simp only [bareCodec]
      rw [if_neg (by decide), if_pos trivial]
    rw [objectOf, base64urlDecode_encode Base64.decode_encode, Option.bind_some, hparse]
    rfl
  have hnone : (Json.member (ascii "iss") bareObject).bind Json.asString = none := by decide
  intro hiff
  obtain ⟨obj, hobj, hiss, -⟩ := hiff.mp (by decide +kernel)
  obtain rfl := Option.some.inj (hobj.payload.symm.trans hpayload)
  obtain ⟨iss, hiss⟩ := hiss
  rw [hnone] at hiss
  cases hiss

end ManagementSensors.JwtManager
