import ManagementSensors.Jwt.RoundTrip

/-!
# Jwt/Spelling — the strings that decode to the same bytes

`base64url_decode` takes the two symbols of either alphabet, takes pads as it finds them, and hands the
rest to the decoder.  One spelling of some bytes is what `base64url_encode` writes, and others are read
as the same (`canonical_iff`); `verify` sees of a signature segment what it is decoded to, so that a
token stands for all the spellings of its signature (`strict_iff`).
-/

open Machinery

namespace ManagementSensors.JwtManager

variable {s t u : Bytes} {c : UInt8}

/-! ## Canonical strings -/

/-- **A canonical string**: base64url characters, not one more than a multiple of four, and no bit set
in the last that no byte needs. -/
def Canonical (s : Bytes) : Prop :=
  (∀ c ∈ s, isBase64url c = true) ∧ s.length % 4 ≠ 1 ∧
    ∀ c ∈ s.getLast?, ∀ k ∈ Base64.value (ofUrl c),
      (s.length % 4 = 2 → k % 16 = 0) ∧ (s.length % 4 = 3 → k % 4 = 0)

/-- A base64url character is a symbol, and its value is read back. -/
theorem exists_symbol (h : isBase64url c = true) :
    ∃ k < 64, c = toUrl (Base64.symbol k) ∧ Base64.value (ofUrl c) = some k := by
  have hall : ∀ n : Fin 256, isBase64url (UInt8.ofNat n) = true → ∃ k : Fin 64,
      UInt8.ofNat n = toUrl (Base64.symbol k) ∧
        Base64.value (ofUrl (UInt8.ofNat n)) = some k.val := by
    decide +kernel
  obtain ⟨k, hk⟩ := hall ⟨c.toNat, c.toNat_lt⟩ (by rwa [UInt8.ofNat_toNat])
  rw [UInt8.ofNat_toNat] at hk
  exact ⟨k, k.isLt, hk⟩

theorem isBase64url_symbol {k : ℕ} (hk : k < 64) : isBase64url (toUrl (Base64.symbol k)) = true := by
  interval_cases k <;> decide

/-- A group of four does not matter to what follows it. -/
theorem canonical_cons {w x y z : UInt8} : Canonical (w :: x :: y :: z :: s) ↔
    (isBase64url w = true ∧ isBase64url x = true ∧ isBase64url y = true ∧ isBase64url z = true) ∧
      Canonical s := by
  have hlen : (w :: x :: y :: z :: s).length % 4 = s.length % 4 := by
    simp only [List.length_cons]
    omega
  simp only [Canonical, hlen, List.forall_mem_cons]
  cases s with
  | nil => simp
  | cons c s => simp only [List.getLast?_cons_cons]; tauto

/-! ## The encoder writes canonical strings, and every one of them -/

theorem filter_toUrl {k : ℕ} (hk : k < 64) (bytes : Bytes) :
    (toUrl (Base64.symbol k) :: bytes).filter (fun c => c ≠ Base64.pad) =
      toUrl (Base64.symbol k) :: bytes.filter fun c => c ≠ Base64.pad := by
  rw [List.filter_cons, if_pos (decide_eq_true (toUrl_symbol hk).2.1)]

theorem base64urlEncode_one (a : UInt8) : base64urlEncode [a] =
    [toUrl (Base64.symbol (a.toNat / 4)), toUrl (Base64.symbol (a.toNat % 4 * 16))] := by
  have := a.toNat_lt
  rw [base64urlEncode, Base64.encode, List.map_cons, List.map_cons, filter_toUrl (by omega),
    filter_toUrl (by omega)]
  rfl

theorem base64urlEncode_two (a b : UInt8) : base64urlEncode [a, b] =
    [toUrl (Base64.symbol (a.toNat / 4)),
      toUrl (Base64.symbol (a.toNat % 4 * 16 + b.toNat / 16)),
      toUrl (Base64.symbol (b.toNat % 16 * 4))] := by
  have := a.toNat_lt
  have := b.toNat_lt
  rw [base64urlEncode, Base64.encode, List.map_cons, List.map_cons, List.map_cons,
    filter_toUrl (by omega), filter_toUrl (by omega), filter_toUrl (by omega)]
  rfl

theorem base64urlEncode_cons (a b c : UInt8) (bytes : Bytes) :
    base64urlEncode (a :: b :: c :: bytes) =
      toUrl (Base64.symbol (a.toNat / 4)) ::
        toUrl (Base64.symbol (a.toNat % 4 * 16 + b.toNat / 16)) ::
        toUrl (Base64.symbol (b.toNat % 16 * 4 + c.toNat / 64)) ::
        toUrl (Base64.symbol (c.toNat % 64)) :: base64urlEncode bytes := by
  have := a.toNat_lt
  have := b.toNat_lt
  have := c.toNat_lt
  rw [base64urlEncode, Base64.encode, List.map_cons, List.map_cons, List.map_cons, List.map_cons,
    filter_toUrl (by omega), filter_toUrl (by omega), filter_toUrl (by omega),
    filter_toUrl (by omega), base64urlEncode]

/-- What is encoded is canonical. -/
theorem canonical_encode (data : Bytes) : Canonical (base64urlEncode data) := by
  have hvalue : ∀ {k : ℕ}, k < 64 → Base64.value (ofUrl (toUrl (Base64.symbol k))) = some k :=
    fun hk => by rw [(toUrl_symbol hk).1, Base64.value_symbol hk]
  induction data using Base64.encode.induct with
  | case1 =>
    have hnil : base64urlEncode [] = [] := rfl
    simp [hnil, Canonical]
  | case2 a =>
    have := a.toNat_lt
    rw [base64urlEncode_one]
    refine ⟨?_, by simp, ?_⟩
    · simp [isBase64url_symbol (show a.toNat / 4 < 64 by omega),
        isBase64url_symbol (show a.toNat % 4 * 16 < 64 by omega)]
    · simp [hvalue (show a.toNat % 4 * 16 < 64 by omega)]
  | case3 a b =>
    have := a.toNat_lt
    have := b.toNat_lt
    rw [base64urlEncode_two]
    refine ⟨?_, by simp, ?_⟩
    · simp [isBase64url_symbol (show a.toNat / 4 < 64 by omega),
        isBase64url_symbol (show a.toNat % 4 * 16 + b.toNat / 16 < 64 by omega),
        isBase64url_symbol (show b.toNat % 16 * 4 < 64 by omega)]
    · simp [hvalue (show b.toNat % 16 * 4 < 64 by omega)]
  | case4 a b c bytes ih =>
    have := a.toNat_lt
    have := b.toNat_lt
    have := c.toNat_lt
    rw [base64urlEncode_cons, canonical_cons]
    exact ⟨⟨isBase64url_symbol (by omega), isBase64url_symbol (by omega),
      isBase64url_symbol (by omega), isBase64url_symbol (by omega)⟩, ih⟩

theorem toNat_ofNat {n : ℕ} (h : n < 256) : (UInt8.ofNat n).toNat = n :=
  UInt8.toNat_ofNat_of_lt' h

/-- Every canonical string is encoded from some bytes. -/
theorem exists_of_canonical (s : Bytes) (h : Canonical s) : ∃ data, base64urlEncode data = s := by
  match s, h with
  | [], _ => exact ⟨[], rfl⟩
  | [w], h => exact absurd rfl h.2.1
  | [w, x], h =>
    obtain ⟨hurl, -, hlast⟩ := h
    obtain ⟨k, hk, rfl, -⟩ := exists_symbol (hurl w (by simp))
    obtain ⟨l, hl, rfl, hvalue⟩ := exists_symbol (hurl x (by simp))
    have hspare : l % 16 = 0 := (hlast _ rfl l hvalue).1 rfl
    refine ⟨[UInt8.ofNat (k * 4 + l / 16)], ?_⟩
    have ha : (UInt8.ofNat (k * 4 + l / 16)).toNat = k * 4 + l / 16 := toNat_ofNat (by omega)
    rw [base64urlEncode_one, ha, show (k * 4 + l / 16) / 4 = k by omega,
      show (k * 4 + l / 16) % 4 * 16 = l by omega]
  | [w, x, y], h =>
    obtain ⟨hurl, -, hlast⟩ := h
    obtain ⟨k, hk, rfl, -⟩ := exists_symbol (hurl w (by simp))
    obtain ⟨l, hl, rfl, -⟩ := exists_symbol (hurl x (by simp))
    obtain ⟨m, hm, rfl, hvalue⟩ := exists_symbol (hurl y (by simp))
    have hspare : m % 4 = 0 := (hlast _ rfl m hvalue).2 rfl
    refine ⟨[UInt8.ofNat (k * 4 + l / 16), UInt8.ofNat (l % 16 * 16 + m / 4)], ?_⟩
    have ha : (UInt8.ofNat (k * 4 + l / 16)).toNat = k * 4 + l / 16 := toNat_ofNat (by omega)
    have hb : (UInt8.ofNat (l % 16 * 16 + m / 4)).toNat = l % 16 * 16 + m / 4 := toNat_ofNat (by omega)
    rw [base64urlEncode_two, ha, hb, show (k * 4 + l / 16) / 4 = k by omega,
      show (k * 4 + l / 16) % 4 * 16 + (l % 16 * 16 + m / 4) / 16 = l by omega,
      show (l % 16 * 16 + m / 4) % 16 * 4 = m by omega]
  | w :: x :: y :: z :: rest, h =>
    obtain ⟨⟨hw, hx, hy, hz⟩, hrest⟩ := canonical_cons.mp h
    obtain ⟨bytes, rfl⟩ := exists_of_canonical rest hrest
    obtain ⟨k, hk, rfl, -⟩ := exists_symbol hw
    obtain ⟨l, hl, rfl, -⟩ := exists_symbol hx
    obtain ⟨m, hm, rfl, -⟩ := exists_symbol hy
    obtain ⟨n, hn, rfl, -⟩ := exists_symbol hz
    refine ⟨UInt8.ofNat (k * 4 + l / 16) :: UInt8.ofNat (l % 16 * 16 + m / 4) ::
      UInt8.ofNat (m % 4 * 64 + n) :: bytes, ?_⟩
    have ha : (UInt8.ofNat (k * 4 + l / 16)).toNat = k * 4 + l / 16 := toNat_ofNat (by omega)
    have hb : (UInt8.ofNat (l % 16 * 16 + m / 4)).toNat = l % 16 * 16 + m / 4 := toNat_ofNat (by omega)
    have hc : (UInt8.ofNat (m % 4 * 64 + n)).toNat = m % 4 * 64 + n := toNat_ofNat (by omega)
    rw [base64urlEncode_cons, ha, hb, hc, show (k * 4 + l / 16) / 4 = k by omega,
      show (k * 4 + l / 16) % 4 * 16 + (l % 16 * 16 + m / 4) / 16 = l by omega,
      show (l % 16 * 16 + m / 4) % 16 * 4 + (m % 4 * 64 + n) / 64 = m by omega,
      show (m % 4 * 64 + n) % 64 = n by omega]

theorem canonical_iff : Canonical s ↔ ∃ data, base64urlEncode data = s := by
  constructor
  · exact exists_of_canonical s
  · rintro ⟨data, rfl⟩
    exact canonical_encode data

/-! ## Spellings -/

/-- A symbol in which the two alphabets differ. -/
def IsSpecial (c : UInt8) : Prop := c = 43 ∨ c = 45 ∨ c = 47 ∨ c = 95

instance (c : UInt8) : Decidable (IsSpecial c) := inferInstanceAs (Decidable (_ ∨ _ ∨ _ ∨ _))

/-- The same symbol in the other alphabet. -/
def respell (c : UInt8) : UInt8 :=
  if c = 43 then 45 else if c = 45 then 43 else if c = 47 then 95 else if c = 95 then 47 else c

theorem respell_spec (c : UInt8) : ofUrl (respell c) = ofUrl c ∧ (respell c = c ↔ ¬ IsSpecial c) := by
  have hall : ∀ n : Fin 256, ofUrl (respell (UInt8.ofNat n)) = ofUrl (UInt8.ofNat n) ∧
      (respell (UInt8.ofNat n) = UInt8.ofNat n ↔ ¬ IsSpecial (UInt8.ofNat n)) := by
    decide +kernel
  have hc := hall ⟨c.toNat, c.toNat_lt⟩
  rwa [UInt8.ofNat_toNat] at hc

/-- What is put back has no symbol of base64url, and a symbol that differs in it differed before. -/
theorem ofUrl_spec (c : UInt8) : ofUrl c ≠ 45 ∧ ofUrl c ≠ 95 ∧ (¬ IsSpecial (ofUrl c) → ofUrl c = c) := by
  have hall : ∀ n : Fin 256, ofUrl (UInt8.ofNat n) ≠ 45 ∧ ofUrl (UInt8.ofNat n) ≠ 95 ∧
      (¬ IsSpecial (ofUrl (UInt8.ofNat n)) → ofUrl (UInt8.ofNat n) = UInt8.ofNat n) := by
    decide +kernel
  have hc := hall ⟨c.toNat, c.toNat_lt⟩
  rwa [UInt8.ofNat_toNat] at hc

/-- A string of the standard alphabet: one that has no symbol of base64url. -/
def IsStandard (s : Bytes) : Prop := ∀ c ∈ s, c ≠ 45 ∧ c ≠ 95

theorem map_ofUrl (h : IsStandard s) : s.map ofUrl = s := by
  refine (List.map_congr_left fun c hc => ?_).trans (List.map_id s)
  rw [ofUrl, if_neg (h c hc).1, if_neg (h c hc).2, id]

theorem isStandard_map_ofUrl (s : Bytes) : IsStandard (s.map ofUrl) := fun c hc => by
  obtain ⟨d, -, rfl⟩ := List.mem_map.mp hc
  exact ⟨(ofUrl_spec d).1, (ofUrl_spec d).2.1⟩

/-- Whole groups of the standard alphabet are handed on as they are. -/
theorem restored_eq_self (h : IsStandard s) (hlen : s.length % 4 = 0) : restored s = s := by
  simp [restored, map_ofUrl h, hlen]

/-- What is handed on is such. -/
theorem restored_spec (s : Bytes) : IsStandard (restored s) ∧ (restored s).length % 4 = 0 := by
  constructor
  · intro c hc
    rcases List.mem_append.mp hc with hc | hc
    · exact isStandard_map_ofUrl s c hc
    · rw [List.eq_of_mem_replicate hc]
      decide
  · simp only [restored, List.length_append, List.length_map, List.length_replicate]
    omega

theorem restored_respell (s : Bytes) : restored (s.map respell) = restored s := by
  have hback : (s.map respell).map ofUrl = s.map ofUrl := by
    rw [List.map_map]
    exact List.map_congr_left fun c _ => (respell_spec c).1
  rw [restored, hback, restored]

theorem restored_map_ofUrl (s : Bytes) : restored (s.map ofUrl) = restored s := by
  rw [restored, map_ofUrl (isStandard_map_ofUrl s), restored]

/-- A string with a symbol that differs has another spelling. -/
theorem map_respell_eq_self : s.map respell = s ↔ ∀ c ∈ s, ¬ IsSpecial c := by
  have hid : s.map respell = s ↔ s.map respell = s.map id := by rw [List.map_id]
  rw [hid, List.map_inj_left]
  exact forall₂_congr fun c _ => (respell_spec c).2

/-- Without one it is what is put back from it. -/
theorem eq_of_map_ofUrl (hs : ∀ c ∈ s, ¬ IsSpecial c) (h : t.map ofUrl = s) : t = s := by
  rw [← h]
  refine ((List.map_congr_left fun c hc => ?_).trans (List.map_id t)).symm
  exact (ofUrl_spec c).2.2 (hs _ (h ▸ List.mem_map_of_mem hc))

section

variable (base64Decode : Bytes → Option Bytes)

/-- **One spelling of its length**: no symbol that differs, and no other string of the standard
alphabet and of that length that the decoder reads as the same. -/
def OneSpellingOfLength (g : Bytes) : Prop :=
  (∀ c ∈ g, ¬ IsSpecial c) ∧ ∀ u, u.length = g.length → IsStandard u →
    base64Decode (restored u) = base64Decode (restored g) → u = g

/-- **One spelling**: no symbol that differs, whole groups without pads, and no other such string of
the standard alphabet that the decoder reads as the same. -/
structure OneSpelling (g : Bytes) : Prop where
  plain : ∀ c ∈ g, ¬ IsSpecial c
  whole : g.length % 4 = 0
  unpadded : g.getLast? ≠ some Base64.pad
  only : ∀ u, u.length % 4 = 0 → IsStandard u → base64Decode u = base64Decode g → u = g

end

variable {base64Decode : Bytes → Option Bytes} {g : Bytes}

theorem oneSpellingOfLength_iff : OneSpellingOfLength base64Decode g ↔
    ∀ g', g'.length = g.length → base64urlDecode base64Decode g' = base64urlDecode base64Decode g →
      g' = g := by
  constructor
  · rintro ⟨hplain, honly⟩ g' hlen hdecode
    refine eq_of_map_ofUrl hplain (honly _ (by simpa using hlen) (isStandard_map_ofUrl g') ?_)
    rw [restored_map_ofUrl]
    exact hdecode
  · intro h
    refine ⟨map_respell_eq_self.mp (h _ (by simp) ?_), fun u hlen _ hdecode => h u hlen hdecode⟩
    rw [base64urlDecode, restored_respell, base64urlDecode]

theorem oneSpelling_iff : OneSpelling base64Decode g ↔
    ∀ g', base64urlDecode base64Decode g' = base64urlDecode base64Decode g → g' = g := by
  constructor
  · rintro ⟨hplain, hwhole, hunpadded, honly⟩ g' hdecode
    have hself : restored g = g :=
      restored_eq_self (fun c hc => ⟨fun he => hplain c hc (by simp [IsSpecial, he]),
        fun he => hplain c hc (by simp [IsSpecial, he])⟩) hwhole
    rw [base64urlDecode, base64urlDecode, hself] at hdecode
    have hg : restored g' = g := honly _ (restored_spec g').2 (restored_spec g').1 hdecode
    -- No pad is appended, since none is at the end.
    have hpads : (4 - (g'.map ofUrl).length % 4) % 4 = 0 := by
      by_contra hne
      obtain ⟨n, hn⟩ := Nat.exists_eq_succ_of_ne_zero hne
      refine hunpadded ?_
      rw [← hg, restored, hn, List.replicate_succ', ← List.append_assoc, List.getLast?_concat]
    rw [restored, hpads, List.replicate_zero, List.append_nil] at hg
    exact eq_of_map_ofUrl hplain hg
  · intro h
    have hself : restored g = g := by
      refine h _ ?_
      obtain ⟨hstd, hlen⟩ := restored_spec g
      rw [base64urlDecode, restored_eq_self hstd hlen, base64urlDecode]
    have hwhole : g.length % 4 = 0 := hself ▸ (restored_spec g).2
    refine ⟨map_respell_eq_self.mp (h _ ?_), hwhole, fun hlast => ?_, fun u hlen hstd hdecode => h u ?_⟩
    · rw [base64urlDecode, restored_respell, base64urlDecode]
    · -- Without its last pad, it is given that pad again.
      obtain ⟨v, rfl⟩ : ∃ v, g = v ++ [Base64.pad] :=
        ⟨_, (List.dropLast_append_getLast? _ hlast).symm⟩
      have hv : restored v = v ++ [Base64.pad] := by
        have hmap : v.map ofUrl = v := map_ofUrl fun c hc => by
          have hstd := (restored_spec (v ++ [Base64.pad])).1
          rw [hself] at hstd
          exact hstd c (List.mem_append_left _ hc)
        rw [List.length_append, List.length_singleton] at hwhole
        rw [restored, hmap, show (4 - v.length % 4) % 4 = 1 by omega, List.replicate_one]
      have hshort := congrArg List.length (h v (by rw [base64urlDecode, hv, base64urlDecode, hself]))
      simp at hshort
    · rw [base64urlDecode, restored_eq_self hstd hlen, base64urlDecode, hself, hdecode]

/-! ## A token, and its other spellings -/

variable {J : Codec} {verifyMessage : Bytes → Bytes → Bool} {token h p : Bytes} {now : UInt64}

/-- The token with another signature segment. -/
def resigned (h p g : Bytes) : Bytes := h ++ dot :: p ++ dot :: g

/-- **`verify` sees of a signature segment what it is decoded to.** -/
theorem verify_resigned (hseg : segments token = some (h, p, g)) {g' : Bytes}
    (hdecode : base64urlDecode base64Decode g' = base64urlDecode base64Decode g) :
    verify J base64Decode verifyMessage (resigned h p g') now =
      verify J base64Decode verifyMessage token now := by
  obtain ⟨-, hh, hp⟩ := segments_eq hseg
  simp only [verify, resigned, segments_join hh hp, hseg, Option.bind_eq_bind, Option.bind_some,
    hdecode]

/-- A token that is accepted has no other spelling that is, exactly where no other segment is decoded to
the same bytes. -/
theorem rejects_respelled_iff (hseg : segments token = some (h, p, g))
    (hsome : (verify J base64Decode verifyMessage token now).isSome) (E : Bytes → Prop) :
    (∀ g', E g' → g' ≠ g → base64urlDecode base64Decode g' = base64urlDecode base64Decode g →
      verify J base64Decode verifyMessage (resigned h p g') now = none) ↔
    ∀ g', E g' → base64urlDecode base64Decode g' = base64urlDecode base64Decode g → g' = g := by
  constructor
  · intro hrejects g' hE hdecode
    by_contra hne
    have hnone := hrejects g' hE hne hdecode
    rw [verify_resigned hseg hdecode] at hnone
    rw [hnone] at hsome
    cases hsome
  · intro honly g' hE hne hdecode
    exact absurd (honly g' hE hdecode) hne

/-- **When decoding is strict.**  A string is what its bytes are encoded to where it is canonical; a
token has no other spelling where its signature segment has none, and no other of its length where that
has none of its length. -/
theorem strict_iff (J : Codec) (base64Decode : Bytes → Option Bytes)
    (verifyMessage : Bytes → Bytes → Bool)
    (hdecode : ∀ data, base64Decode (Base64.encode data) = some data) :
    (∀ s data, base64urlDecode base64Decode s = some data →
      (base64urlEncode data = s ↔ Canonical s)) ∧
    ∀ token now h p g, segments token = some (h, p, g) →
      (verify J base64Decode verifyMessage token now).isSome →
      ((∀ g', g' ≠ g → base64urlDecode base64Decode g' = base64urlDecode base64Decode g →
        verify J base64Decode verifyMessage (resigned h p g') now = none) ↔
          OneSpelling base64Decode g) ∧
      ((∀ g', g'.length = g.length → g' ≠ g →
        base64urlDecode base64Decode g' = base64urlDecode base64Decode g →
        verify J base64Decode verifyMessage (resigned h p g') now = none) ↔
          OneSpellingOfLength base64Decode g) := by
  refine ⟨fun s data hs => ?_, fun token now h p g hseg hsome => ⟨?_, ?_⟩⟩
  · rw [canonical_iff]
    constructor
    · exact fun henc => ⟨data, henc⟩
    · rintro ⟨data', rfl⟩
      rw [base64urlDecode_encode hdecode] at hs
      rw [Option.some.inj hs]
  · have hall := rejects_respelled_iff hseg hsome fun _ => True
    simp only [true_imp_iff] at hall
    rw [hall, oneSpelling_iff]
  · rw [rejects_respelled_iff hseg hsome, oneSpellingOfLength_iff]

/-- The spelling `-w` of a byte is what it is encoded to, and the segment `AQID` of the administrator's
token has no symbol that differs. -/
theorem strict_admin : Canonical (ascii "-w") ∧
    ((∀ g', g'.length = 4 → g' ≠ ascii "AQID" →
      base64urlDecode Base64.decode g' = base64urlDecode Base64.decode (ascii "AQID") →
      verify adminCodec Base64.decode (fun _ _ => true) (resigned (base64urlEncode jwtHeader)
        (base64urlEncode (adminCodec.serialize adminPayload)) g') 1700000100 = none) ↔
      OneSpellingOfLength Base64.decode (ascii "AQID")) := by
  obtain ⟨hcanonical, htoken⟩ :=
    strict_iff adminCodec Base64.decode (fun _ _ => true) Base64.decode_encode
  have hg : base64urlEncode [1, 2, 3] = ascii "AQID" := by decide
  have hseg := segments_generate adminCodec (ascii "admin") (ascii "operator") 3600 1700000000
    [1, 2, 3]
  rw [hg] at hseg
  exact ⟨(hcanonical (ascii "-w") [251] (by decide)).mp (by decide),
    (htoken adminToken 1700000100 _ _ _ hseg (by decide +kernel)).2⟩

/-- A token whose signature is the byte 251, and the segment it is not generated with. -/
theorem not_strict :
    (base64urlDecode Base64.decode (ascii "+w") = some [251] ∧
      base64urlEncode [251] ≠ ascii "+w") ∧
    let token := generate adminCodec (ascii "admin") (ascii "operator") 3600 1700000000 [251]
    let token' := resigned (base64urlEncode jwtHeader)
      (base64urlEncode (adminCodec.serialize adminPayload)) (ascii "+w")
    token' ≠ token ∧ token'.length = token.length ∧
      (verify adminCodec Base64.decode (fun _ _ => true) token 1700000100).isSome ∧
      (verify adminCodec Base64.decode (fun _ _ => true) token' 1700000100).isSome := by
  decide +kernel

end ManagementSensors.JwtManager
