import Mathlib.Data.List.Basic
import Mathlib.Tactic.IntervalCases

/-!
# Machinery/Base64 — the base 64 encoding of RFC 4648

Three bytes are four symbols of six bits; what is left at the end is padded.  `encode_eq` is the
shape of an encoding — symbols, then at most two pads, a multiple of four in all — and
`decode_encode` that decoding it gives the bytes back.
-/

namespace Machinery.Base64

/-- `=`. -/
def pad : UInt8 := 61

/-- The symbol of a six-bit value: letters, digits, `+` and `/`. -/
def symbol (n : ℕ) : UInt8 :=
  if n < 26 then UInt8.ofNat (65 + n)
  else if n < 52 then UInt8.ofNat (71 + n)
  else if n < 62 then UInt8.ofNat (n - 4)
  else if n = 62 then 43
  else 47

/-- The value of a symbol. -/
def value (c : UInt8) : Option ℕ :=
  if 65 ≤ c ∧ c ≤ 90 then some (c.toNat - 65)
  else if 97 ≤ c ∧ c ≤ 122 then some (c.toNat - 71)
  else if 48 ≤ c ∧ c ≤ 57 then some (c.toNat + 4)
  else if c = 43 then some 62
  else if c = 47 then some 63
  else none

/-- The encoding of a string of bytes. -/
def encode : List UInt8 → List UInt8
  | [] => []
  | [a] => [symbol (a.toNat / 4), symbol (a.toNat % 4 * 16), pad, pad]
  | [a, b] =>
    [symbol (a.toNat / 4), symbol (a.toNat % 4 * 16 + b.toNat / 16), symbol (b.toNat % 16 * 4), pad]
  | a :: b :: c :: bytes =>
    symbol (a.toNat / 4) :: symbol (a.toNat % 4 * 16 + b.toNat / 16) ::
      symbol (b.toNat % 16 * 4 + c.toNat / 64) :: symbol (c.toNat % 64) :: encode bytes

/-- The bytes of an encoding; a last group may end in pads. -/
def decode : List UInt8 → Option (List UInt8)
  | [] => some []
  | w :: x :: y :: z :: rest => do
    let w ← value w
    let x ← value x
    let a := UInt8.ofNat (w * 4 + x / 16)
    if y = pad ∧ z = pad ∧ rest = [] then return [a]
    let y ← value y
    let b := UInt8.ofNat (x % 16 * 16 + y / 4)
    if z = pad ∧ rest = [] then return [a, b]
    let z ← value z
    let bytes ← decode rest
    return a :: b :: UInt8.ofNat (y % 4 * 64 + z) :: bytes
  | _ => none

/-! ## Symbols -/

/-- Every value below 64 is read back from its symbol. -/
theorem value_symbol {n : ℕ} (h : n < 64) : value (symbol n) = some n := by
  interval_cases n <;> rfl

/-- A symbol is not a pad. -/
theorem symbol_ne_pad {n : ℕ} (h : n < 64) : symbol n ≠ pad := fun he => by
  have := value_symbol h
  rw [he] at this
  cases this

/-! ## The shape of an encoding -/

/-- **The shape of an encoding**: symbols, and then at most two pads, a multiple of four in all. -/
theorem encode_eq (bytes : List UInt8) : ∃ symbols n, encode bytes = symbols ++ List.replicate n pad ∧
    n ≤ 2 ∧ (symbols.length + n) % 4 = 0 ∧ ∀ c ∈ symbols, ∃ k < 64, c = symbol k := by
  induction bytes using encode.induct with
  | case1 => exact ⟨[], 0, rfl, by omega, rfl, nofun⟩
  | case2 a =>
    have := a.toNat_lt
    refine ⟨[_, _], 2, rfl, le_rfl, by simp, ?_⟩
    simp only [List.mem_cons, List.not_mem_nil, or_false]
    rintro c (rfl | rfl) <;> exact ⟨_, by omega, rfl⟩
  | case3 a b =>
    have := a.toNat_lt
    have := b.toNat_lt
    refine ⟨[_, _, _], 1, rfl, by omega, by simp, ?_⟩
    simp only [List.mem_cons, List.not_mem_nil, or_false]
    rintro c (rfl | rfl | rfl) <;> exact ⟨_, by omega, rfl⟩
  | case4 a b c bytes ih =>
    have := a.toNat_lt
    have := b.toNat_lt
    have := c.toNat_lt
    obtain ⟨symbols, n, heq, hn, hlen, hsym⟩ := ih
    refine ⟨_ :: _ :: _ :: _ :: symbols, n, by rw [encode, heq]; rfl, hn, ?_, ?_⟩
    · simp only [List.length_cons]
      omega
    · simp only [List.mem_cons]
      rintro c (rfl | rfl | rfl | rfl | hc)
      iterate 4 exact ⟨_, by omega, rfl⟩
      exact hsym c hc

theorem ofNat_of_eq {n : ℕ} {a : UInt8} (h : n = a.toNat) : UInt8.ofNat n = a := by
  rw [h, UInt8.ofNat_toNat]

/-- **The round trip.** -/
theorem decode_encode (bytes : List UInt8) : decode (encode bytes) = some bytes := by
  induction bytes using encode.induct with
  | case1 => rfl
  | case2 a =>
    have := a.toNat_lt
    have ha : UInt8.ofNat (a.toNat / 4 * 4 + a.toNat % 4 * 16 / 16) = a := ofNat_of_eq (by omega)
    simp only [encode, decode, value_symbol (show a.toNat / 4 < 64 by omega),
      value_symbol (show a.toNat % 4 * 16 < 64 by omega), Option.bind_eq_bind, Option.bind_some,
      Option.pure_def, and_self, if_true, ha]
  | case3 a b =>
    have := a.toNat_lt
    have := b.toNat_lt
    have hy : b.toNat % 16 * 4 < 64 := by omega
    have ha : UInt8.ofNat (a.toNat / 4 * 4 + (a.toNat % 4 * 16 + b.toNat / 16) / 16) = a :=
      ofNat_of_eq (by omega)
    have hb : UInt8.ofNat ((a.toNat % 4 * 16 + b.toNat / 16) % 16 * 16 + b.toNat % 16 * 4 / 4) = b :=
      ofNat_of_eq (by omega)
    simp only [encode, decode, value_symbol (show a.toNat / 4 < 64 by omega),
      value_symbol (show a.toNat % 4 * 16 + b.toNat / 16 < 64 by omega), value_symbol hy,
      symbol_ne_pad hy, Option.bind_eq_bind, Option.bind_some, Option.pure_def, false_and, and_self,
      if_false, if_true, ha, hb]
  | case4 a b c bytes ih =>
    have := a.toNat_lt
    have := b.toNat_lt
    have := c.toNat_lt
    have hy : b.toNat % 16 * 4 + c.toNat / 64 < 64 := by omega
    have hz : c.toNat % 64 < 64 := by omega
    have ha : UInt8.ofNat (a.toNat / 4 * 4 + (a.toNat % 4 * 16 + b.toNat / 16) / 16) = a :=
      ofNat_of_eq (by omega)
    have hb : UInt8.ofNat ((a.toNat % 4 * 16 + b.toNat / 16) % 16 * 16 +
        (b.toNat % 16 * 4 + c.toNat / 64) / 4) = b := ofNat_of_eq (by omega)
    have hc : UInt8.ofNat ((b.toNat % 16 * 4 + c.toNat / 64) % 4 * 64 + c.toNat % 64) = c :=
      ofNat_of_eq (by omega)
    simp only [encode, decode, value_symbol (show a.toNat / 4 < 64 by omega),
      value_symbol (show a.toNat % 4 * 16 + b.toNat / 16 < 64 by omega), value_symbol hy,
      value_symbol hz, symbol_ne_pad hy, symbol_ne_pad hz, Option.bind_eq_bind, Option.bind_some,
      Option.pure_def, false_and, if_false, ih, ha, hb, hc]

end Machinery.Base64
