import ManagementSensors.Machinery.Json

/-!
# Machinery/JsonLexer — the tokens of a JSON text

    characters ──Mode.next──▸ tokens

A run of single steps, so that a text read in parts is the parts read one after the other
(`run_append`).  How a number is written is a parameter.

The texts that have been read are counted by `weight`.  None comes from nowhere (`weight_run`), and what
stands between quotes keeps its weight only where it is plain (`weight_key`).
-/

namespace Machinery.Json

/-! ## Tokens -/

/-- A value that is one word of a text: a literal, or a number. -/
def isAtom {S : Type*} : Json S → Bool
  | .null | .bool _ | .int64 _ | .uint64 _ | .double _ => true
  | .string _ | .array _ | .object _ => false

/-- What a word is read as. -/
abbrev Atom := {v : Json (List Char) // v.isAtom = true}

inductive Token
  | openObject
  | closeObject
  | openArray
  | closeArray
  | comma
  | colon
  | string (s : List Char)
  | atom (v : Atom)

/-! ## From characters to tokens -/

/-- Where the reading of a text stands, with what has been read of the token. -/
inductive Mode
  | outside
  | word (cs : List Char)
  | string (cs : List Char)
  | escape (cs : List Char)
  | unicode (cs : List Char) (before : Option ℕ) (digits : List ℕ)
  | high (cs : List Char) (unit : ℕ)
  | highEscape (cs : List Char) (unit : ℕ)

/-- White space between tokens. -/
def isWs (c : Char) : Bool := c = ' ' || c = '\t' || c = '\n' || c = '\r'

/-- A character of a literal or of a number. -/
def isWordChar (c : Char) : Bool := c.isAlphanum || c = '+' || c = '-' || c = '.'

/-- The token that a character is. -/
def punctuation : Char → Option Token
  | '{' => some .openObject
  | '}' => some .closeObject
  | '[' => some .openArray
  | ']' => some .closeArray
  | ',' => some .comma
  | ':' => some .colon
  | _ => none

/-- What a character after a backslash stands for. -/
def unescape : Char → Option Char
  | '"' => some '"'
  | '\\' => some '\\'
  | '/' => some '/'
  | 'b' => some '\x08'
  | 'f' => some '\x0c'
  | 'n' => some '\n'
  | 'r' => some '\r'
  | 't' => some '\t'
  | _ => none

def hexDigit (c : Char) : Option ℕ :=
  if c.isDigit then some (c.toNat - 48)
  else if 'a' ≤ c ∧ c ≤ 'f' then some (c.toNat - 87)
  else if 'A' ≤ c ∧ c ≤ 'F' then some (c.toNat - 55)
  else none

def isHighSurrogate (n : ℕ) : Bool := 0xD800 ≤ n && n < 0xDC00

def isLowSurrogate (n : ℕ) : Bool := 0xDC00 ≤ n && n < 0xE000

/-- A code unit has been read: a character, or a half of one.  The halves come in their order. -/
def codeUnit (cs : List Char) : Option ℕ → ℕ → Option Mode
  | none, n =>
    if isHighSurrogate n then some (.high cs n)
    else if isLowSurrogate n then none
    else some (.string (cs ++ [Char.ofNat n]))
  | some unit, n =>
    if isLowSurrogate n then
      some (.string (cs ++ [Char.ofNat (0x10000 + (unit - 0xD800) * 0x400 + (n - 0xDC00))]))
    else none

section Reader

variable (number : List Char → Option Atom)

/-- A word, at its end. -/
def readWord (cs : List Char) : Option Atom :=
  if cs = "null".toList then some ⟨.null, rfl⟩
  else if cs = "true".toList then some ⟨.bool true, rfl⟩
  else if cs = "false".toList then some ⟨.bool false, rfl⟩
  else number cs

/-- A character between tokens. -/
def start (c : Char) : Option (Mode × List Token) :=
  if isWs c then some (.outside, [])
  else if c = '"' then some (.string [], [])
  else if isWordChar c then some (.word [c], [])
  else (punctuation c).map fun t => (.outside, [t])

/-- One character, and the tokens that are complete with it. -/
def Mode.next : Mode → Char → Option (Mode × List Token)
  | .outside, c => start c
  | .word cs, c =>
    if isWordChar c then some (.word (cs ++ [c]), [])
    else do
      let v ← readWord number cs
      let (m, ts) ← start c
      return (m, .atom v :: ts)
  | .string cs, c =>
    if c = '"' then some (.outside, [.string cs])
    else if c = '\\' then some (.escape cs, [])
    else if c.toNat < 32 then none
    else some (.string (cs ++ [c]), [])
  | .escape cs, c =>
    if c = 'u' then some (.unicode cs none [], [])
    else (unescape c).map fun d => (.string (cs ++ [d]), [])
  | .unicode cs before digits, c => do
    let d ← hexDigit c
    if digits.length < 3 then some (.unicode cs before (digits ++ [d]), [])
    else (codeUnit cs before ((digits ++ [d]).foldl (fun n d => 16 * n + d) 0)).map fun m => (m, [])
  | .high cs unit, c => if c = '\\' then some (.highEscape cs unit, []) else none
  | .highEscape cs unit, c => if c = 'u' then some (.unicode cs (some unit) [], []) else none

/-- Some characters, one after the other. -/
def run : Mode → List Char → Option (Mode × List Token)
  | m, [] => some (m, [])
  | m, c :: cs => do
    let (m₁, ts₁) ← m.next number c
    let (m₂, ts₂) ← run m₁ cs
    return (m₂, ts₁ ++ ts₂)

/-- The end of a text. -/
def Mode.close : Mode → Option (List Token)
  | .outside => some []
  | .word cs => (readWord number cs).map fun v => [.atom v]
  | _ => none

/-- The tokens of a text. -/
def lex (t : List Char) : Option (List Token) := do
  let (m, ts) ← run number .outside t
  let ts' ← m.close number
  return ts ++ ts'

end Reader

/-! ## Runs -/

section Runs

variable {number : List Char → Option Atom} {m m' : Mode} {c : Char} {cs u v : List Char}
  {ts : List Token}

theorem run_cons_eq_some : run number m (c :: cs) = some (m', ts) ↔ ∃ m₁ ts₁ ts₂,
    m.next number c = some (m₁, ts₁) ∧ run number m₁ cs = some (m', ts₂) ∧ ts = ts₁ ++ ts₂ := by
  simp only [run, Option.bind_eq_bind, Option.bind_eq_some_iff, Option.pure_def, Option.some.injEq,
    Prod.exists, Prod.mk.injEq]
  constructor
  · rintro ⟨m₁, ts₁, hnext, _, ts₂, hrun, rfl, rfl⟩
    exact ⟨m₁, ts₁, ts₂, hnext, hrun, rfl⟩
  · rintro ⟨m₁, ts₁, ts₂, hnext, hrun, rfl⟩
    exact ⟨m₁, ts₁, hnext, m', ts₂, hrun, rfl, rfl⟩

/-- **A text in two parts** is read part by part. -/
theorem run_append : run number m (u ++ v) = some (m', ts) ↔ ∃ m₁ ts₁ ts₂,
    run number m u = some (m₁, ts₁) ∧ run number m₁ v = some (m', ts₂) ∧ ts = ts₁ ++ ts₂ := by
  induction u generalizing m ts with
  | nil => simp [run]
  | cons c u ih =>
    simp only [List.cons_append, run_cons_eq_some, ih]
    constructor
    · rintro ⟨m₁, ts₁, _, hnext, ⟨m₂, ts₂, ts₃, hu, hv, rfl⟩, rfl⟩
      exact ⟨m₂, ts₁ ++ ts₂, ts₃, ⟨m₁, ts₁, ts₂, hnext, hu, rfl⟩, hv, (List.append_assoc ..).symm⟩
    · rintro ⟨m₂, _, ts₃, ⟨m₁, ts₁, ts₂, hnext, hu, rfl⟩, hv, rfl⟩
      exact ⟨m₁, ts₁, ts₂ ++ ts₃, hnext, ⟨m₂, ts₂, ts₃, hu, hv, rfl⟩, List.append_assoc ..⟩

/-- White space between tokens is skipped. -/
theorem run_ws (hc : isWs c = true) : run number .outside (c :: u) = run number .outside u := by
  rw [run, Mode.next, start, if_pos hc]
  cases hrun : run number .outside u <;> simp [hrun]

theorem lex_eq_some : lex number u = some ts ↔ ∃ m ts₁ ts₂,
    run number .outside u = some (m, ts₁) ∧ m.close number = some ts₂ ∧ ts = ts₁ ++ ts₂ := by
  simp only [lex, Option.bind_eq_bind, Option.bind_eq_some_iff, Option.pure_def, Option.some.injEq,
    Prod.exists]
  exact exists₂_congr fun _ _ => ⟨fun ⟨h, ts₂, hc, ht⟩ => ⟨ts₂, h, hc, ht.symm⟩,
    fun ⟨ts₂, h, hc, ht⟩ => ⟨h, ts₂, hc, ht.symm⟩⟩

/-- **What follows a text** that is complete, and does not continue its last word. -/
theorem run_of_lex (h : lex number u = some ts) (hc : isWordChar c = false) {ts' : List Token} :
    run number .outside (u ++ c :: v) = some (m', ts') ↔
      ∃ ts₂, run number .outside (c :: v) = some (m', ts₂) ∧ ts' = ts ++ ts₂ := by
  obtain ⟨m, ts₁, ts₂, hrun, hclose, rfl⟩ := lex_eq_some.mp h
  have hsplit : run number .outside (u ++ c :: v) = some (m', ts') ↔
      ∃ ts₃, run number m (c :: v) = some (m', ts₃) ∧ ts' = ts₁ ++ ts₃ := by
    rw [run_append]
    constructor
    · rintro ⟨_, _, ts₃, hrun', hrest, rfl⟩
      cases hrun.symm.trans hrun'
      exact ⟨ts₃, hrest, rfl⟩
    · rintro ⟨ts₃, hrest, rfl⟩
      exact ⟨m, ts₁, ts₃, hrun, hrest, rfl⟩
  rw [hsplit]
  cases m with
  | outside =>
    cases hclose
    simp
  | word cs =>
    -- the word ends with this character
    obtain ⟨w, hword, rfl⟩ := Option.map_eq_some_iff.mp hclose
    simp only [run_cons_eq_some, Mode.next, hc, hword, Option.bind_eq_bind, Option.bind_some,
      Option.bind_eq_some_iff, Option.pure_def, Option.some.injEq, Prod.exists, Prod.mk.injEq,
      Bool.false_eq_true, if_false]
    constructor
    · rintro ⟨_, ⟨m₁, _, ts₃, ⟨_, ts₄, hstart, rfl, rfl⟩, hrest, rfl⟩, rfl⟩
      exact ⟨ts₄ ++ ts₃, ⟨_, ts₄, ts₃, hstart, hrest, rfl⟩, by simp⟩
    · rintro ⟨_, ⟨m₁, ts₄, ts₃, hstart, hrest, rfl⟩, rfl⟩
      exact ⟨.atom w :: ts₄ ++ ts₃, ⟨m₁, .atom w :: ts₄, ts₃, ⟨m₁, ts₄, hstart, rfl, rfl⟩, hrest, rfl⟩,
        by simp⟩
  | string | escape | unicode | high | highEscape => cases hclose

/-! ## In and out of a string -/

/-- Between tokens, or in a word. -/
def Mode.isOuter : Mode → Bool
  | .outside | .word _ => true
  | _ => false

/-- In a string, and in no escape. -/
def Mode.isInner : Mode → Bool
  | .string _ => true
  | _ => false

theorem isOuter_of_close (h : m.close number = some ts) : m.isOuter = true := by
  cases m with
  | outside | word => rfl
  | string | escape | unicode | high | highEscape => cases h

/-- Outside a string there is no backslash, and a quote begins one. -/
theorem start_cases (h : start c = some (m, ts)) :
    c ≠ '\\' ∧ (c = '"' → m.isInner = true) ∧ (c ≠ '"' → m.isOuter = true) := by
  have hno : start '\\' = none := rfl
  refine ⟨?_, ?_, fun hc => ?_⟩
  · rintro rfl
    cases hno.symm.trans h
  · rintro rfl
    cases h
    rfl
  · rw [start, if_neg hc] at h
    split at h
    · cases h
      rfl
    · split at h
      · cases h
        rfl
      · obtain ⟨t, -, ht⟩ := Option.map_eq_some_iff.mp h
        cases ht
        rfl

theorem next_outer (hm : m.isOuter = true) (h : m.next number c = some (m', ts)) :
    c ≠ '\\' ∧ (c = '"' → m'.isInner = true) ∧ (c ≠ '"' → m'.isOuter = true) := by
  cases m with
  | outside => exact start_cases h
  | word cs =>
    rw [Mode.next] at h
    split at h
    case isTrue hword =>
      cases h
      refine ⟨?_, ?_, fun _ => rfl⟩
      · rintro rfl
        exact absurd hword (by decide)
      · rintro rfl
        exact absurd hword (by decide)
    case isFalse =>
      obtain ⟨w, -, h⟩ := Option.bind_eq_some_iff.mp h
      obtain ⟨⟨m₁, ts₁⟩, hstart, h⟩ := Option.bind_eq_some_iff.mp h
      cases h
      exact start_cases hstart
  | string | escape | unicode | high | highEscape => cases hm

/-- Inside a string a quote ends it. -/
theorem next_inner (hm : m.isInner = true) (h : m.next number c = some (m', ts)) (hc : c ≠ '\\') :
    (c = '"' → m'.isOuter = true) ∧ (c ≠ '"' → m'.isInner = true) := by
  cases m with
  | string cs =>
    constructor
    · rintro rfl
      cases h
      rfl
    · intro hquote
      rw [Mode.next, if_neg hquote, if_neg hc] at h
      split at h <;> cases h
      rfl
  | outside | word | escape | unicode | high | highEscape => cases hm

/-- **A text that is complete, read inside a string**, ends inside a string, if it can be read at all:
what is outside for the one reading is inside for the other. -/
theorem run_inner {n n' : Mode} {us vs : List Token} (hu : run number m u = some (m', us))
    (hv : run number n u = some (n', vs)) (hm' : m'.isOuter = true) :
    (m.isOuter = true → n.isInner = true → n'.isInner = true) ∧
      (m.isInner = true → n.isOuter = true → n'.isInner = true) := by
  induction u generalizing m n us vs with
  | nil =>
    cases hu
    cases hv
    refine ⟨fun _ hn => hn, fun hm _ => ?_⟩
    cases m' with
    | string => cases hm'
    | outside | word | escape | unicode | high | highEscape => cases hm
  | cons c u ih =>
    obtain ⟨m₁, us₁, us₂, hm₁, hu, -⟩ := run_cons_eq_some.mp hu
    obtain ⟨n₁, vs₁, vs₂, hn₁, hv, -⟩ := run_cons_eq_some.mp hv
    have hstep := ih hu hv
    constructor
    · intro hm hn
      obtain ⟨hc, hquote, hother⟩ := next_outer hm hm₁
      have hn := next_inner hn hn₁ hc
      by_cases h : c = '"'
      · exact hstep.2 (hquote h) (hn.1 h)
      · exact hstep.1 (hother h) (hn.2 h)
    · intro hm hn
      obtain ⟨hc, hquote, hother⟩ := next_outer hn hn₁
      have hm := next_inner hm hm₁ hc
      by_cases h : c = '"'
      · exact hstep.1 (hm.1 h) (hquote h)
      · exact hstep.2 (hm.2 h) (hother h)

/-- After a quote a string begins, goes on, or ends. -/
theorem next_quote (h : m.next number '"' = some (m', ts)) :
    m' = .outside ∧ (∃ cs, m = .string cs ∧ ts = [.string cs]) ∨ m'.isInner = true := by
  cases m with
  | outside =>
    cases h
    exact Or.inr rfl
  | word cs =>
    obtain ⟨w, -, h⟩ := Option.bind_eq_some_iff.mp h
    cases h
    exact Or.inr rfl
  | string cs =>
    cases h
    exact Or.inl ⟨rfl, cs, rfl, rfl⟩
  | escape cs =>
    cases h
    exact Or.inr rfl
  | unicode | high | highEscape => cases h

end Runs

/-! ## Weight -/

/-- The length of the text a token holds. -/
def Token.weight : Token → ℕ
  | .string s => s.length
  | _ => 0

/-- Of some tokens. -/
def tokensWeight (ts : List Token) : ℕ := (ts.map Token.weight).sum

/-- Of what has been read of a string. -/
def Mode.weight : Mode → ℕ
  | .outside | .word _ => 0
  | .string cs | .escape cs | .unicode cs _ _ | .high cs _ | .highEscape cs _ => cs.length

@[simp] theorem tokensWeight_nil : tokensWeight [] = 0 := rfl

@[simp] theorem tokensWeight_cons (t : Token) (ts : List Token) :
    tokensWeight (t :: ts) = t.weight + tokensWeight ts := List.sum_cons

@[simp] theorem tokensWeight_append (ts us : List Token) :
    tokensWeight (ts ++ us) = tokensWeight ts + tokensWeight us := by
  rw [tokensWeight, List.map_append, List.sum_append, tokensWeight, tokensWeight]

section Characters

variable {number : List Char → Option Atom} {m m' : Mode} {c : Char} {cs k u : List Char}
  {ts : List Token}

theorem weight_start (h : start c = some (m, ts)) : m.weight = 0 ∧ tokensWeight ts = 0 := by
  have hpunct : ∀ {d t}, punctuation d = some t → t.weight = 0 := by
    intro d t ht
    unfold punctuation at ht
    split at ht <;> cases ht <;> rfl
  rw [start] at h
  split at h
  · cases h
    exact ⟨rfl, rfl⟩
  split at h
  · cases h
    exact ⟨rfl, rfl⟩
  split at h
  · cases h
    exact ⟨rfl, rfl⟩
  · obtain ⟨t, ht, heq⟩ := Option.map_eq_some_iff.mp h
    cases heq
    exact ⟨rfl, by simp [hpunct ht]⟩

theorem weight_codeUnit {before : Option ℕ} {n : ℕ} (h : codeUnit cs before n = some m) :
    m.weight ≤ cs.length + 1 := by
  cases before with
  | none =>
    rw [codeUnit] at h
    split at h
    · cases h
      exact Nat.le_succ _
    split at h
    · cases h
    · cases h
      simp [Mode.weight]
  | some unit =>
    rw [codeUnit] at h
    split at h
    · cases h
      simp [Mode.weight]
    · cases h

/-- One character gives one character of a text at most. -/
theorem weight_next (h : m.next number c = some (m', ts)) :
    m'.weight + tokensWeight ts ≤ m.weight + 1 := by
  cases m with
  | outside =>
    obtain ⟨hm, hts⟩ := weight_start h
    omega
  | word cs =>
    rw [Mode.next] at h
    split at h
    · cases h
      exact Nat.zero_le _
    · obtain ⟨w, -, h⟩ := Option.bind_eq_some_iff.mp h
      obtain ⟨⟨m₁, ts₁⟩, hstart, h⟩ := Option.bind_eq_some_iff.mp h
      cases h
      obtain ⟨hm, hts⟩ := weight_start hstart
      simp [hm, hts, Token.weight]
  | string cs =>
    rw [Mode.next] at h
    split at h
    · cases h
      simp [Mode.weight, Token.weight]
    split at h
    · cases h
      exact Nat.le_succ _
    split at h
    · cases h
    · cases h
      simp [Mode.weight]
  | escape cs =>
    rw [Mode.next] at h
    split at h
    · cases h
      exact Nat.le_succ _
    · obtain ⟨d, -, heq⟩ := Option.map_eq_some_iff.mp h
      cases heq
      simp [Mode.weight]
  | unicode cs before digits =>
    obtain ⟨d, -, h⟩ := Option.bind_eq_some_iff.mp h
    split at h
    · cases h
      exact Nat.le_succ _
    · obtain ⟨m₁, hunit, heq⟩ := Option.map_eq_some_iff.mp h
      cases heq
      exact weight_codeUnit hunit
  | high cs unit =>
    rw [Mode.next] at h
    split at h <;> cases h
    exact Nat.le_succ _
  | highEscape cs unit =>
    rw [Mode.next] at h
    split at h <;> cases h
    exact Nat.le_succ _

/-- **No text comes from nowhere**: what is read weighs no more than the characters read. -/
theorem weight_run (h : run number m u = some (m', ts)) :
    m'.weight + tokensWeight ts ≤ m.weight + u.length := by
  induction u generalizing m ts with
  | nil =>
    cases h
    simp
  | cons c u ih =>
    obtain ⟨m₁, ts₁, ts₂, hnext, hrun, rfl⟩ := run_cons_eq_some.mp h
    have hstep := weight_next hnext
    have hrest := ih hrun
    rw [tokensWeight_append, List.length_cons]
    omega

/-- The same of a text with a quote after it that ends a string. -/
theorem weight_quoted (h : run number m (u ++ ['"']) = some (.outside, ts)) :
    tokensWeight ts ≤ m.weight + u.length := by
  obtain ⟨m₁, ts₁, ts₂, hu, hquote, rfl⟩ := run_append.mp h
  obtain ⟨m₂, ts₃, ts₄, hnext, hnil, rfl⟩ := run_cons_eq_some.mp hquote
  cases hnil
  have hrest := weight_run hu
  rcases next_quote hnext with ⟨-, cs, rfl, rfl⟩ | hin
  · rw [tokensWeight_append, tokensWeight_append, tokensWeight_cons, tokensWeight_nil]
    exact hrest.trans' (by simp [Token.weight, Mode.weight]; omega)
  · cases hin

/-- A text that stands for itself between quotes. -/
def Plain (k : List Char) : Prop := ∀ c ∈ k, c ≠ '"' ∧ c ≠ '\\' ∧ 32 ≤ c.toNat

instance (k : List Char) : Decidable (Plain k) :=
  List.decidableBAll (fun c => c ≠ '"' ∧ c ≠ '\\' ∧ 32 ≤ c.toNat) k

theorem next_plain (hc : c ≠ '"' ∧ c ≠ '\\' ∧ 32 ≤ c.toNat) :
    (Mode.string cs).next number c = some (.string (cs ++ [c]), []) := by
  rw [Mode.next, if_neg hc.1, if_neg hc.2.1, if_neg (by omega)]

/-- A plain text between quotes is read as it is. -/
theorem run_plain (hk : Plain k) :
    run number (.string cs) (k ++ ['"']) = some (.outside, [.string (cs ++ k)]) := by
  induction k generalizing cs with
  | nil => simp [run, Mode.next]
  | cons c k ih =>
    obtain ⟨hc, hk⟩ := List.forall_mem_cons.mp hk
    refine run_cons_eq_some.mpr ⟨_, [], _, next_plain hc, ih hk, ?_⟩
    simp

/-- **Any other text between quotes loses weight.** -/
theorem weight_key (h : run number (.string cs) (k ++ ['"']) = some (.outside, ts)) :
    tokensWeight ts ≤ cs.length + k.length ∧
      (tokensWeight ts = cs.length + k.length → Plain k) := by
  refine ⟨weight_quoted h, ?_⟩
  induction k generalizing cs ts with
  | nil => exact fun _ => List.forall_mem_nil _
  | cons c k ih =>
    intro hweight
    obtain ⟨m₁, ts₁, ts₂, hnext, hrun, rfl⟩ := run_cons_eq_some.mp h
    have hrest := weight_quoted hrun
    rw [tokensWeight_append, List.length_cons] at hweight
    rw [Mode.next] at hnext
    split at hnext
    case isTrue =>
      -- the string ends here: the quote is lost
      cases hnext
      simp [Mode.weight, Token.weight] at hrest hweight
      omega
    case isFalse hquote =>
      split at hnext
      case isTrue =>
        -- an escape begins here: the backslash is lost
        cases hnext
        simp [Mode.weight] at hrest hweight
        omega
      case isFalse hback =>
        split at hnext
        case isTrue => cases hnext
        case isFalse hcontrol =>
          cases hnext
          refine List.forall_mem_cons.mpr ⟨⟨hquote, hback, by omega⟩, ih hrun ?_⟩
          rw [List.length_append, List.length_singleton]
          simp at hweight
          omega

end Characters

/-! ## Writing a string -/

def hexChar (n : ℕ) : Char := if n < 10 then Char.ofNat (n + 48) else Char.ofNat (n + 87)

/-- The character that stands for another one after a backslash. -/
def shortEscape : Char → Option Char
  | '"' => some '"'
  | '\\' => some '\\'
  | '\x08' => some 'b'
  | '\x0c' => some 'f'
  | '\n' => some 'n'
  | '\r' => some 'r'
  | '\t' => some 't'
  | _ => none

/-- A character of a string, as it is written. -/
def escape (c : Char) : List Char :=
  match shortEscape c with
  | some d => ['\\', d]
  | none =>
    if c.toNat < 32 then ['\\', 'u', '0', '0', hexChar (c.toNat / 16), hexChar (c.toNat % 16)]
    else [c]

/-- A string, as it is written. -/
def quote (s : List Char) : List Char := '"' :: s.flatMap escape ++ ['"']

variable {number : List Char → Option Atom} {cs : List Char}

theorem hexDigit_hexChar {n : ℕ} (h : n < 16) : hexDigit (hexChar n) = some n := by
  have hall : ∀ n : Fin 16, hexDigit (hexChar n) = some n.val := by decide
  exact hall ⟨n, h⟩

theorem unescape_shortEscape {c d : Char} (h : shortEscape c = some d) :
    d ≠ 'u' ∧ unescape d = some c := by
  unfold shortEscape at h
  split at h <;> cases h <;> exact ⟨by decide, rfl⟩

/-- What is written of a character is read as the character. -/
theorem run_escape (c : Char) : run number (.string cs) (escape c) = some (.string (cs ++ [c]), []) := by
  rw [escape]
  split
  case h_1 d hd =>
    obtain ⟨hne, hback⟩ := unescape_shortEscape hd
    simp [run, Mode.next, hne, hback]
  case h_2 hnone =>
    split
    case isTrue hlow =>
      have hhigh := hexDigit_hexChar (n := c.toNat / 16) (by omega)
      have hunit := hexDigit_hexChar (n := c.toNat % 16) (by omega)
      have hvalue : 16 * (c.toNat / 16) + c.toNat % 16 = c.toNat := Nat.div_add_mod ..
      have hzero : hexDigit '0' = some 0 := rfl
      have hcode : codeUnit cs none c.toNat = some (.string (cs ++ [c])) := by
        rw [codeUnit, if_neg, if_neg, Char.ofNat_toNat]
        · simp [isLowSurrogate]
          omega
        · simp [isHighSurrogate]
          omega
      simp [run, Mode.next, hhigh, hunit, hzero, hvalue, hcode]
    case isFalse hcontrol =>
      have hquote : c ≠ '"' := by
        rintro rfl
        cases hnone
      have hback : c ≠ '\\' := by
        rintro rfl
        cases hnone
      exact run_cons_eq_some.mpr ⟨_, [], [], next_plain ⟨hquote, hback, by omega⟩, rfl, rfl⟩

/-- **A string is read back** from what is written of it. -/
theorem lex_quote (s : List Char) : lex number (quote s) = some [.string s] := by
  have hrun : ∀ cs, run number (.string cs) (s.flatMap escape) = some (.string (cs ++ s), []) := by
    induction s with
    | nil => exact fun cs => by rw [List.append_nil]; rfl
    | cons c s ih =>
      intro cs
      rw [List.flatMap_cons]
      exact run_append.mpr ⟨_, [], [], run_escape c, by simpa using ih (cs ++ [c]), rfl⟩
  have hquote : run number .outside (quote s) = some (.outside, [.string s]) := by
    refine run_cons_eq_some.mpr ⟨.string [], [], [.string s], rfl, ?_, rfl⟩
    exact run_append.mpr ⟨_, [], [.string s], hrun [], rfl, rfl⟩
  exact lex_eq_some.mpr ⟨_, _, [], hquote, rfl, rfl⟩

/-! ## Words that are no value -/

section Words

variable {number : List Char → Option Atom} {c : Char} {cs w v : List Char}

theorem isWs_of_isWordChar (h : isWordChar c = true) : isWs c = false := by
  rw [Bool.eq_false_iff]
  intro hws
  simp only [isWs, Bool.or_eq_true, decide_eq_true_eq] at hws
  rcases hws with ((rfl | rfl) | rfl) | rfl <;> exact absurd h (by decide)

/-- A word that is no value stops the reading at its end. -/
theorem run_word_eq_none (hw : w.all isWordChar = true) (hc : isWordChar c = false)
    (hread : readWord number (cs ++ w) = none) : run number (.word cs) (w ++ c :: v) = none := by
  induction w generalizing cs with
  | nil =>
    rw [List.append_nil] at hread
    simp [run, Mode.next, hc, hread]
  | cons d w ih =>
    rw [List.all_cons, Bool.and_eq_true] at hw
    have hread' : readWord number (cs ++ [d] ++ w) = none := by rwa [List.append_assoc]
    have hrest := ih hw.2 hread'
    simp [run, Mode.next, hw.1, hrest]

/-- **A text whose first word is no value** has no tokens. -/
theorem lex_eq_none_of_word {d : Char} (hd : isWordChar d = true) (hw : w.all isWordChar = true)
    (hc : isWordChar c = false) (hread : readWord number (d :: w) = none) :
    lex number (d :: w ++ c :: v) = none := by
  have hquote : d ≠ '"' := by
    rintro rfl
    exact absurd hd (by decide)
  have hrun : run number (.word [d]) (w ++ c :: v) = none := run_word_eq_none hw hc hread
  simp [lex, run, Mode.next, start, isWs_of_isWordChar hd, hquote, hd, hrun]

end Words

end Machinery.Json
