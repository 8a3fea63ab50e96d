import ManagementSensors.Machinery.JsonText

/-!
# Json/JsonUtils — the pretty-printer, and what is read of its text

    value ──print──▸ characters ──parse──▸ value

Leaves go through the library's `serialize`, which escapes what it must; keys go to the stream as they
are.  A key that holds a quote, a backslash or a control character is read as something shorter, or as
nothing, and nothing makes up for what it has lost (`print_bounded`).  So the text is read back as the
value it was printed from if and only if every key is plain (`roundTrip_iff`).  Texts are lists of
characters.
-/

open Machinery Machinery.Json

namespace ManagementSensors.JsonUtils

/-- The lines of a loop: each after `indent` and two blanks, and a comma after all but the last. -/
def lines (indent : List Char) : List (List Char) → List Char
  | [] => []
  | u :: us =>
    indent ++ ' ' :: ' ' :: u ++ (if us.isEmpty then ['\n'] else [',', '\n']) ++ lines indent us

section Print

variable (serialize : Json (List Char) → List Char)

mutual

/-- What `print` puts on the stream. -/
def print : Json (List Char) → List Char → List Char
  | .object kvs, indent =>
    '{' :: '\n' :: lines indent (members kvs (indent ++ [' ', ' '])) ++ indent ++ ['}']
  | .array xs, indent =>
    '[' :: '\n' :: lines indent (elements xs (indent ++ [' ', ' '])) ++ indent ++ [']']
  | v, _ => serialize v

/-- The members of an object, each on its line. -/
def members : List (List Char × Json (List Char)) → List Char → List (List Char)
  | [], _ => []
  | (k, v) :: kvs, indent =>
    ('"' :: k ++ '"' :: ' ' :: ':' :: ' ' :: print v indent) :: members kvs indent

/-- The elements of an array, each on its line. -/
def elements : List (Json (List Char)) → List Char → List (List Char)
  | [], _ => []
  | x :: xs, indent => print x indent :: elements xs indent

end

/-- `toString`. -/
def toString (v : Json (List Char)) : List Char := print serialize v []

end Print

variable {number : List Char → Option Atom} {serialize : Json (List Char) → List Char}
  {indent u : List Char} {m m' : Mode} {ts : List Token} {v : Json (List Char)}

theorem print_leaf (hv : v.isLeaf = true) : print serialize v indent = serialize v := by
  cases v with
  | null | bool | int64 | uint64 | double | string => rfl
  | array | object => cases hv

/-- A member, without the line it is on. -/
def memberText (serialize : Json (List Char) → List Char) (indent : List Char)
    (p : List Char × Json (List Char)) : List Char :=
  '"' :: p.1 ++ '"' :: ' ' :: ':' :: ' ' :: print serialize p.2 indent

theorem elements_eq (xs : List (Json (List Char))) :
    elements serialize xs indent = xs.map (print serialize · indent) := by
  induction xs with
  | nil => rw [elements, List.map_nil]
  | cons x xs ih => rw [elements, ih, List.map_cons]

theorem members_eq (kvs : List (List Char × Json (List Char))) :
    members serialize kvs indent = kvs.map (memberText serialize indent) := by
  induction kvs with
  | nil => rw [members, List.map_nil]
  | cons p kvs ih => rw [members, ih, List.map_cons, memberText]

/-! ## The lines of a loop -/

/-- Blanks and nothing else. -/
def Blank (indent : List Char) : Prop := ∀ c ∈ indent, c = ' '

theorem Blank.deeper (h : Blank indent) : Blank (indent ++ [' ', ' ']) := by
  intro c hc
  rcases List.mem_append.mp hc with hc | hc
  · exact h c hc
  · simpa using hc

theorem run_blank (h : Blank indent) : run number .outside (indent ++ u) = run number .outside u := by
  induction indent with
  | nil => rfl
  | cons c indent ih =>
    obtain ⟨rfl, hrest⟩ := List.forall_mem_cons.mp h
    rw [List.cons_append, run_ws rfl, ih hrest]

/-- **The tokens of the lines**, where each text is read. -/
theorem run_lines {α : Type} {text : α → List Char} {tokens : α → List Token} {xs : List α}
    (hblank : Blank indent) (h : ∀ x ∈ xs, lex number (text x) = some (tokens x)) :
    run number .outside (lines indent (xs.map text)) =
      some (.outside, [Token.comma].intercalate (xs.map tokens)) := by
  induction xs with
  | nil => rfl
  | cons x xs ih =>
    obtain ⟨hx, hxs⟩ := List.forall_mem_cons.mp h
    have hrest := ih hxs
    rw [List.map_cons, lines, List.append_assoc, List.append_assoc, run_blank hblank,
      List.cons_append, List.cons_append, run_ws rfl, run_ws rfl]
    cases xs with
    | nil =>
      refine (run_of_lex hx (by decide)).mpr ⟨[], rfl, ?_⟩
      rw [List.map_cons, List.map_nil, List.intercalate_singleton, List.append_nil]
    | cons y xs =>
      refine (run_of_lex hx (by decide)).mpr
        ⟨.comma :: [Token.comma].intercalate ((y :: xs).map tokens), ?_, ?_⟩
      · exact run_cons_eq_some.mpr ⟨.outside, [.comma], _, rfl, (run_ws rfl).trans hrest, rfl⟩
      · rw [List.map_cons, List.map_cons, List.intercalate_cons_cons]
        simp

/-- Brackets around lines. -/
theorem lex_brackets {o c : Char} {a b : Token} {body : List Char} (hblank : Blank indent)
    (ho : start o = some (.outside, [a])) (hc : start c = some (.outside, [b]))
    (hbody : run number .outside body = some (.outside, ts)) :
    lex number (o :: '\n' :: body ++ indent ++ [c]) = some (a :: (ts ++ [b])) := by
  have hclose : run number .outside (indent ++ [c]) = some (.outside, [b]) := by
    rw [run_blank hblank]
    exact run_cons_eq_some.mpr ⟨_, _, [], hc, rfl, rfl⟩
  have hrun : run number .outside (o :: '\n' :: body ++ indent ++ [c]) =
      some (.outside, [a] ++ (ts ++ [b])) := by
    rw [List.append_assoc, List.cons_append, List.cons_append]
    refine run_cons_eq_some.mpr ⟨_, _, _, ho, (run_ws rfl).trans ?_, rfl⟩
    exact run_append.mpr ⟨_, _, _, hbody, hclose, rfl⟩
  exact lex_eq_some.mpr ⟨_, _, [], hrun, rfl, (List.append_nil _).symm⟩

/-! ## Plain keys -/

/-- Of an object: every key is plain. -/
def HasPlainKeys (v : Json (List Char)) : Prop := ∀ kvs ∈ v.asObject, ∀ p ∈ kvs, Plain p.1

theorem hasPlainKeys_of_asObject (h : v.asObject = none) : HasPlainKeys v := by
  intro kvs hkvs
  rw [h] at hkvs
  cases hkvs

/-- Every key of every object in the value is plain. -/
def PlainKeys (v : Json (List Char)) : Prop := v.Everywhere HasPlainKeys

/-- **What is read of a leaf** equals the leaf. -/
def ReadsBack (number : List Char → Option Atom) (serialize : Json (List Char) → List Char)
    (x : Json (List Char)) : Prop :=
  x.isLeaf = true → ∃ y, parse number (serialize x) = some y ∧ x.equal y = true

/-- Every leaf of the value is read back from what it is serialised to. -/
def LeavesReadBack (number : List Char → Option Atom) (serialize : Json (List Char) → List Char)
    (v : Json (List Char)) : Prop := v.Everywhere (ReadsBack number serialize)

/-- The tokens of a value, at any depth, and the value they are those of. -/
structure Prints (number : List Char → Option Atom) (serialize : Json (List Char) → List Char)
    (v : Json (List Char)) (ts : List Token) (w : Json (List Char)) : Prop where
  lex : ∀ indent, Blank indent → lex number (print serialize v indent) = some ts
  reads : Reads ts w
  equal : v.equal w = true

/-- A member is what is read of its key, and its value. -/
theorem lex_member {p : List Char × Json (List Char)} {ks : List Token}
    (hkey : run number (.string []) (p.1 ++ ['"']) = some (.outside, ks))
    (h : lex number (print serialize p.2 indent) = some ts) :
    lex number (memberText serialize indent p) = some (ks ++ .colon :: ts) := by
  obtain ⟨m, ts₁, ts₂, hrun, hclose, rfl⟩ := lex_eq_some.mp h
  have hvalue : run number .outside (' ' :: ':' :: ' ' :: print serialize p.2 indent) =
      some (m, .colon :: ts₁) :=
    (run_ws rfl).trans (run_cons_eq_some.mpr ⟨_, [.colon], ts₁, rfl, (run_ws rfl).trans hrun, rfl⟩)
  have hquoted : run number .outside ('"' :: (p.1 ++ ['"'])) = some (.outside, ks) :=
    run_cons_eq_some.mpr ⟨.string [], [], ks, rfl, hkey, rfl⟩
  refine lex_eq_some.mpr ⟨m, ks ++ .colon :: ts₁, ts₂, ?_, hclose, by simp⟩
  rw [memberText, List.append_cons]
  exact run_append.mpr ⟨_, _, _, hquoted, hvalue, rfl⟩

/-- **A value with plain keys is read back.** -/
theorem exists_prints (hdistinct : v.Distinct) (hkeys : PlainKeys v)
    (hleaves : LeavesReadBack number serialize v) : ∃ ts w, Prints number serialize v ts w := by
  induction v using inductionOn with
  | leaf v hv =>
    obtain ⟨w, hparse, hequal⟩ := (everywhere_leaf hv).mp hleaves hv
    obtain ⟨ts, hlex, hreads⟩ := parse_eq_some.mp hparse
    exact ⟨ts, w, fun indent _ => by rw [print_leaf hv, hlex], hreads, hequal⟩
  | array xs ih =>
    choose! tokens values hprints using fun x hx => ih x hx ((everywhere_array.mp hdistinct).2 x hx)
      ((everywhere_array.mp hkeys).2 x hx) ((everywhere_array.mp hleaves).2 x hx)
    have hreads : List.Forall₂ Reads (xs.map tokens) (xs.map values) := by
      rw [List.forall₂_map_left_iff, List.forall₂_map_right_iff, List.forall₂_same]
      exact fun x hx => (hprints x hx).reads
    have hequal : List.Forall₂ (fun x y => x.equal y = true) xs (xs.map values) := by
      rw [List.forall₂_map_right_iff, List.forall₂_same]
      exact fun x hx => (hprints x hx).equal
    refine ⟨_, .array (xs.map values), fun indent hblank => ?_, reads_array hreads, ?_⟩
    · rw [print, elements_eq]
      exact lex_brackets hblank rfl rfl
        (run_lines hblank fun x hx => (hprints x hx).lex _ hblank.deeper)
    · rw [equal, equalElements_iff]
      exact hequal
  | object kvs ih =>
    obtain ⟨hnodup, hdistinct⟩ := everywhere_object.mp hdistinct
    obtain ⟨hplain, hkeys⟩ := everywhere_object.mp hkeys
    choose! tokens values hprints using fun p hp =>
      ih p hp (hdistinct p hp) (hkeys p hp) ((everywhere_object.mp hleaves).2 p hp)
    let memberTokens (p : List Char × Json (List Char)) := Token.string p.1 :: .colon :: tokens p
    let ws := kvs.map fun p => (p.1, values p)
    have hkeysOf : (ws.map Prod.fst).Nodup := by
      rw [List.map_map]
      exact hnodup kvs rfl
    have hreads : List.Forall₂ ReadsMember (kvs.map memberTokens) ws := by
      rw [List.forall₂_map_left_iff, List.forall₂_map_right_iff, List.forall₂_same]
      exact fun p hp => ⟨tokens p, rfl, (hprints p hp).reads⟩
    refine ⟨_, .object ws, fun indent hblank => ?_, reads_object hreads hkeysOf, ?_⟩
    · rw [print, members_eq]
      exact lex_brackets hblank rfl rfl (run_lines hblank fun p hp =>
        lex_member (run_plain (hplain kvs rfl p hp)) ((hprints p hp).lex _ hblank.deeper))
    · rw [equal, Bool.and_eq_true, equalMembers_iff]
      refine ⟨by simp [ws], fun p hp => ⟨values p, ?_, (hprints p hp).equal⟩⟩
      exact member_eq_some_of_mem hkeysOf (List.mem_map.mpr ⟨p, hp, rfl⟩)

/-! ## Keys that are not plain -/

/-- A line break ends no string. -/
theorem next_newline_inner (hm : m.isInner = true) : m.next number '\n' = none := by
  cases m with
  | string cs => simp [Mode.next]
  | outside | word | escape | unicode | high | highEscape => cases hm

/-- Inside a string, a character that neither ends it nor begins an escape changes nothing. -/
theorem run_inner_cons {c : Char} (hm : m.isInner = true) (hquote : c ≠ '"') (hback : c ≠ '\\')
    (h : ∀ m : Mode, m.isInner = true → run number m u = none) : run number m (c :: u) = none := by
  rw [Option.eq_none_iff_forall_ne_some]
  rintro ⟨m', ts⟩ hrun
  obtain ⟨m₁, ts₁, ts₂, hnext, hrest, -⟩ := run_cons_eq_some.mp hrun
  rw [h m₁ ((next_inner hm hnext hback).2 hquote)] at hrest
  cases hrest

theorem run_inner_newline (hm : m.isInner = true) : run number m ('\n' :: u) = none := by
  rw [run, next_newline_inner hm]
  rfl

/-- What ends a line. -/
def IsEnd (sep : List Char) : Prop := sep = ['\n'] ∨ sep = [',', '\n']

theorem run_inner_end {sep : List Char} (hm : m.isInner = true) (hsep : IsEnd sep) :
    run number m sep = none := by
  rcases hsep with rfl | rfl
  · exact run_inner_newline hm
  · exact run_inner_cons hm (by decide) (by decide) fun _ => run_inner_newline

/-- **A value printed inside a string** is never read: its line ends inside the string. -/
theorem run_inner_print {sep : List Char} (hleaves : LeavesReadBack number serialize v)
    (hm : m.isInner = true) (hsep : IsEnd sep) :
    run number m (print serialize v indent ++ sep) = none := by
  cases v using inductionOn with
  | leaf v hv =>
    obtain ⟨w, hparse, -⟩ := (everywhere_leaf hv).mp hleaves hv
    obtain ⟨ts, hlex, -⟩ := parse_eq_some.mp hparse
    obtain ⟨m₀, ts₁, ts₂, hrun₀, hclose, -⟩ := lex_eq_some.mp hlex
    rw [print_leaf hv, Option.eq_none_iff_forall_ne_some]
    rintro ⟨m', ts⟩ hrun
    obtain ⟨m₁, ts₃, ts₄, hrun₁, hend, -⟩ := run_append.mp hrun
    have hm₁ := (run_inner hrun₀ hrun₁ (isOuter_of_close hclose)).1 rfl hm
    rw [run_inner_end hm₁ hsep] at hend
    cases hend
  | array xs =>
    rw [print]
    exact run_inner_cons hm (by decide) (by decide) fun _ => run_inner_newline
  | object kvs =>
    rw [print]
    exact run_inner_cons hm (by decide) (by decide) fun _ => run_inner_newline

/-- **A bound of what is read of a line**: it is complete and weighs no more than `n`, and only if `P`
as much. -/
def Bounded (number : List Char → Option Atom) (u : List Char) (n : ℕ) (P : Prop) : Prop :=
  ∀ sep, IsEnd sep → run number .outside (u ++ sep) ≠ none →
    ∃ ts, lex number u = some ts ∧ tokensWeight ts ≤ n ∧ (tokensWeight ts = n → P)

/-- A line ends between two tokens. -/
theorem run_line {sep : List Char} {us : List Token} (hu : lex number u = some us)
    (hsep : IsEnd sep) (h : run number .outside (u ++ sep) = some (m, ts)) :
    m = .outside ∧ tokensWeight ts = tokensWeight us := by
  rcases hsep with rfl | rfl
  · obtain ⟨ts₂, hend, rfl⟩ := (run_of_lex hu (by decide)).mp h
    cases hend
    exact ⟨rfl, by simp⟩
  · obtain ⟨ts₂, hend, rfl⟩ := (run_of_lex hu (by decide)).mp h
    cases hend
    exact ⟨rfl, by simp [Token.weight]⟩

/-- **The lines of a loop** are bounded together. -/
theorem lines_bounded {α : Type} {text : α → List Char} {n : α → ℕ} {P : α → Prop} {xs : List α}
    (hblank : Blank indent) (h : ∀ x ∈ xs, Bounded number (text x) (n x) (P x))
    (hrun : run number .outside (lines indent (xs.map text)) = some (m, ts)) :
    m = .outside ∧ tokensWeight ts ≤ (xs.map n).sum ∧
      (tokensWeight ts = (xs.map n).sum → ∀ x ∈ xs, P x) := by
  induction xs generalizing ts with
  | nil =>
    cases hrun
    exact ⟨rfl, Nat.le_refl _, fun _ => List.forall_mem_nil _⟩
  | cons x xs ih =>
    obtain ⟨hx, hxs⟩ := List.forall_mem_cons.mp h
    rw [List.map_cons, lines] at hrun
    have hsep : IsEnd (if (xs.map text).isEmpty then ['\n'] else [',', '\n']) := by
      split
      · exact Or.inl rfl
      · exact Or.inr rfl
    generalize (if (xs.map text).isEmpty then ['\n'] else [',', '\n']) = sep at hrun hsep
    obtain ⟨m₁, ts₁, ts₂, hline, hrest, rfl⟩ := run_append.mp hrun
    rw [List.append_assoc, run_blank hblank, List.cons_append, List.cons_append, run_ws rfl,
      run_ws rfl] at hline
    obtain ⟨us, hus, hle, heq⟩ := hx sep hsep (by rw [hline]; exact Option.some_ne_none _)
    obtain ⟨rfl, hweight⟩ := run_line hus hsep hline
    obtain ⟨rfl, hle', heq'⟩ := ih hxs hrest
    rw [tokensWeight_append, List.map_cons, List.sum_cons, hweight]
    refine ⟨rfl, Nat.add_le_add hle hle', fun h => List.forall_mem_cons.mpr ⟨heq ?_, heq' ?_⟩⟩
    · omega
    · omega

/-- A text in brackets is bounded as its lines are. -/
theorem brackets_bounded {o c : Char} {a b : Token} {body : List Char} {n : ℕ} {P : Prop}
    (hblank : Blank indent) (ho : start o = some (.outside, [a])) (hc : start c = some (.outside, [b]))
    (hweight : a.weight + b.weight = 0)
    (h : ∀ {m ts}, run number .outside body = some (m, ts) →
      m = .outside ∧ tokensWeight ts ≤ n ∧ (tokensWeight ts = n → P)) :
    Bounded number (o :: '\n' :: body ++ indent ++ [c]) n P := by
  intro sep _ hrun
  obtain ⟨⟨m', ts'⟩, hrun⟩ := Option.ne_none_iff_exists'.mp hrun
  rw [List.append_assoc, List.append_assoc, List.cons_append, List.cons_append] at hrun
  obtain ⟨m₁, ts₁, ts₂, hopen, hrun, -⟩ := run_cons_eq_some.mp hrun
  cases ho.symm.trans hopen
  rw [run_ws rfl] at hrun
  obtain ⟨m₂, ts, ts₃, hbody, -, -⟩ := run_append.mp hrun
  obtain ⟨rfl, hle, heq⟩ := h hbody
  have hsame : tokensWeight (a :: (ts ++ [b])) = tokensWeight ts := by
    rw [tokensWeight_cons, tokensWeight_append, tokensWeight_cons, tokensWeight_nil]
    omega
  exact ⟨_, lex_brackets hblank ho hc hbody, hsame ▸ hle, fun h => heq (hsame ▸ h)⟩

/-- A quote leaves a text complete, or inside a string. -/
theorem run_quote (h : run number m (u ++ ['"']) = some (m', ts)) :
    m' = .outside ∨ m'.isInner = true := by
  obtain ⟨m₁, ts₁, ts₂, -, hquote, -⟩ := run_append.mp h
  obtain ⟨m₂, ts₃, ts₄, hnext, hnil, -⟩ := run_cons_eq_some.mp hquote
  cases hnil
  exact (next_quote hnext).imp_left And.left

/-- **A member is bounded** by its key and its value. -/
theorem member_bounded {p : List Char × Json (List Char)}
    (hleaves : LeavesReadBack number serialize p.2)
    (h : Bounded number (print serialize p.2 indent) p.2.weight (PlainKeys p.2)) :
    Bounded number (memberText serialize indent p) (p.1.length + p.2.weight)
      (Plain p.1 ∧ PlainKeys p.2) := by
  intro sep hsep hrun
  obtain ⟨⟨m', ts'⟩, hrun⟩ := Option.ne_none_iff_exists'.mp hrun
  rw [memberText, List.append_cons, List.append_assoc] at hrun
  obtain ⟨m₁, ks, ts, hkey, hvalue, -⟩ := run_append.mp hrun
  have hkey : run number (.string []) (p.1 ++ ['"']) = some (m₁, ks) := by
    obtain ⟨m₀, ts₀, ts₁, hquote, hrest, rfl⟩ := run_cons_eq_some.mp hkey
    cases hquote
    exact hrest
  rcases run_quote hkey with rfl | hin
  · have hprint : run number .outside (print serialize p.2 indent ++ sep) ≠ none := by
      have hcolon : run number .outside (':' :: ' ' :: (print serialize p.2 indent ++ sep)) =
          some (m', ts) := (run_ws rfl).symm.trans hvalue
      obtain ⟨m₂, ts₁, ts₂, hnext, hrest, -⟩ := run_cons_eq_some.mp hcolon
      cases hnext
      rw [run_ws rfl] at hrest
      rw [hrest]
      exact Option.some_ne_none _
    obtain ⟨us, hus, hle, heq⟩ := h sep hsep hprint
    obtain ⟨hlek, hplain⟩ := weight_key hkey
    rw [List.length_nil, Nat.zero_add] at hlek hplain
    have hweight : tokensWeight (ks ++ .colon :: us) = tokensWeight ks + tokensWeight us := by
      simp [Token.weight]
    refine ⟨_, lex_member hkey hus, ?_, fun h => ⟨hplain ?_, heq ?_⟩⟩
    · omega
    · omega
    · omega
  · -- the key leaves a string open
    have hstuck : run number m₁ (' ' :: ':' :: ' ' :: (print serialize p.2 indent ++ sep)) = none := by
      refine run_inner_cons hin (by decide) (by decide) fun _ hm => ?_
      refine run_inner_cons hm (by decide) (by decide) fun _ hm => ?_
      exact run_inner_cons hm (by decide) (by decide) fun _ hm => run_inner_print hleaves hm hsep
    cases hstuck.symm.trans hvalue

/-- **What is printed of a value** is bounded by the value. -/
theorem print_bounded (hleaves : LeavesReadBack number serialize v) (hblank : Blank indent) :
    Bounded number (print serialize v indent) v.weight (PlainKeys v) := by
  induction v using inductionOn generalizing indent with
  | leaf v hv =>
    intro sep _ _
    obtain ⟨w, hparse, hequal⟩ := (everywhere_leaf hv).mp hleaves hv
    obtain ⟨ts, hlex, hreads⟩ := parse_eq_some.mp hparse
    obtain ⟨hw, hweight⟩ := isLeaf_of_equal hv hequal
    obtain ⟨t, rfl, ht⟩ := hreads.of_leaf hw
    have hplain : PlainKeys v :=
      (everywhere_leaf hv).mpr (hasPlainKeys_of_asObject (asObject_of_isLeaf hv))
    refine ⟨[t], by rw [print_leaf hv, hlex], ?_, fun _ => hplain⟩
    rw [tokensWeight_cons, ht, hweight, tokensWeight_nil]
    exact Nat.le_refl _
  | array xs ih =>
    have hxs : ∀ x ∈ xs, Bounded number (print serialize x (indent ++ [' ', ' '])) x.weight
        (PlainKeys x) := fun x hx => ih x hx ((everywhere_array.mp hleaves).2 x hx) hblank.deeper
    rw [print, elements_eq]
    refine brackets_bounded hblank rfl rfl rfl fun hrun => ?_
    obtain ⟨hm, hle, heq⟩ := lines_bounded hblank hxs hrun
    rw [Json.weight, elementsWeight_eq]
    exact ⟨hm, hle, fun h => everywhere_array.mpr ⟨hasPlainKeys_of_asObject rfl, heq h⟩⟩
  | object kvs ih =>
    have hkvs : ∀ p ∈ kvs, Bounded number (memberText serialize (indent ++ [' ', ' ']) p)
        (p.1.length + p.2.weight) (Plain p.1 ∧ PlainKeys p.2) := fun p hp =>
      have hleaf := (everywhere_object.mp hleaves).2 p hp
      member_bounded hleaf (ih p hp hleaf hblank.deeper)
    rw [print, members_eq]
    refine brackets_bounded hblank rfl rfl rfl fun hrun => ?_
    obtain ⟨hm, hle, heq⟩ := lines_bounded hblank hkvs hrun
    rw [Json.weight, membersWeight_eq]
    refine ⟨hm, hle, fun h => everywhere_object.mpr ⟨?_, fun p hp => (heq h p hp).2⟩⟩
    rintro _ ⟨⟩ p hp
    exact (heq h p hp).1

/-! ## The round trip -/

/-- A value as the library holds it: no object has the same key twice. -/
structure Value where
  json : Json (List Char)
  distinct : json.Distinct

def IsNumber : Json (List Char) → Prop
  | .int64 _ | .uint64 _ | .double _ => True
  | _ => False

/-- **`serialize` as it is documented**: what is no number is read back. -/
def Documented (number : List Char → Option Atom) (serialize : Json (List Char) → List Char) : Prop :=
  ∀ x, ¬ IsNumber x → ReadsBack number serialize x

/-- The numbers of a value are read back. -/
def NumbersReadBack (number : List Char → Option Atom) (serialize : Json (List Char) → List Char)
    (v : Json (List Char)) : Prop :=
  v.Everywhere fun x => IsNumber x → ReadsBack number serialize x

/-- **The text is read back** as a value that equals the one printed. -/
def RoundTrip (number : List Char → Option Atom) (serialize : Json (List Char) → List Char)
    (v : Value) : Prop :=
  ∃ w, parse number (toString serialize v.json) = some w ∧ v.json.equal w = true

/-- **When pretty-printed JSON is read back.**  For every value whose numbers are: exactly where each
key, at any depth, is plain. -/
theorem roundTrip_iff (number : List Char → Option Atom) (serialize : Json (List Char) → List Char)
    (hserialize : Documented number serialize) (v : Value)
    (hnumbers : NumbersReadBack number serialize v.json) :
    RoundTrip number serialize v ↔ PlainKeys v.json := by
  have hleaves : LeavesReadBack number serialize v.json := fun x hx => by
    by_cases hnum : IsNumber x
    · exact hnumbers x hx hnum
    · exact hserialize x hnum
  constructor
  · rintro ⟨w, hparse, hequal⟩
    obtain ⟨ts, hlex, hreads⟩ := parse_eq_some.mp hparse
    have hrun : run number .outside (print serialize v.json [] ++ ['\n']) = some (.outside, ts ++ []) :=
      (run_of_lex hlex (by decide)).mpr ⟨[], rfl, rfl⟩
    obtain ⟨us, hus, hle, heq⟩ := print_bounded hleaves (List.forall_mem_nil _) _ (Or.inl rfl)
      (by rw [hrun]; exact Option.some_ne_none _)
    obtain rfl : us = ts := Option.some.inj (hus.symm.trans hlex)
    -- nothing that the keys have lost is made up for
    have hvalue : v.json.weight ≤ w.weight := weight_le_of_equal v.distinct hequal
    have hread : w.weight ≤ tokensWeight us := hreads.weight_le
    exact heq (by omega)
  · intro hkeys
    obtain ⟨ts, w, hprints⟩ := exists_prints v.distinct hkeys hleaves
    exact ⟨w, parse_eq_some.mpr ⟨ts, hprints.lex [] (List.forall_mem_nil _), hprints.reads⟩,
      hprints.equal⟩

/-- Natural numbers, in decimal digits. -/
def decimal (cs : List Char) : Option Atom :=
  if cs ≠ [] ∧ cs.all Char.isDigit = true then
    some ⟨.int64 (Int64.ofNat (cs.foldl (fun n c => 10 * n + (c.toNat - 48)) 0)), rfl⟩
  else none

/-- A library that writes such numbers. -/
def serializeDecimal : Json (List Char) → List Char
  | .null => ['n', 'u', 'l', 'l']
  | .bool true => ['t', 'r', 'u', 'e']
  | .bool false => ['f', 'a', 'l', 's', 'e']
  | .int64 n => Nat.toDigits 10 n.toInt.toNat
  | .string s => quote s
  | _ => []

theorem documented_decimal : Documented decimal serializeDecimal := by
  intro x hnum hleaf
  cases x with
  | null => exact ⟨.null, rfl, rfl⟩
  | bool b =>
    cases b with
    | true => exact ⟨.bool true, rfl, rfl⟩
    | false => exact ⟨.bool false, rfl, rfl⟩
  | string s =>
    refine ⟨.string s, parse_eq_some.mpr ⟨_, lex_quote s, fun stack => rfl⟩, ?_⟩
    simp [equal]
  | int64 | uint64 | double => exact absurd trivial hnum
  | array | object => cases hleaf

/-- An object with a number, a text that has a quote and a line break, and an array. -/
def sensor : Json (List Char) :=
  .object [(['i', 'd'], .int64 42), (['n'], .string ['a', '"', '\n']), (['x'], .array [.null])]

theorem everywhere_sensor {P : Json (List Char) → Prop} : sensor.Everywhere P ↔
    P sensor ∧ P (.int64 42) ∧ P (.string ['a', '"', '\n']) ∧ P (.array [.null]) ∧ P .null := by
  have hnumber : (int64 42).Everywhere P ↔ P (.int64 42) := everywhere_leaf rfl
  have htext : (string ['a', '"', '\n']).Everywhere P ↔ P (.string ['a', '"', '\n']) :=
    everywhere_leaf rfl
  have hnull : null.Everywhere P ↔ P .null := everywhere_leaf rfl
  simp [sensor, everywhere_object, everywhere_array, hnumber, htext, hnull]

/-- The same as a value of the library. -/
def sensorValue : Value where
  json := sensor
  distinct := everywhere_sensor.mpr ⟨by rintro _ ⟨⟩; decide, distinctKeys_of_asObject rfl,
    distinctKeys_of_asObject rfl, distinctKeys_of_asObject rfl, distinctKeys_of_asObject rfl⟩

/-- It is read back. -/
theorem roundTrip_sensor : RoundTrip decimal serializeDecimal sensorValue := by
  have hnumber : ReadsBack decimal serializeDecimal (.int64 42) := fun _ =>
    ⟨.int64 42, parse_eq_some.mpr ⟨[.atom ⟨.int64 42, rfl⟩], rfl, fun _ => rfl⟩, rfl⟩
  have hnumbers : NumbersReadBack decimal serializeDecimal sensor :=
    everywhere_sensor.mpr ⟨False.elim, fun _ => hnumber, False.elim, False.elim, False.elim⟩
  have hplain : PlainKeys sensor := everywhere_sensor.mpr ⟨by rintro _ ⟨⟩; decide,
    hasPlainKeys_of_asObject rfl, hasPlainKeys_of_asObject rfl, hasPlainKeys_of_asObject rfl,
    hasPlainKeys_of_asObject rfl⟩
  exact (roundTrip_iff decimal serializeDecimal documented_decimal sensorValue hnumbers).mpr hplain

/-- An object whose one key is a quote. -/
def quoteKey : Value where
  json := .object [(['"'], .null)]
  distinct := everywhere_object.mpr ⟨by rintro _ ⟨⟩; exact List.nodup_singleton _,
    List.forall_mem_singleton.mpr ((everywhere_leaf rfl).mpr (distinctKeys_of_asObject rfl))⟩

/-- **A quote in a key** is not escaped: the text is no JSON. -/
theorem not_roundTrip : Documented decimal serializeDecimal ∧
    ¬ ∀ v : Value, NumbersReadBack decimal serializeDecimal v.json →
      RoundTrip decimal serializeDecimal v := by
  refine ⟨documented_decimal, fun h => ?_⟩
  have hnumbers : NumbersReadBack decimal serializeDecimal quoteKey.json := everywhere_object.mpr
    ⟨False.elim, List.forall_mem_singleton.mpr ((everywhere_leaf rfl).mpr False.elim)⟩
  obtain ⟨w, hparse, -⟩ := h quoteKey hnumbers
  have hnone : parse decimal (toString serializeDecimal quoteKey.json) = none := rfl
  cases hnone.symm.trans hparse

end ManagementSensors.JsonUtils
