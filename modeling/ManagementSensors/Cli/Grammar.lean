import ManagementSensors.Cli.QuantumCommandCli

/-!
# Cli/Grammar — what the CLI parser accepts

A line is its words, and `parse_sensor_command` sees nothing else of it (`parseSensorCommand_eq`).  A
command is four words, the second an integer.  The extraction of the integer ends where its digits do,
and the next one goes on from there: three words, the second of which begins with an integer, are
accepted as four (`followsGrammar_iff`).
-/

namespace ManagementSensors.QuantumCommandCli

/-! ## Words -/

/-- A word of a line: some characters, none of them white space. -/
def IsWord (word : List Char) : Prop := word ≠ [] ∧ ∀ c ∈ word, isSpace c = false

instance (word : List Char) : Decidable (IsWord word) :=
  have : Decidable (∀ c ∈ word, isSpace c = false) := List.decidableBAll _ _
  inferInstanceAs (Decidable (_ ∧ _))

/-- The end of a word: white space, or the end of the line. -/
def EndsWord (rest : List Char) : Prop := ∀ c ∈ rest.head?, isSpace c = true

/-- The words of a line. -/
def tokens (line : List Char) : List (List Char) := (line.splitOnP isSpace).filter (· ≠ [])

variable {c : Char} {line word rest : List Char}

@[simp] theorem tokens_nil : tokens [] = [] := rfl

theorem tokens_append_cons (hc : isSpace c = true) (u v : List Char) :
    tokens (u ++ c :: v) = tokens u ++ tokens v := by
  rw [tokens, List.splitOnP_append_cons _ _ hc, List.filter_append, tokens, tokens]

theorem tokens_cons (hc : isSpace c = true) (v : List Char) : tokens (c :: v) = tokens v :=
  tokens_append_cons hc [] v

theorem IsWord.tokens (h : IsWord word) : tokens word = [word] := by
  rw [QuantumCommandCli.tokens, List.splitOnP_eq_singleton h.2]
  simp [h.1]

/-- A word is a token. -/
theorem IsWord.tokens_append (h : IsWord word) (hrest : EndsWord rest) :
    QuantumCommandCli.tokens (word ++ rest) = word :: QuantumCommandCli.tokens rest := by
  cases rest with
  | nil => rw [List.append_nil, h.tokens, tokens_nil]
  | cons c rest =>
    have hc : isSpace c = true := hrest c rfl
    rw [tokens_append_cons hc, tokens_cons hc, h.tokens, List.singleton_append]

/-- White space before a line is no token. -/
theorem tokens_dropWhile {p : Char → Bool} (hp : ∀ c, p c = true → isSpace c = true)
    (line : List Char) : tokens (line.dropWhile p) = tokens line := by
  induction line with
  | nil => rfl
  | cons c line ih =>
    rw [List.dropWhile_cons]
    split
    case isTrue hc => rw [ih, tokens_cons (hp c hc)]
    case isFalse => rfl

/-- Nor is white space after it. -/
theorem tokens_rdropWhile {p : Char → Bool} (hp : ∀ c, p c = true → isSpace c = true)
    (line : List Char) : tokens (line.rdropWhile p) = tokens line := by
  induction line using List.reverseRecOn with
  | nil => rfl
  | append_singleton line c ih =>
    by_cases hc : p c = true
    · rw [List.rdropWhile_concat_pos _ _ _ hc, ih, tokens_append_cons (hp c hc), tokens_nil,
        List.append_nil]
    · rw [List.rdropWhile_concat_neg _ _ _ hc]

theorem isSpace_of_isBlank (c : Char) (h : isBlank c = true) : isSpace c = true := by
  rw [isSpace, h, Bool.true_or, Bool.true_or]

/-- **What `operator>>` reads** is the first token, up to its end. -/
theorem readWord_cases (iss : List Char) :
    (tokens iss = [] ∧ iss.dropWhile isSpace = [] ∧ readWord iss = none) ∨
      ∃ word rest, IsWord word ∧ EndsWord rest ∧ iss.dropWhile isSpace = word ++ rest ∧
        tokens iss = word :: tokens rest ∧ readWord iss = some (word, rest) := by
  rw [← tokens_dropWhile (fun _ h => h) iss, readWord]
  cases hdrop : iss.dropWhile isSpace with
  | nil => exact Or.inl ⟨rfl, rfl, rfl⟩
  | cons c cs =>
    right
    have hc : isSpace c = false := by
      have hhead := List.head?_dropWhile_not isSpace iss
      rwa [hdrop] at hhead
    have hword : IsWord ((c :: cs).takeWhile fun c => !isSpace c) := by
      refine ⟨by simp [hc], fun d hd => ?_⟩
      simpa using List.mem_takeWhile_imp hd
    have hrest : EndsWord ((c :: cs).dropWhile fun c => !isSpace c) := by
      intro d hd
      have hhead := List.head?_dropWhile_not (fun c => !isSpace c) (c :: cs)
      rw [Option.mem_def.mp hd] at hhead
      simpa using hhead
    have hsplit : c :: cs = ((c :: cs).takeWhile fun c => !isSpace c) ++
        (c :: cs).dropWhile fun c => !isSpace c := List.takeWhile_append_dropWhile.symm
    refine ⟨_, _, hword, hrest, hsplit, ?_, by rw [if_neg (List.cons_ne_nil _ _)]⟩
    conv_lhs => rw [hsplit]
    exact hword.tokens_append hrest

theorem isWord_of_mem_tokens {line word : List Char} (h : word ∈ tokens line) : IsWord word := by
  rcases readWord_cases line with ⟨htok, -, -⟩ | ⟨first, rest, hfirst, -, hdrop, htok, -⟩
  · rw [htok] at h
    cases h
  · rw [htok, List.mem_cons] at h
    rcases h with rfl | h
    · exact hfirst
    · have hshort : rest.length < line.length := by
        have hle := (List.dropWhile_suffix (l := line) isSpace).length_le
        have hpos := List.length_pos_iff.mpr hfirst.1
        rw [hdrop, List.length_append] at hle
        omega
      exact isWord_of_mem_tokens h
termination_by line.length

/-! ## Integers -/

/-- The value of decimal digits. -/
def decimal (digits : List Char) : ℕ := Nat.ofDigitChars 10 digits 0

/-- **An optionally signed decimal integer**, and its value. -/
inductive Spells : List Char → ℤ → Prop
  | plain {digits : List Char} (hne : digits ≠ []) (hall : ∀ c ∈ digits, c.isDigit = true) :
      Spells digits (decimal digits)
  | plus {digits : List Char} (hne : digits ≠ []) (hall : ∀ c ∈ digits, c.isDigit = true) :
      Spells ('+' :: digits) (decimal digits)
  | minus {digits : List Char} (hne : digits ≠ []) (hall : ∀ c ∈ digits, c.isDigit = true) :
      Spells ('-' :: digits) (-decimal digits)

/-- What is left of a text when a run of characters stops before `rest`. -/
theorem takeWhile_append_of_head {p : Char → Bool} (h : ∀ c ∈ rest.head?, p c = false)
    (u : List Char) : (u ++ rest).takeWhile p = u.takeWhile p ∧
      (u ++ rest).dropWhile p = u.dropWhile p ++ rest := by
  induction u with
  | nil =>
    cases rest with
    | nil => exact ⟨rfl, rfl⟩
    | cons c rest => simp [h c rfl]
  | cons c u ih =>
    rw [List.cons_append, List.takeWhile_cons, List.takeWhile_cons, List.dropWhile_cons,
      List.dropWhile_cons]
    split
    · exact ⟨by rw [ih.1], ih.2⟩
    · exact ⟨rfl, rfl⟩

theorem isSpace_of_isDigit (h : c.isDigit = true) : isSpace c = false := by
  simp only [Char.isDigit, Bool.and_eq_true, decide_eq_true_eq] at h
  have hne : ∀ d : Char, d.val < 48 → c ≠ d := by
    rintro d hd rfl
    exact absurd h.1 (UInt32.not_le.mpr hd)
  simp [isSpace, isBlank, hne ' ' (by decide), hne '\t' (by decide), hne '\r' (by decide),
    hne '\n' (by decide), hne '\x0b' (by decide), hne '\x0c' (by decide)]

/-- The text of a number after its sign. -/
def unsigned : List Char → List Char
  | [] => []
  | c :: cs => if c = '-' ∨ c = '+' then cs else c :: cs

/-- The value that digits after a first character stand for. -/
def signed (text digits : List Char) : ℤ :=
  if text.head? = some '-' then -decimal digits else decimal digits

/-- **What `operator>>` makes of a number.** -/
theorem readInt_eq {iss : List Char} (hword : IsWord word) (hrest : EndsWord rest)
    (hiss : iss.dropWhile isSpace = word ++ rest) (id : Int32) :
    readInt iss id =
      let digits := (unsigned word).takeWhile Char.isDigit
      let v := signed word digits
      if digits = [] then ⟨0, none⟩
      else if v < -2 ^ 31 then ⟨Int32.minValue, none⟩
      else if 2 ^ 31 ≤ v then ⟨Int32.maxValue, none⟩
      else ⟨Int32.ofInt v, some ((unsigned word).dropWhile Char.isDigit ++ rest)⟩ := by
  obtain ⟨c, cs, rfl⟩ := List.exists_cons_of_ne_nil hword.1
  have hstop : ∀ d ∈ rest.head?, d.isDigit = false := fun d hd => by
    by_contra hdigit
    rw [Bool.not_eq_false] at hdigit
    have := isSpace_of_isDigit hdigit
    rw [hrest d hd] at this
    cases this
  have htext : (if c = '-' ∨ c = '+' then cs ++ rest else c :: (cs ++ rest)) =
      unsigned (c :: cs) ++ rest := by
    rw [unsigned]
    split <;> rfl
  obtain ⟨htake, hdrop⟩ := takeWhile_append_of_head hstop (unsigned (c :: cs))
  have hfold : ∀ digits : List Char,
      digits.foldl (fun n d => 10 * n + (d.toNat - '0'.toNat)) 0 = decimal digits := fun digits =>
    Nat.ofDigitChars_eq_foldl.symm
  have hsign : (if c = '-' then -(decimal ((unsigned (c :: cs)).takeWhile Char.isDigit) : ℤ)
      else decimal ((unsigned (c :: cs)).takeWhile Char.isDigit)) =
        signed (c :: cs) ((unsigned (c :: cs)).takeWhile Char.isDigit) := by
    simp [signed]
  rw [readInt, hiss, List.cons_append]
  simp only [htext, htake, hdrop, hfold, hsign]

/-- The same of a word with nothing after it. -/
theorem readInt_self (hword : IsWord word) (id : Int32) :
    readInt word id =
      let digits := (unsigned word).takeWhile Char.isDigit
      let v := signed word digits
      if digits = [] then ⟨0, none⟩
      else if v < -2 ^ 31 then ⟨Int32.minValue, none⟩
      else if 2 ^ 31 ≤ v then ⟨Int32.maxValue, none⟩
      else ⟨Int32.ofInt v, some ((unsigned word).dropWhile Char.isDigit)⟩ := by
  have hend : EndsWord [] := by simp [EndsWord]
  have hself : word.dropWhile isSpace = word ++ [] := by
    obtain ⟨c, cs, rfl⟩ := List.exists_cons_of_ne_nil hword.1
    simp [hword.2 c List.mem_cons_self]
  rw [readInt_eq hword hend hself, List.append_nil]

/-- A number is read as its word is. -/
theorem readInt_word {iss : List Char} (hword : IsWord word) (hrest : EndsWord rest)
    (hiss : iss.dropWhile isSpace = word ++ rest) (id : Int32) :
    readInt iss id = ⟨(readInt word id).id, (readInt word id).rest.map (· ++ rest)⟩ := by
  rw [readInt_eq hword hrest hiss, readInt_self hword]
  simp only
  split
  · rfl
  · split
    · rfl
    · split <;> rfl

/-- What is read of a number is part of its word. -/
theorem suffix_of_readInt {id : Int32} (hword : IsWord word)
    (h : (readInt word id).rest = some rest) : rest <:+ word := by
  have hunsigned : unsigned word <:+ word := by
    cases word with
    | nil => exact List.suffix_rfl
    | cons c cs =>
      rw [unsigned]
      split
      · exact List.suffix_cons _ _
      · exact List.suffix_rfl
  rw [readInt_self hword] at h
  simp only at h
  split at h
  · cases h
  · split at h
    · cases h
    · split at h <;> cases h
      exact (List.dropWhile_suffix _).trans hunsigned

/-! ## The parser, on words -/

/-- The words after a number that ended before `suffix`. -/
def wordsFrom (suffix : List Char) (words : List (List Char)) : List (List Char) :=
  if suffix = [] then words else suffix :: words

/-- The command of a list of words. -/
def commandOf : List (List Char) → QuantumCommand
  | [] => {}
  | [cmd] => { cmd := cmd }
  | cmd :: word :: words =>
    match readInt word (-1) with
    | ⟨id, none⟩ => { cmd := cmd, id := id }
    | ⟨id, some suffix⟩ =>
      match wordsFrom suffix words with
      | [] => { cmd := cmd, id := id }
      | [attr] => { cmd := cmd, id := id, attr := attr }
      | attr :: value :: more =>
        { cmd := cmd, id := id, attr := attr, value := value, valid := more = [] }

/-- **The parser sees the words of a line**, and nothing else of it. -/
theorem parseSensorCommand_eq (line : List Char) :
    parseSensorCommand line = commandOf (tokens line) := by
  have htrim : tokens ((line.dropWhile isBlank).rdropWhile isBlank) = tokens line := by
    rw [tokens_rdropWhile isSpace_of_isBlank, tokens_dropWhile isSpace_of_isBlank]
  rw [parseSensorCommand, ← htrim]
  generalize (line.dropWhile isBlank).rdropWhile isBlank = trimmed
  rcases readWord_cases trimmed with ⟨htok, -, hread⟩ | ⟨cmd, iss, -, -, -, htok, hread⟩
  · rw [htok, hread]
    rfl
  rw [htok, hread]
  rcases readWord_cases iss with ⟨htok, hdrop, -⟩ | ⟨word, rest, hword, hrest, hdrop, htok, -⟩
  · simp only [htok, readInt, hdrop]
    rfl
  simp only [htok, commandOf, readInt_word hword hrest hdrop]
  cases hint : readInt word (-1) with
  | mk id suffix? =>
    cases suffix? with
    | none => rfl
    | some suffix =>
      have hsuffix : tokens (suffix ++ rest) = wordsFrom suffix (tokens rest) := by
        rw [wordsFrom]
        split
        case isTrue hnil => rw [hnil, List.nil_append]
        case isFalse hne =>
          have hsub : suffix <:+ word := suffix_of_readInt hword (by rw [hint])
          exact IsWord.tokens_append ⟨hne, fun c hc => hword.2 c (hsub.subset hc)⟩ hrest
      simp only [Option.map_some, ← hsuffix]
      rcases readWord_cases (suffix ++ rest) with ⟨htok, -, hread⟩ | ⟨attr, iss, -, -, -, htok, hread⟩
      · rw [htok, hread]
      rw [htok, hread]
      rcases readWord_cases iss with ⟨htok, -, hread⟩ | ⟨value, iss, -, -, -, htok, hread⟩
      · simp only [htok, hread]
      simp only [htok, hread]
      rcases readWord_cases iss with ⟨htok, -, hread⟩ | ⟨_, _, -, -, -, htok, hread⟩ <;>
        simp [htok, hread]

/-! ## The grammar -/

/-- The word begins with an integer `id`, and goes on with `suffix`. -/
def BeginsWith (word : List Char) (id : Int32) (suffix : List Char) : Prop :=
  ∃ number, word = number ++ suffix ∧ Spells number id.toInt ∧ ∀ c ∈ suffix.head?, c.isDigit = false

theorem not_sign_of_isDigit (h : c.isDigit = true) : c ≠ '-' ∧ c ≠ '+' := by
  constructor <;> rintro rfl <;> exact absurd h (by decide)

/-- An integer is its sign and its digits. -/
theorem Spells.split {number : List Char} {v : ℤ} (h : Spells number v) (suffix : List Char) :
    ∃ digits, digits ≠ [] ∧ (∀ c ∈ digits, c.isDigit = true) ∧
      unsigned (number ++ suffix) = digits ++ suffix ∧ signed (number ++ suffix) digits = v := by
  cases h with
  | plain hne hall =>
    obtain ⟨c, cs, rfl⟩ := List.exists_cons_of_ne_nil hne
    obtain ⟨hminus, hplus⟩ := not_sign_of_isDigit (hall c List.mem_cons_self)
    exact ⟨_, hne, hall, by simp [unsigned, hminus, hplus], by simp [signed, hminus]⟩
  | plus hne hall => exact ⟨_, hne, hall, by simp [unsigned], by simp [signed]⟩
  | minus hne hall => exact ⟨_, hne, hall, by simp [unsigned], by simp [signed]⟩

/-- A sign, or none, and digits are an integer. -/
theorem spells_of_unsigned {digits suffix : List Char} (hne : digits ≠ [])
    (hall : ∀ c ∈ digits, c.isDigit = true) (h : unsigned word = digits ++ suffix) :
    ∃ number, word = number ++ suffix ∧ Spells number (signed word digits) := by
  cases word with
  | nil =>
    rw [unsigned, eq_comm, List.append_eq_nil_iff] at h
    exact absurd h.1 hne
  | cons c cs =>
    by_cases hminus : c = '-'
    · subst hminus
      obtain rfl : cs = digits ++ suffix := h
      exact ⟨'-' :: digits, rfl, .minus hne hall⟩
    rw [signed, List.head?_cons, if_neg (by simpa using hminus)]
    by_cases hplus : c = '+'
    · subst hplus
      obtain rfl : cs = digits ++ suffix := h
      exact ⟨'+' :: digits, rfl, .plus hne hall⟩
    · rw [unsigned, if_neg (by tauto)] at h
      exact ⟨digits, h, .plain hne hall⟩

/-- **A number that is read is the one its word begins with.** -/
theorem readInt_iff {id n : Int32} {suffix : List Char} (hword : IsWord word) :
    readInt word id = ⟨n, some suffix⟩ ↔ BeginsWith word n suffix := by
  rw [readInt_self hword]
  simp only
  constructor
  · intro h
    have hall : ∀ c ∈ (unsigned word).takeWhile Char.isDigit, c.isDigit = true := fun c hc =>
      List.mem_takeWhile_imp hc
    have hsplit : unsigned word = (unsigned word).takeWhile Char.isDigit ++
        (unsigned word).dropWhile Char.isDigit := List.takeWhile_append_dropWhile.symm
    split at h
    · cases h
    split at h
    · cases h
    split at h <;> cases h
    rename_i hne hlow hhigh
    obtain ⟨number, hword, hspells⟩ := spells_of_unsigned hne hall hsplit
    refine ⟨number, hword, ?_, fun c hc => ?_⟩
    · rwa [Int32.toInt_ofInt_of_le (by omega) (by omega)]
    · have hhead := List.head?_dropWhile_not Char.isDigit (unsigned word)
      rwa [Option.mem_def.mp hc] at hhead
  · rintro ⟨number, rfl, hspells, hstop⟩
    obtain ⟨digits, hne, hall, hunsigned, hsigned⟩ := hspells.split suffix
    obtain ⟨htake, hdrop⟩ := takeWhile_append_of_head hstop digits
    have hlow := n.le_toInt
    have hhigh := n.toInt_lt
    rw [hunsigned, htake, hdrop, List.takeWhile_eq_self_iff.mpr hall,
      List.dropWhile_eq_nil_iff.mpr hall, hsigned, List.nil_append, if_neg hne, if_neg (by omega),
      if_neg (by omega), Int32.ofInt_toInt]

/-- **What a line of the grammar says**: four words, the second of them an integer. -/
def Says (line cmd : List Char) (id : Int32) (attr value : List Char) : Prop :=
  ∃ word, tokens line = [cmd, word, attr, value] ∧ Spells word id.toInt

/-- **The parser follows the grammar on a line**: it accepts the line if and only if it is of the
grammar, and then the command is what the line says. -/
def FollowsGrammar (line : List Char) : Prop :=
  let sc := parseSensorCommand line
  (sc.valid = true ↔ ∃ cmd id attr value, Says line cmd id attr value) ∧
    (sc.valid = true → Says line sc.cmd sc.id sc.attr sc.value)

/-- Three words, the second of which begins with an integer and goes on after it. -/
def Glued (line : List Char) : Prop :=
  ∃ cmd word value id suffix, tokens line = [cmd, word, value] ∧ BeginsWith word id suffix ∧
    suffix ≠ []

/-- **What is accepted**: four words, the second an integer, or three, the second of which begins with
one. -/
theorem commandOf_valid {ts : List (List Char)} (hwords : ∀ word ∈ ts, IsWord word)
    (h : (commandOf ts).valid = true) :
    ∃ word suffix, BeginsWith word (commandOf ts).id suffix ∧
      (suffix = [] ∧ ts = [(commandOf ts).cmd, word, (commandOf ts).attr, (commandOf ts).value] ∨
        suffix ≠ [] ∧ ts = [(commandOf ts).cmd, word, (commandOf ts).value]) := by
  match ts, h with
  | cmd :: word :: words, h =>
    have hword : IsWord word := hwords word (by simp)
    cases hint : readInt word (-1) with
    | mk id suffix? =>
      cases suffix? with
      | none => simp [commandOf, hint] at h
      | some suffix =>
        refine ⟨word, suffix, ?_⟩
        have hbegins : BeginsWith word id suffix := (readInt_iff hword).mp hint
        by_cases hsuffix : suffix = []
        · match words, h with
          | attr :: value :: more, h =>
            obtain rfl : more = [] := by simpa [commandOf, hint, wordsFrom, hsuffix] using h
            simpa [commandOf, hint, wordsFrom, hsuffix] using hsuffix ▸ hbegins
          | [], h => simp [commandOf, hint, wordsFrom, hsuffix] at h
          | [_], h => simp [commandOf, hint, wordsFrom, hsuffix] at h
        · match words, h with
          | value :: more, h =>
            obtain rfl : more = [] := by simpa [commandOf, hint, wordsFrom, hsuffix] using h
            simpa [commandOf, hint, wordsFrom, hsuffix] using hbegins
          | [], h => simp [commandOf, hint, wordsFrom, hsuffix] at h

theorem commandOf_four {cmd attr value : List Char} {id : Int32} (hword : IsWord word)
    (h : BeginsWith word id []) :
    commandOf [cmd, word, attr, value] = ⟨cmd, id, attr, value, true⟩ := by
  have hread : readInt word (-1) = ⟨id, some []⟩ := (readInt_iff hword).mpr h
  simp [commandOf, hread, wordsFrom]

theorem commandOf_three {cmd value suffix : List Char} {id : Int32} (hword : IsWord word)
    (hne : suffix ≠ []) (h : BeginsWith word id suffix) :
    commandOf [cmd, word, value] = ⟨cmd, id, suffix, value, true⟩ := by
  have hread : readInt word (-1) = ⟨id, some suffix⟩ := (readInt_iff hword).mpr h
  simp [commandOf, hread, wordsFrom, hne]

@[simp] theorem beginsWith_nil {id : Int32} : BeginsWith word id [] ↔ Spells word id.toInt := by
  simp [BeginsWith]

/-- **The grammar**: the parser follows it on a line if and only if no number of the line is glued to
the word after it. -/
theorem followsGrammar_iff (line : List Char) : FollowsGrammar line ↔ ¬ Glued line := by
  have hwords : ∀ word ∈ tokens line, IsWord word := fun _ => isWord_of_mem_tokens
  constructor
  · rintro ⟨-, hsays⟩ ⟨cmd, word, value, id, suffix, htok, hbegins, hne⟩
    -- Three words are no line of the grammar, but the parser accepts these.
    have hvalid : (parseSensorCommand line).valid = true := by
      rw [parseSensorCommand_eq, htok, commandOf_three (hwords word (by simp [htok])) hne hbegins]
    obtain ⟨_, hfour, -⟩ := hsays hvalid
    have hlen := congrArg List.length (htok.symm.trans hfour)
    simp at hlen
  · intro hglued
    have hsays : (parseSensorCommand line).valid = true →
        Says line (parseSensorCommand line).cmd (parseSensorCommand line).id
          (parseSensorCommand line).attr (parseSensorCommand line).value := by
      rw [parseSensorCommand_eq]
      intro hvalid
      obtain ⟨word, suffix, hbegins, ⟨rfl, htok⟩ | ⟨hne, htok⟩⟩ := commandOf_valid hwords hvalid
      · exact ⟨word, htok, beginsWith_nil.mp hbegins⟩
      · exact absurd ⟨_, word, _, _, suffix, htok, hbegins, hne⟩ hglued
    refine ⟨⟨fun hvalid => ⟨_, _, _, _, hsays hvalid⟩, ?_⟩, hsays⟩
    rintro ⟨cmd, id, attr, value, word, htok, hspells⟩
    rw [parseSensorCommand_eq, htok,
      commandOf_four (hwords word (by simp [htok])) (beginsWith_nil.mpr hspells)]

/-- The address of sensor 12 of this line is `abc`: the line has three words. -/
theorem not_followsGrammar : ¬ FollowsGrammar "CONFIG_IP 12abc 10.0.0.2".toList := by
  rintro ⟨-, hsays⟩
  obtain ⟨word, htok, -⟩ := hsays (by decide)
  have hlen : (tokens "CONFIG_IP 12abc 10.0.0.2".toList).length = 4 := by
    rw [htok]
    rfl
  exact absurd hlen (by decide)

end ManagementSensors.QuantumCommandCli
