import ManagementSensors.Cli.QuantumCommandCli

/-!
# Cli/Cuts — the behaviour of a CLI session depends on how its stream is cut

Each read is executed once, so that two deliveries of one stream in different numbers of reads differ
in what they execute (`executedCount_of_short`), and every stream of two bytes can be delivered so
(`handleSession_cut`).  Two deliveries behave alike where their reads are parsed alike
(`handleSession_congr`).
-/

namespace ManagementSensors.QuantumCommandCli

variable {κ A : Type} {I : InetType A} {envs : ℕ → CallEnv κ} {w : World κ A}

/-- The size of the buffer of a read. -/
def bufferSize : ℕ := 8192

/-- **A delivery of a stream**: non-empty reads that the buffer can hold, one after the other. -/
structure Delivers (stream : List Char) (reads : List (List Char)) : Prop where
  flatten : reads.flatten = stream
  read : ∀ r ∈ reads, r ≠ [] ∧ r.length ≤ bufferSize

/-- A stream of lines, each ended by a newline. -/
def Lines (stream : List Char) : Prop := ∀ c ∈ stream.getLast?, c = '\n'

/-- Two deliveries whose reads are parsed alike behave alike. -/
theorem handleSession_congr {d₁ d₂ : List (List Char)}
    (h : d₁.map parseSensorCommand = d₂.map parseSensorCommand) :
    handleSession I envs w d₁ = handleSession I envs w d₂ := by
  induction d₁ generalizing d₂ envs w with
  | nil =>
    obtain rfl : d₂ = [] := by simpa using h.symm
    rfl
  | cons r d₁ ih =>
    cases d₂ with
    | nil => simp at h
    | cons r' d₂ =>
      obtain ⟨hr, htail⟩ := List.cons.inj h
      simp only [handleSession, hr]
      split
      · rfl
      · split
        · rfl
        · rw [ih htail]

/-! ## Short reads -/

theorem readWord_length {iss word rest : List Char} (h : readWord iss = some (word, rest)) :
    word.length ≤ iss.length := by
  simp only [readWord] at h
  split at h
  · cases h
  · cases h
    exact ((List.takeWhile_sublist _).trans (List.dropWhile_sublist _)).length_le

/-- The command word is part of the read. -/
theorem cmd_length_le (line : List Char) : (parseSensorCommand line).cmd.length ≤ line.length := by
  have htrim : ((line.dropWhile isBlank).rdropWhile isBlank).length ≤ line.length :=
    ((List.rdropWhile_prefix _ _).sublist.trans (List.dropWhile_sublist _)).length_le
  simp only [parseSensorCommand]
  split
  · exact Nat.zero_le _
  · next cmd iss hcmd =>
    have hle := (readWord_length hcmd).trans htrim
    repeat' split
    all_goals exact hle

/-- A read of at most two bytes is no command of the registry, and does not quit. -/
theorem execute_of_short {line : List Char} (h : line.length ≤ 2) (env : CallEnv κ) (w : World κ A) :
    quits (parseSensorCommand line) = false ∧
      ∃ response, execute I env w (parseSensorCommand line) = ([], w, some response) := by
  have hne : ∀ s : String, 2 < s.toList.length → (parseSensorCommand line).cmd ≠ s.toList :=
    fun s hs he => by
      have := cmd_length_le line
      rw [he] at this
      omega
  refine ⟨?_, _, by rw [execute, if_neg (hne "CONFIG_IP" (by decide)), if_neg (hne "REBOOT" (by decide))]⟩
  rw [quits, decide_eq_false (hne "quit" (by decide)), Bool.and_false]

/-- The number of commands executed. -/
def executedCount (events : List Event) : ℕ :=
  events.countP fun e => match e with
    | .executed _ => true
    | _ => false

/-- Each short read is executed. -/
theorem executedCount_of_short {reads : List (List Char)} (h : ∀ r ∈ reads, r.length ≤ 2) :
    executedCount (handleSession I envs w reads) = reads.length := by
  induction reads generalizing envs with
  | nil => rfl
  | cons r reads ih =>
    obtain ⟨hquit, response, hexec⟩ := execute_of_short (I := I) (h r List.mem_cons_self) (envs 0) w
    have htail : executedCount (handleSession I (fun n => envs (n + 1)) w reads) = reads.length :=
      ih fun r' hr' => h r' (List.mem_cons_of_mem _ hr')
    simp only [handleSession, hquit, hexec, List.length_cons]
    rw [← htail]
    by_cases hresp : response = "" <;> simp [executedCount, hresp]

/-! ## Every longer stream can be cut in two ways -/

/-- A stream read byte by byte, after a first read. -/
theorem delivers_bytes {u v : List Char} (hne : u ≠ []) (hlen : u.length ≤ 2) :
    Delivers (u ++ v) (u :: v.map fun c => [c]) where
  flatten := congrArg (u ++ ·) (List.flatMap_singleton' v)
  read r hr := by
    rcases List.mem_cons.mp hr with rfl | hr
    · exact ⟨hne, hlen.trans (by decide)⟩
    · obtain ⟨c, -, rfl⟩ := List.mem_map.mp hr
      exact ⟨List.cons_ne_nil _ _, by simp [bufferSize]⟩

/-- A stream of at most one byte is delivered in one read, or none. -/
theorem Delivers.eq_of_short {stream : List Char} {d : List (List Char)} (hd : Delivers stream d)
    (h : stream.length ≤ 1) : d = if stream = [] then [] else [stream] := by
  cases d with
  | nil =>
    obtain rfl : stream = [] := hd.flatten.symm
    rfl
  | cons r d =>
    have hr := List.length_pos_iff.mpr (hd.read r List.mem_cons_self).1
    have hlen : r.length + d.flatten.length ≤ 1 := by
      rw [← List.length_append, ← List.flatten_cons, hd.flatten]
      exact h
    have hnil : d = [] := by
      cases d with
      | nil => rfl
      | cons r' d =>
        have hr' := List.length_pos_iff.mpr (hd.read r' (by simp)).1
        rw [List.flatten_cons, List.length_append] at hlen
        omega
    subst hnil
    obtain rfl : r = stream := by simpa using hd.flatten
    rw [if_neg (List.ne_nil_of_length_pos hr)]

/-- Every longer stream has two deliveries that differ in what they execute. -/
theorem length_le_of_forall {stream : List Char} (hall : ∀ d₁ d₂, Delivers stream d₁ →
    Delivers stream d₂ → handleSession I envs w d₁ = handleSession I envs w d₂) :
    stream.length ≤ 1 := by
  by_contra hlen
  obtain ⟨a, b, rest, rfl⟩ : ∃ a b rest, stream = a :: b :: rest := by
    match stream, hlen with
    | a :: b :: rest, _ => exact ⟨a, b, rest, rfl⟩
    | [_], hlen | [], hlen => exact absurd (by simp) hlen
  -- the first two bytes in one read, or in two
  have hsame := hall _ _ (delivers_bytes (u := [a, b]) (v := rest) (by simp) le_rfl)
    (delivers_bytes (u := [a]) (v := b :: rest) (by simp) (by simp))
  have hcount := congrArg executedCount hsame
  have hshort : ∀ s : List Char, ∀ r ∈ s.map (fun c => [c]), r.length ≤ 2 := fun s r hr => by
    obtain ⟨c, -, rfl⟩ := List.mem_map.mp hr
    exact Nat.le_succ 1
  rw [executedCount_of_short (List.forall_mem_cons.mpr ⟨le_rfl, hshort rest⟩),
    executedCount_of_short (List.forall_mem_cons.mpr ⟨by simp, hshort (b :: rest)⟩)] at hcount
  simp at hcount

/-- **When the cut does not matter.**  All the deliveries of a stream behave alike exactly where the
stream has at most one byte; two deliveries of a longer one do where their reads, one by one, are
parsed alike. -/
theorem handleSession_cut (I : InetType A) (envs : ℕ → CallEnv κ) (w : World κ A)
    (stream : List Char) :
    ((∀ d₁ d₂, Delivers stream d₁ → Delivers stream d₂ →
      handleSession I envs w d₁ = handleSession I envs w d₂) ↔ stream.length ≤ 1) ∧
    ∀ d₁ d₂, Delivers stream d₁ → Delivers stream d₂ →
      d₁.map parseSensorCommand = d₂.map parseSensorCommand →
      handleSession I envs w d₁ = handleSession I envs w d₂ := by
  refine ⟨⟨length_le_of_forall, fun hlen d₁ d₂ h₁ h₂ => ?_⟩, fun _ _ _ _ h => handleSession_congr h⟩
  rw [h₁.eq_of_short hlen, h₂.eq_of_short hlen]

/-- Two commands. -/
def twoLines : List Char := "CONFIG_IP 3 ip 10.0.0.2\nREBOOT 3 now 1\n".toList

/-- **Two deliveries that differ**: in one read the first command is executed, and the second is not. -/
theorem not_cut : ¬ ∀ (envs : ℕ → CallEnv Unit) (w : World Unit Addr) (stream : List Char),
    Lines stream → ∀ d₁ d₂, Delivers stream d₁ → Delivers stream d₂ →
      handleSession addrInet envs w d₁ = handleSession addrInet envs w d₂ := by
  intro h
  have hsame := h (fun _ => ⟨.up, .up, fun _ d => (.success, d)⟩) ⟨oneSensor, {}⟩ twoLines
    (fun c hc => (Option.some.inj hc).symm) [twoLines] [twoLines.take 24, twoLines.drop 24]
    ⟨by simp, by decide⟩ ⟨by simp, by decide⟩
  exact absurd (congrArg List.length hsame) (by decide +kernel)

end ManagementSensors.QuantumCommandCli
