import ManagementSensors.Cli.Cuts
import ManagementSensors.Cli.SameAsHttp
import ManagementSensors.Machinery.Text

/-!
# Cli/Replies — what a client reads from its CLI session

    commands ──execute──▸ replies ──handle_session──▸ characters

A session writes one line for each command it executes, unless the command throws, which ends the
session.  No reply holds a line break, and no two replies have the same text (`text_injective`); so what
the client has read tells it what became of each of its commands, in their order (`transcript_read`).
-/

open Machinery

namespace ManagementSensors.QuantumCommandCli

/-! ## Replies -/

/-- **What became of a command** that has not thrown. -/
inductive Reply
  | updated (id : Int32)
  | refused (status : ResponseStatus) (r : RequestId)
  | rebooting (id : Int32)
  | notFound (cmd : List Char)
  deriving DecidableEq, Repr

/-- The response it is told with. -/
def Reply.text : Reply → String
  | updated id => "OK: Sensor " ++ toString id ++ " updated successfully."
  | refused status r => "ERROR: " ++ statusToString status ++ " (ID: " ++ toString r ++ ")"
  | rebooting id => "OK: Rebooting sensor " ++ toString id
  | notFound cmd => "Command '" ++ String.ofList cmd ++ "' not found in registry."

/-- A reply there can be: SUCCESS refuses nothing, and a command is a word, or empty. -/
def Reply.Possible : Reply → Prop
  | refused status _ => status ≠ .success
  | notFound cmd => ∀ c ∈ cmd, isSpace c = false
  | updated _ | rebooting _ => True

variable {κ A : Type} {I : InetType A}

/-- What becomes of a CONFIG_IP command, by its calls. -/
def replyOfCalls (id : Int32) : CallResult → Option Reply
  | .answered r status => some (if status = .success then .updated id else .refused status r)
  | .notGenerated | .notAdded _ => none

/-- What becomes of a command, if it does not throw. -/
def replyOf (I : InetType A) (env : CallEnv κ) (w : World κ A) (command : QuantumCommand) :
    Option Reply :=
  if command.cmd = "CONFIG_IP".toList then
    replyOfCalls command.id
      (configIpCalls I env ⟨command.id, String.ofList command.value⟩ w.db w.dispatcher).1
  else if command.cmd = "REBOOT".toList then some (.rebooting command.id)
  else some (.notFound command.cmd)

/-- What becomes of the commands of a session. -/
def replies (I : InetType A) : (ℕ → CallEnv κ) → World κ A → List (List Char) → List Reply
  | _, _, [] => []
  | envs, w, request :: reads =>
    let cmd := parseSensorCommand request
    if quits cmd then []
    else
      match replyOf I (envs 0) w cmd with
      | none => []
      | some reply =>
        reply :: replies I (fun n => envs (n + 1)) (execute I (envs 0) w cmd).2.1 reads

/-- What is on the stream. -/
def Event.written : Event → List Char
  | .wrote response => response
  | _ => []

/-- What the client reads. -/
def output (events : List Event) : List Char := events.flatMap Event.written

/-- The text of some replies. -/
def transcript (rs : List Reply) : List Char :=
  Text.unlines '\n' (rs.map fun reply => reply.text.toList)

/-! ## Telling replies apart -/

/-- A number is spelt in one way. -/
theorem Spells.unique {word : List Char} {v v' : ℤ} (h : Spells word v) (h' : Spells word v') :
    v = v' := by
  cases h with
  | plain hne hall =>
    cases h' with
    | plain => rfl
    | plus | minus => exact absurd (hall _ List.mem_cons_self) (by decide)
  | plus hne hall =>
    cases h' with
    | plus => rfl
    | plain _ hall' => exact absurd (hall' _ List.mem_cons_self) (by decide)
  | minus hne hall =>
    cases h' with
    | minus => rfl
    | plain _ hall' => exact absurd (hall' _ List.mem_cons_self) (by decide)

theorem toString_int32_injective {a b : Int32} (h : toString a = toString b) : a = b := by
  have ha : Spells (toString a).toList a.toInt := spells_repr a.toInt
  have hb : Spells (toString b).toList b.toInt := spells_repr b.toInt
  rw [h] at ha
  exact Int32.toInt_inj.mp (ha.unique hb)

theorem toString_requestId_injective {a b : RequestId} (h : toString a = toString b) : a = b := by
  have ha : decimal (toString a).toList = a.toNat := (digits_repr a.toNat).2.2
  have hb : decimal (toString b).toList = b.toNat := (digits_repr b.toNat).2.2
  rw [h, hb] at ha
  exact UInt64.toNat_inj.mp ha.symm

theorem append_cancel {a x y b : String} (h : a ++ x ++ b = a ++ y ++ b) : x = y := by
  have hchars := congrArg String.toList h
  simp only [String.toList_append, List.append_cancel_right_eq, List.append_cancel_left_eq] at hchars
  exact String.toList_inj.mp hchars

/-- The first characters of a text that begins with `a`. -/
theorem take_append (a x : String) {n : ℕ} (h : n ≤ a.toList.length) :
    (a ++ x).toList.take n = a.toList.take n := by
  rw [String.toList_append, List.take_append_of_le_length h]

/-- The first five characters tell the kinds apart. -/
def Reply.kind : Reply → List Char
  | updated _ => ['O', 'K', ':', ' ', 'S']
  | refused _ _ => ['E', 'R', 'R', 'O', 'R']
  | rebooting _ => ['O', 'K', ':', ' ', 'R']
  | notFound _ => ['C', 'o', 'm', 'm', 'a']

theorem take_text (reply : Reply) : reply.text.toList.take 5 = reply.kind := by
  cases reply with
  | updated id =>
    change ("OK: Sensor " ++ toString id ++ " updated successfully.").toList.take 5 = _
    rw [String.append_assoc, take_append _ _ (by decide)]
    rfl
  | refused status r =>
    change ("ERROR: " ++ statusToString status ++ " (ID: " ++ toString r ++ ")").toList.take 5 = _
    rw [String.append_assoc, String.append_assoc, String.append_assoc, take_append _ _ (by decide)]
    rfl
  | rebooting id =>
    change ("OK: Rebooting sensor " ++ toString id).toList.take 5 = _
    rw [take_append _ _ (by decide)]
    rfl
  | notFound cmd =>
    change ("Command '" ++ String.ofList cmd ++ "' not found in registry.").toList.take 5 = _
    rw [String.append_assoc, take_append _ _ (by decide)]
    rfl

theorem statusToString_injective {st st' : ResponseStatus}
    (h : statusToString st = statusToString st') : st = st' := by
  cases st <;> cases st' <;> first | rfl | exact absurd h (by decide)

/-- A refusal tells its status, which holds no parenthesis, and its identifier. -/
theorem refused_injective {st st' : ResponseStatus} {r r' : RequestId}
    (h : (Reply.refused st r).text = (Reply.refused st' r').text) : st = st' ∧ r = r' := by
  have hstatus : ∀ st : ResponseStatus, '(' ∉ (statusToString st).toList ++ [' '] := fun st => by
    cases st <;> decide
  have hopen : " (ID: ".toList = ' ' :: '(' :: "ID: ".toList := by decide
  change "ERROR: " ++ statusToString st ++ " (ID: " ++ toString r ++ ")" =
    "ERROR: " ++ statusToString st' ++ " (ID: " ++ toString r' ++ ")" at h
  have hchars := congrArg String.toList h
  simp only [String.toList_append, hopen, List.append_assoc, List.cons_append,
    List.append_cancel_left_eq] at hchars
  obtain ⟨hst, hid⟩ := Text.append_cons_inj (hstatus st) (hstatus st')
    (by simpa only [List.append_assoc, List.singleton_append] using hchars)
  rw [List.append_cancel_left_eq, List.append_cancel_right_eq] at hid
  exact ⟨statusToString_injective (String.toList_inj.mp (List.append_cancel_right hst)),
    toString_requestId_injective (String.toList_inj.mp hid)⟩

/-- **Two replies with the same text are the same reply.** -/
theorem text_injective {reply reply' : Reply} (h : reply.text = reply'.text) : reply = reply' := by
  have hkind : reply.kind = reply'.kind := by rw [← take_text, ← take_text, h]
  cases reply with
  | updated id =>
    cases reply' with
    | updated id' => rw [toString_int32_injective (append_cancel h)]
    | refused | rebooting | notFound => exact absurd hkind (by simp [Reply.kind])
  | refused st r =>
    cases reply' with
    | refused st' r' =>
      obtain ⟨rfl, rfl⟩ := refused_injective h
      rfl
    | updated | rebooting | notFound => exact absurd hkind (by simp [Reply.kind])
  | rebooting id =>
    cases reply' with
    | rebooting id' =>
      have hid : toString id = toString id' := append_cancel (b := "") (congrArg (· ++ "") h)
      rw [toString_int32_injective hid]
    | updated | refused | notFound => exact absurd hkind (by simp [Reply.kind])
  | notFound cmd =>
    cases reply' with
    | notFound cmd' =>
      have hcmd := congrArg String.toList (append_cancel h)
      rw [String.toList_ofList, String.toList_ofList] at hcmd
      rw [hcmd]
    | updated | refused | rebooting => exact absurd hkind (by simp [Reply.kind])

/-! ## A reply is a line -/

theorem newline_notMem_of_spells {word : List Char} {v : ℤ} (h : Spells word v) : '\n' ∉ word :=
  fun hmem => Bool.noConfusion (h.isWord.2 _ hmem)

theorem newline_notMem_text {reply : Reply} (h : reply.Possible) : '\n' ∉ reply.text.toList := by
  have hid : ∀ id : Int32, '\n' ∉ (toString id).toList := fun id =>
    newline_notMem_of_spells (spells_repr id.toInt)
  cases reply with
  | updated id =>
    change '\n' ∉ ("OK: Sensor " ++ toString id ++ " updated successfully.").toList
    simp only [String.toList_append, List.mem_append, not_or]
    exact ⟨⟨by decide, hid id⟩, by decide⟩
  | refused status r =>
    change '\n' ∉ ("ERROR: " ++ statusToString status ++ " (ID: " ++ toString r ++ ")").toList
    have hr : '\n' ∉ (toString r).toList := newline_notMem_of_spells (spells_repr (r.toNat : ℤ))
    simp only [String.toList_append, List.mem_append, not_or]
    exact ⟨⟨⟨⟨by decide, by cases status <;> decide⟩, by decide⟩, hr⟩, by decide⟩
  | rebooting id =>
    change '\n' ∉ ("OK: Rebooting sensor " ++ toString id).toList
    simp only [String.toList_append, List.mem_append, not_or]
    exact ⟨by decide, hid id⟩
  | notFound cmd =>
    change '\n' ∉ ("Command '" ++ String.ofList cmd ++ "' not found in registry.").toList
    simp only [String.toList_append, String.toList_ofList, List.mem_append, not_or]
    exact ⟨⟨by decide, fun hmem => Bool.noConfusion (h _ hmem)⟩, by decide⟩

/-- **A transcript is read in one way.** -/
theorem transcript_injective {rs rs' : List Reply} (h : ∀ reply ∈ rs, reply.Possible)
    (h' : ∀ reply ∈ rs', reply.Possible) (heq : transcript rs = transcript rs') : rs = rs' := by
  have hlines : ∀ rs : List Reply, (∀ reply ∈ rs, reply.Possible) →
      ∀ u ∈ rs.map fun reply => reply.text.toList, '\n' ∉ u := by
    intro rs hrs u hu
    obtain ⟨reply, hreply, rfl⟩ := List.mem_map.mp hu
    exact newline_notMem_text (hrs reply hreply)
  have htexts := Text.unlines_injective (hlines rs h) (hlines rs' h') heq
  exact List.map_injective_iff.mpr (fun _ _ ht => text_injective (String.toList_inj.mp ht)) htexts

/-! ## The session -/

/-- A command responds with the text of its reply, or throws; it writes nothing itself. -/
theorem execute_response (env : CallEnv κ) (w : World κ A) (command : QuantumCommand) :
    (execute I env w command).2.2 = (replyOf I env w command).map Reply.text ∧
      ∀ e ∈ (execute I env w command).1, e.written = [] ∧ e ≠ .threw ∧ ∀ c, e ≠ .executed c := by
  rw [execute, replyOf]
  split
  · rw [configIp]
    rcases configIpCalls I env ⟨command.id, String.ofList command.value⟩ w.db w.dispatcher with
      ⟨_ | r | ⟨r, status⟩, db, d⟩
    · exact ⟨rfl, by simp [Event.written]⟩
    · exact ⟨rfl, by simp [Event.written]⟩
    · refine ⟨?_, by simp [Event.written]⟩
      simp only [replyOfCalls, Option.map_some, Option.some.injEq]
      split <;> rfl
  · split
    · exact ⟨rfl, by simp⟩
    · exact ⟨rfl, by simp⟩

theorem text_ne_empty (reply : Reply) : reply.text ≠ "" := fun h => by
  have hkind := take_text reply
  rw [h] at hkind
  cases reply <;> exact absurd hkind (by simp [Reply.kind])

/-- A round of a session that goes on. -/
theorem handleSession_cons (envs : ℕ → CallEnv κ) (w : World κ A) (request : List Char)
    (reads : List (List Char)) (h : quits (parseSensorCommand request) = false) :
    handleSession I envs w (request :: reads) = .executed (parseSensorCommand request) ::
      (execute I (envs 0) w (parseSensorCommand request)).1 ++
        match replyOf I (envs 0) w (parseSensorCommand request) with
        | none => [.threw]
        | some reply => .wrote (reply.text.toList ++ ['\n']) ::
          handleSession I (fun n => envs (n + 1))
            (execute I (envs 0) w (parseSensorCommand request)).2.1 reads := by
  obtain ⟨hresponse, -⟩ := execute_response (I := I) (envs 0) w (parseSensorCommand request)
  rw [handleSession]
  revert hresponse
  rcases execute I (envs 0) w (parseSensorCommand request) with ⟨calls, w', response⟩
  rintro rfl
  cases replyOf I (envs 0) w (parseSensorCommand request) with
  | none => simp [h]
  | some reply => simp [h, text_ne_empty]

/-- What a command's calls leave on the stream, and count for. -/
theorem quiet_calls (env : CallEnv κ) (w : World κ A) (command : QuantumCommand) :
    output (execute I env w command).1 = [] ∧ executedCount (execute I env w command).1 = 0 ∧
      .threw ∉ (execute I env w command).1 := by
  obtain ⟨-, hcalls⟩ := execute_response (I := I) env w command
  refine ⟨List.flatMap_eq_nil_iff.mpr fun e he => (hcalls e he).1, ?_, fun h => (hcalls _ h).2.1 rfl⟩
  rw [executedCount, List.countP_eq_zero]
  intro e he
  cases e with
  | executed c => exact absurd rfl ((hcalls _ he).2.2 c)
  | generatedRequestId | addedPendingConfig | waitedForResponse | wrote | quit | threw => simp

/-- **The client reads the replies**, line by line. -/
theorem output_handleSession (envs : ℕ → CallEnv κ) (w : World κ A) (reads : List (List Char)) :
    output (handleSession I envs w reads) = transcript (replies I envs w reads) := by
  induction reads generalizing envs w with
  | nil => rfl
  | cons request reads ih =>
    rw [replies]
    by_cases hquits : quits (parseSensorCommand request) = true
    · simp [handleSession, hquits, output, Event.written, transcript, Text.unlines]
    · obtain ⟨hcalls, -⟩ := quiet_calls (I := I) (envs 0) w (parseSensorCommand request)
      rw [output] at hcalls
      rw [handleSession_cons _ _ _ _ (by simpa using hquits), output, List.flatMap_append,
        List.flatMap_cons, hcalls, if_neg hquits]
      cases replyOf I (envs 0) w (parseSensorCommand request) with
      | none => rfl
      | some reply =>
        simp only [Event.written, List.nil_append, List.flatMap_cons, transcript, List.map_cons,
          Text.unlines] at ih ⊢
        rw [← ih]
        rfl

/-- **One reply for each command**, but the one that has thrown. -/
theorem executedCount_handleSession (envs : ℕ → CallEnv κ) (w : World κ A)
    (reads : List (List Char)) : executedCount (handleSession I envs w reads) =
      (replies I envs w reads).length + if .threw ∈ handleSession I envs w reads then 1 else 0 := by
  induction reads generalizing envs w with
  | nil => rfl
  | cons request reads ih =>
    rw [replies]
    by_cases hquits : quits (parseSensorCommand request) = true
    · simp [handleSession, hquits, executedCount]
    · obtain ⟨-, hcount, hthrew⟩ := quiet_calls (I := I) (envs 0) w (parseSensorCommand request)
      rw [executedCount] at hcount
      rw [handleSession_cons _ _ _ _ (by simpa using hquits), if_neg hquits, executedCount]
      cases replyOf I (envs 0) w (parseSensorCommand request) with
      | none => simp [hcount]
      | some reply =>
        have hrest := ih (fun n => envs (n + 1)) (execute I (envs 0) w (parseSensorCommand request)).2.1
        rw [executedCount] at hrest
        simp only [List.cons_append, List.countP_cons, List.countP_append, hcount, hrest,
          List.mem_cons, List.mem_append, hthrew, reduceCtorEq, false_or, List.length_cons]
        simp
        omega

/-- The command of a line is one of its words, or empty. -/
theorem isSpace_cmd (line : List Char) : ∀ c ∈ (parseSensorCommand line).cmd, isSpace c = false := by
  rw [parseSensorCommand_eq]
  have hwords : ∀ word ∈ tokens line, IsWord word := fun _ => isWord_of_mem_tokens
  match tokens line, hwords with
  | [], _ => exact nofun
  | [cmd], hwords => exact (hwords cmd List.mem_cons_self).2
  | cmd :: word :: words, hwords =>
    have hcmd : (commandOf (cmd :: word :: words)).cmd = cmd := by
      rw [commandOf]
      split
      · rfl
      · split <;> rfl
    rw [hcmd]
    exact (hwords cmd List.mem_cons_self).2

theorem possible_replies (envs : ℕ → CallEnv κ) (w : World κ A) (reads : List (List Char)) :
    ∀ reply ∈ replies I envs w reads, reply.Possible := by
  induction reads generalizing envs w with
  | nil => exact nofun
  | cons request reads ih =>
    rw [replies]
    split
    · exact nofun
    cases hreply : replyOf I (envs 0) w (parseSensorCommand request) with
    | none => exact nofun
    | some reply =>
      refine List.forall_mem_cons.mpr ⟨?_, ih _ _⟩
      rw [replyOf] at hreply
      split at hreply
      · -- an answer of the dispatcher
        unfold replyOfCalls at hreply
        split at hreply <;> cases hreply
        split
        · trivial
        case isFalse hst => exact hst
      · split at hreply <;> cases hreply
        · trivial
        · exact isSpace_cmd request

/-- **What the client reads tells what became of its commands.**  In every session, whatever is read
and whatever the calls come to, the output is the lines of one reply for each command in their order,
but the one that has thrown; and no other replies there can be have this output. -/
theorem transcript_read (I : InetType A) (envs : ℕ → CallEnv κ) (w : World κ A)
    (reads : List (List Char)) :
    output (handleSession I envs w reads) = transcript (replies I envs w reads) ∧
      executedCount (handleSession I envs w reads) = (replies I envs w reads).length +
        (if .threw ∈ handleSession I envs w reads then 1 else 0) ∧
      ∀ rs : List Reply, (∀ reply ∈ rs, reply.Possible) →
        transcript rs = output (handleSession I envs w reads) → rs = replies I envs w reads := by
  refine ⟨output_handleSession envs w reads, executedCount_handleSession envs w reads, ?_⟩
  intro rs hrs heq
  rw [output_handleSession] at heq
  exact transcript_injective hrs (possible_replies envs w reads) heq

end ManagementSensors.QuantumCommandCli
