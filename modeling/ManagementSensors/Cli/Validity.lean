import ManagementSensors.Cli.SameAsHttp

/-!
# Cli/Validity — what a session does with a line the parser refuses

`handle_session` looks at `valid` only where it looks for `quit`: what `parse_sensor_command` has left
in `cmd` is looked up in the registry and run, whatever else of the line was missing.  A line that is
refused has no effect unless its first word is `CONFIG_IP` (`rejects_iff`).
-/

namespace ManagementSensors.QuantumCommandCli

variable {κ A : Type}

/-- What a session does with one input it has read. -/
structure Round where
  request : List Char
  events : List Event

/-- `handle_session` input by input: what is seen of the session, under the input it was done for. -/
def rounds (I : InetType A) : (ℕ → CallEnv κ) → World κ A → List (List Char) → List Round
  | _, _, [] => []
  | envs, w, request :: reads =>
    let cmd := parseSensorCommand request
    if quits cmd then [⟨request, [.quit]⟩]
    else
      let (calls, w', response) := execute I (envs 0) w cmd
      match response with
      | none => [⟨request, .executed cmd :: calls ++ [.threw]⟩]
      | some response =>
        ⟨request, .executed cmd :: calls ++
            if response = "" then [] else [.wrote (response.toList ++ ['\n'])]⟩ ::
          rounds I (fun n => envs (n + 1)) w' reads

/-- **The rounds are the session.** -/
theorem flatMap_rounds (I : InetType A) (envs : ℕ → CallEnv κ) (w : World κ A)
    (reads : List (List Char)) :
    (rounds I envs w reads).flatMap Round.events = handleSession I envs w reads := by
  induction reads generalizing envs w with
  | nil => rfl
  | cons request reads ih =>
    rw [rounds, handleSession]
    split
    · rfl
    · rcases execute I (envs 0) w (parseSensorCommand request) with ⟨calls, w', response⟩
      cases response with
      | none => simp
      | some response => simp [ih]

/-- The first input is read in any case. -/
theorem exists_round (I : InetType A) (envs : ℕ → CallEnv κ) (w : World κ A) (request : List Char)
    (reads : List (List Char)) : ∃ round ∈ rounds I envs w (request :: reads),
      round.request = request := by
  rw [rounds]
  split
  · exact ⟨_, List.mem_singleton_self _, rfl⟩
  · rcases execute I (envs 0) w (parseSensorCommand request) with ⟨calls, w', _ | response⟩ <;>
      exact ⟨_, List.mem_cons_self, rfl⟩

/-- No call is made in a round. -/
def Round.Quiet (round : Round) : Prop := ∀ e ∈ round.events, e.call? = none

/-- The input of a round is refused by the parser. -/
def Round.Refused (round : Round) : Prop := (parseSensorCommand round.request).valid = false

/-- **A refused input has no effect**: no call is made for it. -/
def Rejects (I : InetType A) (envs : ℕ → CallEnv κ) (w : World κ A) (reads : List (List Char)) :
    Prop := ∀ round ∈ rounds I envs w reads, round.Refused → round.Quiet

/-- The first word of a line names the command. -/
theorem cmd_eq_iff {line cmd : List Char} (hcmd : cmd ≠ []) :
    (parseSensorCommand line).cmd = cmd ↔ (tokens line).head? = some cmd := by
  rw [parseSensorCommand_eq]
  match tokens line with
  | [] => simp [commandOf, hcmd.symm]
  | [first] => simp [commandOf]
  | first :: word :: words =>
    rw [commandOf]
    split
    · simp
    · split <;> simp

/-- The calls that a command makes. -/
theorem execute_calls (I : InetType A) (env : CallEnv κ) (w : World κ A) (command : QuantumCommand) :
    (∀ e ∈ (execute I env w command).1, e.call? = none) ↔ command.cmd ≠ "CONFIG_IP".toList := by
  rw [execute]
  split
  case isTrue hcmd =>
    -- The identifier is generated whatever the command holds.
    have hgenerated : .generatedRequestId ∈ (configIp I env w command).1 := by
      rw [configIp]
      rcases configIpCalls I env ⟨command.id, String.ofList command.value⟩ w.db w.dispatcher with
        ⟨_ | r | ⟨r, status⟩, db, d⟩ <;> simp
    exact iff_of_false (fun h => absurd (h _ hgenerated) (by simp [Event.call?])) (by simp [hcmd])
  case isFalse hcmd => split <;> exact iff_of_true (by simp) hcmd

/-- A round is quiet unless its first word is `CONFIG_IP`. -/
theorem quiet_iff {I : InetType A} {envs : ℕ → CallEnv κ} {w : World κ A} {reads : List (List Char)}
    {round : Round} (hround : round ∈ rounds I envs w reads) :
    round.Quiet ↔ (tokens round.request).head? ≠ some "CONFIG_IP".toList := by
  induction reads generalizing envs w with
  | nil => cases hround
  | cons request reads ih =>
    have hcalls := execute_calls I (envs 0) w (parseSensorCommand request)
    rw [Ne, cmd_eq_iff (by decide), ← Ne] at hcalls
    rw [rounds] at hround
    split at hround
    case isTrue hquits =>
      obtain rfl := List.mem_singleton.mp hround
      have hcmd : (parseSensorCommand request).cmd = "quit".toList := by
        simp only [quits, Bool.and_eq_true, decide_eq_true_eq] at hquits
        exact hquits.2
      rw [cmd_eq_iff (by decide)] at hcmd
      exact iff_of_true (by simp [Round.Quiet, Event.call?]) (by rw [hcmd]; decide)
    case isFalse =>
      revert hround hcalls
      rcases execute I (envs 0) w (parseSensorCommand request) with ⟨calls, w', _ | response⟩ <;>
        intro hcalls hround
      · obtain rfl := List.mem_singleton.mp hround
        refine Iff.trans ?_ hcalls
        simp [Round.Quiet, Event.call?, or_imp, forall_and]
      · rcases List.mem_cons.mp hround with rfl | hround
        · refine Iff.trans ?_ hcalls
          by_cases hresp : response = "" <;>
            simp [Round.Quiet, Event.call?, hresp, or_imp, forall_and]
        · exact ih hround

/-- **What is refused and still run**: the inputs whose first word is `CONFIG_IP`. -/
theorem rejects_iff (I : InetType A) (envs : ℕ → CallEnv κ) (w : World κ A)
    (reads : List (List Char)) :
    Rejects I envs w reads ↔ ∀ round ∈ rounds I envs w reads, round.Refused →
      (tokens round.request).head? ≠ some "CONFIG_IP".toList :=
  forall₂_congr fun _ hround => forall_congr' fun _ => quiet_iff hround

/-- A line of five words reconfigures sensor 3. -/
theorem not_rejects : ¬ Rejects addrInet (fun _ => ⟨.up, .up, fun _ d => (.success, d)⟩)
    (⟨oneSensor, {}⟩ : World Unit Addr) ["CONFIG_IP 3 ip 10.0.0.2 extra".toList] := by
  intro h
  obtain ⟨round, hround, hrequest⟩ := exists_round addrInet
    (fun _ => ⟨.up, .up, fun _ d => (.success, d)⟩) (⟨oneSensor, {}⟩ : World Unit Addr)
    "CONFIG_IP 3 ip 10.0.0.2 extra".toList []
  have hquiet := h round hround (by rw [Round.Refused, hrequest]; decide)
  rw [quiet_iff hround, hrequest] at hquiet
  exact hquiet (by decide)

end ManagementSensors.QuantumCommandCli
