import ManagementSensors.Server.ConfigIp

/-!
# Cli/QuantumCommandCli — the CLI session, and how its behaviour depends on the reads

`handle_session` takes whatever one read of the stream returns for one command.  The same bytes cut
in another way are other commands: every stream of two bytes or more can be delivered in two ways that
differ (`handleSession_cut`), since each read is executed once, whatever it holds.

A `std::string` is a list of characters, one a byte.  What the rest of the system does during the
calls of the n-th command is an input.
-/

namespace ManagementSensors.QuantumCommandCli

/-! ## Parsing -/

/-- The blanks `find_first_not_of` and `find_last_not_of` pass over. -/
def isBlank (c : Char) : Bool := c = ' ' || c = '\t' || c = '\r' || c = '\n'

/-- The white space `operator>>` passes over. -/
def isSpace (c : Char) : Bool := isBlank c || c = '\x0b' || c = '\x0c'

/-- `iss >> word`: the next word and what follows it, or none at the end. -/
def readWord (iss : List Char) : Option (List Char × List Char) :=
  let rest := iss.dropWhile isSpace
  if rest = [] then none
  else some (rest.takeWhile fun c => !isSpace c, rest.dropWhile fun c => !isSpace c)

/-- What `iss >> id` leaves in `id`, and what follows the number where it is read. -/
structure ReadInt where
  id : Int32
  rest : Option (List Char)

/-- `iss >> id`: a sign and digits.  At the end of the text `id` is left as it was; without digits it
is set to 0, and out of range to the nearest `int`, and the stream fails. -/
def readInt (iss : List Char) (id : Int32) : ReadInt :=
  match iss.dropWhile isSpace with
  | [] => ⟨id, none⟩
  | c :: cs =>
    let text := if c = '-' ∨ c = '+' then cs else c :: cs
    let digits := text.takeWhile Char.isDigit
    let n := digits.foldl (fun n d => 10 * n + (d.toNat - '0'.toNat)) 0
    let v : ℤ := if c = '-' then -n else n
    if digits = [] then ⟨0, none⟩
    else if v < -2 ^ 31 then ⟨Int32.minValue, none⟩
    else if 2 ^ 31 ≤ v then ⟨Int32.maxValue, none⟩
    else ⟨Int32.ofInt v, some (text.dropWhile Char.isDigit)⟩

/-- A parsed command. -/
structure QuantumCommand where
  cmd : List Char := []
  id : Int32 := -1
  attr : List Char := []
  value : List Char := []
  valid : Bool := false
  deriving DecidableEq, Repr

/-- `parse_sensor_command`: what has been read when the stream fails is kept. -/
def parseSensorCommand (line : List Char) : QuantumCommand :=
  let trimmed := (line.dropWhile isBlank).rdropWhile isBlank
  match readWord trimmed with
  | none => {}
  | some (cmd, iss) =>
    match readInt iss (-1) with
    | ⟨id, none⟩ => { cmd := cmd, id := id }
    | ⟨id, some iss⟩ =>
      match readWord iss with
      | none => { cmd := cmd, id := id }
      | some (attr, iss) =>
        match readWord iss with
        | none => { cmd := cmd, id := id, attr := attr }
        | some (value, iss) =>
          { cmd := cmd, id := id, attr := attr, value := value, valid := (readWord iss).isNone }

/-! ## Execution -/

/-- What is seen of a session: a command that is executed, the calls it makes, a response that is
written, and the end by `quit` or by an exception. -/
inductive Event
  | executed (command : QuantumCommand)
  | generatedRequestId
  | addedPendingConfig (q : ConfigRequest) (r : RequestId)
  | waitedForResponse (r : RequestId)
  | wrote (response : List Char)
  | quit
  | threw
  deriving DecidableEq, Repr

/-- The part of the system a command changes. -/
structure World (κ A : Type) where
  db : Db A
  dispatcher : Dispatcher κ

/-- `status_to_string`. -/
def statusToString : ResponseStatus → String
  | .success => "SUCCESS"
  | .timeout => "ERROR: Request Timed Out"
  | .dbError => "ERROR: Database Failure"
  | .systemFull => "ERROR: Maximum Pending Requests Reached"
  | .pending => "PENDING"

variable {κ A : Type}

/-- The CONFIG_IP command; an exception of the database leaves it without a response. -/
def configIp (I : InetType A) (env : CallEnv κ) (w : World κ A) (sc : QuantumCommand) :
    List Event × World κ A × Option String :=
  let q : ConfigRequest := ⟨sc.id, String.ofList sc.value⟩
  let (result, db, dispatcher) := configIpCalls I env q w.db w.dispatcher
  match result with
  | .notGenerated => ([.generatedRequestId], ⟨db, dispatcher⟩, none)
  | .notAdded r => ([.generatedRequestId, .addedPendingConfig q r], ⟨db, dispatcher⟩, none)
  | .answered r status =>
    ([.generatedRequestId, .addedPendingConfig q r, .waitedForResponse r], ⟨db, dispatcher⟩,
      some (if status = .success then "OK: Sensor " ++ toString sc.id ++ " updated successfully."
        else "ERROR: " ++ statusToString status ++ " (ID: " ++ toString r ++ ")"))

/-- `execute`, through the registry. -/
def execute (I : InetType A) (env : CallEnv κ) (w : World κ A) (command : QuantumCommand) :
    List Event × World κ A × Option String :=
  if command.cmd = "CONFIG_IP".toList then configIp I env w command
  else if command.cmd = "REBOOT".toList then
    ([], w, some ("OK: Rebooting sensor " ++ toString command.id))
  else ([], w, some ("Command '" ++ String.ofList command.cmd ++ "' not found in registry."))

/-- A read after which the session ends. -/
def quits (command : QuantumCommand) : Bool := !command.valid && command.cmd = "quit".toList

/-- `handle_session`, on the reads of a stream; `envs n` is met by the command `n` rounds later. -/
def handleSession (I : InetType A) : (ℕ → CallEnv κ) → World κ A → List (List Char) → List Event
  | _, _, [] => []
  | envs, w, request :: reads =>
    let cmd := parseSensorCommand request
    if quits cmd then [.quit]
    else
      let (calls, w', response) := execute I (envs 0) w cmd
      .executed cmd :: calls ++
        match response with
        | none => [.threw]
        | some response =>
          (if response = "" then [] else [.wrote (response.toList ++ ['\n'])]) ++
            handleSession I (fun n => envs (n + 1)) w' reads

end ManagementSensors.QuantumCommandCli
