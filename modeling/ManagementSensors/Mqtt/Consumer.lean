import Mathlib.Data.Fintype.Option
import ManagementSensors.Mqtt.Sensors
import ManagementSensors.Mqtt.ThreadQueue

/-!
# Mqtt/Consumer — a `main` that consumes what its MQTT client's callbacks put

    broker ──▸ on_message_arrived, … ──put──▸ que_ ──consume_message──▸ main

The callbacks run on threads of the client library, `main` on its own.  Every step from inside leaves less
to do (`Holds.work_lt`), and where nothing can go on, `main` has taken all that has been put, or has left
its loop before (`consumer_takes`).  So the controller has made of its database what `consumeAll` makes of
the messages in the order of their arrival, however often the connection was lost meanwhile
(`controller_consumes`); the sensor has echoed the messages that arrived before it was first lost, and has
ended there (`sensor_echoes`).
-/

open Machinery ManagementSensors.ThreadQueue

namespace ManagementSensors

variable {A : Type}

/-- `mqtt::event`. -/
inductive MqttEvent (M : Type)
  | message (m : M)
  | connected
  | connectionLost
  | disconnected
  | shutdown
  deriving DecidableEq, Repr

namespace MqttEvent

variable {M : Type}

/-- `is_any_disconnect`. -/
def isAnyDisconnect : MqttEvent M → Bool
  | .connectionLost | .disconnected | .shutdown => true
  | .message _ | .connected => false

/-- `get_message_if`. -/
def message? : MqttEvent M → Option M
  | .message m => some m
  | _ => none

end MqttEvent

/-- The messages among some events. -/
def messagesIn {M : Type} (es : List (MqttEvent M)) : List M := es.filterMap MqttEvent.message?

namespace Consumer

variable {ι σ M : Type}

/-- **The loop of a `main`**: what it makes of a message, and whether an exception leaves it then; and
whether a null pointer ends it. -/
structure Loop (σ M : Type) where
  handle : σ → M → σ × Bool
  breaksAtNull : Bool

/-- `consume_message` and what follows it, on one event: and whether the loop has been left. -/
def Loop.receive (L : Loop σ M) (s : σ) : MqttEvent M → σ × Bool
  | .message m => L.handle s m
  | .connected => (s, false)
  | .connectionLost | .disconnected | .shutdown => (s, L.breaksAtNull)

/-- A process: its consumer queue, what its `main` has made, and whether that is in its loop.  The thread
of `main` is `none`. -/
structure Process (ι σ M : Type) where
  que : Queue (Option ι) (MqttEvent M) := { cap := UInt64.size - 1 }
  main : σ
  inLoop : Bool := true

/-- A callback puts an event; `main` consumes; a thread that has been woken has got the mutex; a thread
wakes for no reason. -/
inductive Input (ι M : Type)
  | callback (i : ι) (e : MqttEvent M) (next : Option (Option ι))
  | consume (next : Option (Option ι))
  | resume (k : Option ι) (next : Option (Option ι))
  | spurious (k : Option ι)

/-- `consume_event`: what `get` returns, or a shutdown event where it throws. -/
def consumeEvent : Result (MqttEvent M) → MqttEvent M
  | .value e => e
  | _ => .shutdown

/-- What `main` does with what its `get` has returned. -/
def Loop.next (L : Loop σ M) (s : σ) (e : Event (Option ι) (MqttEvent M)) : Option (σ × Bool) :=
  match e.thread, e.call with
  | none, .get => some (L.receive s (consumeEvent e.result))
  | _, _ => none

/-- The process, where its queue is `que` after a step that has shown `o`. -/
def Process.after (L : Loop σ M) (s : Process ι σ M) (que : Queue (Option ι) (MqttEvent M))
    (o : Option (Event (Option ι) (MqttEvent M))) : Process ι σ M :=
  match o.bind (L.next s.main) with
  | some (main, left) => { que := que, main := main, inLoop := !left }
  | none => { s with que := que }

variable [DecidableEq ι]

/-- A step of the queue. -/
def Process.advance (L : Loop σ M) (s : Process ι σ M)
    (i : ThreadQueue.Input (Option ι) (MqttEvent M)) :
    Option (Process ι σ M × Option (Event (Option ι) (MqttEvent M))) :=
  (s.que.step i).map fun x => (s.after L x.1 x.2, x.2)

/-- One step of one thread. -/
def step (L : Loop σ M) (s : Process ι σ M) :
    Input ι M → Option (Process ι σ M × Option (Event (Option ι) (MqttEvent M)))
  | .callback i e next => s.advance L (.call (some i) (.put e) next)
  | .consume next => if s.inLoop then s.advance L (.call none .get next) else none
  | .resume k next => s.advance L (.resume k next)
  | .spurious k => s.advance L (.spurious k)

/-- Nothing comes from outside: `main` or a woken thread goes on. -/
def Input.goesOn : Input ι M → Bool
  | .consume _ | .resume _ _ => true
  | .callback _ _ _ | .spurious _ => false

/-- **Only steps from inside.** -/
def inside : Guard (Process ι σ M) (Input ι M) (Event (Option ι) (MqttEvent M)) :=
  fun _ _ i => i.goesOn = true

/-- A process as a machine. -/
def machine (ι : Type) [DecidableEq ι] (L : Loop σ M) :
    Machine (Process ι σ M) (Input ι M) (Event (Option ι) (MqttEvent M)) := ⟨step L⟩

/-- **Nothing can go on**: `main` cannot consume, and no thread has been woken. -/
def AtRest (L : Loop σ M) (s : Process ι σ M) : Prop :=
  (∀ next, (step L s (.consume next)).isNone) ∧ ∀ k next, (step L s (.resume k next)).isNone

instance [Fintype ι] (L : Loop σ M) (s : Process ι σ M) : Decidable (AtRest L s) :=
  inferInstanceAs (Decidable (_ ∧ _))

/-! ## What every run keeps -/

section Run

variable {L : Loop σ M} {s t : Process ι σ M} {i : Input ι M}
  {o : Option (Event (Option ι) (MqttEvent M))} {τ : List (Event (Option ι) (MqttEvent M))} {s₀ : σ}

/-- Who calls what: `main` gets while it is in its loop, the others put. -/
def Role (inLoop : Bool) : Option ι → Call (MqttEvent M) → Prop
  | none, .get => inLoop = true
  | some _, .put _ => True
  | _, _ => False

/-- **The invariant of every run.** -/
structure Holds (L : Loop σ M) (s₀ : σ) (τ : List (Event (Option ι) (MqttEvent M)))
    (s : Process ι σ M) : Prop where
  que : s.que.Holds τ
  closed : s.que.closed = false
  calls : ∀ k call, s.que.calls k = some call → Role s.inLoop k call
  main : (s.main, s.inLoop) = takeAll L.receive s₀ (takenOf τ)

theorem advance_cases {qi : ThreadQueue.Input (Option ι) (MqttEvent M)}
    (h : s.advance L qi = some (t, o)) : ∃ que, s.que.step qi = some (que, o) ∧ t = s.after L que o := by
  obtain ⟨⟨que, o'⟩, hque, ht⟩ := Option.map_eq_some_iff.mp h
  cases ht
  exact ⟨que, hque, rfl⟩

/-- `main` consumes in its loop only. -/
theorem consume_cases {next : Option (Option ι)} (h : step L s (.consume next) = some (t, o)) :
    s.inLoop = true ∧ s.advance L (.call none .get next) = some (t, o) := by
  simp only [step] at h
  split at h
  case isTrue hin => exact ⟨hin, h⟩
  case isFalse => cases h

/-- **All that a step does**: one of the queue, and what `main` makes of what its `get` has returned. -/
theorem step_cases (h : step L s i = some (t, o)) : ∃ qi que, s.que.step qi = some (que, o) ∧
    (∀ k call next, qi = .call k call next → Role s.inLoop k call) ∧ t = s.after L que o := by
  cases i with
  | callback j e next =>
    obtain ⟨que, hque, ht⟩ := advance_cases h
    refine ⟨_, que, hque, ?_, ht⟩
    rintro k call next ⟨⟩
    trivial
  | consume next =>
    obtain ⟨hin, hadvance⟩ := consume_cases h
    obtain ⟨que, hque, ht⟩ := advance_cases hadvance
    refine ⟨_, que, hque, ?_, ht⟩
    rintro k call next ⟨⟩
    exact hin
  | resume | spurious =>
    obtain ⟨que, hque, ht⟩ := advance_cases h
    refine ⟨_, que, hque, ?_, ht⟩
    rintro k call next ⟨⟩

omit [DecidableEq ι] in
/-- A step that hands `main` nothing leaves it as it is. -/
theorem after_eq_self {que : Queue (Option ι) (MqttEvent M)} (ho : o.bind (L.next s.main) = none) :
    s.after L que o = { s with que := que } := by
  rw [Process.after, ho]

omit [DecidableEq ι] in
/-- Nobody closes the queue. -/
theorem closes_of_role {inLoop : Bool} {e : Event (Option ι) (MqttEvent M)}
    (h : Role inLoop e.thread e.call) : e.closes = false := by
  obtain ⟨thread, call, result⟩ := e
  cases call with
  | close => cases thread <;> exact h.elim
  | _ => rfl

theorem Holds.step (h : Holds L s₀ τ s) (hstep : step L s i = some (t, o)) :
    Holds L s₀ (τ ++ o.toList) t := by
  obtain ⟨qi, que, hque, hroles, rfl⟩ := step_cases hstep
  have hholds := h.que.step hque
  obtain ⟨hcalls, hevent⟩ := Queue.step_calls hque h.calls hroles
  have hopen : closedIn τ = false := h.que.closed.symm.trans h.closed
  have hclosed : que.closed = false := by
    rw [hholds.closed, closedIn_concat, hopen, Bool.false_or]
    cases o with
    | none => rfl
    | some e => simp [closedIn, closes_of_role (hevent e rfl)]
  cases o with
  | none =>
    rw [after_eq_self rfl]
    exact ⟨hholds, hclosed, hcalls, by simpa [takenOf] using h.main⟩
  | some e =>
    have hrole := hevent e rfl
    obtain ⟨thread, call, result⟩ := e
    cases thread with
    | none =>
      cases call with
      | get =>
        -- `main` has got an event
        have hresult : ∃ v, result = .value v := by
          refine (Queue.result_of_get hque rfl).resolve_right fun hthrown => ?_
          have hwas := ((h.que.orderly hque).2 hthrown).1
          rw [hopen] at hwas
          cases hwas
        obtain ⟨v, rfl⟩ := hresult
        have hreturned : que.calls none = none := Queue.calls_of_returned hque
        have hafter : s.after L que (some ⟨none, .get, .value v⟩) =
            ⟨que, (L.receive s.main v).1, !(L.receive s.main v).2⟩ := rfl
        rw [hafter]
        refine ⟨hholds, hclosed, fun k call hk => ?_, ?_⟩
        · cases k with
          | none => cases hreturned.symm.trans hk
          | some j =>
            have hput := hcalls (some j) call hk
            cases call with
            | put => trivial
            | _ => exact hput.elim
        · have hmain := h.main
          have hin : s.inLoop = true := hrole
          rw [hin] at hmain
          have htaken : takenOf (τ ++ (some ⟨none, .get, .value v⟩ :
              Option (Event (Option ι) (MqttEvent M))).toList) = takenOf τ ++ [v] := by
            rw [takenOf_concat]
            rfl
          rw [htaken, takeAll_append, ← hmain, if_pos rfl]
          cases hleft : (L.receive s.main v).2 with
          | true => rw [takeAll_cons_of_throws hleft, Bool.not_true]
          | false => rw [takeAll_cons_of_goesOn hleft, Bool.not_false, takeAll]
      | _ => exact hrole.elim
    | some j =>
      cases call with
      | put v =>
        have htakes := Queue.takes_of_put hque rfl
        rw [after_eq_self rfl]
        refine ⟨hholds, hclosed, hcalls, ?_⟩
        rw [takenOf_concat]
        simpa [takenOf, htakes] using h.main
      | _ => exact hrole.elim

omit [DecidableEq ι] in
theorem holds_start (L : Loop σ M) (s₀ : σ) : Holds L s₀ [] ({ main := s₀ } : Process ι σ M) where
  que := ThreadQueue.holds_start (by decide)
  closed := rfl
  calls _ _ h := by cases h
  main := rfl

theorem holds_run (hrun : (machine ι L).Run Guard.free { main := s₀ } τ s) : Holds L s₀ τ s :=
  hrun.invariant (I := Holds L s₀) (holds_start L s₀) fun _ _ _ _ _ hI _ hstep => hI.step hstep

/-- Where nothing can go on, `main` has left its loop or the queue is empty. -/
theorem Holds.of_atRest (h : Holds L s₀ τ s) (hrest : AtRest L s) :
    s.inLoop = false ∨ s.que.que = [] := by
  cases hin : s.inLoop with
  | false => exact Or.inl rfl
  | true =>
    refine Or.inr (by_contra fun hne => ?_)
    have hready : s.que.ready .notEmptyCond = true := by simp [Queue.ready, hne]
    cases hcall : s.que.calls none with
    | none =>
      -- `main` is in no call, and would not wait in `get`
      have hready' : ∀ d, (Call.get : Call (MqttEvent M)).cond = some d → s.que.ready d = true := by
        rintro d ⟨⟩
        exact hready
      obtain ⟨next, que, e, henter⟩ := Queue.exists_returns s.que none hready'
      have hnone := hrest.1 next
      simp [Consumer.step, hin, Process.advance, Queue.step, hcall, henter] at hnone
    | some call =>
      have hrole := h.calls none call hcall
      cases call with
      | get =>
        obtain ⟨j, next, que, e, hresume⟩ := h.que.goesOn hcall rfl hready
        have hnone := hrest.2 j next
        simp [Consumer.step, Process.advance, hresume] at hnone
      | _ => exact hrole.elim

/-! ## It comes to rest -/

omit [DecidableEq ι] in
/-- What is left to do before all threads wait. -/
def Process.work (s : Process ι σ M) : ℕ :=
  s.que.work + if s.inLoop && (s.que.calls none).isNone then 1 else 0

omit [DecidableEq ι] in
theorem after_of_thread {que : Queue (Option ι) (MqttEvent M)}
    (ho : ∀ e, o = some e → e.thread ≠ none) : s.after L que o = { s with que := que } := by
  refine after_eq_self ?_
  cases o with
  | none => rfl
  | some e =>
    obtain ⟨thread, call, result⟩ := e
    cases thread with
    | none => exact absurd rfl (ho _ rfl)
    | some j => rfl

omit [DecidableEq ι] in
theorem work_after_le (L : Loop σ M) (s : Process ι σ M) (que : Queue (Option ι) (MqttEvent M))
    (o : Option (Event (Option ι) (MqttEvent M))) : (s.after L que o).work ≤ que.work + 1 := by
  have hque : (s.after L que o).que = que := by
    rw [Process.after]
    split <;> rfl
  rw [Process.work, hque]
  split <;> omega

/-- `main` in `get` waits, or has an item less. -/
theorem work_after_get {q que : Queue (Option ι) (MqttEvent M)} {next : Option (Option ι)}
    (hopen : q.closed = false) (henter : q.enter none .get false next = some (que, o)) :
    (s.after L que o).work ≤ q.work := by
  rcases Queue.work_get hopen henter with ⟨rfl, hwork, hcall⟩ | ⟨-, hwork, -⟩
  · rw [after_eq_self rfl, Process.work, hcall, hwork]
    simp
  · exact (work_after_le L s que o).trans hwork

/-- A callback in `put` leaves `main` where it was. -/
theorem work_after_put {q que : Queue (Option ι) (MqttEvent M)} {j : ι} {e : MqttEvent M}
    {next : Option (Option ι)} (henter : q.enter (some j) (.put e) false next = some (que, o))
    (hq : q.calls none = s.que.calls none) :
    (s.after L que o).work + s.que.work ≤ s.work + q.work + 3 := by
  have hwork := Queue.work_put henter
  obtain ⟨hthread, hcalls⟩ := (Queue.enter_cases henter).own
  have hafter : s.after L que o = { s with que := que } :=
    after_of_thread fun e he hnone => by cases (hthread e he).symm.trans hnone
  have hnone : que.calls none = s.que.calls none := (hcalls none (by simp)).trans hq
  simp only [hafter, Process.work, hnone]
  omega

/-- **Every step from inside leaves less to do.** -/
theorem Holds.work_lt (h : Holds L s₀ τ s) (hstep : Consumer.step L s i = some (t, o))
    (hi : i.goesOn = true) : t.work < s.work := by
  cases i with
  | callback | spurious => cases hi
  | consume next =>
    obtain ⟨hin, hadvance⟩ := consume_cases hstep
    obtain ⟨que, hque, rfl⟩ := advance_cases hadvance
    obtain ⟨hnone, henter⟩ := Queue.call_cases hque
    have hidle : s.work = s.que.work + 1 := by
      rw [Process.work, hin, hnone]
      rfl
    rw [hidle]
    exact Nat.lt_succ_of_le (work_after_get h.closed henter)
  | resume k next =>
    obtain ⟨que, hque, rfl⟩ := advance_cases hstep
    obtain ⟨call, d, hcall, hcond, hwoken, henter⟩ := Queue.resume_cases hque
    have hrole := h.calls k call hcall
    cases k with
    | none =>
      cases call with
      | get =>
        cases hcond
        have hgoOn := Queue.work_goOn_notEmpty hwoken
        have hbusy : s.work = s.que.work := by simp [Process.work, hcall]
        rw [hbusy, ← hgoOn]
        exact Nat.lt_succ_of_le (work_after_get h.closed henter)
      | _ => exact hrole.elim
    | some j =>
      cases call with
      | put e =>
        cases hcond
        have hgoOn := Queue.work_goOn_notFull hwoken
        have hafter : (s.after L que o).work + s.que.work ≤ _ := work_after_put henter rfl
        omega
      | _ => exact hrole.elim

/-- **It comes to rest**, if nothing more arrives. -/
theorem Holds.exists_atRest (h : Holds L s₀ τ s) :
    ∃ τ' t, (machine ι L).Run inside s τ' t ∧ AtRest L t := by
  induction hn : s.work using Nat.strong_induction_on generalizing s τ with
  | _ n ih =>
    by_cases hrest : AtRest L s
    · exact ⟨[], s, .nil, hrest⟩
    · have hstep : ∃ i x, i.goesOn = true ∧ Consumer.step L s i = some x := by
        by_contra hno
        have hnone : ∀ i : Input ι M, i.goesOn = true → (Consumer.step L s i).isNone := by
          intro i hi
          rw [Option.isNone_iff_eq_none]
          exact Option.eq_none_iff_forall_ne_some.mpr fun x hx => hno ⟨i, x, hi, hx⟩
        exact hrest ⟨fun next => hnone (.consume next) rfl, fun k next => hnone (.resume k next) rfl⟩
      obtain ⟨i, ⟨t, o⟩, hi, hstep⟩ := hstep
      obtain ⟨τ', u, hrun, hu⟩ := ih t.work (hn ▸ h.work_lt hstep hi) (h.step hstep) rfl
      have hfirst : (machine ι L).Run inside s ([] ++ o.toList) t := Machine.Run.nil.snoc hi hstep
      exact ⟨_, u, hfirst.append (fun _ _ _ _ hgoes => hgoes) hrun, hu⟩

/-- **`main` takes what has been put**, in its order, as far as it has come; where nothing can go on, all
of it that its loop lets it take; and it comes to that. -/
theorem consumer_takes (hrun : (machine ι L).Run Guard.free { main := s₀ } τ s) :
    (∃ es, es <+: putOf τ ∧ (s.main, s.inLoop) = takeAll L.receive s₀ es) ∧
      (AtRest L s → (s.main, s.inLoop) = takeAll L.receive s₀ (putOf τ)) ∧
      ∃ τ' t, (machine ι L).Run inside s τ' t ∧ AtRest L t := by
  have hholds := holds_run hrun
  refine ⟨⟨takenOf τ, ⟨s.que.que, hholds.que.items.symm⟩, hholds.main⟩, fun hrest => ?_,
    hholds.exists_atRest⟩
  rw [hholds.que.items]
  rcases hholds.of_atRest hrest with hleft | hempty
  · have hmain := hholds.main
    rw [hleft] at hmain
    rw [takeAll_append, ← hmain, hleft, if_neg Bool.false_ne_true]
  · rw [hempty, List.append_nil]
    exact hholds.main

end Run

/-! ## The controller -/

/-- The loop of the controller's `main`: an exception ends it, a null pointer does not. -/
def controllerLoop [DoubleText] (I : InetType A) : Loop (Db A) Delivery :=
  { handle := handle I, breaksAtNull := false }

theorem takeAll_controllerLoop [DoubleText] (I : InetType A) (db : Db A) (es : List (MqttEvent Delivery)) :
    takeAll (controllerLoop I).receive db es = consumeAll I db (messagesIn es) := by
  induction es generalizing db with
  | nil => rfl
  | cons e es ih =>
    cases e with
    | message m =>
      have hreceive : (controllerLoop I).receive db (.message m) = handle I db m := rfl
      change _ = consumeAll I db (m :: messagesIn es)
      rw [takeAll, consumeAll, hreceive]
      cases handle I db m with
      | mk db' threw => cases threw <;> simp [ih]
    | _ => exact (takeAll_cons_of_goesOn rfl).trans (ih db)

section Controller

variable {ι : Type} [DecidableEq ι] [DoubleText] {I : InetType A} {db : Db A}
  {s : Process ι (Db A) Delivery} {τ : List (Event (Option ι) (MqttEvent Delivery))}

/-- **The controller makes of its database what its messages ask for**, in the order of their arrival, as
far as it has come; where nothing can go on, of all of them up to the first that throws, however often
the connection to the broker was lost in between; and it comes to that. -/
theorem controller_consumes
    (hrun : (machine ι (controllerLoop I)).Run Guard.free { main := db } τ s) :
    (∃ ms, ms <+: messagesIn (putOf τ) ∧ (s.main, s.inLoop) = consumeAll I db ms) ∧
      (AtRest (controllerLoop I) s →
        (s.main, s.inLoop) = consumeAll I db (messagesIn (putOf τ))) ∧
      ∃ τ' t, (machine ι (controllerLoop I)).Run inside s τ' t ∧ AtRest (controllerLoop I) t := by
  obtain ⟨⟨es, hes, hmain⟩, hrest, hcomes⟩ := consumer_takes hrun
  refine ⟨⟨messagesIn es, hes.filterMap _, ?_⟩, fun h => ?_, hcomes⟩
  · rw [hmain, takeAll_controllerLoop]
  · rw [hrest h, takeAll_controllerLoop]

end Controller

/-- Two temperatures of sensor 3; the connection is lost in between. -/
def lostBetween : List (Input Unit Delivery) :=
  [.consume none, .callback () (.message doubleTemp) (some none), .callback () .connectionLost none,
    .resume none none, .consume none, .callback () .connected none,
    .callback () (.message ⟨"telemetry/state",
      some (.object [("sensor_id", .int64 3), ("temp", .double (81 / 4))]), .up⟩) none,
    .consume none, .consume none, .consume none]

open ShortestText in
/-- The second temperature is stored, and the loop goes on. -/
theorem controller_consumes_lostBetween : ∃ τ s,
    (machine Unit (controllerLoop addrInet)).Run Guard.free { main := oneSensor } τ s ∧
      AtRest (controllerLoop addrInet) s ∧ (messagesIn (putOf τ)).length = 2 ∧
      (s.main.stateOf 3).map StateRow.currentTemp = some (numeric52 (81 / 4)) ∧ s.inLoop = true := by
  obtain ⟨τ, s, hrun, hrest, htwo, htemp, hgoes⟩ :=
    (machine Unit (controllerLoop addrInet)).exists_run_of_exec_all Guard.free { main := oneSensor }
    lostBetween
    (fun τ s => AtRest (controllerLoop addrInet) s ∧ (messagesIn (putOf τ)).length = 2 ∧
      ((consumeAll addrInet oneSensor (messagesIn (putOf τ))).1.stateOf 3).map StateRow.currentTemp =
        some (numeric52 (81 / 4)) ∧ (consumeAll addrInet oneSensor (messagesIn (putOf τ))).2 = true)
    (by decide +kernel)
  have hall := (controller_consumes hrun).2.1 hrest
  rw [← hall] at htemp hgoes
  exact ⟨τ, s, hrun, hrest, htwo, htemp, hgoes⟩

/-! ## A sensor -/

/-- A message a sensor takes: what `json::parse` makes of its payload, and whether `publish` takes the
echo or throws. -/
structure SensorDelivery where
  payload : Option (Json String)
  published : Bool

/-- What a sensor publishes for a message; it catches the exceptions. -/
def SensorDelivery.echoed (m : SensorDelivery) : List Message :=
  match m.payload.bind Json.asObject with
  | some obj => if m.published then [echo obj] else []
  | none => []

/-- The loop of a sensor's `main`, with the echoes it has published: a null pointer ends it. -/
def sensorLoop : Loop (List Message) SensorDelivery :=
  { handle := fun echoes m => (echoes ++ m.echoed, false), breaksAtNull := true }

/-- The messages before the first disconnect. -/
def untilLost {M : Type} (es : List (MqttEvent M)) : List M :=
  messagesIn (es.takeWhile fun e => !e.isAnyDisconnect)

theorem untilLost_message {M : Type} (m : M) (es : List (MqttEvent M)) :
    untilLost (.message m :: es) = m :: untilLost es := rfl

theorem untilLost_mono {M : Type} {es es' : List (MqttEvent M)} (h : es <+: es') :
    untilLost es <+: untilLost es' := by
  obtain ⟨rest, rfl⟩ := h
  refine List.IsPrefix.filterMap _ ?_
  rw [List.takeWhile_append]
  split
  case isTrue => exact (List.takeWhile_prefix _).trans (List.prefix_append ..)
  case isFalse => exact List.prefix_rfl

theorem takeAll_sensorLoop (echoes : List Message) (es : List (MqttEvent SensorDelivery)) :
    takeAll sensorLoop.receive echoes es =
      (echoes ++ (untilLost es).flatMap SensorDelivery.echoed, !es.any MqttEvent.isAnyDisconnect) := by
  induction es generalizing echoes with
  | nil => simp [takeAll, untilLost, messagesIn]
  | cons e es ih =>
    cases e with
    | message m =>
      have hgoes : takeAll sensorLoop.receive echoes (.message m :: es) =
          takeAll sensorLoop.receive (echoes ++ m.echoed) es := takeAll_cons_of_goesOn rfl
      rw [hgoes, ih, untilLost_message, List.flatMap_cons, List.append_assoc]
      rfl
    | connected =>
      have hgoes : takeAll sensorLoop.receive echoes (.connected :: es) =
          takeAll sensorLoop.receive echoes es := takeAll_cons_of_goesOn rfl
      rw [hgoes, ih]
      rfl
    | _ =>
      rw [takeAll_cons_of_throws rfl]
      exact Prod.ext (List.append_nil _).symm rfl

section Sensor

variable {ι : Type} [DecidableEq ι] {s : Process ι (List Message) SensorDelivery}
  {τ : List (Event (Option ι) (MqttEvent SensorDelivery))}

/-- **A sensor echoes what arrives until its connection is first lost**, each message once and in order,
and leaves its loop then, also where the connection is back before `main` sees that it was lost.  It comes
to where nothing can go on, and has by then echoed all that. -/
theorem sensor_echoes (hrun : (machine ι sensorLoop).Run Guard.free { main := [] } τ s) :
    s.main <+: (untilLost (putOf τ)).flatMap SensorDelivery.echoed ∧
      (s.inLoop = false → (putOf τ).any MqttEvent.isAnyDisconnect = true) ∧
      (AtRest sensorLoop s → s.main = (untilLost (putOf τ)).flatMap SensorDelivery.echoed ∧
        s.inLoop = !(putOf τ).any MqttEvent.isAnyDisconnect) ∧
      ∃ τ' t, (machine ι sensorLoop).Run inside s τ' t ∧ AtRest sensorLoop t := by
  obtain ⟨⟨es, hes, hmain⟩, hrest, hcomes⟩ := consumer_takes hrun
  rw [takeAll_sensorLoop, Prod.mk.injEq, List.nil_append] at hmain
  refine ⟨?_, fun hleft => ?_, fun h => ?_, hcomes⟩
  · rw [hmain.1]
    exact (untilLost_mono hes).flatMap _
  · rw [hmain.2, Bool.not_eq_false'] at hleft
    exact List.any_eq_true.mpr ((List.any_eq_true.mp hleft).imp fun e he => ⟨hes.subset he.1, he.2⟩)
  · have hall := hrest h
    rw [takeAll_sensorLoop, Prod.mk.injEq, List.nil_append] at hall
    exact hall

end Sensor

/-- A message, the connection lost and back, and another message. -/
def lostAfterFirst : List (Input Unit SensorDelivery) :=
  [.consume none, .callback () (.message ⟨some (.object []), true⟩) (some none), .resume none none,
    .callback () .connectionLost none, .callback () .connected none,
    .callback () (.message ⟨some (.object []), true⟩) none, .consume none]

/-- The second message is not echoed. -/
theorem sensor_echoes_lostAfterFirst : ∃ τ s,
    (machine Unit sensorLoop).Run Guard.free { main := [] } τ s ∧
      (messagesIn (putOf τ)).length = 2 ∧ s.main.length = 1 ∧ s.inLoop = false := by
  obtain ⟨τ, s, hrun, hrest, htwo, hone, hlost⟩ := (machine Unit sensorLoop).exists_run_of_exec_all
    Guard.free { main := [] } lostAfterFirst
    (fun τ s => AtRest sensorLoop s ∧ (messagesIn (putOf τ)).length = 2 ∧
      ((untilLost (putOf τ)).flatMap SensorDelivery.echoed).length = 1 ∧
      (!(putOf τ).any MqttEvent.isAnyDisconnect) = false)
    (by decide +kernel)
  obtain ⟨hmain, hin⟩ := (sensor_echoes hrun).2.2.1 hrest
  exact ⟨τ, s, hrun, htwo, by rw [hmain, hone], hin.trans hlost⟩

end Consumer

end ManagementSensors
