import ManagementSensors.Machinery.Condition
import ManagementSensors.Machinery.Run

/-!
# Mqtt/ThreadQueue — the queue between the MQTT client's callbacks and `main`

    callbacks ──put──▸ que_ ──get──▸ main

One mutex, and two condition variables with their waits in a loop.  A step is what one thread does while
it holds the mutex: a call from its start, or from the end of a wait, to its return or to its next
wait.  `notify_one` may wake any of the threads that are asleep, and a thread may wake for no reason.

The items come out as they went in, each one once, nothing goes in after `close`, and no thread sleeps
while it could go on, unless another one has been woken that will (`queue_serves`).
-/

open Machinery Function

namespace ManagementSensors.ThreadQueue

/-- `notEmptyCond_` and `notFullCond_`. -/
inductive Cond
  | notEmptyCond
  | notFullCond
  deriving DecidableEq, Repr

/-- What a thread may call.  The bounded waits are `try_put_for` and `try_get_for`, and stand for
`try_put_until` and `try_get_until`, which differ from them in how the time-out is given only;
`get(value_type*)` is a `tryGetFor` whose time-out never comes; what only reads is left out. -/
inductive Call (T : Type)
  | put (val : T)
  | tryPut (val : T)
  | tryPutFor (val : T)
  | get
  | tryGet
  | tryGetFor
  | close
  | clear
  | capacity (cap : ℕ)
  deriving DecidableEq, Repr

/-- How a call ends: it has put its item or done its work, it returns `false`, it throws
`queue_closed`, it returns an item; or it has dropped all items. -/
inductive Result (T : Type)
  | done
  | refused
  | queueClosed
  | value (val : T)
  | cleared (items : List T)
  deriving DecidableEq, Repr

/-- The condition that a call waits on. -/
def Call.cond {T : Type} : Call T → Option Cond
  | .put _ | .tryPutFor _ => some .notFullCond
  | .get | .tryGetFor => some .notEmptyCond
  | .tryPut _ | .tryGet | .close | .clear | .capacity _ => none

/-- Whether the wait of a call is bounded. -/
def Call.timed {T : Type} : Call T → Bool
  | .tryPutFor _ | .tryGetFor => true
  | _ => false

/-- A call that has returned. -/
structure Event (κ T : Type) where
  thread : κ
  call : Call T
  result : Result T
  deriving DecidableEq, Repr

/-- `thread_queue`, with the calls of the threads that are in a wait. -/
structure Queue (κ T : Type) where
  cap : ℕ
  closed : Bool := false
  que : List T := []
  conds : Cond → Condition κ := fun _ => {}
  calls : κ → Option (Call T) := fun _ => none

/-- A thread calls; a woken thread has got the mutex; a thread's wait is over; a thread wakes for no
reason.  Where one is notified, it is `next`. -/
inductive Input (κ T : Type)
  | call (k : κ) (call : Call T) (next : Option κ)
  | resume (k : κ) (next : Option κ)
  | timeout (k : κ) (next : Option κ)
  | spurious (k : κ)

namespace Queue

variable {κ T : Type}

/-- What a wait waits for. -/
def ready (q : Queue κ T) : Cond → Bool
  | .notEmptyCond => !q.que.isEmpty || q.closed
  | .notFullCond => q.que.length < q.cap || q.closed

def setCond (q : Queue κ T) (d : Cond) (c : Condition κ) : Queue κ T :=
  { q with conds := update q.conds d c }

def notifyAll (q : Queue κ T) (d : Cond) : Queue κ T := q.setCond d (q.conds d).notifyAll

variable [DecidableEq κ]

def notifyOne (q : Queue κ T) (d : Cond) (next : Option κ) : Option (Queue κ T) :=
  ((q.conds d).notifyOne next).map (q.setCond d)

/-- `que_.emplace`, and `notify_one`. -/
def emplace (q : Queue κ T) (val : T) (next : Option κ) : Option (Queue κ T × Result T) :=
  ({ q with que := q.que ++ [val] }.notifyOne .notEmptyCond next).map fun q' => (q', .done)

/-- `que_.front()`, `que_.pop()` and `notify_one`, or `none` given where there is no item. -/
def pop (q : Queue κ T) (empty : Result T) (next : Option κ) : Option (Queue κ T × Result T) :=
  match q.que with
  | [] => some (q, empty)
  | val :: rest => ({ q with que := rest }.notifyOne .notFullCond next).map fun q' => (q', .value val)

/-- A call, from the end of its wait to its return. -/
def run (q : Queue κ T) (next : Option κ) : Call T → Option (Queue κ T × Result T)
  | .put val => if q.closed then some (q, .queueClosed) else q.emplace val next
  | .tryPut val => if q.cap ≤ q.que.length || q.closed then some (q, .refused) else q.emplace val next
  | .tryPutFor val =>
    -- `to` is that the wait has ended without what it waits for
    if !q.ready .notFullCond || q.closed then some (q, .refused) else q.emplace val next
  | .get => q.pop .queueClosed next
  | .tryGet | .tryGetFor => q.pop .refused next
  | .close => some (({ q with closed := true }.notifyAll .notFullCond).notifyAll .notEmptyCond, .done)
  | .clear => some ({ q with que := [] }.notifyAll .notFullCond, .cleared q.que)
  | .capacity cap =>
    let q' := { q with cap := max cap 1 }
    some (if q'.que.length < q'.cap then q'.notifyAll .notFullCond else q', .done)

/-- A call of a thread that holds the mutex: it waits, or returns. -/
def enter (q : Queue κ T) (k : κ) (call : Call T) (timedOut : Bool) (next : Option κ) :
    Option (Queue κ T × Option (Event κ T)) :=
  match call.cond.filter fun d => !q.ready d && !timedOut with
  | some d =>
    some ({ q.setCond d ((q.conds d).wait k) with calls := update q.calls k (some call) }, none)
  | none => (q.run next call).map fun (q', result) =>
    ({ q' with calls := update q'.calls k none }, some ⟨k, call, result⟩)

/-- What one thread does while it holds the mutex. -/
def step (q : Queue κ T) : Input κ T → Option (Queue κ T × Option (Event κ T))
  | .call k call next => if (q.calls k).isNone then q.enter k call false next else none
  | .resume k next => do
    let call ← q.calls k
    let d ← call.cond
    if k ∈ (q.conds d).woken then (q.setCond d ((q.conds d).goOn k)).enter k call false next else none
  | .timeout k next => do
    let call ← q.calls k
    let d ← call.cond
    if !call.timed then none
    else if k ∈ (q.conds d).woken then (q.setCond d ((q.conds d).goOn k)).enter k call true next
    else if k ∈ (q.conds d).asleep then (q.setCond d ((q.conds d).giveUp k)).enter k call true next
    else none
  | .spurious k => do
    let call ← q.calls k
    let d ← call.cond
    if k ∈ (q.conds d).asleep then some (q.setCond d ((q.conds d).wake k), none) else none

end Queue

/-- The queue as a machine. -/
def machine (κ T : Type) [DecidableEq κ] : Machine (Queue κ T) (Input κ T) (Event κ T) := ⟨Queue.step⟩

/-! ## What goes in, and what comes out -/

variable {κ T : Type}

/-- The item a call has put. -/
def Event.puts (e : Event κ T) : List T :=
  match e.call, e.result with
  | .put val, .done | .tryPut val, .done | .tryPutFor val, .done => [val]
  | _, _ => []

/-- The items a call has taken out. -/
def Event.takes (e : Event κ T) : List T :=
  match e.result with
  | .value val => [val]
  | .cleared items => items
  | _ => []

def Event.closes (e : Event κ T) : Bool :=
  match e.call with
  | .close => true
  | _ => false

/-- All that has been put. -/
def putOf (τ : List (Event κ T)) : List T := τ.flatMap Event.puts

/-- All that has been taken out. -/
def takenOf (τ : List (Event κ T)) : List T := τ.flatMap Event.takes

/-- `close` has returned. -/
def closedIn (τ : List (Event κ T)) : Bool := τ.any Event.closes

/-- **A call that returns in order**: it puts nothing once `close` has returned, it throws `queue_closed`
only then, and where it is `get`, only when the last item is out. -/
def Orderly (τ : List (Event κ T)) (e : Event κ T) : Prop :=
  (e.puts ≠ [] → closedIn τ = false) ∧
    (e.result = .queueClosed → closedIn τ = true ∧ (e.call = .get → putOf τ = takenOf τ))

@[simp] theorem putOf_concat (τ : List (Event κ T)) (o : Option (Event κ T)) :
    putOf (τ ++ o.toList) = putOf τ ++ putOf o.toList := List.flatMap_append

@[simp] theorem takenOf_concat (τ : List (Event κ T)) (o : Option (Event κ T)) :
    takenOf (τ ++ o.toList) = takenOf τ ++ takenOf o.toList := List.flatMap_append

theorem closedIn_concat (τ : List (Event κ T)) (o : Option (Event κ T)) :
    closedIn (τ ++ o.toList) = (closedIn τ || closedIn o.toList) := List.any_append

namespace Queue

/-- The units of what a condition stands for. -/
def available (q : Queue κ T) : Cond → ℕ
  | .notEmptyCond => q.que.length
  | .notFullCond => q.cap - q.que.length

theorem ready_eq_false {q : Queue κ T} {d : Cond} :
    q.ready d = false ↔ q.available d = 0 ∧ q.closed = false := by
  cases d with
  | notEmptyCond => cases hque : q.que <;> simp [ready, available, hque]
  | notFullCond => simp [ready, available, Nat.sub_eq_zero_iff_le]

variable {q t : Queue κ T} {k : κ} {call : Call T} {timedOut : Bool} {next : Option κ}
  {result : Result T} {o : Option (Event κ T)} {τ : List (Event κ T)}

/-! ## All that a call can do -/

section Cases

variable [DecidableEq κ]

/-- **All that a call can do** once it does not wait. -/
inductive RunCases (q : Queue κ T) : Call T → Queue κ T → Result T → Prop
  | emplace {call : Call T} {val : T} {next : Option κ} {c : Condition κ}
      (hcall : call = .put val ∨ call = .tryPut val ∨ call = .tryPutFor val)
      (hopen : q.closed = false) (hnotify : (q.conds .notEmptyCond).notifyOne next = some c) :
      RunCases q call ({ q with que := q.que ++ [val] }.setCond .notEmptyCond c) .done
  | pop {call : Call T} {val : T} {rest : List T} {next : Option κ} {c : Condition κ}
      (hcall : call = .get ∨ call = .tryGet ∨ call = .tryGetFor) (hque : q.que = val :: rest)
      (hnotify : (q.conds .notFullCond).notifyOne next = some c) :
      RunCases q call ({ q with que := rest }.setCond .notFullCond c) (.value val)
  | fails {call : Call T} {result : Result T} (hclose : call ≠ .close)
      (hresult : result = .refused ∧ call ≠ .get ∨
        result = .queueClosed ∧ (q.closed = true ∨ call = .get) ∧ (call = .get → q.que = []))
      (hwhy : ∀ d, call.cond = some d → q.closed = true ∨ q.available d = 0) :
      RunCases q call q result
  | close : RunCases q .close
      (({ q with closed := true }.notifyAll .notFullCond).notifyAll .notEmptyCond) .done
  | clear : RunCases q .clear ({ q with que := [] }.notifyAll .notFullCond) (.cleared q.que)
  | widen {cap : ℕ} (hcap : q.que.length < max cap 1) : RunCases q (.capacity cap)
      ({ q with cap := max cap 1 }.notifyAll .notFullCond) .done
  | narrow {cap : ℕ} (hcap : max cap 1 ≤ q.que.length) : RunCases q (.capacity cap)
      { q with cap := max cap 1 } .done

theorem emplace_cases {val : T} (h : q.emplace val next = some (t, result))
    (hcall : call = .put val ∨ call = .tryPut val ∨ call = .tryPutFor val)
    (hopen : q.closed = false) : RunCases q call t result := by
  obtain ⟨q', hq', he⟩ := Option.map_eq_some_iff.mp h
  obtain ⟨c, hc, rfl⟩ := Option.map_eq_some_iff.mp hq'
  cases he
  exact .emplace hcall hopen hc

theorem pop_cases {empty : Result T} (h : q.pop empty next = some (t, result))
    (hcall : call = .get ∨ call = .tryGet ∨ call = .tryGetFor)
    (hempty : empty = .refused ∧ call ≠ .get ∨ empty = .queueClosed ∧ call = .get) :
    RunCases q call t result := by
  rw [pop] at h
  split at h
  case h_1 hque =>
    cases h
    refine .fails ?_ (hempty.imp_right fun he => ⟨he.1, Or.inr he.2, fun _ => hque⟩) ?_
    · rcases hcall with rfl | rfl | rfl <;> simp
    · rcases hcall with rfl | rfl | rfl <;> simp [Call.cond, available, hque]
  case h_2 val rest hque =>
    obtain ⟨q', hq', he⟩ := Option.map_eq_some_iff.mp h
    obtain ⟨c, hc, rfl⟩ := Option.map_eq_some_iff.mp hq'
    cases he
    exact .pop hcall hque hc

theorem run_cases (h : q.run next call = some (t, result)) : RunCases q call t result := by
  cases call with
  | put val =>
    simp only [run] at h
    split at h
    case isTrue hclosed =>
      cases h
      exact .fails (by simp) (Or.inr ⟨rfl, Or.inl hclosed, nofun⟩) fun _ _ => Or.inl hclosed
    case isFalse hopen => exact emplace_cases h (Or.inl rfl) (Bool.eq_false_iff.mpr hopen)
  | tryPut val =>
    simp only [run] at h
    split at h
    case isTrue =>
      cases h
      exact .fails (by simp) (Or.inl ⟨rfl, nofun⟩) nofun
    case isFalse hopen =>
      simp only [Bool.or_eq_true, not_or, Bool.not_eq_true] at hopen
      exact emplace_cases h (Or.inr (Or.inl rfl)) hopen.2
  | tryPutFor val =>
    simp only [run] at h
    split at h
    case isTrue hno =>
      cases h
      refine .fails (by simp) (Or.inl ⟨rfl, nofun⟩) ?_
      rintro d ⟨⟩
      cases hready : q.ready .notFullCond with
      | false => exact Or.inr (ready_eq_false.mp hready).1
      | true => exact Or.inl (by simpa [hready] using hno)
    case isFalse hopen =>
      simp only [Bool.or_eq_true, not_or, Bool.not_eq_true] at hopen
      exact emplace_cases h (Or.inr (Or.inr rfl)) hopen.2
  | get => exact pop_cases h (Or.inl rfl) (Or.inr ⟨rfl, rfl⟩)
  | tryGet => exact pop_cases h (Or.inr (Or.inl rfl)) (Or.inl ⟨rfl, nofun⟩)
  | tryGetFor => exact pop_cases h (Or.inr (Or.inr rfl)) (Or.inl ⟨rfl, nofun⟩)
  | close =>
    cases h
    exact .close
  | clear =>
    cases h
    exact .clear
  | capacity cap =>
    simp only [run] at h
    split at h
    case isTrue hcap =>
      cases h
      exact .widen hcap
    case isFalse hcap =>
      cases h
      exact .narrow (Nat.le_of_not_lt hcap)

/-- **All that a call can do** that holds the mutex. -/
inductive EnterCases (q : Queue κ T) (k : κ) (call : Call T) (timedOut : Bool) :
    Queue κ T → Option (Event κ T) → Prop
  | waits {d : Cond} (hcond : call.cond = some d) (hready : q.ready d = false) :
      EnterCases q k call timedOut
        { q.setCond d ((q.conds d).wait k) with calls := update q.calls k (some call) } none
  | returns {q' : Queue κ T} {result : Result T}
      (hready : ∀ d, call.cond = some d → q.ready d = true ∨ timedOut = true)
      (hrun : RunCases q call q' result) :
      EnterCases q k call timedOut { q' with calls := update q'.calls k none }
        (some ⟨k, call, result⟩)

theorem enter_cases (h : q.enter k call timedOut next = some (t, o)) :
    EnterCases q k call timedOut t o := by
  rw [enter] at h
  split at h
  case h_1 d hd =>
    cases h
    obtain ⟨hcond, hwait⟩ := Option.filter_eq_some_iff.mp hd
    simp only [Bool.and_eq_true, Bool.not_eq_true'] at hwait
    exact .waits hcond hwait.1
  case h_2 hd =>
    obtain ⟨⟨q', result⟩, hrun, he⟩ := Option.map_eq_some_iff.mp h
    cases he
    refine .returns (fun d hcond => ?_) (run_cases hrun)
    have hno := Option.filter_eq_none_iff.mp hd d hcond
    simp only [Bool.and_eq_true, Bool.not_eq_true', not_and, Bool.not_eq_false] at hno
    cases hready : q.ready d with
    | true => exact Or.inl rfl
    | false => exact Or.inr (hno hready)

/-- How a thread gets the mutex: it calls, or its wait `c` is over, with what it waited for or without. -/
inductive Starts (q : Queue κ T) (k : κ) (call : Call T) : Bool → Queue κ T → Prop
  | call (hnone : q.calls k = none) : Starts q k call false q
  | wait {timedOut : Bool} {d : Cond} {c : Condition κ} (hcall : q.calls k = some call)
      (hcond : call.cond = some d) (htimed : timedOut = true → call.timed = true)
      (hthreads : (q.conds d).threads.Perm (k :: c.threads))
      (hserved : ∀ n, (q.conds d).Served (n + 1) → c.Served n) :
      Starts q k call timedOut (q.setCond d c)

/-- **All that a step can do.** -/
inductive StepCases (q : Queue κ T) (i : Input κ T) : Queue κ T → Option (Event κ T) → Prop
  | enters {k : κ} {call : Call T} {timedOut : Bool} {q₁ t : Queue κ T} {o : Option (Event κ T)}
      (hcall : (∃ next, i = .call k call next) ∨ q.calls k = some call)
      (hstart : Starts q k call timedOut q₁) (henter : EnterCases q₁ k call timedOut t o) :
      StepCases q i t o
  | wakes {k : κ} {d : Cond} (hk : k ∈ (q.conds d).asleep) :
      StepCases q i (q.setCond d ((q.conds d).wake k)) none

/-- A thread calls that is in no call. -/
theorem call_cases (h : q.step (.call k call next) = some (t, o)) :
    q.calls k = none ∧ q.enter k call false next = some (t, o) := by
  simp only [step] at h
  split at h
  case isTrue hnone => exact ⟨Option.isNone_iff_eq_none.mp hnone, h⟩
  case isFalse => cases h

/-- A woken thread goes on with its call. -/
theorem resume_cases (h : q.step (.resume k next) = some (t, o)) :
    ∃ call d, q.calls k = some call ∧ call.cond = some d ∧ k ∈ (q.conds d).woken ∧
      (q.setCond d ((q.conds d).goOn k)).enter k call false next = some (t, o) := by
  simp only [step, Option.bind_eq_bind, Option.bind_eq_some_iff] at h
  obtain ⟨call, hcall, d, hcond, h⟩ := h
  split at h
  case isTrue hk => exact ⟨call, d, hcall, hcond, hk, h⟩
  case isFalse => cases h

theorem step_cases {i : Input κ T} (h : q.step i = some (t, o)) : StepCases q i t o := by
  cases i with
  | call k call next =>
    obtain ⟨hnone, henter⟩ := call_cases h
    exact .enters (Or.inl ⟨next, rfl⟩) (.call hnone) (enter_cases henter)
  | resume k next =>
    obtain ⟨call, d, hcall, hcond, hk, henter⟩ := resume_cases h
    have hstart : Starts q k call false (q.setCond d ((q.conds d).goOn k)) :=
      .wait hcall hcond (fun hno => by cases hno) (Condition.threads_goOn hk) fun n hn => hn.goOn hk
    exact .enters (Or.inr hcall) hstart (enter_cases henter)
  | timeout k next =>
    simp only [step, Option.bind_eq_bind, Option.bind_eq_some_iff] at h
    obtain ⟨call, hcall, d, hcond, h⟩ := h
    split at h
    case isTrue => cases h
    case isFalse htimed =>
      have htimed : call.timed = true := by simpa using htimed
      split at h
      case isTrue hk =>
        exact .enters (Or.inr hcall) (.wait hcall hcond (fun _ => htimed) (Condition.threads_goOn hk)
          fun n hn => hn.goOn hk) (enter_cases h)
      case isFalse =>
        split at h
        case isTrue hk =>
          exact .enters (Or.inr hcall) (.wait hcall hcond (fun _ => htimed)
            (Condition.threads_giveUp hk) fun n hn => (hn.mono n.le_succ).giveUp) (enter_cases h)
        case isFalse => cases h
  | spurious k =>
    simp only [step, Option.bind_eq_bind, Option.bind_eq_some_iff] at h
    obtain ⟨call, -, d, -, h⟩ := h
    split at h
    case isTrue hk =>
      cases h
      exact .wakes hk
    case isFalse => cases h

end Cases

/-! ## What every run keeps -/

/-- **No thread sleeps in vain**, on either condition; of `x` one unit is not counted, the one for the
thread that holds the mutex. -/
def Owed (q : Queue κ T) (x : Option Cond) : Prop :=
  ∀ d n, (q.closed = true ∨ n + (if x = some d then 1 else 0) ≤ q.available d) →
    (q.conds d).Served n

/-- Who is in a wait, is in it once, and for its call; `k` holds the mutex. -/
structure Waiting (q : Queue κ T) (k : Option κ) : Prop where
  nodup : ∀ d, (q.conds d).threads.Nodup
  waits : ∀ d j, j ∈ (q.conds d).threads ↔
    some j ≠ k ∧ ∃ call, q.calls j = some call ∧ call.cond = some d

/-- The rest of the invariant, which no wait changes. -/
structure Kept (τ : List (Event κ T)) (q : Queue κ T) : Prop where
  cap : 0 < q.cap
  closed : q.closed = closedIn τ
  items : putOf τ = takenOf τ ++ q.que

/-- **The invariant of every run.** -/
structure Holds (τ : List (Event κ T)) (q : Queue κ T) : Prop extends Kept τ q where
  owed : q.Owed none
  waiting : q.Waiting none

theorem Holds.owedTo {x : Option Cond} (h : Holds τ q) : q.Owed x :=
  fun d n hn => h.owed d n (hn.imp_right fun hle => by
    rw [if_neg nofun]
    omega)

/-- A wait is entered where there is nothing left. -/
theorem Owed.wait {x : Option Cond} {d : Cond} {calls : κ → Option (Call T)} (h : q.Owed x)
    (hx : ∀ d', x = some d' → d' = d) (hready : q.ready d = false) :
    Owed { q.setCond d ((q.conds d).wait k) with calls := calls } none := by
  obtain ⟨hzero, hopen⟩ := ready_eq_false.mp hready
  rintro d' n hn
  change q.closed = true ∨ n + 0 ≤ q.available d' at hn
  change (update q.conds d _ d').Served n
  rw [hopen] at hn
  by_cases hd : d' = d
  · subst hd
    obtain rfl : n = 0 := by
      rcases hn with hclosed | hle
      · cases hclosed
      · omega
    exact Condition.served_zero _
  · rw [update_of_ne hd]
    refine h d' n (hn.imp (fun hclosed => by cases hclosed) fun hle => ?_)
    rw [if_neg fun he => hd (hx d' he)]
    exact hle

section Steps

variable [DecidableEq κ]

/-- **A call that returns** takes the unit that has not been counted, or there is none, or leaves the
queue closed. -/
theorem Owed.run (h : q.Owed call.cond) (hrun : RunCases q call t result) : t.Owed none := by
  rintro d n hn
  change t.closed = true ∨ n + 0 ≤ t.available d at hn
  cases hrun with
  | @emplace _ val next c hcall hopen hnotify =>
    have hcond : call.cond ≠ some .notEmptyCond := by
      rcases hcall with rfl | rfl | rfl <;> simp [Call.cond]
    have hn : n ≤ _ := hn.resolve_left (by simp [setCond, hopen])
    cases d with
    | notEmptyCond =>
      -- one unit more, and one notified
      have hserved := h .notEmptyCond (n - 1) (Or.inr (by
        rw [if_neg hcond]
        simp only [available, setCond, List.length_append, List.length_singleton] at hn ⊢
        omega))
      exact (hserved.notifyOne hnotify).mono (by omega)
    | notFullCond =>
      rcases Nat.eq_zero_or_pos n with rfl | hpos
      · exact Condition.served_zero _
      · refine h .notFullCond n (Or.inr ?_)
        simp only [available, setCond, List.length_append, List.length_singleton] at hn ⊢
        split <;> omega
  | @pop _ val rest next c hcall hque hnotify =>
    have hcond : call.cond ≠ some .notFullCond := by
      rcases hcall with rfl | rfl | rfl <;> simp [Call.cond]
    cases d with
    | notEmptyCond =>
      refine h .notEmptyCond n (hn.imp_right fun hn => ?_)
      simp only [available, setCond, hque, List.length_cons] at hn ⊢
      split <;> omega
    | notFullCond =>
      have hserved := h .notFullCond (n - 1) (hn.imp_right fun hn => by
        rw [if_neg hcond]
        simp only [available, setCond, hque, List.length_cons] at hn ⊢
        omega)
      exact (hserved.notifyOne hnotify).mono (by omega)
  | fails _ _ hwhy =>
    by_cases hcond : call.cond = some d
    · rcases hwhy d hcond with hclosed | hzero
      · exact h d n (Or.inl hclosed)
      · rcases hn with hclosed | hle
        · exact h d n (Or.inl hclosed)
        · obtain rfl : n = 0 := by omega
          exact Condition.served_zero _
    · refine h d n (hn.imp_right fun hn => ?_)
      rw [if_neg hcond]
      exact hn
  | close => cases d <;> exact Condition.served_notifyAll
  | clear =>
    cases d with
    | notEmptyCond =>
      refine h .notEmptyCond n (hn.imp_right fun hn => ?_)
      simp only [available, notifyAll, setCond, List.length_nil] at hn
      simp only [Call.cond, reduceCtorEq, if_false]
      omega
    | notFullCond => exact Condition.served_notifyAll
  | widen =>
    cases d with
    | notEmptyCond => exact h .notEmptyCond n hn
    | notFullCond => exact Condition.served_notifyAll
  | narrow hcap =>
    cases d with
    | notEmptyCond => exact h .notEmptyCond n hn
    | notFullCond =>
      refine h .notFullCond n (hn.imp_right fun hn => ?_)
      simp only [available] at hn
      simp only [Call.cond, reduceCtorEq, if_false]
      omega

/-- No call changes who waits. -/
theorem RunCases.threads (hrun : RunCases q call t result) :
    t.calls = q.calls ∧ ∀ d, (t.conds d).threads.Perm (q.conds d).threads := by
  cases hrun with
  | emplace _ _ hnotify | pop _ _ hnotify =>
    refine ⟨rfl, fun d => ?_⟩
    cases d
    all_goals first | exact Condition.threads_notifyOne hnotify | exact List.Perm.refl _
  | fails | narrow => exact ⟨rfl, fun _ => List.Perm.refl _⟩
  | close | clear | widen => exact ⟨rfl, fun d => by cases d <;> exact List.Perm.refl _⟩

theorem Waiting.run (h : q.Waiting (some k)) (hrun : RunCases q call t result) :
    Waiting { t with calls := update t.calls k none } none := by
  obtain ⟨hcalls, hthreads⟩ := hrun.threads
  refine ⟨fun d => (hthreads d).nodup_iff.mpr (h.nodup d), fun d j => ?_⟩
  change j ∈ (t.conds d).threads ↔ some j ≠ none ∧ ∃ call, update t.calls k none j = some call ∧ _
  rw [(hthreads d).mem_iff, h.waits d j, hcalls]
  by_cases hj : j = k
  · subst hj
    simp
  · simp [hj]

/-- What a call puts and takes. -/
theorem Kept.run (h : Kept τ q) (hrun : RunCases q call t result) {calls : κ → Option (Call T)} :
    Kept (τ ++ (some ⟨k, call, result⟩ : Option (Event κ T)).toList) { t with calls := calls } := by
  have hitems := h.items
  have hclosed := h.closed
  have hcap := h.cap
  refine ⟨?_, ?_, ?_⟩
  · cases hrun with
    | widen | narrow => exact Nat.lt_of_lt_of_le Nat.zero_lt_one (Nat.le_max_right ..)
    | _ => exact hcap
  · rw [closedIn_concat, ← hclosed]
    change t.closed = _
    cases hrun with
    | emplace hcall | pop hcall =>
      rcases hcall with rfl | rfl | rfl <;> simp [setCond, closedIn, Event.closes]
    | fails hclose =>
      cases call with
      | close => exact absurd rfl hclose
      | _ => simp [closedIn, Event.closes]
    | _ => simp [notifyAll, setCond, closedIn, Event.closes]
  · rw [putOf_concat, takenOf_concat, hitems]
    change _ = _ ++ t.que
    cases hrun with
    | emplace hcall =>
      rcases hcall with rfl | rfl | rfl <;> simp [setCond, putOf, takenOf, Event.puts, Event.takes]
    | pop hcall hque =>
      rcases hcall with rfl | rfl | rfl <;>
        simp [setCond, hque, putOf, takenOf, Event.puts, Event.takes]
    | fails _ hresult =>
      rcases hresult with ⟨rfl, -⟩ | ⟨rfl, -⟩ <;> simp [putOf, takenOf, Event.puts, Event.takes]
    | _ => simp [notifyAll, setCond, putOf, takenOf, Event.puts, Event.takes]

/-- A call that waits. -/
theorem Waiting.wait {d : Cond} (h : q.Waiting (some k)) (hcond : call.cond = some d) :
    Waiting { q.setCond d ((q.conds d).wait k) with calls := update q.calls k (some call) } none := by
  have hthreads : ∀ d', (update q.conds d ((q.conds d).wait k) d').threads =
      if d' = d then k :: (q.conds d').threads else (q.conds d').threads := by
    intro d'
    by_cases hd : d' = d
    · subst hd
      rw [update_self, Condition.threads_wait, if_pos rfl]
    · rw [update_of_ne hd, if_neg hd]
  have hk : ∀ d', k ∉ (q.conds d').threads := fun d' hmem => ((h.waits d' k).mp hmem).1 rfl
  refine ⟨fun d' => ?_, fun d' j => ?_⟩
  · change (update q.conds d _ d').threads.Nodup
    rw [hthreads]
    split
    · exact List.nodup_cons.mpr ⟨hk d', h.nodup d'⟩
    · exact h.nodup d'
  · change j ∈ (update q.conds d _ d').threads ↔
      some j ≠ none ∧ ∃ call', update q.calls k (some call) j = some call' ∧ _
    rw [hthreads]
    by_cases hj : j = k
    · subst hj
      split
      case isTrue hd => simp [hd, hcond]
      case isFalse hd => simp [hk d', hcond, Ne.symm hd]
    · have hwaits := h.waits d' j
      split <;> simp [hj, hwaits]

/-- A thread that has got the mutex is in no wait. -/
theorem Holds.start {timedOut : Bool} {q₁ : Queue κ T} (h : Holds τ q)
    (hstart : Starts q k call timedOut q₁) :
    Kept τ q₁ ∧ q₁.Owed call.cond ∧ q₁.Waiting (some k) := by
  cases hstart with
  | call hnone =>
    refine ⟨h.toKept, h.owedTo, h.waiting.nodup, fun d j => ?_⟩
    rw [h.waiting.waits d j]
    by_cases hj : j = k
    · subst hj
      simp [hnone]
    · simp [hj]
  | @wait _ d c hcall hcond htimed hthreads hserved =>
    have hnodup := hthreads.nodup_iff.mp (h.waiting.nodup d)
    refine ⟨⟨h.cap, h.closed, h.items⟩, ?_, ?_, ?_⟩
    · intro d' n hn
      change q.closed = true ∨ n + _ ≤ q.available d' at hn
      change (update q.conds d c d').Served n
      by_cases hd : d' = d
      · subst hd
        rw [if_pos hcond] at hn
        rw [update_self]
        exact hserved n (h.owed d' (n + 1) (hn.imp_right fun hle => by rwa [if_neg nofun]))
      · rw [if_neg (by rw [hcond]; simpa using Ne.symm hd)] at hn
        rw [update_of_ne hd]
        exact h.owed d' n (hn.imp_right fun hle => by rwa [if_neg nofun])
    · intro d'
      change (update q.conds d c d').threads.Nodup
      by_cases hd : d' = d
      · subst hd
        rw [update_self]
        exact (List.nodup_cons.mp hnodup).2
      · rw [update_of_ne hd]
        exact h.waiting.nodup d'
    · intro d' j
      change j ∈ (update q.conds d c d').threads ↔ _ ≠ _ ∧ ∃ call', q.calls j = some call' ∧ _
      have hwaits := h.waiting.waits d' j
      by_cases hd : d' = d
      · subst hd
        rw [hthreads.mem_iff, List.mem_cons] at hwaits
        rw [update_self]
        by_cases hj : j = k
        · subst hj
          simp [(List.nodup_cons.mp hnodup).1]
        · simpa [hj] using hwaits
      · rw [update_of_ne hd]
        by_cases hj : j = k
        · subst hj
          simp [hwaits, hcall, hcond, Ne.symm hd]
        · simpa [hj] using hwaits

omit [DecidableEq κ] in
theorem Kept.quiet (h : Kept τ q) : Kept (τ ++ (none : Option (Event κ T)).toList) q := by
  rwa [Option.toList_none, List.append_nil]

/-- **What one step keeps.** -/
theorem Holds.step {i : Input κ T} (h : Holds τ q) (hstep : q.step i = some (t, o)) :
    Holds (τ ++ o.toList) t := by
  cases step_cases hstep with
  | enters _ hstart henter =>
    obtain ⟨hkept, howed, hwaiting⟩ := h.start hstart
    cases henter with
    | waits hcond hready =>
      have hone : ∀ d', _ = some d' → d' = _ := fun d' hd => Option.some.inj (hd.symm.trans hcond)
      have hquiet := hkept.quiet
      exact ⟨⟨hquiet.cap, hquiet.closed, hquiet.items⟩, howed.wait hone hready, hwaiting.wait hcond⟩
    | returns _ hrun =>
      exact ⟨hkept.run hrun, fun d n hn => howed.run hrun d n hn, hwaiting.run hrun⟩
  | @wakes k d hk =>
    have hquiet := h.toKept.quiet
    refine ⟨⟨hquiet.cap, hquiet.closed, hquiet.items⟩, fun d' n hn => ?_, fun d' => ?_,
      fun d' j => ?_⟩
    · have hserved := h.owed d' n hn
      change (update q.conds d _ d').Served n
      by_cases hd : d' = d
      · subst hd
        rw [update_self]
        exact (hserved.wake hk).mono n.le_succ
      · rwa [update_of_ne hd]
    · change (update q.conds d _ d').threads.Nodup
      by_cases hd : d' = d
      · subst hd
        rw [update_self]
        exact (Condition.threads_wake hk).nodup_iff.mpr (h.waiting.nodup d')
      · rw [update_of_ne hd]
        exact h.waiting.nodup d'
    · change j ∈ (update q.conds d _ d').threads ↔ _
      refine Iff.trans ?_ (h.waiting.waits d' j)
      by_cases hd : d' = d
      · subst hd
        rw [update_self]
        exact (Condition.threads_wake hk).mem_iff
      · rw [update_of_ne hd]

/-! ## What a run comes to -/

/-- A call that need not wait can return. -/
theorem exists_returns (q : Queue κ T) (k : κ) (hready : ∀ d, call.cond = some d → q.ready d = true) :
    ∃ next t e, q.enter k call false next = some (t, some e) := by
  have hrun : ∃ next t result, q.run next call = some (t, result) := by
    have hnotify : ∀ (q : Queue κ T) d, ∃ next t, q.notifyOne d next = some t := by
      intro q d
      obtain ⟨next, c, hc⟩ := (q.conds d).exists_notifyOne
      exact ⟨next, q.setCond d c, by rw [notifyOne, hc, Option.map_some]⟩
    have hemplace : ∀ val, ∃ next t result, q.emplace val next = some (t, result) := by
      intro val
      obtain ⟨next, t, ht⟩ := hnotify { q with que := q.que ++ [val] } .notEmptyCond
      exact ⟨next, t, .done, by rw [emplace, ht, Option.map_some]⟩
    have hpop : ∀ empty, ∃ next t result, q.pop empty next = some (t, result) := by
      intro empty
      cases hque : q.que with
      | nil => exact ⟨none, q, empty, by rw [pop, hque]⟩
      | cons val rest =>
        obtain ⟨next, t, ht⟩ := hnotify { q with que := rest } .notFullCond
        exact ⟨next, t, .value val, by simp [pop, hque, ht]⟩
    cases call with
    | put val | tryPut val | tryPutFor val =>
      simp only [run]
      split
      · exact ⟨none, _, _, rfl⟩
      · exact hemplace val
    | get | tryGet | tryGetFor => exact hpop _
    | close | clear | capacity => exact ⟨none, _, _, rfl⟩
  obtain ⟨next, t, result, hrun⟩ := hrun
  have hno : call.cond.filter (fun d => !q.ready d && !false) = none :=
    Option.filter_eq_none_iff.mpr fun d hd => by simp [hready d hd]
  refine ⟨next, { t with calls := update t.calls k none }, ⟨k, call, result⟩, ?_⟩
  rw [enter, hno]
  simp only [hrun, Option.map_some]

/-- **A thread that could go on is not the last to know**: some thread has been woken, and returns. -/
theorem Holds.goesOn {d : Cond} (h : Holds τ q) (hcall : q.calls k = some call)
    (hcond : call.cond = some d) (hready : q.ready d = true) :
    ∃ j next t e, q.step (.resume j next) = some (t, some e) := by
  have hserved : (q.conds d).Served 1 := by
    refine h.owed d 1 ?_
    rw [if_neg nofun]
    cases hclosed : q.closed with
    | true => exact Or.inl rfl
    | false =>
      refine Or.inr (Nat.pos_of_ne_zero fun hzero => ?_)
      rw [ready_eq_false.mpr ⟨hzero, hclosed⟩] at hready
      cases hready
  have hk : k ∈ (q.conds d).threads := (h.waiting.waits d k).mpr ⟨nofun, call, hcall, hcond⟩
  obtain ⟨j, hj⟩ := hserved.exists_woken Nat.one_ne_zero hk
  obtain ⟨-, call', hcall', hcond'⟩ := (h.waiting.waits d j).mp (List.mem_append_right _ hj)
  have hready' : ∀ d', call'.cond = some d' → (q.setCond d ((q.conds d).goOn j)).ready d' = true := by
    intro d' hd'
    obtain rfl := Option.some.inj (hcond'.symm.trans hd')
    cases d <;> exact hready
  obtain ⟨next, t, e, henter⟩ := exists_returns (q.setCond d ((q.conds d).goOn j)) j hready'
  refine ⟨j, next, t, e, ?_⟩
  simp only [Queue.step, hcall', hcond', Option.bind_eq_bind, Option.bind_some, if_pos hj]
  exact henter

/-- **Every call returns in order.** -/
theorem Holds.orderly {i : Input κ T} {e : Event κ T} (h : Holds τ q)
    (hstep : q.step i = some (t, some e)) : Orderly τ e := by
  cases step_cases hstep with
  | enters _ hstart henter =>
    obtain ⟨hkept, -, -⟩ := h.start hstart
    cases henter with
    | returns hready hcases =>
      refine ⟨fun hputs => ?_, fun hthrown => ?_⟩
      · cases hcases with
        | emplace _ hopen => rw [← hkept.closed, hopen]
        | fails _ hresult =>
          rcases hresult with ⟨rfl, -⟩ | ⟨rfl, -⟩ <;> simp [Event.puts] at hputs
        | pop hcall =>
          rcases hcall with rfl | rfl | rfl <;> exact absurd rfl hputs
        | _ => exact absurd rfl hputs
      · cases hcases with
        | fails _ hresult =>
          obtain ⟨-, hwhy, hempty⟩ := hresult.resolve_left fun he => by cases he.1.symm.trans hthrown
          refine ⟨?_, fun hget => ?_⟩
          · rw [← hkept.closed]
            refine hwhy.elim id ?_
            rintro rfl
            -- `get` has no time to run out of
            have hend := (hready _ rfl).resolve_right fun htimed => by
              cases hstart with
              | call => cases htimed
              | wait _ _ htimed' => cases htimed' htimed
            simpa [ready, hempty rfl] using hend
          · rw [hkept.items, hempty hget, List.append_nil]
        | emplace | pop | close | clear | widen | narrow => cases hthrown

omit [DecidableEq κ] in
theorem Starts.calls {timedOut : Bool} {q₁ : Queue κ T} (h : Starts q k call timedOut q₁) :
    q₁.calls = q.calls := by
  cases h <;> rfl

/-- **Who calls what** stays so: a call that waits or returns has been made. -/
theorem step_calls {i : Input κ T} {P : κ → Call T → Prop} (hstep : q.step i = some (t, o))
    (hq : ∀ k call, q.calls k = some call → P k call)
    (hi : ∀ k call next, i = .call k call next → P k call) :
    (∀ k call, t.calls k = some call → P k call) ∧ ∀ e, o = some e → P e.thread e.call := by
  cases step_cases hstep with
  | @enters k call _ q₁ _ _ hcall hstart henter =>
    have hP : P k call := by
      rcases hcall with ⟨next, rfl⟩ | hcall
      · exact hi k call next rfl
      · exact hq k call hcall
    have hupdate : ∀ o' : Option (Call T), (∀ call', o' = some call' → call' = call) →
        ∀ j call', update q.calls k o' j = some call' → P j call' := by
      intro o' ho' j call' hj
      by_cases hjk : j = k
      · subst hjk
        rw [update_self] at hj
        rw [ho' _ hj]
        exact hP
      · rw [update_of_ne hjk] at hj
        exact hq j call' hj
    cases henter with
    | waits =>
      refine ⟨fun j call' hj => hupdate (some call) (fun _ h => (Option.some.inj h).symm) j call' ?_,
        nofun⟩
      rwa [← hstart.calls]
    | returns _ hrun =>
      refine ⟨fun j call' hj => hupdate none nofun j call' ?_, ?_⟩
      · rwa [← hstart.calls, ← hrun.threads.1]
      · rintro e ⟨⟩
        exact hP
  | wakes => exact ⟨hq, nofun⟩

/-- Who has returned is in no call. -/
theorem calls_of_returned {i : Input κ T} {e : Event κ T} (hstep : q.step i = some (t, some e)) :
    t.calls e.thread = none := by
  cases step_cases hstep with
  | enters _ _ henter =>
    cases henter with
    | returns => exact update_self ..

/-- `get` returns an item or throws. -/
theorem result_of_get {i : Input κ T} {e : Event κ T} (hstep : q.step i = some (t, some e))
    (hget : e.call = .get) : (∃ val, e.result = .value val) ∨ e.result = .queueClosed := by
  cases step_cases hstep with
  | enters _ _ henter =>
    cases henter with
    | returns _ hrun =>
      obtain rfl := hget
      cases hrun with
      | pop => exact Or.inl ⟨_, rfl⟩
      | fails _ hresult =>
        rcases hresult with ⟨-, hno⟩ | ⟨rfl, -⟩
        · exact absurd rfl hno
        · exact Or.inr rfl
      | emplace hcall => rcases hcall with h | h | h <;> cases h

/-- `put` takes nothing out. -/
theorem takes_of_put {i : Input κ T} {e : Event κ T} {val : T} (hstep : q.step i = some (t, some e))
    (hput : e.call = .put val) : e.takes = [] := by
  cases step_cases hstep with
  | enters _ _ henter =>
    cases henter with
    | returns _ hrun =>
      obtain rfl := hput
      cases hrun with
      | emplace => rfl
      | fails _ hresult => rcases hresult with ⟨rfl, -⟩ | ⟨rfl, -⟩ <;> rfl
      | pop hcall => rcases hcall with h | h | h <;> cases h

/-- A thread calls and returns for itself. -/
theorem EnterCases.own {timedOut : Bool} (h : EnterCases q k call timedOut t o) :
    (∀ e, o = some e → e.thread = k) ∧ ∀ j, j ≠ k → t.calls j = q.calls j := by
  cases h with
  | waits => exact ⟨nofun, fun j hj => update_of_ne hj ..⟩
  | returns _ hrun =>
    refine ⟨?_, fun j hj => (update_of_ne hj ..).trans (congrFun hrun.threads.1 j)⟩
    rintro e ⟨⟩
    rfl

/-! ## What is left to do -/

omit [DecidableEq κ] in
/-- **What `get` and `put` can still do without another call**: an item is taken and wakes a thread; a
thread that waits to put puts and wakes a thread. -/
def work (q : Queue κ T) : ℕ :=
  2 * q.que.length + 3 * (q.conds .notFullCond).threads.length +
    (q.conds .notFullCond).woken.length + (q.conds .notEmptyCond).woken.length

theorem work_goOn_notEmpty (hk : k ∈ (q.conds .notEmptyCond).woken) :
    (q.setCond .notEmptyCond ((q.conds .notEmptyCond).goOn k)).work + 1 = q.work := by
  have hwoken := Condition.woken_goOn hk
  simp only [work, setCond, update_apply, reduceCtorEq, if_true, if_false]
  omega

theorem work_goOn_notFull (hk : k ∈ (q.conds .notFullCond).woken) :
    (q.setCond .notFullCond ((q.conds .notFullCond).goOn k)).work + 4 = q.work := by
  have hwoken := Condition.woken_goOn hk
  have hthreads := (Condition.threads_goOn hk).length_eq
  simp only [work, setCond, update_apply, reduceCtorEq, if_true, if_false]
  simp only [List.length_cons] at hthreads
  omega

/-- **A `get`** of an open queue waits, or leaves less to do. -/
theorem work_get (hopen : q.closed = false) (h : q.enter k .get false next = some (t, o)) :
    o = none ∧ t.work = q.work ∧ t.calls k = some .get ∨
      o.isSome ∧ t.work + 1 ≤ q.work ∧ t.calls k = none := by
  cases enter_cases h with
  | waits hcond =>
    cases hcond
    refine Or.inl ⟨rfl, ?_, update_self ..⟩
    simp only [work, setCond, update_apply, reduceCtorEq, if_true, if_false, Condition.woken_wait]
  | returns hready hrun =>
    refine Or.inr ⟨rfl, ?_, update_self ..⟩
    cases hrun with
    | @pop _ val rest next c hcall hque hnotify =>
      have hwoken := Condition.woken_notifyOne hnotify
      have hthreads := (Condition.threads_notifyOne hnotify).length_eq
      simp only [work, setCond, update_apply, reduceCtorEq, if_true, if_false, hque, List.length_cons]
      omega
    | fails _ hresult =>
      have hempty := (hresult.resolve_left fun hno => hno.2 rfl).2.2 rfl
      have hready := (hready _ rfl).resolve_right Bool.false_ne_true
      simp [ready, hempty, hopen] at hready
    | emplace hcall => rcases hcall with h | h | h <;> cases h

/-- **A `put`** adds at most what it was waiting to do. -/
theorem work_put {val : T} (h : q.enter k (.put val) false next = some (t, o)) :
    t.work ≤ q.work + 3 := by
  cases enter_cases h with
  | waits hcond =>
    cases hcond
    simp only [work, setCond, update_apply, reduceCtorEq, if_true, if_false, Condition.threads_wait,
      Condition.woken_wait, List.length_cons]
    omega
  | returns hready hrun =>
    cases hrun with
    | @emplace _ val next c hcall hopen hnotify =>
      have hwoken := Condition.woken_notifyOne hnotify
      simp only [work, setCond, update_apply, reduceCtorEq, if_true, if_false, List.length_append,
        List.length_singleton]
      omega
    | fails => exact Nat.le_add_right _ _
    | pop hcall => rcases hcall with h | h | h <;> cases h

end Steps

end Queue

section Run

variable [DecidableEq κ] {q : Queue κ T} {τ : List (Event κ T)}

omit [DecidableEq κ] in
theorem holds_start {cap : ℕ} (hcap : 0 < cap) : Queue.Holds [] ({ cap := cap } : Queue κ T) where
  cap := hcap
  closed := rfl
  items := rfl
  owed _ _ _ := Condition.served_of_asleep rfl
  waiting := ⟨fun _ => List.nodup_nil, fun _ _ => by simp [Condition.threads]⟩

theorem holds_run {cap : ℕ} (hcap : 0 < cap)
    (hrun : (machine κ T).Run Guard.free { cap := cap } τ q) : q.Holds τ :=
  hrun.invariant (I := fun τ q => Queue.Holds τ q) (holds_start hcap)
    fun _ _ _ _ _ hI _ hstep => hI.step hstep

/-- **The queue serves its threads.**  In every run, of any threads and any calls: the items come out in
the order they went in, each one once; every call returns in order; and where the wait of any thread
could be over, some thread has been woken that returns as soon as it has the mutex. -/
theorem queue_serves (cap : ℕ) (hrun : (machine κ T).Run Guard.free { cap := max cap 1 } τ q) :
    putOf τ = takenOf τ ++ q.que ∧ Always Orderly τ ∧
      ∀ k call d, q.calls k = some call → call.cond = some d → q.ready d = true →
        ∃ j next t e, q.step (.resume j next) = some (t, some e) := by
  have hcap : 0 < max cap 1 := Nat.lt_of_lt_of_le Nat.zero_lt_one (Nat.le_max_right ..)
  have hholds := holds_run hcap hrun
  refine ⟨hholds.items, ?_, fun k call d => hholds.goesOn⟩
  exact hrun.always (I := fun τ q => Queue.Holds τ q) (holds_start hcap)
    (fun _ _ _ _ _ hI _ hstep => hI.step hstep) fun _ _ _ _ _ hI _ hstep => hI.orderly hstep

end Run

/-- A queue for one item: one thread waits for an item, another for room. -/
def oneItem : List (Input ℕ ℕ) :=
  [.call 0 .get none, .call 1 (.put 7) (some 0), .call 2 (.put 8) none, .resume 0 (some 2),
    .resume 2 none]

/-- The second item is in the queue. -/
theorem queue_serves_oneItem : ∃ q, (machine ℕ ℕ).Run Guard.free { cap := max 1 1 }
    [⟨1, .put 7, .done⟩, ⟨0, .get, .value 7⟩, ⟨2, .put 8, .done⟩] q ∧ q.que = [8] := by
  obtain ⟨q, hrun⟩ := (machine ℕ ℕ).exists_run_of_exec Guard.free { cap := max 1 1 } oneItem
    [⟨1, .put 7, .done⟩, ⟨0, .get, .value 7⟩, ⟨2, .put 8, .done⟩] (by decide +kernel)
  obtain ⟨hitems, -⟩ := queue_serves 1 hrun
  exact ⟨q, hrun, (List.cons.inj hitems).2.symm⟩

end ManagementSensors.ThreadQueue
