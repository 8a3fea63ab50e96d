import ManagementSensors.Machinery.Run

/-!
# Db/Listener — the listening half of a DatabaseManager, over its life cycle

    connect ▸ register_listen_async … ▸ run_listener_loop ▸
      (disconnect ▸ connect ▸ run_listener_loop) …

The handlers belong to a connection object, and `connect` makes a new one; `register_listen_async`
swallows what goes wrong; `run_listener_loop` starts no second thread.  So a channel that has been
registered is heard where the first connection is still there and its last registration took hold, and
nowhere else (`serves_iff`).

A callback is a value of `β`.  Between the calls the listener's thread takes steps of its own: a
notification wakes it, and it waits again once the callback has returned.
-/

open Machinery Function

namespace ManagementSensors

/-- A `pqxx::connection` that listens: whether it is open, and the channels it has a handler for. -/
structure Connection (α : Type) where
  isOpen : Bool := true
  handlers : List α := []

/-- The thread of `run_listener_loop`: in `wait_notification`, in a callback, or past the loop. -/
inductive ListenerThread
  | waiting
  | inCallback
  | ended
  deriving DecidableEq, Repr

/-- The members of a DatabaseManager that listening is about. -/
structure Listener (α β : Type) where
  connectionListener : Option (Connection α) := none
  callbacks : α → Option β := fun _ => none
  listenerThread : Option ListenerThread := none

/-- How a registration on an open connection ends: it succeeds, or an exception is swallowed, after
`callbacks_[channel]` has been set or before, and the connection is lost or not. -/
inductive Registration
  | succeeds
  | fails (stored lost : Bool)
  deriving DecidableEq, Repr

/-- Whether `callbacks_[channel]` has been set. -/
def Registration.stored : Registration → Bool
  | .succeeds => true
  | .fails stored _ => stored

/-- Whether the connection is lost. -/
def Registration.lost : Registration → Bool
  | .succeeds => false
  | .fails _ lost => lost

namespace Listener

variable {α β : Type} [DecidableEq α]

/-- A call that returns normally. -/
inductive Call (α β : Type)
  | connect
  | registerListenAsync (channel : α) (callback : β) (ends : Registration)
  | runListenerLoop
  | disconnect
  deriving DecidableEq, Repr

/-- A call, or a step of the listener's thread. -/
inductive Input (α β : Type)
  | call (c : Call α β)
  | notified (channel : α)
  | handled
  deriving DecidableEq, Repr

/-! ## The calls -/

/-- Whether the listener's connection is there and open. -/
def isOpen (l : Listener α β) : Bool := l.connectionListener.any Connection.isOpen

/-- `connect`: a new connection takes the place of the old one. -/
def connect (l : Listener α β) : Listener α β := { l with connectionListener := some {} }

/-- `register_listen_async`: no exception leaves it. -/
def registerListenAsync (l : Listener α β) (channel : α) (callback : β) (ends : Registration) :
    Listener α β :=
  match l.connectionListener with
  | some conn =>
    if conn.isOpen then
      { l with
        callbacks := if ends.stored then update l.callbacks channel (some callback) else l.callbacks
        connectionListener := some
          { isOpen := !ends.lost
            handlers := if ends = .succeeds then channel :: conn.handlers else conn.handlers } }
    else l
  | none => l

/-- `wait_notification` on the connection there is now; where it is not open, an exception ends the
loop. -/
def waitNotification (l : Listener α β) : ListenerThread := if l.isOpen then .waiting else .ended

/-- `run_listener_loop`: nothing, where there is a thread object. -/
def runListenerLoop (l : Listener α β) : Listener α β :=
  match l.listenerThread with
  | some _ => l
  | none => { l with listenerThread := some l.waitNotification }

/-- `disconnect`: it wakes a thread that waits, whose loop ends; the thread object stays. -/
def disconnect (l : Listener α β) : Listener α β where
  connectionListener := l.connectionListener.map ({ · with isOpen := false })
  callbacks := l.callbacks
  listenerThread := l.listenerThread.map fun th => if th = .waiting then .ended else th

/-- A call. -/
def run (l : Listener α β) : Call α β → Listener α β
  | .connect => l.connect
  | .registerListenAsync channel callback ends => l.registerListenAsync channel callback ends
  | .runListenerLoop => l.runListenerLoop
  | .disconnect => l.disconnect

/-- What an observer sees: the calls, and the callbacks that are reached. -/
inductive Event (α β : Type)
  | called (c : Call α β)
  | reached (channel : α) (callback : Option β)
  deriving DecidableEq, Repr

/-- One step: a call, a notification on a channel that has a handler, or the end of its callback. -/
def step (l : Listener α β) : Input α β → Option (Listener α β × Option (Event α β))
  | .call c => some (l.run c, some (.called c))
  | .notified channel =>
    match l.connectionListener, l.listenerThread with
    | some conn, some .waiting =>
      if conn.isOpen ∧ channel ∈ conn.handlers then
        some ({ l with listenerThread := some .inCallback },
          some (.reached channel (l.callbacks channel)))
      else none
    | _, _ => none
  | .handled =>
    match l.listenerThread with
    | some .inCallback => some ({ l with listenerThread := some l.waitNotification }, none)
    | _ => none

/-- The listener with the threads that use it. -/
def machine (α β : Type) [DecidableEq α] :
    Machine (Listener α β) (Input α β) (Event α β) := ⟨step⟩

/-! ## The documented order -/

/-- How far a life cycle has come. -/
inductive Phase
  | fresh
  | configuring
  | running
  | closed
  | reopened
  deriving DecidableEq, Repr

/-- The next phase, where a call is in its documented place. -/
def Phase.next : Phase → Call α β → Option Phase
  | .fresh, .connect => some .configuring
  | .configuring, .registerListenAsync _ _ _ => some .configuring
  | .configuring, .runListenerLoop => some .running
  | .running, .disconnect => some .closed
  | .closed, .connect => some .reopened
  | .reopened, .runListenerLoop => some .running
  | _, _ => none

def Event.call? : Event α β → Option (Call α β)
  | .called c => some c
  | .reached _ _ => none

/-- The calls of a trace. -/
def calls (τ : List (Event α β)) : List (Call α β) := τ.filterMap Event.call?

/-- The phase after some calls, if all are in order. -/
def phase (cs : List (Call α β)) : Option Phase := cs.foldlM Phase.next .fresh

/-- **Every call is in its documented place.** -/
def InOrder : Guard (Listener α β) (Input α β) (Event α β) := fun τ _ i =>
  ∀ c, i = .call c → (phase (calls τ ++ [c])).isSome

/-! ## What is promised, and when it holds -/

/-- The callback passed last for a channel. -/
def lastPassed (cs : List (Call α β)) (channel : α) : Option β :=
  cs.foldl (fun last c => match c with
    | .registerListenAsync ch cb _ => if ch = channel then some cb else last
    | _ => last) none

/-- The callback stored last for a channel. -/
def lastStored (cs : List (Call α β)) (channel : α) : Option β :=
  cs.foldl (fun last c => match c with
    | .registerListenAsync ch cb ends => if ch = channel ∧ ends.stored then some cb else last
    | _ => last) none

section Calls

variable {cs : List (Call α β)} {c : Call α β} {l t : Listener α β} {p p' : Phase} {channel : α}
  {callback : β} {ends : Registration}

theorem lastPassed_concat : lastPassed (cs ++ [c]) channel = match c with
    | .registerListenAsync ch cb _ => if ch = channel then some cb else lastPassed cs channel
    | _ => lastPassed cs channel := by
  rw [lastPassed, List.foldl_append]
  cases c <;> rfl

theorem lastStored_concat : lastStored (cs ++ [c]) channel = match c with
    | .registerListenAsync ch cb ends =>
      if ch = channel ∧ ends.stored then some cb else lastStored cs channel
    | _ => lastStored cs channel := by
  rw [lastStored, List.foldl_append]
  cases c <;> rfl

/-- A channel that has been attached has been passed. -/
theorem passed_of_mem (h : .registerListenAsync channel callback ends ∈ cs) :
    (lastPassed cs channel).isSome := by
  induction cs using List.reverseRecOn with
  | nil => cases h
  | append_singleton cs c ih =>
    rw [lastPassed_concat]
    rcases List.mem_append.mp h with hm | hm
    · cases c with
      | registerListenAsync ch cb e =>
        dsimp only
        split
        · rfl
        · exact ih hm
      | connect | runListenerLoop | disconnect => exact ih hm
    · cases List.mem_singleton.mp hm
      simp

/-- Some channel has been passed. -/
def Passed (cs : List (Call α β)) : Prop := ∃ channel, (lastPassed cs channel).isSome

/-- A registration has lost the connection. -/
def Lost (cs : List (Call α β)) : Prop :=
  ∃ channel callback ends, .registerListenAsync channel callback ends ∈ cs ∧ ends.lost = true

/-- **The first connection**, in terms of the calls: it is open unless a registration has lost it, its
handlers are those of the registrations that succeeded, and the callbacks are the ones stored last. -/
structure First (cs : List (Call α β)) (l : Listener α β) : Prop where
  lost : Lost cs → l.isOpen = false
  kept : ¬ Lost cs → (∃ conn, l.connectionListener = some conn ∧ conn.isOpen = true ∧
      ∀ ch, ch ∈ conn.handlers ↔ ∃ cb, .registerListenAsync ch cb .succeeds ∈ cs) ∧
    ∀ ch, l.callbacks ch = lastStored cs ch

/-- **Where a life cycle stands**, phase by phase.  After a `disconnect` no channel has a handler any
more; and if the thread is still in its loop, some channel had been registered. -/
inductive Stage (cs : List (Call α β)) (l : Listener α β) : Phase → Prop
  | fresh (hcs : cs = []) (hl : l = {}) : Stage cs l .fresh
  | configuring (hcon : .disconnect ∉ cs) (hth : l.listenerThread = none) (hfirst : First cs l) :
      Stage cs l .configuring
  | first {th : ListenerThread} (hcon : .disconnect ∉ cs) (hfirst : First cs l)
      (hth : l.listenerThread = some th) (hloop : ¬ Lost cs → th ≠ .ended)
      (hpassed : th = .inCallback → Passed cs) : Stage cs l .running
  | closed {th : ListenerThread} (hcon : .disconnect ∈ cs) (hopen : l.isOpen = false)
      (hth : l.listenerThread = some th) (hidle : th ≠ .waiting)
      (hpassed : th = .ended ∨ Passed cs) : Stage cs l .closed
  | reopened {th : ListenerThread} (hcon : .disconnect ∈ cs)
      (hconn : l.connectionListener = some {}) (hth : l.listenerThread = some th)
      (hpassed : th = .ended ∨ Passed cs) : Stage cs l .reopened
  | again {th : ListenerThread} (hcon : .disconnect ∈ cs) (hconn : l.connectionListener = some {})
      (hth : l.listenerThread = some th)
      (hpassed : th = .ended ∨ Passed cs) : Stage cs l .running

/-! ## What one step does -/

theorem registerListenAsync_of_closed (h : l.isOpen = false) :
    l.registerListenAsync channel callback ends = l := by
  rw [registerListenAsync]
  split
  case h_1 conn hconn =>
    rw [if_neg]
    simpa [isOpen, hconn] using h
  case h_2 => rfl

omit [DecidableEq α] in
theorem Lost.concat (h : Lost cs) : Lost (cs ++ [c]) :=
  let ⟨ch, cb, e, hmem, he⟩ := h
  ⟨ch, cb, e, List.mem_append_left _ hmem, he⟩

omit [DecidableEq α] in
theorem lost_concat_register : Lost (cs ++ [.registerListenAsync channel callback ends]) ↔
    Lost cs ∨ ends.lost = true := by
  constructor
  · rintro ⟨ch, cb, e, hmem, he⟩
    rcases List.mem_append.mp hmem with hmem | hmem
    · exact Or.inl ⟨ch, cb, e, hmem, he⟩
    · cases List.mem_singleton.mp hmem
      exact Or.inr he
  · rintro (⟨ch, cb, e, hmem, he⟩ | he)
    · exact ⟨ch, cb, e, List.mem_append_left _ hmem, he⟩
    · exact ⟨channel, callback, ends, by simp, he⟩

theorem First.register (h : First cs l) : First (cs ++ [.registerListenAsync channel callback ends])
    (l.registerListenAsync channel callback ends) := by
  by_cases hlost : Lost cs
  · rw [registerListenAsync_of_closed (h.lost hlost)]
    exact ⟨fun _ => h.lost hlost, fun hno => absurd (lost_concat_register.mpr (Or.inl hlost)) hno⟩
  · obtain ⟨⟨conn, hconn, hopen, hhandlers⟩, hcallbacks⟩ := h.kept hlost
    rw [registerListenAsync, hconn]
    dsimp only
    rw [if_pos hopen]
    refine ⟨fun hl => ?_, fun hl => ⟨⟨_, rfl, ?_, fun ch => ?_⟩, fun ch => ?_⟩⟩
    · have hends := (lost_concat_register.mp hl).resolve_left hlost
      simp [isOpen, hends]
    · rw [lost_concat_register, not_or] at hl
      simpa using hl.2
    · have hmem : (∃ cb, .registerListenAsync ch cb .succeeds ∈
          cs ++ [.registerListenAsync channel callback ends]) ↔
            (ends = .succeeds ∧ ch = channel) ∨ ∃ cb, .registerListenAsync ch cb .succeeds ∈ cs := by
        simp only [List.mem_append, List.mem_singleton, Call.registerListenAsync.injEq]
        constructor
        · rintro ⟨cb, hcb | ⟨hch, -, he⟩⟩
          · exact Or.inr ⟨cb, hcb⟩
          · exact Or.inl ⟨he.symm, hch⟩
        · rintro (⟨he, hch⟩ | ⟨cb, hcb⟩)
          · exact ⟨callback, Or.inr ⟨hch, rfl, he.symm⟩⟩
          · exact ⟨cb, Or.inl hcb⟩
      rw [hmem, ← hhandlers ch]
      by_cases he : ends = .succeeds <;> simp [he]
    · rw [lastStored_concat]
      by_cases hst : ends.stored = true
      · by_cases hch : channel = ch
        · simp [hst, hch]
        · simp [hst, hch, update_of_ne (Ne.symm hch), hcallbacks ch]
      · simp [hst, hcallbacks ch]

/-- A call that registers nothing leaves the calls' registrations as they were. -/
theorem First.concat (h : First cs l) (hc : ∀ ch cb e, c ≠ .registerListenAsync ch cb e)
    (hconn : t.connectionListener = l.connectionListener) (hcb : t.callbacks = l.callbacks) :
    First (cs ++ [c]) t := by
  have hmem : ∀ ch cb e, .registerListenAsync ch cb e ∈ cs ++ [c] ↔
      .registerListenAsync ch cb e ∈ cs := fun ch cb e => by
    simp [(hc ch cb e).symm]
  have hlost : Lost (cs ++ [c]) ↔ Lost cs := by simp [Lost, hmem]
  have hstored : ∀ ch, lastStored (cs ++ [c]) ch = lastStored cs ch := fun ch => by
    rw [lastStored_concat]
    cases c <;> first | rfl | exact absurd rfl (hc _ _ _)
  have hopen : t.isOpen = l.isOpen := by rw [isOpen, isOpen, hconn]
  refine ⟨fun hl => hopen.trans (h.lost (hlost.mp hl)), fun hl => ?_⟩
  obtain ⟨⟨conn, hconn', hopen', hhandlers⟩, hcallbacks⟩ := h.kept (mt hlost.mpr hl)
  exact ⟨⟨conn, hconn.trans hconn', hopen', fun ch => by simp [hhandlers ch, hmem]⟩,
    fun ch => by rw [hcb, hcallbacks ch, hstored ch]⟩

@[simp] theorem registerListenAsync_listenerThread :
    (l.registerListenAsync channel callback ends).listenerThread = l.listenerThread := by
  rw [registerListenAsync]
  split
  · split <;> rfl
  · rfl

omit [DecidableEq α] in
@[simp] theorem isOpen_disconnect : l.disconnect.isOpen = false := by
  cases h : l.connectionListener <;> simp [isOpen, disconnect, h]

omit [DecidableEq α] in
theorem runListenerLoop_of_none (h : l.listenerThread = none) :
    l.runListenerLoop = { l with listenerThread := some l.waitNotification } := by
  rw [runListenerLoop, h]

omit [DecidableEq α] in
theorem runListenerLoop_of_some {th : ListenerThread} (h : l.listenerThread = some th) :
    l.runListenerLoop = l := by
  rw [runListenerLoop, h]

theorem Passed.concat (h : Passed cs) : Passed (cs ++ [c]) := by
  obtain ⟨ch, hch⟩ := h
  refine ⟨ch, ?_⟩
  rw [lastPassed_concat]
  cases c with
  | registerListenAsync ch' cb e =>
    dsimp only
    split
    · rfl
    · exact hch
  | connect | runListenerLoop | disconnect => exact hch

omit [DecidableEq α] in
theorem disconnect_listenerThread {th : ListenerThread} (h : l.listenerThread = some th) :
    l.disconnect.listenerThread = some (if th = .waiting then .ended else th) := by
  simp [disconnect, h]

/-- A `disconnect` closes the life cycle, whatever the thread is doing. -/
theorem Stage.disconnect {th : ListenerThread} (hth : l.listenerThread = some th)
    (hpassed : th = .inCallback → Passed cs) :
    Stage (cs ++ [.disconnect]) l.disconnect .closed := by
  refine .closed (by simp) isOpen_disconnect (disconnect_listenerThread hth) ?_ ?_
  · cases th <;> simp
  · cases th with
    | waiting => exact Or.inl rfl
    | inCallback => exact Or.inr (hpassed rfl).concat
    | ended => exact Or.inl rfl

/-- The first connection is open while no registration has lost it. -/
theorem First.waitNotification (h : First cs l) (hno : ¬ Lost cs) : l.waitNotification = .waiting := by
  obtain ⟨⟨conn, hconn, hopen, -⟩, -⟩ := h.kept hno
  rw [Listener.waitNotification, if_pos (by simp [isOpen, hconn, hopen])]

/-- **What each call does to the stage**, where it is in its place. -/
theorem Stage.call (h : Stage cs l p) (hnext : p.next c = some p') :
    Stage (cs ++ [c]) (l.run c) p' := by
  cases h with
  | fresh hcs hl =>
    cases c with
    | connect =>
      cases hnext
      subst hcs hl
      refine .configuring (by simp) rfl ⟨?_, fun _ => ⟨⟨{}, rfl, rfl, by simp⟩, fun _ => rfl⟩⟩
      rintro ⟨_, _, _, hmem, -⟩
      simp at hmem
    | registerListenAsync | runListenerLoop | disconnect => cases hnext
  | configuring hcon hth hfirst =>
    cases c with
    | registerListenAsync channel callback ends =>
      cases hnext
      exact .configuring (by simpa using hcon) (by simpa [run] using hth) hfirst.register
    | runListenerLoop =>
      cases hnext
      rw [run, runListenerLoop_of_none hth]
      refine .first (by simpa using hcon) (hfirst.concat (by rintro _ _ _ ⟨⟩) rfl rfl) rfl
        (fun hno => ?_) (fun hin => ?_)
      · simp [hfirst.waitNotification fun hl => hno hl.concat]
      · rw [Listener.waitNotification] at hin
        split at hin <;> cases hin
    | connect | disconnect => cases hnext
  | first hcon hfirst hth hloop hpassed =>
    cases c with
    | disconnect =>
      cases hnext
      exact .disconnect hth hpassed
    | connect | registerListenAsync | runListenerLoop => cases hnext
  | closed hcon hopen hth hidle hpassed =>
    cases c with
    | connect =>
      cases hnext
      exact .reopened (by simp [hcon]) rfl hth (hpassed.imp_right Passed.concat)
    | registerListenAsync | runListenerLoop | disconnect => cases hnext
  | reopened hcon hconn hth hpassed =>
    cases c with
    | runListenerLoop =>
      cases hnext
      rw [run, runListenerLoop_of_some hth]
      exact .again (by simp [hcon]) hconn hth (hpassed.imp_right Passed.concat)
    | connect | registerListenAsync | disconnect => cases hnext
  | again hcon hconn hth hpassed =>
    cases c with
    | disconnect =>
      cases hnext
      exact .disconnect hth fun hin => hpassed.resolve_left (by simp [hin])
    | connect | registerListenAsync | runListenerLoop => cases hnext

/-- A notification wakes the thread in the first connection only: no other has a handler. -/
theorem Stage.notified {conn : Connection α} (h : Stage cs l p)
    (hconn : l.connectionListener = some conn) (hth : l.listenerThread = some .waiting)
    (hopen : conn.isOpen = true) (hmem : channel ∈ conn.handlers) :
    Stage cs { l with listenerThread := some .inCallback } p := by
  have hisOpen : l.isOpen = true := by simp [isOpen, hconn, hopen]
  cases h with
  | fresh _ hl => simp [hl] at hth
  | configuring _ hth' _ => simp [hth'] at hth
  | first hcon hfirst hth' hloop hpassed =>
    have hno : ¬ Lost cs := fun hl => by simp [hfirst.lost hl] at hisOpen
    obtain ⟨⟨conn', hconn', -, hhandlers⟩, -⟩ := hfirst.kept hno
    cases Option.some.inj (hconn.symm.trans hconn')
    obtain ⟨cb, hcb⟩ := (hhandlers channel).mp hmem
    exact .first hcon ⟨hfirst.lost, hfirst.kept⟩ rfl (by simp) fun _ => ⟨channel, passed_of_mem hcb⟩
  | closed _ hclosed => simp [hclosed] at hisOpen
  | reopened _ hconn' | again _ hconn' =>
    cases Option.some.inj (hconn.symm.trans hconn')
    cases hmem

/-- After a callback the thread waits on the connection there is now. -/
theorem Stage.handled (h : Stage cs l p) (hth : l.listenerThread = some .inCallback) :
    Stage cs { l with listenerThread := some l.waitNotification } p := by
  have hne : l.waitNotification ≠ .inCallback := by
    rw [waitNotification]
    split <;> simp
  cases h with
  | fresh _ hl => simp [hl] at hth
  | configuring _ hth' _ => simp [hth'] at hth
  | first hcon hfirst _ _ _ =>
    refine .first hcon ⟨hfirst.lost, hfirst.kept⟩ rfl (fun hno => ?_) fun hin => absurd hin hne
    simp [hfirst.waitNotification hno]
  | closed hcon hopen _ _ _ =>
    have hended : l.waitNotification = .ended := by simp [waitNotification, hopen]
    exact .closed hcon hopen rfl (by simp [hended]) (Or.inl hended)
  | reopened hcon hconn hth' hpassed =>
    cases Option.some.inj (hth.symm.trans hth')
    exact .reopened hcon hconn rfl (Or.inr (hpassed.resolve_left (by simp)))
  | again hcon hconn hth' hpassed =>
    cases Option.some.inj (hth.symm.trans hth')
    exact .again hcon hconn rfl (Or.inr (hpassed.resolve_left (by simp)))

end Calls

/-! ## Along a run -/

variable {τ : List (Event α β)} {s : Listener α β}

instance : ∀ (τ : List (Event α β)) (s : Listener α β) (i : Input α β), Decidable (InOrder τ s i)
  | τ, _, .call c => decidable_of_iff ((phase (calls τ ++ [c])).isSome = true)
      ⟨fun h _ hc => by cases hc; exact h, fun h => h c rfl⟩
  | _, _, .notified _ => isTrue fun _ h => nomatch h
  | _, _, .handled => isTrue fun _ h => nomatch h

/-- The controller's start: it registers its channel and listens. -/
def start (ends : Registration) : List (Call String ℕ) :=
  [.connect, .registerListenAsync "config_requested" 0 ends, .runListenerLoop]

end Listener

end ManagementSensors
