import ManagementSensors.Proxy.Pairing

/-!
# Proxy/Errors — what a session that fails leaves on the stream

The catch clause of `do_session` ends the session and nothing else: bytes it has written stay with the
backend, and bytes it has not read stay on the stream, for the next session to read.  A session that
fails before its first byte is written, or once its answer has been read, leaves the stream at the
boundary between two messages (`Boundary.step`), so that the sessions after it are paired
(`paired_of_clean`).
-/

namespace ManagementSensors.Proxy

open Machinery

variable {κ Req Res : Type} {P : Beast Req Res}

/-! ## Sessions one after the other -/

/-- A session that has been accepted and is not over. -/
def Phase.isActive : Phase Req → Bool
  | .fresh | .over => false
  | _ => true

/-- A complete response. -/
def Beast.isComplete (P : Beast Req Res) (u : List UInt8) : Bool := (P.readResponse u).message?.isSome

/-- The session is between its first byte to the backend and the last byte of its answer. -/
def Beast.isMidway (P : Beast Req Res) : Phase Req → Bool
  | .writingRequest _ _ => true
  | .readingResponse _ beBuf => !P.isComplete beBuf
  | _ => false

/-- **Sessions do not overlap**: a frontend is accepted while no session is active. -/
def Sequential : Guard (State κ Req) (Input κ Req) (Event κ Req Res) := fun _ s i =>
  match i with
  | .accept _ => ∀ j, (s.phase j).isActive = false
  | _ => True

/-- **The backend answers one request with one response**: no part of an answer is complete. -/
def OneResponse (P : Beast Req Res) (bytes : List UInt8) : Prop :=
  ∀ m < bytes.length, P.isComplete (bytes.take m) = false

/-- The backend is up, and answers each request so. -/
def Answers (P : Beast Req Res) : Guard (State κ Req) (Input κ Req) (Event κ Req Res) := fun _ _ i =>
  match i with
  | .answer _ bytes => OneResponse P bytes
  | _ => True

/-- The stream is left as it was before the session, or as it is after its answer: nothing is written
of the request, or nothing is left to read of the response. -/
def CleanAt (P : Beast Req Res) (s : State κ Req) : Phase Req → Prop
  | .writingRequest req rest => rest = P.writeRequest req
  | .readingResponse _ beBuf => P.isComplete beBuf = true ∨ s.wire = [] ∧ s.inbox = []
  | _ => True

/-- **Failures are clean.** -/
def Clean (P : Beast Req Res) : Guard (State κ Req) (Input κ Req) (Event κ Req Res) := fun _ s i =>
  match i with
  | .fails k => CleanAt P s (s.phase k)
  | _ => True

section Decidable

variable [DecidableEq κ] [Fintype κ]

instance (τ : List (Event κ Req Res)) (s : State κ Req) : ∀ i, Decidable (Sequential τ s i)
  | .accept _ => inferInstanceAs (Decidable (∀ j, (s.phase j).isActive = false))
  | .request _ _ | .writeSome _ _ | .answer _ _ | .readSome _ _ | .reply _ | .fails _ =>
    inferInstanceAs (Decidable True)

instance (bytes : List UInt8) : Decidable (OneResponse P bytes) :=
  inferInstanceAs (Decidable (∀ m < bytes.length, P.isComplete (bytes.take m) = false))

instance (τ : List (Event κ Req Res)) (s : State κ Req) : ∀ i, Decidable (Answers P τ s i)
  | .answer _ bytes => inferInstanceAs (Decidable (OneResponse P bytes))
  | .accept _ | .request _ _ | .writeSome _ _ | .readSome _ _ | .reply _ | .fails _ =>
    inferInstanceAs (Decidable True)

instance (s : State κ Req) : ∀ p, Decidable (CleanAt P s p)
  | .writingRequest req rest => inferInstanceAs (Decidable (rest = P.writeRequest req))
  | .readingResponse _ beBuf =>
    inferInstanceAs (Decidable (P.isComplete beBuf = true ∨ s.wire = [] ∧ s.inbox = []))
  | .fresh | .readingRequest | .over => inferInstanceAs (Decidable True)

instance (τ : List (Event κ Req Res)) (s : State κ Req) : ∀ i, Decidable (Clean P τ s i)
  | .fails k => inferInstanceAs (Decidable (CleanAt P s (s.phase k)))
  | .accept _ | .request _ _ | .writeSome _ _ | .answer _ _ | .readSome _ _ | .reply _ =>
    inferInstanceAs (Decidable True)

end Decidable

/-- Sessions one after the other, before a backend that is up. -/
def InSequence (P : Beast Req Res) : Guard (State κ Req) (Input κ Req) (Event κ Req Res) :=
  fun τ s i => Sequential τ s i ∧ Answers P τ s i

/-- Such sessions, of which those that fail do so cleanly. -/
def CleanSequence (P : Beast Req Res) : Guard (State κ Req) (Input κ Req) (Event κ Req Res) :=
  fun τ s i => InSequence P τ s i ∧ Clean P τ s i

instance [DecidableEq κ] [Fintype κ] (τ : List (Event κ Req Res)) (s : State κ Req)
    (i : Input κ Req) : Decidable (InSequence P τ s i) := inferInstanceAs (Decidable (_ ∧ _))

instance [DecidableEq κ] [Fintype κ] (τ : List (Event κ Req Res)) (s : State κ Req)
    (i : Input κ Req) : Decidable (CleanSequence P τ s i) := inferInstanceAs (Decidable (_ ∧ _))

/-! ## The stream between two sessions -/

/-- **The invariant of clean sequences**: one session at most is active, the backend has answered with
one response at a time, and the stream is empty while no session is midway. -/
structure Boundary (P : Beast Req Res) (τ : List (Event κ Req Res)) (s : State κ Req) : Prop
    extends Turns P τ s where
  active : ∀ j k, (s.phase j).isActive = true → (s.phase k).isActive = true → j = k
  answers : ∀ owners req bytes, .answered owners req bytes ∈ τ → OneResponse P bytes
  empty : (∀ k, P.isMidway (s.phase k) = false) → s.wire = [] ∧ s.inbox = []

theorem boundary_nil : Boundary P [] ({} : State κ Req) where
  toTurns := turns_nil
  active _ _ h := by cases h
  answers := nofun
  empty _ := ⟨rfl, rfl⟩

/-- A session that is current is midway. -/
theorem isMidway_of_current {p : Phase Req} (h : P.current p ≠ none) : P.isMidway p = true := by
  cases p with
  | writingRequest => rfl
  | readingResponse req beBuf =>
    rw [Beast.current] at h
    split at h
    case isFalse => exact absurd rfl h
    case isTrue hmore =>
      rw [Beast.isMidway, Beast.isComplete]
      cases hread : P.readResponse beBuf with
      | done res => simp [hread, Parsed.isMore] at hmore
      | more | error => rfl
  | fresh | readingRequest | «over» => exact absurd rfl h

theorem isActive_of_isMidway {p : Phase Req} (h : P.isMidway p = true) : p.isActive = true := by
  cases p with
  | writingRequest | readingResponse => rfl
  | fresh | readingRequest | «over» => cases h

section Steps

variable [DecidableEq κ] {τ : List (Event κ Req Res)} {s t : State κ Req}

/-- **A session that begins its write is alone**: the others are not active, and nothing is left of
those before. -/
theorem Boundary.alone (h : Boundary P τ s) {i : Input κ Req} {o : Option (Event κ Req Res)}
    (hstep : Proxy.step P s i = some (t, o)) : Alone P τ s i := by
  cases i with
  | request k req =>
    obtain ⟨hphase, -, -⟩ := Proxy.step_request hstep
    have hidle : ∀ j, P.isMidway (s.phase j) = false := fun j => by
      by_contra hmid
      rw [Bool.not_eq_false] at hmid
      obtain rfl := h.active j k (isActive_of_isMidway hmid) (by rw [hphase]; rfl)
      rw [hphase] at hmid
      cases hmid
    obtain ⟨hwire, hinbox⟩ := h.empty hidle
    refine ⟨hwire, hinbox, fun j => ?_⟩
    by_contra hcur
    exact absurd (isMidway_of_current hcur) (by simp [hidle j])
  | accept | writeSome | answer | readSome | reply | fails => trivial

/-- A session that is active after a step was so before it, or has just been accepted. -/
theorem active_of_step {i : Input κ Req} {o : Option (Event κ Req Res)}
    (hstep : Proxy.step P s i = some (t, o)) {j : κ} (hj : (t.phase j).isActive = true) :
    (s.phase j).isActive = true ∨ i = .accept j := by
  have hput : ∀ {k : κ} {p : Phase Req}, (Function.update s.phase k p j).isActive = true →
      (j = k → (s.phase j).isActive = true) → (s.phase j).isActive = true := by
    intro k p hp hk
    rcases eq_or_ne j k with hjk | hjk
    · exact hk hjk
    · rwa [Function.update_of_ne hjk] at hp
  cases i with
  | accept k =>
    obtain ⟨-, rfl, -⟩ := Proxy.step_accept hstep
    by_cases hjk : j = k
    · exact Or.inr (by rw [hjk])
    · exact Or.inl (hput hj fun h => absurd h hjk)
  | request k req =>
    obtain ⟨hphase, -, rfl⟩ := Proxy.step_request hstep
    exact Or.inl (hput hj fun h => by rw [h, hphase]; rfl)
  | writeSome k n =>
    obtain ⟨req, rest, hphase, -, -, -, rfl⟩ := Proxy.step_writeSome hstep
    exact Or.inl (hput hj fun h => by rw [h, hphase]; rfl)
  | answer n bytes =>
    obtain ⟨_, -, -, rfl⟩ := Proxy.step_answer hstep
    exact Or.inl hj
  | readSome k n =>
    obtain ⟨req, beBuf, hphase, -, -, -, -, rfl⟩ := Proxy.step_readSome hstep
    exact Or.inl (hput hj fun h => by rw [h, hphase]; rfl)
  | reply k =>
    obtain ⟨req, beBuf, res, hphase, -, -, rfl⟩ := Proxy.step_reply hstep
    exact Or.inl (hput hj fun h => by rw [h, hphase]; rfl)
  | fails k =>
    obtain ⟨rfl, -⟩ := Proxy.step_fails hstep
    rcases eq_or_ne j k with rfl | hjk
    · simp [Phase.isActive] at hj
    · exact Or.inl (hput hj fun h => absurd h hjk)

theorem Boundary.step_active (h : Boundary P τ s) {i : Input κ Req}
    {o : Option (Event κ Req Res)} (hseq : Sequential τ s i)
    (hstep : Proxy.step P s i = some (t, o)) {j k : κ} (hj : (t.phase j).isActive = true)
    (hk : (t.phase k).isActive = true) : j = k := by
  rcases active_of_step hstep hj with hj | rfl <;> rcases active_of_step hstep hk with hk | hk
  · exact h.active j k hj hk
  · subst hk
    exact absurd hj (by simp [hseq j])
  · exact absurd hk (by simp [hseq k])
  · cases hk
    rfl

/-- An answer that is seen has just been given. -/
theorem answers_of_step {i : Input κ Req} {o : Option (Event κ Req Res)}
    (hanswers : Answers P τ s i) (hstep : Proxy.step P s i = some (t, o)) {owners : List κ} {req : Req}
    {bytes : List UInt8} (hev : .answered owners req bytes ∈ o) : OneResponse P bytes := by
  cases i with
  | answer n bytes' =>
    obtain ⟨_, -, rfl, -⟩ := Proxy.step_answer hstep
    cases hev
    exact hanswers
  | accept =>
    obtain ⟨-, -, rfl⟩ := Proxy.step_accept hstep
    cases hev
  | request =>
    obtain ⟨-, rfl, -⟩ := Proxy.step_request hstep
    cases hev
  | writeSome =>
    obtain ⟨-, -, -, -, -, rfl, -⟩ := Proxy.step_writeSome hstep
    cases hev
  | readSome =>
    obtain ⟨-, -, -, -, -, -, rfl, -⟩ := Proxy.step_readSome hstep
    cases hev
  | reply =>
    obtain ⟨_, _, res, -, -, rfl, -⟩ := Proxy.step_reply hstep
    cases hev
  | fails =>
    obtain ⟨-, rfl⟩ := Proxy.step_fails hstep
    cases hev

omit [DecidableEq κ] in
/-- A complete response is the whole answer. -/
theorem OneResponse.eq_of_complete {u v : List UInt8} (h : OneResponse P (u ++ v))
    (hdone : P.isComplete u = true) : v = [] := by
  by_contra hv
  have hpos := List.length_pos_iff.mpr hv
  have hshort := h u.length (by rw [List.length_append]; omega)
  rw [List.take_left, hdone] at hshort
  cases hshort

/-- **The stream after a read**: once the response is complete, nothing is left of the answer. -/
theorem Boundary.empty_readSome (h : Boundary P τ s) {k : κ} {n : ℕ} {o : Option (Event κ Req Res)}
    (hstep : Proxy.step P s (.readSome k n) = some (t, o)) (hidle : P.isMidway (t.phase k) = false) :
    t.wire = [] ∧ t.inbox = [] := by
  obtain ⟨req, beBuf, hphase, hmore, hn, hle, rfl, rfl⟩ := Proxy.step_readSome hstep
  have hcur : P.current (s.phase k) = some (req, [], beBuf) := by
    rw [hphase, Beast.current, if_pos hmore]
  obtain ⟨owners, unread, hwire, hev, -, hinbox⟩ := (h.stage k _ _ _ hcur).unread_of_lt (by omega)
  have htake : (s.inbox.take n).map Prod.snd = unread.take n := by
    simp [hinbox, ← List.map_take, Function.comp_def]
  have hdone : P.isComplete (beBuf ++ unread.take n) = true := by
    simpa [Beast.isMidway, htake] using hidle
  have hsplit : beBuf ++ unread = (beBuf ++ unread.take n) ++ unread.drop n := by
    rw [List.append_assoc, List.take_append_drop]
  have hone := h.answers _ _ _ hev
  rw [hsplit] at hone
  refine ⟨hwire, ?_⟩
  change s.inbox.drop n = []
  rw [hinbox, ← List.map_drop, hone.eq_of_complete hdone, List.map_nil]

omit [DecidableEq κ] in
/-- **The stream after a failure** that is clean. -/
theorem Boundary.empty_fails (h : Boundary P τ s) {k : κ} (hclean : CleanAt P s (s.phase k))
    (hidle : ∀ j, j ≠ k → P.isMidway (s.phase j) = false) : s.wire = [] ∧ s.inbox = [] := by
  by_cases hmid : P.isMidway (s.phase k) = true
  · cases hphase : s.phase k with
    | writingRequest req rest =>
      rw [hphase] at hclean
      obtain rfl : rest = P.writeRequest req := hclean
      have hcur : P.current (s.phase k) = some (req, P.writeRequest req, []) := by rw [hphase]; rfl
      obtain ⟨wrote, hwrote, hwire, hinbox, -⟩ := (h.stage k _ _ _ hcur).wrote_of_lt
        (List.length_pos_iff.mpr (P.writeRequest_ne_nil req))
      obtain rfl : wrote = [] := List.append_left_eq_self.mp hwrote
      exact ⟨hwire, hinbox⟩
    | readingResponse req beBuf =>
      rw [hphase] at hclean hmid
      rcases hclean with hdone | hempty
      · rw [Beast.isMidway, hdone] at hmid
        cases hmid
      · exact hempty
    | fresh | readingRequest | «over» =>
      rw [hphase] at hmid
      cases hmid
  · rw [Bool.not_eq_true] at hmid
    refine h.empty fun j => ?_
    rcases eq_or_ne j k with rfl | hjk
    · exact hmid
    · exact hidle j hjk

theorem isMidway_asyncWrite (P : Beast Req Res) (req : Req) (rest : List UInt8) :
    P.isMidway (asyncWrite req rest) = true :=
  isMidway_of_current (by rw [current_asyncWrite]; exact Option.some_ne_none _)

theorem Boundary.step_empty (h : Boundary P τ s) {i : Input κ Req} {o : Option (Event κ Req Res)}
    (hclean : Clean P τ s i) (hstep : Proxy.step P s i = some (t, o))
    (hidle : ∀ k, P.isMidway (t.phase k) = false) : t.wire = [] ∧ t.inbox = [] := by
  -- the sessions that take no step are where they were
  have hothers : ∀ {k : κ} {p : Phase Req}, t.phase = Function.update s.phase k p →
      ∀ j, j ≠ k → P.isMidway (s.phase j) = false := by
    intro k p ht j hjk
    have hj := hidle j
    rwa [ht, Function.update_of_ne hjk] at hj
  have hbefore : ∀ {k : κ} {p : Phase Req}, t.phase = Function.update s.phase k p →
      P.isMidway (s.phase k) = false → s.wire = [] ∧ s.inbox = [] := by
    intro k p ht hk
    refine h.empty fun j => ?_
    rcases eq_or_ne j k with rfl | hjk
    · exact hk
    · exact hothers ht j hjk
  cases i with
  | accept k =>
    obtain ⟨hphase, rfl, -⟩ := Proxy.step_accept hstep
    exact hbefore (k := k) rfl (by rw [hphase]; rfl)
  | request k req =>
    obtain ⟨-, -, rfl⟩ := Proxy.step_request hstep
    have hk := hidle k
    rw [State.put_phase, Function.update_self, isMidway_asyncWrite] at hk
    cases hk
  | writeSome k n =>
    obtain ⟨req, rest, -, -, -, -, rfl⟩ := Proxy.step_writeSome hstep
    have hk := hidle k
    rw [State.put_phase, Function.update_self, isMidway_asyncWrite] at hk
    cases hk
  | answer n bytes =>
    -- there is no request on an empty stream
    obtain ⟨req, hend, -, rfl⟩ := Proxy.step_answer hstep
    have hread := (requestEnd_eq_some hend).2
    rw [(h.empty hidle).1, List.map_nil, List.take_nil, P.readRequest_nil] at hread
    cases hread
  | readSome k n => exact h.empty_readSome hstep (hidle k)
  | reply k =>
    obtain ⟨req, beBuf, res, hphase, hdone, -, rfl⟩ := Proxy.step_reply hstep
    refine hbefore (k := k) rfl ?_
    rw [hphase, Beast.isMidway, Beast.isComplete, hdone]
    rfl
  | fails k =>
    obtain ⟨rfl, -⟩ := Proxy.step_fails hstep
    exact h.empty_fails hclean (hothers (k := k) rfl)

/-- **The boundary is kept** by every step of a clean sequence. -/
theorem Boundary.step (h : Boundary P τ s) {i : Input κ Req} {o : Option (Event κ Req Res)}
    (hC : CleanSequence P τ s i) (hstep : Proxy.step P s i = some (t, o)) :
    Boundary P (τ ++ o.toList) t where
  toTurns := h.toTurns.step (h.alone hstep) hstep
  active _ _ := h.step_active hC.1.1 hstep
  answers owners req bytes hev := by
    rcases List.mem_append.mp hev with hev | hev
    · exact h.answers owners req bytes hev
    · exact answers_of_step hC.1.2 hstep (by simpa using hev)
  empty := h.step_empty hC.2 hstep

end Steps

end ManagementSensors.Proxy
