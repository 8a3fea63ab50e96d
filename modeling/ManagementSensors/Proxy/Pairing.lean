import ManagementSensors.Proxy.Session
import Mathlib.Data.Fintype.Basic

/-!
# Proxy/Pairing — who gets which response

A response is the answer to the request at the head of the stream, and goes to whichever session
reads first.  So responses are paired with requests as long as the sessions take turns
(`paired_of_alone`), and two sessions that overlap can be given each other's (`not_paired`); from
any state that turns have reached, one overlap is enough (`overlap_breaks`).
-/

namespace ManagementSensors.Proxy

open Machinery

variable {κ Req Res : Type} {P : Beast Req Res}

/-- Bytes that are all of session `k`. -/
def Own (k : κ) (owners : List κ) : Prop := owners ≠ [] ∧ ∀ j ∈ owners, j = k

/-- **Paired.**  A session takes only bytes of responses to its own request, and the response that
its frontend receives is the backend's answer to the request of that frontend. -/
def Paired (P : Beast Req Res) (τ : List (Event κ Req Res)) : Event κ Req Res → Prop
  | .took k cells => ∀ c ∈ cells, Own k c.1
  | .received k res => ∃ req owners bytes answer, .asked k req ∈ τ ∧
      .answered owners (P.requestKeepAlive true req) bytes ∈ τ ∧ Own k owners ∧
      P.readResponse bytes = .done answer ∧ res = P.responseKeepAlive false answer
  | _ => True

/-- A session between the start of its write and the end of its read: the request it is about, what
it has still to write of it, and what it has read. -/
def Beast.current (P : Beast Req Res) : Phase Req → Option (Req × List UInt8 × List UInt8)
  | .writingRequest req rest => some (req, rest, [])
  | .readingResponse req beBuf =>
    if (P.readResponse beBuf).isMore then some (req, [], beBuf) else none
  | _ => none

/-- **Alone.**  A session begins its write only while no session is between its write and the end of
its read, and nothing is left on the stream, in either direction. -/
def Alone (P : Beast Req Res) : Guard (State κ Req) (Input κ Req) (Event κ Req Res) := fun _ s i =>
  match i with
  | .request _ _ => s.wire = [] ∧ s.inbox = [] ∧ ∀ j, P.current (s.phase j) = none
  | _ => True

instance [DecidableEq κ] [Fintype κ] (τ : List (Event κ Req Res)) (s : State κ Req) :
    ∀ i, Decidable (Alone P τ s i)
  | .request _ _ =>
    inferInstanceAs (Decidable (s.wire = [] ∧ s.inbox = [] ∧ ∀ j, P.current (s.phase j) = none))
  | .accept _ | .writeSome _ _ | .answer _ _ | .readSome _ _ | .reply _ | .fails _ =>
    inferInstanceAs (Decidable True)

/-! ## The stream of one session -/

/-- **What is on the stream for the current session**: the bytes of its request written so far, or
the bytes of its answer not read so far. -/
inductive Stage (P : Beast Req Res) (τ : List (Event κ Req Res)) (s : State κ Req) (k : κ)
    (req : Req) (rest beBuf : List UInt8) : Prop
  | sending (wrote : List UInt8) (hwrote : wrote ++ rest = P.writeRequest req)
      (hwire : s.wire = wrote.map fun b => (k, b)) (hinbox : s.inbox = []) (hbuf : beBuf = [])
  | answered (owners : List κ) (bytes unread : List UInt8) (hrest : rest = [])
      (hwire : s.wire = []) (hev : .answered owners req bytes ∈ τ) (hown : Own k owners)
      (hbytes : beBuf ++ unread = bytes) (hinbox : s.inbox = unread.map fun b => (owners, b))

/-- A complete response in `be_buf` is in an answer to the session's request. -/
def Fed (P : Beast Req Res) (τ : List (Event κ Req Res)) (k : κ) (req : Req)
    (beBuf : List UInt8) : Prop :=
  (P.readResponse beBuf).isMore = false →
    ∃ owners bytes, .answered owners req bytes ∈ τ ∧ Own k owners ∧ beBuf <+: bytes

/-- The request a session has been asked, as it forwards it. -/
def Phase.request? : Phase Req → Option Req
  | .writingRequest req _ | .readingResponse req _ => some req
  | _ => none

/-- **The invariant of sessions that take turns.** -/
structure Turns (P : Beast Req Res) (τ : List (Event κ Req Res)) (s : State κ Req) : Prop where
  asked : ∀ k kept, (s.phase k).request? = some kept →
    ∃ req, .asked k req ∈ τ ∧ kept = P.requestKeepAlive true req
  unique : ∀ j k, P.current (s.phase j) ≠ none → P.current (s.phase k) ≠ none → j = k
  stage : ∀ k req rest beBuf, P.current (s.phase k) = some (req, rest, beBuf) →
    Stage P τ s k req rest beBuf
  fed : ∀ k req beBuf, s.phase k = .readingResponse req beBuf → Fed P τ k req beBuf

theorem turns_nil : Turns P [] ({} : State κ Req) where
  asked _ _ h := by cases h
  unique _ _ h := absurd rfl h
  stage _ _ _ _ h := by cases h
  fed _ _ _ h := by cases h

theorem Beast.writeRequest_ne_nil (P : Beast Req Res) (req : Req) : P.writeRequest req ≠ [] := by
  intro h
  have hdone := P.readRequest_write req
  rw [h, P.readRequest_nil] at hdone
  cases hdone

/-- A message ends where it was written to end. -/
theorem Beast.eq_of_prefix (P : Beast Req Res) {req req' : Req} {u : List UInt8}
    (hu : u <+: P.writeRequest req) (h : P.readRequest u = .done req') :
    u = P.writeRequest req ∧ req' = req := by
  have hwhole : u = P.writeRequest req := by
    by_contra hne
    rw [P.readRequest_short req u hu hne] at h
    cases h
  rw [hwhole, P.readRequest_write] at h
  cases h
  exact ⟨hwhole, rfl⟩

theorem Fed.mono {τ τ' : List (Event κ Req Res)} {k : κ} {req : Req} {beBuf : List UInt8}
    (h : Fed P τ k req beBuf) (hτ : τ ⊆ τ') : Fed P τ' k req beBuf := by
  intro hmore
  obtain ⟨owners, bytes, hev, hown, hpre⟩ := h hmore
  exact ⟨owners, bytes, hτ hev, hown, hpre⟩

theorem fed_nil {τ : List (Event κ Req Res)} {k : κ} {req : Req} : Fed P τ k req [] := by
  intro h
  rw [P.readResponse_nil] at h
  cases h

/-- The stage is about the stream alone. -/
theorem Stage.mono {τ τ' : List (Event κ Req Res)} {s s' : State κ Req} {k : κ} {req : Req}
    {rest beBuf : List UInt8} (h : Stage P τ s k req rest beBuf) (hτ : τ ⊆ τ')
    (hwire : s'.wire = s.wire) (hinbox : s'.inbox = s.inbox) : Stage P τ' s' k req rest beBuf := by
  cases h with
  | sending wrote hwrote hw hi hbuf =>
    exact .sending wrote hwrote (hwire.trans hw) (hinbox.trans hi) hbuf
  | answered owners bytes unread hrest hw hev hown hbytes hi =>
    exact .answered owners bytes unread hrest (hwire.trans hw) (hτ hev) hown hbytes
      (hinbox.trans hi)

/-- What a session has still to write is not yet answered. -/
theorem Stage.wrote_of_lt {τ : List (Event κ Req Res)} {s : State κ Req} {k : κ} {req : Req}
    {rest beBuf : List UInt8} (h : Stage P τ s k req rest beBuf) (hrest : 0 < rest.length) :
    ∃ wrote, wrote ++ rest = P.writeRequest req ∧ s.wire = wrote.map (fun b => (k, b)) ∧
      s.inbox = [] ∧ beBuf = [] := by
  cases h with
  | sending wrote hwrote hw hi hbuf => exact ⟨wrote, hwrote, hw, hi, hbuf⟩
  | answered owners bytes unread hnil => simp [hnil] at hrest

/-- Unread bytes are of an answer to the current session. -/
theorem Stage.unread_of_lt {τ : List (Event κ Req Res)} {s : State κ Req} {k : κ} {req : Req}
    {rest beBuf : List UInt8} (h : Stage P τ s k req rest beBuf) (hinbox : 0 < s.inbox.length) :
    ∃ owners unread, s.wire = [] ∧ .answered owners req (beBuf ++ unread) ∈ τ ∧ Own k owners ∧
      s.inbox = unread.map (fun b => (owners, b)) := by
  cases h with
  | sending wrote hwrote hw hi hbuf => simp [hi] at hinbox
  | answered owners bytes unread hrest hw hev hown hbytes hi =>
    exact ⟨owners, unread, hw, hbytes ▸ hev, hown, hi⟩

section Steps

variable [DecidableEq κ] {τ : List (Event κ Req Res)} {s t : State κ Req}

/-! ## One step -/

/-- A session that goes on without the stream. -/
theorem Turns.put (h : Turns P τ s) {k : κ} {p : Phase Req} (hcur : P.current p = none)
    (hreq : p.request? = none) (τ' : List (Event κ Req Res)) : Turns P (τ ++ τ') (s.put k p) where
  asked j kept hj := by
    rcases eq_or_ne j k with rfl | hjk
    · simp [hreq] at hj
    · obtain ⟨req, hev, hkept⟩ := h.asked j kept (by simpa [hjk] using hj)
      exact ⟨req, List.mem_append_left _ hev, hkept⟩
  unique i j hi hj := by
    rcases eq_or_ne i k with rfl | hik
    · simp [hcur] at hi
    rcases eq_or_ne j k with rfl | hjk
    · simp [hcur] at hj
    exact h.unique i j (by simpa [hik] using hi) (by simpa [hjk] using hj)
  stage j req rest beBuf hj := by
    rcases eq_or_ne j k with rfl | hjk
    · simp [hcur] at hj
    exact (h.stage j req rest beBuf (by simpa [hjk] using hj)).mono
      (List.subset_append_left _ _) rfl rfl
  fed j req beBuf hj := by
    rcases eq_or_ne j k with rfl | hjk
    · obtain rfl : p = .readingResponse req beBuf := by simpa using hj
      cases hreq
    exact (h.fed j req beBuf (by simpa [hjk] using hj)).mono (List.subset_append_left _ _)

/-- The current session goes on, with the stream it leaves behind. -/
theorem Turns.advance (h : Turns P τ s) {k : κ} {p : Phase Req} {τ' : List (Event κ Req Res)}
    (ht : t.phase = Function.update s.phase k p)
    (halone : ∀ j, j ≠ k → P.current (s.phase j) = none)
    (hreq : ∀ kept, p.request? = some kept →
      ∃ req, .asked k req ∈ τ ++ τ' ∧ kept = P.requestKeepAlive true req)
    (hstage : ∀ req rest beBuf, P.current p = some (req, rest, beBuf) →
      Stage P (τ ++ τ') t k req rest beBuf)
    (hfed : ∀ req beBuf, p = .readingResponse req beBuf → Fed P (τ ++ τ') k req beBuf) :
    Turns P (τ ++ τ') t where
  asked j kept hj := by
    rcases eq_or_ne j k with rfl | hjk
    · exact hreq kept (by simpa [ht] using hj)
    · obtain ⟨req, hev, hkept⟩ := h.asked j kept (by simpa [ht, hjk] using hj)
      exact ⟨req, List.mem_append_left _ hev, hkept⟩
  unique i j hi hj := by
    have hk : ∀ i, P.current (t.phase i) ≠ none → i = k := fun i hi => by
      by_contra hik
      exact hi (by simpa [ht, hik] using halone i hik)
    rw [hk i hi, hk j hj]
  stage j req rest beBuf hj := by
    rcases eq_or_ne j k with rfl | hjk
    · exact hstage req rest beBuf (by simpa [ht] using hj)
    · rw [ht, Function.update_of_ne hjk, halone j hjk] at hj
      cases hj
  fed j req beBuf hj := by
    rcases eq_or_ne j k with rfl | hjk
    · exact hfed req beBuf (by simpa [ht] using hj)
    · exact (h.fed j req beBuf (by simpa [ht, hjk] using hj)).mono (List.subset_append_left _ _)

theorem asyncWrite_request? (req : Req) (rest : List UInt8) :
    (asyncWrite req rest).request? = some req := by
  cases rest <;> rfl

theorem current_asyncWrite (P : Beast Req Res) (req : Req) (rest : List UInt8) :
    P.current (asyncWrite req rest) = some (req, rest, []) := by
  cases rest with
  | nil => simp [asyncWrite, Beast.current, P.readResponse_nil, Parsed.isMore]
  | cons b rest => rfl

omit [DecidableEq κ] in
theorem fed_asyncWrite {k : κ} {req req' : Req} {rest beBuf : List UInt8}
    (h : asyncWrite req rest = .readingResponse req' beBuf) : Fed P τ k req' beBuf := by
  cases rest with
  | nil =>
    cases h
    exact fed_nil
  | cons b rest => cases h

omit [DecidableEq κ] in
/-- While a session is current, the others are not. -/
theorem Turns.alone (h : Turns P τ s) {k : κ} {c : Req × List UInt8 × List UInt8}
    (hk : P.current (s.phase k) = some c) : ∀ j, j ≠ k → P.current (s.phase j) = none := by
  intro j hjk
  by_contra hj
  exact hjk (h.unique j k hj (by simp [hk]))

theorem Turns.step_request (h : Turns P τ s) {k : κ} {req : Req} {o : Option (Event κ Req Res)}
    (halone : Alone P τ s (.request k req)) (hstep : step P s (.request k req) = some (t, o)) :
    Turns P (τ ++ o.toList) t := by
  obtain ⟨-, rfl, rfl⟩ := Proxy.step_request hstep
  obtain ⟨hwire, hinbox, hidle⟩ := halone
  refine h.advance rfl (fun j _ => hidle j) (fun kept hkept => ?_) (fun req' rest beBuf hcur => ?_)
    (fun _ _ => fed_asyncWrite)
  · rw [asyncWrite_request?, Option.some.injEq] at hkept
    exact ⟨req, by simp, hkept.symm⟩
  · rw [current_asyncWrite] at hcur
    cases hcur
    exact .sending [] rfl hwire hinbox rfl

theorem Turns.step_writeSome (h : Turns P τ s) {k : κ} {n : ℕ} {o : Option (Event κ Req Res)}
    (hstep : step P s (.writeSome k n) = some (t, o)) : Turns P (τ ++ o.toList) t := by
  obtain ⟨req, rest, hphase, hn, hle, rfl, rfl⟩ := Proxy.step_writeSome hstep
  have hcur : P.current (s.phase k) = some (req, rest, []) := by rw [hphase]; rfl
  obtain ⟨wrote, hwrote, hwire, hinbox, -⟩ := (h.stage k _ _ _ hcur).wrote_of_lt (by omega)
  refine h.advance rfl (h.alone hcur) (fun kept hkept => ?_) (fun req' rest' beBuf hcur' => ?_)
    (fun _ _ => fed_asyncWrite)
  · rw [asyncWrite_request?, Option.some.injEq] at hkept
    subst hkept
    simpa using h.asked k req (by rw [hphase]; rfl)
  · rw [current_asyncWrite] at hcur'
    cases hcur'
    refine .sending (wrote ++ rest.take n) ?_ ?_ hinbox rfl
    · rw [List.append_assoc, List.take_append_drop, hwrote]
    · simp only [hwire, List.map_append]

omit [DecidableEq κ] in
/-- The backend takes the request of the current session, whole. -/
theorem Stage.of_requestEnd {k : κ} {req req' : Req} {rest beBuf : List UInt8} {n : ℕ}
    (h : Stage P τ s k req rest beBuf) (hend : P.requestEnd (s.wire.map Prod.snd) n = some req') :
    req' = req ∧ rest = [] ∧ beBuf = [] ∧ s.inbox = [] ∧ s.wire.drop n = [] ∧
      Own k ((s.wire.take n).map Prod.fst) := by
  obtain ⟨hn, hread⟩ := requestEnd_eq_some hend
  cases h with
  | answered owners bytes unread hrest hwire hev hown hbytes hinbox =>
    rw [hwire, List.map_nil, List.take_nil, P.readRequest_nil] at hread
    cases hread
  | sending wrote hwrote hwire hinbox hbuf =>
    have hbytes : s.wire.map Prod.snd = wrote := by simp [hwire, Function.comp_def]
    have hpre : wrote.take n <+: P.writeRequest req :=
      (List.take_prefix n wrote).trans ⟨rest, hwrote⟩
    rw [hbytes] at hn hread
    obtain ⟨hwhole, hreq⟩ := P.eq_of_prefix hpre hread
    have hlen : n = wrote.length ∧ rest = [] := by
      have h1 := congrArg List.length hwhole
      have h2 := congrArg List.length hwrote
      rw [List.length_take, min_eq_left hn] at h1
      rw [List.length_append] at h2
      exact ⟨by omega, List.length_eq_zero_iff.mp (by omega)⟩
    refine ⟨hreq, hlen.2, hbuf, hinbox, by simp [hwire, hlen.1], ?_, fun j hj => ?_⟩
    · have hne := P.writeRequest_ne_nil req
      rw [← hwhole] at hne
      simpa [hwire] using hne
    · obtain ⟨c, hc, rfl⟩ := List.mem_map.mp hj
      have hmem := List.mem_of_mem_take hc
      rw [hwire] at hmem
      obtain ⟨b, -, rfl⟩ := List.mem_map.mp hmem
      rfl

theorem Turns.step_answer (h : Turns P τ s) {n : ℕ} {bytes : List UInt8}
    {o : Option (Event κ Req Res)} (hstep : step P s (.answer n bytes) = some (t, o)) :
    Turns P (τ ++ o.toList) t := by
  obtain ⟨req', hend, rfl, rfl⟩ := Proxy.step_answer hstep
  have hτ : τ ⊆ τ ++ [.answered ((s.wire.take n).map Prod.fst) req' bytes] :=
    List.subset_append_left _ _
  refine ⟨fun k kept hk => ?_, h.unique, fun k req rest beBuf hk => ?_,
    fun k req beBuf hk => (h.fed k req beBuf hk).mono hτ⟩
  · obtain ⟨req, hev, hkept⟩ := h.asked k kept hk
    exact ⟨req, hτ hev, hkept⟩
  · obtain ⟨rfl, hrest, hbuf, hinbox, hdrop, hown⟩ :=
      (h.stage k req rest beBuf hk).of_requestEnd hend
    exact .answered _ bytes bytes hrest hdrop (by simp) hown (by simp [hbuf]) (by simp [hinbox])

theorem Turns.step_readSome (h : Turns P τ s) {k : κ} {n : ℕ} {o : Option (Event κ Req Res)}
    (hstep : step P s (.readSome k n) = some (t, o)) : Turns P (τ ++ o.toList) t := by
  obtain ⟨req, beBuf, hphase, hmore, hn, hle, rfl, rfl⟩ := Proxy.step_readSome hstep
  have hcur : P.current (s.phase k) = some (req, [], beBuf) := by
    rw [hphase, Beast.current, if_pos hmore]
  obtain ⟨owners, unread, hwire, hev, hown, hinbox⟩ :=
    (h.stage k _ _ _ hcur).unread_of_lt (by omega)
  have htake : (s.inbox.take n).map Prod.snd = unread.take n := by
    simp [hinbox, ← List.map_take, Function.comp_def]
  have hsplit : beBuf ++ unread = (beBuf ++ unread.take n) ++ unread.drop n := by
    rw [List.append_assoc, List.take_append_drop]
  rw [hsplit] at hev
  refine h.advance rfl (h.alone hcur) (fun kept hkept => ?_) (fun req' rest' beBuf' hcur' => ?_)
    (fun req' beBuf' hp _ => ?_)
  · obtain ⟨req', hasked, hkept'⟩ := h.asked k kept (by rw [hphase]; exact hkept)
    exact ⟨req', List.mem_append_left _ hasked, hkept'⟩
  · simp only [Beast.current] at hcur'
    split at hcur' <;> cases hcur'
    rw [htake]
    exact .answered owners _ (unread.drop n) rfl hwire (List.mem_append_left _ hev) hown rfl
      (by simp [hinbox])
  · cases hp
    rw [htake]
    exact ⟨owners, _, List.mem_append_left _ hev, hown, List.prefix_append _ _⟩

/-- **Turns are kept by every step that begins a write alone.** -/
theorem Turns.step (h : Turns P τ s) {i : Input κ Req} {o : Option (Event κ Req Res)}
    (halone : Alone P τ s i) (hstep : Proxy.step P s i = some (t, o)) :
    Turns P (τ ++ o.toList) t := by
  cases i with
  | accept k =>
    obtain ⟨-, rfl, rfl⟩ := Proxy.step_accept hstep
    exact h.put rfl rfl _
  | request k req => exact h.step_request halone hstep
  | writeSome k n => exact h.step_writeSome hstep
  | answer n bytes => exact h.step_answer hstep
  | readSome k n => exact h.step_readSome hstep
  | reply k =>
    obtain ⟨-, -, -, -, -, rfl, rfl⟩ := Proxy.step_reply hstep
    exact h.put rfl rfl _
  | fails k =>
    obtain ⟨rfl, rfl⟩ := Proxy.step_fails hstep
    exact h.put rfl rfl _

/-! ## What sessions that take turns read and receive -/

theorem Turns.took (h : Turns P τ s) {k : κ} {n : ℕ} {o : Option (Event κ Req Res)}
    (hstep : Proxy.step P s (.readSome k n) = some (t, o)) :
    ∀ e, o = some e → Paired P τ e := by
  obtain ⟨req, beBuf, hphase, hmore, hn, hle, rfl, -⟩ := Proxy.step_readSome hstep
  have hcur : P.current (s.phase k) = some (req, [], beBuf) := by
    rw [hphase, Beast.current, if_pos hmore]
  obtain ⟨owners, unread, -, -, hown, hinbox⟩ := (h.stage k _ _ _ hcur).unread_of_lt (by omega)
  rintro _ ⟨⟩ c hc
  have hmem := List.mem_of_mem_take hc
  rw [hinbox] at hmem
  obtain ⟨b, -, rfl⟩ := List.mem_map.mp hmem
  exact hown

theorem Turns.received (h : Turns P τ s) {k : κ} {o : Option (Event κ Req Res)}
    (hstep : Proxy.step P s (.reply k) = some (t, o)) : ∀ e, o = some e → Paired P τ e := by
  obtain ⟨kept, beBuf, answer, hphase, hdone, rfl, -⟩ := Proxy.step_reply hstep
  obtain ⟨req, hasked, rfl⟩ := h.asked k kept (by rw [hphase]; rfl)
  obtain ⟨owners, bytes, hev, hown, unread, rfl⟩ := h.fed k _ _ hphase (by rw [hdone]; rfl)
  rintro _ ⟨⟩
  exact ⟨req, owners, _, answer, hasked, hev, hown, P.readResponse_append _ unread _ hdone, rfl⟩

theorem Turns.paired (h : Turns P τ s) {i : Input κ Req} {e : Event κ Req Res}
    (hstep : Proxy.step P s i = some (t, some e)) : Paired P τ e := by
  cases i with
  | readSome k n => exact h.took hstep e rfl
  | reply k => exact h.received hstep e rfl
  | accept k => cases (Proxy.step_accept hstep).2.2
  | writeSome k n =>
    obtain ⟨-, -, -, -, -, ho, -⟩ := Proxy.step_writeSome hstep
    cases ho
  | fails k => cases (Proxy.step_fails hstep).2
  | request k req =>
    obtain ⟨-, ho, -⟩ := Proxy.step_request hstep
    cases ho
    trivial
  | answer n bytes =>
    obtain ⟨_, -, ho, -⟩ := Proxy.step_answer hstep
    cases ho
    trivial

/-- **Sessions that take turns are paired.**  Every frontend receives the answer to its own request,
and every byte a session reads is of that answer. -/
theorem paired_of_alone (P : Beast Req Res) {τ : List (Event κ Req Res)} {s : State κ Req}
    (h : (proxy P).Run (Alone P) {} τ s) : Always (Paired P) τ :=
  h.always turns_nil (fun _ _ _ _ _ hI halone hstep => hI.step halone hstep)
    (fun _ _ _ _ _ hI _ hstep => hI.paired hstep)

omit [DecidableEq κ] in
/-- In a paired trace no session takes bytes of another. -/
theorem own_of_took (h : Always (Paired P) τ) {k : κ} {cells : List (List κ × UInt8)}
    (hev : .took k cells ∈ τ) : ∀ c ∈ cells, Own k c.1 := by
  obtain ⟨τ₁, τ₂, rfl⟩ := List.append_of_mem hev
  exact h τ₁ _ τ₂ rfl

/-- The page `/a`, asked for in session 0, and the page `/b`, in session 1. -/
def turns : List (Input (Fin 2) UInt8) :=
  [.accept 0, .accept 1,
    .request 0 97, .writeSome 0 19, .answer 19 (pageResponse 65), .readSome 0 39, .reply 0,
    .request 1 98, .writeSome 1 19, .answer 19 (pageResponse 66), .readSome 1 39, .reply 1]

/-- In turns, each frontend receives its own page. -/
theorem paired_of_alone_pages : ∃ τ s,
    (proxy pages).Run (Alone pages) ({} : State (Fin 2) UInt8) τ s ∧
    .received 0 (65, false) ∈ τ ∧ .received 1 (66, false) ∈ τ ∧ Always (Paired pages) τ := by
  obtain ⟨τ, s, hrun, h0, h1⟩ := (proxy pages).exists_run_of_exec_all (Alone pages) {} turns
    (fun τ _ => .received 0 (65, false) ∈ τ ∧ .received 1 (66, false) ∈ τ) (by decide +kernel)
  exact ⟨τ, s, hrun, h0, h1, paired_of_alone pages hrun⟩

/-- Both have written before either has read, and the second reads first. -/
def overlapping : List (Input (Fin 2) UInt8) :=
  [.accept 0, .accept 1, .request 0 97, .request 1 98, .writeSome 0 19, .writeSome 1 19,
    .answer 19 (pageResponse 65), .answer 19 (pageResponse 66), .readSome 1 39, .reply 1]

/-- **Responses change hands**: session 1 has asked for `/b`, and its frontend receives `/a`. -/
theorem not_paired : ∃ τ s, (proxy pages).Run Guard.free ({} : State (Fin 2) UInt8) τ s ∧
    .asked 1 98 ∈ τ ∧ .answered (List.replicate 19 1) 98 (pageResponse 66) ∈ τ ∧
    .received 1 (65, false) ∈ τ ∧ ¬ Always (Paired pages) τ := by
  obtain ⟨τ, s, hrun, hasked, hanswered, hreceived, htook⟩ :=
    (proxy pages).exists_run_of_exec_all Guard.free {} overlapping
      (fun τ _ => .asked 1 98 ∈ τ ∧ .answered (List.replicate 19 1) 98 (pageResponse 66) ∈ τ ∧
        .received 1 (65, false) ∈ τ ∧
        .took 1 ((pageResponse 65).map fun b => (List.replicate 19 0, b)) ∈ τ)
      (by decide +kernel)
  refine ⟨τ, s, hrun, hasked, hanswered, hreceived, fun hpaired => ?_⟩
  have hown := own_of_took hpaired htook (List.replicate 19 0, 72) (by decide)
  exact absurd (hown.2 0 (by decide)) (by decide)

/-! ## Sessions that overlap -/

omit [DecidableEq κ] in
theorem not_own {j k : κ} {owners : List κ} (h : Own j owners) (hjk : j ≠ k) : ¬ Own k owners := by
  intro hk
  obtain ⟨i, hi⟩ := List.exists_mem_of_ne_nil owners h.1
  exact hjk ((h.2 i hi).symm.trans (hk.2 i hi))

omit [DecidableEq κ] in
/-- A request at the head of the stream ends where it was written to end. -/
theorem requestEnd_write (P : Beast Req Res) (req : Req) (rest : List UInt8) :
    P.requestEnd (P.writeRequest req ++ rest) (P.writeRequest req).length = some req := by
  have hearlier : ∀ m < (P.writeRequest req).length,
      (P.readRequest ((P.writeRequest req ++ rest).take m)).isMore := by
    intro m hm
    have hne : (P.writeRequest req).take m ≠ P.writeRequest req := fun he => by
      have := congrArg List.length he
      rw [List.length_take] at this
      omega
    rw [List.take_append_of_le_length hm.le,
      P.readRequest_short req _ (List.take_prefix _ _) hne]
    rfl
  rw [Beast.requestEnd, if_pos ⟨by simp, hearlier⟩, List.take_left, P.readRequest_write]
  rfl

/-- The current session can write what is left of its request. -/
theorem run_writes (P : Beast Req Res) {k : κ} {req : Req} {rest beBuf : List UInt8}
    (h : P.current (s.phase k) = some (req, rest, beBuf)) :
    ∃ p, (proxy P).Run Guard.free s []
        { s.put k p with wire := s.wire ++ rest.map fun b => (k, b) } ∧
      (rest = [] → p = s.phase k) ∧ (rest ≠ [] → p = .readingResponse req []) := by
  by_cases hrest : rest = []
  · subst hrest
    refine ⟨s.phase k, ?_, fun _ => rfl, fun hne => absurd rfl hne⟩
    have hself : s = { s.put k (s.phase k) with wire := s.wire ++ [] } := by simp [State.put]
    rw [List.map_nil, ← hself]
    exact .nil
  · have hphase : s.phase k = .writingRequest req rest := by
      cases hp : s.phase k <;> simp only [hp, Beast.current] at h
      case writingRequest => cases h; rfl
      case readingResponse => split at h <;> cases h; exact absurd rfl hrest
      all_goals cases h
    have hpos := List.length_pos_iff.mpr hrest
    refine ⟨.readingResponse req [], ?_, fun hnil => absurd hnil hrest, fun _ => rfl⟩
    exact .snoc (i := Input.writeSome k rest.length) (o := none) .nil trivial
      (by simp [proxy, Proxy.step, hphase, hpos, asyncWrite])

/-- The backend can answer the request at the head of the stream. -/
theorem run_answers (P : Beast Req Res) {k : κ} (req : Req) (behind : List (κ × UInt8))
    (h : s.wire = (P.writeRequest req).map (fun b => (k, b)) ++ behind) :
    ∃ owners, Own k owners ∧ (proxy P).Run Guard.free s [.answered owners req [0]]
      { s with wire := behind, inbox := s.inbox ++ [(owners, 0)] } := by
  have hhead : s.wire.take (P.writeRequest req).length =
      (P.writeRequest req).map fun b => (k, b) := by
    rw [h, List.take_left' (by simp)]
  have htail : s.wire.drop (P.writeRequest req).length = behind := by
    rw [h, List.drop_left' (by simp)]
  have hend : P.requestEnd (s.wire.map Prod.snd) (P.writeRequest req).length = some req := by
    rw [h, List.map_append, List.map_map]
    simpa [Function.comp_def] using requestEnd_write P req (behind.map Prod.snd)
  refine ⟨(P.writeRequest req).map fun _ => k, ⟨?_, ?_⟩, ?_⟩
  · simpa using P.writeRequest_ne_nil req
  · simp
  · refine .snoc (i := Input.answer (P.writeRequest req).length [0])
      (o := some (Event.answered ((P.writeRequest req).map fun _ => k) req [0])) .nil trivial ?_
    simp [proxy, Proxy.step, hend, hhead, htail, Function.comp_def]

/-- From here a run can go on so that a session takes bytes of a response that is not its own. -/
def Mispairs (P : Beast Req Res) (s : State κ Req) : Prop :=
  ∃ τ t k cells c, (proxy P).Run Guard.free s τ t ∧ .took k cells ∈ τ ∧ c ∈ cells ∧ ¬ Own k c.1

theorem Mispairs.of_run (hrun : (proxy P).Run Guard.free s τ t) (h : Mispairs P t) :
    Mispairs P s := by
  obtain ⟨τ', u, k, cells, c, hrun', hev, hc, hown⟩ := h
  exact ⟨τ ++ τ', u, k, cells, c, hrun.trans hrun', List.mem_append_right _ hev, hc, hown⟩

/-- A session that reads can take the next byte, whoever it is of. -/
theorem mispairs_of_unread {j k : κ} (req : Req) (beBuf : List UInt8) {owners : List κ} {b : UInt8}
    (cells : List (List κ × UInt8)) (hphase : s.phase k = .readingResponse req beBuf)
    (hmore : (P.readResponse beBuf).isMore = true) (hinbox : s.inbox = (owners, b) :: cells)
    (hown : Own j owners) (hjk : j ≠ k) : Mispairs P s := by
  have htakes : (proxy P).Run Guard.free s [.took k [(owners, b)]]
      { s.put k (.readingResponse req (beBuf ++ [b])) with inbox := cells } :=
    .snoc (i := Input.readSome k 1) (o := some (Event.took k [(owners, b)])) .nil trivial
      (by simp [proxy, Proxy.step, hphase, hmore, hinbox])
  exact ⟨_, _, k, _, _, htakes, List.mem_singleton_self _, List.mem_singleton_self _,
    not_own hown hjk⟩

/-- The session has still to write: it does, and reads what is unread of the other's response. -/
theorem mispairs_of_overlap {j k : κ} (req : Req) {owners : List κ} {b : UInt8}
    (cells : List (List κ × UInt8))
    (hcur : P.current (s.phase k) = some (req, P.writeRequest req, []))
    (hinbox : s.inbox = (owners, b) :: cells) (hown : Own j owners) (hjk : j ≠ k) :
    Mispairs P s := by
  obtain ⟨p, hwrites, -, hp⟩ := run_writes P hcur
  refine .of_run hwrites
    (mispairs_of_unread req [] cells (k := k) ?_ ?_ hinbox hown hjk)
  · simp [hp (P.writeRequest_ne_nil _)]
  · rw [P.readResponse_nil]
    rfl

/-- The other has still to be answered: it is, and its answer is read. -/
theorem mispairs_of_sending {j k : κ} {req reqj : Req} {wrote rest beBuf : List UInt8}
    (hcur : P.current (s.phase k) = some (req, P.writeRequest req, []))
    (hcurj : P.current (s.phase j) = some (reqj, rest, beBuf))
    (hwrote : wrote ++ rest = P.writeRequest reqj) (hwire : s.wire = wrote.map fun b => (j, b))
    (hinbox : s.inbox = []) (hjk : j ≠ k) : Mispairs P s := by
  obtain ⟨p, hwrites, -⟩ := run_writes P hcurj
  obtain ⟨owners, hown, hanswers⟩ := run_answers (k := j) P reqj []
    (s := { s.put j p with wire := s.wire ++ rest.map fun b => (j, b) })
    (by simp [hwire, ← hwrote])
  refine .of_run (hwrites.trans hanswers)
    (mispairs_of_overlap req [] (k := k) (b := 0) ?_ (by simp [hinbox]) hown hjk)
  simpa [hjk.symm] using hcur

/-- The other waits for more than it was answered: it reads what the session is answered. -/
theorem mispairs_of_waiting {j k : κ} {req reqj : Req} {beBuf : List UInt8}
    (hcur : P.current (s.phase k) = some (req, P.writeRequest req, []))
    (hphase : s.phase j = .readingResponse reqj beBuf)
    (hmore : (P.readResponse beBuf).isMore = true) (hwire : s.wire = []) (hinbox : s.inbox = [])
    (hjk : j ≠ k) : Mispairs P s := by
  obtain ⟨p, hwrites, -⟩ := run_writes P hcur
  obtain ⟨owners, hown, hanswers⟩ := run_answers (k := k) P req []
    (s := { s.put k p with wire := s.wire ++ (P.writeRequest req).map fun b => (k, b) })
    (by simp [hwire])
  refine .of_run (hwrites.trans hanswers)
    (mispairs_of_unread reqj beBuf [] (k := j) (b := 0) ?_ hmore (by simp [hinbox]) hown hjk.symm)
  simpa [hjk] using hphase

theorem asyncWrite_ne (req req' : Req) (rest : List UInt8) :
    asyncWrite req rest ≠ .writingRequest req' [] := by
  cases rest <;> simp [asyncWrite]

/-- A session that is still writing has something left to write. -/
theorem writing_of_run {C : Guard (State κ Req) (Input κ Req) (Event κ Req Res)}
    (h : (proxy P).Run C {} τ s) : ∀ k req, s.phase k ≠ .writingRequest req [] := by
  refine h.invariant (I := fun _ s => ∀ k req, s.phase k ≠ .writingRequest req []) (by simp)
    fun _ s i t o hI _ hstep => ?_
  change Proxy.step P s i = some (t, o) at hstep
  have hput : ∀ (j : κ) (p : Phase Req), (∀ req, p ≠ .writingRequest req []) →
      ∀ k req, Function.update s.phase j p k ≠ .writingRequest req [] := fun j p hp k req => by
    rcases eq_or_ne k j with rfl | hkj
    · simpa using hp req
    · simpa [hkj] using hI k req
  cases i with
  | accept k =>
    obtain ⟨-, rfl, -⟩ := Proxy.step_accept hstep
    exact hput k _ fun _ => by simp
  | request k req =>
    obtain ⟨-, -, rfl⟩ := Proxy.step_request hstep
    exact hput k _ fun _ => asyncWrite_ne _ _ _
  | writeSome k n =>
    obtain ⟨req, rest, -, -, -, -, rfl⟩ := Proxy.step_writeSome hstep
    exact hput k _ fun _ => asyncWrite_ne _ _ _
  | answer n bytes =>
    obtain ⟨_, -, -, rfl⟩ := Proxy.step_answer hstep
    exact hI
  | readSome k n =>
    obtain ⟨req, beBuf, -, -, -, -, -, rfl⟩ := Proxy.step_readSome hstep
    exact hput k _ fun _ => by simp
  | reply k =>
    obtain ⟨-, -, -, -, -, -, rfl⟩ := Proxy.step_reply hstep
    exact hput k _ fun _ => by simp
  | fails k =>
    obtain ⟨rfl, -⟩ := Proxy.step_fails hstep
    exact hput k _ fun _ => by simp

omit [DecidableEq κ] in
/-- A session that has written is at its read. -/
theorem readingResponse_of_current {p : Phase Req} {req : Req} {beBuf : List UInt8}
    (h : P.current p = some (req, [], beBuf)) (hp : p ≠ .writingRequest req []) :
    p = .readingResponse req beBuf ∧ (P.readResponse beBuf).isMore = true := by
  cases p with
  | writingRequest req' rest =>
    simp only [Beast.current, Option.some.injEq, Prod.mk.injEq] at h
    exact absurd (by rw [h.1, h.2.1]) hp
  | readingResponse req' beBuf' =>
    simp only [Beast.current] at h
    split at h <;> cases h
    exact ⟨rfl, ‹_›⟩
  | fresh | readingRequest | «over» => cases h

/-- **An overlap is enough.**  Let a frontend's request come in while another session is between its
write and the end of its read: the run can go on so that a session takes bytes of the other's
response. -/
theorem overlap_breaks (P : Beast Req Res) (h : (proxy P).Run (Alone P) {} τ s) {j k : κ}
    (hj : P.current (s.phase j) ≠ none) (hk : s.phase k = .readingRequest) (req : Req) :
    ∃ τ' t, (proxy P).Run Guard.free s (.asked k req :: τ') t ∧
      ¬ Always (Paired P) (τ ++ .asked k req :: τ') := by
  set kept := P.requestKeepAlive true req with hkept
  set s₁ := s.put k (asyncWrite kept (P.writeRequest kept)) with hs₁
  have hask : (proxy P).Run Guard.free s [.asked k req] s₁ :=
    .snoc (i := Input.request k req) (o := some (Event.asked k req)) .nil trivial
      (by simp [proxy, Proxy.step, hk, hs₁, hkept])
  suffices hmis : Mispairs P s₁ by
    obtain ⟨τ', t, i, cells, c, hrun, hev, hc, hown⟩ := hmis
    exact ⟨τ', t, hask.trans hrun, fun hpaired =>
      hown (own_of_took hpaired (List.mem_append_right _ (List.mem_cons_of_mem _ hev)) c hc)⟩
  have hI : Turns P τ s :=
    h.invariant turns_nil fun _ _ _ _ _ hI halone hstep => hI.step halone hstep
  obtain ⟨⟨reqj, rest, beBuf⟩, hcurj⟩ := Option.ne_none_iff_exists'.mp hj
  have hjk : j ≠ k := by
    rintro rfl
    simp [hk, Beast.current] at hcurj
  have hcur : P.current (s₁.phase k) = some (kept, P.writeRequest kept, []) := by
    simp [hs₁, current_asyncWrite]
  have hother : s₁.phase j = s.phase j := by simp [hs₁, hjk]
  rcases hI.stage j _ _ _ hcurj with
    ⟨wrote, hwrote, hwire, hinbox, -⟩ | ⟨owners, bytes, unread, rfl, hwire, -, hown, -, hinbox⟩
  · exact mispairs_of_sending hcur (hother ▸ hcurj) hwrote hwire hinbox hjk
  · cases unread with
    | cons b unread => exact mispairs_of_overlap _ _ hcur hinbox hown hjk
    | nil =>
      obtain ⟨hphase, hmore⟩ := readingResponse_of_current hcurj (writing_of_run h j reqj)
      exact mispairs_of_waiting hcur (hother.trans hphase) hmore hwire hinbox hjk

end Steps

end ManagementSensors.Proxy
