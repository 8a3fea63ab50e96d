import Mathlib.Data.List.Basic

/-!
# Machinery/PerKey — one state for the messages of several senders

Messages are taken one after the other until one throws.  Where each message has a key, and a step
reads and writes only what belongs to its key (`KeyLocal`), the keys do not meet: a sequence goes
through exactly where the messages of each key go through alone (`KeyLocal.goesOn_iff`), and what
belongs to a key is then what its own messages leave (`KeyLocal.same`).
-/

namespace Machinery

variable {σ μ κ : Type*} [DecidableEq κ]

/-- The messages one after the other, up to the first that throws: the state, and whether it goes
on. -/
def takeAll (step : σ → μ → σ × Bool) (s : σ) : List μ → σ × Bool
  | [] => (s, true)
  | m :: ms =>
    match step s m with
    | (t, false) => takeAll step t ms
    | (t, true) => (t, false)

/-- The messages of a key, in their order. -/
def messagesOf (key : μ → κ) (k : κ) (ms : List μ) : List μ := ms.filter fun m => key m = k

/-- **A step keeps to its key**: `Same k` is to agree in what belongs to `k`.  Messages without a key
throw or not, whatever the state. -/
structure KeyLocal (step : σ → μ → σ × Bool) (key : μ → Option κ) (Same : κ → σ → σ → Prop) :
    Prop where
  equiv : ∀ k, Equivalence (Same k)
  frame : ∀ k s m, key m ≠ some k → Same k s (step s m).1
  own : ∀ k s t m, key m = some k → Same k s t →
    (step s m).2 = (step t m).2 ∧ Same k (step s m).1 (step t m).1
  keyless : ∀ s t m, key m = none → (step s m).2 = (step t m).2

variable {step : σ → μ → σ × Bool} {key : μ → Option κ} {Same : κ → σ → σ → Prop} {k : κ}
  {s t : σ} {m : μ} {ms : List μ}

theorem takeAll_cons_of_throws (h : (step s m).2 = true) :
    takeAll step s (m :: ms) = ((step s m).1, false) := by
  rw [takeAll]
  split
  case h_1 heq => simp [heq] at h
  case h_2 heq => rw [heq]

theorem takeAll_cons_of_goesOn (h : (step s m).2 = false) :
    takeAll step s (m :: ms) = takeAll step (step s m).1 ms := by
  rw [takeAll]
  split
  case h_1 heq => rw [heq]
  case h_2 heq => simp [heq] at h

/-- What goes through takes its first message without a throw. -/
theorem goesOn_cons : (takeAll step s (m :: ms)).2 = true ↔
    (step s m).2 = false ∧ (takeAll step (step s m).1 ms).2 = true := by
  cases h : (step s m).2
  · rw [takeAll_cons_of_goesOn h]
    simp
  · rw [takeAll_cons_of_throws h]
    simp

theorem takeAll_append (ms ms' : List μ) : takeAll step s (ms ++ ms') =
    if (takeAll step s ms).2 then takeAll step (takeAll step s ms).1 ms' else takeAll step s ms := by
  induction ms generalizing s with
  | nil => rfl
  | cons m ms ih =>
    cases h : (step s m).2
    · rw [List.cons_append, takeAll_cons_of_goesOn h, takeAll_cons_of_goesOn h, ih]
    · rw [List.cons_append, takeAll_cons_of_throws h, takeAll_cons_of_throws h]
      rfl

theorem messagesOf_cons_of_eq {k : Option κ} (h : key m = k) :
    messagesOf key k (m :: ms) = m :: messagesOf key k ms := by
  simp [messagesOf, h]

theorem messagesOf_cons_of_ne {k : Option κ} (h : key m ≠ k) :
    messagesOf key k (m :: ms) = messagesOf key k ms := by
  simp [messagesOf, h]

theorem goesOn_concat : (takeAll step s (ms ++ [m])).2 = true ↔
    (takeAll step s ms).2 = true ∧ (step (takeAll step s ms).1 m).2 = false := by
  rw [takeAll_append]
  cases h : (takeAll step s ms).2
  · simp [h]
  · rw [if_pos rfl, goesOn_cons]
    simp [takeAll]

theorem takeAll_concat (h : (takeAll step s (ms ++ [m])).2 = true) :
    (takeAll step s (ms ++ [m])).1 = (step (takeAll step s ms).1 m).1 := by
  obtain ⟨hms, hm⟩ := goesOn_concat.mp h
  rw [takeAll_append, if_pos hms, takeAll_cons_of_goesOn hm]
  rfl

/-- The last of what the messages write. -/
def lastWrite {α : Type*} (write : μ → Option α) (ms : List μ) : Option α :=
  (ms.filterMap write).getLast?

theorem lastWrite_concat {α : Type*} (write : μ → Option α) (ms : List μ) (m : μ) :
    lastWrite write (ms ++ [m]) = (write m).or (lastWrite write ms) := by
  rw [lastWrite, List.filterMap_append, List.getLast?_append]
  cases h : write m <;> simp [h, lastWrite]

namespace KeyLocal

/-- **What goes through, goes through for each key alone**, and leaves what belongs to the key as its
own messages do. -/
theorem same (h : KeyLocal step key Same) (hst : Same k s t)
    (hgoes : (takeAll step s ms).2 = true) :
    (takeAll step t (messagesOf key (some k) ms)).2 = true ∧
      Same k (takeAll step s ms).1 (takeAll step t (messagesOf key (some k) ms)).1 := by
  induction ms generalizing s t with
  | nil => exact ⟨rfl, hst⟩
  | cons m ms ih =>
    obtain ⟨hm, hms⟩ := goesOn_cons.mp hgoes
    rw [takeAll_cons_of_goesOn hm]
    by_cases hk : key m = some k
    · obtain ⟨hthrows, hsame⟩ := h.own k s t m hk hst
      rw [messagesOf_cons_of_eq hk, takeAll_cons_of_goesOn (hthrows.symm.trans hm)]
      exact ih hsame hms
    · rw [messagesOf_cons_of_ne hk]
      exact ih ((h.equiv k).trans ((h.equiv k).symm (h.frame k s m hk)) hst) hms

/-- The messages without a key go through or not, whatever the state. -/
theorem keyless_goesOn (h : KeyLocal step key Same) (hgoes : (takeAll step s ms).2 = true) (t : σ) :
    (takeAll step t (messagesOf key none ms)).2 = true := by
  induction ms generalizing s t with
  | nil => rfl
  | cons m ms ih =>
    obtain ⟨hm, hms⟩ := goesOn_cons.mp hgoes
    by_cases hk : key m = none
    · rw [messagesOf_cons_of_eq hk]
      exact goesOn_cons.mpr ⟨(h.keyless t s m hk).trans hm, ih hms _⟩
    · rw [messagesOf_cons_of_ne hk]
      exact ih hms t

/-- Each key's messages, from a state that agrees in what belongs to it. -/
theorem goesOn_of_each (h : KeyLocal step key Same) (t : Option κ → σ)
    (hst : ∀ k, Same k s (t (some k)))
    (heach : ∀ k, (takeAll step (t k) (messagesOf key k ms)).2 = true) :
    (takeAll step s ms).2 = true := by
  induction ms generalizing s t with
  | nil => rfl
  | cons m ms ih =>
    -- the states the keys go on from: that of the message's own key is the one after it
    have hown := heach (key m)
    rw [messagesOf_cons_of_eq rfl] at hown
    obtain ⟨hm, hms⟩ := goesOn_cons.mp hown
    have hgoes : (step s m).2 = false := by
      cases hk : key m with
      | none => exact (h.keyless s (t (key m)) m hk).trans hm
      | some k =>
        rw [hk] at hm
        exact (h.own k s _ m hk (hst k)).1.trans hm
    refine goesOn_cons.mpr ⟨hgoes, ih (Function.update t (key m) (step (t (key m)) m).1) ?_ ?_⟩
    · intro k
      by_cases hk : key m = some k
      · rw [hk, Function.update_self]
        exact (h.own k s _ m hk (hst k)).2
      · rw [Function.update_of_ne (Ne.symm hk)]
        exact (h.equiv k).trans ((h.equiv k).symm (h.frame k s m hk)) (hst k)
    · intro k
      by_cases hk : key m = k
      · subst hk
        rw [Function.update_self]
        exact hms
      · rw [Function.update_of_ne (Ne.symm hk)]
        have := heach k
        rwa [messagesOf_cons_of_ne hk] at this

/-- **The keys do not meet**: the messages go through exactly where those of each key do alone. -/
theorem goesOn_iff (h : KeyLocal step key Same) : (takeAll step s ms).2 = true ↔
    ∀ k, (takeAll step s (messagesOf key k ms)).2 = true := by
  refine ⟨fun hgoes k => ?_, fun heach => h.goesOn_of_each (fun _ => s)
    (fun k => (h.equiv k).refl s) heach⟩
  cases k with
  | none => exact h.keyless_goesOn hgoes s
  | some k => exact (h.same ((h.equiv k).refl s) hgoes).1

end KeyLocal

end Machinery
