import Mathlib.Data.List.DropRight
import Mathlib.Logic.Function.Basic

/-!
# Machinery/Run — observed machines, and what holds along a run of one

A `Machine` reads one input at a time; each step may be refused, and is observed through at most
one event.  A `Run` is the trace of events a sequence of steps leaves behind, together with the
state it ends in.  Every step of a run meets a `Guard`, a condition on the trace so far, the state
before the step and the input; `Guard.free` asks nothing.

Two rules carry every result about runs: `Run.invariant` (what a step preserves, a run preserves)
and `Run.always` (what an invariant says of the event a step emits, a run says of all its events).
-/

namespace Machinery

variable {σ ι ο : Type*}

/-- **A machine.** `step s i` is the state after input `i` and the event the step shows, or `none`
where `i` cannot be taken in `s`. -/
structure Machine (σ ι ο : Type*) where
  step : σ → ι → Option (σ × Option ο)

/-- A condition on one step: the trace so far, the state before the step, the input. -/
abbrev Guard (σ ι ο : Type*) := List ο → σ → ι → Prop

/-- The condition every step meets. -/
def Guard.free : Guard σ ι ο := fun _ _ _ => True

instance : ∀ (τ : List ο) (s : σ) (i : ι), Decidable (Guard.free τ s i) := fun _ _ _ =>
  inferInstanceAs (Decidable True)

/-! ## What holds of every event of a trace -/

/-- **Every event, at its moment**: `P` relates each event to the trace before it. -/
def Always (P : List ο → ο → Prop) (τ : List ο) : Prop :=
  ∀ τ₁ e τ₂, τ = τ₁ ++ e :: τ₂ → P τ₁ e

theorem always_nil {P : List ο → ο → Prop} : Always P [] := fun τ₁ e τ₂ h => by
  simp at h

/-- What does not look back is said of the members of a trace. -/
theorem always_const_iff {P : ο → Prop} {τ : List ο} : Always (fun _ => P) τ ↔ ∀ e ∈ τ, P e := by
  refine ⟨fun h e he => ?_, fun h τ₁ e τ₂ hs => h e (hs ▸ ?_)⟩
  · obtain ⟨τ₁, τ₂, hs⟩ := List.append_of_mem he
    exact h τ₁ e τ₂ hs
  · exact List.mem_append_right _ List.mem_cons_self

/-- A split of an extended trace is a split of the trace, or is at the new event. -/
theorem split_concat {τ τ₁ τ₂ : List ο} {a e : ο} (h : τ ++ [a] = τ₁ ++ e :: τ₂) :
    (τ₁ = τ ∧ e = a ∧ τ₂ = []) ∨ ∃ τ₃, τ = τ₁ ++ e :: τ₃ ∧ τ₂ = τ₃ ++ [a] := by
  rcases List.eq_nil_or_concat' τ₂ with rfl | ⟨τ₃, b, rfl⟩
  · obtain ⟨h1, h2⟩ := List.append_inj' h rfl
    simp only [List.cons.injEq, and_true] at h2
    exact Or.inl ⟨h1.symm, h2.symm, rfl⟩
  · have h' : τ ++ [a] = (τ₁ ++ e :: τ₃) ++ [b] := by simpa using h
    obtain ⟨h1, h2⟩ := List.append_inj' h' rfl
    simp only [List.cons.injEq, and_true] at h2
    exact Or.inr ⟨τ₃, h1, by rw [h2]⟩

theorem Always.append {P : List ο → ο → Prop} {τ : List ο} (h : Always P τ) (o : Option ο)
    (ho : ∀ e, o = some e → P τ e) : Always P (τ ++ o.toList) := by
  cases o with
  | none => simpa using h
  | some a =>
    intro τ₁ e τ₂ hs
    rcases split_concat hs with ⟨rfl, rfl, -⟩ | ⟨τ₃, rfl, -⟩
    · exact ho e rfl
    · exact h τ₁ e τ₃ rfl

/-- The events since the last one that satisfies `p`. -/
def sinceLast (p : ο → Bool) (τ : List ο) : List ο := τ.rtakeWhile fun e => !p e

theorem sinceLast_concat (p : ο → Bool) (τ : List ο) (e : ο) :
    sinceLast p (τ ++ [e]) = if p e then [] else sinceLast p τ ++ [e] := by
  rw [sinceLast, List.rtakeWhile_concat]
  cases p e <;> simp [sinceLast]

/-! ## Runs -/

namespace Machine

variable (M : Machine σ ι ο)

/-- **A run from `s₀`**: the events its steps have shown, and the state it has reached.  Each step
met the guard. -/
inductive Run (C : Guard σ ι ο) (s₀ : σ) : List ο → σ → Prop
  | nil : Run C s₀ [] s₀
  | snoc {τ : List ο} {s t : σ} {i : ι} {o : Option ο} (hrun : Run C s₀ τ s) (hC : C τ s i)
      (hstep : M.step s i = some (t, o)) : Run C s₀ (τ ++ o.toList) t

variable {M} {C D : Guard σ ι ο} {s₀ : σ}

theorem Run.mono (hCD : ∀ τ s i, C τ s i → D τ s i) {τ : List ο} {s : σ}
    (h : M.Run C s₀ τ s) : M.Run D s₀ τ s := by
  induction h with
  | nil => exact .nil
  | snoc _ hC hstep ih => exact .snoc ih (hCD _ _ _ hC) hstep

/-- A run goes on with a step that shows an event. -/
theorem Run.concat {τ : List ο} {s t : σ} {i : ι} {e : ο} (h : M.Run C s₀ τ s) (hC : C τ s i)
    (hstep : M.step s i = some (t, some e)) : M.Run C s₀ (τ ++ [e]) t := h.snoc hC hstep

/-- A guarded run is a run. -/
theorem Run.free {τ : List ο} {s : σ} (h : M.Run C s₀ τ s) : M.Run Guard.free s₀ τ s :=
  h.mono fun _ _ _ _ => trivial

/-- A run that goes on where another ended, under a guard that does not look back. -/
theorem Run.append (hback : ∀ τ τ' s i, C τ' s i → C (τ ++ τ') s i) {τ τ' : List ο} {s t : σ}
    (h : M.Run C s₀ τ s) (h' : M.Run C s τ' t) : M.Run C s₀ (τ ++ τ') t := by
  induction h' with
  | nil => simpa using h
  | snoc _ hC hstep ih =>
    rw [← List.append_assoc]
    exact ih.snoc (hback _ _ _ _ hC) hstep

theorem Run.trans {τ τ' : List ο} {s t : σ} (h : M.Run Guard.free s₀ τ s)
    (h' : M.Run Guard.free s τ' t) : M.Run Guard.free s₀ (τ ++ τ') t :=
  h.append (fun _ _ _ _ _ => trivial) h'

/-- **The invariant rule.**  What holds at the start and is kept by every guarded step holds of
every run. -/
theorem Run.invariant {I : List ο → σ → Prop} (h₀ : I [] s₀)
    (hs : ∀ τ s i t o, I τ s → C τ s i → M.step s i = some (t, o) → I (τ ++ o.toList) t)
    {τ : List ο} {s : σ} (h : M.Run C s₀ τ s) : I τ s := by
  induction h with
  | nil => exact h₀
  | snoc _ hC hstep ih => exact hs _ _ _ _ _ ih hC hstep

/-- **The event rule.**  What an invariant proves of the event each step shows holds of every
event of every run. -/
theorem Run.always {I : List ο → σ → Prop} {P : List ο → ο → Prop} (h₀ : I [] s₀)
    (hs : ∀ τ s i t o, I τ s → C τ s i → M.step s i = some (t, o) → I (τ ++ o.toList) t)
    (he : ∀ τ s i t e, I τ s → C τ s i → M.step s i = some (t, some e) → P τ e)
    {τ : List ο} {s : σ} (h : M.Run C s₀ τ s) : Always P τ := by
  suffices hboth : I τ s ∧ Always P τ from hboth.2
  induction h with
  | nil => exact ⟨h₀, always_nil⟩
  | snoc _ hC hstep ih =>
    refine ⟨hs _ _ _ _ _ ih.1 hC hstep, ih.2.append _ fun e ho => ?_⟩
    subst ho
    exact he _ _ _ _ _ ih.1 hC hstep

/-- **Projection onto a component.**  Where every step of `M` is, seen through `f` and `g`, a step
of `N` or no step at all, a run of `M` is seen as a run of `N`. -/
theorem Run.project {σ' ι' ο' : Type*} {N : Machine σ' ι' ο'} {D : Guard σ' ι' ο'}
    (f : σ → σ') (g : ο → Option ο')
    (hs : ∀ τ s i t o, M.Run C s₀ τ s → C τ s i → M.step s i = some (t, o) →
      (f t = f s ∧ o.bind g = none) ∨
        ∃ i', D (τ.filterMap g) (f s) i' ∧ N.step (f s) i' = some (f t, o.bind g))
    {τ : List ο} {s : σ} (h : M.Run C s₀ τ s) : N.Run D (f s₀) (τ.filterMap g) (f s) := by
  induction h with
  | nil => exact .nil
  | @snoc τ s t i o hrun hC hstep ih =>
    have hev : (τ ++ o.toList).filterMap g = τ.filterMap g ++ (o.bind g).toList := by
      cases o with
      | none => simp
      | some e => cases hg : g e <;> simp [hg]
    rcases hs τ s i t o hrun hC hstep with ⟨hf, ho⟩ | ⟨i', hD, hN⟩
    · rw [hev, ho, hf]
      simpa using ih
    · rw [hev]
      exact .snoc ih hD hN

/-! ## Executing a run -/

variable (M) (C) in
/-- Feed a list of inputs to the machine, from a trace and a state, checking the guard. -/
def exec [∀ τ s i, Decidable (C τ s i)] : List ο → σ → List ι → Option (List ο × σ)
  | τ, s, [] => some (τ, s)
  | τ, s, i :: is =>
    if C τ s i then
      match M.step s i with
      | some (t, o) => exec (τ ++ o.toList) t is
      | none => none
    else none

/-- What `exec` reaches is reached by a run. -/
theorem Run.exec [∀ τ s i, Decidable (C τ s i)] : ∀ (is : List ι) {τ τ' : List ο} {s s' : σ},
    M.Run C s₀ τ s → M.exec C τ s is = some (τ', s') → M.Run C s₀ τ' s'
  | [], τ, τ', s, s', h, he => by
    simp only [Machine.exec, Option.some.injEq, Prod.mk.injEq] at he
    obtain ⟨rfl, rfl⟩ := he
    exact h
  | i :: is, τ, τ', s, s', h, he => by
    rw [Machine.exec] at he
    split at he
    case isFalse => cases he
    case isTrue hC =>
      split at he
      case h_2 => cases he
      case h_1 t o hstep => exact (h.snoc hC hstep).exec is he

variable (M) (C) (s₀) in
/-- What is seen of an execution from the start, in its trace and in the state it ends in. -/
theorem exists_run_of_exec_all [∀ τ s i, Decidable (C τ s i)] (is : List ι)
    (P : List ο → σ → Prop) [∀ τ s, Decidable (P τ s)]
    (he : (M.exec C [] s₀ is).any (fun x => decide (P x.1 x.2)) = true) :
    ∃ τ s, M.Run C s₀ τ s ∧ P τ s := by
  cases hex : M.exec C [] s₀ is with
  | none => simp [hex] at he
  | some x => exact ⟨x.1, x.2, Run.nil.exec is hex, by simpa [hex] using he⟩

variable (M) (C) (s₀) in
/-- The trace of an execution from the start, when that is all that is looked at. -/
theorem exists_run_of_exec [∀ τ s i, Decidable (C τ s i)] (is : List ι) (τ : List ο)
    (he : (M.exec C [] s₀ is).map Prod.fst = some τ) : ∃ s, M.Run C s₀ τ s := by
  obtain ⟨⟨τ', s⟩, hex, rfl⟩ := Option.map_eq_some_iff.mp he
  exact ⟨s, Run.nil.exec is hex⟩

end Machine

end Machinery
