import ManagementSensors.Machinery.Run

/-!
# Machinery/Register — rows that are set by orders, whenever these are carried out

An order is for the row of one key.  It is given once, and is then carried out at some later moment,
at several, after an order that was given later, or never.  Where an order overwrites all that another
sets, no history is left in a row: it is the first one, or the first one with a single order carried
out (`Orders.rows_run`).
-/

open Function

namespace Machinery

variable {ω κ ρ : Type*}

/-- **Orders**: the key of the row each one is for, and what it makes of that row, whatever another
has made of it. -/
structure Orders (ω κ ρ : Type*) where
  key : ω → κ
  carryOut : ω → ρ → ρ
  overwrites : ∀ w w' r, carryOut w (carryOut w' r) = carryOut w r

/-- The orders that have been given, and the rows. -/
structure Register (ω κ ρ : Type*) where
  given : List ω
  rows : κ → Option ρ

namespace Register

/-- An order is given, or carried out. -/
inductive Input (ω : Type*)
  | give (w : ω)
  | carryOut (w : ω)

/-- An order that is given, a row that is written. -/
inductive Event (ω ρ : Type*)
  | given (w : ω)
  | written (r : ρ)

/-- The order an event gives. -/
def Event.order : Event ω ρ → Option ω
  | .given w => some w
  | .written _ => none

/-- The orders given in a trace. -/
def orders (τ : List (Event ω ρ)) : List ω := τ.filterMap Event.order

end Register

namespace Orders

open Register (Input Event)

variable {O : Orders ω κ ρ} {s t : Register ω κ ρ}

/-! ## What orders make of the rows -/

/-- The first row of a key, with an order for it carried out. -/
def Made (O : Orders ω κ ρ) (rows : κ → Option ρ) (ws : List ω) (k : κ) (r : ρ) : Prop :=
  ∃ w ∈ ws, O.key w = k ∧ ∃ old, rows k = some old ∧ r = O.carryOut w old

theorem Made.append {rows : κ → Option ρ} {ws : List ω} {k : κ} {r : ρ} (h : O.Made rows ws k r)
    (ws' : List ω) : O.Made rows (ws ++ ws') k r := by
  obtain ⟨w, hw, hmade⟩ := h
  exact ⟨w, List.mem_append_left _ hw, hmade⟩

/-- **The invariant of every run**: each row is the first one of its key, or made of it by an order
that has been given. -/
structure Recorded (O : Orders ω κ ρ) (s₀ : Register ω κ ρ) (τ : List (Event ω ρ))
    (s : Register ω κ ρ) : Prop where
  given : s.given = s₀.given ++ Register.orders τ
  rows : ∀ k, s.rows k = s₀.rows k ∨ ∃ r, s.rows k = some r ∧ O.Made s₀.rows s.given k r

theorem recorded_start (O : Orders ω κ ρ) (s₀ : Register ω κ ρ) : Recorded O s₀ [] s₀ where
  given := (List.append_nil _).symm
  rows _ := Or.inl rfl

/-- What an order makes of a row, it makes of the first row of the key. -/
theorem Recorded.made {s₀ : Register ω κ ρ} {τ : List (Event ω ρ)} {w : ω} {r : ρ}
    (h : Recorded O s₀ τ s) (hw : w ∈ s.given) (hrow : s.rows (O.key w) = some r) :
    O.Made s₀.rows s.given (O.key w) (O.carryOut w r) := by
  refine ⟨w, hw, rfl, ?_⟩
  rcases h.rows (O.key w) with hsame | ⟨r', hr', w', -, -, old, hold, rfl⟩
  · exact ⟨r, hsame.symm.trans hrow, rfl⟩
  · obtain rfl := Option.some.inj (hr'.symm.trans hrow)
    exact ⟨old, hold, O.overwrites w w' old⟩

/-! ## The machine -/

variable [DecidableEq ω] [DecidableEq κ]

/-- One step: an order is given once, and for a row there is; an order that has been given is carried
out. -/
def step (O : Orders ω κ ρ) (s : Register ω κ ρ) :
    Input ω → Option (Register ω κ ρ × Option (Event ω ρ))
  | .give w =>
    if w ∉ s.given ∧ (s.rows (O.key w)).isSome then
      some ({ s with given := s.given ++ [w] }, some (.given w))
    else none
  | .carryOut w =>
    if w ∈ s.given then
      (s.rows (O.key w)).map fun r =>
        ({ s with rows := update s.rows (O.key w) (some (O.carryOut w r)) },
          some (.written (O.carryOut w r)))
    else none

/-- The register as a machine. -/
def machine (O : Orders ω κ ρ) :
    Machine (Register ω κ ρ) (Input ω) (Event ω ρ) := ⟨O.step⟩

variable {i : Input ω} {o : Option (Event ω ρ)}

theorem step_give {w : ω} (hw : w ∉ s.given) (hrow : (s.rows (O.key w)).isSome) :
    O.machine.step s (.give w) = some ({ s with given := s.given ++ [w] }, some (.given w)) :=
  if_pos ⟨hw, hrow⟩

theorem step_carryOut {w : ω} {r : ρ} (hw : w ∈ s.given) (hrow : s.rows (O.key w) = some r) :
    O.machine.step s (.carryOut w) =
      some ({ s with rows := update s.rows (O.key w) (some (O.carryOut w r)) },
        some (.written (O.carryOut w r))) := by
  change (if w ∈ s.given then _ else none) = _
  rw [if_pos hw, hrow, Option.map_some]

/-- **All that a step can do.** -/
inductive StepCases (O : Orders ω κ ρ) (s : Register ω κ ρ) :
    Register ω κ ρ → Option (Event ω ρ) → Prop
  | give {w : ω} : StepCases O s { s with given := s.given ++ [w] } (some (.given w))
  | carryOut {w : ω} {r : ρ} (hw : w ∈ s.given) (hrow : s.rows (O.key w) = some r) :
      StepCases O s { s with rows := update s.rows (O.key w) (some (O.carryOut w r)) }
        (some (.written (O.carryOut w r)))

theorem step_cases (h : O.machine.step s i = some (t, o)) : StepCases O s t o := by
  cases i with
  | give w =>
    change (if _ then _ else none) = _ at h
    split at h
    · cases h
      exact .give
    · cases h
  | carryOut w =>
    change (if _ then _ else none) = _ at h
    split at h
    case isTrue hw =>
      obtain ⟨r, hrow, he⟩ := Option.map_eq_some_iff.mp h
      cases he
      exact .carryOut hw hrow
    case isFalse => cases h

/-! ## What a run leaves -/

theorem Recorded.step {s₀ : Register ω κ ρ} {τ : List (Event ω ρ)} (h : Recorded O s₀ τ s)
    (hstep : O.machine.step s i = some (t, o)) : Recorded O s₀ (τ ++ o.toList) t := by
  cases step_cases hstep with
  | @give w =>
    refine ⟨?_, fun k => (h.rows k).imp_right fun ⟨r, hr, hmade⟩ => ⟨r, hr, hmade.append _⟩⟩
    simp [h.given, Register.orders, Event.order]
  | @carryOut w r hw hrow =>
    refine ⟨by simp [h.given, Register.orders, Event.order], fun k => ?_⟩
    by_cases hk : k = O.key w
    · subst hk
      exact Or.inr ⟨_, update_self .., h.made hw hrow⟩
    · change update s.rows (O.key w) _ k = _ ∨ ∃ r', update s.rows (O.key w) _ k = _ ∧ _
      rw [update_of_ne hk]
      exact h.rows k

/-- **No history in a row.**  Whenever orders are carried out, and however often: the orders are the
ones given at first and the ones given since, each row that is written is the first one of its key
with an order carried out that had been given by then, and so is each row there is at the end, unless
it is still the first one. -/
theorem rows_run {s₀ : Register ω κ ρ} {τ : List (Event ω ρ)}
    (hrun : O.machine.Run Guard.free s₀ τ s) :
    s.given = s₀.given ++ Register.orders τ ∧
      Always (fun τ₁ e => ∀ r, e = .written r → ∃ k,
        O.Made s₀.rows (s₀.given ++ Register.orders τ₁) k r) τ ∧
      ∀ k, s.rows k = s₀.rows k ∨ ∃ r, s.rows k = some r ∧ O.Made s₀.rows s.given k r := by
  have hrec : Recorded O s₀ τ s := hrun.invariant (I := Recorded O s₀) (recorded_start O s₀)
    fun _ _ _ _ _ hI _ hstep => hI.step hstep
  refine ⟨hrec.given, ?_, hrec.rows⟩
  refine hrun.always (I := Recorded O s₀) (recorded_start O s₀)
    (fun _ _ _ _ _ hI _ hstep => hI.step hstep) ?_
  rintro τ s i t _ hI - hstep r rfl
  cases step_cases hstep with
  | @carryOut w r hw hrow =>
    rw [← hI.given]
    exact ⟨_, hI.made hw hrow⟩

end Orders

end Machinery
