import ManagementSensors.Machinery.Run

/-!
# Machinery/History — a machine that keeps a history of its steps

Beside the state a history is kept, which every step writes and no step reads, and an event is seen
together with what the history says of its step.  Nothing the machine can do is lost or gained: a run
with a history is a run (`Run.forget`), and every run has one (`Run.exists_history`).
-/

namespace Machinery

variable {σ ι ο η ν : Type*}

/-- A condition on the steps of a machine, where a history is kept. -/
def Guard.withHistory (C : Guard σ ι ο) : Guard (σ × η) ι (ο × ν) := fun τ x i =>
  C (τ.map Prod.fst) x.1 i

instance {C : Guard σ ι ο} [∀ τ s i, Decidable (C τ s i)] (τ : List (ο × ν)) (x : σ × η) (i : ι) :
    Decidable (C.withHistory τ x i) := inferInstanceAs (Decidable (C _ _ _))

namespace Machine

/-- **A machine with a history.**  `upd` is the history after a step, `see` what it says of the step an
input takes. -/
def withHistory (M : Machine σ ι ο) (upd : η → ι → Option ο → η) (see : η → ι → ν) :
    Machine (σ × η) ι (ο × ν) where
  step x i := (M.step x.1 i).map fun y => ((y.1, upd x.2 i y.2), y.2.map fun e => (e, see x.2 i))

variable {M : Machine σ ι ο} {upd : η → ι → Option ο → η} {see : η → ι → ν} {x y : σ × η} {i : ι}
  {o : Option (ο × ν)} {τ : List (ο × ν)}

/-- A step of the machine, its history and what is seen of it. -/
theorem withHistory_step (h : (M.withHistory upd see).step x i = some (y, o)) :
    M.step x.1 i = some (y.1, o.map Prod.fst) ∧ y.2 = upd x.2 i (o.map Prod.fst) ∧
      ∀ e ∈ o, e.2 = see x.2 i := by
  obtain ⟨⟨t, o'⟩, hstep, he⟩ := Option.map_eq_some_iff.mp h
  cases he
  cases o' <;> simp [hstep]

theorem step_withHistory {s t : σ} {a : η} {o : Option ο} (h : M.step s i = some (t, o)) :
    (M.withHistory upd see).step (s, a) i =
      some ((t, upd a i o), o.map fun e => (e, see a i)) := by
  simp [withHistory, h]

theorem map_append_toList (τ : List (ο × ν)) (o : Option (ο × ν)) :
    (τ ++ o.toList).map Prod.fst = τ.map Prod.fst ++ (o.map Prod.fst).toList := by
  cases o <;> simp

/-- **A run with a history is a run.** -/
theorem Run.forget {C : Guard (σ × η) ι (ο × ν)} (h : (M.withHistory upd see).Run C x τ y) :
    M.Run Guard.free x.1 (τ.map Prod.fst) y.1 := by
  induction h with
  | nil => exact .nil
  | snoc _ _ hstep ih =>
    rw [map_append_toList]
    exact ih.snoc trivial (withHistory_step hstep).1

/-- **Every run has a history.** -/
theorem Run.exists_history {C : Guard σ ι ο} {s₀ s : σ} {τ : List ο} (h : M.Run C s₀ τ s)
    (upd : η → ι → Option ο → η) (see : η → ι → ν) (a₀ : η) :
    ∃ τ' a, (M.withHistory upd see).Run C.withHistory (s₀, a₀) τ' (s, a) ∧
      τ'.map Prod.fst = τ := by
  induction h with
  | nil => exact ⟨[], a₀, .nil, rfl⟩
  | @snoc τ s t i o _ hC hstep ih =>
    obtain ⟨τ', a, hrun, rfl⟩ := ih
    refine ⟨_, upd a i o, hrun.snoc hC (step_withHistory hstep), ?_⟩
    cases o <;> simp

end Machine

end Machinery
