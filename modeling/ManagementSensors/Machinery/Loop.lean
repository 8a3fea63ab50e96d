import Mathlib.Data.Nat.Init

/-!
# Machinery/Loop — a loop of the program, why it ends and what it leaves with

A round of a loop leaves it, or goes on from another state.  Two rules: a measure that every round
brings down bounds the rounds (`isSome_loop`), and what every round keeps is known of what the loop
leaves with (`loop_rule`).
-/

namespace Machinery

variable {σ ρ : Type*}

/-- What a loop leaves with, if it does so within `fuel` rounds. -/
def loop (body : σ → ρ ⊕ σ) : ℕ → σ → Option ρ
  | 0, _ => none
  | fuel + 1, s =>
    match body s with
    | .inl r => some r
    | .inr t => loop body fuel t

variable {body : σ → ρ ⊕ σ}

/-- **The termination rule.** -/
theorem isSome_loop {μ : σ → ℕ} (hμ : ∀ s t, body s = .inr t → μ t < μ s) {fuel : ℕ} {s : σ}
    (h : μ s < fuel) : (loop body fuel s).isSome := by
  induction fuel generalizing s with
  | zero => exact absurd h (Nat.not_lt_zero _)
  | succ fuel ih =>
    rw [loop]
    cases hs : body s with
    | inl r => rfl
    | inr t => exact ih (Nat.lt_of_lt_of_le (hμ s t hs) (Nat.le_of_lt_succ h))

/-- **The rule of a loop's invariant.** -/
theorem loop_rule {I : σ → Prop} {Q : ρ → Prop} (hnext : ∀ s t, I s → body s = .inr t → I t)
    (hexit : ∀ s r, I s → body s = .inl r → Q r) {fuel : ℕ} {s : σ} {r : ρ} (hs : I s)
    (h : loop body fuel s = some r) : Q r := by
  induction fuel generalizing s with
  | zero => cases h
  | succ fuel ih =>
    rw [loop] at h
    cases hbody : body s with
    | inl r' =>
      rw [hbody] at h
      obtain rfl : r' = r := Option.some.inj h
      exact hexit s r' hs hbody
    | inr t =>
      rw [hbody] at h
      exact ih (hnext s t hs hbody) h

end Machinery
