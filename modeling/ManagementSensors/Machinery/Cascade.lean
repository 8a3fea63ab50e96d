import Mathlib.Data.List.Basic

/-!
# Machinery/Cascade — foreign keys, and deletions that cascade along them

The tables of a schema are lists of rows, indexed by name.  A set of rows that takes with it every
row that refers to one of them can be removed: what is left refers to what is left (`Holds.remove`).
-/

namespace Machinery

variable {τ κ : Type*} {Row : τ → Type*}

/-- **A foreign key** of the rows of one table, for the rows of another; `none` is NULL. -/
structure Reference (Row : τ → Type*) (κ : Type*) where
  child : τ
  parent : τ
  foreign : Row child → Option κ
  primary : Row parent → κ

/-- The tables without the rows that are dead. -/
def remove (dead : ∀ t, Row t → Bool) (T : ∀ t, List (Row t)) : ∀ t, List (Row t) :=
  fun t => (T t).filter fun r => !dead t r

theorem mem_remove {dead : ∀ t, Row t → Bool} {T : ∀ t, List (Row t)} {t : τ} {r : Row t} :
    r ∈ remove dead T t ↔ r ∈ T t ∧ dead t r = false := by
  rw [remove, List.mem_filter, Bool.not_eq_true']

/-- A removal keeps keys unique. -/
theorem nodup_remove {α : Type*} {dead : ∀ t, Row t → Bool} {T : ∀ t, List (Row t)} {t : τ}
    {f : Row t → α} (h : ((T t).map f).Nodup) : ((remove dead T t).map f).Nodup :=
  h.sublist (List.filter_sublist.map f)

namespace Reference

/-- Every key that is not NULL is that of a row. -/
def Holds (ρ : Reference Row κ) (T : ∀ t, List (Row t)) : Prop :=
  ∀ r ∈ T ρ.child, ∀ k, ρ.foreign r = some k → ∃ p ∈ T ρ.parent, ρ.primary p = k

/-- `ON DELETE CASCADE`: a row goes with the one it refers to. -/
def drags [DecidableEq κ] (ρ : Reference Row κ) (T : ∀ t, List (Row t)) (dead : Row ρ.parent → Bool)
    (r : Row ρ.child) : Bool :=
  (T ρ.parent).any fun p => dead p && decide (ρ.foreign r = some (ρ.primary p))

/-- **A cascade leaves no reference without its row.** -/
theorem Holds.remove [DecidableEq κ] {ρ : Reference Row κ} {T : ∀ t, List (Row t)}
    {dead : ∀ t, Row t → Bool} (h : ρ.Holds T)
    (hclosed : ∀ r, ρ.drags T (dead ρ.parent) r = true → dead ρ.child r = true) :
    ρ.Holds (remove dead T) := by
  intro r hr k hk
  obtain ⟨hmem, halive⟩ := mem_remove.mp hr
  obtain ⟨p, hp, rfl⟩ := h r hmem k hk
  refine ⟨p, mem_remove.mpr ⟨hp, Bool.eq_false_iff.mpr fun hdead => ?_⟩, rfl⟩
  have hdrag : ρ.drags T (dead ρ.parent) r = true :=
    List.any_eq_true.mpr ⟨p, hp, by rw [hdead, hk, decide_eq_true rfl, Bool.and_self]⟩
  rw [hclosed r hdrag] at halive
  cases halive

end Reference

end Machinery
