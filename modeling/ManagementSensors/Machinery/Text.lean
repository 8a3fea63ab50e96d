import Mathlib.Data.List.Infix

/-!
# Machinery/Text — positions in a string, and lines

`find` is the first position, from a given one on, at which a pattern stands; `substr` is what stands
from a position on.  A pattern is found where the text before it does not hold the first of its
characters (`find_append`), and is not found in a text that does not hold it (`find_of_notMem`).

Lines that do not hold what ends them are told apart in the text they make (`unlines_injective`).
-/

namespace Machinery.Text

variable {α : Type*}

/-- `s.find(pattern, pos)`; `none` is `npos`. -/
def find [DecidableEq α] (pattern s : List α) (pos : ℕ) : Option ℕ :=
  (List.range' pos (s.length + 1 - pos)).find? fun i => pattern.isPrefixOf (s.drop i)

/-- `s.substr(pos, len)`; without a length, up to the end.  Past the end, where C++ throws, there is
nothing. -/
def substr (s : List α) (pos : ℕ) : Option ℕ → List α
  | none => s.drop pos
  | some len => (s.drop pos).take len

/-- Lines, each followed by what ends it. -/
def unlines (sep : α) (us : List (List α)) : List α := us.flatMap (· ++ [sep])

variable {w s p u v : List α} {c : α} {pos i : ℕ}

/-- A line that does not hold what ends it is what stands before that. -/
theorem append_cons_inj (hu : c ∉ u) (hv : c ∉ v) (h : u ++ c :: s = v ++ c :: w) :
    u = v ∧ s = w := by
  induction u generalizing v with
  | nil =>
    cases v with
    | nil => exact ⟨rfl, (List.cons.inj h).2⟩
    | cons d v => exact absurd ((List.cons.inj h).1 ▸ List.mem_cons_self) hv
  | cons d u ih =>
    cases v with
    | nil => exact absurd ((List.cons.inj h).1 ▸ List.mem_cons_self) hu
    | cons e v =>
      obtain ⟨rfl, htail⟩ := List.cons.inj h
      obtain ⟨rfl, hrest⟩ := ih (fun hc => hu (List.mem_cons_of_mem _ hc))
        (fun hc => hv (List.mem_cons_of_mem _ hc)) htail
      exact ⟨rfl, hrest⟩

/-- **Lines are read back** from the text they make. -/
theorem unlines_injective {us vs : List (List α)} (hus : ∀ u ∈ us, c ∉ u) (hvs : ∀ v ∈ vs, c ∉ v)
    (h : unlines c us = unlines c vs) : us = vs := by
  induction us generalizing vs with
  | nil =>
    cases vs with
    | nil => rfl
    | cons v vs => simp [unlines] at h
  | cons u us ih =>
    cases vs with
    | nil => simp [unlines] at h
    | cons v vs =>
      obtain ⟨hu, hus'⟩ := List.forall_mem_cons.mp hus
      obtain ⟨hv, hvs'⟩ := List.forall_mem_cons.mp hvs
      rw [unlines, unlines, List.flatMap_cons, List.flatMap_cons, List.append_assoc, List.append_assoc]
        at h
      obtain ⟨rfl, hrest⟩ := append_cons_inj hu hv h
      rw [ih hus' hvs' hrest]

/-- A pattern does not stand where its first character does not. -/
theorem not_prefix_drop (h : c ∉ u) {j : ℕ} (hp : p.length ≤ j) (hj : j < p.length + u.length) :
    ¬ c :: w <+: (p ++ (u ++ v)).drop j := by
  obtain ⟨k, rfl⟩ := Nat.exists_eq_add_of_le hp
  have hk : k < u.length := by omega
  rw [List.drop_length_add_append, List.drop_append_of_le_length hk.le, List.drop_eq_getElem_cons hk,
    List.cons_append, List.cons_prefix_cons]
  rintro ⟨rfl, -⟩
  exact h (List.getElem_mem hk)

variable [DecidableEq α]

theorem find_eq_some_iff : find w s pos = some i ↔
    (pos ≤ i ∧ i ≤ s.length ∧ w <+: s.drop i) ∧
      ∀ j, pos ≤ j → j < i → ¬ w <+: s.drop j := by
  rw [find, List.find?_range'_eq_some]
  simp only [List.isPrefixOf_iff_prefix, List.mem_range'_1, Bool.not_eq_true']
  constructor
  · rintro ⟨hi, ⟨hpos, hlt⟩, hfirst⟩
    refine ⟨⟨hpos, by omega, hi⟩, fun j hj hlt hpre => ?_⟩
    simpa [List.isPrefixOf_iff_prefix.mpr hpre] using hfirst j hj hlt
  · rintro ⟨⟨hpos, hle, hi⟩, hfirst⟩
    refine ⟨hi, ⟨hpos, by omega⟩, fun j hj hlt => ?_⟩
    rw [Bool.eq_false_iff, ne_eq, List.isPrefixOf_iff_prefix]
    exact hfirst j hj hlt

theorem find_eq_none_iff : find w s pos = none ↔
    ∀ j, pos ≤ j → j ≤ s.length → ¬ w <+: s.drop j := by
  rw [find, List.find?_eq_none]
  simp only [List.mem_range'_1, List.isPrefixOf_iff_prefix]
  exact ⟨fun h j hj hle => h j ⟨hj, by omega⟩, fun h j hj => h j hj.1 (by omega)⟩

/-- **A pattern is found** behind a text that does not hold its first character. -/
theorem find_append (h : c ∉ u) :
    find (c :: w) (p ++ (u ++ (c :: w ++ v))) p.length = some (p.length + u.length) := by
  refine find_eq_some_iff.mpr ⟨⟨Nat.le_add_right _ _, by simp, ?_⟩, fun j hp hj =>
    not_prefix_drop h hp hj⟩
  rw [List.drop_length_add_append, List.drop_left]
  exact List.prefix_append _ _

/-- …and not in a text that does not hold it. -/
theorem find_of_notMem (h : c ∉ u) : find (c :: w) (p ++ u) p.length = none := by
  refine find_eq_none_iff.mpr fun j hp hj hpre => ?_
  rcases Nat.lt_or_ge j (p.length + u.length) with hlt | hge
  · rw [← List.append_nil u] at hpre
    exact not_prefix_drop h hp hlt hpre
  · rw [List.drop_eq_nil_of_le (by simpa using hge)] at hpre
    exact absurd (List.prefix_nil.mp hpre) (List.cons_ne_nil _ _)

end Machinery.Text
