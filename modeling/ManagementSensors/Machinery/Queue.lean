import Mathlib.Data.List.Basic

/-!
# Machinery/Queue — a queue whose messages may be taken in any order, and taken again

At-least-once delivery: `pick q i again` takes the message at place `i`, and leaves it in the queue
where it is going to be delivered again.  The queue is in order and delivers once where every pick
is of place `0` and not repeated (`pick_head`).
-/

namespace Machinery

variable {M : Type*}

/-- Take the message at place `i`; `again` leaves it in the queue. -/
def pick (q : List M) (i : ℕ) (again : Bool) : Option (M × List M) :=
  q[i]?.map fun m => (m, if again then q else q.eraseIdx i)

variable {q q' : List M} {i : ℕ} {again : Bool} {m m' : M}

theorem pick_mem (h : pick q i again = some (m, q')) : m ∈ q := by
  simp only [pick, Option.map_eq_some_iff, Prod.mk.injEq] at h
  obtain ⟨m', hm, rfl, -⟩ := h
  exact List.mem_of_getElem? hm

/-- What is left in the queue was in it. -/
theorem pick_sublist (h : pick q i again = some (m, q')) : List.Sublist q' q := by
  simp only [pick, Option.map_eq_some_iff, Prod.mk.injEq] at h
  obtain ⟨_, _, _, rfl⟩ := h
  split
  · exact List.Sublist.refl q
  · exact List.eraseIdx_sublist q i

theorem pick_subset (h : pick q i again = some (m, q')) (hm' : m' ∈ q') : m' ∈ q :=
  (pick_sublist h).subset hm'

/-- What is taken once is taken from between the rest. -/
theorem pick_split (h : pick q i false = some (m, q')) : ∃ l l', q = l ++ m :: l' ∧ q' = l ++ l' := by
  simp only [pick, Option.map_eq_some_iff, Prod.mk.injEq] at h
  obtain ⟨_, hm, rfl, rfl⟩ := h
  obtain ⟨hlt, rfl⟩ := List.getElem?_eq_some_iff.mp hm
  refine ⟨q.take i, q.drop (i + 1), ?_, List.eraseIdx_eq_take_drop_succ q i⟩
  rw [← List.drop_eq_getElem_cons hlt, List.take_append_drop]

/-- In order and once: the message at the head goes, and the rest stays. -/
theorem pick_head (h : pick q 0 false = some (m, q')) : q = m :: q' := by
  cases q with
  | nil => simp [pick] at h
  | cons m₀ q₀ =>
    simp only [pick, List.getElem?_cons_zero, Option.map_some, Option.some.injEq, Prod.mk.injEq] at h
    obtain ⟨rfl, rfl⟩ := h
    rfl

/-- The message that has come last can be taken before all others. -/
theorem pick_concat (q : List M) (m : M) : pick (q ++ [m]) q.length false = some (m, q) := by
  simp [pick, List.eraseIdx_append_of_length_le]

end Machinery
