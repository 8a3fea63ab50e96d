import Mathlib.Data.List.Infix

/-!
# Machinery/Path — how a path is resolved, and which paths stay below it

A path is split at its slashes; an empty segment and `.` stay where they are, `..` goes up.  What is
appended to a path without a `..` stays below it (`prefix_resolve_join`).  Directories are the lists
of names that lead to them; there are no symbolic links.
-/

namespace Machinery.Path

/-- What is between the slashes. -/
def segments (p : List Char) : List (List Char) := p.splitOn '/'

/-- One segment, from a directory. -/
def enter (dir : List (List Char)) (name : List Char) : List (List Char) :=
  if name = [] ∨ name = ['.'] then dir
  else if name = ['.', '.'] then dir.dropLast
  else dir ++ [name]

/-- Where a path leads from the working directory `cwd`. -/
def resolve (cwd : List (List Char)) (p : List Char) : List (List Char) :=
  (segments p).foldl enter (if p.head? = some '/' then [] else cwd)

/-- **Inside**: `p` leads to `root`, or to something below it. -/
def Inside (cwd : List (List Char)) (root p : List Char) : Prop :=
  resolve cwd root <+: resolve cwd p

instance (cwd : List (List Char)) (root p : List Char) : Decidable (Inside cwd root p) :=
  inferInstanceAs (Decidable (_ <+: _))

/-! ## Segments -/

theorem segments_append (p q : List Char) : segments (p ++ '/' :: q) = segments p ++ segments q :=
  List.splitOn_append_cons_self p q

theorem segments_of_notMem {p : List Char} (h : '/' ∉ p) : segments p = [p] :=
  List.splitOn_eq_singleton h

/-- A segment is a part of its path. -/
theorem infix_of_mem_segments {p name : List Char} (h : name ∈ segments p) : name <:+: p := by
  by_cases hslash : '/' ∈ p
  · obtain ⟨u, v, rfl, hu⟩ := List.eq_append_cons_of_mem hslash
    rw [segments_append, segments_of_notMem hu, List.singleton_append, List.mem_cons] at h
    rcases h with rfl | h
    · exact (List.prefix_append _ _).isInfix
    · exact (infix_of_mem_segments h).trans ((List.suffix_cons _ _).trans
        (List.suffix_append _ _)).isInfix
  · rw [segments_of_notMem hslash, List.mem_singleton] at h
    rw [h]
termination_by p.length

/-! ## Resolution -/

variable {cwd dir : List (List Char)}

@[simp] theorem enter_nil (dir : List (List Char)) : enter dir [] = dir := if_pos (Or.inl rfl)

/-- The segments that name something below. -/
def names (p : List Char) : List (List Char) := (segments p).filter fun name => name ≠ [] ∧ name ≠ ['.']

/-- Segments without a `..` go down. -/
theorem foldl_enter_eq {steps : List (List Char)} (h : ['.', '.'] ∉ steps) :
    steps.foldl enter dir = dir ++ steps.filter fun name => name ≠ [] ∧ name ≠ ['.'] := by
  induction steps generalizing dir with
  | nil => simp
  | cons name steps ih =>
    rw [List.mem_cons, not_or] at h
    rw [List.foldl_cons, ih h.2, List.filter_cons, enter, if_neg (Ne.symm h.1)]
    by_cases hstay : name = [] ∨ name = ['.']
    · rw [if_pos hstay, if_neg]
      simpa using fun hne => hstay.resolve_left hne
    · rw [if_neg hstay, if_pos (by simpa using hstay)]
      simp

theorem foldl_enter_segments {p : List Char} (h : ['.', '.'] ∉ segments p) :
    (segments p).foldl enter dir = dir ++ names p := foldl_enter_eq h

/-- A path that is joined to another is followed from there. -/
theorem resolve_join {p : List Char} (hp : p ≠ []) (q : List Char) :
    resolve cwd (p ++ '/' :: q) = (segments q).foldl enter (resolve cwd p) := by
  rw [resolve, segments_append, List.foldl_append, List.head?_append_of_ne_nil _ hp, resolve]

/-- A path from the top. -/
theorem resolve_slash {q : List Char} (hq : ['.', '.'] ∉ segments q) :
    resolve cwd ('/' :: q) = names q := by
  have htop : resolve cwd ('/' :: q) = (segments q).foldl enter [] := by
    rw [resolve, List.head?_cons, if_pos rfl, ← List.nil_append ('/' :: q), segments_append,
      List.foldl_append]
    rfl
  rw [htop, foldl_enter_segments hq, List.nil_append]

/-- A slash at the end changes nothing. -/
theorem resolve_concat_slash {p : List Char} (hp : p ≠ []) :
    resolve cwd (p ++ ['/']) = resolve cwd p := by
  rw [resolve_join hp]
  rfl

/-- **What is joined to a path stays inside it**, unless it goes up. -/
theorem prefix_resolve_join {p q : List Char} (hp : p ≠ []) (hq : ['.', '.'] ∉ segments q) :
    resolve cwd p <+: resolve cwd (p ++ '/' :: q) := by
  rw [resolve_join hp, foldl_enter_segments hq]
  exact List.prefix_append _ _

end Machinery.Path
