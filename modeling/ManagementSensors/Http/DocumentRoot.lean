import ManagementSensors.Http.Gate
import ManagementSensors.Machinery.Path

/-!
# Http/DocumentRoot — which files a GET or HEAD can open

`handle_request` refuses a target with `..` in it, and `path_cat` joins the rest to the document root:
nothing of it goes up, so the path stays inside the root.  An empty root is not joined at all.  The
target is then the path, from the top of the file system, and only a target below the working
directory, which is where an empty root is, stays inside (`opens_inside_iff`).
-/

open Machinery

namespace ManagementSensors.QuantumSafeHttp

variable {κ A : Type} {cwd : List (List Char)}

/-- A request `handle_request` does not reject. -/
def Accepted (req : Request) : Prop :=
  (req.method = .get ∨ req.method = .head) ∧ req.target.toList.head? = some '/' ∧
    ¬ ['.', '.'] <:+: req.target.toList

instance (req : Request) : Decidable (Accepted req) := inferInstanceAs (Decidable (_ ∧ _ ∧ _))

/-- **Every file opened is inside the document root**: paths are seen by the system as C strings. -/
def OpensInside (cwd : List (List Char)) (root : String) (effects : List Effect) : Prop :=
  ∀ path, .opened path ∈ effects → Path.Inside cwd (cStr root).toList (cStr path).toList

/-! ## The path that is opened -/

/-- The target below the document root. -/
def served (target : List Char) : List Char :=
  target.tail ++ if target.getLast? = some '/' then "index.html".toList else []

/-- The path of an accepted request. -/
def pathOf (root target : String) : String :=
  pathCat root target ++ if target.toList.getLast? = some '/' then "index.html" else ""

theorem handleRequest_accepted {req : Request} (hreq : Accepted req) (h : Config A) (env : Env κ)
    (w : World κ A) :
    (handleRequest h env w req).effects = [.opened (pathOf h.documentRoot req.target)] := by
  obtain ⟨hmethod, hhead, hdots⟩ := hreq
  have hne : req.target ≠ "" := by
    intro he
    simp [he] at hhead
  rw [handleRequest, if_neg (by tauto), if_neg (by tauto)]
  simp only [pathOf]
  split <;> rfl

/-- A target that is accepted goes down. -/
theorem dots_notMem_served {target : List Char} (hdots : ¬ ['.', '.'] <:+: target) :
    ['.', '.'] ∉ Path.segments (served target) := by
  have htail : ∀ u, u <:+: target.tail → ['.', '.'] ∉ Path.segments u := fun u hu hmem =>
    hdots ((Path.infix_of_mem_segments hmem).trans (hu.trans (List.tail_suffix target).isInfix))
  rw [served]
  split
  case isFalse => simpa using htail _ List.infix_rfl
  case isTrue hlast =>
    cases htarget : target.tail with
    | nil => decide
    | cons c cs =>
      -- the slash at the end is the one before `index.html`
      obtain ⟨u, hu⟩ : ∃ u, target.tail = u ++ ['/'] := by
        have hlast' : target.tail.getLast? = some '/' := by
          cases target with
          | nil => cases hlast
          | cons d ds =>
            obtain rfl : ds = c :: cs := htarget
            simpa using hlast
        exact ⟨_, (List.dropLast_append_getLast? _ hlast').symm⟩
      rw [← htarget, hu, List.append_assoc, List.singleton_append, Path.segments_append,
        List.mem_append, not_or]
      exact ⟨htail u (hu ▸ (List.prefix_append _ _).isInfix), by decide⟩

theorem toList_pathOf {target : String} (hhead : target.toList.head? = some '/') (root : String) :
    (pathOf root target).toList =
      (if root.toList.getLast? = some '/' then root.toList.dropLast else root.toList) ++
        '/' :: served target.toList := by
  have hslash : '/' :: target.toList.tail = target.toList := List.cons_head?_tail hhead
  have hindex : (if target.toList.getLast? = some '/' then "index.html" else "").toList =
      if target.toList.getLast? = some '/' then "index.html".toList else [] := by
    split <;> rfl
  have hcat : (pathCat root target).toList =
      (if root.toList.getLast? = some '/' then root.toList.dropLast else root.toList) ++
        target.toList := by
    rw [pathCat]
    split
    case isTrue hroot => simp [hroot]
    case isFalse => split <;> simp
  rw [pathOf, String.toList_append, hindex, hcat, served, List.append_assoc, ← List.cons_append,
    hslash]

theorem noNul_served {target : List Char} (h : '\x00' ∉ target) : '\x00' ∉ served target := by
  rw [served, List.mem_append, not_or]
  refine ⟨fun hmem => h (List.mem_of_mem_tail hmem), ?_⟩
  split <;> decide

/-! ## Inside the root -/

/-- **What is joined to a root stays inside it**, as `path_cat` joins it. -/
theorem inside_join (cwd : List (List Char)) {r q : List Char} (hr : r ≠ [])
    (hq : ['.', '.'] ∉ Path.segments q) :
    Path.Inside cwd r ((if r.getLast? = some '/' then r.dropLast else r) ++ '/' :: q) := by
  split
  case isFalse => exact Path.prefix_resolve_join hr hq
  case isTrue hlast =>
    rw [← List.dropLast_append_getLast? _ hlast, List.dropLast_concat]
    generalize r.dropLast = b
    by_cases hb : b = []
    · subst hb
      rw [Path.Inside, List.nil_append, Path.resolve_slash (by decide)]
      exact List.nil_prefix
    · rw [Path.Inside, Path.resolve_concat_slash hb]
      exact Path.prefix_resolve_join hb hq

theorem toList_cStr (s : String) : (cStr s).toList = s.toList.takeWhile (· ≠ '\x00') := by
  rw [cStr, String.toList_ofList]

/-- What follows a NUL is not seen. -/
theorem cStr_of_nul {s t : String} {u v : List Char} (hs : s.toList = u ++ v) (ht : t.toList = u)
    (hnul : '\x00' ∈ u) : cStr s = cStr t := by
  obtain ⟨a, b, rfl, ha⟩ := List.eq_append_cons_of_mem hnul
  have hstop : ∀ rest, (a ++ '\x00' :: rest).takeWhile (· ≠ '\x00') = a := fun rest => by
    rw [List.takeWhile_append_of_pos fun c hc => ?_, List.takeWhile_cons_of_neg (by decide),
      List.append_nil]
    exact decide_eq_true fun he => ha (he ▸ hc)
  refine String.toList_inj.mp ?_
  rw [toList_cStr, toList_cStr, hs, ht, List.append_assoc, List.cons_append, hstop, hstop]

/-- **The path of an accepted request is inside a root that is not empty.** -/
theorem inside_pathOf {req : Request} (hreq : Accepted req) (hnul : '\x00' ∉ req.target.toList)
    {root : String} (hroot : root ≠ "") :
    Path.Inside cwd (cStr root).toList (cStr (pathOf root req.target)).toList := by
  obtain ⟨-, hhead, hdots⟩ := hreq
  have hpath := toList_pathOf hhead root
  have hsplit : ∃ v, '\x00' ∉ v ∧ root.toList =
      (if root.toList.getLast? = some '/' then root.toList.dropLast else root.toList) ++ v := by
    split
    case isTrue hlast => exact ⟨['/'], by decide, (List.dropLast_append_getLast? _ hlast).symm⟩
    case isFalse => exact ⟨[], List.not_mem_nil, (List.append_nil _).symm⟩
  have hne : root.toList ≠ [] := by simpa using hroot
  have hjoin := inside_join cwd hne (dots_notMem_served hdots)
  rw [← hpath] at hjoin
  obtain ⟨v, hnulv, hv⟩ := hsplit
  generalize (if root.toList.getLast? = some '/' then root.toList.dropLast else root.toList) = base
    at hpath hv
  by_cases hbase : '\x00' ∈ base
  · -- the path is cut where the root is
    have hofList : (String.ofList base).toList = base := String.toList_ofList
    rw [cStr_of_nul hpath hofList hbase, ← cStr_of_nul hv hofList hbase]
    exact List.prefix_rfl
  · have hnulroot : '\x00' ∉ root.toList := by
      rw [hv, List.mem_append, not_or]
      exact ⟨hbase, hnulv⟩
    rw [cStr_eq_self hnulroot, cStr_eq_self]
    · exact hjoin
    · rw [hpath, List.mem_append, List.mem_cons, not_or, not_or]
      exact ⟨hbase, by decide, noNul_served hnul⟩

/-- **When the files stay under the document root.**  For every root, every working directory and
every GET or HEAD whose target is not rejected: the file opened is inside the root exactly where the
root is not empty, or the target names something below the working directory. -/
theorem opens_inside_iff (h : Config A) (env : Env κ) (w : World κ A) (cwd : List (List Char))
    {req : Request} (hreq : Accepted req) (hnul : '\x00' ∉ req.target.toList) :
    OpensInside cwd h.documentRoot (handleRequest h env w req).effects ↔
      h.documentRoot ≠ "" ∨ cwd <+: Path.names (served req.target.toList) := by
  have heffects : OpensInside cwd h.documentRoot (handleRequest h env w req).effects ↔
      Path.Inside cwd (cStr h.documentRoot).toList
        (cStr (pathOf h.documentRoot req.target)).toList := by
    simp [OpensInside, handleRequest_accepted hreq]
  rw [heffects]
  by_cases hroot : h.documentRoot = ""
  · -- the target is the path
    obtain ⟨-, hhead, hdots⟩ := hreq
    have hpath : (pathOf "" req.target).toList = '/' :: served req.target.toList :=
      toList_pathOf hhead ""
    have hnulpath : '\x00' ∉ (pathOf "" req.target).toList := by
      rw [hpath, List.mem_cons, not_or]
      exact ⟨by decide, noNul_served hnul⟩
    have hcwd : Path.resolve cwd (cStr "").toList = cwd := rfl
    rw [hroot, Path.Inside, hcwd, cStr_eq_self hnulpath, hpath,
      Path.resolve_slash (dots_notMem_served hdots)]
    simp
  · exact iff_of_true (inside_pathOf hreq hnul hroot) (Or.inl hroot)

/-- A request for a file. -/
def fileRequest (target : String) : Request := ⟨.get, target, [], true, ""⟩

/-- A directory under the root `/srv`. -/
theorem opens_inside_srv : OpensInside ["home".toList] oneToken.documentRoot
    (handleRequest oneToken quietEnv issuedOne (fileRequest "/pages/")).effects :=
  (opens_inside_iff oneToken quietEnv issuedOne ["home".toList] (by decide) (by decide)).mpr
    (Or.inl (by decide))

/-- **An empty root is none**: the constructor's default serves `/etc/passwd`. -/
theorem not_opens_inside : ¬ ∀ (root : String) (req : Request), Accepted req →
    '\x00' ∉ req.target.toList → OpensInside ["srv".toList] root
      (handleRequest { oneToken with documentRoot := root } quietEnv issuedOne req).effects := by
  intro h
  have hmem : Effect.opened "/etc/passwd" ∈ (handleRequest { oneToken with documentRoot := "" }
      quietEnv issuedOne (fileRequest "/etc/passwd")).effects := by decide
  exact absurd (h "" (fileRequest "/etc/passwd") (by decide) (by decide) _ hmem) (by decide)

end ManagementSensors.QuantumSafeHttp
