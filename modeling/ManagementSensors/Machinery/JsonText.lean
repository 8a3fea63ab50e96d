import ManagementSensors.Machinery.JsonLexer

/-!
# Machinery/JsonText — the value of a JSON text

    tokens ──State.next──▸ value

A run again, with the arrays and objects that are open on a stack, so that there is no limit of depth.
A value is read from its tokens wherever it stands (`Reads`), an array and an object from those of their
parts (`reads_array`, `reads_object`), and no value outweighs its tokens (`Reads.weight_le`).
-/

namespace Machinery.Json

/-! ## From tokens to values -/

/-- An array or an object that is not complete. -/
inductive Frame
  | element (xs : List (Json (List Char)))
  | member (kvs : List (List Char × Json (List Char))) (k : List Char)

/-- What may come next, under the frames that are open. -/
inductive State
  | value (stack : List Frame)
  | firstElement (stack : List Frame)
  | firstKey (stack : List Frame)
  | key (kvs : List (List Char × Json (List Char))) (stack : List Frame)
  | colon (kvs : List (List Char × Json (List Char))) (k : List Char) (stack : List Frame)
  | done (v : Json (List Char)) (stack : List Frame)

/-- A token where a value begins. -/
def beginValue (stack : List Frame) : Token → Option State
  | .openObject => some (.firstKey stack)
  | .openArray => some (.firstElement stack)
  | .string s => some (.done (.string s) stack)
  | .atom v => some (.done v stack)
  | _ => none

/-- One token.  Of two members with the same key the later one is kept. -/
def State.next : State → Token → Option State
  | .value stack, t => beginValue stack t
  | .firstElement stack, .closeArray => some (.done (.array []) stack)
  | .firstElement stack, t => beginValue (.element [] :: stack) t
  | .firstKey stack, .closeObject => some (.done (.object []) stack)
  | .firstKey stack, .string k => some (.colon [] k stack)
  | .key kvs stack, .string k => some (.colon kvs k stack)
  | .colon kvs k stack, .colon => some (.value (.member kvs k :: stack))
  | .done v (.element xs :: stack), .comma => some (.value (.element (xs ++ [v]) :: stack))
  | .done v (.element xs :: stack), .closeArray => some (.done (.array (xs ++ [v])) stack)
  | .done v (.member kvs k :: stack), .comma => some (.key (setMember k v kvs) stack)
  | .done v (.member kvs k :: stack), .closeObject => some (.done (.object (setMember k v kvs)) stack)
  | _, _ => none

/-- Some tokens, one after the other. -/
def runTokens : State → List Token → Option State
  | s, [] => some s
  | s, t :: ts => (s.next t).bind fun s' => runTokens s' ts

/-- The value that is complete. -/
def State.result : State → Option (Json (List Char))
  | .done v [] => some v
  | _ => none

/-- **The value of a text.** -/
def parse (number : List Char → Option Atom) (t : List Char) : Option (Json (List Char)) := do
  let ts ← lex number t
  let s ← runTokens (.value []) ts
  s.result

/-! ## Values -/

section Values

variable {s s' : State} {t : Token} {ts us : List Token} {v w : Json (List Char)}
  {stack : List Frame}

theorem runTokens_append : runTokens s (ts ++ us) = (runTokens s ts).bind (runTokens · us) := by
  induction ts generalizing s with
  | nil => rfl
  | cons t ts ih =>
    rw [List.cons_append, runTokens, runTokens, Option.bind_assoc]
    exact Option.bind_congr fun _ _ => ih

/-- With more frames under those that are open. -/
def State.over : State → List Frame → State
  | .value stack, below => .value (stack ++ below)
  | .firstElement stack, below => .firstElement (stack ++ below)
  | .firstKey stack, below => .firstKey (stack ++ below)
  | .key kvs stack, below => .key kvs (stack ++ below)
  | .colon kvs k stack, below => .colon kvs k (stack ++ below)
  | .done v stack, below => .done v (stack ++ below)

theorem beginValue_over (below : List Frame) (h : beginValue stack t = some s) :
    beginValue (stack ++ below) t = some (s.over below) := by
  cases t <;> cases h <;> rfl

/-- A token where the first element of an array may stand. -/
theorem next_firstElement (ht : t ≠ .closeArray) :
    (State.firstElement stack).next t = beginValue (.element [] :: stack) t := by
  cases t <;> first | rfl | exact absurd rfl ht

/-- A token sees no more of the stack than it has to. -/
theorem next_over (below : List Frame) (h : s.next t = some s') :
    (s.over below).next t = some (s'.over below) := by
  fun_cases State.next s t with
  | case1 => exact beginValue_over below h
  | case3 stack t hne =>
    rw [next_firstElement hne] at h
    rw [State.over, next_firstElement hne]
    exact beginValue_over below h
  | case12 =>
    simp_all [State.next]
  | _ =>
    cases h
    rfl

theorem runTokens_over (below : List Frame) (h : runTokens s ts = some s') :
    runTokens (s.over below) ts = some (s'.over below) := by
  induction ts generalizing s with
  | nil =>
    cases h
    rfl
  | cons t ts ih =>
    obtain ⟨s₁, hnext, hrun⟩ := Option.bind_eq_some_iff.mp h
    rw [runTokens, next_over below hnext]
    exact ih hrun

/-- **The tokens are those of the value**, wherever a value may stand. -/
def Reads (ts : List Token) (v : Json (List Char)) : Prop :=
  ∀ stack, runTokens (.value stack) ts = some (.done v stack)

theorem reads_iff : Reads ts v ↔ (runTokens (.value []) ts).bind State.result = some v := by
  constructor
  · intro h
    rw [h [], Option.bind_some]
    rfl
  · intro h stack
    obtain ⟨s, hrun, hresult⟩ := Option.bind_eq_some_iff.mp h
    unfold State.result at hresult
    split at hresult
    · cases hresult
      exact runTokens_over stack hrun
    · cases hresult

theorem parse_eq_some {number : List Char → Option Atom} {u : List Char} :
    parse number u = some v ↔ ∃ ts, lex number u = some ts ∧ Reads ts v := by
  simp only [reads_iff, parse, Option.bind_eq_bind, Option.bind_eq_some_iff]

/-- A value has a first token, and it closes no array. -/
theorem Reads.cons (h : Reads ts v) : ∃ t us, ts = t :: us ∧ t ≠ .closeArray := by
  cases ts with
  | nil => cases h []
  | cons t us =>
    refine ⟨t, us, rfl, ?_⟩
    rintro rfl
    cases h []

/-- The elements of an array, after those in `xs`. -/
theorem runTokens_elements {tss : List (List Token)} {ys : List (Json (List Char))}
    (stack : List Frame) (h : List.Forall₂ Reads tss ys) (hne : tss ≠ []) (xs : List (Json (List Char))) :
    runTokens (.value (.element xs :: stack)) ([Token.comma].intercalate tss ++ [.closeArray]) =
      some (.done (.array (xs ++ ys)) stack) := by
  induction h generalizing xs with
  | nil => exact absurd rfl hne
  | @cons ts y tss ys hy htss ih =>
    cases tss with
    | nil =>
      cases htss
      rw [List.intercalate_singleton, runTokens_append, hy]
      rfl
    | cons ts' tss =>
      rw [List.intercalate_cons_cons, List.append_assoc, List.append_assoc, runTokens_append, hy]
      exact (ih (List.cons_ne_nil _ _) (xs ++ [y])).trans (by simp)

/-- **An array** is read element by element. -/
theorem reads_array {tss : List (List Token)} {ys : List (Json (List Char))}
    (h : List.Forall₂ Reads tss ys) :
    Reads (.openArray :: ([Token.comma].intercalate tss ++ [.closeArray])) (.array ys) := by
  intro stack
  cases h with
  | nil => rfl
  | @cons ts y tss ys hy htss =>
    have hread := runTokens_elements stack (.cons hy htss) (List.cons_ne_nil _ _) []
    obtain ⟨t, us, rfl, ht⟩ := hy.cons
    obtain ⟨rest, hrest⟩ : ∃ rest, [Token.comma].intercalate ((t :: us) :: tss) ++ [.closeArray] =
        t :: rest := by
      cases tss with
      | nil => exact ⟨_, by rw [List.intercalate_singleton]; rfl⟩
      | cons => exact ⟨_, by rw [List.intercalate_cons_cons]; rfl⟩
    rw [hrest] at hread ⊢
    change (State.next (.firstElement stack) t).bind (runTokens · rest) = _
    rw [next_firstElement ht]
    exact hread

/-- The tokens of a member. -/
def ReadsMember (ms : List Token) (p : List Char × Json (List Char)) : Prop :=
  ∃ ts, ms = .string p.1 :: .colon :: ts ∧ Reads ts p.2

/-- The members of an object, after those in `kvs`. -/
theorem runTokens_members {mss : List (List Token)} {ws : List (List Char × Json (List Char))}
    (stack : List Frame) (h : List.Forall₂ ReadsMember mss ws) (hne : mss ≠ [])
    (kvs : List (List Char × Json (List Char))) (hkeys : ((kvs ++ ws).map Prod.fst).Nodup) :
    runTokens (.key kvs stack) ([Token.comma].intercalate mss ++ [.closeObject]) =
      some (.done (.object (kvs ++ ws)) stack) := by
  induction h generalizing kvs with
  | nil => exact absurd rfl hne
  | @cons ms p mss ws hp hmss ih =>
    obtain ⟨k, v⟩ := p
    obtain ⟨ts, rfl, hv⟩ := hp
    have hnew : setMember k v kvs = kvs ++ [(k, v)] := by
      refine setMember_of_notMem fun hmem => ?_
      rw [List.map_append, List.nodup_append] at hkeys
      exact hkeys.2.2 k hmem k (by simp) rfl
    have hmember : ∀ rest, runTokens (.key kvs stack) ((.string k :: .colon :: ts) ++ rest) =
        runTokens (.done v (.member kvs k :: stack)) rest := fun rest => by
      change runTokens (.value (.member kvs k :: stack)) (ts ++ rest) = _
      rw [runTokens_append, hv]
      rfl
    cases mss with
    | nil =>
      cases hmss
      rw [List.intercalate_singleton, hmember, ← hnew]
      rfl
    | cons ms' mss =>
      rw [List.intercalate_cons_cons, List.append_assoc, List.append_assoc, hmember]
      have hrest := ih (List.cons_ne_nil _ _) (kvs ++ [(k, v)]) (by simpa using hkeys)
      rw [← hnew] at hrest
      exact hrest.trans (by simp [hnew])

/-- **An object** is read member by member, where no key is given twice. -/
theorem reads_object {mss : List (List Token)} {ws : List (List Char × Json (List Char))}
    (h : List.Forall₂ ReadsMember mss ws) (hkeys : (ws.map Prod.fst).Nodup) :
    Reads (.openObject :: ([Token.comma].intercalate mss ++ [.closeObject])) (.object ws) := by
  intro stack
  cases h with
  | nil => rfl
  | @cons ms p mss ws hp hmss =>
    have hread := runTokens_members stack (.cons hp hmss) (List.cons_ne_nil _ _) [] hkeys
    obtain ⟨ts, rfl, -⟩ := hp
    obtain ⟨rest, hrest⟩ : ∃ rest, [Token.comma].intercalate
        ((.string p.1 :: .colon :: ts) :: mss) ++ [.closeObject] = .string p.1 :: rest := by
      cases mss with
      | nil => exact ⟨_, by rw [List.intercalate_singleton]; rfl⟩
      | cons => exact ⟨_, by rw [List.intercalate_cons_cons]; rfl⟩
    rw [hrest] at hread ⊢
    exact hread

/-! ## The weight of what is read -/

mutual

/-- The length of all the texts a value holds, its keys among them. -/
def weight : Json (List Char) → ℕ
  | .string s => s.length
  | .array xs => elementsWeight xs
  | .object kvs => membersWeight kvs
  | .null | .bool _ | .int64 _ | .uint64 _ | .double _ => 0

def elementsWeight : List (Json (List Char)) → ℕ
  | [] => 0
  | x :: xs => x.weight + elementsWeight xs

def membersWeight : List (List Char × Json (List Char)) → ℕ
  | [] => 0
  | (k, v) :: kvs => k.length + v.weight + membersWeight kvs

end

theorem elementsWeight_eq (xs : List (Json (List Char))) :
    elementsWeight xs = (xs.map weight).sum := by
  induction xs with
  | nil => rfl
  | cons x xs ih => rw [elementsWeight, ih, List.map_cons, List.sum_cons]

theorem membersWeight_eq (kvs : List (List Char × Json (List Char))) :
    membersWeight kvs = (kvs.map fun p => p.1.length + p.2.weight).sum := by
  induction kvs with
  | nil => rfl
  | cons p kvs ih => rw [membersWeight, ih, List.map_cons, List.sum_cons]

theorem weight_of_isAtom {v : Json (List Char)} (h : v.isAtom = true) : v.weight = 0 := by
  cases v with
  | null | bool | int64 | uint64 | double => rfl
  | string | array | object => cases h

@[simp] theorem elementsWeight_append (xs ys : List (Json (List Char))) :
    elementsWeight (xs ++ ys) = elementsWeight xs + elementsWeight ys := by
  rw [elementsWeight_eq, List.map_append, List.sum_append, ← elementsWeight_eq, ← elementsWeight_eq]

theorem membersWeight_setMember (k : List Char) (v : Json (List Char))
    (kvs : List (List Char × Json (List Char))) :
    membersWeight (setMember k v kvs) ≤ membersWeight kvs + (k.length + v.weight) := by
  induction kvs with
  | nil => simp [setMember, membersWeight]
  | cons p kvs ih =>
    rw [setMember]
    split
    · simp only [membersWeight]
      omega
    · simp only [membersWeight]
      omega

def Frame.weight : Frame → ℕ
  | .element xs => elementsWeight xs
  | .member kvs k => membersWeight kvs + k.length

/-- Of the values that are not complete. -/
def stackWeight (stack : List Frame) : ℕ := (stack.map Frame.weight).sum

@[simp] theorem stackWeight_cons (f : Frame) (stack : List Frame) :
    stackWeight (f :: stack) = f.weight + stackWeight stack := List.sum_cons

def State.weight : State → ℕ
  | .value stack | .firstElement stack | .firstKey stack => stackWeight stack
  | .key kvs stack => membersWeight kvs + stackWeight stack
  | .colon kvs k stack => membersWeight kvs + k.length + stackWeight stack
  | .done v stack => v.weight + stackWeight stack

theorem weight_beginValue (h : beginValue stack t = some s) :
    s.weight ≤ stackWeight stack + t.weight := by
  cases t with
  | atom v =>
    cases h
    simp [State.weight, weight_of_isAtom v.2]
  | string s =>
    cases h
    simp [State.weight, Json.weight, Token.weight, Nat.add_comm]
  | openObject | openArray =>
    cases h
    exact Nat.le_add_right _ _
  | closeObject | closeArray | comma | colon => cases h

/-- One token adds its weight at most. -/
theorem weight_stateNext (h : s.next t = some s') : s'.weight ≤ s.weight + t.weight := by
  fun_cases State.next s t with
  | case1 => exact weight_beginValue h
  | case3 stack t hne =>
    rw [next_firstElement hne] at h
    simpa [State.weight, Frame.weight, elementsWeight] using weight_beginValue h
  | case12 => simp_all [State.next]
  | case8 | case9 =>
    cases h
    simp [State.weight, Frame.weight, Json.weight, elementsWeight]
    omega
  | case10 v kvs k stack | case11 v kvs k stack =>
    cases h
    have := membersWeight_setMember k v kvs
    simp [State.weight, Frame.weight, Json.weight]
    omega
  | case2 | case4 | case7 =>
    cases h
    simp [State.weight, Frame.weight, Token.weight, Json.weight, elementsWeight, membersWeight]
  | case5 | case6 =>
    cases h
    simp [State.weight, Token.weight, membersWeight]
    omega

theorem weight_runTokens (h : runTokens s ts = some s') : s'.weight ≤ s.weight + tokensWeight ts := by
  induction ts generalizing s with
  | nil =>
    cases h
    exact Nat.le_add_right _ _
  | cons t ts ih =>
    obtain ⟨s₁, hnext, hrun⟩ := Option.bind_eq_some_iff.mp h
    have hstep := weight_stateNext hnext
    have hrest := ih hrun
    rw [tokensWeight_cons]
    omega

theorem Reads.weight_le (h : Reads ts v) : v.weight ≤ tokensWeight ts := by
  have hle := weight_runTokens (h [])
  simpa [State.weight, stackWeight] using hle

end Values

/-! ## The weight of equal values -/

section Equal

variable {v w u : Json (List Char)} {k : List Char} {kvs ws : List (List Char × Json (List Char))}

/-- A member weighs its part of the object. -/
theorem membersWeight_of_member (h : member k ws = some u) : ∃ ws',
    membersWeight ws = k.length + u.weight + membersWeight ws' ∧
      ∀ k', k' ≠ k → member k' ws' = member k' ws := by
  induction ws with
  | nil => cases h
  | cons p ws ih =>
    obtain ⟨k₁, v₁⟩ := p
    rw [member_cons] at h
    split at h
    case isTrue hk =>
      cases h
      subst hk
      refine ⟨ws, rfl, fun k' hne => ?_⟩
      rw [member_cons, if_neg (Ne.symm hne)]
    case isFalse hk =>
      obtain ⟨ws', hweight, hsame⟩ := ih h
      refine ⟨(k₁, v₁) :: ws', ?_, fun k' hne => ?_⟩
      · rw [membersWeight, hweight, membersWeight]
        omega
      · rw [member_cons, member_cons, hsame k' hne]

/-- Members that all have their counterparts weigh no more than these. -/
theorem membersWeight_le (hkeys : (kvs.map Prod.fst).Nodup)
    (h : ∀ p ∈ kvs, ∃ u, member p.1 ws = some u ∧ p.2.weight ≤ u.weight) :
    membersWeight kvs ≤ membersWeight ws := by
  induction kvs generalizing ws with
  | nil => exact Nat.zero_le _
  | cons p kvs ih =>
    obtain ⟨k, v⟩ := p
    rw [List.map_cons, List.nodup_cons] at hkeys
    obtain ⟨hp, hrest⟩ := List.forall_mem_cons.mp h
    obtain ⟨u, hu, hle⟩ : ∃ u, member k ws = some u ∧ v.weight ≤ u.weight := hp
    obtain ⟨ws', hweight, hsame⟩ := membersWeight_of_member hu
    have hkvs : membersWeight kvs ≤ membersWeight ws' := ih hkeys.2 fun p hp => by
      have hne : p.1 ≠ k := fun heq => hkeys.1 (List.mem_map.mpr ⟨p, hp, heq⟩)
      rw [hsame p.1 hne]
      exact hrest p hp
    rw [membersWeight, hweight]
    omega

theorem elementsWeight_le {xs ys : List (Json (List Char))}
    (h : List.Forall₂ (fun x y => x.weight ≤ y.weight) xs ys) :
    elementsWeight xs ≤ elementsWeight ys := by
  induction h with
  | nil => exact Nat.le_refl _
  | cons hx _ ih => exact Nat.add_le_add hx ih

/-- **Equal values weigh the same**, in the direction that is used. -/
theorem weight_le_of_equal (hv : v.Distinct) (h : v.equal w = true) : v.weight ≤ w.weight := by
  induction v using inductionOn generalizing w with
  | leaf v hleaf =>
    cases v with
    | string s =>
      cases w with
      | string t =>
        obtain rfl : s = t := by simpa [equal] using h
        exact Nat.le_refl _
      | null | bool | int64 | uint64 | double | array | object => simp [equal] at h
    | null | bool | int64 | uint64 | double => exact Nat.zero_le _
    | array | object => cases hleaf
  | array xs ih =>
    cases w with
    | array ys =>
      rw [equal, equalElements_iff] at h
      refine elementsWeight_le (List.forall₂_iff_get.mpr ?_)
      obtain ⟨hlen, hget⟩ := List.forall₂_iff_get.mp h
      exact ⟨hlen, fun i hi hi' =>
        ih _ (List.get_mem ..) ((everywhere_array.mp hv).2 _ (List.get_mem ..)) (hget i hi hi')⟩
    | null | bool | int64 | uint64 | double | string | object => simp [equal] at h
  | object kvs ih =>
    cases w with
    | object ws =>
      rw [equal, Bool.and_eq_true, equalMembers_iff] at h
      obtain ⟨hkeys, hparts⟩ := everywhere_object.mp hv
      refine membersWeight_le (hkeys kvs rfl) fun p hp => ?_
      obtain ⟨u, hu, heq⟩ := h.2 p hp
      exact ⟨u, hu, ih p hp (hparts p hp) heq⟩
    | null | bool | int64 | uint64 | double | string | array => simp [equal] at h

end Equal

/-! ## One token -/

/-- What is being read is an array or an object. -/
def State.Open : State → Prop
  | .value stack => stack ≠ []
  | .firstElement _ | .firstKey _ | .key _ _ | .colon _ _ _ => True
  | .done v stack => stack ≠ [] ∨ v.isLeaf = false

theorem open_beginValue {s : State} {t : Token} {stack : List Frame} (hne : stack ≠ [])
    (h : beginValue stack t = some s) : s.Open := by
  cases t with
  | string | atom =>
    cases h
    exact Or.inl hne
  | openObject | openArray =>
    cases h
    trivial
  | closeObject | closeArray | comma | colon => cases h

theorem open_next {s s' : State} {t : Token} (hs : s.Open) (h : s.next t = some s') : s'.Open := by
  fun_cases State.next s t with
  | case1 => exact open_beginValue hs h
  | case3 stack t hne =>
    rw [next_firstElement hne] at h
    exact open_beginValue (List.cons_ne_nil _ _) h
  | case12 => simp_all [State.next]
  | case2 | case4 | case9 | case11 =>
    cases h
    exact Or.inr rfl
  | case5 | case6 | case10 =>
    cases h
    trivial
  | case7 | case8 =>
    cases h
    exact List.cons_ne_nil _ _

theorem open_runTokens {s s' : State} {ts : List Token} (hs : s.Open)
    (h : runTokens s ts = some s') : s'.Open := by
  induction ts generalizing s with
  | nil =>
    cases h
    exact hs
  | cons t ts ih =>
    obtain ⟨s₁, hnext, hrun⟩ := Option.bind_eq_some_iff.mp h
    exact ih (open_next hs hnext) hrun

/-- **The tokens of a leaf are one token**, of its weight. -/
theorem Reads.of_leaf {ts : List Token} {v : Json (List Char)} (h : Reads ts v)
    (hv : v.isLeaf = true) : ∃ t, ts = [t] ∧ t.weight = v.weight := by
  have hopen : ∀ {s : State}, s.Open → ∀ us, runTokens s us ≠ some (.done v []) := by
    intro s hs us hrun
    rcases open_runTokens hs hrun with hne | hleaf
    · exact hne rfl
    · rw [hv] at hleaf
      cases hleaf
  -- nothing follows a value that is complete
  have hlast : ∀ {u : Json (List Char)} {us : List Token},
      runTokens (.done u []) us = some (.done v []) → us = [] ∧ u = v := by
    intro u us hrun
    cases us with
    | nil =>
      cases hrun
      exact ⟨rfl, rfl⟩
    | cons => cases hrun
  obtain ⟨t, us, rfl, -⟩ := h.cons
  have hrun : (beginValue [] t).bind (runTokens · us) = some (.done v []) := h []
  cases t with
  | string s =>
    obtain ⟨rfl, rfl⟩ := hlast hrun
    exact ⟨_, rfl, rfl⟩
  | atom a =>
    obtain ⟨rfl, rfl⟩ := hlast hrun
    exact ⟨_, rfl, (weight_of_isAtom a.2).symm⟩
  | openObject =>
    have hfirst : (State.firstKey []).Open := trivial
    exact absurd hrun (hopen hfirst us)
  | openArray =>
    have hfirst : (State.firstElement []).Open := trivial
    exact absurd hrun (hopen hfirst us)
  | closeObject | closeArray | comma | colon => cases hrun

/-- What a leaf equals is a leaf, of its weight. -/
theorem isLeaf_of_equal {v w : Json (List Char)} (hv : v.isLeaf = true) (h : v.equal w = true) :
    w.isLeaf = true ∧ w.weight = v.weight := by
  cases v with
  | array | object => cases hv
  | string s =>
    cases w with
    | string t =>
      obtain rfl : s = t := by simpa [equal] using h
      exact ⟨rfl, rfl⟩
    | null | bool | int64 | uint64 | double | array | object => simp [equal] at h
  | null | bool | int64 | uint64 | double =>
    cases w with
    | null | bool | int64 | uint64 | double => exact ⟨rfl, rfl⟩
    | string | array | object => simp [equal, asInteger] at h

end Machinery.Json
