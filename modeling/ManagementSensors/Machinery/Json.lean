import Mathlib.Data.Rat.Init
import Mathlib.Data.UInt
import Mathlib.Data.List.Basic

/-!
# Machinery/Json — JSON values and the typed accessors that throw

Values as a C++ program holds them: an integer is of kind `int64` or of kind `uint64`, an object is
its members in order.  An accessor that throws on the wrong kind, or on a missing member, is an
`Option`.  Strings are of any type `S`: characters where the program treats them as text, bytes
where it treats them as bytes.

`Codec` is what a JSON library promises about its text form.  Parsing does not remember which
integer kind a number was written from — `normal` is the value that comes back.
-/

namespace Machinery

/-- A JSON value with strings in `S`. -/
inductive Json (S : Type*)
  | null
  | bool (b : Bool)
  | int64 (n : Int64)
  | uint64 (n : UInt64)
  | double (x : ℚ)
  | string (s : S)
  | array (xs : List (Json S))
  | object (kvs : List (S × Json S))

namespace Json

variable {S : Type*}

instance : Inhabited (Json S) := ⟨.null⟩

/-! ## Accessors -/

/-- `as_object`. -/
def asObject : Json S → Option (List (S × Json S))
  | .object kvs => some kvs
  | _ => none

/-- `as_int64`: an unsigned number above the signed range is not an `int64`. -/
def asInt64 : Json S → Option Int64
  | .int64 n => some n
  | _ => none

/-- The integer a number is, of either kind. -/
def asInteger : Json S → Option ℤ
  | .int64 n => some n.toInt
  | .uint64 n => some n.toNat
  | _ => none

theorem asInteger_of_asInt64 {v : Json S} {n : Int64} (h : v.asInt64 = some n) :
    v.asInteger = some n.toInt := by
  cases v with
  | int64 => exact congrArg (Option.map Int64.toInt) h
  | null | bool | uint64 | double | string | array | object => cases h

/-- `as_double`: an integer is not a `double`. -/
def asDouble : Json S → Option ℚ
  | .double x => some x
  | _ => none

/-- `as_bool`. -/
def asBool : Json S → Option Bool
  | .bool b => some b
  | _ => none

/-- `as_string`, and `value_to<std::string>`. -/
def asString : Json S → Option S
  | .string s => some s
  | _ => none

section Members

variable [DecidableEq S]

/-- `at` on an object. -/
def member (k : S) : List (S × Json S) → Option (Json S)
  | [] => none
  | (k', v) :: kvs => if k' = k then some v else member k kvs

/-- `contains`. -/
def contains (k : S) (kvs : List (S × Json S)) : Bool := (member k kvs).isSome

/-- `obj[k] = v`: the member is overwritten where it stands, or appended. -/
def setMember (k : S) (v : Json S) : List (S × Json S) → List (S × Json S)
  | [] => [(k, v)]
  | (k', v') :: kvs => if k' = k then (k, v) :: kvs else (k', v') :: setMember k v kvs

@[simp] theorem member_nil (k : S) : member k [] = none := rfl

@[simp] theorem member_cons (k k' : S) (v : Json S) (kvs : List (S × Json S)) :
    member k ((k', v) :: kvs) = if k' = k then some v else member k kvs := rfl

@[simp] theorem member_setMember (k k' : S) (v : Json S) (kvs : List (S × Json S)) :
    member k (setMember k' v kvs) = if k' = k then some v else member k kvs := by
  induction kvs with
  | nil => rfl
  | cons p kvs ih =>
    obtain ⟨k'', v'⟩ := p
    by_cases h : k'' = k'
    · subst h
      by_cases hk : k'' = k <;> simp [setMember, hk]
    · by_cases hk : k'' = k
      · subst hk
        simp [setMember, h, Ne.symm h]
      · simp [setMember, h, hk, ih]

/-- A new member is appended. -/
theorem setMember_of_notMem {k : S} {v : Json S} {kvs : List (S × Json S)}
    (h : k ∉ kvs.map Prod.fst) : setMember k v kvs = kvs ++ [(k, v)] := by
  induction kvs with
  | nil => rfl
  | cons p kvs ih =>
    rw [List.map_cons, List.mem_cons, not_or] at h
    rw [setMember, if_neg (Ne.symm h.1), ih h.2, List.cons_append]

theorem member_eq_some_of_mem {k : S} {v : Json S} {kvs : List (S × Json S)}
    (hkeys : (kvs.map Prod.fst).Nodup) (h : (k, v) ∈ kvs) : member k kvs = some v := by
  induction kvs with
  | nil => cases h
  | cons p kvs ih =>
    obtain ⟨k', v'⟩ := p
    rw [List.map_cons, List.nodup_cons] at hkeys
    rcases List.mem_cons.mp h with heq | hmem
    · cases heq
      exact if_pos rfl
    · rw [member_cons, if_neg, ih hkeys.2 hmem]
      rintro rfl
      exact hkeys.1 (List.mem_map.mpr ⟨_, hmem, rfl⟩)

theorem mem_of_member_eq_some {k : S} {v : Json S} {kvs : List (S × Json S)}
    (h : member k kvs = some v) : (k, v) ∈ kvs := by
  induction kvs with
  | nil => cases h
  | cons p kvs ih =>
    obtain ⟨k', v'⟩ := p
    rw [member_cons] at h
    split at h
    case isTrue hk =>
      cases h
      exact hk ▸ List.mem_cons_self
    case isFalse => exact List.mem_cons_of_mem _ (ih h)

/-- **Members are found in any order**, where no name is given twice. -/
theorem member_perm {kvs kvs' : List (S × Json S)} (hperm : kvs'.Perm kvs)
    (hkeys : (kvs.map Prod.fst).Nodup) (k : S) : member k kvs' = member k kvs := by
  have hkeys' : (kvs'.map Prod.fst).Nodup := (hperm.map Prod.fst).nodup_iff.mpr hkeys
  refine Option.ext fun v => ?_
  constructor
  · exact fun h => member_eq_some_of_mem hkeys (hperm.mem_iff.mp (mem_of_member_eq_some h))
  · exact fun h => member_eq_some_of_mem hkeys' (hperm.mem_iff.mpr (mem_of_member_eq_some h))

end Members

/-! ## Inside a value -/

/-- No array and no object. -/
def isLeaf : Json S → Bool
  | .array _ | .object _ => false
  | _ => true

theorem asObject_of_isLeaf {v : Json S} (hv : v.isLeaf = true) : v.asObject = none := by
  cases v with
  | object => cases hv
  | null | bool | int64 | uint64 | double | string | array => rfl

/-- **Induction on a value**, over the elements of an array and the members of an object. -/
@[elab_as_elim]
theorem inductionOn {motive : Json S → Prop} (v : Json S)
    (leaf : ∀ v : Json S, v.isLeaf = true → motive v)
    (array : ∀ xs, (∀ x ∈ xs, motive x) → motive (.array xs))
    (object : ∀ kvs : List (S × Json S), (∀ p ∈ kvs, motive p.2) → motive (.object kvs)) : motive v :=
  Json.rec (motive_1 := motive) (motive_2 := fun xs => ∀ x ∈ xs, motive x)
    (motive_3 := fun kvs => ∀ p ∈ kvs, motive p.2) (motive_4 := fun p => motive p.2)
    (leaf _ rfl) (fun _ => leaf _ rfl) (fun _ => leaf _ rfl) (fun _ => leaf _ rfl)
    (fun _ => leaf _ rfl) (fun _ => leaf _ rfl) array object
    (List.forall_mem_nil _) (fun _ _ hx hxs => List.forall_mem_cons.mpr ⟨hx, hxs⟩)
    (List.forall_mem_nil _) (fun _ _ hp hkvs => List.forall_mem_cons.mpr ⟨hp, hkvs⟩)
    (fun _ _ h => h) v

/-- `u` is `v` or stands somewhere inside it. -/
inductive Within : Json S → Json S → Prop
  | self (v : Json S) : Within v v
  | element {u x : Json S} {xs : List (Json S)} : x ∈ xs → Within u x → Within u (.array xs)
  | member {u : Json S} {p : S × Json S} {kvs : List (S × Json S)} :
    p ∈ kvs → Within u p.2 → Within u (.object kvs)

/-- `P` holds of a value and of all that stands inside it. -/
def Everywhere (P : Json S → Prop) (v : Json S) : Prop := ∀ u, Within u v → P u

section Everywhere

variable {P : Json S → Prop}

theorem everywhere_leaf {v : Json S} (hv : v.isLeaf = true) : v.Everywhere P ↔ P v := by
  refine ⟨fun h => h v (.self v), fun h u hu => ?_⟩
  cases hu with
  | self => exact h
  | element | member => cases hv

theorem everywhere_array {xs : List (Json S)} :
    (array xs).Everywhere P ↔ P (.array xs) ∧ ∀ x ∈ xs, x.Everywhere P := by
  refine ⟨fun h => ⟨h _ (.self _), fun x hx u hu => h u (.element hx hu)⟩, fun h u hu => ?_⟩
  cases hu with
  | self => exact h.1
  | element hx hu => exact h.2 _ hx u hu

theorem everywhere_object {kvs : List (S × Json S)} :
    (object kvs).Everywhere P ↔ P (.object kvs) ∧ ∀ p ∈ kvs, p.2.Everywhere P := by
  refine ⟨fun h => ⟨h _ (.self _), fun p hp u hu => h u (.member hp hu)⟩, fun h u hu => ?_⟩
  cases hu with
  | self => exact h.1
  | member hp hu => exact h.2 _ hp u hu

end Everywhere

/-- Of an object: no key is there twice. -/
def DistinctKeys (v : Json S) : Prop := ∀ kvs ∈ v.asObject, (kvs.map Prod.fst).Nodup

theorem distinctKeys_of_asObject {v : Json S} (h : v.asObject = none) : DistinctKeys v := by
  intro kvs hkvs
  rw [h] at hkvs
  cases hkvs

/-- No object in a value has the same key twice. -/
def Distinct (v : Json S) : Prop := v.Everywhere DistinctKeys

section Equality

variable [DecidableEq S]

mutual

/-- `operator==`: integers are compared across their kinds, and objects in any order. -/
def equal : Json S → Json S → Bool
  | .null, .null => true
  | .bool b, .bool c => b == c
  | .int64 n, w => w.asInteger = some n.toInt
  | .uint64 n, w => w.asInteger = some n.toNat
  | .double x, .double y => x = y
  | .string s, .string t => s = t
  | .array xs, .array ys => equalElements xs ys
  | .object kvs, .object ws => kvs.length = ws.length && equalMembers kvs ws
  | _, _ => false

/-- Element by element. -/
def equalElements : List (Json S) → List (Json S) → Bool
  | [], [] => true
  | x :: xs, y :: ys => x.equal y && equalElements xs ys
  | _, _ => false

/-- Each member has its counterpart. -/
def equalMembers : List (S × Json S) → List (S × Json S) → Bool
  | [], _ => true
  | (k, v) :: kvs, ws => (match member k ws with
    | some u => v.equal u
    | none => false) && equalMembers kvs ws

end

theorem equalElements_iff {xs ys : List (Json S)} :
    equalElements xs ys = true ↔ List.Forall₂ (fun x y => x.equal y = true) xs ys := by
  induction xs generalizing ys with
  | nil => cases ys <;> simp [equalElements]
  | cons x xs ih => cases ys <;> simp [equalElements, ih]

theorem equalMembers_iff {kvs ws : List (S × Json S)} : equalMembers kvs ws = true ↔
    ∀ p ∈ kvs, ∃ u, member p.1 ws = some u ∧ p.2.equal u = true := by
  induction kvs with
  | nil => simp [equalMembers]
  | cons p kvs ih =>
    rw [equalMembers, Bool.and_eq_true, ih, List.forall_mem_cons]
    cases member p.1 ws <;> simp

end Equality

/-! ## The text form -/

/-- A number below `2 ^ 63` is read back as an `int64`, whichever kind it was written from. -/
def ofUInt64 (n : UInt64) : Json S := if n < 2 ^ 63 then .int64 n.toInt64 else .uint64 n

mutual

/-- The value a serialised value is read back as. -/
def normal : Json S → Json S
  | .uint64 n => ofUInt64 n
  | .array xs => .array (normals xs)
  | .object kvs => .object (normalMembers kvs)
  | .null => .null
  | .bool b => .bool b
  | .int64 n => .int64 n
  | .double x => .double x
  | .string s => .string s

/-- `normal` on the elements of an array. -/
def normals : List (Json S) → List (Json S)
  | [] => []
  | x :: xs => x.normal :: normals xs

/-- `normal` on the members of an object. -/
def normalMembers : List (S × Json S) → List (S × Json S)
  | [] => []
  | (k, v) :: kvs => (k, v.normal) :: normalMembers kvs

end

/-- A value that is no array, no object, and no number but an `int64`. -/
def IsScalar : Json S → Prop
  | .null | .bool _ | .int64 _ | .string _ => True
  | _ => False

/-- Such values come back as they are. -/
theorem normalMembers_of_isScalar {kvs : List (S × Json S)} (h : ∀ p ∈ kvs, p.2.IsScalar) :
    normalMembers kvs = kvs := by
  induction kvs with
  | nil => rfl
  | cons p kvs ih =>
    obtain ⟨k, v⟩ := p
    have hv : v.normal = v := by
      have hv := h _ List.mem_cons_self
      cases v <;> first | exact absurd hv id | rfl
    rw [normalMembers, hv, ih fun p hp => h p (List.mem_cons_of_mem _ hp)]

/-- Reading an `int64` back as the `uint64_t` it was written from. -/
theorem toUInt64_of_asInt64_ofUInt64 {n : UInt64} {i : Int64}
    (h : (ofUInt64 n : Json S).asInt64 = some i) : i.toUInt64 = n := by
  rw [ofUInt64] at h
  split at h
  · simp only [asInt64, Option.some.injEq] at h
    rw [← h, UInt64.toUInt64_toInt64]
  · cases h

/-- A JSON library over texts `T`: what it parses from a text it has serialised is that value. -/
structure Codec (S T : Type*) where
  serialize : Json S → T
  parse : T → Option (Json S)
  parse_serialize : ∀ v w, parse (serialize v) = some w → w = v.normal

end Json

end Machinery
