import Mathlib.Algebra.Group.Nat.Defs
import Mathlib.Algebra.Ring.Int.Defs
import Mathlib.Data.Nat.Size
import ManagementSensors.Machinery.Loop
import ManagementSensors.Server.OcspCache

/-!
# Server/OcspBackOff — `intoCache` in the arithmetic it is computed in

`--ocsp-cache-time` is any `uint64_t`; `std::chrono::minutes` holds it as an `int64_t`, and a time of
the system clock is an `int64_t` of nanoseconds.  The loop of `intoCache` always ends, after 64
halvings at most (`isSome_storedUntil`).  Where the configured duration reaches past the last
nanosecond that can be represented, its arithmetic leaves the range or turns the duration negative;
everywhere else it is that of `Server/OcspCache` (`storedUntil_eq`).
-/

open Machinery Function

namespace ManagementSensors.OcspCache

/-- What an `int64_t` holds. -/
def InRange (n : ℤ) : Prop := -2 ^ 63 ≤ n ∧ n < 2 ^ 63

instance (n : ℤ) : Decidable (InRange n) := inferInstanceAs (Decidable (_ ∧ _))

/-- A result of signed arithmetic; there is none outside the range. -/
def checked (n : ℤ) : Option ℤ := if InRange n then some n else none

/-- `std::chrono::minutes(ocsp_cache_time)`. -/
def minutes (ocspCacheTime : UInt64) : ℤ := ocspCacheTime.toInt64.toInt

/-- `ref_time + cache_duration`: the minutes become nanoseconds first. -/
def deadline (refTime duration : ℤ) : Option ℤ := do
  let nanoseconds ← checked (duration * minute)
  checked (refTime + nanoseconds)

/-- A round of the loop of `intoCache`; it leaves the loop with the duration, or where an operation
leaves the range. -/
def backOff (notYetValid : ℤ → Bool) (refTime duration : ℤ) : Option ℤ ⊕ ℤ :=
  if duration = 0 then .inl (some duration)
  else
    match deadline refTime duration with
    | none => .inl none
    | some t =>
      if notYetValid t then
        match checked (duration.tdiv 2) with
        | none => .inl none
        | some half => .inr half
      else .inl (some duration)

/-- The `valid_until` that `intoCache` stores. -/
def storedUntil (notYetValid : ℤ → Bool) (refTime : ℤ) (ocspCacheTime : UInt64) (fuel : ℕ) :
    Option (Option ℤ) :=
  (loop (backOff notYetValid refTime) fuel (minutes ocspCacheTime)).map
    fun duration => duration.bind (deadline refTime)

/-! ## One round -/

variable {notYetValid : ℤ → Bool} {refTime d d' n : ℤ} {ocspCacheTime : UInt64} {fuel : ℕ}

theorem checked_of_inRange (h : InRange n) : checked n = some n := if_pos h

theorem deadline_of_inRange (h : InRange (d * minute)) (h' : InRange (refTime + d * minute)) :
    deadline refTime d = some (refTime + d * minute) := by
  rw [deadline, checked_of_inRange h, Option.bind_eq_bind, Option.bind_some, checked_of_inRange h']

/-- A deadline is exact. -/
theorem deadline_eq_some {t : ℤ} (h : deadline refTime d = some t) :
    InRange (d * minute) ∧ InRange (refTime + d * minute) := by
  simp only [deadline, checked, Option.bind_eq_bind, Option.bind_eq_some_iff,
    Option.ite_none_right_eq_some, Option.some.injEq] at h
  obtain ⟨_, ⟨hns, rfl⟩, ht, -⟩ := h
  exact ⟨hns, ht⟩

/-- A round that goes on halves. -/
theorem backOff_eq_inr (h : backOff notYetValid refTime d = .inr d') :
    d ≠ 0 ∧ d' = d.tdiv 2 ∧ notYetValid (refTime + d * minute) = true := by
  unfold backOff at h
  split at h
  case isTrue => cases h
  case isFalse hd =>
    split at h
    case h_1 => cases h
    case h_2 t ht =>
      split at h
      case isFalse => cases h
      case isTrue hnot =>
        obtain ⟨hns, hrange⟩ := deadline_eq_some ht
        rw [deadline_of_inRange hns hrange, Option.some.injEq] at ht
        split at h
        case h_1 => cases h
        case h_2 half hhalf =>
          cases h
          rw [checked, Option.ite_none_right_eq_some] at hhalf
          exact ⟨hd, (Option.some.inj hhalf.2).symm, ht ▸ hnot⟩

/-- Halving takes a bit. -/
theorem size_tdiv_two_lt (hd : d ≠ 0) : (d.tdiv 2).natAbs.size < d.natAbs.size := by
  have hpos : 0 < d.natAbs.size := Nat.size_pos.mpr (Int.natAbs_pos.mpr hd)
  have hlt : d.natAbs < 2 ^ d.natAbs.size := Nat.lt_size_self _
  have hhalf : (d.tdiv 2).natAbs < 2 ^ (d.natAbs.size - 1) := by
    rw [Int.natAbs_tdiv]
    refine Nat.div_lt_of_lt_mul (hlt.trans_eq ?_)
    change 2 ^ d.natAbs.size = 2 * 2 ^ (d.natAbs.size - 1)
    rw [← Nat.pow_add_one', Nat.sub_add_cancel hpos]
  have hle := Nat.size_le.mpr hhalf
  omega

/-- Half of a duration is between it and none. -/
theorem tdiv_two_bounds (h : 0 ≤ d) : 0 ≤ d.tdiv 2 ∧ d.tdiv 2 ≤ d :=
  ⟨Int.tdiv_nonneg h (by decide), Int.tdiv_le_self _ h⟩

/-! ## The loop -/

theorem size_minutes_le (ocspCacheTime : UInt64) : (minutes ocspCacheTime).natAbs.size ≤ 64 := by
  refine Nat.size_le.mpr ?_
  have hlo := ocspCacheTime.toInt64.le_toInt
  have hhi := ocspCacheTime.toInt64.toInt_lt
  rw [minutes]
  omega

/-- **The loop ends**, after 64 halvings at most. -/
theorem isSome_storedUntil (notYetValid : ℤ → Bool) (refTime : ℤ) (ocspCacheTime : UInt64)
    (hfuel : 64 < fuel) : (storedUntil notYetValid refTime ocspCacheTime fuel).isSome := by
  rw [storedUntil, Option.isSome_map]
  refine isSome_loop (μ := fun d => d.natAbs.size) (fun d d' h => ?_)
    ((size_minutes_le ocspCacheTime).trans_lt hfuel)
  obtain ⟨hd, rfl, -⟩ := backOff_eq_inr h
  exact size_tdiv_two_lt hd

/-! ## Exactness -/

/-- The minutes of the option are those of the duration while they fit. -/
theorem minutes_eq_iff : minutes ocspCacheTime = ocspCacheTime.toNat ↔ ocspCacheTime.toNat < 2 ^ 63 := by
  refine ⟨fun h => ?_, fun h => ?_⟩
  · have hlt := ocspCacheTime.toInt64.toInt_lt
    rw [minutes] at h
    omega
  · refine BitVec.toInt_eq_toNat_of_lt ?_
    change 2 * ocspCacheTime.toNat < 2 ^ 64
    omega

theorem cacheDuration_nonneg {f : ℤ → Bool} (h : 0 ≤ d) : 0 ≤ cacheDuration f d := by
  induction d using cacheDuration.induct f with
  | case1 d hd ih =>
    rw [cacheDuration, if_pos hd]
    exact ih (tdiv_two_bounds h).1
  | case2 d hd => rwa [cacheDuration, if_neg hd]

/-- **Within the range the loop is that of exact arithmetic.** -/
theorem loop_backOff_eq (href : InRange refTime) (hn : 0 ≤ n) (hns : n * minute < 2 ^ 63)
    (hrange : refTime + n * minute < 2 ^ 63) {r : Option ℤ}
    (h : loop (backOff notYetValid refTime) fuel n = some r) :
    r = some (cacheDuration (fun d => notYetValid (refTime + d * minute)) n) := by
  let f := fun d => notYetValid (refTime + d * minute)
  let I := fun d => (0 ≤ d ∧ d ≤ n) ∧ cacheDuration f d = cacheDuration f n
  refine loop_rule (I := I) (Q := fun r => r = some (cacheDuration f n)) ?_ ?_ ⟨⟨hn, le_rfl⟩, rfl⟩ h
  · rintro d d' ⟨⟨hpos, hle⟩, hsame⟩ hstep
    obtain ⟨hd, rfl, hnot⟩ := backOff_eq_inr hstep
    obtain ⟨hpos', hle'⟩ := tdiv_two_bounds hpos
    rw [cacheDuration, if_pos ⟨hd, hnot⟩] at hsame
    exact ⟨⟨hpos', hle'.trans hle⟩, hsame⟩
  · rintro d r ⟨⟨hpos, hle⟩, hsame⟩ hstep
    rw [← hsame]
    by_cases hd : d = 0
    · rw [backOff, if_pos hd] at hstep
      cases hstep
      rw [cacheDuration, if_neg fun h => h.1 hd]
    · have hmin : InRange (d * minute) := by
        simp only [InRange, minute] at *
        omega
      have hdead : InRange (refTime + d * minute) := by
        simp only [InRange, minute] at *
        omega
      have hhalf : InRange (d.tdiv 2) := by
        obtain ⟨hpos', hle'⟩ := tdiv_two_bounds hpos
        simp only [InRange, minute] at *
        omega
      rw [backOff, if_neg hd, deadline_of_inRange hmin hdead] at hstep
      cases hnot : notYetValid (refTime + d * minute) with
      | true =>
        -- such a round goes on
        simp [hnot, checked_of_inRange hhalf] at hstep
      | false =>
        simp only [hnot, Bool.false_eq_true, if_false] at hstep
        cases hstep
        have hout : f d = false := hnot
        rw [cacheDuration_of_not hout]

/-- **Within the range, `valid_until` is that of exact arithmetic.** -/
theorem storedUntil_eq (href : InRange refTime) (hns : ocspCacheTime.toNat * minute < 2 ^ 63)
    (hrange : refTime + ocspCacheTime.toNat * minute < 2 ^ 63) (hfuel : 64 < fuel) :
    storedUntil notYetValid refTime ocspCacheTime fuel = some (some (refTime +
      cacheDuration (fun d => notYetValid (refTime + d * minute)) ocspCacheTime.toNat * minute)) := by
  have hfits : minutes ocspCacheTime = ocspCacheTime.toNat := minutes_eq_iff.mpr (by
    simp only [minute] at hns
    omega)
  have hpos : (0 : ℤ) ≤ ocspCacheTime.toNat := Int.natCast_nonneg _
  have hsome := isSome_storedUntil notYetValid refTime ocspCacheTime hfuel
  rw [storedUntil, Option.isSome_map] at hsome
  obtain ⟨r, hr⟩ := Option.isSome_iff_exists.mp hsome
  rw [storedUntil, hr, Option.map_some]
  rw [hfits] at hr
  rw [loop_backOff_eq href hpos hns hrange hr, Option.bind_some]
  have hnonneg := cacheDuration_nonneg (f := fun d => notYetValid (refTime + d * minute)) hpos
  have hle := cacheDuration_le (fun d => notYetValid (refTime + d * minute)) ocspCacheTime.toNat
  rw [max_eq_left hpos] at hle
  congr 1
  refine deadline_of_inRange ?_ ?_
  all_goals
    simp only [InRange, minute] at *
    omega

/-- What has been stored went through the deadline of the whole duration. -/
theorem deadline_of_storedUntil {validUntil : ℤ} (hd : minutes ocspCacheTime ≠ 0)
    (h : storedUntil notYetValid refTime ocspCacheTime (fuel + 1) = some (some validUntil)) :
    InRange (minutes ocspCacheTime * minute) ∧
      InRange (refTime + minutes ocspCacheTime * minute) := by
  cases hdead : deadline refTime (minutes ocspCacheTime) with
  | some t => exact deadline_eq_some hdead
  | none =>
    rw [storedUntil, loop, backOff, if_neg hd, hdead] at h
    cases h

/-- **The arithmetic is exact**: the duration is the one configured, and what is stored lies between
the time of the call and the end of that duration. -/
def Exact (notYetValid : ℤ → Bool) (refTime : ℤ) (ocspCacheTime : UInt64) : Prop :=
  minutes ocspCacheTime = ocspCacheTime.toNat ∧ ∃ validUntil,
    (∀ fuel, 64 < fuel →
      storedUntil notYetValid refTime ocspCacheTime fuel = some (some validUntil)) ∧
    refTime ≤ validUntil ∧ validUntil ≤ refTime + ocspCacheTime.toNat * minute

/-- **The back-off ends; when its arithmetic is exact.** -/
theorem backOff_exact_iff {κ : Type} (B : Botan κ) (response : Response) (issuer subject : κ)
    (refTime : Int64) (ocspCacheTime : UInt64) :
    let notYetValid := fun t => B.statusFor response issuer subject t = .ocspNotYetValid
    (∀ fuel, 64 < fuel → (storedUntil notYetValid refTime.toInt ocspCacheTime fuel).isSome) ∧
      (Exact notYetValid refTime.toInt ocspCacheTime ↔
        ocspCacheTime.toNat * minute < 2 ^ 63 ∧
          refTime.toInt + ocspCacheTime.toNat * minute < 2 ^ 63) := by
  intro notYetValid
  have href : InRange refTime.toInt := ⟨refTime.le_toInt, refTime.toInt_lt⟩
  have hpos : (0 : ℤ) ≤ ocspCacheTime.toNat := Int.natCast_nonneg _
  refine ⟨fun fuel => isSome_storedUntil _ _ _, fun h => ?_, fun ⟨hns, hrange⟩ => ?_⟩
  · obtain ⟨hfits, validUntil, hstored, -⟩ := h
    by_cases hzero : minutes ocspCacheTime = 0
    · rw [← hfits, hzero, Int.zero_mul, Int.add_zero]
      exact ⟨by decide, href.2⟩
    · obtain ⟨hns, hrange⟩ := deadline_of_storedUntil hzero (hstored 65 (by decide))
      rw [hfits] at hns hrange
      exact ⟨hns.2, hrange.2⟩
  · have hfits : ocspCacheTime.toNat < 2 ^ 63 := by
      simp only [minute] at hns
      omega
    have hnonneg := cacheDuration_nonneg
      (f := fun d => notYetValid (refTime.toInt + d * minute)) hpos
    have hle := cacheDuration_le (fun d => notYetValid (refTime.toInt + d * minute))
      ocspCacheTime.toNat
    rw [max_eq_left hpos] at hle
    refine ⟨minutes_eq_iff.mpr hfits, _, fun fuel => storedUntil_eq href hns hrange, ?_, ?_⟩
    all_goals
      simp only [minute] at *
      omega

/-! ## `intoCache` -/

section IntoCache

variable {κ : Type} (B : Botan κ)

/-- `intoCache`, as its arithmetic goes: nothing is stored where an operation leaves the range. -/
def intoCacheChecked (ocspCacheTime : UInt64) (cache : Cache) (c : Call κ) (r : Response)
    (fuel : ℕ) : Option (Option Cache) :=
  (storedUntil (fun t => B.statusFor r c.issuer c.subject t = .ocspNotYetValid) c.refTime
    ocspCacheTime fuel).map fun validUntil =>
      validUntil.map fun t => update cache (B.fingerprint c.subject) (some ⟨r, t⟩)

variable {B}

/-- **The cache of exact arithmetic is the cache of the program**, within the range. -/
theorem intoCacheChecked_eq {cache : Cache} {c : Call κ} {r : Response} (href : InRange c.refTime)
    (hns : ocspCacheTime.toNat * minute < 2 ^ 63)
    (hrange : c.refTime + ocspCacheTime.toNat * minute < 2 ^ 63) (hfuel : 64 < fuel) :
    intoCacheChecked B ocspCacheTime cache c r fuel =
      some (some (intoCache B ocspCacheTime.toNat cache c r)) := by
  rw [intoCacheChecked, storedUntil_eq href hns hrange hfuel]
  rfl

end IntoCache

/-- **No bound on the option**: three hundred years of minutes are accepted, and are too many
nanoseconds. -/
theorem not_backOff_exact : ¬ ∀ (refTime : Int64) (ocspCacheTime : UInt64),
    Exact (fun t => twoHours.statusFor [48] 0 1 t = .ocspNotYetValid) refTime.toInt
      ocspCacheTime := by
  intro hall
  obtain ⟨-, validUntil, hstored, -⟩ := hall 0 160000000
  have hnone : storedUntil (fun t => twoHours.statusFor [48] 0 1 t = .ocspNotYetValid)
      (0 : Int64).toInt 160000000 65 = some none := by decide +kernel
  cases (hstored 65 (by decide)).symm.trans hnone

end ManagementSensors.OcspCache
