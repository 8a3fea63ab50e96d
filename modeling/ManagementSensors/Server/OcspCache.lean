import Mathlib.Data.Int.Order.Basic
import Mathlib.Order.Lattice
import ManagementSensors.Machinery.Run

/-!
# Server/OcspCache — the responses stapled to the server's certificate

A response is fetched, checked once, and kept until `valid_until`.  `intoCache` guesses that moment:
it halves the configured duration while the response would *not yet* be valid then — and a response
that is valid now is never "not yet valid" later (`cacheDuration_of_good`).  So nothing but the
configured duration bounds the caching, and a response whose `next_update` comes first is served after
it (`stale_of_short`); where no cached response is so short, none is (`staples_fresh`).

Times are ticks of the system clock, durations are minutes.  Botan is a parameter.
-/

open Machinery Function

namespace ManagementSensors.OcspCache

/-- What `status_for` answers. -/
inductive CertificateStatusCode
  | ocspResponseGood
  | ocspNotYetValid
  | ocspHasExpired
  | other
  deriving DecidableEq, Repr

/-- A response is its raw bits. -/
abbrev Response := List UInt8

/-- What the cache uses of Botan, and the window that a response gives for a certificate. -/
structure Botan (κ : Type) where
  fingerprint : κ → String
  successful : Response → Bool
  statusFor : Response → κ → κ → ℤ → CertificateStatusCode
  thisUpdate : Response → κ → κ → ℤ
  nextUpdate : Response → κ → κ → Option ℤ

/-- **Botan's window law**: a response that is ever good is not yet valid before its `this_update`,
expired after a `next_update` that is set, and good in between. -/
def Botan.Windowed {κ : Type} (B : Botan κ) : Prop :=
  ∀ r issuer subject t₀, B.statusFor r issuer subject t₀ = .ocspResponseGood → ∀ t,
    B.statusFor r issuer subject t =
      if t < B.thisUpdate r issuer subject then .ocspNotYetValid
      else if (B.nextUpdate r issuer subject).any (· < t) then .ocspHasExpired
      else .ocspResponseGood

/-- A minute, in nanoseconds. -/
def minute : ℤ := 60000000000

structure CacheEntry where
  ocspResponse : Response
  validUntil : ℤ

/-- `m_cache`, by fingerprint. -/
abbrev Cache := String → Option CacheEntry

/-- How `fetchOCSPResponse` ends. -/
inductive Fetch
  | throws
  | nothing
  | response (r : Response)
  deriving DecidableEq, Repr

/-- A call of `getOCSPResponse`: its arguments, what it would fetch, and its three readings of the
clock — at the look-up, at the check of what has been fetched, and in `intoCache`. -/
structure Call (κ : Type) where
  issuer : κ
  subject : κ
  now : ℤ
  checked : ℤ
  refTime : ℤ
  fetched : Fetch

/-- What a call has returned, and the reading of the clock it rests on. -/
structure Returned (κ : Type) where
  issuer : κ
  subject : κ
  time : ℤ
  result : Response
  deriving DecidableEq

variable {κ : Type} (B : Botan κ) (maxDuration : ℤ)

/-! ## The calls -/

/-- `fromCache`. -/
def fromCache (cache : Cache) (fingerprint : String) (now : ℤ) : Response :=
  match cache fingerprint with
  | some entry => if entry.validUntil < now then [] else entry.ocspResponse
  | none => []

/-- The loop of `intoCache`. -/
def cacheDuration (notYetValid : ℤ → Bool) (duration : ℤ) : ℤ :=
  if duration ≠ 0 ∧ notYetValid duration then cacheDuration notYetValid (duration.tdiv 2) else duration
termination_by duration.natAbs
decreasing_by
  rw [Int.natAbs_tdiv]
  exact Nat.div_lt_self (by omega) (by decide)

/-- `intoCache`: the entry for what has been fetched. -/
def intoCache (cache : Cache) (c : Call κ) (r : Response) : Cache :=
  let duration := cacheDuration
    (fun d => B.statusFor r c.issuer c.subject (c.refTime + d * minute) = .ocspNotYetValid) maxDuration
  update cache (B.fingerprint c.subject) (some ⟨r, c.refTime + duration * minute⟩)

/-- `getOCSPResponse`: the cache after it, and what it returns; `none` where the fetch throws. -/
def getOCSPResponse (cache : Cache) (c : Call κ) : Option (Cache × Returned κ) :=
  let cached := fromCache cache (B.fingerprint c.subject) c.now
  if cached ≠ [] then some (cache, ⟨c.issuer, c.subject, c.now, cached⟩)
  else match c.fetched with
    | .throws => none
    | .nothing => some (cache, ⟨c.issuer, c.subject, c.checked, []⟩)
    | .response r =>
      if B.successful r ∧ B.statusFor r c.issuer c.subject c.checked = .ocspResponseGood then
        some (intoCache B maxDuration cache c r, ⟨c.issuer, c.subject, c.checked, r⟩)
      else some (cache, ⟨c.issuer, c.subject, c.checked, []⟩)

/-- The cache, and the latest reading of the clock. -/
structure State where
  cache : Cache := fun _ => none
  clock : ℤ

/-- One call; the clock never goes back. -/
def step (s : State) (c : Call κ) : Option (State × Option (Returned κ)) :=
  if s.clock ≤ c.now ∧ c.now ≤ c.checked ∧ c.checked ≤ c.refTime then
    match getOCSPResponse B maxDuration s.cache c with
    | some (cache, returned) => some (⟨cache, c.refTime⟩, some returned)
    | none => some (⟨s.cache, c.refTime⟩, none)
  else none

/-- The cache of a server, call after call. -/
def machine : Machine State (Call κ) (Returned κ) := ⟨step B maxDuration⟩

/-! ## What is promised, and when it holds -/

/-- **Not stale**: what is returned, if anything, is good at that time, and not past its
`next_update`. -/
def Fresh (e : Returned κ) : Prop :=
  e.result ≠ [] → B.statusFor e.result e.issuer e.subject e.time = .ocspResponseGood ∧
    ∀ next ∈ B.nextUpdate e.result e.issuer e.subject, e.time ≤ next

/-- The response that a call puts into the cache. -/
def Caches (s : State) (c : Call κ) (r : Response) : Prop :=
  fromCache s.cache (B.fingerprint c.subject) c.now = [] ∧ c.fetched = .response r ∧
    B.successful r = true ∧ B.statusFor r c.issuer c.subject c.checked = .ocspResponseGood

/-- **What freshness takes**: a fingerprint stands for one certificate and its issuer, and a response
that is cached does not expire within the configured duration. -/
def Lasting : Guard State (Call κ) (Returned κ) := fun τ s c =>
  (∀ e ∈ τ, e.result ≠ [] → B.fingerprint e.subject = B.fingerprint c.subject →
    e.issuer = c.issuer ∧ e.subject = c.subject) ∧
  ∀ r, Caches B s c r → ∀ next ∈ B.nextUpdate r c.issuer c.subject,
    c.refTime + max maxDuration 0 * minute ≤ next

/-! ## One call -/

section Step

variable {B maxDuration} {s t : State} {c : Call κ} {o : Option (Returned κ)} {r : Response}
  {issuer subject : κ}

/-- **The guess never backs off**: a duration at whose end the response is not "not yet valid" is
taken as it is. -/
theorem cacheDuration_of_not {notYetValid : ℤ → Bool} {d : ℤ} (h : notYetValid d = false) :
    cacheDuration notYetValid d = d := by
  rw [cacheDuration, if_neg (by simp [h])]

theorem cacheDuration_le (notYetValid : ℤ → Bool) (d : ℤ) :
    cacheDuration notYetValid d ≤ max d 0 := by
  induction d using cacheDuration.induct notYetValid with
  | case1 d hd ih =>
    rw [cacheDuration, if_pos hd]
    refine ih.trans (max_le ?_ (le_max_right _ _))
    rcases le_total 0 d with hpos | hneg
    · exact (Int.tdiv_le_self _ hpos).trans (le_max_left _ _)
    · have hnonneg : 0 ≤ -(d.tdiv 2) := by
        rw [← Int.neg_tdiv]
        exact Int.tdiv_nonneg (by omega) (by decide)
      exact (Int.nonpos_of_neg_nonneg hnonneg).trans (le_max_right _ _)
  | case2 d hd =>
    rw [cacheDuration, if_neg hd]
    exact le_max_left _ _

/-- What is good is past its `this_update`. -/
theorem Botan.Windowed.this_le (hB : B.Windowed) {t₀ : ℤ}
    (hgood : B.statusFor r issuer subject t₀ = .ocspResponseGood) :
    B.thisUpdate r issuer subject ≤ t₀ := by
  by_contra hlt
  have hnot := hB _ _ _ _ hgood t₀
  rw [hgood, if_pos (not_le.mp hlt)] at hnot
  cases hnot

/-- What is good is not past its `next_update`. -/
theorem Botan.Windowed.le_next (hB : B.Windowed) {t₀ next : ℤ}
    (hgood : B.statusFor r issuer subject t₀ = .ocspResponseGood)
    (hnext : next ∈ B.nextUpdate r issuer subject) : t₀ ≤ next := by
  by_contra hlt
  have hnext : B.nextUpdate r issuer subject = some next := hnext
  have hnot := hB _ _ _ _ hgood t₀
  rw [hgood, if_neg (not_lt.mpr (hB.this_le hgood)), if_pos (by simp [hnext, not_le.mp hlt])] at hnot
  cases hnot

/-- A response that is good stays so until its `next_update`. -/
theorem Botan.Windowed.good_later (hB : B.Windowed) {t₀ t₁ : ℤ}
    (hgood : B.statusFor r issuer subject t₀ = .ocspResponseGood) (hle : t₀ ≤ t₁)
    (hnext : ∀ next ∈ B.nextUpdate r issuer subject, t₁ ≤ next) :
    B.statusFor r issuer subject t₁ = .ocspResponseGood := by
  rw [hB _ _ _ _ hgood t₁, if_neg (not_lt.mpr ((hB.this_le hgood).trans hle)), if_neg]
  simpa [Option.any_eq_true] using hnext

/-- …and is expired after it. -/
theorem Botan.Windowed.expired_after (hB : B.Windowed) {t₀ t₁ next : ℤ}
    (hgood : B.statusFor r issuer subject t₀ = .ocspResponseGood) (hle : t₀ ≤ t₁)
    (hnext : B.nextUpdate r issuer subject = some next) (hlt : next < t₁) :
    B.statusFor r issuer subject t₁ = .ocspHasExpired := by
  rw [hB _ _ _ _ hgood t₁, if_neg (not_lt.mpr ((hB.this_le hgood).trans hle)),
    if_pos (by simp [hnext, hlt])]

theorem Botan.Windowed.ne_notYetValid (hB : B.Windowed) {t₀ t₁ : ℤ}
    (hgood : B.statusFor r issuer subject t₀ = .ocspResponseGood) (hle : t₀ ≤ t₁) :
    B.statusFor r issuer subject t₁ ≠ .ocspNotYetValid := by
  rw [hB _ _ _ _ hgood t₁, if_neg (not_lt.mpr ((hB.this_le hgood).trans hle))]
  split <;> simp

/-- What a returned result is fresh by. -/
theorem Botan.Windowed.fresh_of_good (hB : B.Windowed) {e : Returned κ}
    (hgood : e.result ≠ [] → B.statusFor e.result e.issuer e.subject e.time = .ocspResponseGood) :
    Fresh B e := fun hne => ⟨hgood hne, fun _ hnext => hB.le_next (hgood hne) hnext⟩

theorem getOCSPResponse_of_caches (h : Caches B s c r) : getOCSPResponse B maxDuration s.cache c =
    some (intoCache B maxDuration s.cache c r, ⟨c.issuer, c.subject, c.checked, r⟩) := by
  obtain ⟨hcached, hfetched, hr⟩ := h
  simp only [getOCSPResponse, hcached, hfetched, ne_eq, not_true_eq_false, if_false]
  exact if_pos hr

/-- **All that a call can do**: serve what is cached, put into the cache what it has fetched, or leave
the cache alone and return nothing. -/
theorem step_cases (h : step B maxDuration s c = some (t, o)) :
    (s.clock ≤ c.now ∧ c.now ≤ c.checked ∧ c.checked ≤ c.refTime) ∧ t.clock = c.refTime ∧
      ((t.cache = s.cache ∧ o = some ⟨c.issuer, c.subject, c.now,
          fromCache s.cache (B.fingerprint c.subject) c.now⟩) ∨
        (∃ r, Caches B s c r ∧ t.cache = intoCache B maxDuration s.cache c r ∧
          o = some ⟨c.issuer, c.subject, c.checked, r⟩) ∨
        (t.cache = s.cache ∧ ∀ e, o = some e → e.result = [])) := by
  rw [step] at h
  split at h
  case isFalse => cases h
  case isTrue htimes =>
    refine ⟨htimes, ?_⟩
    rw [getOCSPResponse] at h
    by_cases hcached : fromCache s.cache (B.fingerprint c.subject) c.now = []
    · simp only [hcached, ne_eq, not_true_eq_false, if_false] at h
      cases hfetched : c.fetched with
      | throws =>
        simp only [hfetched] at h
        cases h
        exact ⟨rfl, Or.inr (Or.inr ⟨rfl, by rintro _ ⟨⟩⟩)⟩
      | nothing =>
        simp only [hfetched] at h
        cases h
        exact ⟨rfl, Or.inr (Or.inr ⟨rfl, by rintro _ ⟨⟩; rfl⟩)⟩
      | response r =>
        simp only [hfetched] at h
        by_cases hr : B.successful r = true ∧
            B.statusFor r c.issuer c.subject c.checked = .ocspResponseGood
        · rw [if_pos hr] at h
          cases h
          exact ⟨rfl, Or.inr (Or.inl ⟨r, ⟨hcached, hfetched, hr⟩, rfl, rfl⟩)⟩
        · rw [if_neg hr] at h
          cases h
          exact ⟨rfl, Or.inr (Or.inr ⟨rfl, by rintro _ ⟨⟩; rfl⟩)⟩
    · simp only [ne_eq, hcached, not_false_eq_true, if_true] at h
      cases h
      exact ⟨rfl, Or.inl ⟨rfl, rfl⟩⟩

/-- What the cache serves is in an entry that has not run out. -/
theorem exists_entry_of_fromCache {cache : Cache} {fp : String} {now : ℤ}
    (h : fromCache cache fp now ≠ []) : ∃ entry, cache fp = some entry ∧ now ≤ entry.validUntil ∧
      fromCache cache fp now = entry.ocspResponse := by
  rw [fromCache] at h ⊢
  split at h
  case h_1 entry hentry =>
    split at h
    case isTrue => exact absurd rfl h
    case isFalse hlt => exact ⟨entry, hentry, not_lt.mp hlt, if_neg hlt⟩
  case h_2 => exact absurd rfl h

end Step

/-! ## Along a run -/

/-- An entry is **backed**: its response was returned for a certificate with that fingerprint, and is
good for it from now on until the entry runs out. -/
def Backed (τ : List (Returned κ)) (s : State) : Prop :=
  ∀ fp entry, s.cache fp = some entry → ∃ e ∈ τ, B.fingerprint e.subject = fp ∧
    e.result = entry.ocspResponse ∧ ∀ now, s.clock ≤ now → now ≤ entry.validUntil →
      B.statusFor entry.ocspResponse e.issuer e.subject now = .ocspResponseGood

variable {B maxDuration} {τ : List (Returned κ)} {s t : State} {c : Call κ}
  {o : Option (Returned κ)} {r : Response}

theorem Backed.later (h : Backed B τ s) (hcache : t.cache = s.cache) (hclock : s.clock ≤ t.clock) :
    Backed B (τ ++ o.toList) t := by
  intro fp entry hentry
  rw [hcache] at hentry
  obtain ⟨e, hmem, hfp, hres, hgood⟩ := h fp entry hentry
  exact ⟨e, List.mem_append_left _ hmem, hfp, hres, fun now hle => hgood now (hclock.trans hle)⟩

/-- **The step lemma.**  A call keeps the entries backed. -/
theorem Backed.step (hB : B.Windowed) (h : Backed B τ s) (hC : Lasting B maxDuration τ s c)
    (hstep : step B maxDuration s c = some (t, o)) : Backed B (τ ++ o.toList) t := by
  obtain ⟨⟨hnow, hchecked, href⟩, hclock, hcase⟩ := step_cases hstep
  have hlater : s.clock ≤ t.clock := by omega
  rcases hcase with ⟨hcache, -⟩ | ⟨r, hcaches, hcache, rfl⟩ | ⟨hcache, -⟩
  · exact h.later hcache hlater
  · intro fp entry hentry
    rw [hcache, intoCache] at hentry
    by_cases hfp : fp = B.fingerprint c.subject
    · -- the new entry: it runs out within the configured duration, hence before `next_update`
      subst hfp
      rw [update_self] at hentry
      cases hentry
      refine ⟨_, List.mem_append_right _ (List.mem_singleton.mpr rfl), rfl, rfl,
        fun now hle huntil => ?_⟩
      refine hB.good_later hcaches.2.2.2 (by omega) fun next hnext => huntil.trans ?_
      refine le_trans ?_ (hC.2 r hcaches next hnext)
      exact Int.add_le_add_left
        (Int.mul_le_mul_of_nonneg_right (cacheDuration_le _ _) (by decide)) _
    · rw [update_of_ne hfp] at hentry
      exact h.later (o := some ⟨c.issuer, c.subject, c.checked, r⟩) (t := ⟨s.cache, t.clock⟩) rfl
        hlater fp entry hentry
  · exact h.later hcache hlater

/-- **Staples are fresh** in every run whose calls are `Lasting`. -/
theorem staples_fresh (hB : B.Windowed) {start : ℤ}
    (h : (machine B maxDuration).Run (Lasting B maxDuration) ⟨fun _ => none, start⟩ τ s) :
    Always (fun _ => Fresh B) τ := by
  refine h.always (I := Backed B) (fun _ _ hentry => by cases hentry)
    (fun τ s c t o hI hC hstep => hI.step hB hC hstep) fun τ s c t e hI hC hstep => ?_
  refine hB.fresh_of_good fun hne => ?_
  obtain ⟨⟨hnow, -, -⟩, -, hcase⟩ := step_cases hstep
  rcases hcase with ⟨-, he⟩ | ⟨r, hcaches, -, he⟩ | ⟨-, he⟩
  · cases he
    obtain ⟨entry, hentry, huntil, hfrom⟩ := exists_entry_of_fromCache hne
    obtain ⟨e, hmem, hfp, hres, hgood⟩ := hI _ entry hentry
    obtain ⟨hissuer, hsubject⟩ := hC.1 e hmem (by rw [hres, ← hfrom]; exact hne) hfp
    rw [hissuer, hsubject] at hgood
    simpa [hfrom] using hgood c.now hnow huntil
  · cases he
    exact hcaches.2.2.2
  · exact absurd (he e rfl) hne

/-- **A short response goes stale**: where a call caches one that expires within the configured
duration, the same certificate can be served it when it has expired. -/
theorem stale_of_short (hB : B.Windowed) {next : ℤ} (hr : r ≠ []) (hcaches : Caches B s c r)
    (hd : 0 ≤ maxDuration) (hstep : step B maxDuration s c = some (t, o))
    (hnext : B.nextUpdate r c.issuer c.subject = some next)
    (hshort : next < c.refTime + maxDuration * minute) :
    ∃ now t', step B maxDuration t
        { c with now := now, checked := now, refTime := now, fetched := .nothing } =
          some (t', some ⟨c.issuer, c.subject, now, r⟩) ∧
      B.statusFor r c.issuer c.subject now = .ocspHasExpired := by
  obtain ⟨htimes, hclock, -⟩ := step_cases hstep
  have hcache : t.cache = intoCache B maxDuration s.cache c r := by
    rw [step, if_pos htimes, getOCSPResponse_of_caches hcaches] at hstep
    cases hstep
    rfl
  have hminutes : 0 ≤ maxDuration * minute := Int.mul_nonneg hd (by decide)
  have hentry : t.cache (B.fingerprint c.subject) = some ⟨r, c.refTime + maxDuration * minute⟩ := by
    rw [hcache, intoCache, update_self, cacheDuration_of_not]
    exact decide_eq_false (hB.ne_notYetValid hcaches.2.2.2 (by omega))
  let now := max c.refTime (next + 1)
  have hnow : c.refTime ≤ now ∧ next < now ∧ now ≤ c.refTime + maxDuration * minute := by
    omega
  have hserved : fromCache t.cache (B.fingerprint c.subject) now = r := by
    rw [fromCache, hentry]
    exact if_neg (not_lt.mpr hnow.2.2)
  refine ⟨now, ⟨t.cache, now⟩, ?_, hB.expired_after hcaches.2.2.2 (by omega) hnext hnow.2.1⟩
  rw [step, if_pos ⟨hclock ▸ hnow.1, le_rfl, le_rfl⟩, getOCSPResponse]
  simp [hserved, hr]

/-! ## On the running system -/

/-- The certificate `1`, issued by `0`; every response for it is good from the start of the clock to
its second hour. -/
def twoHours : Botan ℕ where
  fingerprint _ := "FP"
  successful _ := true
  statusFor _ issuer subject now :=
    if issuer = 0 ∧ subject = 1 then
      if now < 0 then .ocspNotYetValid
      else if 120 * minute < now then .ocspHasExpired else .ocspResponseGood
    else .other
  thisUpdate _ _ _ := 0
  nextUpdate _ _ _ := some (120 * minute)

theorem twoHours_windowed : twoHours.Windowed := by
  intro r issuer subject t₀ hgood t
  have hcert : issuer = 0 ∧ subject = 1 := by
    by_contra hcert
    simp [twoHours, hcert] at hgood
  simp [twoHours, hcert]

/-- A staple asked for at `now`, for that certificate. -/
def ask (now : ℤ) (fetched : Fetch) : Call ℕ := ⟨0, 1, now, now, now, fetched⟩

/-- The cache after a first call, at the start of the clock. -/
def stapled (maxDuration : ℤ) : Cache :=
  intoCache twoHours maxDuration (fun _ => none) (ask 0 (.response [48])) [48]

theorem ask_first :
    (machine twoHours maxDuration).step ⟨fun _ => none, 0⟩ (ask 0 (.response [48])) =
      some (⟨stapled maxDuration, 0⟩, some ⟨0, 1, 0, [48]⟩) := rfl

theorem stapled_entry (hd : 0 ≤ maxDuration * minute) :
    stapled maxDuration "FP" = some ⟨[48], 0 + maxDuration * minute⟩ := by
  rw [stapled, intoCache, cacheDuration_of_not]
  · exact update_self ..
  · have hgood : twoHours.statusFor [48] 0 1 0 = .ocspResponseGood := rfl
    refine decide_eq_false (twoHours_windowed.ne_notYetValid hgood ?_)
    change (0 : ℤ) ≤ 0 + maxDuration * minute
    omega

theorem ask_again {now : ℤ} (hpos : 0 ≤ now) (h : now ≤ maxDuration * minute) :
    (machine twoHours maxDuration).step ⟨stapled maxDuration, 0⟩ (ask now .throws) =
      some (⟨stapled maxDuration, now⟩, some ⟨0, 1, now, [48]⟩) := by
  have hserved : fromCache (stapled maxDuration) (twoHours.fingerprint 1) now = [48] := by
    rw [fromCache, show twoHours.fingerprint 1 = "FP" from rfl, stapled_entry (hpos.trans h)]
    refine if_neg (not_lt.mpr ?_)
    rwa [Int.zero_add]
  have htimes : (0 : ℤ) ≤ now ∧ now ≤ now ∧ now ≤ now := ⟨hpos, le_rfl, le_rfl⟩
  simp [machine, step, getOCSPResponse, ask, hserved, htimes]

/-- With an hour of caching the response is served fresh, half an hour later too. -/
theorem staples_fresh_hour : Always (fun _ => Fresh twoHours)
    [⟨0, 1, 0, [48]⟩, ⟨0, 1, 30 * minute, [48]⟩] := by
  have hfirst : (machine twoHours 60).Run (Lasting twoHours 60) ⟨fun _ => none, 0⟩
      [⟨0, 1, 0, [48]⟩] ⟨stapled 60, 0⟩ := by
    refine Machine.Run.nil.concat ⟨by simp, fun r _ next hnext => ?_⟩ ask_first
    cases hnext
    decide
  have hrun : (machine twoHours 60).Run (Lasting twoHours 60) ⟨fun _ => none, 0⟩
      [⟨0, 1, 0, [48]⟩, ⟨0, 1, 30 * minute, [48]⟩] ⟨stapled 60, 30 * minute⟩ := by
    refine hfirst.concat ⟨fun e he _ _ => ?_, fun r hr => ?_⟩
      (ask_again (by decide) (by decide))
    · cases List.mem_singleton.mp he
      exact ⟨rfl, rfl⟩
    · cases hr.2.1
  exact staples_fresh twoHours_windowed hrun

/-- With the six hours that are the default, it is served a minute after it has expired. -/
theorem not_staples_fresh : ¬ ∀ (B : Botan ℕ) (maxDuration start : ℤ) (τ : List (Returned ℕ))
    (s : State), B.Windowed → (machine B maxDuration).Run Guard.free ⟨fun _ => none, start⟩ τ s →
      Always (fun _ => Fresh B) τ := by
  intro hall
  have hfirst : (machine twoHours 360).Run Guard.free ⟨fun _ => none, 0⟩ [⟨0, 1, 0, [48]⟩]
      ⟨stapled 360, 0⟩ := Machine.Run.nil.concat trivial ask_first
  have hrun : (machine twoHours 360).Run Guard.free ⟨fun _ => none, 0⟩
      [⟨0, 1, 0, [48]⟩, ⟨0, 1, 121 * minute, [48]⟩] ⟨stapled 360, 121 * minute⟩ :=
    hfirst.concat trivial (ask_again (by decide) (by decide))
  have hfresh := hall twoHours 360 0 _ _ twoHours_windowed hrun [⟨0, 1, 0, [48]⟩] _ [] rfl
  exact absurd (hfresh (by decide)).1 (by decide)

end ManagementSensors.OcspCache
