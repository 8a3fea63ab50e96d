import ManagementSensors.Server.OcspCache

/-!
# Server/SharedCache — the handshakes that share the cache of responses

The handshakes of the TLS engine run on many threads, and `getOCSPResponse` holds the mutex of the
cache only for its look-up and for its write: between the two it fetches, checks and reads the clock,
and others do the same.

    fromCache ─hit──▸ staple
        └─miss─▸ fetch ─▸ check ─▸ ref_time ─▸ write, staple

Whatever the interleaving, what a handshake writes it has itself found good, in the same call, before
it read the clock; and what is stapled from the cache was written for that fingerprint, no further back
than the configured duration (`staples_backed`).
-/

open Machinery Function

namespace ManagementSensors.OcspCache

variable {η κ : Type} (B : Botan κ) (maxDuration : ℤ)

/-- **Where a handshake stands** in `getOCSPResponse`. -/
inductive Handshake (κ : Type)
  | idle
  | fetching (issuer subject : κ)
  | checked (issuer subject : κ) (r : Response)
  | storing (issuer subject : κ) (r : Response) (refTime : ℤ)

structure Shared (η κ : Type) where
  cache : Cache := fun _ => none
  clock : ℤ
  phase : η → Handshake κ := fun _ => .idle

/-- The next thing a handshake does, or time that passes. -/
inductive Next (η κ : Type)
  | looksUp (h : η) (issuer subject : κ)
  | fetches (h : η) (f : Fetch)
  | readsClock (h : η)
  | writes (h : η)
  | passes (d : ℕ)

/-- What is seen: a response from the cache, one that is found good, one that is written and stapled,
and a handshake without a staple. -/
inductive Seen (η κ : Type)
  | hit (h : η) (issuer subject : κ) (now : ℤ) (r : Response)
  | found (h : η) (issuer subject : κ) (now : ℤ) (r : Response)
  | wrote (h : η) (issuer subject : κ) (refTime : ℤ) (r : Response)
  | nothing (h : η) (issuer subject : κ)

/-- The handshake whose step is seen. -/
def Seen.handshake : Seen η κ → η
  | .hit h _ _ _ _ | .found h _ _ _ _ | .wrote h _ _ _ _ | .nothing h _ _ => h

section Model

section Steps

variable [DecidableEq η]

/-- The handshake `h` goes on to `p`. -/
def Shared.put (s : Shared η κ) (h : η) (p : Handshake κ) : Shared η κ :=
  { s with phase := update s.phase h p }

@[simp] theorem Shared.put_cache (s : Shared η κ) (h : η) (p : Handshake κ) :
    (s.put h p).cache = s.cache := rfl

@[simp] theorem Shared.put_clock (s : Shared η κ) (h : η) (p : Handshake κ) :
    (s.put h p).clock = s.clock := rfl

@[simp] theorem Shared.put_phase (s : Shared η κ) (h : η) (p : Handshake κ) :
    (s.put h p).phase = update s.phase h p := rfl

/-- The duration that `intoCache` comes to for a response. -/
def durationOf (r : Response) (issuer subject : κ) (refTime : ℤ) : ℤ :=
  cacheDuration (fun d => B.statusFor r issuer subject (refTime + d * minute) = .ocspNotYetValid)
    maxDuration

/-- **One step** of one handshake.  A fetch that throws, or whose response is not good, ends it. -/
def sharedStep (s : Shared η κ) : Next η κ → Option (Shared η κ × Option (Seen η κ))
  | .looksUp h issuer subject =>
    match s.phase h with
    | .idle =>
      let cached := fromCache s.cache (B.fingerprint subject) s.clock
      if cached ≠ [] then some (s, some (.hit h issuer subject s.clock cached))
      else some (s.put h (.fetching issuer subject), none)
    | _ => none
  | .fetches h f =>
    match s.phase h with
    | .fetching issuer subject =>
      match f with
      | .throws | .nothing => some (s.put h .idle, some (.nothing h issuer subject))
      | .response r =>
        if B.successful r ∧ B.statusFor r issuer subject s.clock = .ocspResponseGood then
          some (s.put h (.checked issuer subject r), some (.found h issuer subject s.clock r))
        else some (s.put h .idle, some (.nothing h issuer subject))
    | _ => none
  | .readsClock h =>
    match s.phase h with
    | .checked issuer subject r => some (s.put h (.storing issuer subject r s.clock), none)
    | _ => none
  | .writes h =>
    match s.phase h with
    | .storing issuer subject r refTime =>
      let validUntil := refTime + durationOf B maxDuration r issuer subject refTime * minute
      some ({ s.put h .idle with
          cache := update s.cache (B.fingerprint subject) (some ⟨r, validUntil⟩) },
        some (.wrote h issuer subject refTime r))
    | _ => none
  | .passes d => some ({ s with clock := s.clock + d }, none)

/-- The handshakes of a server on its cache. -/
def handshakes : Machine (Shared η κ) (Next η κ) (Seen η κ) := ⟨sharedStep B maxDuration⟩

variable {B maxDuration} {s t : Shared η κ} {i : Next η κ} {o : Option (Seen η κ)}

/-- **All that a step can do.** -/
inductive SharedCases (B : Botan κ) (maxDuration : ℤ) (s : Shared η κ) :
    Shared η κ → Option (Seen η κ) → Prop
  | hit {h : η} {issuer subject : κ} (hphase : s.phase h = .idle)
      (hcached : fromCache s.cache (B.fingerprint subject) s.clock ≠ []) :
      SharedCases B maxDuration s s (some (.hit h issuer subject s.clock
        (fromCache s.cache (B.fingerprint subject) s.clock)))
  | miss {h : η} {issuer subject : κ} :
      SharedCases B maxDuration s (s.put h (.fetching issuer subject)) none
  | gone {h : η} {issuer subject : κ} :
      SharedCases B maxDuration s (s.put h .idle) (some (.nothing h issuer subject))
  | found {h : η} {issuer subject : κ} {r : Response}
      (hgood : B.statusFor r issuer subject s.clock = .ocspResponseGood) :
      SharedCases B maxDuration s (s.put h (.checked issuer subject r))
        (some (.found h issuer subject s.clock r))
  | clock {h : η} {issuer subject : κ} {r : Response} (hphase : s.phase h = .checked issuer subject r) :
      SharedCases B maxDuration s (s.put h (.storing issuer subject r s.clock)) none
  | wrote {h : η} {issuer subject : κ} {r : Response} {refTime : ℤ}
      (hphase : s.phase h = .storing issuer subject r refTime) :
      SharedCases B maxDuration s { s.put h .idle with
        cache := update s.cache (B.fingerprint subject)
          (some ⟨r, refTime + durationOf B maxDuration r issuer subject refTime * minute⟩) }
        (some (.wrote h issuer subject refTime r))
  | passes (d : ℕ) : SharedCases B maxDuration s { s with clock := s.clock + d } none

theorem sharedStep_cases (hstep : sharedStep B maxDuration s i = some (t, o)) :
    SharedCases B maxDuration s t o := by
  cases i with
  | looksUp h issuer subject =>
    simp only [sharedStep] at hstep
    split at hstep
    case h_2 => cases hstep
    case h_1 hphase =>
      split at hstep <;> cases hstep
      case isTrue hcached => exact .hit hphase hcached
      case isFalse => exact .miss
  | fetches h f =>
    simp only [sharedStep] at hstep
    split at hstep
    case h_2 => cases hstep
    case h_1 =>
      cases f with
      | throws | nothing =>
        cases hstep
        exact .gone
      | response r =>
        dsimp only at hstep
        split at hstep
        case isTrue hr =>
          cases hstep
          exact .found hr.2
        case isFalse =>
          cases hstep
          exact .gone
  | readsClock h =>
    simp only [sharedStep] at hstep
    split at hstep <;> cases hstep
    exact .clock ‹_›
  | writes h =>
    simp only [sharedStep] at hstep
    split at hstep <;> cases hstep
    exact .wrote ‹_›
  | passes d =>
    cases hstep
    exact .passes d

end Steps

/-! ## What a response rests on -/

variable {B maxDuration} {s t : Shared η κ} {o : Option (Seen η κ)} {τ : List (Seen η κ)}

/-- **What handshake `h` holds** has been found good by itself for the certificate, no later than
`time`, and it has not been seen since. -/
def FoundBy (B : Botan κ) (τ : List (Seen η κ)) (h : η) (issuer subject : κ) (time : ℤ)
    (r : Response) : Prop :=
  ∃ τ₁ τ₂ now, τ = τ₁ ++ .found h issuer subject now r :: τ₂ ∧ (∀ e ∈ τ₂, e.handshake ≠ h) ∧
    now ≤ time ∧ B.statusFor r issuer subject now = .ocspResponseGood

/-- **What a staple rests on.**  A response that is written has been found good by the handshake that
writes it, before the clock was read for it.  One from the cache has been written for its fingerprint,
no longer ago than the configured duration, and is good now or past its `next_update`. -/
def Rests (B : Botan κ) (maxDuration : ℤ) (τ : List (Seen η κ)) : Seen η κ → Prop
  | .wrote h issuer subject refTime r => FoundBy B τ h issuer subject refTime r
  | .hit _ _ subject now r => ∃ h' issuer' subject' refTime,
      .wrote h' issuer' subject' refTime r ∈ τ ∧ B.fingerprint subject' = B.fingerprint subject ∧
      refTime ≤ now ∧ now ≤ refTime + max maxDuration 0 * minute ∧
      (B.statusFor r issuer' subject' now = .ocspResponseGood ∨
        ∃ next ∈ B.nextUpdate r issuer' subject', next < now)
  | _ => True

theorem FoundBy.append {h : η} {issuer subject : κ} {time time' : ℤ} {r : Response}
    (hfound : FoundBy B τ h issuer subject time r) (ho : ∀ e ∈ o, e.handshake ≠ h)
    (htime : time ≤ time') : FoundBy B (τ ++ o.toList) h issuer subject time' r := by
  obtain ⟨τ₁, τ₂, now, rfl, hnone, hle, hgood⟩ := hfound
  refine ⟨τ₁, τ₂ ++ o.toList, now, by simp, fun e he => ?_, hle.trans htime, hgood⟩
  rcases List.mem_append.mp he with he | he
  · exact hnone e he
  · exact ho e (Option.mem_toList.mp he)

/-- **The invariant of the handshakes**: what they hold they have found good, and what is in the cache
was good when it was written by one of them, to run out within the configured duration. -/
structure Resting (B : Botan κ) (maxDuration : ℤ) (τ : List (Seen η κ)) (s : Shared η κ) : Prop where
  checked : ∀ h issuer subject r, s.phase h = .checked issuer subject r →
    FoundBy B τ h issuer subject s.clock r
  storing : ∀ h issuer subject r refTime, s.phase h = .storing issuer subject r refTime →
    refTime ≤ s.clock ∧ FoundBy B τ h issuer subject refTime r
  entry : ∀ fp entry, s.cache fp = some entry → ∃ h issuer subject now refTime,
    .wrote h issuer subject refTime entry.ocspResponse ∈ τ ∧ B.fingerprint subject = fp ∧
    now ≤ refTime ∧ B.statusFor entry.ocspResponse issuer subject now = .ocspResponseGood ∧
    refTime ≤ s.clock ∧ entry.validUntil ≤ refTime + max maxDuration 0 * minute

theorem resting_nil (start : ℤ) :
    Resting B maxDuration ([] : List (Seen η κ)) { clock := start } where
  checked := nofun
  storing := nofun
  entry := nofun

/-- The entries stay as they are. -/
theorem Resting.entries (hR : Resting B maxDuration τ s) {clock : ℤ} (hclock : s.clock ≤ clock) :
    ∀ fp entry, s.cache fp = some entry → ∃ h issuer subject now refTime,
      .wrote h issuer subject refTime entry.ocspResponse ∈ τ ++ o.toList ∧
      B.fingerprint subject = fp ∧ now ≤ refTime ∧
      B.statusFor entry.ocspResponse issuer subject now = .ocspResponseGood ∧ refTime ≤ clock ∧
      entry.validUntil ≤ refTime + max maxDuration 0 * minute := by
  intro fp entry hentry
  obtain ⟨h, issuer, subject, now, refTime, hmem, hfp, hnow, hgood, hle, huntil⟩ :=
    hR.entry fp entry hentry
  exact ⟨h, issuer, subject, now, refTime, List.mem_append_left _ hmem, hfp, hnow, hgood,
    hle.trans hclock, huntil⟩

variable [DecidableEq η]

/-- A handshake goes on, and the cache stays as it is. -/
theorem Resting.put (hR : Resting B maxDuration τ s) {h : η} {p : Handshake κ}
    (ho : ∀ e ∈ o, e.handshake = h)
    (hchecked : ∀ issuer subject r, p = .checked issuer subject r →
      FoundBy B (τ ++ o.toList) h issuer subject s.clock r)
    (hstoring : ∀ issuer subject r refTime, p = .storing issuer subject r refTime →
      refTime ≤ s.clock ∧ FoundBy B (τ ++ o.toList) h issuer subject refTime r) :
    Resting B maxDuration (τ ++ o.toList) (s.put h p) where
  checked j issuer subject r hj := by
    rcases eq_or_ne j h with rfl | hjh
    · exact hchecked issuer subject r (by simpa using hj)
    · exact (hR.checked j issuer subject r (by simpa [hjh] using hj)).append
        (fun e he hej => hjh (hej.symm.trans (ho e he))) le_rfl
  storing j issuer subject r refTime hj := by
    rcases eq_or_ne j h with rfl | hjh
    · exact hstoring issuer subject r refTime (by simpa using hj)
    · obtain ⟨hle, hfound⟩ := hR.storing j issuer subject r refTime (by simpa [hjh] using hj)
      exact ⟨hle, hfound.append (fun e he hej => hjh (hej.symm.trans (ho e he))) le_rfl⟩
  entry := hR.entries le_rfl

/-- **The step lemma.** -/
theorem Resting.step (hR : Resting B maxDuration τ s) (hstep : SharedCases B maxDuration s t o) :
    Resting B maxDuration (τ ++ o.toList) t := by
  cases hstep with
  | @hit h issuer subject hphase =>
    -- the handshake that hits holds nothing
    have hput := hR.put (o := some (.hit h issuer subject s.clock
      (fromCache s.cache (B.fingerprint subject) s.clock))) (h := h) (p := .idle)
      (by rintro _ ⟨⟩; rfl) nofun nofun
    rwa [Shared.put, ← hphase, update_eq_self] at hput
  | miss => exact hR.put nofun nofun nofun
  | gone => exact hR.put (by rintro _ ⟨⟩; rfl) nofun nofun
  | @found h issuer subject r hgood =>
    refine hR.put (by rintro _ ⟨⟩; rfl) ?_ nofun
    rintro _ _ _ ⟨⟩
    exact ⟨τ, [], s.clock, by simp, nofun, le_rfl, hgood⟩
  | @clock h issuer subject r hphase =>
    refine hR.put nofun nofun ?_
    rintro _ _ _ _ ⟨⟩
    exact ⟨le_rfl, (hR.checked h issuer subject r hphase).append nofun le_rfl⟩
  | @wrote h issuer subject r refTime hphase =>
    obtain ⟨hle, _, _, now, -, -, hnow, hgood⟩ := hR.storing h issuer subject r refTime hphase
    have hput := hR.put (o := some (.wrote h issuer subject refTime r)) (h := h) (p := .idle)
      (by rintro _ ⟨⟩; rfl) nofun nofun
    refine ⟨hput.checked, hput.storing, fun fp entry hentry => ?_⟩
    by_cases hfp : fp = B.fingerprint subject
    · subst hfp
      dsimp only at hentry
      rw [update_self] at hentry
      cases hentry
      refine ⟨h, issuer, subject, now, refTime, by simp, rfl, hnow, hgood, hle, ?_⟩
      exact Int.add_le_add_left
        (Int.mul_le_mul_of_nonneg_right (cacheDuration_le _ _) (by decide)) _
    · dsimp only at hentry
      rw [update_of_ne hfp] at hentry
      exact hput.entry fp entry hentry
  | passes d =>
    have hle : s.clock ≤ s.clock + d := by omega
    exact ⟨fun h issuer subject r hj => (hR.checked h issuer subject r hj).append nofun hle,
      fun h issuer subject r refTime hj => ⟨(hR.storing h issuer subject r refTime hj).1.trans hle,
        (hR.storing h issuer subject r refTime hj).2.append nofun le_rfl⟩, hR.entries hle⟩

/-- What a step shows rests on what was there. -/
theorem Resting.rests (hB : B.Windowed) (hR : Resting B maxDuration τ s) {e : Seen η κ}
    (hstep : SharedCases B maxDuration s t (some e)) : Rests B maxDuration τ e := by
  generalize ho : some e = o at hstep
  cases hstep with
  | @hit h issuer subject _ hcached =>
    cases ho
    obtain ⟨entry, hentry, huntil, hfrom⟩ := exists_entry_of_fromCache hcached
    obtain ⟨h', issuer', subject', now, refTime, hmem, hfp, hnow, hgood, hle, hmax⟩ :=
      hR.entry _ entry hentry
    rw [hfrom]
    refine ⟨h', issuer', subject', refTime, hmem, hfp, hle, huntil.trans hmax, ?_⟩
    by_cases hnext : ∃ next ∈ B.nextUpdate entry.ocspResponse issuer' subject', next < s.clock
    · exact Or.inr hnext
    · refine Or.inl (hB.good_later hgood (hnow.trans hle) fun next hmem' => ?_)
      by_contra hlt
      exact hnext ⟨next, hmem', not_le.mp hlt⟩
  | @wrote h issuer subject r refTime hphase =>
    cases ho
    exact (hR.storing h issuer subject r refTime hphase).2
  | gone | found =>
    cases ho
    trivial
  | miss | clock | passes => cases ho

/-- **Every staple is backed**, however the handshakes interleave. -/
theorem staples_backed (hB : B.Windowed) {start : ℤ}
    (hrun : (handshakes B maxDuration).Run Guard.free { clock := start } τ s) :
    Always (Rests B maxDuration) τ :=
  hrun.always (I := Resting B maxDuration) (resting_nil start)
    (fun _ _ _ _ _ hI _ hstep => hI.step (sharedStep_cases hstep))
    fun _ _ _ _ _ hI _ hstep => hI.rests hB (sharedStep_cases hstep)

/-- Two handshakes miss the cache, fetch and write; half an hour later the first hits it. -/
def bothWrite : List (Seen Bool ℕ) :=
  [.found false 0 1 0 [48], .found true 0 1 0 [48], .wrote false 0 1 0 [48], .wrote true 0 1 0 [48],
    .hit false 0 1 (30 * minute) [48]]

theorem durationOf_twoHours {d : ℤ} (hd : 0 ≤ d * minute) : durationOf twoHours d [48] 0 1 0 = d := by
  have hgood : twoHours.statusFor [48] 0 1 0 = .ocspResponseGood := rfl
  exact cacheDuration_of_not (decide_eq_false (twoHours_windowed.ne_notYetValid hgood (by omega)))

/-- Both write before it. -/
theorem exists_run_writes : ∃ s, (handshakes twoHours 60).Run Guard.free ({ clock := 0 } : Shared Bool ℕ)
    (bothWrite.take 4) s ∧
      s.cache "FP" = some ⟨[48], 0 + durationOf twoHours 60 [48] 0 1 0 * minute⟩ ∧
      s.clock = 30 * minute ∧ s.phase false = .idle := by
  have h₀ : (handshakes twoHours 60).Run Guard.free ({ clock := 0 } : Shared Bool ℕ) [] _ := .nil
  have h₁ := h₀.snoc (i := .looksUp false 0 1) (o := none) trivial rfl
  have h₂ := h₁.snoc (i := .looksUp true 0 1) (o := none) trivial rfl
  have h₃ := h₂.snoc (i := .fetches false (.response [48])) (o := some _) trivial rfl
  have h₄ := h₃.snoc (i := .fetches true (.response [48])) (o := some _) trivial rfl
  have h₅ := h₄.snoc (i := .readsClock false) (o := none) trivial rfl
  have h₆ := h₅.snoc (i := .readsClock true) (o := none) trivial rfl
  have h₇ := h₆.snoc (i := .writes false) (o := some _) trivial rfl
  have h₈ := h₇.snoc (i := .writes true) (o := some _) trivial rfl
  exact ⟨_, h₈.snoc (i := .passes (30 * 60000000000)) (o := none) trivial rfl, rfl, rfl, rfl⟩

/-- What it is given is backed. -/
theorem staples_backed_both : Always (Rests twoHours 60) bothWrite := by
  obtain ⟨s, hrun, hentry, hclock, hphase⟩ := exists_run_writes
  rw [durationOf_twoHours (by decide)] at hentry
  have hserved : fromCache s.cache (twoHours.fingerprint 1) s.clock = [48] := by
    rw [fromCache, show twoHours.fingerprint 1 = "FP" from rfl, hentry, hclock]
    exact if_neg (by decide)
  have hstep : (handshakes twoHours 60).step s (.looksUp false 0 1) =
      some (s, some (.hit false 0 1 (30 * minute) [48])) := by
    simp [handshakes, sharedStep, hphase, hserved, ← hclock]
  exact staples_backed twoHours_windowed (hrun.concat trivial hstep)

end Model

end ManagementSensors.OcspCache
