import Mathlib
import Reconcile.ControlPlane
import Reconcile.Proofs.Planning
import Reconcile.Proofs.Timestamps

/-!
# Tokens fresh from their issue

The rules for issuing a token look at a token that is there. Here they meet a
token that has just been issued by them. Usually such a token is left alone,
but a declaration can make it due the moment it exists: a lead that is no
shorter than the lifetime, an age limit of nothing, or an expiry so far away
that no instant has it. `TokenTerms.dueAtOnce` says which declarations do, and
the rules ask for a fresh token again exactly under these.
-/

namespace Reconcile

/-! ## The rules, one by one -/

/-- **Why a token that is there is issued again.** Expiry comes first, then the
renewal ahead of expiry, then the renewal after issue, and a rule is consulted
only if none before it applies. -/
theorem issueReason_eq_ok {s : TokenSpec} {terms : TokenTerms}
    {t : ObservedToken} {now : Instant} {reason : Option IssueReason} :
    s.issueReason terms (some t) now = .ok reason ↔
      t.isExpired now = true ∧ reason = some .expired ∨
      t.isExpired now = false ∧ ∃ before, s.dueBeforeExpiry terms t = .ok before ∧
        (before.any (· ≤ now) = true ∧ reason = some .renewBefore ∨
        before.any (· ≤ now) = false ∧ ∃ after, s.dueAfterIssue terms t = .ok after ∧
          reason = if after.any (· ≤ now) then some .renewAfter else none) := by
  rw [TokenSpec.issueReason]
  cases t.isExpired now with
  | true =>
      simp only [if_true, Except.ok.injEq, true_and, Bool.true_eq_false, false_and,
        or_false]
      exact eq_comm
  | false =>
      simp only [Bool.false_eq_true, if_false, bind_eq_ok, false_and, false_or,
        true_and]
      constructor
      · rintro ⟨before, hbefore, h⟩
        refine ⟨before, hbefore, ?_⟩
        split at h
        · rename_i hdue
          cases h
          exact Or.inl ⟨hdue, rfl⟩
        · rename_i hdue
          obtain ⟨after, hafter, h⟩ := bind_eq_ok.mp h
          refine Or.inr ⟨by simpa using hdue, after, hafter, ?_⟩
          split at h
          · rename_i hlate
            cases h
            rw [if_pos hlate]
          · rename_i hlate
            cases h
            rw [if_neg hlate]
      · rintro ⟨before, hbefore, ⟨hdue, rfl⟩ | ⟨hdue, after, hafter, rfl⟩⟩
        · exact ⟨before, hbefore, by rw [if_pos hdue]; rfl⟩
        · refine ⟨before, hbefore, ?_⟩
          rw [hdue, if_neg Bool.false_ne_true, bind_eq_ok]
          refine ⟨after, hafter, ?_⟩
          split
          · rfl
          · rfl

/-- A token that is alive is issued again by a renewal policy only. -/
theorem reason_of_alive {s : TokenSpec} {terms : TokenTerms} {t : ObservedToken}
    {now : Instant} {reason : IssueReason} (alive : t.isExpired now = false)
    (h : s.issueReason terms (some t) now = .ok (some reason)) :
    reason ≠ .missing ∧ reason ≠ .expired := by
  rcases issueReason_eq_ok.mp h with ⟨hexpired, _⟩ | ⟨_, _, _, h⟩
  · rw [alive] at hexpired
    cases hexpired
  · rcases h with ⟨_, hreason⟩ | ⟨_, _, _, hreason⟩
    · cases hreason
      exact ⟨nofun, nofun⟩
    · split at hreason
      · cases hreason
        exact ⟨nofun, nofun⟩
      · cases hreason

/-- None of the spans is negative. -/
structure TokenTerms.Nonneg (terms : TokenTerms) : Prop where
  expiresIn : ∀ span ∈ terms.expiresIn, 0 ≤ span.nanos
  renewBefore : ∀ span ∈ terms.renewBefore, 0 ≤ span.nanos
  renewAfter : ∀ span ∈ terms.renewAfter, 0 ≤ span.nanos

theorem span?_nonneg [DurationReader] {field : DurationField} {value : Option String}
    {span? : Option Span} (h : field.span? value = .ok span?) :
    ∀ span ∈ span?, 0 ≤ span.nanos := by
  cases value with
  | none =>
      cases h
      exact nofun
  | some value =>
      rw [DurationField.span?, map_eq_ok] at h
      obtain ⟨read, hread, rfl⟩ := h
      rintro span ⟨⟩
      exact span_nonneg hread

/-- Spans that have been read are not negative. -/
theorem terms_nonneg [DurationReader] {s : TokenSpec} {terms : TokenTerms}
    (h : s.terms = .ok terms) : terms.Nonneg := by
  simp only [TokenSpec.terms, bind_eq_ok] at h
  obtain ⟨expiresIn, he, renewBefore, hb, renewAfter, ha, h⟩ := h
  cases h
  exact ⟨span?_nonneg he, span?_nonneg hb, span?_nonneg ha⟩

/-! ## Fresh tokens -/

/-- The lifetime asked for in whole seconds, 0 for a token that never
expires. -/
def TokenTerms.seconds (terms : TokenTerms) : Int :=
  (terms.expiresIn.map Span.wholeSeconds).getD 0

theorem expiresIn_request (s : TokenSpec) (terms : TokenTerms)
    (project role : String) :
    (s.request terms project role).expiresIn = terms.seconds := rfl

/-- The expiry of a token with a lifetime, as it is seen: an expiry that no
instant has looks like the epoch. -/
def seenExpiry (now : Instant) (seconds : Int) : Option Instant :=
  if 0 < seconds then some ((now.plus? ⟨seconds * nanosPerSecond⟩).getD .epoch)
  else none

/-- A token that has just been issued for a number of seconds, as it is seen. -/
def ObservedToken.fresh (id : String) (now : Instant) (seconds : Int) :
    ObservedToken :=
  ⟨id, now, seenExpiry now seconds⟩

@[simp]
theorem issuedAt_fresh (id : String) (now : Instant) (seconds : Int) :
    (ObservedToken.fresh id now seconds).issuedAt = now := rfl

@[simp]
theorem expiresAt_fresh (id : String) (now : Instant) (seconds : Int) :
    (ObservedToken.fresh id now seconds).expiresAt = seenExpiry now seconds := rfl

/-- **A granted token is seen as a fresh one.** -/
theorem ofLive_tokenFor {now : Instant} (whole : now.subsecond = 0)
    (nonneg : 0 ≤ now.seconds) (t : TokenRequest) :
    ObservedToken.ofLive (ControlPlane.tokenFor now.seconds t) =
      ObservedToken.fresh t.id now t.expiresIn := by
  rw [ObservedToken.ofLive, ControlPlane.tokenFor, ObservedToken.fresh, seenExpiry,
    instantOfTimestamp_seconds whole]
  by_cases hpos : 0 < t.expiresIn
  · have hne : now.seconds + t.expiresIn ≠ 0 := by omega
    have hnanos : (now.seconds + t.expiresIn) * nanosPerSecond =
        now.nanos + t.expiresIn * nanosPerSecond := by
      rw [Int.add_mul, ← Instant.nanos_of_subsecond_eq_zero whole]
    simp only [if_pos hpos, if_neg hne, instantOfTimestamp, Instant.ofSeconds?,
      Instant.plus?, hnanos]
  · simp only [if_neg hpos, if_true]

/-- Whether a token is due the moment it is issued. -/
def TokenTerms.dueAtOnce (terms : TokenTerms) (now : Instant) : Bool :=
  0 < terms.seconds &&
      (terms.renewBefore.any (terms.seconds * nanosPerSecond ≤ ·.nanos) ||
        (now.plus? ⟨terms.seconds * nanosPerSecond⟩).isNone) ||
    terms.renewAfter.any (·.nanos = 0)

/-- The same of a spec; one that cannot be read is never due. -/
def TokenSpec.dueAtOnce [DurationReader] (s : TokenSpec) (now : Instant) : Bool :=
  match s.terms with
  | .ok terms => terms.dueAtOnce now
  | .error _ => false

theorem dueAtOnce_eq [DurationReader] {s : TokenSpec} {terms : TokenTerms}
    (h : s.terms = .ok terms) (now : Instant) :
    s.dueAtOnce now = terms.dueAtOnce now := by
  rw [TokenSpec.dueAtOnce, h]

section Fresh

variable {s : TokenSpec} {terms : TokenTerms} {now : Instant} {id : String}

theorem Instant.nanos_of_plus? {t u : Instant} {span : Span}
    (h : t.plus? span = some u) : u.nanos = t.nanos + span.nanos :=
  Instant.ofNanos?_eq_some_iff.mp h

theorem Instant.nanos_of_minus? {t u : Instant} {span : Span}
    (h : t.minus? span = some u) : u.nanos = t.nanos - span.nanos :=
  Instant.ofNanos?_eq_some_iff.mp h

/-- A fresh token has expired only if its expiry could not be told. -/
theorem isExpired_fresh (nonneg : 0 ≤ now.nanos) :
    (ObservedToken.fresh id now terms.seconds).isExpired now =
      (decide (0 < terms.seconds) &&
        (now.plus? ⟨terms.seconds * nanosPerSecond⟩).isNone) := by
  have hunit := nanosPerSecond_pos
  rw [ObservedToken.isExpired, expiresAt_fresh, seenExpiry]
  by_cases hpos : 0 < terms.seconds
  · rw [if_pos hpos, Option.any_some, decide_eq_true hpos, Bool.true_and]
    cases hplus : now.plus? ⟨terms.seconds * nanosPerSecond⟩ with
    | none =>
        have hepoch : Instant.epoch ≤ now := nonneg
        simpa using hepoch
    | some expiry =>
        have hnanos := Instant.nanos_of_plus? hplus
        have hlife : 0 < terms.seconds * nanosPerSecond := Int.mul_pos hpos hunit
        have hlater : ¬ expiry ≤ now := by
          rw [Instant.le_def, hnanos]
          change ¬ now.nanos + terms.seconds * nanosPerSecond ≤ now.nanos
          omega
        simpa using hlater
  · rw [if_neg hpos, decide_eq_false hpos, Bool.false_and]
    rfl

/-- The renewal ahead of expiry is due for a fresh token exactly if the lead
is no shorter than the lifetime. -/
theorem dueBeforeExpiry_fresh
    (alive : (now.plus? ⟨terms.seconds * nanosPerSecond⟩).isSome ∨
      ¬ 0 < terms.seconds) {before : Option Instant}
    (h : s.dueBeforeExpiry terms (ObservedToken.fresh id now terms.seconds) =
      .ok before) :
    before.any (· ≤ now) = (decide (0 < terms.seconds) &&
      terms.renewBefore.any (terms.seconds * nanosPerSecond ≤ ·.nanos)) := by
  rw [TokenSpec.dueBeforeExpiry, expiresAt_fresh] at h
  by_cases hpos : 0 < terms.seconds
  · obtain ⟨expiry, hexpiry⟩ :=
      Option.isSome_iff_exists.mp (alive.resolve_right fun hn => hn hpos)
    have hnanos := Instant.nanos_of_plus? hexpiry
    rw [seenExpiry, if_pos hpos, hexpiry, Option.getD_some] at h
    rw [decide_eq_true hpos, Bool.true_and]
    cases hlead : terms.renewBefore with
    | none =>
        rw [hlead] at h
        cases h
        rfl
    | some lead =>
        rw [hlead] at h
        cases hdue : expiry.minus? lead with
        | none =>
            simp only [hdue, reduceCtorEq] at h
        | some due =>
            simp only [hdue, Except.ok.injEq] at h
            subst h
            have hback := Instant.nanos_of_minus? hdue
            -- `now + lifetime - lead ≤ now` says no more than `lifetime ≤ lead`
            rw [Option.any_some, Option.any_some, decide_eq_decide,
              Instant.le_def, hback, hnanos]
            change now.nanos + terms.seconds * nanosPerSecond - lead.nanos ≤
              now.nanos ↔ _
            omega
  · rw [seenExpiry, if_neg hpos] at h
    rw [decide_eq_false hpos, Bool.false_and]
    cases hlead : terms.renewBefore with
    | none =>
        rw [hlead] at h
        cases h
        rfl
    | some lead =>
        rw [hlead] at h
        cases h
        rfl

/-- The renewal after issue is due for a fresh token exactly if it allows no
age at all. -/
theorem dueAfterIssue_fresh (readable : terms.Nonneg) {after : Option Instant}
    {seconds : Int}
    (h : s.dueAfterIssue terms (ObservedToken.fresh id now seconds) = .ok after) :
    after.any (· ≤ now) = terms.renewAfter.any (·.nanos = 0) := by
  rw [TokenSpec.dueAfterIssue] at h
  cases hage : terms.renewAfter with
  | none =>
      rw [hage] at h
      cases h
      rfl
  | some age =>
      have hnonneg := readable.renewAfter age hage
      rw [hage] at h
      dsimp only at h
      rw [issuedAt_fresh] at h
      cases hdue : now.plus? age with
      | none => simp only [hdue, reduceCtorEq] at h
      | some due =>
          simp only [hdue, Except.ok.injEq] at h
          subst h
          have hlater := Instant.nanos_of_plus? hdue
          rw [Option.any_some, Option.any_some, decide_eq_decide, Instant.le_def,
            hlater]
          omega

/-- **The rules ask again for a fresh token exactly if it is due at once.** -/
theorem isSome_issueReason_fresh (nonneg : 0 ≤ now.nanos)
    (readable : terms.Nonneg) {reason : Option IssueReason}
    (h : s.issueReason terms (some (ObservedToken.fresh id now terms.seconds)) now =
      .ok reason) :
    reason.isSome = terms.dueAtOnce now := by
  have hexpired : (ObservedToken.fresh id now terms.seconds).isExpired now = _ :=
    isExpired_fresh nonneg
  rw [TokenTerms.dueAtOnce]
  rcases issueReason_eq_ok.mp h with ⟨hgone, rfl⟩ | ⟨hlive, before, hbefore, h⟩
  · rw [hgone] at hexpired
    obtain ⟨hpos, hlost⟩ := Bool.and_eq_true_iff.mp hexpired.symm
    rw [hpos, hlost, Bool.or_true, Bool.true_and, Bool.true_or]
    rfl
  · rw [hlive] at hexpired
    have halive : (now.plus? ⟨terms.seconds * nanosPerSecond⟩).isSome ∨
        ¬ 0 < terms.seconds := by
      rcases Bool.and_eq_false_iff.mp hexpired.symm with hpos | hfound
      · exact Or.inr (of_decide_eq_false hpos)
      · exact Or.inl (by simpa [Option.isSome_iff_ne_none] using hfound)
    have hdue := dueBeforeExpiry_fresh halive hbefore
    have hor : ∀ a b c : Bool, (a && c) = false →
        (a && (b || c)) = (a && b) := by decide
    rw [hor _ _ _ hexpired.symm, ← hdue]
    rcases h with ⟨hearly, rfl⟩ | ⟨hearly, after, hafter, rfl⟩
    · rw [hearly, Bool.true_or]
      rfl
    · rw [hearly, Bool.false_or, ← dueAfterIssue_fresh readable hafter]
      cases after.any (· ≤ now) <;> rfl

theorem Instant.exists_ofNanos? {n : Int} (hlow : firstNanos ≤ n)
    (hhigh : n ≤ lastNanos) : ∃ t, Instant.ofNanos? n = some t :=
  ⟨⟨n, hlow, hhigh⟩, Instant.ofNanos?_eq_some_iff.mpr rfl⟩

/-- A lead as long as the lifetime makes every fresh token due. -/
example : TokenSpec.dueAtOnce
    { id := "a", expiresIn := some "1h", renewBefore := some "60m" } .epoch = true := by
  decide +kernel

/-- A lead shorter than the lifetime never leads out of range. -/
theorem exists_dueBeforeExpiry_fresh (readable : terms.Nonneg)
    (rested : (decide (0 < terms.seconds) &&
      (terms.renewBefore.any (terms.seconds * nanosPerSecond ≤ ·.nanos) ||
        (now.plus? ⟨terms.seconds * nanosPerSecond⟩).isNone)) = false) :
    ∃ before, s.dueBeforeExpiry terms
      (ObservedToken.fresh id now terms.seconds) = .ok before := by
  unfold TokenSpec.dueBeforeExpiry
  rw [expiresAt_fresh]
  cases hlead : terms.renewBefore with
  | none => exact ⟨none, rfl⟩
  | some lead =>
      by_cases hpos : 0 < terms.seconds
      · rw [decide_eq_true hpos, Bool.true_and, Bool.or_eq_false_iff, hlead,
          Option.any_some, decide_eq_false_iff_not] at rested
        obtain ⟨hshort, hfound⟩ := rested
        rw [seenExpiry, if_pos hpos]
        cases hexpiry : now.plus? ⟨terms.seconds * nanosPerSecond⟩ with
        | none =>
            rw [hexpiry] at hfound
            cases hfound
        | some expiry =>
            have hnanos := Instant.nanos_of_plus? hexpiry
            have hnonneg := readable.renewBefore lead hlead
            have hfirst := now.inRange.1
            have hlast := expiry.inRange.2
            change expiry.nanos = now.nanos + terms.seconds * nanosPerSecond at hnanos
            -- the due instant lies between two that there are
            obtain ⟨due, hdue⟩ : ∃ due, expiry.minus? lead = some due :=
              Instant.exists_ofNanos? (by omega) (by omega)
            exact ⟨some due, by simp only [Option.getD_some, hdue]⟩
      · rw [seenExpiry, if_neg hpos]
        exact ⟨none, rfl⟩

/-- A fresh token that is not due at once is left alone, as long as its age
limit leads to an instant. -/
theorem issueReason_fresh_eq_none (nonneg : 0 ≤ now.nanos)
    (readable : terms.Nonneg) (rested : terms.dueAtOnce now = false)
    (reachable : ∀ age ∈ terms.renewAfter, (now.plus? age).isSome) :
    s.issueReason terms (some (ObservedToken.fresh id now terms.seconds)) now =
      .ok none := by
  have hreason : ∃ reason, s.issueReason terms
      (some (ObservedToken.fresh id now terms.seconds)) now = .ok reason := by
    cases hexpired : (ObservedToken.fresh id now terms.seconds).isExpired now with
    | true => exact ⟨_, issueReason_eq_ok.mpr (Or.inl ⟨hexpired, rfl⟩)⟩
    | false =>
        rw [TokenTerms.dueAtOnce, Bool.or_eq_false_iff] at rested
        obtain ⟨before, hbefore⟩ : ∃ before, s.dueBeforeExpiry terms
            (ObservedToken.fresh id now terms.seconds) = .ok before :=
          exists_dueBeforeExpiry_fresh readable rested.1
        obtain ⟨after, hafter⟩ : ∃ after, s.dueAfterIssue terms
            (ObservedToken.fresh id now terms.seconds) = .ok after := by
          unfold TokenSpec.dueAfterIssue
          cases hage : terms.renewAfter with
          | none => exact ⟨none, rfl⟩
          | some age =>
              obtain ⟨due, hdue⟩ := Option.isSome_iff_exists.mp (reachable age hage)
              dsimp only
              rw [issuedAt_fresh, hdue]
              exact ⟨some due, rfl⟩
        cases hdue : before.any (· ≤ now) with
        | true =>
            exact ⟨_, issueReason_eq_ok.mpr
              (Or.inr ⟨hexpired, before, hbefore, Or.inl ⟨hdue, rfl⟩⟩)⟩
        | false =>
            exact ⟨_, issueReason_eq_ok.mpr (Or.inr
              ⟨hexpired, before, hbefore, Or.inr ⟨hdue, after, hafter, rfl⟩⟩)⟩
  obtain ⟨reason, hreason⟩ := hreason
  have hsome := isSome_issueReason_fresh nonneg readable hreason
  rw [rested] at hsome
  cases reason with
  | none => exact hreason
  | some reason => cases hsome

end Fresh

/-! ## Declarations that let fresh tokens be -/

/-- What a declaration must say so that fresh tokens are left alone: a lifetime
of at least a second that ends in time, a lead shorter than it, and an age limit
that ends in time and is not nothing. -/
structure TokenTerms.Sustainable (terms : TokenTerms) (now : Instant) : Prop where
  lifetime : ∀ span ∈ terms.expiresIn,
    1 ≤ span.wholeSeconds ∧ (now.plus? span).isSome
  lead : ∀ lead ∈ terms.renewBefore, ∀ span ∈ terms.expiresIn,
    lead.nanos < span.wholeSeconds * nanosPerSecond
  age : ∀ age ∈ terms.renewAfter, 0 < age.nanos ∧ (now.plus? age).isSome

section Sustainable

variable {terms : TokenTerms} {now : Instant}

theorem wholeSeconds_mul_le {span : Span} (h : 0 ≤ span.nanos) :
    span.wholeSeconds * nanosPerSecond ≤ span.nanos := by
  rw [Span.wholeSeconds, Int.tdiv_eq_ediv_of_nonneg h]
  exact Int.ediv_mul_le _ (ne_of_gt nanosPerSecond_pos)

/-- A lifetime that ends in time does so with its fraction dropped. -/
theorem TokenTerms.Sustainable.exists_expiry (h : terms.Sustainable now)
    (readable : terms.Nonneg) {span : Span} (hspan : terms.expiresIn = some span) :
    ∃ expiry, now.plus? ⟨span.wholeSeconds * nanosPerSecond⟩ = some expiry := by
  obtain ⟨hlong, hsome⟩ := h.lifetime span hspan
  obtain ⟨late, hlate⟩ := Option.isSome_iff_exists.mp hsome
  have hnanos := Instant.nanos_of_plus? hlate
  have hdrop := wholeSeconds_mul_le (readable.expiresIn span hspan)
  have hpos : 0 < span.wholeSeconds * nanosPerSecond :=
    Int.mul_pos hlong nanosPerSecond_pos
  have hlow := now.inRange.1
  have hhigh := late.inRange.2
  -- without its fraction the lifetime ends between `now` and `late`
  apply Instant.exists_ofNanos?
  · change firstNanos ≤ now.nanos + span.wholeSeconds * nanosPerSecond
    omega
  · change now.nanos + span.wholeSeconds * nanosPerSecond ≤ lastNanos
    omega

/-- Nothing that is sustainable is due at once. -/
theorem TokenTerms.Sustainable.dueAtOnce_eq_false (h : terms.Sustainable now)
    (readable : terms.Nonneg) : terms.dueAtOnce now = false := by
  have hage : terms.renewAfter.any (·.nanos = 0) = false := by
    cases hafter : terms.renewAfter with
    | none => rfl
    | some age =>
        have hpos := (h.age age hafter).1
        rw [Option.any_some, decide_eq_false_iff_not]
        omega
  rw [TokenTerms.dueAtOnce, hage, Bool.or_false]
  cases hspan : terms.expiresIn with
  | none =>
      have hzero : terms.seconds = 0 := by
        rw [TokenTerms.seconds, hspan]
        rfl
      rw [hzero]
      rfl
  | some span =>
      obtain ⟨expiry, hexpiry⟩ := h.exists_expiry readable hspan
      have hseconds : terms.seconds = span.wholeSeconds := by
        rw [TokenTerms.seconds, hspan]
        rfl
      have hlead : terms.renewBefore.any
          (span.wholeSeconds * nanosPerSecond ≤ ·.nanos) = false := by
        cases hbefore : terms.renewBefore with
        | none => rfl
        | some lead =>
            have hshort := h.lead lead hbefore span hspan
            rw [Option.any_some, decide_eq_false_iff_not]
            omega
      rw [hseconds, hlead, hexpiry, Bool.false_or, Option.isNone_some, Bool.and_false]

/-- A fresh token has the lifetime asked for. -/
theorem lifetimeMatches_fresh (h : terms.Sustainable now) (readable : terms.Nonneg)
    {id : String} :
    terms.lifetimeMatches (ObservedToken.fresh id now terms.seconds) = true := by
  rw [TokenTerms.lifetimeMatches, ObservedToken.lifetime, expiresAt_fresh,
    issuedAt_fresh, TokenTerms.seconds]
  cases hspan : terms.expiresIn with
  | none => rfl
  | some span =>
      obtain ⟨expiry, hexpiry⟩ := h.exists_expiry readable hspan
      have hlong := (h.lifetime span hspan).1
      have hpos : 0 < span.wholeSeconds := hlong
      have hsince : expiry.since now = ⟨span.wholeSeconds * nanosPerSecond⟩ := by
        have hnanos := Instant.nanos_of_plus? hexpiry
        rw [Instant.since, hnanos, add_sub_cancel_left]
      rw [Option.map_some, Option.getD_some, seenExpiry, if_pos hpos, hexpiry,
        Option.getD_some, Option.map_some, hsince]
      have hback : (⟨span.wholeSeconds * nanosPerSecond⟩ : Span).wholeSeconds =
          span.wholeSeconds :=
        Int.mul_tdiv_cancel _ (ne_of_gt nanosPerSecond_pos)
      simp only [hback, decide_true]

end Sustainable

end Reconcile
