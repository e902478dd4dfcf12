import Mathlib
import Reconcile.Proofs.Deciding
import Reconcile.Proofs.Judging
import Reconcile.Proofs.Lifetimes

/-!
# Tokens compared place by place

The comparison walks along the declared specs and the observed tokens, reads a
spec when it comes to it, and stops at the first pair that is not in line. Here
it is told by places. Pairs that fit are passed over, so what it comes to is
decided at the first place where spec and token do not fit: a failure if the
spec cannot be read, no match if it can, and a match if there is no such place.
A difference thus hides every bad duration behind it and none before it.
-/

namespace Reconcile

/-! ## One place -/

/-- The token is what the spec declares, every duration of the spec can be read,
and the token has not expired. -/
structure TokenSpec.Fits [DurationReader]
    (now : Instant) (s : TokenSpec) (t : ObservedToken) : Prop where
  readable : ∀ failure, ¬ s.Unreadable failure
  id : s.id = t.id
  live : ¬ t.Over now
  /-- There is no lifetime on either side, or they come to the same whole
  seconds, with the fractions dropped toward zero. -/
  lifetime : (s.expiresIn = none ∧ t.expiresAt = none) ∨
    ∃ span expiry, DurationField.expiresIn.Gives s.expiresIn span ∧
      t.expiresAt = some expiry ∧
      span.wholeSeconds = (expiry.since t.issuedAt).wholeSeconds

section Place

variable [DurationReader] {now : Instant} {s : TokenSpec} {specs : List TokenSpec}
  {t : ObservedToken}
  {tokens : List ObservedToken}

/-- No lifetime is read exactly where none is declared. -/
theorem expiresIn_eq_none_iff {terms : TokenTerms} (hterms : s.terms = .ok terms) :
    terms.expiresIn = none ↔ s.expiresIn = none := by
  have hread := span?_expiresIn_of_terms hterms
  cases hvalue : s.expiresIn with
  | none =>
      rw [hvalue] at hread
      have hnone : none = terms.expiresIn := Except.ok.inj hread
      simp [← hnone]
  | some value =>
      rw [hvalue, DurationField.span?, map_eq_ok] at hread
      obtain ⟨span, _, hspan⟩ := hread
      simp [← hspan]

/-- Lifetimes compared as they are read agree exactly if they do as they are
declared. -/
theorem lifetime_iff {terms : TokenTerms} (hterms : s.terms = .ok terms) :
    terms.expiresIn.map Span.wholeSeconds = t.lifetime.map Span.wholeSeconds ↔
      (s.expiresIn = none ∧ t.expiresAt = none) ∨
        ∃ span expiry, DurationField.expiresIn.Gives s.expiresIn span ∧
          t.expiresAt = some expiry ∧
          span.wholeSeconds = (expiry.since t.issuedAt).wholeSeconds := by
  simp only [(offers_of_terms hterms).expiresIn, ← expiresIn_eq_none_iff hterms,
    ObservedToken.lifetime]
  cases terms.expiresIn with
  | none => cases t.expiresAt <;> simp
  | some span => cases t.expiresAt <;> simp

theorem fits_iff_metBy : s.Fits now t ↔ s.MetBy now t := by
  constructor
  · rintro ⟨readable, hid, hlive, hlifetime⟩
    obtain ⟨terms, hterms⟩ := readable_iff.mp readable
    rw [← isExpired_iff, Bool.not_eq_true] at hlive
    exact ⟨hid, ⟨terms, hterms, (lifetime_iff hterms).mpr hlifetime⟩, hlive⟩
  · rintro ⟨hid, ⟨terms, hterms, hlifetime⟩, hlive⟩
    rw [← Bool.not_eq_true, isExpired_iff] at hlive
    exact ⟨readable_iff.mpr ⟨terms, hterms⟩, hid, hlive, (lifetime_iff hterms).mp hlifetime⟩

/-- A pair that fits is passed over. -/
theorem tokensMatch_of_fits (fits : s.Fits now t) :
    tokensMatch now (s :: specs) (t :: tokens) = tokensMatch now specs tokens := by
  obtain ⟨terms, hterms⟩ := readable_iff.mp fits.readable
  rw [tokensMatch_cons hterms, if_pos ((pair_eq_true_iff hterms).mpr (fits_iff_metBy.mp fits))]

/-- A pair that does not fit is a difference, if its spec can be read. -/
theorem tokensMatch_of_not_fits (readable : ∀ failure, ¬ s.Unreadable failure)
    (differs : ¬ s.Fits now t) :
    tokensMatch now (s :: specs) (t :: tokens) = .ok false := by
  obtain ⟨terms, hterms⟩ := readable_iff.mp readable
  rw [fits_iff_metBy, ← pair_eq_true_iff hterms] at differs
  rw [tokensMatch_cons hterms, if_neg differs]

/-- A spec that cannot be read is told, whatever its token. -/
theorem tokensMatch_of_unreadable {failure : Failure} (bad : s.Unreadable failure) :
    tokensMatch now (s :: specs) (t :: tokens) = .error failure := by
  rw [tokensMatch, terms_eq_error.mpr bad]
  rfl

end Place

/-! ## All places -/

/-- In this place there are a spec and a token, and they fit. -/
def FitsAt [DurationReader] (now : Instant) (specs : List TokenSpec) (tokens : List ObservedToken)
    (k : Nat) : Prop :=
  ∃ s t, specs[k]? = some s ∧ tokens[k]? = some t ∧ s.Fits now t

/-- As many tokens as specs, and they fit in every place. -/
def AllFit [DurationReader]
    (now : Instant) (specs : List TokenSpec) (tokens : List ObservedToken) : Prop :=
  specs.length = tokens.length ∧ ∀ k < specs.length, FitsAt now specs tokens k

/-- As many tokens as specs, and in this place a spec that cannot be read, with
spec and token fitting in every place before it. -/
def BreaksAt [DurationReader] (now : Instant) (specs : List TokenSpec) (tokens : List ObservedToken)
    (k : Nat) (failure : Failure) : Prop :=
  specs.length = tokens.length ∧ (∃ s, specs[k]? = some s ∧ s.Unreadable failure) ∧
    ∀ j < k, FitsAt now specs tokens j

section Places

variable [DurationReader] {now : Instant} {specs : List TokenSpec} {tokens : List ObservedToken}

/-- **Places that fit are passed over**, one by one. -/
theorem tokensMatch_drop {k : Nat} (fit : ∀ j < k, FitsAt now specs tokens j) :
    tokensMatch now specs tokens = tokensMatch now (specs.drop k) (tokens.drop k) := by
  induction k with
  | zero => rfl
  | succ k ih =>
      rw [ih fun j hj => fit j (Nat.lt_succ_of_lt hj)]
      obtain ⟨s, t, hs, ht, fits⟩ := fit k (Nat.lt_succ_self k)
      obtain ⟨hk, rfl⟩ := List.getElem?_eq_some_iff.mp hs
      obtain ⟨hk', rfl⟩ := List.getElem?_eq_some_iff.mp ht
      rw [List.drop_eq_getElem_cons hk, List.drop_eq_getElem_cons hk', tokensMatch_of_fits fits]

theorem allFit_iff_forall₂ :
    AllFit now specs tokens ↔ List.Forall₂ (TokenSpec.MetBy now) specs tokens := by
  rw [AllFit, List.forall₂_iff_get]
  refine and_congr_right fun hlength => ?_
  constructor
  · intro fit k hk hk'
    obtain ⟨s, t, hs, ht, fits⟩ := fit k hk
    rw [List.getElem?_eq_getElem hk] at hs
    rw [List.getElem?_eq_getElem hk'] at ht
    cases hs
    cases ht
    exact fits_iff_metBy.mp fits
  · intro met k hk
    have hk' : k < tokens.length := hlength ▸ hk
    exact ⟨_, _, List.getElem?_eq_getElem hk, List.getElem?_eq_getElem hk',
      fits_iff_metBy.mpr (met k hk hk')⟩

theorem tokensAgree_eq_true_iff_allFit :
    tokensAgree specs tokens now = .ok true ↔ AllFit now specs tokens := by
  rw [tokensAgree_eq_true_iff, allFit_iff_forall₂]

theorem tokensAgree_of_breaksAt {k : Nat} {failure : Failure}
    (h : BreaksAt now specs tokens k failure) :
    tokensAgree specs tokens now = .error failure := by
  obtain ⟨hlength, ⟨s, hs, bad⟩, fit⟩ := h
  obtain ⟨hk, rfl⟩ := List.getElem?_eq_some_iff.mp hs
  have hk' : k < tokens.length := hlength ▸ hk
  rw [tokensAgree, if_pos hlength, tokensMatch_drop fit, List.drop_eq_getElem_cons hk,
    List.drop_eq_getElem_cons hk', tokensMatch_of_unreadable bad]

/-- Among as many tokens as specs that do not all fit there is a first place
that does not. -/
theorem exists_first_unfit (hlength : specs.length = tokens.length)
    (differs : ¬ AllFit now specs tokens) :
    ∃ k < specs.length, ¬ FitsAt now specs tokens k ∧ ∀ j < k, FitsAt now specs tokens j := by
  classical
  have hsome : ∃ k, k < specs.length ∧ ¬ FitsAt now specs tokens k := by
    by_contra hnone
    apply differs
    refine ⟨hlength, fun k hk => ?_⟩
    by_contra hunfit
    exact hnone ⟨k, hk, hunfit⟩
  obtain ⟨hk, hunfit⟩ := Nat.find_spec hsome
  refine ⟨Nat.find hsome, hk, hunfit, fun j hj => ?_⟩
  by_contra hbad
  exact Nat.find_min hsome hj ⟨Nat.lt_trans hj hk, hbad⟩

/-- Where not all places fit and none breaks, the first that does not fit is a
difference. -/
theorem tokensAgree_of_differs (differs : ¬ AllFit now specs tokens)
    (unbroken : ∀ k failure, ¬ BreaksAt now specs tokens k failure) :
    tokensAgree specs tokens now = .ok false := by
  by_cases hlength : specs.length = tokens.length
  · obtain ⟨k, hk, hunfit, fit⟩ := exists_first_unfit hlength differs
    have hk' : k < tokens.length := hlength ▸ hk
    have hs := List.getElem?_eq_getElem hk
    have readable : ∀ failure, ¬ specs[k].Unreadable failure :=
      fun failure bad => unbroken k failure ⟨hlength, ⟨_, hs, bad⟩, fit⟩
    have hnot : ¬ specs[k].Fits now tokens[k] :=
      fun fits => hunfit ⟨_, _, hs, List.getElem?_eq_getElem hk', fits⟩
    rw [tokensAgree, if_pos hlength, tokensMatch_drop fit, List.drop_eq_getElem_cons hk,
      List.drop_eq_getElem_cons hk', tokensMatch_of_not_fits readable hnot]
  · rw [tokensAgree, if_neg hlength]

/-- One of the three always comes about. -/
theorem tokensAgree_cases (specs : List TokenSpec) (tokens : List ObservedToken)
    (now : Instant) :
    AllFit now specs tokens ∨ (∃ k failure, BreaksAt now specs tokens k failure) ∨
      tokensAgree specs tokens now = .ok false := by
  by_cases fit : AllFit now specs tokens
  · exact Or.inl fit
  · by_cases broken : ∃ k failure, BreaksAt now specs tokens k failure
    · exact Or.inr (Or.inl broken)
    · refine Or.inr (Or.inr (tokensAgree_of_differs fit ?_))
      intro k failure hbreak
      exact broken ⟨k, failure, hbreak⟩

theorem tokensAgree_eq_error_iff {failure : Failure} :
    tokensAgree specs tokens now = .error failure ↔
      ∃ k, BreaksAt now specs tokens k failure := by
  refine ⟨fun h => ?_, fun ⟨k, hbreak⟩ => tokensAgree_of_breaksAt hbreak⟩
  rcases tokensAgree_cases specs tokens now with fit | ⟨k, other, hbreak⟩ | hfalse
  · rw [tokensAgree_eq_true_iff_allFit.mpr fit] at h
    cases h
  · rw [tokensAgree_of_breaksAt hbreak] at h
    cases h
    exact ⟨k, hbreak⟩
  · rw [hfalse] at h
    cases h

end Places

/-- **What the comparison of tokens comes to.** Take any specs, any tokens and any
time. They match exactly if there are as many tokens as specs and they fit in
every place. The comparison fails exactly if there are as many, and some place
holds a spec that cannot be read while spec and token fit in every place before
it; the failure is that of this spec. In all other cases there is no match. -/
theorem tokens_compared_by_place [DurationReader]
    (specs : List TokenSpec) (tokens : List ObservedToken)
    (now : Instant) :
    (tokensAgree specs tokens now = .ok true ↔ AllFit now specs tokens) ∧
    (∀ failure, tokensAgree specs tokens now = .error failure ↔
      ∃ k, BreaksAt now specs tokens k failure) ∧
    (tokensAgree specs tokens now = .ok false ↔
      ¬ AllFit now specs tokens ∧ ∀ k failure, ¬ BreaksAt now specs tokens k failure) := by
  refine ⟨tokensAgree_eq_true_iff_allFit, fun failure => tokensAgree_eq_error_iff, ?_⟩
  constructor
  · intro h
    constructor
    · intro fit
      rw [tokensAgree_eq_true_iff_allFit.mpr fit] at h
      cases h
    · intro k failure hbreak
      rw [tokensAgree_of_breaksAt hbreak] at h
      cases h
  · rintro ⟨differs, unbroken⟩
    exact tokensAgree_of_differs differs unbroken

/-- A difference hides a bad duration behind it, and a bad duration is told before
any difference. -/
example :
    tokensAgree [{ id := "ferry" }, { id := "tug", expiresIn := some "soon" }]
        [⟨"barge", .epoch, none⟩, ⟨"tug", .epoch, none⟩] .epoch = .ok false ∧
      tokensAgree [{ id := "tug", expiresIn := some "soon" }, { id := "ferry" }]
        [⟨"tug", .epoch, none⟩, ⟨"barge", .epoch, none⟩] .epoch =
          .error (.unreadableDuration .expiresIn "soon" (.numberExpected 0)) := by
  decide +kernel

end Reconcile
