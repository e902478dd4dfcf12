import Mathlib
import Reconcile.Proofs.Renewal

/-!
# Lifetimes as they are requested

A lifetime is declared as a duration and requested in whole seconds, and 0
seconds stand for a token that never expires. So a declared lifetime that comes
to no whole second is requested like no lifetime at all, and the control plane
issues a token for ever in its place. Every longer one is requested as it should
be, with its fraction dropped.
-/

namespace Reconcile

/-! ## Whole seconds -/

theorem wholeSeconds_nonneg {span : Span} (h : 0 ≤ span.nanos) :
    0 ≤ span.wholeSeconds := by
  rw [Span.wholeSeconds, Int.tdiv_eq_ediv_of_nonneg h]
  exact Int.ediv_nonneg h (le_of_lt nanosPerSecond_pos)

/-- A span comes to no whole second exactly if it is shorter than one. -/
theorem wholeSeconds_eq_zero_iff {span : Span} (h : 0 ≤ span.nanos) :
    span.wholeSeconds = 0 ↔ span.nanos < nanosPerSecond := by
  have hunit := nanosPerSecond_pos
  rw [Span.wholeSeconds, Int.tdiv_eq_ediv_of_nonneg h]
  constructor
  · intro hzero
    have hlt := Int.lt_ediv_add_one_mul_self span.nanos hunit
    rw [hzero] at hlt
    simpa using hlt
  · exact Int.ediv_eq_zero_of_lt h

/-! ## Brief lifetimes -/

/-- The spec asks for a lifetime, and one that is shorter than a second. -/
def TokenSpec.Brief [DurationReader] (s : TokenSpec) : Prop :=
  ∃ value ∈ s.expiresIn, ∃ span,
    DurationField.expiresIn.span value = .ok span ∧ span.nanos < nanosPerSecond

section Terms

variable {s : TokenSpec} {terms : TokenTerms}

theorem span?_expiresIn_of_terms [DurationReader] (h : s.terms = .ok terms) :
    DurationField.expiresIn.span? s.expiresIn = .ok terms.expiresIn := by
  simp only [TokenSpec.terms, bind_eq_ok] at h
  obtain ⟨expiresIn, hexpiresIn, _, _, _, _, h⟩ := h
  cases h
  exact hexpiresIn

theorem seconds_nonneg (h : terms.Nonneg) : 0 ≤ terms.seconds := by
  rw [TokenTerms.seconds]
  cases hspan : terms.expiresIn with
  | none => simp
  | some span => exact wholeSeconds_nonneg (h.expiresIn span hspan)

/-- **The lifetime asked for comes to no second** exactly if there is none, or if
it is brief. -/
theorem seconds_eq_zero_iff [DurationReader] (h : s.terms = .ok terms) :
    terms.seconds = 0 ↔ s.expiresIn = none ∨ s.Brief := by
  have hread := span?_expiresIn_of_terms h
  have hnonneg := (terms_nonneg h).expiresIn
  rw [TokenTerms.seconds]
  cases hvalue : s.expiresIn with
  | none =>
      rw [hvalue] at hread
      have hnone : terms.expiresIn = none := (Except.ok.inj hread).symm
      simp [hnone]
  | some value =>
      rw [hvalue, DurationField.span?, map_eq_ok] at hread
      obtain ⟨span, hspan, hsome⟩ := hread
      rw [← hsome] at hnonneg
      have hiff := wholeSeconds_eq_zero_iff (hnonneg span rfl)
      rw [← hsome, Option.map_some, Option.getD_some, hiff]
      constructor
      · intro hbrief
        exact Or.inr ⟨value, hvalue, span, hspan, hbrief⟩
      · rintro (hnone | ⟨other, hother, span', hspan', hbrief⟩)
        · cases hnone
        · obtain rfl := Option.some.inj (hvalue.symm.trans hother)
          obtain rfl := Except.ok.inj (hspan.symm.trans hspan')
          exact hbrief

end Terms

/-! ## Requests and issued tokens -/

/-- The control plane issues a token for ever exactly if none of its seconds is
requested. -/
theorem expiry_tokenFor_eq_zero_iff {t : TokenRequest} {seconds : Int}
    (hclock : 0 ≤ seconds) (hasked : 0 ≤ t.expiresIn) :
    (ControlPlane.tokenFor seconds t).expiry = 0 ↔ t.expiresIn = 0 := by
  show (if 0 < t.expiresIn then seconds + t.expiresIn else 0) = 0 ↔ _
  by_cases hpos : 0 < t.expiresIn
  · rw [if_pos hpos]
    omega
  · rw [if_neg hpos]
    omega

section Planned

variable {project : String} {roles : List Role} {observation : Observation}
  {now : Instant} {plan : TokenPlan}

/-- Where no two specs share a key, the spec of a planned key made the request. -/
theorem request_of_distinct_keys [DurationReader]
    (planned : planTokens project roles observation now = .ok plan)
    (distinct : ((specsOf roles).map slotKey).Nodup)
    {slot : String × TokenSpec} (hslot : slot ∈ specsOf roles)
    {request : TokenRequest} (hrequest : plan[slotKey slot]? = some request) :
    ∃ terms, slot.2.terms = .ok terms ∧ request = slot.2.request terms project slot.1 := by
  obtain ⟨other, hother, issue, hissue, hkey, rfl⟩ :=
    exists_slot_of_planned planned hrequest
  obtain rfl := List.inj_on_of_nodup_map distinct hother hslot hkey
  obtain ⟨terms, reason, hterms, _, hmade⟩ := decideIssue_eq_ok.mp hissue
  obtain ⟨_, _, rfl⟩ := Option.map_eq_some_iff.mp hmade.symm
  exact ⟨terms, hterms, rfl⟩

/-- **A token is requested for ever exactly if it has no lifetime or a brief
one.** Let no two declared specs share a key. Every planned request was made by
the spec of its key. It asks for no seconds exactly if the spec has no lifetime,
or one shorter than a second, and so does the control plane issue it without an
expiry. So a request without seconds means a spec without a lifetime exactly for
the specs that are not brief, and these are asked for a positive number. -/
theorem requested_for_ever_iff [DurationReader]
    (planned : planTokens project roles observation now = .ok plan)
    (distinct : ((specsOf roles).map slotKey).Nodup)
    {key : TokenKey} {request : TokenRequest} (hrequest : plan[key]? = some request) :
    (∃ slot ∈ specsOf roles, slotKey slot = key) ∧
    ∀ slot ∈ specsOf roles, slotKey slot = key →
      (request.expiresIn = 0 ↔ slot.2.expiresIn = none ∨ slot.2.Brief) ∧
      (∀ seconds, 0 ≤ seconds →
        ((ControlPlane.tokenFor seconds request).expiry = 0 ↔
          request.expiresIn = 0)) ∧
      ((request.expiresIn = 0 ↔ slot.2.expiresIn = none) ↔ ¬ slot.2.Brief) ∧
      (slot.2.expiresIn ≠ none → ¬ slot.2.Brief → 0 < request.expiresIn) := by
  obtain ⟨maker, hmaker, _, _, hkey, _⟩ := exists_slot_of_planned planned hrequest
  refine ⟨⟨maker, hmaker, hkey⟩, ?_⟩
  rintro slot hslot rfl
  obtain ⟨terms, hterms, rfl⟩ :=
    request_of_distinct_keys planned distinct hslot hrequest
  rw [expiresIn_request]
  have hzero := seconds_eq_zero_iff hterms
  have hnonneg := seconds_nonneg (terms_nonneg hterms)
  refine ⟨hzero, fun seconds hclock => expiry_tokenFor_eq_zero_iff hclock hnonneg, ?_, ?_⟩
  · rw [hzero]
    constructor
    · -- a brief spec does have a lifetime
      intro honly hbrief
      have hnone := honly.mp (Or.inr hbrief)
      obtain ⟨value, hvalue, _⟩ := hbrief
      rw [hnone] at hvalue
      cases hvalue
    · intro hlong
      exact or_iff_left hlong
  · intro hlifetime hlong
    have hne : terms.seconds ≠ 0 := by
      rw [Ne, hzero, not_or]
      exact ⟨hlifetime, hlong⟩
    omega

end Planned

/-- A role with tokens for half a second, for a minute and a half, and without a
lifetime. -/
def dispatch : List Role := [
  { name := "ci", tokens := [
    { id := "flash", expiresIn := some "500ms" },
    { id := "shift", expiresIn := some "1m 30s 900ms" },
    { id := "root" }] }]

/-- The requests that the role makes when none of its tokens is there. -/
def dispatchPlan : TokenPlan :=
  TokenPlan.ofIssues [
    ⟨.missing, { project := "shop", role := "ci", id := "flash" }⟩,
    ⟨.missing, { project := "shop", role := "ci", id := "shift", expiresIn := 90 }⟩,
    ⟨.missing, { project := "shop", role := "ci", id := "root" }⟩]

theorem planTokens_dispatch :
    planTokens "shop" dispatch ∅ .epoch = .ok dispatchPlan := by
  decide +kernel

theorem requested_for_ever_in_dispatch :
    ((specsOf dispatch).map slotKey).Nodup ∧
    ∃ request, dispatchPlan[(⟨"ci", "shift"⟩ : TokenKey)]? = some request ∧
      ∃ slot ∈ specsOf dispatch, slotKey slot = ⟨"ci", "shift"⟩ ∧
        ¬ slot.2.Brief ∧ 0 < request.expiresIn := by
  have distinct : ((specsOf dispatch).map slotKey).Nodup := by decide
  have hrequest : dispatchPlan[(⟨"ci", "shift"⟩ : TokenKey)]? =
      some { project := "shop", role := "ci", id := "shift", expiresIn := 90 } := by
    decide +kernel
  obtain ⟨⟨slot, hslot, hkey⟩, hspec⟩ :=
    requested_for_ever_iff planTokens_dispatch distinct hrequest
  obtain ⟨hiff, _, _, hlong⟩ := hspec slot hslot hkey
  have hnone : ¬ (slot.2.expiresIn = none ∨ slot.2.Brief) := by
    rw [← hiff]
    decide
  rw [not_or] at hnone
  exact ⟨distinct, _, hrequest, slot, hslot, hkey, hnone.2, hlong hnone.1 hnone.2⟩

/-- A token for half a second is requested like one without a lifetime, and
issued for ever. -/
theorem half_second_is_requested_for_ever :
    ((specsOf dispatch).map slotKey).Nodup ∧
    ∃ plan, planTokens "shop" dispatch ∅ .epoch = .ok plan ∧
      ∃ slot ∈ specsOf dispatch, slot.2.expiresIn = some "500ms" ∧
        ∃ request, plan[slotKey slot]? = some request ∧ request.expiresIn = 0 ∧
          (ControlPlane.tokenFor 1700000000 request).expiry = 0 := by
  refine ⟨by decide, dispatchPlan, planTokens_dispatch, _, List.mem_cons_self, rfl,
    { project := "shop", role := "ci", id := "flash" }, ?_, rfl, rfl⟩
  decide +kernel

end Reconcile
