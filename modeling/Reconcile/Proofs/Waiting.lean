import Mathlib
import Reconcile.Proofs.Deciding
import Reconcile.Proofs.Lifetimes

/-!
# Planning later

The same tokens are planned for at two times, with nothing issued in between.
Time works in one direction only. A token that has expired stays expired, and a
renewal policy whose instant has passed stays due, although another rule may be
the one that is told later. A failure goes the other way: a policy is asked in
vain only while no rule before it applies, so whoever fails later has failed
before. A plan can thus only grow while one waits.
-/

namespace Reconcile

/-! ## One token at two times -/

section Token

variable {s : TokenSpec} {t : ObservedToken} {now later : Instant} (le : now ≤ later)

include le

theorem ObservedToken.Over.stays (h : t.Over now) : t.Over later := by
  obtain ⟨expiry, hexpiry, hover⟩ := h
  exact ⟨expiry, hexpiry, Int.le_trans hover le⟩

theorem TokenSpec.DueBefore.stays [DurationReader]
    (h : s.DueBefore t now) : s.DueBefore t later := by
  obtain ⟨expiry, lead, hexpiry, hlead, hdue⟩ := h
  exact ⟨expiry, lead, hexpiry, hlead, Int.le_trans hdue le⟩

theorem TokenSpec.DueAfter.stays [DurationReader] (h : s.DueAfter t now) : s.DueAfter t later := by
  obtain ⟨age, hage, hdue⟩ := h
  exact ⟨age, hage, Int.le_trans hdue le⟩

/-- **What is due stays due.** -/
theorem TokenSpec.Due.stays [DurationReader]
    {current : Option ObservedToken} (h : s.Due now current) :
    s.Due later current := by
  cases h with
  | missing => exact .missing
  | expired ended => exact .expired (ended.stays le)
  | before due => exact .before (due.stays le)
  | after due => exact .after (due.stays le)

/-- **What fails later has failed before**, and in the same way. The rules that
come before the one that fails do not apply later, so they did not before. -/
theorem TokenSpec.Fails.sooner [DurationReader] {current : Option ObservedToken} {failure : Failure}
    (h : s.Fails later current failure) : s.Fails now current failure := by
  cases h with
  | unreadable bad => exact .unreadable bad
  | lead readable live expires given asked beyond =>
      have live' := fun ended => live (ObservedToken.Over.stays le ended)
      exact .lead readable live' expires given asked beyond
  | age readable live reached early given asked beyond =>
      have live' := fun ended => live (ObservedToken.Over.stays le ended)
      have early' := fun due => early (TokenSpec.DueBefore.stays le due)
      exact .age readable live' reached early' given asked beyond

end Token

/-! ## The plan at two times -/

section Plan

variable [DurationReader] {project : String} {roles : List Role} {observation : Observation}
  {now later : Instant}

/-- A pass that can be planned does not become unplannable. -/
theorem exists_plan_later (le : now ≤ later) {plan : TokenPlan}
    (planned : planTokens project roles observation now = .ok plan) :
    ∃ plan', planTokens project roles observation later = .ok plan' := by
  have rule := followsRule_of_planned planned
  have fine : ∀ slot ∈ specsOf roles, ∀ failure,
      ¬ SlotFails observation later slot failure := by
    intro slot hslot failure hfails
    exact rule.fine slot hslot failure (TokenSpec.Fails.sooner le hfails)
  exact ⟨_, planTokens_eq_ok_iff.mpr ⟨decidable_of_fine fine, rfl⟩⟩

/-- A key with two plans, made for the same declaration, has one request, if no
two specs share a key. -/
theorem request_eq_of_distinct_keys {plan plan' : TokenPlan}
    (planned : planTokens project roles observation now = .ok plan)
    (planned' : planTokens project roles observation later = .ok plan')
    (distinct : ((specsOf roles).map slotKey).Nodup) {key : TokenKey}
    {request request' : TokenRequest} (hrequest : plan[key]? = some request)
    (hrequest' : plan'[key]? = some request') : request = request' := by
  obtain ⟨slot, hslot, _, _, rfl, _⟩ := exists_slot_of_planned planned hrequest
  obtain ⟨terms, hterms, rfl⟩ :=
    request_of_distinct_keys planned distinct hslot hrequest
  obtain ⟨terms', hterms', rfl⟩ :=
    request_of_distinct_keys planned' distinct hslot hrequest'
  rw [hterms] at hterms'
  cases hterms'
  rfl

/-- **A plan only grows.** Let tokens be planned for at some time. The same
tokens can be planned for at any later time, for the same declaration. The later
plan has every key of the earlier one, and under it the same request if no two
declared specs share a key. The token of a spec that is due stays due as long as
it is the one that is observed, whatever becomes of the others. -/
theorem plan_only_grows (le : now ≤ later) {plan : TokenPlan}
    (planned : planTokens project roles observation now = .ok plan) :
    (∃ plan', planTokens project roles observation later = .ok plan' ∧
      (∀ key ∈ plan, key ∈ plan') ∧
      (((specsOf roles).map slotKey).Nodup → ∀ (key : TokenKey) (request : TokenRequest),
        plan[key]? = some request → plan'[key]? = some request)) ∧
    ∀ slot, SlotDue observation now slot → ∀ observation' : Observation,
      observation'.current slot.1 slot.2.id = observation.current slot.1 slot.2.id →
      SlotDue observation' later slot := by
  constructor
  · obtain ⟨plan', planned'⟩ := exists_plan_later le planned
    have grows : ∀ key ∈ plan, key ∈ plan' := by
      intro key hkey
      rw [(followsRule_of_planned planned).keys] at hkey
      obtain ⟨slot, hslot, hkey, hdue⟩ := hkey
      rw [(followsRule_of_planned planned').keys]
      exact ⟨slot, hslot, hkey, TokenSpec.Due.stays le hdue⟩
    refine ⟨plan', planned', grows, ?_⟩
    intro distinct key request hrequest
    have hkey : key ∈ plan := by
      rw [Std.ExtTreeMap.mem_iff_isSome_getElem?, hrequest]
      rfl
    obtain ⟨request', hrequest'⟩ := Option.isSome_iff_exists.mp
      (Std.ExtTreeMap.mem_iff_isSome_getElem?.mp (grows key hkey))
    rw [hrequest', request_eq_of_distinct_keys planned planned' distinct hrequest
      hrequest']
  · intro slot hdue observation' same
    rw [SlotDue, same]
    exact TokenSpec.Due.stays le hdue

end Plan

/-- Tokens with a lead, with a limit to their age, with both and with neither. -/
def granary : List Role := [
  { name := "ci", tokens := [
    { id := "bran", expiresIn := some "2h", renewBefore := some "30m",
      renewAfter := some "1h" },
    { id := "malt", expiresIn := some "3h", renewBefore := some "20m" },
    { id := "rye" }] },
  { name := "ops", tokens := [{ id := "bran", renewAfter := some "1d" }] }]

/-- All but one of them were issued at the epoch. -/
def granaryTokens : Observation :=
  ((∅ : Observation).insert "ci"
    [⟨"bran", .epoch, some (instantOfTimestamp 7200)⟩,
      ⟨"malt", .epoch, some (instantOfTimestamp 10800)⟩]).insert "ops"
    [⟨"bran", .epoch, none⟩]

/-- What is planned for them and why. -/
def granaryReasons [DurationReader] (seconds : Int) : List (String × IssueReason) :=
  (issuesMade "shop" granaryTokens (instantOfTimestamp seconds) (specsOf granary)).map
    fun issue => (issue.request.key.text, issue.reason)

theorem plan_grows_at_granary :
    granaryReasons 5000 = [("ci.bran", .renewAfter), ("ci.rye", .missing)] ∧
    granaryReasons 9700 =
      [("ci.bran", .expired), ("ci.malt", .renewBefore), ("ci.rye", .missing)] ∧
    instantOfTimestamp 5000 ≤ instantOfTimestamp 9700 ∧
    ∃ plan plan',
      planTokens "shop" granary granaryTokens (instantOfTimestamp 5000) = .ok plan ∧
      planTokens "shop" granary granaryTokens (instantOfTimestamp 9700) = .ok plan' ∧
      (∀ key ∈ plan, key ∈ plan') ∧
      plan'[(⟨"ci", "bran"⟩ : TokenKey)]? =
        some { project := "shop", role := "ci", id := "bran", expiresIn := 7200 } := by
  have le : instantOfTimestamp 5000 ≤ instantOfTimestamp 9700 := by decide +kernel
  have distinct : ((specsOf granary).map slotKey).Nodup := by decide
  obtain ⟨plan, planned, hrequest⟩ : ∃ plan,
      planTokens "shop" granary granaryTokens (instantOfTimestamp 5000) = .ok plan ∧
        plan[(⟨"ci", "bran"⟩ : TokenKey)]? =
          some { project := "shop", role := "ci", id := "bran", expiresIn := 7200 } := by
    refine ⟨TokenPlan.ofIssues (issuesMade "shop" granaryTokens
      (instantOfTimestamp 5000) (specsOf granary)), ?_, ?_⟩
    · decide +kernel
    · decide +kernel
  obtain ⟨⟨plan', planned', grows, same⟩, _⟩ := plan_only_grows le planned
  exact ⟨by decide +kernel, by decide +kernel, le, plan, plan', planned, planned', grows,
    same distinct _ _ hrequest⟩

end Reconcile
