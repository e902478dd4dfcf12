import Mathlib
import Reconcile.Proofs.Deciding
import Reconcile.Proofs.Judging

/-!
# What is up to date needs renewal only

The comparison pairs specs and tokens by their places, and the planner looks a
token up by its id, so the token that a spec is paired with need not be the one
it is planned by. Both are among the tokens of the role, though, and in a role
that is up to date every token is paired with some spec and has not expired. So
whatever a plan for such a project asks for is asked for by a renewal policy,
and only a renewal policy can keep it from being made.
-/

namespace Reconcile

/-! ## Tokens found by their ids -/

section Rows

variable {α β : Type} {R : α → β → Prop} {as : List α} {bs : List β}

theorem exists_mem_of_forall₂ (h : List.Forall₂ R as bs) {a : α} (ha : a ∈ as) :
    ∃ b ∈ bs, R a b := by
  induction h with
  | nil => cases ha
  | cons hab _ ih =>
      rcases List.mem_cons.mp ha with rfl | ha
      · exact ⟨_, List.mem_cons_self, hab⟩
      · obtain ⟨b, hb, hab⟩ := ih ha
        exact ⟨b, List.mem_cons_of_mem _ hb, hab⟩

end Rows

section Found

variable {now : Instant} {specs : List TokenSpec} {tokens : List ObservedToken}

/-- None of the tokens that are in line with some specs has expired. -/
theorem not_over_of_met [DurationReader] (met : List.Forall₂ (TokenSpec.MetBy now) specs tokens)
    {t : ObservedToken} (ht : t ∈ tokens) : ¬ t.Over now := by
  obtain ⟨s, _, hs⟩ := exists_mem_of_forall₂ met.flip ht
  rw [← isExpired_iff, Bool.not_eq_true]
  exact hs.live

/-- The first token with the id of a spec is there and has not expired, be it the
one that the spec is paired with or another. -/
theorem exists_find?_of_met [DurationReader] (met : List.Forall₂ (TokenSpec.MetBy now) specs tokens)
    {s : TokenSpec} (hs : s ∈ specs) :
    ∃ t, tokens.find? (·.id = s.id) = some t ∧ ¬ t.Over now := by
  obtain ⟨paired, hpaired, hmet⟩ := exists_mem_of_forall₂ met hs
  have hfound : (tokens.find? (·.id = s.id)).isSome := by
    rw [List.find?_isSome]
    exact ⟨paired, hpaired, by simp [hmet.id]⟩
  obtain ⟨t, ht⟩ := Option.isSome_iff_exists.mp hfound
  exact ⟨t, ht, not_over_of_met met (List.mem_of_find?_eq_some ht)⟩

end Found

/-! ## Specs that only renew -/

/-- The spec can be read, and the token that it is planned by is there and has not
expired. -/
structure SlotLives [DurationReader] (observation : Observation) (now : Instant)
    (slot : String × TokenSpec) : Prop where
  readable : ∀ failure, ¬ slot.2.Unreadable failure
  live : ∃ t, observation.current slot.1 slot.2.id = some t ∧ ¬ t.Over now

/-- The reason is one of the renewal policies. -/
def IssueReason.IsRenewal (reason : IssueReason) : Prop :=
  reason = .renewBefore ∨ reason = .renewAfter

section Slots

variable [DurationReader] {project : String} {observation : Observation} {now : Instant}
  {slot : String × TokenSpec}

/-- A spec with a live token fails only over the instant that one of its renewal
policies waits for. -/
theorem SlotLives.fails (h : SlotLives observation now slot) {failure : Failure}
    (fails : SlotFails observation now slot failure) :
    ∃ value,
      (slot.2.renewBefore = some value ∧ failure = .durationOutOfRange .renewBefore value) ∨
      (slot.2.renewAfter = some value ∧ failure = .durationOutOfRange .renewAfter value) := by
  rw [SlotFails] at fails
  generalize observation.current slot.1 slot.2.id = current at fails
  cases fails with
  | unreadable bad => exact absurd bad (h.readable failure)
  | lead _ _ _ given => exact ⟨_, Or.inl ⟨given, rfl⟩⟩
  | age _ _ _ _ given => exact ⟨_, Or.inr ⟨given, rfl⟩⟩

/-- It is issued again for a renewal policy only. -/
theorem SlotLives.reason (h : SlotLives observation now slot) {issue : TokenIssue}
    (issued : decideIssue project observation now slot = .ok (some issue)) :
    issue.reason.IsRenewal := by
  obtain ⟨t, hcurrent, halive⟩ := h.live
  rw [← isExpired_iff, Bool.not_eq_true] at halive
  obtain ⟨terms, reason, _, hreason, hissue⟩ := decideIssue_eq_ok.mp issued
  obtain ⟨reason, rfl, rfl⟩ := Option.map_eq_some_iff.mp hissue.symm
  rw [hcurrent] at hreason
  obtain ⟨hmissing, hexpired⟩ := reason_of_alive halive hreason
  cases reason with
  | missing => exact absurd rfl hmissing
  | expired => exact absurd rfl hexpired
  | renewBefore => exact Or.inl rfl
  | renewAfter => exact Or.inr rfl

/-- Without a renewal policy it is left alone. -/
theorem SlotLives.left_alone (h : SlotLives observation now slot)
    (unbound : slot.2.renewBefore = none ∧ slot.2.renewAfter = none) :
    decideIssue project observation now slot = .ok none := by
  obtain ⟨hbefore, hafter⟩ := unbound
  cases hissue : decideIssue project observation now slot with
  | error failure =>
      obtain ⟨value, ⟨given, _⟩ | ⟨given, _⟩⟩ := h.fails (decideIssue_eq_error.mp hissue)
      · simp [hbefore] at given
      · simp [hafter] at given
  | ok issue =>
      cases issue with
      | none => rfl
      | some issue =>
          exfalso
          have hdue : SlotDue observation now slot := (isSome_of_decideIssue hissue).mp rfl
          obtain ⟨t, hcurrent, halive⟩ := h.live
          rw [SlotDue, hcurrent] at hdue
          cases hdue with
          | expired ended => exact halive ended
          | before due =>
              obtain ⟨_, _, _, ⟨value, given, _⟩, _⟩ := due
              simp [hbefore] at given
          | after due =>
              obtain ⟨_, ⟨value, given, _⟩, _⟩ := due
              simp [hafter] at given

/-- A decision that is made is the decision for one of the specs. -/
theorem mem_issuesMade {slots : List (String × TokenSpec)} {issue : TokenIssue}
    (h : issue ∈ issuesMade project observation now slots) :
    ∃ slot ∈ slots, decideIssue project observation now slot = .ok (some issue) := by
  induction slots with
  | nil => cases h
  | cons slot rest ih =>
      rw [issuesMade] at h
      cases hdecided : decideIssue project observation now slot with
      | error failure =>
          rw [hdecided] at h
          cases h
      | ok decision =>
          rw [hdecided, List.mem_append, Option.mem_toList] at h
          rcases h with rfl | h
          · exact ⟨slot, List.mem_cons_self, hdecided⟩
          · obtain ⟨other, hother, hissue⟩ := ih h
            exact ⟨other, List.mem_cons_of_mem _ hother, hissue⟩

/-- Where no spec fails, every decision is made. -/
theorem mem_issuesMade_of_decided {slots : List (String × TokenSpec)}
    (decidable : ∀ slot ∈ slots,
      ∃ issue, decideIssue project observation now slot = .ok issue)
    (hslot : slot ∈ slots) {issue : TokenIssue}
    (hissue : decideIssue project observation now slot = .ok (some issue)) :
    issue ∈ issuesMade project observation now slots := by
  induction slots with
  | nil => cases hslot
  | cons first rest ih =>
      obtain ⟨decision, hfirst⟩ := decidable first List.mem_cons_self
      rw [issuesMade, hfirst, List.mem_append, Option.mem_toList]
      rcases List.mem_cons.mp hslot with rfl | hslot
      · rw [hfirst] at hissue
        exact Or.inl (Except.ok.inj hissue)
      · exact Or.inr (ih (fun s hs => decidable s (List.mem_cons_of_mem _ hs)) hslot)

end Slots

/-! ## Projects that are up to date -/

section UpToDate

variable {p : Parameters} {live : Live.Project} {observation : Observation}
  {now : Instant}

theorem rolesMatch_of_isUpToDate [DurationReader]
    (h : p.isUpToDate live observation now = .ok true) :
    rolesMatch observation now p.roles live.spec.roles = .ok true := by
  rw [Parameters.isUpToDate] at h
  split at h
  · cases h
  · split at h
    · cases h
    · exact h

/-- **Every spec of an up-to-date project lives.** -/
theorem slotLives_of_isUpToDate [DurationReader] (h : p.isUpToDate live observation now = .ok true)
    {slot : String × TokenSpec} (hslot : slot ∈ specsOf p.roles) :
    SlotLives observation now slot := by
  obtain ⟨r, hr, hname, hs⟩ := mem_specsOf.mp hslot
  have hroles := rolesMatch_eq_true_iff.mp (rolesMatch_of_isUpToDate h)
  obtain ⟨stored, _, hrole⟩ := exists_mem_of_forall₂ hroles hr
  have met := hrole.tokens
  rw [hname] at met
  constructor
  · obtain ⟨t, _, hmet⟩ := exists_mem_of_forall₂ met hs
    obtain ⟨terms, hterms, _⟩ := hmet.lifetime
    exact readable_iff.mpr ⟨terms, hterms⟩
  · exact exists_find?_of_met met hs

end UpToDate

/-- What planning may come to if nothing but renewals is asked for. -/
structure RenewsOnly [DurationReader]
    (project : String) (roles : List Role) (observation : Observation)
    (now : Instant) : Prop where
  /-- No token is missing, and none has expired. -/
  live : ∀ slot ∈ specsOf roles,
    ∃ t, observation.current slot.1 slot.2.id = some t ∧ ¬ t.Over now
  /-- Planning fails over the instant that a declared policy waits for, if at all. -/
  fails : ∀ failure, planTokens project roles observation now = .error failure →
    ∃ slot ∈ specsOf roles, ∃ value,
      (slot.2.renewBefore = some value ∧ failure = .durationOutOfRange .renewBefore value) ∨
      (slot.2.renewAfter = some value ∧ failure = .durationOutOfRange .renewAfter value)
  /-- Every decision is made for a policy, those before a failure included. -/
  reasons : ∀ issue ∈ issuesMade project observation now (specsOf roles),
    issue.reason.IsRenewal
  /-- A plan holds nothing but requests so decided. -/
  planned : ∀ plan, planTokens project roles observation now = .ok plan →
    ∀ (key : TokenKey) (request : TokenRequest), plan[key]? = some request →
      ∃ issue ∈ issuesMade project observation now (specsOf roles),
        issue.request = request ∧ request.key = key ∧ issue.reason.IsRenewal
  /-- Where no policy is declared, there is a plan, and it is empty. -/
  idle : (∀ slot ∈ specsOf roles, slot.2.renewBefore = none ∧ slot.2.renewAfter = none) →
    planTokens project roles observation now = .ok ∅

/-- **Comparison and planner agree on live tokens.** Let the comparison find a
project up to date, with whatever roles and tokens it is declared, repeated ones
included. Then no declared token is missing or has expired. Planning for the same
tokens at the same time can fail only over the instant that a renewal policy waits
for. What it decides and what it plans is there for a renewal policy, and if no
role declares one, it succeeds with nothing planned. -/
theorem upToDate_renews_only [DurationReader] {p : Parameters} {live : Live.Project}
    {observation : Observation} {now : Instant}
    (upToDate : p.isUpToDate live observation now = .ok true) (project : String) :
    RenewsOnly project p.roles observation now := by
  have lives : ∀ slot ∈ specsOf p.roles, SlotLives observation now slot :=
    fun slot hslot => slotLives_of_isUpToDate upToDate hslot
  constructor
  · exact fun slot hslot => (lives slot hslot).live
  · intro failure hfailed
    obtain ⟨slot, hfirst⟩ := planTokens_eq_error.mp hfailed
    exact ⟨slot, hfirst.mem, (lives slot hfirst.mem).fails hfirst.fails⟩
  · intro issue hissue
    obtain ⟨slot, hslot, hdecided⟩ := mem_issuesMade hissue
    exact (lives slot hslot).reason hdecided
  · intro plan planned key request hrequest
    obtain ⟨slot, hslot, issue, hissue, hkey, rfl⟩ := exists_slot_of_planned planned hrequest
    exact ⟨issue, mem_issuesMade_of_decided (planTokens_eq_ok_iff.mp planned).1 hslot hissue,
      rfl, key_of_planned planned hrequest, (lives slot hslot).reason hissue⟩
  · intro unbound
    exact planTokens_eq_empty fun slot hslot =>
      (lives slot hslot).left_alone (unbound slot hslot)

/-- A role that declares one id twice, under different policies. -/
def tanner : Role where
  name := "ci"
  tokens := [
    { id := "hide", expiresIn := some "1h", renewBefore := some "30m" },
    { id := "hide", expiresIn := some "60m", renewAfter := some "25m" }]

/-- The role is declared twice, too. -/
def tannery : Parameters := { roles := [tanner, tanner] }

/-- Both specs are planned by the first of these tokens, and the second spec is
paired with the other one. -/
def tanneryTokens : Observation :=
  (∅ : Observation).insert "ci"
    [⟨"hide", .epoch, some (instantOfTimestamp 3600)⟩,
      ⟨"hide", instantOfTimestamp 600, some (instantOfTimestamp 4200)⟩]

def tanneryLive : Live.Project :=
  { name := "shop", spec := { roles := [{ name := "ci" }, { name := "ci" }] } }

theorem upToDate_renews_at_tannery :
    tannery.isUpToDate tanneryLive tanneryTokens (instantOfTimestamp 1800) = .ok true ∧
    ∃ plan, planTokens "shop" tannery.roles tanneryTokens (instantOfTimestamp 1800) =
        .ok plan ∧
      ∃ issue ∈ issuesMade "shop" tanneryTokens (instantOfTimestamp 1800)
          (specsOf tannery.roles),
        plan[(⟨"ci", "hide"⟩ : TokenKey)]? = some issue.request ∧
          issue.reason.IsRenewal := by
  have upToDate : tannery.isUpToDate tanneryLive tanneryTokens
      (instantOfTimestamp 1800) = .ok true := by
    decide +kernel
  obtain ⟨plan, planned, hrequest⟩ : ∃ plan,
      planTokens "shop" tannery.roles tanneryTokens (instantOfTimestamp 1800) =
          .ok plan ∧
        plan[(⟨"ci", "hide"⟩ : TokenKey)]? =
          some { project := "shop", role := "ci", id := "hide", expiresIn := 3600 } := by
    refine ⟨TokenPlan.ofIssues (issuesMade "shop" tanneryTokens
      (instantOfTimestamp 1800) (specsOf tannery.roles)), ?_, ?_⟩
    · decide +kernel
    · decide +kernel
  obtain ⟨issue, hissue, hmade, _, hreason⟩ :=
    (upToDate_renews_only upToDate "shop").planned plan planned _ _ hrequest
  exact ⟨upToDate, plan, planned, issue, hissue, by rw [hrequest, hmade], hreason⟩

end Reconcile
