import Mathlib
import Reconcile.Drift
import Reconcile.Proofs.Planning

/-!
# Comparing after planning

Comparing a live project with its declaration fails for one reason only: a
duration that cannot be read. Planning reads all of them, so a comparison that
follows a plan has an answer.
-/

namespace Reconcile

variable [DurationReader]

/-- Every duration of every spec can be read. -/
def Readable (specs : List TokenSpec) : Prop :=
  ∀ s ∈ specs, ∃ terms, s.terms = .ok terms

/-- One pair, once the durations of its spec are read. -/
theorem tokensMatch_cons {now : Instant} {s : TokenSpec}
    {specs : List TokenSpec} {t : ObservedToken} {tokens : List ObservedToken}
    {terms : TokenTerms} (h : s.terms = .ok terms) :
    tokensMatch now (s :: specs) (t :: tokens) =
      if s.id = t.id && terms.lifetimeMatches t && !t.isExpired now then
        tokensMatch now specs tokens
      else .ok false := by
  rw [tokensMatch, h, ok_bind]
  rfl

theorem tokensMatch_isOk {specs : List TokenSpec} (h : Readable specs)
    (now : Instant) (tokens : List ObservedToken) :
    ∃ b, tokensMatch now specs tokens = .ok b := by
  induction specs generalizing tokens with
  | nil => exact ⟨true, by rw [tokensMatch]; simp⟩
  | cons s specs ih =>
      cases tokens with
      | nil => exact ⟨true, by rw [tokensMatch]; simp⟩
      | cons t tokens =>
          obtain ⟨terms, ht⟩ := h s List.mem_cons_self
          rw [tokensMatch_cons ht]
          split
          · exact ih (fun x hx => h x (List.mem_cons_of_mem _ hx)) tokens
          · exact ⟨false, rfl⟩

theorem tokensAgree_isOk {specs : List TokenSpec} (h : Readable specs)
    (now : Instant) (tokens : List ObservedToken) :
    ∃ b, tokensAgree specs tokens now = .ok b := by
  rw [tokensAgree]
  split
  · exact tokensMatch_isOk h now tokens
  · exact ⟨false, rfl⟩

/-- One pair of roles, once their tokens are compared. -/
theorem rolesMatch_cons {observation : Observation} {now : Instant} {r : Role}
    {roles : List Role} {live : Live.Role} {lives : List Live.Role}
    {agree : Bool}
    (h : tokensAgree r.tokens (observation[r.name]?.getD []) now = .ok agree) :
    rolesMatch observation now (r :: roles) (live :: lives) =
      if r.matches live && agree then rolesMatch observation now roles lives
      else .ok false := by
  rw [rolesMatch, h]
  cases r.matches live <;> cases agree <;> rfl

theorem rolesMatch_isOk {roles : List Role}
    (h : ∀ r ∈ roles, Readable r.tokens) (observation : Observation)
    (now : Instant) (lives : List Live.Role) :
    ∃ b, rolesMatch observation now roles lives = .ok b := by
  induction roles generalizing lives with
  | nil => cases lives <;> exact ⟨_, rfl⟩
  | cons r roles ih =>
      cases lives with
      | nil => exact ⟨false, rfl⟩
      | cons live lives =>
          obtain ⟨agree, ha⟩ := tokensAgree_isOk (h r List.mem_cons_self) now
            (observation[r.name]?.getD [])
          rw [rolesMatch_cons ha]
          split
          · exact ih (fun x hx => h x (List.mem_cons_of_mem _ hx)) lives
          · exact ⟨false, rfl⟩

theorem readable_of_planned {project : String} {roles : List Role}
    {observation : Observation} {now : Instant} {plan : TokenPlan}
    (h : planTokens project roles observation now = .ok plan) :
    ∀ r ∈ roles, Readable r.tokens := by
  intro r hr s hs
  obtain ⟨issue, hi⟩ := (planTokens_eq_ok_iff.mp h).1 (r.name, s)
    (mem_specsOf.mpr ⟨r, hr, rfl, hs⟩)
  obtain ⟨terms, _, ht, _⟩ := decideIssue_eq_ok.mp hi
  exact ⟨terms, ht⟩

/-- **A comparison that follows a plan has an answer.** -/
theorem isUpToDate_isOk_of_planned {p : Parameters} {project : String}
    {observation : Observation} {now : Instant} {plan : TokenPlan}
    (h : planTokens project p.roles observation now = .ok plan)
    (live : Live.Project) :
    ∃ b, p.isUpToDate live observation now = .ok b := by
  rw [Parameters.isUpToDate]
  split
  · exact ⟨false, rfl⟩
  · split
    · exact ⟨false, rfl⟩
    · exact rolesMatch_isOk (readable_of_planned h) observation now _

/-- **What can be planned for can be judged.** -/
theorem evaluate_isOk_of_planned {p : Parameters} {name : String} {live : Live.Project}
    {observation : Observation} {now : Instant} {plan : TokenPlan}
    (planned : planTokens name p.roles observation now = .ok plan) :
    ∃ verdict, p.evaluate name live observation now = .ok verdict := by
  have hplanned : planTokens name (p.fillFrom live).roles observation now = .ok plan :=
    planned
  obtain ⟨same, hsame⟩ := isUpToDate_isOk_of_planned hplanned live
  rw [Parameters.evaluate, Parameters.judge, hplanned, ok_bind]
  dsimp only
  split
  · rw [hsame]
    exact ⟨_, rfl⟩
  · exact ⟨_, rfl⟩

/-- **A judgement fails as its planning fails**, and not otherwise. -/
theorem evaluate_eq_error_iff {p : Parameters} {name : String} {live : Live.Project}
    {observation : Observation} {now : Instant} {failure : Failure} :
    p.evaluate name live observation now = .error failure ↔
      planTokens name p.roles observation now = .error failure := by
  cases planned : planTokens name p.roles observation now with
  | ok plan =>
      obtain ⟨verdict, judged⟩ : ∃ verdict, p.evaluate name live observation now =
          .ok verdict := evaluate_isOk_of_planned planned
      rw [judged]
      constructor <;> nofun
  | error earlier =>
      have hplanned : planTokens name (p.fillFrom live).roles observation now =
          .error earlier := planned
      have hfailed : p.evaluate name live observation now = .error earlier := by
        rw [Parameters.evaluate, Parameters.judge, hplanned]
        rfl
      rw [hfailed, Except.error.injEq, Except.error.injEq]

end Reconcile
