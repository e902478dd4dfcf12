import Mathlib
import Reconcile.Proofs.Fields
import Reconcile.Proofs.Lookup

/-!
# Request and comparison agree

What a declaration asks for is said twice, once by the project that is sent for
it and once by the comparison with the live project. For a declaration without
tokens the two should say the same: a live project is up to date exactly if it
holds what would be sent, whatever tokens its roles have besides. They do,
except for a destination with a part that is present but empty. It is sent like
an absent part, yet compares equal to nothing, so such a declaration is never
met, not even by the project that was sent for it.
-/

namespace Reconcile

/-! ## Tokens aside -/

/-- The configuration with the tokens of its roles left out. -/
def Live.Spec.withoutTokens (s : Live.Spec) : Live.Spec :=
  { s with roles := s.roles.map Live.Role.bare }

/-- The live project holds what is sent for the parameters, tokens aside. -/
def Parameters.HeldBy (p : Parameters) (name : String) (live : Live.Project) :
    Prop :=
  live.labels = p.labels ∧ live.spec.withoutTokens = (p.toLive name ∅).spec

instance (p : Parameters) (name : String) (live : Live.Project) :
    Decidable (p.HeldBy name live) :=
  inferInstanceAs (Decidable (_ ∧ _))

section Roles

variable {roles : List Role}

theorem toLive_empty (r : Role) :
    r.toLive ∅ = ⟨r.name, r.description.getD "", r.policies, r.groups, []⟩ := by
  have hnothing : r.keptTokens ∅ = [] := by
    rw [Role.keptTokens, Std.ExtTreeMap.getElem?_empty]
    exact List.filterMap_eq_nil_iff.mpr fun _ _ => rfl
  rw [Role.toLive, hnothing]
  rfl

/-- **A role matches exactly if it is as it would be sent**, tokens aside. -/
theorem matches_eq_true_iff {r : Role} {live : Live.Role} :
    r.matches live = true ↔ live.bare = r.toLive ∅ := by
  obtain ⟨name, description, policies, groups, tokens⟩ := live
  rw [toLive_empty, Live.Role.bare, Live.Role.mk.injEq]
  simp only [Role.matches, Bool.and_eq_true, decide_eq_true_eq, and_true]
  constructor
  · rintro ⟨⟨⟨hname, hdescription⟩, hpolicies⟩, hgroups⟩
    exact ⟨hname.symm, hdescription.symm, hpolicies.symm, hgroups.symm⟩
  · rintro ⟨hname, hdescription, hpolicies, hgroups⟩
    exact ⟨⟨⟨hname.symm, hdescription.symm⟩, hpolicies.symm⟩, hgroups.symm⟩

/-- Roles without tokens are compared without fail, and match exactly if they
are as they would be sent. -/
theorem rolesMatch_of_tokenless [DurationReader] (tokenless : ∀ r ∈ roles, r.tokens = [])
    (now : Instant) (lives : List Live.Role) :
    rolesMatch ∅ now roles lives =
      .ok (decide (lives.map Live.Role.bare = roles.map (·.toLive ∅))) := by
  induction roles generalizing lives with
  | nil =>
      cases lives with
      | nil => rfl
      | cons live lives => rfl
  | cons r roles ih =>
      cases lives with
      | nil => rfl
      | cons live lives =>
          have hagree : tokensAgree r.tokens
              ((∅ : Observation)[r.name]?.getD []) now = .ok true := by
            rw [tokenless r List.mem_cons_self, Std.ExtTreeMap.getElem?_empty]
            rfl
          have hrest := ih (fun x hx => tokenless x (List.mem_cons_of_mem _ hx)) lives
          rw [rolesMatch_cons hagree, Bool.and_true, hrest]
          simp only [List.map_cons, List.cons.injEq, ← matches_eq_true_iff,
            Bool.decide_and, Bool.decide_eq_true]
          cases r.matches live <;> rfl

end Roles

/-! ## The verdict -/

section Verdict

variable {p : Parameters} {live : Live.Project}

/-- A live project holds what is sent exactly if its fields and its roles do. -/
theorem heldBy_iff {name : String} :
    p.HeldBy name live ↔ AsSent p live ∧
      live.spec.roles.map Live.Role.bare = p.roles.map (·.toLive ∅) := by
  rw [Parameters.HeldBy, Live.Spec.withoutTokens, Parameters.toLive,
    Live.Spec.mk.injEq]
  constructor
  · rintro ⟨labels, description, repos, namespaces, destinations, whitelist,
      blacklist, roles⟩
    exact ⟨⟨labels, description, repos, namespaces, destinations, whitelist,
      blacklist⟩, roles⟩
  · rintro ⟨sent, roles⟩
    exact ⟨sent.labels, sent.description, sent.sourceRepos, sent.sourceNamespaces,
      sent.destinations, sent.clusterWhitelist, sent.namespaceBlacklist, roles⟩

/-- **Up to date means as requested, unless a destination has an empty part.**
For a declaration without tokens the comparison always has an answer. The live
project is up to date exactly if it holds what is sent for the declaration, and
no part of a declared destination is present but empty. -/
theorem isUpToDate_of_tokenless [DurationReader] (tokenless : ∀ r ∈ p.roles, r.tokens = [])
    (name : String) (live : Live.Project) (now : Instant) :
    p.isUpToDate live ∅ now =
      .ok (decide (p.HeldBy name live ∧ ∀ d ∈ p.destinations, d.Filled)) := by
  have hheld : (p.HeldBy name live ∧ ∀ d ∈ p.destinations, d.Filled) ↔
      p.fieldsMatch live = true ∧
        live.spec.roles.map Live.Role.bare = p.roles.map (·.toLive ∅) := by
    rw [heldBy_iff, fieldsMatch_eq_true_iff, and_right_comm]
  rw [decide_eq_decide.mpr hheld, Bool.decide_and, Bool.decide_eq_true,
    Parameters.isUpToDate]
  cases hfields : p.fieldsMatch live with
  | false => rfl
  | true =>
      rw [Bool.not_true, if_neg Bool.false_ne_true, Bool.true_and]
      by_cases hlength : p.roles.length = live.spec.roles.length
      · rw [if_neg (not_not.mpr hlength)]
        exact rolesMatch_of_tokenless tokenless now live.spec.roles
      · -- roles that differ in number differ as they are sent
        have hroles : ¬ live.spec.roles.map Live.Role.bare =
            p.roles.map (·.toLive ∅) := by
          intro h
          have hlengths := congrArg List.length h
          rw [List.length_map, List.length_map] at hlengths
          exact hlength hlengths.symm
        rw [if_pos hlength, decide_eq_false hroles]

theorem heldBy_toLive (p : Parameters) (name : String) :
    p.HeldBy name (p.toLive name ∅) := by
  rw [heldBy_iff]
  constructor
  · exact ⟨rfl, rfl, rfl, rfl, rfl, rfl, rfl⟩
  · change (p.roles.map (·.toLive ∅)).map Live.Role.bare = _
    rw [List.map_map]
    refine List.map_congr_left fun r _ => ?_
    rw [Function.comp_apply, toLive_empty, Live.Role.bare]

/-- **Comparison and request agree exactly on destinations without empty
parts.** Let no role of the declaration hold a token. Then a live project is up
to date exactly if it holds what is sent and no part of a declared destination
is present but empty. So being up to date and holding what is sent are one and
the same for all live projects exactly if no part is. -/
theorem comparison_agrees_iff_filled [DurationReader] (tokenless : ∀ r ∈ p.roles, r.tokens = [])
    (name : String) (now : Instant) :
    (∀ live, p.isUpToDate live ∅ now = .ok true ↔
      p.HeldBy name live ∧ ∀ d ∈ p.destinations, d.Filled) ∧
    ((∀ live, p.isUpToDate live ∅ now = .ok true ↔ p.HeldBy name live) ↔
      ∀ d ∈ p.destinations, d.Filled) := by
  have hverdict : ∀ live, p.isUpToDate live ∅ now = .ok true ↔
      p.HeldBy name live ∧ ∀ d ∈ p.destinations, d.Filled := by
    intro live
    rw [isUpToDate_of_tokenless tokenless name live now, Except.ok.injEq,
      decide_eq_true_iff]
  refine ⟨hverdict, ?_⟩
  constructor
  · intro agree
    have hmet := (agree (p.toLive name ∅)).mpr (heldBy_toLive p name)
    exact ((hverdict _).mp hmet).2
  · intro filled live
    rw [hverdict live]
    exact and_iff_left filled

end Verdict

/-- A declaration with a role and a destination, both of them half open. -/
def outpost : Parameters where
  destinations := [{ server := some "https://10.0.0.1", name := none }]
  roles := [{ name := "ci", policies := ["p, ci, sync"] }]

theorem comparison_agrees_on_outpost :
    (∀ r ∈ outpost.roles, r.tokens = []) ∧ (∀ d ∈ outpost.destinations, d.Filled) ∧
    ∀ live, outpost.isUpToDate live ∅ .epoch = .ok true ↔
      outpost.HeldBy "shop" live := by
  have tokenless : ∀ r ∈ outpost.roles, r.tokens = [] := by decide
  have filled : ∀ d ∈ outpost.destinations, d.Filled := by decide
  exact ⟨tokenless, filled,
    (comparison_agrees_iff_filled tokenless "shop" .epoch).2.mpr filled⟩

/-- A declaration with a destination whose server is present but empty. -/
def serverless : Parameters where
  destinations := [{ server := some "", namespaceName := some "apps" }]

/-- The project that was just sent for it has everything that it asks for, and
is not up to date. -/
theorem sent_project_is_not_up_to_date :
    (∀ r ∈ serverless.roles, r.tokens = []) ∧
    serverless.HeldBy "shop" (serverless.toLive "shop" ∅) ∧
    serverless.isUpToDate (serverless.toLive "shop" ∅) ∅ .epoch = .ok false := by
  refine ⟨by decide, heldBy_toLive serverless "shop", by decide +kernel⟩

end Reconcile
