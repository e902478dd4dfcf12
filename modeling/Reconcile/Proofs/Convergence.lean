import Mathlib
import Reconcile.Proofs.Fields
import Reconcile.Proofs.Passes
import Reconcile.Proofs.Settled

/-!
# Updates converge

Two updates in a row bring any project to what its declaration asks for. The
first one sends the declared fields and settles the tokens, but leaves them in
the order in which they came: the kept ones first, then those just granted. The
second one has nothing left to issue and sends the tokens in the order of the
declaration. What a pass observes then is no drift, and there is nothing to
fill in.
-/

namespace Reconcile

open ControlPlane

/-! ## Observing alone -/

section Runs

variable {now : Instant} {cp : ControlPlane} {p : Project} {name : String}
  {live : Live.Project}

/-- An observation that is alone reports what it judges the live project to
be. -/
theorem run_observe [DurationReader] (tail : ControlPlane → String)
    (named : p.externalName = some name) (held : cp.project? name = some live)
    (served : cp.failures .get = none) {verdict : Verdict}
    (judged : p.parameters.evaluate name live live.observation now = .ok verdict) :
    ∃ seen cp', (undisturbed now tail).run p.observe.run cp =
      (some (.ok (⟨true, verdict.upToDate, verdict.lateInitialized⟩, seen)), cp') := by
  rw [run_observe_held tail named held served, judged]
  exact ⟨_, _, rfl⟩

/-- **An update of settled tokens leaves no drift behind.** -/
theorem evaluate_of_settled [DurationReader] {before after : Live.Project} {version : String}
    (hafter : after = Live.Project.reindex
      { p.parameters.toLive name before.observation with
        version := version,
        spec.roles := p.parameters.roles.map (·.toLive before.observation) })
    (settled : Settled p.parameters.roles before.observation now)
    (settled' : Settled p.parameters.roles after.observation now)
    (distinct : DistinctTokens p.parameters.roles) (nonneg : Instant.epoch ≤ now)
    (filled : ∀ d ∈ p.parameters.destinations, d.Filled) :
    p.parameters.evaluate name after after.observation now =
      .ok ⟨true, false, ∅⟩ := by
  have hsent : AsSent p.parameters after := by
    subst hafter
    exact ⟨rfl, rfl, rfl, rfl, rfl, rfl, rfl⟩
  have hroles : after.spec.roles =
      p.parameters.roles.map (·.toLive before.observation) := by
    subst hafter
    rfl
  have hagree : ∀ r ∈ p.parameters.roles,
      tokensAgree r.tokens (after.observation[r.name]?.getD []) now = .ok true := by
    intro r hr
    have hnames : ((p.parameters.roles.map
        (·.toLive before.observation)).map (·.name)).Nodup := by
      rw [names_toLive]
      exact distinct.names
    have hseen : after.observation[r.name]?.getD [] =
        r.keptTokens before.observation := by
      subst hafter
      rw [Live.Project.observation_reindex hnames]
      change (Live.tokensIn (p.parameters.roles.map _) r.name).map _ = _
      rw [tokensIn_toLive distinct.names hr, map_keptTokens settled nonneg hr]
    rw [hseen]
    exact tokensAgree_keptTokens settled hr
  have hupToDate : p.parameters.isUpToDate after after.observation now = .ok true := by
    rw [Parameters.isUpToDate, hsent.fieldsMatch_eq_true filled, hroles,
      List.length_map]
    simp only [Bool.not_true, Bool.false_eq_true, if_false, ne_eq,
      not_true_eq_false]
    exact rolesMatch_toLive hagree
  rw [Parameters.evaluate, hsent.fillFrom_eq filled, hsent.hasGaps_eq_false,
    Parameters.judge, settled'.planTokens_eq name, ok_bind, hupToDate]
  rfl

theorem toList_empty : Std.ExtTreeMap.toList (∅ : TokenPlan) = [] := rfl

/-- Where nothing is planned, an update leaves the roles as it sends them. -/
theorem rolesAfter_empty (cp : ControlPlane) (p : Project) (live : Live.Project)
    (now : Instant) :
    cp.rolesAfter p live now ∅ = p.parameters.roles.map (·.toLive live.observation) := by
  rw [rolesAfter, toList_granted, toList_empty]
  rfl

/-- An update of settled tokens issues none and sends them as they are. -/
theorem run_update_of_settled [DurationReader] (tail : ControlPlane → String)
    (named : p.externalName = some name) (held : cp.project? name = some live)
    (hget : cp.failures .get = none) (hupdate : cp.failures .update = none)
    (settled : Settled p.parameters.roles live.observation now) :
    ∃ cp', (undisturbed now tail).run p.update.run cp = (some (.ok ∅), cp') ∧
      cp'.Holds name (p.parameters.toLive name live.observation)
        (p.parameters.roles.map (·.toLive live.observation)) ∧
      cp.SameFaults cp' := by
  obtain ⟨brought, cp', hrun, hbrought, hheld, hfaults⟩ :=
    run_update tail named held hget hupdate (settled.planTokens_eq name)
  have hnothing : brought = [] := by
    rw [← Std.ExtTreeMap.map_fst_toList_eq_keys, toList_granted,
      toList_empty] at hbrought
    exact List.map_eq_nil_iff.mp hbrought
  rw [rolesAfter_empty] at hheld
  rw [hnothing, toList_empty] at hrun
  exact ⟨cp', hrun, hheld, hfaults⟩

/-- **Two updates, and all is as declared.** Whatever the control plane holds
under the name, let the declaration be one that can be met: its keys are
distinct, no part of a destination is empty, what it asks of fresh tokens is
sustainable, and the tokens that are not planned have the lifetime asked for.
If nothing fails, two updates in a row go well, the second one issues nothing,
and an observation then finds the project up to date. -/
theorem updates_converge [DurationReader] {plan : TokenPlan} (tail : ControlPlane → String)
    (named : p.externalName = some name) (held : cp.project? name = some live)
    (distinct : DistinctTokens p.parameters.roles)
    (whole : now.subsecond = 0) (nonneg : Instant.epoch ≤ now)
    (served : ∀ op, cp.failures op = none)
    (granting : ∀ key, cp.tokenFailures key = none)
    (filled : ∀ d ∈ p.parameters.destinations, d.Filled)
    (planned : planTokens name p.parameters.roles live.observation now = .ok plan)
    (sustainable : ∀ slot ∈ specsOf p.parameters.roles, ∀ terms,
      slot.2.terms = .ok terms → terms.Sustainable now)
    (lifetimes : ∀ slot ∈ specsOf p.parameters.roles,
      plan[slotKey slot]? = none → ∀ terms t, slot.2.terms = .ok terms →
        live.observation.current slot.1 slot.2.id = some t →
          terms.lifetimeMatches t = true) :
    ∃ issued cp₁ cp₂ seen cp₃,
      (undisturbed now tail).run p.update.run cp = (some (.ok issued), cp₁) ∧
      (undisturbed now tail).run p.update.run cp₁ = (some (.ok ∅), cp₂) ∧
      (undisturbed now tail).run p.observe.run cp₂ =
        (some (.ok (⟨true, true, false⟩, seen)), cp₃) := by
  have hunrefused : ∀ key, cp.refusal? key = none := by
    intro key
    rw [refusal?, served, granting]
    rfl
  -- the first update settles the tokens
  obtain ⟨brought, cp₁, hfirst, _, hheld₁, hfaults₁⟩ :=
    run_update tail named held (served .get) (served .update) planned
  have hnone : cp.refused plan.toList = [] := by
    rw [refused, List.filterMap_eq_nil_iff]
    intro entry _
    rw [hunrefused]
    rfl
  rw [hnone] at hfirst
  have hnames : ((cp.rolesAfter p live now plan).map (·.name)).Nodup := by
    rw [names_rolesAfter]
    exact distinct.names
  obtain ⟨after₁, hafter₁, sees₁⟩ := hheld₁.current hnames
  have hsettled₁ : Settled p.parameters.roles after₁.observation now :=
    settled_after_update distinct planned sees₁ whole nonneg hunrefused
      sustainable lifetimes
  -- the second update has nothing to issue and puts them in order
  have hserved₁ : ∀ op, cp₁.failures op = none := by
    intro op
    rw [hfaults₁.failures, served]
  obtain ⟨cp₂, hsecond, hheld₂, hfaults₂⟩ :=
    run_update_of_settled tail named hafter₁ (hserved₁ .get) (hserved₁ .update)
      hsettled₁
  have hnames₂ : ((p.parameters.roles.map
      (·.toLive after₁.observation)).map (·.name)).Nodup := by
    rw [names_toLive]
    exact distinct.names
  obtain ⟨after₂, hafter₂, sees₂⟩ := hheld₂.current hnames₂
  have hsettled₂ : Settled p.parameters.roles after₂.observation now := by
    rw [← rolesAfter_empty cp₁ p after₁ now] at sees₂
    exact hsettled₁.after_update sees₂ distinct nonneg
  -- the observation then finds nothing that differs
  obtain ⟨version, hproject⟩ := hheld₂
  have hjudged := evaluate_of_settled (Option.some.inj (hafter₂.symm.trans hproject))
    hsettled₁ hsettled₂ distinct nonneg filled
  have hserved₂ : cp₂.failures .get = none := by
    rw [hfaults₂.failures, hserved₁]
  obtain ⟨seen, cp₃, hobserve⟩ := run_observe tail named hafter₂ hserved₂ hjudged
  exact ⟨_, cp₁, cp₂, seen, cp₃, hfirst, hsecond, hobserve⟩

end Runs

/-! The control plane below holds the second of two declared tokens. The first
update appends the missing one behind it, and the second update swaps them. -/

/-- A project that wants two tokens, one of them with a lifetime. -/
def workshop : Project :=
  (Project.declare "shop" { roles := [
    { name := "ci", tokens := [
      { id := "a" },
      { id := "b", expiresIn := some "1h", renewBefore := some "10m" }] }]
    }).setExternalName "shop"

/-- Its live project, with the second token. -/
def workshopLive : Live.Project where
  name := "shop"
  version := "1"
  spec := { description := "old", roles := [
    { name := "ci", tokens := [⟨"b", 0, 3600⟩] }] }
  tokensByRole := (∅ : Dict (List Live.Token)).insert "ci" [⟨"b", 0, 3600⟩]

def workshopPlane : ControlPlane := ({} : ControlPlane).insert workshopLive

/-- The first token is missing. -/
def workshopPlan : TokenPlan :=
  TokenPlan.ofIssues [⟨.missing, { project := "shop", role := "ci", id := "a" }⟩]

theorem specsOf_workshop : specsOf workshop.parameters.roles = [
    ("ci", { id := "a" }),
    ("ci", { id := "b", expiresIn := some "1h", renewBefore := some "10m" })] := rfl

theorem terms_workshop_a : TokenSpec.terms { id := "a" } = .ok ⟨none, none, none⟩ :=
  rfl

theorem terms_workshop_b :
    TokenSpec.terms { id := "b", expiresIn := some "1h", renewBefore := some "10m" } =
      .ok ⟨some ⟨3600 * nanosPerSecond⟩, some ⟨600 * nanosPerSecond⟩, none⟩ := by
  decide +kernel

theorem updates_converge_on_workshop :
    ∃ issued cp₁ cp₂ seen cp₃,
      (undisturbed .epoch fun _ => "x").run workshop.update.run workshopPlane =
        (some (.ok issued), cp₁) ∧
      (undisturbed .epoch fun _ => "x").run workshop.update.run cp₁ =
        (some (.ok ∅), cp₂) ∧
      (undisturbed .epoch fun _ => "x").run workshop.observe.run cp₂ =
        (some (.ok (⟨true, true, false⟩, seen)), cp₃) := by
  refine updates_converge (fun _ => "x") (by decide +kernel)
    (by decide +kernel : workshopPlane.project? "shop" = some workshopLive)
    ⟨by decide, by decide⟩ (by decide) (by decide) (fun _ => rfl) (fun _ => rfl)
    nofun (by decide +kernel : _ = Except.ok workshopPlan) ?_ ?_
  · intro slot hslot terms hterms
    rw [specsOf_workshop] at hslot
    rcases List.mem_cons.mp hslot with rfl | hslot
    · cases terms_workshop_a.symm.trans hterms
      exact ⟨nofun, nofun, nofun⟩
    · rw [List.mem_singleton.mp hslot] at hterms
      cases terms_workshop_b.symm.trans hterms
      refine ⟨?_, ?_, nofun⟩
      · rintro _ ⟨⟩
        decide +kernel
      · rintro _ ⟨⟩ _ ⟨⟩
        decide +kernel
  · intro slot hslot hplan terms t hterms hcurrent
    rw [specsOf_workshop] at hslot
    rcases List.mem_cons.mp hslot with rfl | hslot
    · have hmissing : workshopLive.observation.current "ci" "a" = none := by
        decide +kernel
      cases hmissing.symm.trans hcurrent
    · rw [List.mem_singleton.mp hslot] at hterms hcurrent
      have hthere : workshopLive.observation.current "ci" "b" =
          some (ObservedToken.ofLive ⟨"b", 0, 3600⟩) := by
        decide +kernel
      cases terms_workshop_b.symm.trans hterms
      cases hthere.symm.trans hcurrent
      decide +kernel

end Reconcile
