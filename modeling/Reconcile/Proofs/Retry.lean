import Mathlib
import Reconcile.Proofs.Aftermath
import Reconcile.Proofs.Secrets

/-!
# Trying again

An update in which some tokens are refused fails, and is tried again by the
next pass. What it then plans is what is still pending: the refused tokens, and
those that a declaration makes due the moment they are issued. No other token is
planned again, neither one that was granted, nor one that was not planned in
the first place, although the update has rewritten the tokens of every role.
-/

namespace Reconcile

open ControlPlane

/-- The tokens that an update could not issue. -/
def refusedKeys : Except Failure Secrets → List TokenKey
  | .error (.tokens failures _) => failures.map (·.key)
  | _ => []

theorem refusedKeys_concluded (failures : List TokenFailure) (issued : Secrets) :
    refusedKeys (Project.concluded failures issued) = failures.map (·.key) := by
  unfold Project.concluded
  split
  · rename_i hnil
    rw [hnil]
    rfl
  · rfl

theorem isSome_handedBack?_concluded (failures : List TokenFailure)
    (issued : Secrets) :
    (handedBack? (Project.concluded failures issued)).isSome := by
  unfold Project.concluded
  split
  · rfl
  · rfl

/-- A planned token is refused exactly if the control plane has a reason. -/
theorem mem_refused_iff {cp : ControlPlane} {plan : TokenPlan} {key : TokenKey}
    {t : TokenRequest} (ht : plan[key]? = some t) :
    key ∈ (cp.refused plan.toList).map (·.key) ↔ (cp.refusal? key).isSome := by
  have hentry := Std.ExtTreeMap.mem_toList_iff_getElem?_eq_some.mpr ht
  constructor
  · intro hmem
    obtain ⟨failure, hfailure, rfl⟩ := List.mem_map.mp hmem
    obtain ⟨entry, _, hmade⟩ := List.mem_filterMap.mp hfailure
    obtain ⟨refusal, hrefusal, rfl⟩ := Option.map_eq_some_iff.mp hmade
    exact Option.isSome_iff_exists.mpr ⟨refusal, hrefusal⟩
  · intro hsome
    obtain ⟨refusal, hrefusal⟩ := Option.isSome_iff_exists.mp hsome
    refine List.mem_map.mpr ⟨⟨key, refusal⟩, ?_, rfl⟩
    exact List.mem_filterMap.mpr ⟨(key, t), hentry, by rw [hrefusal]; rfl⟩

/-- The declared spec of a key. -/
def specAt (roles : List Role) (key : TokenKey) : Option TokenSpec :=
  ((specsOf roles).find? (slotKey · = key)).map (·.2)

theorem specAt_slotKey {roles : List Role} (distinct : DistinctTokens roles)
    {slot : String × TokenSpec} (hslot : slot ∈ specsOf roles) :
    specAt roles (slotKey slot) = some slot.2 := by
  rw [specAt]
  cases hfind : (specsOf roles).find? (slotKey · = slotKey slot) with
  | none =>
      exfalso
      rw [List.find?_eq_none] at hfind
      exact hfind slot hslot (by simp)
  | some other =>
      have hkey : slotKey other = slotKey slot := by
        simpa using List.find?_some hfind
      have hmem := List.mem_of_find?_eq_some hfind
      rw [slot_eq_of_slotKey_eq distinct hmem hslot hkey]
      rfl

/-- What is still pending of a plan after an update: the refused tokens, and
those that are due at once. -/
def TokenPlan.pending [DurationReader] (plan : TokenPlan) (roles : List Role)
    (refused : List TokenKey) (now : Instant) : TokenPlan :=
  plan.filter fun key _ =>
    decide (key ∈ refused) || (specAt roles key).any (·.dueAtOnce now)

/-- A planned request of a declared spec is pending if it is refused or due at
once. -/
theorem getElem?_pending [DurationReader] {cp : ControlPlane} {plan : TokenPlan}
    {roles : List Role} (distinct : DistinctTokens roles) (now : Instant)
    {slot : String × TokenSpec} (hslot : slot ∈ specsOf roles) :
    (plan.pending roles ((cp.refused plan.toList).map (·.key)) now)[slotKey slot]? =
      plan[slotKey slot]?.filter fun _ =>
        (cp.refusal? (slotKey slot)).isSome || slot.2.dueAtOnce now := by
  rw [TokenPlan.pending, Std.ExtTreeMap.getElem?_filter',
    specAt_slotKey distinct hslot, Option.any_some]
  cases ht : plan[slotKey slot]? with
  | none => rfl
  | some t =>
      have hrefused : decide (slotKey slot ∈ (cp.refused plan.toList).map (·.key)) =
          (cp.refusal? (slotKey slot)).isSome := by
        rw [Bool.eq_iff_iff, decide_eq_true_iff]
        exact mem_refused_iff ht
      rw [Option.filter_some, Option.filter_some, hrefused]

section Retry

variable {cp : ControlPlane} {p : Project} {name : String}
  {live after : Live.Project} {plan again : TokenPlan} {now : Instant}

/-- **Planning after an update gives what is pending.** -/
theorem plan_after_update [DurationReader]
    (distinct : DistinctTokens p.parameters.roles)
    (planned : planTokens name p.parameters.roles live.observation now = .ok plan)
    (sees : SeesAfter after (cp.rolesAfter p live now plan))
    (readable : live.unrepresentable = [])
    (whole : now.subsecond = 0) (nonneg : Instant.epoch ≤ now)
    (replanned : planTokens name p.parameters.roles after.observation now =
      .ok again) :
    again = plan.pending p.parameters.roles
      ((cp.refused plan.toList).map (·.key)) now := by
  refine Std.ExtTreeMap.ext_getElem? fun key => ?_
  by_cases hdeclared : ∃ slot ∈ specsOf p.parameters.roles, slotKey slot = key
  · obtain ⟨slot, hslot, rfl⟩ := hdeclared
    obtain ⟨issue, hissue⟩ := (planTokens_eq_ok_iff.mp planned).1 slot hslot
    obtain ⟨issue', hissue'⟩ := (planTokens_eq_ok_iff.mp replanned).1 slot hslot
    have hplan := getElem?_slotKey_of_planned planned distinct hslot hissue
    rw [getElem?_slotKey_of_planned replanned distinct hslot hissue',
      getElem?_pending distinct now hslot]
    cases hgranted : (cp.granted plan)[slotKey slot]? with
    | some t =>
        rw [decideIssue_of_granted distinct planned sees hslot whole nonneg hgranted
          hissue']
        rw [getElem?_granted, Option.filter_eq_some_iff] at hgranted
        obtain ⟨ht, hnone⟩ := hgranted
        rw [ht, Option.filter_some, Option.isNone_iff_eq_none.mp hnone]
        rfl
    | none =>
        -- the spec is seen as before, so what was decided is decided again
        rw [decideIssue_congr (current_eq_of_not_granted distinct planned sees
          hslot readable hgranted), hissue] at hissue'
        cases hissue'
        rw [← hplan]
        rw [getElem?_granted] at hgranted
        cases ht : plan[slotKey slot]? with
        | none => rfl
        | some t =>
            rw [ht, Option.filter_eq_none_iff] at hgranted
            have hrefused : (cp.refusal? (slotKey slot)).isSome := by
              simpa [Option.isSome_iff_ne_none] using hgranted t rfl
            rw [hrefused, Bool.true_or, Option.filter_some, if_pos rfl]
  · have hundeclared : ∀ slot ∈ specsOf p.parameters.roles, slotKey slot ≠ key :=
      fun slot hslot hkey => hdeclared ⟨slot, hslot, hkey⟩
    rw [getElem?_eq_none_of_undeclared replanned hundeclared, TokenPlan.pending,
      Std.ExtTreeMap.getElem?_filter',
      getElem?_eq_none_of_undeclared planned hundeclared]
    rfl

/-- **A retry does exactly what is still pending.** Let only the issue of
tokens be refused, any of them. Then an update ends with its secrets or with
the refused tokens, and planning for the project it leaves behind, at the same
time, gives the planned tokens that were refused and those that are due at once,
and no other. -/
theorem retry_plans_pending [DurationReader] (tail : ControlPlane → String)
    (named : p.externalName = some name) (held : cp.project? name = some live)
    (readable : live.unrepresentable = [])
    (distinct : DistinctTokens p.parameters.roles)
    (whole : now.subsecond = 0) (nonneg : Instant.epoch ≤ now)
    (served : ∀ op, op ≠ .issue → cp.failures op = none)
    (planned : planTokens name p.parameters.roles live.observation now = .ok plan) :
    ∃ result cp' after,
      (undisturbed now tail).run p.update.run cp = (some result, cp') ∧
      (handedBack? result).isSome ∧
      cp'.project? name = some after ∧
      ∀ again, planTokens name p.parameters.roles after.observation now = .ok again →
        again = plan.pending p.parameters.roles (refusedKeys result) now := by
  obtain ⟨_, cp', hrun, _, hheld, _⟩ := run_update tail named held
    (served .get nofun) (served .update nofun) planned
  have hnames : ((cp.rolesAfter p live now plan).map (·.name)).Nodup := by
    rw [names_rolesAfter]
    exact distinct.names
  obtain ⟨after, hafter, sees⟩ := hheld.current hnames
  refine ⟨_, cp', after, hrun, isSome_handedBack?_concluded _ _, hafter, ?_⟩
  intro again replanned
  rw [refusedKeys_concluded]
  exact plan_after_update distinct planned sees readable whole nonneg replanned

end Retry

/-- The project of the pipeline without its tokens, and a refusal of the first
of them. -/
def halfRefused : ControlPlane :=
  (({} : ControlPlane).insert { name := "shop" }).failToken ⟨"ci", "a"⟩
    ⟨.internal, "out of order"⟩

/-- The plan for the pipeline: both of its tokens are missing. -/
def pipelinePlan : TokenPlan :=
  TokenPlan.ofIssues [
    ⟨.missing, { project := "shop", role := "ci", id := "a" }⟩,
    ⟨.missing, { project := "shop", role := "ci", id := "b" }⟩]

theorem retry_of_half_refused :
    ∃ result cp' after,
      (undisturbed .epoch fun _ => "x").run pipeline.update.run halfRefused =
        (some result, cp') ∧
      (handedBack? result).isSome ∧
      cp'.project? "shop" = some after ∧
      ∀ again, planTokens "shop" pipeline.parameters.roles after.observation
          .epoch = .ok again →
        again = pipelinePlan.pending pipeline.parameters.roles
          (refusedKeys result) .epoch := by
  refine retry_plans_pending (fun _ => "x") (by decide +kernel)
    (by decide +kernel : halfRefused.project? "shop" =
      some { name := "shop", version := "1" })
    (by decide +kernel) ⟨by decide, by decide⟩ (by decide) (by decide) ?_
    (by decide +kernel)
  intro op _
  rfl

end Reconcile
