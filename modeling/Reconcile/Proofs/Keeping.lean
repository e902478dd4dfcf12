import Mathlib
import Reconcile.Proofs.Lookup
import Reconcile.Proofs.Secrets
import Reconcile.Proofs.Timestamps

/-!
# Tokens that an update keeps

An update sends, for every declared role, the tokens that the control plane
lists for it and that are still wanted. They go there and back within one pass,
from the form in which they travel to the form in which they are seen, and to
the form in which they travel again. A token whose timestamps instants have
comes through unchanged. Any other timestamp is seen as the epoch and is sent
as 0, and an expiry of 0 stands for none: a token whose expiry cannot be read
is thus seen as expired and sent as one that never expires.
-/

namespace Reconcile

/-! ## One token, there and back -/

/-- A timestamp as it is sent back: 0 if no instant has it. -/
def sentBack (seconds : Int) : Int :=
  if (Instant.ofSeconds? seconds).isSome then seconds else 0

theorem seconds_instantOfTimestamp_eq (s : Int) :
    (instantOfTimestamp s).seconds = sentBack s := by
  rw [sentBack]
  split
  · rename_i hreadable
    exact seconds_instantOfTimestamp hreadable
  · rename_i hlost
    rw [instantOfTimestamp_eq_epoch (Option.not_isSome_iff_eq_none.mp hlost)]
    decide

/-- Only a timestamp that no instant has is changed; 0 is not among them. -/
theorem sentBack_eq_self_iff {s : Int} :
    sentBack s = s ↔ (Instant.ofSeconds? s).isSome := by
  rw [sentBack]
  constructor
  · intro h
    split at h
    · assumption
    · rename_i hlost
      rw [← h] at hlost
      exact absurd (by decide) hlost
  · intro hreadable
    rw [if_pos hreadable]

/-- A token as it is sent back. -/
def Live.Token.sentBack (t : Live.Token) : Live.Token :=
  ⟨t.id, Reconcile.sentBack t.issued, Reconcile.sentBack t.expiry⟩

/-- **What is sent of a seen token.** -/
theorem toLive_ofLive_eq (t : Live.Token) :
    (ObservedToken.ofLive t).toLive = t.sentBack := by
  have hexpiry : ((ObservedToken.ofLive t).expiresAt.map Instant.seconds).getD 0 =
      sentBack t.expiry := by
    by_cases hzero : t.expiry = 0
    · have hnothing : (0 : Int) = sentBack 0 := by decide
      rw [ObservedToken.ofLive, if_pos hzero, hzero]
      exact hnothing
    · rw [ObservedToken.ofLive, if_neg hzero]
      exact seconds_instantOfTimestamp_eq t.expiry
  rw [ObservedToken.toLive, hexpiry, Live.Token.sentBack,
    ← seconds_instantOfTimestamp_eq t.issued]
  rfl

/-- **A token is sent back as it came exactly if its timestamps can be
read.** -/
theorem sentBack_eq_self_iff_readable {t : Live.Token} :
    t.sentBack = t ↔ t.unrepresentable = [] := by
  obtain ⟨id, issued, expiry⟩ := t
  rw [ObservedToken.unrepresentable_eq_nil_iff, Live.Token.sentBack,
    Live.Token.mk.injEq]
  simp only [sentBack_eq_self_iff, true_and]
  have hzero : expiry = 0 → (Instant.ofSeconds? expiry).isSome := by
    rintro rfl
    decide
  constructor
  · rintro ⟨hissued, hexpiry⟩
    exact ⟨hissued, Or.inr hexpiry⟩
  · rintro ⟨hissued, hnone | hexpiry⟩
    · exact ⟨hissued, hzero hnone⟩
    · exact ⟨hissued, hexpiry⟩

theorem map_sentBack_eq_iff {tokens : List Live.Token} :
    tokens.map Live.Token.sentBack = tokens ↔
      ∀ t ∈ tokens, t.unrepresentable = [] := by
  simp only [← sentBack_eq_self_iff_readable]
  conv_lhs => rhs; rw [← List.map_id tokens]
  exact List.map_inj_left

/-! ## The tokens of a role -/

/-- The tokens of a role that are still wanted, as the control plane lists
them: for each declared spec in turn the first one that has its id. -/
def Role.wantedTokens (r : Role) (live : Live.Project) : List Live.Token :=
  let listed := live.tokensByRole[r.name]?.getD []
  r.tokens.filterMap fun spec => listed.find? (·.id = spec.id)

/-- The tokens that are kept are those that are wanted, as they are seen. -/
theorem keptTokens_eq (r : Role) (live : Live.Project) :
    r.keptTokens live.observation =
      (r.wantedTokens live).map ObservedToken.ofLive := by
  -- seeing a token keeps its id, so both look for the same one
  rw [Role.keptTokens, Role.wantedTokens, List.map_filterMap]
  refine List.filterMap_congr fun s _ => ?_
  rw [Live.Project.getElem?_observation, List.find?_map]
  rfl

theorem tokens_toLive (r : Role) (live : Live.Project) :
    (r.toLive live.observation).tokens =
      (r.wantedTokens live).map Live.Token.sentBack := by
  change (r.keptTokens live.observation).map ObservedToken.toLive = _
  rw [keptTokens_eq, List.map_map]
  exact List.map_congr_left fun t _ => toLive_ofLive_eq t

/-! ## What an update sends -/

/-- The live project that an update fetches on its way. -/
def fetchedIn : List Step → Option Live.Project
  | .asked (.get _) (some (.ok live)) :: _ => some live
  | _ => none

/-- The project that is sent on the way, if one is. -/
def sentIn : List Step → Option Live.Project
  | [] => none
  | .asked (.update sent) _ :: _ => some sent
  | _ :: rest => sentIn rest

/-- The tokens of some roles, by the names of these. -/
def listedTokens (roles : List Live.Role) : List (String × List Live.Token) :=
  roles.map fun r => (r.name, r.tokens)

section Sending

variable {p : Project} {steps : List Step}
  {outcome : Option (Except Failure Secrets)}

/-- After planning an update sends the project, unless the work is withdrawn
before. -/
theorem sentIn_of_planAlong [DurationReader] (path : p.update.run.Path steps outcome)
    {plan : TokenPlan} (planned : p.planAlong steps = some plan) :
    ∃ name live, fetchedIn steps = some live ∧
      (sentIn steps = some (p.updated name live) ∨
        sentIn steps = none ∧ outcome = some (.error .cancelled)) := by
  cases Project.updatePath_of_path path with
  | unnamed => cases planned
  | unfetched _ stop =>
      rcases stop with ⟨rfl, _⟩ | ⟨rfl, _⟩
      · cases planned
      · cases planned
  | fetchRefused => cases planned
  | unplanned _ failed =>
      rw [Project.planAlong, failed] at planned
      cases planned
  | @unsent name live _ _ _ _ _ _ stop =>
      refine ⟨name, live, rfl, ?_⟩
      rcases stop with ⟨rfl, rfl⟩ | ⟨rfl, _⟩
      · exact Or.inr ⟨rfl, rfl⟩
      · exact Or.inl rfl
  | updateRefused => exact ⟨_, _, rfl, Or.inl rfl⟩
  | issuing => exact ⟨_, _, rfl, Or.inl rfl⟩

end Sending

theorem listedTokens_updated (p : Project) (name : String) (live : Live.Project) :
    listedTokens (p.updated name live).spec.roles =
      p.parameters.roles.map fun r =>
        (r.name, (r.wantedTokens live).map Live.Token.sentBack) := by
  change listedTokens (p.parameters.roles.map (·.toLive live.observation)) = _
  rw [listedTokens, List.map_map]
  refine List.map_congr_left fun r _ => ?_
  rw [Function.comp_apply, tokens_toLive]
  rfl

/-- **An update keeps its tokens unchanged exactly if their timestamps can be
read.** Once an update has planned, it sends the project unless the work is
withdrawn. It then sends for each declared role, in the order of the
declaration, the first listed token of each declared id, with every timestamp
that no instant has replaced by 0; and these are the tokens as they are listed
exactly if all their timestamps can be read. -/
theorem kept_tokens_unchanged_iff [DurationReader] {σ : Type} (h : Host σ) (p : Project) (s : σ)
    {plan : TokenPlan}
    (planned : p.planAlong (h.steps p.update.run s) = some plan) :
    ∃ live, fetchedIn (h.steps p.update.run s) = some live ∧
      (sentIn (h.steps p.update.run s) = none →
        (h.run p.update.run s).1 = some (.error .cancelled)) ∧
      ∀ sent, sentIn (h.steps p.update.run s) = some sent →
        listedTokens sent.spec.roles = p.parameters.roles.map (fun r =>
          (r.name, (r.wantedTokens live).map Live.Token.sentBack)) ∧
        (listedTokens sent.spec.roles = p.parameters.roles.map (fun r =>
          (r.name, r.wantedTokens live)) ↔
            ∀ r ∈ p.parameters.roles, ∀ t ∈ r.wantedTokens live,
              t.unrepresentable = []) := by
  obtain ⟨name, live, hfetched, hsent⟩ :=
    sentIn_of_planAlong (h.path p.update.run s) planned
  refine ⟨live, hfetched, ?_, ?_⟩
  · intro hnone
    rcases hsent with hsent | ⟨_, hcancelled⟩
    · rw [hsent] at hnone
      cases hnone
    · exact hcancelled
  · intro sent hsome
    obtain rfl : p.updated name live = sent := by
      rcases hsent with hsent | ⟨hnone, _⟩
      · exact Option.some.inj (hsent.symm.trans hsome)
      · rw [hnone] at hsome
        cases hsome
    rw [listedTokens_updated]
    refine ⟨rfl, ?_⟩
    simp only [List.map_inj_left, Prod.mk.injEq, true_and]
    exact forall₂_congr fun r _ => map_sentBack_eq_iff

/-- A project that wants one token with a lifetime. -/
def deployment : Project :=
  (Project.declare "shop" { roles := [
    { name := "ci", tokens := [{ id := "deploy", expiresIn := some "1h" }] }]
    }).setExternalName "shop"

/-- Its live project, with that token and some expiry. -/
def deploymentLive (expiry : Int) : Live.Project where
  name := "shop"
  version := "1"
  spec.roles := [{ name := "ci", tokens := [⟨"deploy", 1699999000, expiry⟩] }]
  tokensByRole :=
    (∅ : Dict (List Live.Token)).insert "ci" [⟨"deploy", 1699999000, expiry⟩]

/-- A control plane that holds it, and issues no tokens. -/
def deploymentStage (expiry : Int) : Rehearsal where
  plane := (({} : ControlPlane).insert (deploymentLive expiry)).fail .issue
    ⟨.unavailable, "down"⟩
  clock := 1700000000
  tail := "x"

theorem kept_tokens_unchanged_on_deployment :
    deployment.planAlong (Rehearsal.host.steps deployment.update.run
      (deploymentStage 1700003600)) = some ∅ ∧
    ∃ sent, sentIn (Rehearsal.host.steps deployment.update.run
        (deploymentStage 1700003600)) = some sent ∧
      listedTokens sent.spec.roles = deployment.parameters.roles.map fun r =>
        (r.name, r.wantedTokens (deploymentLive 1700003600)) := by
  have planned : deployment.planAlong (Rehearsal.host.steps deployment.update.run
      (deploymentStage 1700003600)) = some ∅ := by decide +kernel
  obtain ⟨live, hfetched, hwithdrawn, hsent⟩ := kept_tokens_unchanged_iff
    Rehearsal.host deployment (deploymentStage 1700003600) planned
  obtain rfl : live = deploymentLive 1700003600 :=
    Option.some.inj (hfetched.symm.trans (by decide +kernel))
  refine ⟨planned, ?_⟩
  cases hsome : sentIn (Rehearsal.host.steps deployment.update.run
      (deploymentStage 1700003600)) with
  | none => exact absurd (hwithdrawn hsome) (by decide +kernel)
  | some sent => exact ⟨sent, rfl, (hsent sent hsome).2.mpr (by decide +kernel)⟩

/-- A token whose expiry no instant has is sent as one that never expires. When
no token is issued in its place, it stays like this in the control plane. -/
theorem unreadable_expiry_is_sent_as_none :
    (deployment.planAlong (Rehearsal.host.steps deployment.update.run
      (deploymentStage 9223372036854775807))).isSome ∧
    (fetchedIn (Rehearsal.host.steps deployment.update.run
      (deploymentStage 9223372036854775807))).map (listedTokens ·.spec.roles) =
        some [("ci", [⟨"deploy", 1699999000, 9223372036854775807⟩])] ∧
    (sentIn (Rehearsal.host.steps deployment.update.run
      (deploymentStage 9223372036854775807))).map (listedTokens ·.spec.roles) =
        some [("ci", [⟨"deploy", 1699999000, 0⟩])] ∧
    ((Rehearsal.host.run deployment.update.run
      (deploymentStage 9223372036854775807)).2.plane.project? "shop").map
        (listedTokens ·.spec.roles) =
          some [("ci", [⟨"deploy", 1699999000, 0⟩])] := by
  refine ⟨?_, ?_, ?_, ?_⟩ <;> decide +kernel

end Reconcile
