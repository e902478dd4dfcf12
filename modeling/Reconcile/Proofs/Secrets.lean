import Mathlib
import Reconcile.Proofs.UpdatePath
import Reconcile.Rehearsal

/-!
# What becomes of issued secrets

A secret can be read once, in the answer to the call that issues its token.
This module follows the secrets of an update run, under every host: which ones
the run was given (`issuedIn`), and which ones it hands back (`handedBack?`).

The two agree on every run that goes through all planned tokens. They part in
two places. A run that is withdrawn between two tokens ends in a failure that
carries no secrets. And secrets are filed under the text of their key, so that
two keys with one text share one place.
-/

namespace Reconcile

/-! ## Secrets given and secrets handed back -/

/-- The token that a step brought: its key and its secret. -/
def Step.secret? : Step → Option (TokenKey × String)
  | .asked (.issue t) (some (.ok secret)) => some (t.key, secret)
  | _ => none

/-- The tokens that a run was given, in the order of their issue. -/
def issuedIn (steps : List Step) : List (TokenKey × String) :=
  steps.filterMap Step.secret?

/-- The secrets that a result hands back: those of an update that went well,
or those kept in the failure of one that could not issue every token. -/
def handedBack? : Except Failure Secrets → Option Secrets
  | .ok secrets => some secrets
  | .error (.tokens _ secrets) => some secrets
  | .error _ => none

/-- The secrets that come out of a run, none if it has no end. -/
def handedBack (outcome : Option (Except Failure Secrets)) : Secrets :=
  (outcome.bind handedBack?).getD ∅

/-! ## Filing secrets -/

/-- Secrets filed one after the other under the text of their key. -/
def Secrets.file (secrets : Secrets) (issued : List (TokenKey × String)) :
    Secrets :=
  issued.foldl (fun kept entry => kept.insert entry.1.text entry.2) secrets

theorem Secrets.file_cons (secrets : Secrets) (entry : TokenKey × String)
    (issued : List (TokenKey × String)) :
    secrets.file (entry :: issued) =
      Secrets.file (secrets.insert entry.1.text entry.2) issued := rfl

/-- Filing leaves a place alone that no filed key has. -/
theorem Secrets.getElem?_file_of_forall_ne {issued : List (TokenKey × String)}
    {secrets : Secrets} {text : String}
    (h : ∀ entry ∈ issued, entry.1.text ≠ text) :
    (secrets.file issued)[text]? = secrets[text]? := by
  induction issued generalizing secrets with
  | nil => rfl
  | cons entry rest ih =>
      rw [Secrets.file_cons, ih fun e he => h e (List.mem_cons_of_mem _ he),
        Std.ExtTreeMap.getElem?_insert,
        if_neg (by simpa using h entry List.mem_cons_self)]

/-- Under keys of distinct text every secret is found again. -/
theorem Secrets.getElem?_file {issued : List (TokenKey × String)}
    {secrets : Secrets} (hnd : (issued.map (·.1.text)).Nodup)
    {entry : TokenKey × String} (he : entry ∈ issued) :
    (secrets.file issued)[entry.1.text]? = some entry.2 := by
  induction issued generalizing secrets with
  | nil => cases he
  | cons first rest ih =>
      rw [List.map_cons, List.nodup_cons] at hnd
      rw [Secrets.file_cons]
      rcases List.mem_cons.mp he with rfl | hrest
      · rw [Secrets.getElem?_file_of_forall_ne]
        · exact Std.ExtTreeMap.getElem?_insert_self
        · intro other hother heq
          exact hnd.1 (heq ▸ List.mem_map.mpr ⟨other, hother, rfl⟩)
      · exact ih hnd.2 hrest

theorem Secrets.size_file_le (issued : List (TokenKey × String))
    (secrets : Secrets) :
    (secrets.file issued).size ≤ secrets.size + issued.length := by
  induction issued generalizing secrets with
  | nil => exact Nat.le_refl _
  | cons entry rest ih =>
      rw [Secrets.file_cons, List.length_cons]
      have hrest := ih (secrets.insert entry.1.text entry.2)
      have hins : (secrets.insert entry.1.text entry.2).size ≤
          secrets.size + 1 := Std.ExtTreeMap.size_insert_le
      omega

/-- **Every secret gets a place of its own exactly under keys of distinct
text** that have no place yet. -/
theorem Secrets.size_file_eq_iff (issued : List (TokenKey × String))
    (secrets : Secrets) :
    (secrets.file issued).size = secrets.size + issued.length ↔
      (∀ entry ∈ issued, entry.1.text ∉ secrets) ∧
        (issued.map (·.1.text)).Nodup := by
  induction issued generalizing secrets with
  | nil => simp [Secrets.file]
  | cons entry rest ih =>
      rw [Secrets.file_cons, List.length_cons, List.map_cons, List.nodup_cons]
      by_cases htaken : entry.1.text ∈ secrets
      · have hle := Secrets.size_file_le rest
          (secrets.insert entry.1.text entry.2)
        rw [Std.ExtTreeMap.size_insert,
          if_pos (Std.ExtTreeMap.mem_iff_contains.mp htaken)] at hle
        constructor
        · intro heq
          omega
        · rintro ⟨hfree, _⟩
          exact absurd htaken (hfree entry List.mem_cons_self)
      · have hsize : (secrets.insert entry.1.text entry.2).size =
            secrets.size + 1 := by
          rw [Std.ExtTreeMap.size_insert,
            if_neg fun h => htaken (Std.ExtTreeMap.mem_iff_contains.mpr h)]
        have hih := ih (secrets.insert entry.1.text entry.2)
        rw [hsize] at hih
        rw [show secrets.size + (rest.length + 1) =
          secrets.size + 1 + rest.length by omega, hih]
        constructor
        · rintro ⟨hfree, hnd⟩
          refine ⟨?_, ?_, hnd⟩
          · intro other hother
            rcases List.mem_cons.mp hother with rfl | hother
            · exact htaken
            · intro hmem
              exact hfree other hother (Std.ExtTreeMap.mem_insert.mpr
                (Or.inr hmem))
          · intro hmem
            obtain ⟨other, hother, heq⟩ := List.mem_map.mp hmem
            exact hfree other hother (Std.ExtTreeMap.mem_insert.mpr
              (Or.inl (by simp [heq])))
        · rintro ⟨hfree, hnew, hnd⟩
          refine ⟨?_, hnd⟩
          intro other hother hmem
          rcases Std.ExtTreeMap.mem_insert.mp hmem with heq | hmem
          · exact hnew (List.mem_map.mpr ⟨other, hother, by
              simpa using (Std.LawfulEqOrd.eq_of_compare heq).symm⟩)
          · exact hfree other (List.mem_cons_of_mem _ hother) hmem

/-! ## The secrets of an update -/

theorem issuedIn_cons_of_none {step : Step} (h : step.secret? = none)
    (steps : List Step) : issuedIn (step :: steps) = issuedIn steps := by
  rw [issuedIn, List.filterMap_cons_none h]
  rfl

theorem issuedIn_cons_issued (t : TokenRequest) (secret : String)
    (steps : List Step) :
    issuedIn (.asked (.issue t) (some (.ok secret)) :: steps) =
      (t.key, secret) :: issuedIn steps := rfl

/-- A run that is interrupted at a call was given nothing by it. -/
theorem Interrupted.issuedIn_eq {α : Type} {r : Request} {steps : List Step}
    {outcome : Option (Except Failure α)} (h : Interrupted r steps outcome) :
    issuedIn steps = [] := by
  rcases h with ⟨rfl, _⟩ | ⟨rfl, _⟩
  · rfl
  · cases r <;> rfl

/-- The end of a run that was kept from going through all of its calls. -/
def BrokenOff (outcome : Option (Except Failure Secrets)) : Prop :=
  outcome = none ∨ outcome = some (.error .cancelled)

theorem BrokenOff.handedBack_eq {outcome : Option (Except Failure Secrets)}
    (h : BrokenOff outcome) : handedBack outcome = ∅ := by
  rcases h with rfl | rfl <;> rfl

/-- The failure that planning or a refusal ends in keeps no secrets. -/
theorem Failure.AboutDuration.handedBack?_eq {failure : Failure}
    (h : failure.AboutDuration) : handedBack? (.error failure) = none := by
  obtain ⟨_, _, ⟨_, rfl⟩ | rfl⟩ := h <;> rfl

namespace Project

/-- **What issuing brings.** The issued tokens are asked-for ones, in their
order; and unless the run is broken off, it hands back the secrets it started
with and all that it was given. -/
theorem issueTokens_secrets {name : String}
    {entries : List (TokenKey × TokenRequest)} {issued : Secrets}
    {failures : List TokenFailure} {steps : List Step}
    {outcome : Option (Except Failure Secrets)}
    (keyed : ∀ entry ∈ entries, entry.2.key = entry.1)
    (path : (issueTokens name entries issued failures).run.Path steps outcome) :
    List.Sublist ((issuedIn steps).map Prod.fst) (entries.map Prod.fst) ∧
      (BrokenOff outcome ∨ ∃ result, outcome = some result ∧
        result ≠ .error .cancelled ∧
        handedBack? result = some (issued.file (issuedIn steps))) := by
  induction entries generalizing issued failures steps with
  | nil =>
      obtain ⟨rfl, rfl⟩ := issueTokens_nil_path path
      refine ⟨List.Sublist.refl _, Or.inr ?_⟩
      unfold concluded
      split
      · exact ⟨_, rfl, nofun, rfl⟩
      · exact ⟨_, rfl, nofun, rfl⟩
  | cons entry rest ih =>
      obtain ⟨key, request⟩ := entry
      have hkey : request.key = key := keyed _ List.mem_cons_self
      have hrest := fun e he => keyed e (List.mem_cons_of_mem _ he)
      rcases issueTokens_cons_path path with
        stop | ⟨secret, more, rfl, onward⟩ | ⟨refusal, more, rfl, onward⟩
      · rw [stop.issuedIn_eq]
        exact ⟨List.nil_sublist _, Or.inl stop.outcome_eq⟩
      · obtain ⟨hsub, hend⟩ := ih hrest onward
        rw [issuedIn_cons_issued, issuedIn_cons_of_none rfl, hkey]
        exact ⟨hsub.cons_cons key, hend⟩
      · obtain ⟨hsub, hend⟩ := ih hrest onward
        rw [issuedIn_cons_of_none rfl]
        exact ⟨hsub.cons key, hend⟩

/-- The plan that an update makes on its way, from the project it fetches and
the time it sees. -/
def planAlong [DurationReader] (p : Project) : List Step → Option TokenPlan
  | .asked (.get name) (some (.ok live)) :: .looked now :: _ =>
      (planTokens name p.parameters.roles live.observation now).toOption
  | _ => none

theorem planAlong_eq [DurationReader] {p : Project} {name : String} {live : Live.Project}
    {now : Instant} {plan : TokenPlan}
    (planned : planTokens name p.parameters.roles live.observation now =
      .ok plan) (rest : List Step) :
    p.planAlong (.asked (.get name) (some (.ok live)) :: .looked now :: rest) =
      some plan := by
  rw [planAlong, planned]
  rfl

/-- The plan of an update is asked for entry by entry, each under its key. -/
theorem keyed_of_planned [DurationReader] {name : String} {roles : List Role}
    {observation : Observation} {now : Instant} {plan : TokenPlan}
    (planned : planTokens name roles observation now = .ok plan) :
    ∀ entry ∈ plan.toList, entry.2.key = entry.1 := by
  rintro ⟨key, request⟩ he
  exact key_of_planned planned (Std.ExtTreeMap.mem_toList_iff_getElem?_eq_some.mp he)

/-- **What an update brings.** Only planned tokens are issued, none of them
twice; and unless the run is broken off, it hands back every secret that it
was given. -/
theorem update_secrets [DurationReader] {p : Project} {steps : List Step}
    {outcome : Option (Except Failure Secrets)}
    (path : p.update.run.Path steps outcome) :
    (issuedIn steps = [] ∨ ∃ plan, p.planAlong steps = some plan ∧
      List.Sublist ((issuedIn steps).map Prod.fst) plan.keys) ∧
    (BrokenOff outcome ∨ ∃ result, outcome = some result ∧
      result ≠ .error .cancelled ∧
      (handedBack? result).getD ∅ = Secrets.file ∅ (issuedIn steps)) := by
  cases updatePath_of_path path with
  | unnamed => exact ⟨Or.inl rfl, Or.inr ⟨_, rfl, nofun, rfl⟩⟩
  | unfetched _ stop =>
      exact ⟨Or.inl stop.issuedIn_eq, Or.inl stop.outcome_eq⟩
  | fetchRefused => exact ⟨Or.inl rfl, Or.inr ⟨_, rfl, nofun, rfl⟩⟩
  | unplanned _ failed =>
      have about := planTokens_error failed
      refine ⟨Or.inl rfl, Or.inr ⟨_, rfl, ?_, ?_⟩⟩
      · rintro ⟨⟩
        obtain ⟨_, _, ⟨_, h⟩ | h⟩ := about <;> cases h
      · rw [about.handedBack?_eq]
        rfl
  | unsent _ _ stop =>
      exact ⟨Or.inl stop.issuedIn_eq, Or.inl stop.outcome_eq⟩
  | updateRefused => exact ⟨Or.inl rfl, Or.inr ⟨_, rfl, nofun, rfl⟩⟩
  | issuing _ planned issuing =>
      obtain ⟨hsub, hend⟩ := issueTokens_secrets (keyed_of_planned planned) issuing
      refine ⟨Or.inr ⟨_, planAlong_eq planned _, ?_⟩, ?_⟩
      · rw [← Std.ExtTreeMap.map_fst_toList_eq_keys]
        exact hsub
      · rcases hend with broken | ⟨result, rfl, hne, hback⟩
        · exact Or.inl broken
        · refine Or.inr ⟨result, rfl, hne, ?_⟩
          rw [hback]
          rfl

end Project

/-! ## Which secrets survive -/

/-- A project that wants two tokens for its one role. -/
def pipeline : Project :=
  (Project.declare "shop" { roles := [
    { name := "ci", tokens := [{ id := "a" }, { id := "b" }] }] }).setExternalName
      "shop"

/-- A control plane that holds the project without any role, and hooks. -/
def pipelineStage (hooks : List Hook) : Rehearsal where
  plane := ({} : ControlPlane).insert { name := "shop" }
  clock := 1700000000
  hooks := hooks
  tail := "x"

/-- Withdraws the work once the first token is issued. -/
def withdrawAfterIssue : Hook where
  operation := .issue
  point := .after
  action := .cancel

section Surviving

variable {σ : Type} (h : Host σ) (p : Project) (s : σ)

/-- **An update keeps its secrets unless it is broken off after the first of
them.** Let no two planned keys have one text. Then every issued secret comes
back under the text of its key exactly if nothing was issued, or the run comes
to an end and this end is not that the work was withdrawn. -/
theorem secrets_survive_iff [DurationReader]
    (distinct : ∀ plan ∈ p.planAlong (h.steps p.update.run s),
      (plan.keys.map TokenKey.text).Nodup) :
    (∀ entry ∈ issuedIn (h.steps p.update.run s),
      (handedBack (h.run p.update.run s).1)[entry.1.text]? = some entry.2) ↔
    issuedIn (h.steps p.update.run s) = [] ∨
      ∃ result, (h.run p.update.run s).1 = some result ∧
        result ≠ .error .cancelled := by
  obtain ⟨hplan, hend⟩ := Project.update_secrets (h.path p.update.run s)
  generalize h.steps p.update.run s = steps at *
  generalize (h.run p.update.run s).1 = outcome at *
  constructor
  · intro hall
    rcases hend with broken | ⟨result, hr, hne, _⟩
    · -- nothing is handed back, so nothing can have been issued
      left
      rw [broken.handedBack_eq] at hall
      refine List.eq_nil_iff_forall_not_mem.mpr fun entry he => ?_
      have hlost := hall entry he
      rw [Std.ExtTreeMap.getElem?_empty] at hlost
      cases hlost
    · exact Or.inr ⟨result, hr, hne⟩
  · rintro (hnil | ⟨result, rfl, hne⟩) entry he
    · rw [hnil] at he
      cases he
    · rcases hend with (hb | hb) | ⟨_, hr, _, hback⟩
      · cases hb
      · exact absurd (Option.some.inj hb) hne
      cases hr
      rw [handedBack, Option.bind_some, hback]
      refine Secrets.getElem?_file ?_ he
      rcases hplan with hnil | ⟨plan, hp, hsub⟩
      · rw [hnil]
        exact List.nodup_nil
      · have hnd := (hsub.map TokenKey.text).nodup (distinct plan hp)
        rwa [List.map_map] at hnd

theorem secrets_survive_on_pipeline :
    issuedIn (Rehearsal.host.steps pipeline.update.run (pipelineStage [])) ≠ [] ∧
    ∀ entry ∈ issuedIn
        (Rehearsal.host.steps pipeline.update.run (pipelineStage [])),
      (handedBack (Rehearsal.host.run pipeline.update.run
        (pipelineStage [])).1)[entry.1.text]? = some entry.2 := by
  refine ⟨by decide +kernel, ?_⟩
  rw [secrets_survive_iff Rehearsal.host pipeline (pipelineStage [])
    (by decide +kernel)]
  refine Or.inr ⟨.ok (Secrets.file ∅ [(⟨"ci", "a"⟩, "jwt.shop.ci.a.x"),
    (⟨"ci", "b"⟩, "jwt.shop.ci.b.x")]), by decide +kernel, nofun⟩

/-- Withdrawn while its first token is being issued, an update ends without
that token's secret. -/
theorem withdrawn_update_loses_secret :
    (∀ plan ∈ pipeline.planAlong (Rehearsal.host.steps pipeline.update.run
        (pipelineStage [withdrawAfterIssue])),
      (plan.keys.map TokenKey.text).Nodup) ∧
    issuedIn (Rehearsal.host.steps pipeline.update.run
        (pipelineStage [withdrawAfterIssue])) =
      [(⟨"ci", "a"⟩, "jwt.shop.ci.a.x")] ∧
    handedBack (Rehearsal.host.run pipeline.update.run
      (pipelineStage [withdrawAfterIssue])).1 = ∅ := by
  refine ⟨?_, ?_, ?_⟩ <;> decide +kernel

/-- **Every issued token has an entry of its own exactly if no two issued keys
have one text.** This concerns the runs that hand secrets back: those that end
well, and those that end in refused tokens. -/
theorem one_secret_per_issue_iff [DurationReader] {result : Except Failure Secrets}
    {secrets : Secrets} (ended : (h.run p.update.run s).1 = some result)
    (back : handedBack? result = some secrets) :
    (secrets.size = (issuedIn (h.steps p.update.run s)).length ∧
      ∀ entry ∈ issuedIn (h.steps p.update.run s),
        secrets[entry.1.text]? = some entry.2) ↔
    ((issuedIn (h.steps p.update.run s)).map (·.1.text)).Nodup := by
  obtain ⟨_, hend⟩ := Project.update_secrets (h.path p.update.run s)
  generalize h.steps p.update.run s = steps at *
  have hfile : secrets = Secrets.file ∅ (issuedIn steps) := by
    rw [ended] at hend
    rcases hend with (hb | hb) | ⟨_, hr, _, hfile⟩
    · cases hb
    · cases hb
      cases back
    · cases hr
      rwa [back, Option.getD_some] at hfile
  have hsize := Secrets.size_file_eq_iff (issuedIn steps) ∅
  rw [Std.ExtTreeMap.size_empty, Nat.zero_add] at hsize
  rw [hfile]
  constructor
  · rintro ⟨heq, _⟩
    exact (hsize.mp heq).2
  · intro hnd
    refine ⟨hsize.mpr ⟨?_, hnd⟩, fun entry he => Secrets.getElem?_file hnd he⟩
    intro entry _
    exact Std.ExtTreeMap.not_mem_empty

theorem one_secret_per_issue_on_pipeline :
    ∃ secrets, (Rehearsal.host.run pipeline.update.run (pipelineStage [])).1 =
        some (.ok secrets) ∧
      secrets.size = (issuedIn (Rehearsal.host.steps pipeline.update.run
        (pipelineStage []))).length := by
  have ended : (Rehearsal.host.run pipeline.update.run (pipelineStage [])).1 =
      some (.ok (Secrets.file ∅ [(⟨"ci", "a"⟩, "jwt.shop.ci.a.x"),
        (⟨"ci", "b"⟩, "jwt.shop.ci.b.x")])) := by decide +kernel
  have distinct : ((issuedIn (Rehearsal.host.steps pipeline.update.run
      (pipelineStage []))).map (·.1.text)).Nodup := by decide +kernel
  exact ⟨_, ended, ((one_secret_per_issue_iff Rehearsal.host pipeline
    (pipelineStage []) ended rfl).mpr distinct).1⟩

/-- Two tokens whose keys are joined to one text. -/
def dotted : Project :=
  (Project.declare "shop" { roles := [
    { name := "a", tokens := [{ id := "b.c" }] },
    { name := "a.b", tokens := [{ id := "c" }] }] }).setExternalName "shop"

/-- The tokens `b.c` of role `a` and `c` of role `a.b` share one entry: both
are issued, and the secret of the first is lost. -/
theorem joined_keys_share_entry :
    DistinctTokens dotted.parameters.roles ∧
    (issuedIn (Rehearsal.host.steps dotted.update.run
      (pipelineStage []))).length = 2 ∧
    ∃ secrets, (Rehearsal.host.run dotted.update.run (pipelineStage [])).1 =
        some (.ok secrets) ∧ secrets.size = 1 := by
  refine ⟨⟨by decide, by decide⟩, by decide +kernel,
    Secrets.file ∅ [(⟨"a.b", "c"⟩, "jwt.shop.a.b.c.x")], ?_, ?_⟩
  · decide +kernel
  · decide +kernel

end Surviving

end Reconcile
