import Mathlib
import Reconcile.Proofs.Secrets

/-!
# The calls of an update

When all of its calls are answered, an update is determined by the answers.
`Project.UpdateTrace` lists what it can do then: it fetches, plans, sends the
project and asks for the planned tokens, and it ends at the first of these that
fails. The tokens are the one exception. They are asked for one after the other,
whatever becomes of those before, and only in the end the refused ones are told.
-/

namespace Reconcile

/-! ## What is asked for -/

namespace Step

/-- The call that a step makes. -/
def request? : Step → Option Request
  | .asked r _ => some r
  | _ => none

/-- Nothing keeps the run from going on: the step is no call, or one that is
made and answered. -/
def isAnswered : Step → Bool
  | .withheld _ => false
  | .asked _ none => false
  | _ => true

/-- The token that a step failed to bring. -/
def refused? : Step → Option TokenFailure
  | .asked (.issue t) (some (.error refusal)) => some ⟨t.key, refusal⟩
  | _ => none

end Step

/-- The calls that a run makes, in order. -/
def requestsIn (steps : List Step) : List Request :=
  steps.filterMap Step.request?

/-- The tokens that a run asked for in vain, in the order of asking, each with
the reason that it heard. -/
def refusedIn (steps : List Step) : List TokenFailure :=
  steps.filterMap Step.refused?

section Steps

variable {steps : List Step}

theorem refusedIn_cons_of_none {step : Step} (h : step.refused? = none) :
    refusedIn (step :: steps) = refusedIn steps := by
  rw [refusedIn, List.filterMap_cons_none h]
  rfl

theorem refusedIn_cons_refused (t : TokenRequest) (refusal : Refusal) :
    refusedIn (.asked (.issue t) (some (.error refusal)) :: steps) =
      ⟨t.key, refusal⟩ :: refusedIn steps := rfl

/-- A run that is interrupted has a step that is not answered. -/
theorem Interrupted.not_answered {α : Type} {r : Request}
    {outcome : Option (Except Failure α)} (h : Interrupted r steps outcome) :
    ¬ ∀ step ∈ steps, step.isAnswered := by
  intro answered
  rcases h with ⟨rfl, _⟩ | ⟨rfl, _⟩
  · simp [Step.isAnswered] at answered
  · simp [Step.isAnswered] at answered

end Steps

/-- A host that never withdraws the work and answers every call lets every run
go on. -/
theorem Host.isAnswered_of_mem_steps {σ α : Type} {h : Host σ}
    (wanted : ∀ s, h.isCancelled s = false)
    (answering : ∀ r s, (h.serve r s).1.isSome) (program : Program α) (s : σ) :
    ∀ step ∈ h.steps program s, step.isAnswered := by
  induction program generalizing s with
  | done a =>
      intro step hstep
      cases hstep
  | ask r next ih =>
      rw [Host.steps, wanted s, if_neg Bool.false_ne_true]
      have hsome := answering r s
      generalize h.serve r s = served at hsome ⊢
      obtain ⟨answer, s'⟩ := served
      cases answer with
      | none => cases hsome
      | some answer => exact List.forall_mem_cons.mpr ⟨rfl, ih (some answer) s'⟩
  | look next ih => exact List.forall_mem_cons.mpr ⟨rfl, ih _ s⟩
  | note e next ih => exact List.forall_mem_cons.mpr ⟨rfl, ih _⟩

/-! ## The order of keys -/

/-- The key comes before the other: by role, and within a role by id. -/
def TokenKey.Before (a b : TokenKey) : Prop :=
  a.role < b.role ∨ a.role = b.role ∧ a.id < b.id

theorem TokenKey.compare_eq_lt_iff {a b : TokenKey} :
    compare a b = .lt ↔ a.Before b := by
  show (compareLex (compareOn TokenKey.role) (compareOn TokenKey.id)) a b = .lt ↔ _
  rw [compareLex, Ordering.then_eq_lt]
  show compare a.role b.role = .lt ∨
    compare a.role b.role = .eq ∧ compare a.id b.id = .lt ↔ _
  rw [compare_lt_iff_lt, compare_eq_iff_eq, compare_lt_iff_lt]
  rfl

/-- **A plan is worked off in the order of its keys.** -/
theorem TokenPlan.ascending (plan : TokenPlan) :
    (plan.toList.map Prod.fst).Pairwise TokenKey.Before := by
  have hordered := Std.ExtTreeMap.ordered_keys (t := plan)
  rw [← Std.ExtTreeMap.map_fst_toList_eq_keys] at hordered
  exact hordered.imp TokenKey.compare_eq_lt_iff.mp

namespace Project

/-! ## Asking for tokens -/

/-- **Every entry is asked for once, whatever becomes of the others**, and all
that was brought and all that was refused is told in the end. -/
theorem issueTokens_trace {name : String}
    {entries : List (TokenKey × TokenRequest)} {issued : Secrets}
    {failures : List TokenFailure} {steps : List Step}
    {outcome : Option (Except Failure Secrets)}
    (keyed : ∀ entry ∈ entries, entry.2.key = entry.1)
    (answered : ∀ step ∈ steps, step.isAnswered)
    (path : (issueTokens name entries issued failures).run.Path steps outcome) :
    requestsIn steps = entries.map (fun entry => .issue entry.2) ∧
      outcome = some (concluded (failures ++ refusedIn steps)
        (issued.file (issuedIn steps))) := by
  induction entries generalizing issued failures steps with
  | nil =>
      obtain ⟨rfl, rfl⟩ := issueTokens_nil_path path
      simp [requestsIn, refusedIn, issuedIn, Secrets.file]
  | cons entry rest ih =>
      obtain ⟨key, request⟩ := entry
      have hkey : request.key = key := keyed _ List.mem_cons_self
      have hrest := fun e he => keyed e (List.mem_cons_of_mem _ he)
      rcases issueTokens_cons_path path with
        stop | ⟨secret, more, rfl, onward⟩ | ⟨refusal, more, rfl, onward⟩
      · exact absurd answered stop.not_answered
      · have hmore : ∀ step ∈ more, step.isAnswered :=
          fun step hstep => answered step (by simp [hstep])
        obtain ⟨hrequests, hend⟩ := ih hrest hmore onward
        constructor
        · show Request.issue request :: requestsIn more = _
          rw [hrequests]
          rfl
        · rw [issuedIn_cons_issued, issuedIn_cons_of_none rfl, hkey,
            refusedIn_cons_of_none rfl, refusedIn_cons_of_none rfl]
          exact hend
      · have hmore : ∀ step ∈ more, step.isAnswered :=
          fun step hstep => answered step (by simp [hstep])
        obtain ⟨hrequests, hend⟩ := ih hrest hmore onward
        constructor
        · show Request.issue request :: requestsIn more = _
          rw [hrequests]
          rfl
        · rw [issuedIn_cons_of_none rfl, refusedIn_cons_refused, hkey]
          rw [List.append_assoc] at hend
          exact hend

/-! ## The update -/

/-- What an update does when all of its calls are answered, step by step, and
the result that it comes to. -/
inductive UpdateTrace [DurationReader]
    (p : Project) : List Step → Except Failure Secrets → Prop where
  /-- There is no name to update under, and no call is made. -/
  | unnamed (unnamed : p.externalName = none) :
      UpdateTrace p [] (.error .noExternalName)
  /-- The fetch is refused, and no other call is made. -/
  | fetchRefused {name : String} (named : p.externalName = some name)
      (refusal : Refusal) :
      UpdateTrace p [.asked (.get name) (some (.error refusal))]
        (.error (.update refusal))
  /-- The fetched tokens cannot be planned for, and no other call is made. -/
  | unplanned {name : String} {live : Live.Project} {now : Instant}
      {failure : Failure} (named : p.externalName = some name)
      (failed : planTokens name p.parameters.roles live.observation now =
        .error failure) :
      UpdateTrace p [.asked (.get name) (some (.ok live)), .looked now]
        (.error failure)
  /-- The project is sent under the fetched version and refused, and no token is
  asked for. -/
  | sendRefused {name : String} {live sent : Live.Project} {now : Instant}
      {plan : TokenPlan} (named : p.externalName = some name)
      (planned : planTokens name p.parameters.roles live.observation now =
        .ok plan)
      (addressed : sent.name = name) (versioned : sent.version = live.version)
      (refusal : Refusal) :
      UpdateTrace p [.asked (.get name) (some (.ok live)), .looked now,
        .asked (.update sent) (some (.error refusal))] (.error (.update refusal))
  /-- The project is sent under the fetched version, and then every planned
  token is asked for once, in the order of the keys. The result is a failure
  exactly if some of them were refused, and tells which and why. -/
  | issuing {name : String} {live sent stored : Live.Project} {now : Instant}
      {plan : TokenPlan} {rest : List Step}
      (named : p.externalName = some name)
      (planned : planTokens name p.parameters.roles live.observation now =
        .ok plan)
      (addressed : sent.name = name) (versioned : sent.version = live.version)
      (asked : requestsIn rest = plan.toList.map fun entry => .issue entry.2)
      (keyed : ∀ entry ∈ plan.toList, entry.2.key = entry.1)
      (ascending : (plan.toList.map Prod.fst).Pairwise TokenKey.Before) :
      UpdateTrace p (.asked (.get name) (some (.ok live)) :: .looked now ::
          .asked (.update sent) (some (.ok stored)) :: rest)
        (if refusedIn rest = [] then .ok (Secrets.file ∅ (issuedIn rest))
          else .error (.tokens (refusedIn rest) (Secrets.file ∅ (issuedIn rest))))

/-- Every path on which all calls are answered is such a trace. -/
theorem updateTrace_of_path [DurationReader] {p : Project} {steps : List Step}
    {outcome : Option (Except Failure Secrets)}
    (path : p.update.run.Path steps outcome)
    (answered : ∀ step ∈ steps, step.isAnswered) :
    ∃ result, outcome = some result ∧ p.UpdateTrace steps result := by
  cases updatePath_of_path path with
  | unnamed unnamed => exact ⟨_, rfl, .unnamed unnamed⟩
  | unfetched _ stop => exact absurd answered stop.not_answered
  | fetchRefused named refusal => exact ⟨_, rfl, .fetchRefused named refusal⟩
  | unplanned named failed => exact ⟨_, rfl, .unplanned named failed⟩
  | unsent _ _ stop =>
      have hrest := fun step hstep => answered step
        (List.mem_cons_of_mem _ (List.mem_cons_of_mem _ hstep))
      exact absurd hrest stop.not_answered
  | @updateRefused name live now plan named planned refusal =>
      have addressed : (p.updated name live).name = name := rfl
      have versioned : (p.updated name live).version = live.version := rfl
      exact ⟨_, rfl, .sendRefused named planned addressed versioned refusal⟩
  | @issuing name live stored now plan rest _ named planned issuing =>
      have hrest : ∀ step ∈ rest, step.isAnswered :=
        fun step hstep => answered step (by simp [hstep])
      have hkeyed := keyed_of_planned planned
      obtain ⟨hrequests, hend⟩ := issueTokens_trace hkeyed hrest issuing
      -- the note about the update is a step, but it asks for nothing
      have asked : requestsIn (.noted (.updated name) :: rest) =
          plan.toList.map fun entry => .issue entry.2 := hrequests
      have addressed : (p.updated name live).name = name := rfl
      have versioned : (p.updated name live).version = live.version := rfl
      exact ⟨_, hend, .issuing named planned addressed versioned asked hkeyed
        plan.ascending⟩

end Project

/-- **What an update does for every list of answers.** Let all calls of an update
be answered and the work not be withdrawn. Without a name it fails and makes no
call. Otherwise it fetches first, and a refused fetch or a failed plan ends it
with that failure and without another call. Otherwise it sends the project under
the fetched version, and a refusal ends it before the first token. Otherwise it
asks for every planned token once and in the order of the keys, and in the end
fails exactly if some were refused, telling each of them with its reason. -/
theorem update_follows_trace [DurationReader] {σ : Type} (h : Host σ) (p : Project) (s : σ)
    (answered : ∀ step ∈ h.steps p.update.run s, step.isAnswered) :
    ∃ result, (h.run p.update.run s).1 = some result ∧
      p.UpdateTrace (h.steps p.update.run s) result :=
  Project.updateTrace_of_path (h.path p.update.run s) answered

/-- The reason for which the stage below refuses a token. -/
def overloaded : Refusal := ⟨.unavailable, "overloaded"⟩

/-- The stage of the pipeline, with the first of the two tokens refused. -/
def refusingStage : Rehearsal :=
  { pipelineStage [] with
    plane := (pipelineStage []).plane.failToken ⟨"ci", "a"⟩ overloaded }

theorem update_follows_trace_on_pipeline :
    (∀ step ∈ Rehearsal.host.steps pipeline.update.run refusingStage,
      step.isAnswered) ∧
    refusedIn (Rehearsal.host.steps pipeline.update.run refusingStage) =
      [⟨⟨"ci", "a"⟩, overloaded⟩] ∧
    ∃ result, (Rehearsal.host.run pipeline.update.run refusingStage).1 =
        some result ∧
      pipeline.UpdateTrace
        (Rehearsal.host.steps pipeline.update.run refusingStage) result := by
  have answered : ∀ step ∈ Rehearsal.host.steps pipeline.update.run refusingStage,
      step.isAnswered := by
    decide +kernel
  refine ⟨answered, ?_, ?_⟩
  · decide +kernel
  · exact update_follows_trace Rehearsal.host pipeline refusingStage answered

end Reconcile
