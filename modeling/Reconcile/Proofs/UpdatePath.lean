import Mathlib
import Reconcile.Lifecycle
import Reconcile.Proofs.Comparing
import Reconcile.Proofs.Run

/-!
# The ways through an update

An update fetches, plans, sends the project and then issues the planned tokens
one after the other. `Project.UpdatePath` lists the ways this can go, one for
each place where an update can end before the first token, and one that goes on
with the tokens. No token is asked for on any of the others.
-/

namespace Reconcile.Project

/-! ## Issuing one token after the other -/

/-- What issuing ends in: the secrets, in a failure if some token was
refused. -/
def concluded (failures : List TokenFailure) (issued : Secrets) :
    Except Failure Secrets :=
  if failures = [] then .ok issued else .error (.tokens failures issued)

theorem run_issueTokens_nil (name : String) (issued : Secrets)
    (failures : List TokenFailure) :
    (issueTokens name [] issued failures).run =
      .done (concluded failures issued) := by
  rw [issueTokens, concluded]
  split
  · rfl
  · rfl

section Issuing

variable {name : String} {entries : List (TokenKey × TokenRequest)}
  {issued : Secrets} {failures : List TokenFailure}
  {steps : List Step} {outcome : Option (Except Failure Secrets)}

theorem issueTokens_nil_path
    (path : (issueTokens name [] issued failures).run.Path steps outcome) :
    steps = [] ∧ outcome = some (concluded failures issued) := by
  rw [run_issueTokens_nil] at path
  exact Attempt.path_done path

/-- One token is asked for: the run ends there, or the secret is kept, or the
refusal is. -/
theorem issueTokens_cons_path {key : TokenKey} {request : TokenRequest}
    (path : (issueTokens name ((key, request) :: entries) issued failures).run.Path
      steps outcome) :
    Interrupted (.issue request) steps outcome ∨
      (∃ secret rest, steps = .asked (.issue request) (some (.ok secret)) ::
          .noted (.tokenIssued name key) :: rest ∧
        (issueTokens name entries (issued.insert key.text secret) failures).run.Path
          rest outcome) ∨
      (∃ refusal rest,
        steps = .asked (.issue request) (some (.error refusal)) :: rest ∧
        (issueTokens name entries issued (failures ++ [⟨key, refusal⟩])).run.Path
          rest outcome) := by
  rw [issueTokens] at path
  rcases Attempt.path_call_bind path with stop | ⟨answer, rest, rfl, onward⟩
  · exact Or.inl stop
  · cases answer with
    | ok secret =>
        obtain ⟨more, rfl, noted⟩ := Attempt.path_note_bind onward
        exact Or.inr (Or.inl ⟨secret, more, rfl, noted⟩)
    | error refusal => exact Or.inr (Or.inr ⟨refusal, rest, rfl, onward⟩)

end Issuing

/-! ## The update -/

/-- The ways that an update of a resource can go. -/
inductive UpdatePath [DurationReader] (p : Project) :
    List Step → Option (Except Failure Secrets) → Prop where
  /-- There is no name to update under. -/
  | unnamed (unnamed : p.externalName = none) :
      UpdatePath p [] (some (.error .noExternalName))
  /-- The live project is not fetched, since the call is not answered. -/
  | unfetched {name : String} {steps : List Step}
      {outcome : Option (Except Failure Secrets)}
      (named : p.externalName = some name)
      (stop : Interrupted (.get name) steps outcome) :
      UpdatePath p steps outcome
  | fetchRefused {name : String} (named : p.externalName = some name)
      (refusal : Refusal) :
      UpdatePath p [.asked (.get name) (some (.error refusal))]
        (some (.error (.update refusal)))
  /-- The tokens cannot be planned. -/
  | unplanned {name : String} {live : Live.Project} {now : Instant}
      {failure : Failure} (named : p.externalName = some name)
      (failed : planTokens name p.parameters.roles live.observation now =
        .error failure) :
      UpdatePath p [.asked (.get name) (some (.ok live)), .looked now]
        (some (.error failure))
  /-- The project is not sent, since the call is not answered. -/
  | unsent {name : String} {live : Live.Project} {now : Instant}
      {plan : TokenPlan} {rest : List Step}
      {outcome : Option (Except Failure Secrets)}
      (named : p.externalName = some name)
      (planned : planTokens name p.parameters.roles live.observation now =
        .ok plan)
      (stop : Interrupted (.update (p.updated name live)) rest outcome) :
      UpdatePath p (.asked (.get name) (some (.ok live)) :: .looked now :: rest)
        outcome
  | updateRefused {name : String} {live : Live.Project} {now : Instant}
      {plan : TokenPlan} (named : p.externalName = some name)
      (planned : planTokens name p.parameters.roles live.observation now =
        .ok plan) (refusal : Refusal) :
      UpdatePath p [.asked (.get name) (some (.ok live)), .looked now,
          .asked (.update (p.updated name live)) (some (.error refusal))]
        (some (.error (.update refusal)))
  /-- The project is updated and the planned tokens are issued. -/
  | issuing {name : String} {live stored : Live.Project} {now : Instant}
      {plan : TokenPlan} {rest : List Step}
      {outcome : Option (Except Failure Secrets)}
      (named : p.externalName = some name)
      (planned : planTokens name p.parameters.roles live.observation now =
        .ok plan)
      (path : (issueTokens name plan.toList ∅ []).run.Path rest outcome) :
      UpdatePath p (.asked (.get name) (some (.ok live)) :: .looked now ::
          .asked (.update (p.updated name live)) (some (.ok stored)) ::
          .noted (.updated name) :: rest)
        outcome

/-- **There are no other ways.** -/
theorem updatePath_of_path [DurationReader] {p : Project} {steps : List Step}
    {outcome : Option (Except Failure Secrets)}
    (path : p.update.run.Path steps outcome) : p.UpdatePath steps outcome := by
  rw [update] at path
  cases named : p.externalName with
  | none =>
      rw [named] at path
      obtain ⟨rfl, rfl⟩ := Attempt.path_done path
      exact .unnamed named
  | some name =>
      rw [named] at path
      rcases Attempt.path_call_bind path with stop | ⟨answer, _, rfl, fetched⟩
      · exact .unfetched named stop
      cases answer with
      | error refusal =>
          obtain ⟨rfl, rfl⟩ := Attempt.path_done fetched
          exact .fetchRefused named refusal
      | ok live =>
          obtain ⟨now, _, rfl, looked⟩ := Attempt.path_now_bind fetched
          rcases Attempt.path_settled_bind looked with
            ⟨failure, failed, rfl, rfl⟩ | ⟨plan, planned, onward⟩
          · exact .unplanned named failed
          -- after a plan the comparison cannot fail, and its answer is unused
          obtain ⟨upToDate, compared⟩ := isUpToDate_isOk_of_planned planned live
          rw [compared, Attempt.run_settled_bind_ok] at onward
          rcases Attempt.path_call_bind onward with stop | ⟨answer, _, rfl, sent⟩
          · exact .unsent named planned stop
          cases answer with
          | error refusal =>
              obtain ⟨rfl, rfl⟩ := Attempt.path_done sent
              exact .updateRefused named planned refusal
          | ok stored =>
              obtain ⟨_, rfl, noted⟩ := Attempt.path_note_bind sent
              exact .issuing named planned noted

/-! ## The calls of an update -/

/-- The calls that an update under a name can make, and how it ends with
them. -/
inductive UpdateCalls (p : Project) (name : String)
    (outcome : Option (Except Failure Secrets)) : List Step → Prop where
  /-- It has at most fetched. -/
  | unsent {calls : List Step}
      (fetching : ∀ step ∈ calls, ∃ answer, step = .asked (.get name) answer) :
      UpdateCalls p name outcome calls
  /-- It has sent the project and not heard of it. -/
  | unheard (live : Live.Project) :
      UpdateCalls p name outcome [.asked (.get name) (some (.ok live)),
        .asked (.update (p.updated name live)) none]
  | refused (live : Live.Project) (refusal : Refusal)
      (ending : outcome = some (.error (.update refusal))) :
      UpdateCalls p name outcome [.asked (.get name) (some (.ok live)),
        .asked (.update (p.updated name live)) (some (.error refusal))]
  /-- Only an update that is granted goes on, with tokens. -/
  | granted (live stored : Live.Project) {tokens : List Step}
      (issuing : ∀ step ∈ tokens, ∃ t answer, step = .asked (.issue t) answer) :
      UpdateCalls p name outcome (.asked (.get name) (some (.ok live)) ::
        .asked (.update (p.updated name live)) (some (.ok stored)) :: tokens)

theorem issueTokens_calls {name : String}
    {entries : List (TokenKey × TokenRequest)} {issued : Secrets}
    {failures : List TokenFailure} {steps : List Step}
    {outcome : Option (Except Failure Secrets)}
    (path : (issueTokens name entries issued failures).run.Path steps outcome) :
    ∀ step ∈ steps.filter Step.isCall, ∃ t answer, step = .asked (.issue t) answer := by
  induction entries generalizing issued failures steps with
  | nil =>
      obtain ⟨rfl, _⟩ := issueTokens_nil_path path
      intro step hstep
      cases hstep
  | cons entry rest ih =>
      obtain ⟨key, request⟩ := entry
      intro step hstep
      rcases issueTokens_cons_path path with
        stop | ⟨secret, more, rfl, onward⟩ | ⟨refusal, more, rfl, onward⟩
      · rcases stop.calls_eq with hnone | hone
        · rw [hnone] at hstep
          cases hstep
        · rw [hone, List.mem_singleton] at hstep
          exact ⟨request, none, hstep⟩
      · rcases List.mem_cons.mp hstep with rfl | hstep
        · exact ⟨request, _, rfl⟩
        · exact ih onward step hstep
      · rcases List.mem_cons.mp hstep with rfl | hstep
        · exact ⟨request, _, rfl⟩
        · exact ih onward step hstep

/-- **The calls along every path of an update.** -/
theorem updateCalls_of_path [DurationReader] {p : Project} {name : String} {steps : List Step}
    {outcome : Option (Except Failure Secrets)}
    (path : p.update.run.Path steps outcome) (named : p.externalName = some name) :
    p.UpdateCalls name outcome (steps.filter Step.isCall) := by
  have hname : ∀ {other}, p.externalName = some other → other = name :=
    fun h => Option.some.inj (h.symm.trans named)
  cases updatePath_of_path path with
  | unnamed unnamed =>
      rw [named] at unnamed
      cases unnamed
  | unfetched named' stop =>
      obtain rfl := hname named'
      rcases stop.calls_eq with hcalls | hcalls
      · rw [hcalls]
        exact .unsent fun step hstep => absurd hstep List.not_mem_nil
      · rw [hcalls]
        exact .unsent fun step hstep => ⟨none, List.mem_singleton.mp hstep⟩
  | fetchRefused named' refusal =>
      obtain rfl := hname named'
      exact .unsent fun step hstep => ⟨_, List.mem_singleton.mp hstep⟩
  | @unplanned _ live _ _ named' _ =>
      obtain rfl := hname named'
      show p.UpdateCalls _ _ [.asked (.get _) (some (.ok live))]
      exact .unsent fun step hstep => ⟨_, List.mem_singleton.mp hstep⟩
  | @unsent _ live _ _ rest _ named' _ stop =>
      obtain rfl := hname named'
      show p.UpdateCalls _ _
        (.asked (.get _) (some (.ok live)) :: rest.filter Step.isCall)
      rcases stop.calls_eq with hcalls | hcalls
      · rw [hcalls]
        exact .unsent fun step hstep => ⟨_, List.mem_singleton.mp hstep⟩
      · rw [hcalls]
        exact .unheard live
  | @updateRefused _ live _ _ named' _ refusal =>
      obtain rfl := hname named'
      exact .refused live refusal rfl
  | @issuing _ live stored _ _ rest _ named' _ onward =>
      obtain rfl := hname named'
      show p.UpdateCalls _ _ (.asked (.get _) (some (.ok live)) ::
        .asked (.update (p.updated _ live)) (some (.ok stored)) ::
          rest.filter Step.isCall)
      exact .granted live stored (issueTokens_calls onward)

theorem concat_isPrefix_cons_cons {α : Type} {before rest : List α} {a b x : α}
    (h : before ++ [x] <+: a :: b :: rest) :
    x = a ∨ (before = [a] ∧ x = b) ∨ x ∈ rest := by
  cases before with
  | nil =>
      rw [List.nil_append, List.cons_prefix_cons] at h
      exact Or.inl h.1
  | cons first before =>
      rw [List.cons_append, List.cons_prefix_cons] at h
      obtain ⟨rfl, h⟩ := h
      cases before with
      | nil =>
          rw [List.nil_append, List.cons_prefix_cons] at h
          exact Or.inr (Or.inl ⟨rfl, h.1⟩)
      | cons second before =>
          rw [List.cons_append, List.cons_prefix_cons] at h
          exact Or.inr (Or.inr (h.2.subset (by simp)))

/-- **What stands around the call that sends the project.** Before it there is
the fetch alone. Unless it is granted, no token is asked for, and a refusal ends
the update. -/
theorem UpdateCalls.around_sent {p : Project} {name : String}
    {outcome : Option (Except Failure Secrets)} {calls before : List Step}
    {sent : Live.Project} {reply : Option (Except Refusal Live.Project)}
    (h : p.UpdateCalls name outcome calls)
    (place : before ++ [.asked (.update sent) reply] <+: calls) :
    ∃ live, before = [.asked (.get name) (some (.ok live))] ∧
      sent = p.updated name live ∧
      ((∃ stored, reply = some (.ok stored)) ∨
        (∀ refusal, reply = some (.error refusal) →
          outcome = some (.error (.update refusal))) ∧
        ∀ t reply', Step.asked (.issue t) reply' ∉ calls) := by
  cases h with
  | unsent fetching =>
      have hmem : Step.asked (.update sent) reply ∈ calls := place.subset (by simp)
      obtain ⟨_, hget⟩ := fetching _ hmem
      cases hget
  | unheard live =>
      rcases concat_isPrefix_cons_cons place with h | ⟨rfl, h⟩ | h
      · cases h
      · cases h
        exact ⟨live, rfl, rfl, Or.inr ⟨nofun, by simp⟩⟩
      · cases h
  | refused live refusal ending =>
      rcases concat_isPrefix_cons_cons place with h | ⟨rfl, h⟩ | h
      · cases h
      · cases h
        refine ⟨live, rfl, rfl, Or.inr ⟨?_, by simp⟩⟩
        rintro _ ⟨⟩
        exact ending
      · cases h
  | granted live stored issuing =>
      rcases concat_isPrefix_cons_cons place with h | ⟨rfl, h⟩ | h
      · cases h
      · cases h
        exact ⟨live, rfl, rfl, Or.inl ⟨stored, rfl⟩⟩
      · obtain ⟨_, _, hother⟩ := issuing _ h
        cases hother

end Reconcile.Project
