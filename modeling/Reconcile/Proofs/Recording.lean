import Mathlib
import Reconcile.Proofs.Calls
import Reconcile.Proofs.Passes

/-!
# Calls on record

A control plane keeps a record of the calls that it is asked. When a program has
run alone, the record has grown by the calls of this run, in their order. What
an operation asks for is read off in this way: a creation makes one call, and an
update fetches, sends and then asks for each planned token. `ControlPlane.Asked`
counts what matters of a record: the creations, the updates and the tokens.
-/

namespace Reconcile

/-- The token that a call asks for. -/
def Request.tokenKey? : Request → Option TokenKey
  | .issue t => some t.key
  | _ => none

/-- The tokens that some calls ask for, in the order of the calls. -/
def keysAsked (calls : List Request) : List TokenKey :=
  calls.filterMap Request.tokenKey?

namespace ControlPlane

/-! ## The record -/

section Runs

variable {now : Instant} {tail : ControlPlane → String} {cp : ControlPlane}
  {α : Type}

/-- **The record grows by the calls of the run.** -/
theorem calls_run (program : Program α) (cp : ControlPlane) :
    ((undisturbed now tail).run program cp).2.calls =
      cp.calls ++ requestsIn ((undisturbed now tail).steps program cp) := by
  induction program generalizing cp with
  | done a => exact (List.append_nil cp.calls).symm
  | ask r next ih =>
      have hcalls := calls_serve cp ⟨now.seconds, tail cp⟩ r
      generalize hserve : cp.serve ⟨now.seconds, tail cp⟩ r = served at hcalls
      obtain ⟨answer, cp'⟩ := served
      change cp'.calls = cp.calls ++ [r] at hcalls
      rw [Host.run, Host.steps]
      simp only [undisturbed, hserve, Bool.false_eq_true, if_false]
      show _ = cp.calls ++ (r :: requestsIn _)
      rw [← List.singleton_append, ← List.append_assoc, ← hcalls]
      exact ih (some answer) cp'
  | look next ih => exact ih now cp
  | note e next ih => exact ih cp

/-- Every call of a run that is alone is answered. -/
theorem isAnswered_of_mem_steps (program : Program α) :
    ∀ step ∈ (undisturbed now tail).steps program cp, step.isAnswered :=
  Host.isAnswered_of_mem_steps (fun _ => rfl) (fun _ _ => rfl) program cp

/-! ## What an update asks for -/

section Update

variable {p : Project} {name : String} {live : Live.Project} {plan : TokenPlan}

/-- **The calls of an update that is sent**: it fetches, sends the project, and
asks for the planned tokens in the order of their keys. -/
theorem requestsIn_update [DurationReader] (named : p.externalName = some name)
    (held : cp.project? name = some live) (hget : cp.failures .get = none)
    (hupdate : cp.failures .update = none)
    (planned : planTokens name p.parameters.roles live.observation now = .ok plan) :
    requestsIn ((undisturbed now tail).steps p.update.run cp) =
      .get name :: .update (p.updated name live) ::
        plan.toList.map fun entry => .issue entry.2 := by
  obtain ⟨passed, cp₁, stored, onward, _, hpassed, _⟩ :=
    (undisturbed_serves now tail).reaches_issuing named held hget hupdate planned
  -- the tokens are asked for to the end of the plan, whatever the answers are
  obtain ⟨hissued, _⟩ := Project.issueTokens_trace (Project.keyed_of_planned planned)
    (isAnswered_of_mem_steps _)
    ((undisturbed now tail).path (Project.issueTokens name plan.toList ∅ []).run cp₁)
  rw [← Host.map_snd_trace, onward.trace, List.map_append, hpassed, Host.map_snd_trace,
    ← hissued]
  rfl

/-- The record after an update that is sent. -/
theorem calls_update [DurationReader] (tail : ControlPlane → String)
    (named : p.externalName = some name) (held : cp.project? name = some live)
    (hget : cp.failures .get = none) (hupdate : cp.failures .update = none)
    (planned : planTokens name p.parameters.roles live.observation now = .ok plan) :
    ((undisturbed now tail).run p.update.run cp).2.calls =
      cp.calls ++ .get name :: .update (p.updated name live) ::
        plan.toList.map fun entry => .issue entry.2 := by
  rw [calls_run, requestsIn_update named held hget hupdate planned]

end Update

end Runs

/-! ## What has been asked for -/

/-- What is on record: how many creations and updates, and the tokens that were
asked for. -/
structure Asked (cp : ControlPlane) (creations updates : Nat)
    (tokens : List TokenKey) : Prop where
  creations : cp.count .create = creations
  updates : cp.count .update = updates
  tokens : keysAsked cp.calls = tokens

namespace Asked

variable {cp cp' : ControlPlane} {creations updates : Nat} {tokens : List TokenKey}

/-- More calls on record count on top. -/
theorem append (h : cp.Asked creations updates tokens) {more : List Request}
    (hcalls : cp'.calls = cp.calls ++ more) :
    cp'.Asked (creations + more.countP (·.operation = .create))
      (updates + more.countP (·.operation = .update)) (tokens ++ keysAsked more) where
  creations := by rw [← h.creations, count, count, hcalls, List.countP_append]
  updates := by rw [← h.updates, count, count, hcalls, List.countP_append]
  tokens := by rw [← h.tokens, hcalls, keysAsked, List.filterMap_append]; rfl

/-- Fetching does not count. -/
theorem fetch (h : cp.Asked creations updates tokens) {name : String} {fetched : Nat}
    (hcalls : cp'.calls = cp.calls ++ List.replicate fetched (.get name)) :
    cp'.Asked creations updates tokens := by
  have hmore := h.append hcalls
  have hkeys : keysAsked (List.replicate fetched (.get name)) = [] := by
    rw [keysAsked, List.filterMap_eq_nil_iff]
    intro r hr
    rw [List.eq_of_mem_replicate hr]
    rfl
  rw [List.countP_replicate, if_neg (by simp [Request.operation]),
    List.countP_replicate, if_neg (by simp [Request.operation]), hkeys,
    List.append_nil] at hmore
  exact hmore

theorem countP_issues (entries : List (TokenKey × TokenRequest)) {op : Operation}
    (hop : .issue ≠ op) :
    (entries.map fun entry => Request.issue entry.2).countP (·.operation = op) = 0 := by
  rw [List.countP_eq_zero]
  intro r hr
  obtain ⟨entry, _, rfl⟩ := List.mem_map.mp hr
  simp [Request.operation, hop]

theorem keysAsked_issues {plan : TokenPlan}
    (keyed : ∀ entry ∈ plan.toList, entry.2.key = entry.1) :
    keysAsked (plan.toList.map fun entry => .issue entry.2) = plan.keys := by
  rw [keysAsked, List.filterMap_map, ← Std.ExtTreeMap.map_fst_toList_eq_keys,
    ← List.filterMap_eq_map]
  refine List.filterMap_congr ?_
  intro entry he
  exact congrArg some (keyed entry he)

/-- A pass that updates counts as one update, and asks for the planned tokens. -/
theorem update (h : cp.Asked creations updates tokens) {name : String}
    {sent : Live.Project} {plan : TokenPlan}
    (keyed : ∀ entry ∈ plan.toList, entry.2.key = entry.1)
    (hcalls : cp'.calls = cp.calls ++ .get name :: .get name :: .update sent ::
      plan.toList.map fun entry => .issue entry.2) :
    cp'.Asked creations (updates + 1) (tokens ++ plan.keys) := by
  have hmore := h.append hcalls
  have hcreate := countP_issues plan.toList (by decide : .issue ≠ Operation.create)
  have hupdate := countP_issues plan.toList (by decide : .issue ≠ Operation.update)
  simp only [List.countP_cons, hcreate, hupdate] at hmore
  rw [← keysAsked_issues keyed]
  exact hmore

end Asked

end ControlPlane

end Reconcile
