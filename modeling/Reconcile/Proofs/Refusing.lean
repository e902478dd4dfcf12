import Mathlib
import Reconcile.Proofs.Granting
import Reconcile.Proofs.Isolation

/-!
# Calls that are refused

A control plane records every call, and a call can be refused at several points
after that: its kind is set to fail, its token is, a project is there already or is
not there, its version is stale, its role is missing. By then a version may have
been used up, but no project has been touched. A call that is granted writes one
project at most, the one that it names. What is set to fail comes before anything
that the control plane holds.
-/

namespace Reconcile

namespace ControlPlane

section Performed

variable {cp cp' : ControlPlane} {m : Moment} {r : Request} {answer : r.Answer}

/-- Wherever a call is refused, the projects are what they were. -/
theorem Performed.projects_eq_of_refused (h : cp.Performed m r answer cp') {refusal : Refusal}
    (refused : answer = .error refusal) : cp'.projects = cp.projects := by
  cases h with
  | refused r other => rfl
  | found held => rfl
  | created free => cases refused
  | updated held current => cases refused
  | deleted held => cases refused
  | unplaced t other => rfl
  | issued held placed => cases refused

/-- A call leaves every project alone but the one that it names. -/
theorem Performed.project?_eq_of_ne (h : cp.Performed m r answer cp') {name : String}
    (other : name ≠ r.address) : cp'.project? name = cp.project? name := by
  refine h.change.project?_eq ?_
  intro hwritten
  rw [Option.ite_none_right_eq_some] at hwritten
  exact other (Request.address_of_target hwritten.2).symm

end Performed

/-- **A refused call changes no project.** Whatever a control plane holds, whatever is
set to fail, and whatever is called at whatever moment: the call is recorded behind
those before it, granted or refused, and what is set to fail stays so. If it is
refused, all projects are what they were. If it is granted, so are all but the one
that it names. Where calls of its kind are set to fail it is refused with that
refusal, and otherwise an issue whose token is set to fail with that one, whether or
not its project and its role are there. -/
theorem refused_call_changes_no_project (cp : ControlPlane) (m : Moment) (r : Request) :
    (cp.serve m r).2.calls = cp.calls ++ [r] ∧
    cp.SameFaults (cp.serve m r).2 ∧
    (∀ refusal, (cp.serve m r).1 = .error refusal →
      (cp.serve m r).2.projects = cp.projects) ∧
    (∀ reply, (cp.serve m r).1 = .ok reply → ∀ name, name ≠ r.address →
      (cp.serve m r).2.project? name = cp.project? name) ∧
    (∀ refusal, cp.failures r.operation = some refusal →
      (cp.serve m r).1 = .error refusal) ∧
    ∀ t refusal, cp.failures .issue = none → cp.tokenFailures t.key = some refusal →
      (cp.serve m (.issue t)).1 = .error refusal := by
  have served := cp.served m r
  refine ⟨cp.calls_serve m r, cp.sameFaults_serve m r, ?_, ?_, ?_, ?_⟩
  · intro refusal refused
    exact served.projects_eq_of_refused refused
  · intro reply _ name other
    exact served.project?_eq_of_ne other
  · intro refusal failing
    rw [serve_refused failing]
  · intro t refusal admitted failing
    have hrefusal : cp.refusal? t.key = some refusal := by
      rw [refusal?, admitted, Option.none_or, failing]
    rw [serve_issue_refused hrefusal]

/-- A control plane with one project, where one token is set to fail. -/
def wharf : ControlPlane :=
  (({} : ControlPlane).insert
    { name := "wharf", spec := { roles := [{ name := "ci" }] } }).failToken
      ⟨"ops", "page"⟩ ⟨.unavailable, "overloaded"⟩

/-- The token is asked for in a role that is missing, and its own failure is told. A
token in the role that is there is granted, and one in a project that is missing uses
up a version, but no more. -/
theorem refused_call_changes_no_project_at_wharf :
    (wharf.serve ⟨100, "x"⟩ (.issue { project := "wharf", role := "ops", id := "page" })).1 =
      .error ⟨.unavailable, "overloaded"⟩ ∧
    (wharf.serve ⟨100, "x"⟩ (.issue { project := "pier", role := "ci", id := "a" })).2.projects =
      wharf.projects ∧
    (wharf.serve ⟨100, "x"⟩ (.issue { project := "wharf", role := "ci", id := "a" })).2.project?
      "pier" = wharf.project? "pier" := by
  obtain ⟨_, _, _, _, _, token⟩ := refused_call_changes_no_project wharf ⟨100, "x"⟩ (.get "wharf")
  obtain ⟨_, _, missing, _⟩ := refused_call_changes_no_project wharf ⟨100, "x"⟩
    (.issue { project := "pier", role := "ci", id := "a" })
  obtain ⟨_, _, _, granted, _⟩ := refused_call_changes_no_project wharf ⟨100, "x"⟩
    (.issue { project := "wharf", role := "ci", id := "a" })
  refine ⟨token _ _ rfl rfl, missing (noProject "pier") ?_, granted "jwt.wharf.ci.a.x" ?_ "pier" ?_⟩
  · decide +kernel
  · decide +kernel
  · decide

end ControlPlane

end Reconcile
