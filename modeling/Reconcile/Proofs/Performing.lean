import Mathlib
import Reconcile.ControlPlane

/-!
# What can come of a call

A control plane records a call, and then refuses or performs it.
`ControlPlane.Performed` lists all that can come of it: the answer, the control
plane that is left, and what must have been stored for this. Only the wording of
a refusal is left open. `ControlPlane.served` says that there is nothing else, so
what holds of every call is shown case by case along this list, and no call is
taken apart twice.
-/

namespace Reconcile

namespace ControlPlane

/-! ## What is set to fail, and what is on record -/

/-- What is set to fail is the same in both. -/
structure SameFaults (cp cp' : ControlPlane) : Prop where
  failures : cp'.failures = cp.failures
  tokenFailures : cp'.tokenFailures = cp.tokenFailures

namespace SameFaults

variable {cp cp' cp'' : ControlPlane}

theorem refl (cp : ControlPlane) : cp.SameFaults cp := ⟨rfl, rfl⟩

theorem trans (h : cp.SameFaults cp') (h' : cp'.SameFaults cp'') :
    cp.SameFaults cp'' :=
  ⟨h'.failures.trans h.failures, h'.tokenFailures.trans h.tokenFailures⟩

end SameFaults

/-- The control plane with a call recorded, and otherwise as it was. -/
def recorded (cp : ControlPlane) (r : Request) : ControlPlane :=
  { cp with calls := cp.calls ++ [r] }

theorem project?_recorded (cp : ControlPlane) (r : Request) :
    (cp.recorded r).project? = cp.project? := rfl

theorem sameFaults_recorded (cp : ControlPlane) (r : Request) :
    cp.SameFaults (cp.recorded r) := ⟨rfl, rfl⟩

/-- A stored project is found under its name, with its tokens indexed. -/
theorem project?_store (cp : ControlPlane) (p : Live.Project) :
    (cp.store p).2.project? p.name =
      some { p.reindex with version := toString (cp.version + 1) } :=
  Std.ExtTreeMap.getElem?_insert_self

/-! ## Refused, or let through -/

/-- Where calls of a kind fail, a call of this kind is only recorded. -/
theorem serve_refused {cp : ControlPlane} {r : Request} {refusal : Refusal}
    (h : cp.failures r.operation = some refusal) (m : Moment) :
    cp.serve m r = (.error refusal, cp.recorded r) := by
  rw [serve, recorded]
  simp only [h]

/-- Where calls of a kind are let through, a call of this kind is recorded and
performed. -/
theorem serve_admitted {cp : ControlPlane} {r : Request}
    (h : cp.failures r.operation = none) (m : Moment) :
    cp.serve m r = (cp.recorded r).perform m r := by
  rw [serve, recorded]
  simp only [h]

/-! ## The list of cases -/

/-- All that can come of performing a call: its answer, and what is left. -/
inductive Performed (cp : ControlPlane) (m : Moment) :
    (r : Request) → r.Answer → ControlPlane → Prop where
  | refused (r : Request) (refusal : Refusal) : Performed cp m r (.error refusal) cp
  | found {name : String} {p : Live.Project} (held : cp.project? name = some p) :
      Performed cp m (.get name) (.ok p) cp
  | created {p : Live.Project} {upsert : Bool}
      (free : ((cp.project? p.name).isSome && !upsert) = false) :
      Performed cp m (.create p upsert) (cp.store p).1 (cp.store p).2
  | updated {p live : Live.Project} (held : cp.project? p.name = some live)
      (current : p.version = live.version) :
      Performed cp m (.update p) (cp.store p).1 (cp.store p).2
  | deleted {name : String} {p : Live.Project} (held : cp.project? name = some p) :
      Performed cp m (.delete name) (.ok ()) { cp with projects := cp.projects.erase name }
  /-- A version is used up even if the project or the role is missing. -/
  | unplaced (t : TokenRequest) (refusal : Refusal) :
      Performed cp m (.issue t) (.error refusal) { cp with version := cp.version + 1 }
  | issued {t : TokenRequest} {p : Live.Project} {roles : List Live.Role}
      (held : cp.project? t.project = some p)
      (placed : (tokenFor m.seconds t).putInRole? t.role p.spec.roles = some roles) :
      Performed cp m (.issue t) (.ok (secretFor m.tail t))
        { cp with
          version := cp.version + 1
          projects := cp.projects.insert t.project
            { p with
              version := toString (cp.version + 1), spec.roles := roles }.reindex }

section Cases

variable (cp : ControlPlane) (m : Moment)

theorem performed (r : Request) : cp.Performed m r (cp.perform m r).1 (cp.perform m r).2 := by
  cases r with
  | get name =>
      unfold perform
      dsimp only
      split
      · rename_i p held
        exact .found held
      · exact .refused _ _
  | create p upsert =>
      show cp.Performed m (.create p upsert) (cp.create p upsert).1 (cp.create p upsert).2
      unfold create
      split
      · exact .refused _ _
      · rename_i hfree
        exact .created (by simpa using hfree)
  | update p =>
      show cp.Performed m (.update p) (cp.update p).1 (cp.update p).2
      unfold update
      split
      · exact .refused _ _
      · rename_i live held
        split
        · exact .refused _ _
        · rename_i hcurrent
          exact .updated held (not_not.mp hcurrent)
  | delete name =>
      show cp.Performed m (.delete name) (cp.delete name).1 (cp.delete name).2
      unfold delete
      split
      · exact .refused _ _
      · rename_i p held
        exact .deleted held
  | issue t =>
      show cp.Performed m (.issue t) (cp.issue m t).1 (cp.issue m t).2
      unfold issue
      dsimp only
      split
      · exact .refused _ _
      · split
        · exact .unplaced t _
        · rename_i p held
          split
          · exact .unplaced t _
          · rename_i roles placed
            exact .issued held placed

/-- **What can come of a call**, once it is on record. -/
theorem served (r : Request) :
    (cp.recorded r).Performed m r (cp.serve m r).1 (cp.serve m r).2 := by
  cases h : cp.failures r.operation with
  | some refusal =>
      rw [serve_refused h]
      exact .refused r refusal
  | none =>
      rw [serve_admitted h]
      exact (cp.recorded r).performed m r

end Cases

/-! ## What no call touches -/

section Untouched

variable {cp cp' : ControlPlane} {m : Moment} {r : Request} {answer : r.Answer}

theorem Performed.sameFaults (h : cp.Performed m r answer cp') : cp.SameFaults cp' := by
  cases h <;> exact ⟨rfl, rfl⟩

theorem Performed.calls_eq (h : cp.Performed m r answer cp') : cp'.calls = cp.calls := by
  cases h <;> rfl

theorem sameFaults_serve (cp : ControlPlane) (m : Moment) (r : Request) :
    cp.SameFaults (cp.serve m r).2 :=
  (cp.sameFaults_recorded r).trans (cp.served m r).sameFaults

/-- **A call is recorded whether it is granted or refused.** -/
theorem calls_serve (cp : ControlPlane) (m : Moment) (r : Request) :
    (cp.serve m r).2.calls = cp.calls ++ [r] :=
  (cp.served m r).calls_eq

end Untouched

end ControlPlane

end Reconcile
