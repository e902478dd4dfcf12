import Mathlib
import Reconcile.Proofs.Observing

/-!
# Sessions

A session is any row of lifecycle operations on one resource, each of which
works on what the one before has left behind. An operation that fails leaves the
resource as it was, and the session goes on.

Whatever happens, a resource addresses one name for its whole life: the one that
is recorded, or else the one that it would create a project under. No operation
records another.
-/

namespace Reconcile

/-- The lifecycle operations. -/
inductive Task where
  | observe
  | create
  | update
  | delete
deriving DecidableEq, Repr

/-- What an operation ended in. -/
inductive Report where
  | observed (result : Except Failure Sighting)
  | created (result : Except Failure Unit)
  | updated (result : Except Failure Secrets)
  | deleted (result : Except Failure Unit)
deriving DecidableEq

namespace Project

/-- Performs an operation, and tells what it ended in and what it has made of
the resource. -/
def perform [DurationReader] (p : Project) : Task → Program (Report × Project)
  | .observe => do
    let (result, left) := p.leftBy (← p.observe.run)
    return (.observed result, left)
  | .create => do
    let (result, left) := p.leftBy ((← p.create.run).map fun created => ((), created))
    return (.created result, left)
  | .update => return (.updated (← p.update.run), p)
  | .delete => return (.deleted (← p.delete.run), p)

/-- Performs operations in turn. -/
def session [DurationReader] : Project → List Task → Program (List (Report × Project))
  | _, [] => return []
  | p, task :: rest => do
    let (report, left) ← p.perform task
    return (report, left) :: (← left.session rest)

/-- The name of the live project that the resource is for, recorded or not. -/
def address (p : Project) : String :=
  p.externalName.getD p.metadata.name

variable {p : Project} {name : String}

theorem address_of_named (named : p.externalName = some name) : p.address = name := by
  simp [address, named]

theorem externalName_ne_empty (named : p.externalName = some name) : name ≠ "" := by
  unfold externalName at named
  simpa using (Option.filter_eq_some_iff.mp named).2

theorem address_seeing (p : Project) (live : Live.Project) (now : Instant) :
    (p.seeing live now).address = p.address := rfl

/-- A resource that records its own address still has it. -/
theorem address_setExternalName (p : Project) :
    (p.setExternalName p.address).address = p.address := by
  have hrecorded := externalName_setExternalName p p.address
  by_cases hempty : p.address = ""
  · -- the empty name counts as none, and then it is the one of the resource
    have hnone : p.externalName = none := by
      cases named : p.externalName with
      | none => rfl
      | some name =>
          rw [address_of_named named] at hempty
          exact absurd hempty (externalName_ne_empty named)
    have haddress : p.address = p.metadata.name := by
      simp [address, hnone]
    have hunnamed : (p.setExternalName p.address).externalName = none := by
      rw [hrecorded, hempty]
      rfl
    rw [address, hunnamed]
    exact haddress.symm
  · apply address_of_named
    rw [hrecorded]
    simp [hempty]

end Project

end Reconcile
