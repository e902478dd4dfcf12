import Reconcile.Drift
import Reconcile.Program

/-!
# The lifecycle of a project

Observing, creating, updating and deleting the live project of a resource. Each operation works from
what the control plane says at that time and never from an earlier observation. An operation that
fails leaves the resource as it was, so only its success gives a new resource; updating and deleting
never change it.
-/

namespace Reconcile

structure Sighting where
  found : Bool := false
  upToDate : Bool := false
  lateInitialized : Bool := false
deriving DecidableEq, Repr

inductive ResourceState where
  | unknown
  | notExists
  | drifted
  | upToDate
deriving DecidableEq, Repr

def ResourceState.text : ResourceState → String
  | .unknown => "unknown"
  | .notExists => "not-exists"
  | .drifted => "drifted"
  | .upToDate => "up-to-date"

def Sighting.state (s : Sighting) : ResourceState :=
  if !s.found then .notExists else if s.upToDate then .upToDate else .drifted

namespace Project

open Attempt

/-- Compares the live project with the declaration. Open fields are filled in and what was seen is
recorded, but only if nothing failed. Without an external name there is nothing to look for. -/
def observe [DurationReader] (p : Project) : Attempt (Sighting × Project) := do
  match p.externalName with
  | none => return ({}, p)
  | some name =>
    match ← call (.get name) with
    | .error refusal =>
      if refusal.isNotFound then return ({}, p) else throw (.get refusal)
    | .ok live =>
      let now ← now
      let verdict ← settled (p.parameters.evaluate name live live.observation now)
      let seen := { p with
        parameters := p.parameters.fillFrom live
        observation := live.observation }
      return (⟨true, verdict.upToDate, verdict.lateInitialized⟩,
        seen.setCondition (.available now))

/-- Creates the live project, without any tokens, and records its name. -/
def create (p : Project) : Attempt Project := do
  let name := p.externalName.getD p.metadata.name
  match ← call (.create (p.parameters.toLive name ∅) false) with
  | .error refusal => throw (.create refusal)
  | .ok created =>
    note (.created created.name)
    return p.setExternalName created.name

/-- Issues tokens one after the other. A refused one does not stop the others. -/
def issueTokens (name : String) : List (TokenKey × TokenRequest) → Secrets → List TokenFailure →
    Attempt Secrets
  | [], issued, failures =>
    if failures = [] then return issued else throw (.tokens failures issued)
  | (key, request) :: rest, issued, failures => do
    match ← call (.issue request) with
    | .ok secret =>
      note (.tokenIssued name key)
      issueTokens name rest (issued.insert key.text secret) failures
    | .error refusal => issueTokens name rest issued (failures ++ [⟨key, refusal⟩])

/-- The project that an update sends: the declaration, with the wanted tokens of the fetched
project, under the fetched version. -/
def updated (p : Project) (name : String) (live : Live.Project) : Live.Project :=
  { p.parameters.toLive name live.observation with version := live.version }

/-- Brings the live project in line with the declaration, and then issues the planned tokens in
the order of their keys. -/
def update [DurationReader] (p : Project) : Attempt Secrets := do
  match p.externalName with
  | none => throw .noExternalName
  | some name =>
    match ← call (.get name) with
    | .error refusal => throw (.update refusal)
    | .ok live =>
      let now ← now
      let plan ← settled (planTokens name p.parameters.roles live.observation now)
      let _ ← settled (p.parameters.isUpToDate live live.observation now)
      match ← call (.update (p.updated name live)) with
      | .error refusal => throw (.update refusal)
      | .ok _ =>
        note (.updated name)
        issueTokens name plan.toList ∅ []

/-- Deletes the live project. That there is none is no failure. -/
def delete (p : Project) : Attempt Unit := do
  match p.externalName with
  | none => return ()
  | some name =>
    match ← call (.delete name) with
    | .ok () => note (.deleted name)
    | .error refusal => if refusal.isNotFound then return () else throw (.delete refusal)

end Project

end Reconcile
