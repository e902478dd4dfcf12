import Reconcile.Exchange
import Reconcile.Token.Plan

/-!
# Drift

Whether a live project still is what its declaration asks for. First what the user left open is
filled in from the live project, then tokens are planned, and only if none is pending are the two
compared field by field.
-/

namespace Reconcile

namespace Parameters

/-- A list the user left empty, filled in. -/
def filled {α : Type} (declared live : List α) : List α :=
  if declared = [] then live else declared

/-- The parameters with every open field filled in from the live project. Roles are never filled
in. -/
def fillFrom (p : Parameters) (live : Live.Project) : Parameters where
  description :=
    match p.description with
    | some text => some text
    | none => if live.spec.description = "" then none else some live.spec.description
  labels := if p.labels = ∅ then live.labels else p.labels
  sourceRepos := filled p.sourceRepos live.spec.sourceRepos
  sourceNamespaces := filled p.sourceNamespaces live.spec.sourceNamespaces
  destinations := filled p.destinations (live.spec.destinations.map Destination.ofLive)
  clusterWhitelist := filled p.clusterWhitelist live.spec.clusterWhitelist
  namespaceBlacklist := filled p.namespaceBlacklist live.spec.namespaceBlacklist
  roles := p.roles

/-- Whether the live project has something to fill an open field with. -/
def hasGaps (p : Parameters) (live : Live.Project) : Bool :=
  (p.description.isNone && live.spec.description != "") ||
  (p.labels.isEmpty && !live.labels.isEmpty) ||
  (p.sourceRepos.isEmpty && !live.spec.sourceRepos.isEmpty) ||
  (p.sourceNamespaces.isEmpty && !live.spec.sourceNamespaces.isEmpty) ||
  (p.destinations.isEmpty && !live.spec.destinations.isEmpty) ||
  (p.clusterWhitelist.isEmpty && !live.spec.clusterWhitelist.isEmpty) ||
  (p.namespaceBlacklist.isEmpty && !live.spec.namespaceBlacklist.isEmpty)

/-- Whether all but the roles is as declared; an absent description is the empty one, and
destinations are compared in declared form. -/
def fieldsMatch (p : Parameters) (live : Live.Project) : Bool :=
  p.description.getD "" = live.spec.description &&
  p.labels = live.labels &&
  p.sourceRepos = live.spec.sourceRepos &&
  p.sourceNamespaces = live.spec.sourceNamespaces &&
  p.destinations = live.spec.destinations.map Destination.ofLive &&
  p.clusterWhitelist = live.spec.clusterWhitelist &&
  p.namespaceBlacklist = live.spec.namespaceBlacklist

end Parameters

/-- Whether a role is as declared, tokens aside. -/
def Role.matches (r : Role) (live : Live.Role) : Bool :=
  r.name = live.name && r.description.getD "" = live.description &&
    r.policies = live.policies && r.groups = live.groups

/-- Whether roles are as declared, paired by position. The first difference decides. -/
def rolesMatch [DurationReader] (observation : Observation) (now : Instant) :
    List Role → List Live.Role → Except Failure Bool
  | [], [] => .ok true
  | r :: roles, live :: lives => do
    if !r.matches live then return false
    if !(← tokensAgree r.tokens (observation[r.name]?.getD []) now) then return false
    rolesMatch observation now roles lives
  | _, _ => .ok false

/-- Whether the live project is what the parameters ask for, renewals aside. -/
def Parameters.isUpToDate [DurationReader]
    (p : Parameters) (live : Live.Project) (observation : Observation)
    (now : Instant) : Except Failure Bool :=
  if !p.fieldsMatch live then .ok false
  else if p.roles.length ≠ live.spec.roles.length then .ok false
  else rolesMatch observation now p.roles live.spec.roles

structure Verdict where
  upToDate : Bool
  lateInitialized : Bool
  plan : TokenPlan
deriving DecidableEq

/-- Judges a live project by parameters already filled in; `filledIn` says whether there was
anything to fill. A pending token is drift, having filled in a field is not. -/
def Parameters.judge [DurationReader]
    (p : Parameters) (filledIn : Bool) (project : String) (live : Live.Project)
    (observation : Observation) (now : Instant) : Except Failure Verdict := do
  let plan ← planTokens project p.roles observation now
  let upToDate ← if plan.isEmpty then p.isUpToDate live observation now else pure false
  return ⟨upToDate, filledIn, plan⟩

/-- Judges a live project by what was declared, once that is filled in. -/
def Parameters.evaluate [DurationReader] (p : Parameters) (project : String) (live : Live.Project)
    (observation : Observation) (now : Instant) : Except Failure Verdict :=
  (p.fillFrom live).judge (p.hasGaps live) project live observation now

end Reconcile
