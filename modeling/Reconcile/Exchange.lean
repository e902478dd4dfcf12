import Reconcile.Live
import Reconcile.Resource

/-!
# Between declaration and control plane

What is declared may be left open; what travels is always filled. Going out, an absent text becomes
the empty one and an absent expiry becomes 0. Coming back, the empty text and the expiry 0 become
absent, and a timestamp that no instant has is read as the epoch.
-/

namespace Reconcile

namespace Destination

def toLive (d : Destination) : Live.Destination :=
  ⟨d.server.getD "", d.namespaceName.getD "", d.name.getD ""⟩

def ofLive (d : Live.Destination) : Destination :=
  let filled (s : String) : Option String := if s = "" then none else some s
  ⟨filled d.server, filled d.namespaceName, filled d.name⟩

end Destination

/-- The instant of a travelling timestamp, or the epoch if no instant has it. -/
def instantOfTimestamp (seconds : Int) : Instant :=
  (Instant.ofSeconds? seconds).getD .epoch

namespace ObservedToken

/-- The token as it travels, its instants rounded down to whole seconds. -/
def toLive (t : ObservedToken) : Live.Token :=
  ⟨t.id, t.issuedAt.seconds, (t.expiresAt.map Instant.seconds).getD 0⟩

def ofLive (t : Live.Token) : ObservedToken :=
  ⟨t.id, instantOfTimestamp t.issued,
    if t.expiry = 0 then none else some (instantOfTimestamp t.expiry)⟩

end ObservedToken

/-- The timestamps of a travelling token that no instant has, the issue before the expiry. -/
def Live.Token.unrepresentable (t : Live.Token) : List Int :=
  let lost (seconds : Int) : Bool := (Instant.ofSeconds? seconds).isNone
  [t.issued].filter lost ++ (if t.expiry = 0 then [] else [t.expiry].filter lost)

def Live.Project.observation (p : Live.Project) : Observation :=
  p.tokensByRole.map fun _ tokens => tokens.map ObservedToken.ofLive

/-- The timestamps of a live project that are read as the epoch, in the order they are met. -/
def Live.Project.unrepresentable (p : Live.Project) : List Int :=
  p.tokensByRole.toList.flatMap fun (_, tokens) => tokens.flatMap Live.Token.unrepresentable

/-- The tokens of a role that are still wanted, in the order of the declaration and as they were
observed; of several with one id the first counts. -/
def Role.keptTokens (r : Role) (observation : Observation) : List ObservedToken :=
  let observed := observation[r.name]?.getD []
  r.tokens.filterMap fun spec => observed.find? (·.id = spec.id)

def Role.toLive (r : Role) (observation : Observation) : Live.Role where
  name := r.name
  description := r.description.getD ""
  policies := r.policies
  groups := r.groups
  tokens := (r.keptTokens observation).map ObservedToken.toLive

/-- The configuration as it travels, with the wanted tokens among those observed. Tokens are never
made up here; new ones are issued by the control plane. -/
def Parameters.toLive (p : Parameters) (name : String) (observation : Observation) :
    Live.Project where
  name := name
  labels := p.labels
  spec := {
    description := p.description.getD ""
    sourceRepos := p.sourceRepos
    sourceNamespaces := p.sourceNamespaces
    destinations := p.destinations.map Destination.toLive
    clusterWhitelist := p.clusterWhitelist
    namespaceBlacklist := p.namespaceBlacklist
    roles := p.roles.map (·.toLive observation) }

end Reconcile
