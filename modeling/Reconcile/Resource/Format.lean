import Reconcile.Json.Format
import Reconcile.Resource

/-!
# Projects as JSON

The JSON form of a resource and of its parts. Absent texts and empty lists and maps are not
written; the name, the parameters and the observed tokens always are. Observed instants are written
in whole seconds.
-/

namespace Reconcile

open Json Json.Format

def TokenSpec.format : Format TokenSpec :=
  (record "TokenSpec"
    (.cons (required "id" text) <|
      .cons (maybe "expiresIn" text) <|
      .cons (maybe "renewBefore" text) <|
      .cons (maybe "renewAfter" text) <|
      .cons (maybe "description" text) .nil)).carry
    (fun (id, expiresIn, renewBefore, renewAfter, description, ()) =>
      { id, expiresIn, renewBefore, renewAfter, description })
    (fun s => (s.id, s.expiresIn, s.renewBefore, s.renewAfter, s.description, ()))

def Role.format : Format Role :=
  (record "ProjectRole"
    (.cons (required "name" text) <|
      .cons (maybe "description" text) <|
      .cons (someOf "policies" text) <|
      .cons (someOf "groups" text) <|
      .cons (someOf "tokens" TokenSpec.format) .nil)).carry
    (fun (name, description, policies, groups, tokens, ()) =>
      { name, description, policies, groups, tokens })
    (fun r => (r.name, r.description, r.policies, r.groups, r.tokens, ()))

def Destination.format : Format Destination :=
  (record "Destination"
    (.cons (maybe "server" text) <|
      .cons (maybe "namespace" text) <|
      .cons (maybe "name" text) .nil)).carry
    (fun (server, namespaceName, name, ()) => { server, namespaceName, name })
    (fun d => (d.server, d.namespaceName, d.name, ()))

def GroupKind.format : Format GroupKind :=
  (record "GroupKind"
    (.cons (defaulted "group" text "") <|
      .cons (required "kind" text) .nil)).carry
    (fun (group, kind, ()) => { group, kind })
    (fun k => (k.group, k.kind, ()))

def Parameters.format : Format Parameters :=
  (record "ProjectParameters"
    (.cons (maybe "description" text) <|
      .cons (entriesOf "projectLabels" text) <|
      .cons (someOf "sourceRepos" text) <|
      .cons (someOf "sourceNamespaces" text) <|
      .cons (someOf "destinations" Destination.format) <|
      .cons (someOf "clusterResourceWhitelist" GroupKind.format) <|
      .cons (someOf "namespaceResourceBlacklist" GroupKind.format) <|
      .cons (someOf "roles" Role.format) .nil)).carry
    (fun (description, labels, sourceRepos, sourceNamespaces, destinations, clusterWhitelist,
        namespaceBlacklist, roles, ()) =>
      { description, labels, sourceRepos, sourceNamespaces, destinations, clusterWhitelist,
        namespaceBlacklist, roles })
    (fun p => (p.description, p.labels, p.sourceRepos, p.sourceNamespaces, p.destinations,
      p.clusterWhitelist, p.namespaceBlacklist, p.roles, ()))

def ObservedToken.format : Format ObservedToken :=
  (record "ObservedToken"
    (.cons (required "id" text) <|
      .cons (required "issuedAt" seconds) <|
      .cons (defaulted "expiresAt" (optional seconds) none) .nil)).carry
    (fun (id, issuedAt, expiresAt, ()) => { id, issuedAt, expiresAt })
    (fun t => (t.id, t.issuedAt, t.expiresAt, ()))

def Observation.format : Format Observation :=
  (record "ProjectObservation"
    (.cons (defaulted "jwtTokensByRole" (dict (list ObservedToken.format)) ∅) .nil)).carry
    (fun (tokens, ()) => tokens)
    (fun tokens => (tokens, ()))

def ConditionKind.names : List (String × ConditionKind) :=
  [("Ready", .ready)]

def ConditionKind.name : ConditionKind → String
  | .ready => "Ready"

def ConditionReason.names : List (String × ConditionReason) :=
  [("Available", .available), ("Unavailable", .unavailable)]

def ConditionReason.name : ConditionReason → String
  | .available => "Available"
  | .unavailable => "Unavailable"

def Condition.format : Format Condition :=
  (record "Condition"
    (.cons (required "type" (variant ConditionKind.names ConditionKind.name)) <|
      .cons (required "status" bool) <|
      .cons (required "reason" (variant ConditionReason.names ConditionReason.name)) <|
      .cons (required "lastTransitionTime" stamp) .nil)).carry
    (fun (kind, status, reason, since, ()) => { kind, status, reason, since })
    (fun c => (c.kind, c.status, c.reason, c.since, ()))

def Metadata.format : Format Metadata :=
  (record "ObjectMeta"
    (.cons (required "name" text) <|
      .cons (entriesOf "labels" text) <|
      .cons (entriesOf "annotations" text) .nil)).carry
    (fun (name, labels, annotations, ()) => { name, labels, annotations })
    (fun m => (m.name, m.labels, m.annotations, ()))

/-- The JSON form of a declaration, which holds the parameters. -/
def Project.specFormat : Format Parameters :=
  (record "ProjectSpec"
    (.cons (defaulted "forProvider" Parameters.format {}) .nil)).carry
    (fun (parameters, ()) => parameters)
    (fun parameters => (parameters, ()))

/-- The JSON form of what passes have seen. -/
def Project.statusFormat : Format (List Condition × Observation) :=
  (record "ProjectStatus"
    (.cons (someOf "conditions" Condition.format) <|
      .cons (defaulted "atProvider" Observation.format ∅) .nil)).carry
    (fun (conditions, observation, ()) => (conditions, observation))
    (fun (conditions, observation) => (conditions, observation, ()))

def Project.format : Format Project :=
  (record "Project"
    (.cons (defaulted "metadata" Metadata.format {}) <|
      .cons (defaulted "spec" Project.specFormat {}) <|
      .cons (defaulted "status" Project.statusFormat ([], ∅)) .nil)).carry
    (fun (metadata, parameters, (conditions, observation), ()) =>
      { metadata, parameters, conditions, observation })
    (fun p => (p.metadata, p.parameters, (p.conditions, p.observation), ()))

def Project.ofJson (text : String) : Except Fault Project :=
  Project.format.decode text

def Project.toJson (p : Project) : Json :=
  Project.format.write p

/-- Whether a resource is read back unchanged from what is written for it. -/
def Project.roundTrips (p : Project) : Bool :=
  match Project.ofJson p.toJson.compact with
  | .ok q => q = p
  | .error _ => false

end Reconcile
