import Reconcile.Token.Policy

/-!
# The token plan

The requests that bring the tokens of a project in line with its declaration. Every token spec is
decided on its own, in the order of the declaration, and the first spec that cannot be decided ends
the planning. The plan is kept by token key, so of several specs with one key the last decides.
-/

namespace Reconcile

/-- A request to issue a token, with its lifetime in whole seconds, 0 for a token that never
expires. -/
structure TokenRequest where
  project : String
  role : String
  id : String
  expiresIn : Int := 0
  description : Option String := none
deriving DecidableEq, Repr

def TokenRequest.key (r : TokenRequest) : TokenKey :=
  ⟨r.role, r.id⟩

/-- Requests to be made, in the order of their keys. -/
abbrev TokenPlan : Type := Std.ExtTreeMap TokenKey TokenRequest

structure TokenIssue where
  reason : IssueReason
  request : TokenRequest
deriving DecidableEq, Repr

def TokenSpec.request (s : TokenSpec) (terms : TokenTerms) (project role : String) :
    TokenRequest where
  project := project
  role := role
  id := s.id
  expiresIn := (terms.expiresIn.map Span.wholeSeconds).getD 0
  description := s.description

/-- The token specs of some roles, each with its role's name, in the order of the declaration. -/
def specsOf (roles : List Role) : List (String × TokenSpec) :=
  roles.flatMap fun r => r.tokens.map fun s => (r.name, s)

/-- The observed token a spec speaks of: the first one of its role that has its id. -/
def Observation.current (observation : Observation) (role id : String) : Option ObservedToken :=
  (observation[role]?.getD []).find? (·.id = id)

/-- Whether a spec needs its token issued, and by which request. -/
def decideIssue [DurationReader] (project : String) (observation : Observation) (now : Instant)
    (slot : String × TokenSpec) : Except Failure (Option TokenIssue) := do
  let (role, s) := slot
  let terms ← s.terms
  let reason ← s.issueReason terms (observation.current role s.id) now
  return reason.map fun reason => ⟨reason, s.request terms project role⟩

def issuesOf [DurationReader] (project : String) (observation : Observation) (now : Instant) :
    List (String × TokenSpec) → Except Failure (List TokenIssue)
  | [] => .ok []
  | slot :: rest => do
    let issue ← decideIssue project observation now slot
    let issues ← issuesOf project observation now rest
    return issue.toList ++ issues

/-- The decisions that are made before planning ends, whether or not it succeeds. -/
def issuesMade [DurationReader] (project : String) (observation : Observation) (now : Instant) :
    List (String × TokenSpec) → List TokenIssue
  | [] => []
  | slot :: rest =>
    match decideIssue project observation now slot with
    | .ok issue => issue.toList ++ issuesMade project observation now rest
    | .error _ => []

/-- The requests of some decisions by key, a later one in the place of an earlier. -/
def TokenPlan.ofIssues (issues : List TokenIssue) : TokenPlan :=
  issues.foldl (fun plan issue => plan.insert issue.request.key issue.request) ∅

/-- The requests that bring the observed tokens in line with some roles. -/
def planTokens [DurationReader] (project : String) (roles : List Role) (observation : Observation)
    (now : Instant) : Except Failure TokenPlan :=
  (issuesOf project observation now (specsOf roles)).map TokenPlan.ofIssues

end Reconcile
