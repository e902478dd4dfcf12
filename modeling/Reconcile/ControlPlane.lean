import Reconcile.Request

/-!
# A control plane in memory

Projects are kept by name, every write gives its project a version that was never used before, and
the index of issued tokens is rebuilt from the roles. Calls are recorded whether they succeed or
not. Calls of one kind, and the issue of single tokens, can be made to fail.
-/

namespace Reconcile

/-- The tokens of each role that has any. Of several roles with one name the last counts. -/
def Live.tokenIndex (roles : List Live.Role) : Dict (List Live.Token) :=
  roles.foldl (fun index r => if r.tokens = [] then index else index.insert r.name r.tokens) ∅

def Live.Project.reindex (p : Live.Project) : Live.Project :=
  { p with tokensByRole := Live.tokenIndex p.spec.roles }

/-- A token put in the place of the first one with its id, or at the end. -/
def Live.Token.putIn (t : Live.Token) : List Live.Token → List Live.Token
  | [] => [t]
  | u :: rest => if u.id = t.id then t :: rest else u :: putIn t rest

/-- A token put into the first role of a name, if there is one. -/
def Live.Token.putInRole? (t : Live.Token) (role : String) :
    List Live.Role → Option (List Live.Role)
  | [] => none
  | r :: rest =>
    if r.name = role then some ({ r with tokens := t.putIn r.tokens } :: rest)
    else (putInRole? t role rest).map (r :: ·)

structure ControlPlane where
  projects : Dict Live.Project := ∅
  failures : Operation → Option Refusal := fun _ => none
  tokenFailures : TokenKey → Option Refusal := fun _ => none
  calls : List Request := []
  version : Nat := 0

/-- What the control plane's surroundings add to a call: the time in seconds, and the unguessable
tail of a secret. -/
structure Moment where
  seconds : Int
  tail : String
deriving DecidableEq, Repr

namespace ControlPlane

/-! ## From the outside -/

/-- Stores a project as if it had been created by somebody else. -/
def insert (cp : ControlPlane) (p : Live.Project) : ControlPlane :=
  let version := cp.version + 1
  { cp with
    version := version
    projects := cp.projects.insert p.name { p with version := toString version } }

def project? (cp : ControlPlane) (name : String) : Option Live.Project :=
  cp.projects[name]?

/-- Makes every following call of a kind fail. -/
def fail (cp : ControlPlane) (op : Operation) (refusal : Refusal) : ControlPlane :=
  { cp with failures := fun o => if o = op then some refusal else cp.failures o }

def failToken (cp : ControlPlane) (key : TokenKey) (refusal : Refusal) : ControlPlane :=
  { cp with tokenFailures := fun k => if k = key then some refusal else cp.tokenFailures k }

def heal (cp : ControlPlane) : ControlPlane :=
  { cp with failures := fun _ => none, tokenFailures := fun _ => none }

def clearCalls (cp : ControlPlane) : ControlPlane :=
  { cp with calls := [] }

def count (cp : ControlPlane) (op : Operation) : Nat :=
  cp.calls.countP (·.operation = op)

/-! ## Serving calls -/

def noProject (name : String) : Refusal :=
  ⟨.notFound, "project " ++ name⟩

/-- Stores a project under a new version, its tokens indexed, and gives it as stored. -/
def store (cp : ControlPlane) (p : Live.Project) : Except Refusal Live.Project × ControlPlane :=
  let version := cp.version + 1
  let stored := { p with version := toString version }.reindex
  (.ok stored, { cp with version := version, projects := cp.projects.insert p.name stored })

/-- A project may be created once, unless it may replace an older one. -/
def create (cp : ControlPlane) (p : Live.Project) (upsert : Bool) :
    Except Refusal Live.Project × ControlPlane :=
  if (cp.project? p.name).isSome && !upsert then
    (.error ⟨.conflict, "project " ++ p.name ++ " already exists"⟩, cp)
  else cp.store p

/-- An update must carry the version that is stored. -/
def update (cp : ControlPlane) (p : Live.Project) : Except Refusal Live.Project × ControlPlane :=
  match cp.project? p.name with
  | none => (.error (noProject p.name), cp)
  | some current =>
    if p.version ≠ current.version then
      (.error ⟨.conflict, "project " ++ p.name ++ " was modified: version " ++ p.version ++
        " != " ++ current.version⟩, cp)
    else cp.store p

def delete (cp : ControlPlane) (name : String) : Except Refusal Unit × ControlPlane :=
  match cp.project? name with
  | none => (.error (noProject name), cp)
  | some _ => (.ok (), { cp with projects := cp.projects.erase name })

/-- The token that a request asks for, issued at a time. Its expiry is a sum of two numbers of 64
bits with a sign, and is taken without a limit. Where it does not fit these bits itself, a control
plane that checks its sums stops, as `ControlPlane.counting` does, and one that does not wraps it
around. No pass asks for a token that brings this about. -/
def tokenFor (seconds : Int) (t : TokenRequest) : Live.Token where
  id := t.id
  issued := seconds
  expiry := if 0 < t.expiresIn then seconds + t.expiresIn else 0

def secretFor (tail : String) (t : TokenRequest) : String :=
  "jwt." ++ t.project ++ "." ++ t.role ++ "." ++ t.id ++ "." ++ tail

/-- Issues a token for a role, in the place of an older one with its id. A version is used up even
if the project or the role is missing. -/
def issue (cp : ControlPlane) (m : Moment) (t : TokenRequest) :
    Except Refusal String × ControlPlane :=
  match cp.tokenFailures t.key with
  | some refusal => (.error refusal, cp)
  | none =>
    let version := cp.version + 1
    let cp := { cp with version := version }
    match cp.project? t.project with
    | none => (.error (noProject t.project), cp)
    | some p =>
      match (tokenFor m.seconds t).putInRole? t.role p.spec.roles with
      | none => (.error ⟨.notFound, "role " ++ t.role ++ " in project " ++ t.project⟩, cp)
      | some roles =>
        let stored := { p with version := toString version, spec.roles := roles }.reindex
        (.ok (secretFor m.tail t), { cp with projects := cp.projects.insert t.project stored })

def perform (cp : ControlPlane) (m : Moment) : (r : Request) → r.Answer × ControlPlane
  | .get name =>
    match cp.project? name with
    | some p => (.ok p, cp)
    | none => (.error (noProject name), cp)
  | .create p upsert => cp.create p upsert
  | .update p => cp.update p
  | .delete name => cp.delete name
  | .issue t => cp.issue m t

/-- Serves a call: it is recorded, and then fails if calls of its kind do. -/
def serve (cp : ControlPlane) (m : Moment) (r : Request) : r.Answer × ControlPlane :=
  let cp := { cp with calls := cp.calls ++ [r] }
  match cp.failures r.operation with
  | some refusal => (.error refusal, cp)
  | none => cp.perform m r

end ControlPlane

end Reconcile
