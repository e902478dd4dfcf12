import Reconcile.Live
import Reconcile.Token.Plan

/-!
# Requests to a control plane

The five calls a control plane serves, and what each is answered with.
-/

namespace Reconcile

inductive Request where
  | get (name : String)
  | create (project : Live.Project) (upsert : Bool)
  | update (project : Live.Project)
  | delete (name : String)
  | issue (token : TokenRequest)
deriving DecidableEq

inductive Operation where
  | get
  | create
  | update
  | delete
  | issue
deriving DecidableEq, Repr

namespace Request

def operation : Request → Operation
  | .get _ => .get
  | .create _ _ => .create
  | .update _ => .update
  | .delete _ => .delete
  | .issue _ => .issue

/-- What a call gives when it is served: the project as stored, or the secret of a token. -/
abbrev Reply : Request → Type
  | .get _ | .create _ _ | .update _ => Live.Project
  | .delete _ => Unit
  | .issue _ => String

/-- A call is served or refused. -/
abbrev Answer (r : Request) : Type := Except Refusal r.Reply

end Request

end Reconcile
