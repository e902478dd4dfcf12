import Reconcile.Text
import Reconcile.Time.Duration

/-!
# What can go wrong

A control plane refuses a call with a reason. A lifecycle operation fails because a call was
refused, because a declared duration cannot be used, because there is nothing to address, or because
the work was withdrawn. When only some tokens could be issued, the failure carries the secrets of
the others, since they cannot be read again.

A token is known by its role and its id. Keys are ordered by role and then by id, which is not the
order of their joined text.
-/

namespace Reconcile

/-! ## Token keys -/

/-- What a token is known by across the roles of a project. -/
structure TokenKey where
  role : String
  id : String
deriving DecidableEq, Repr

namespace TokenKey

instance : Ord TokenKey := ⟨compareLex (compareOn role) (compareOn id)⟩

instance : Std.TransOrd TokenKey :=
  inferInstanceAs (Std.TransCmp (compareLex (compareOn role) (compareOn id)))

instance : Std.LawfulEqOrd TokenKey where
  eq_of_compare := by
    rintro ⟨role, id⟩ ⟨role', id'⟩ h
    change (compareLex (compareOn TokenKey.role) (compareOn TokenKey.id)) _ _ = .eq at h
    rw [compareLex_eq_eq] at h
    obtain ⟨hr, hi⟩ := h
    cases Std.LawfulEqOrd.eq_of_compare hr
    cases Std.LawfulEqOrd.eq_of_compare hi
    rfl

/-- The key as it names a secret. -/
def text (k : TokenKey) : String :=
  k.role ++ "." ++ k.id

end TokenKey

/-! ## Refused calls -/

inductive RefusalKind where
  | notFound
  | conflict
  | permissionDenied
  | unavailable
  | internal
deriving DecidableEq, Repr

def RefusalKind.text : RefusalKind → String
  | .notFound => "not found"
  | .conflict => "conflict"
  | .permissionDenied => "permission denied"
  | .unavailable => "unavailable"
  | .internal => "internal"

structure Refusal where
  kind : RefusalKind
  detail : String
deriving DecidableEq, Repr

def Refusal.message (r : Refusal) : String :=
  r.kind.text ++ ": " ++ r.detail

def Refusal.isNotFound (r : Refusal) : Bool :=
  r.kind = .notFound

/-! ## Failed operations -/

inductive DurationField where
  | expiresIn
  | renewBefore
  | renewAfter
deriving DecidableEq, Repr

def DurationField.text : DurationField → String
  | .expiresIn => "expiresIn"
  | .renewBefore => "renewBefore"
  | .renewAfter => "renewAfter"

/-- Secrets of issued tokens, by the text of their key. -/
abbrev Secrets : Type := Dict String

structure TokenFailure where
  key : TokenKey
  refusal : Refusal
deriving DecidableEq, Repr

def TokenFailure.message (f : TokenFailure) : String :=
  f.key.text ++ ": " ++ f.refusal.message

inductive Failure where
  | get (refusal : Refusal)
  | create (refusal : Refusal)
  | update (refusal : Refusal)
  | delete (refusal : Refusal)
  | tokens (failures : List TokenFailure) (issued : Secrets)
  | unreadableDuration (field : DurationField) (value : String) (fault : DurationFault)
  | durationOutOfRange (field : DurationField) (value : String)
  | noExternalName
  | cancelled
deriving DecidableEq

def Failure.message : Failure → String
  | .get r => "cannot get project: " ++ r.message
  | .create r => "cannot create project: " ++ r.message
  | .update r => "cannot update project: " ++ r.message
  | .delete r => "cannot delete project: " ++ r.message
  | .tokens failures _ =>
    "cannot create project tokens: " ++ "; ".intercalate (failures.map TokenFailure.message)
  | .unreadableDuration field value fault =>
    "invalid " ++ field.text ++ " duration " ++ Text.quoted value ++ ": " ++ fault.message
  | .durationOutOfRange field value =>
    field.text ++ " duration " ++ Text.quoted value ++ " is out of range"
  | .noExternalName => "project has no external name"
  | .cancelled => "operation cancelled"

end Reconcile
