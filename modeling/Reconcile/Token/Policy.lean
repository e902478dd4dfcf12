import Reconcile.Failure
import Reconcile.Resource

/-!
# When a token has to be issued

The durations of a token spec are read together, in the order lifetime, renewal before expiry,
renewal after issuance, and the first bad one is reported. A token is then issued when it is
missing, when it has expired, or when a renewal policy is due: from `expiresAt - renewBefore`
onward, or from `issuedAt + renewAfter` onward. A policy whose due instant no date can express is
reported, but only where it is asked for.
-/

namespace Reconcile

def DurationField.span [DurationReader]
    (field : DurationField) (value : String) : Except Failure Span :=
  match DurationReader.read value with
  | .error fault => .error (.unreadableDuration field value fault)
  | .ok d =>
    match d.toSpan? with
    | some span => .ok span
    | none => .error (.durationOutOfRange field value)

/-- The span of a field that may be left out. -/
def DurationField.span? [DurationReader]
    (field : DurationField) : Option String → Except Failure (Option Span)
  | none => .ok none
  | some value => (field.span value).map some

structure TokenTerms where
  expiresIn : Option Span
  renewBefore : Option Span
  renewAfter : Option Span
deriving DecidableEq, Repr

/-- The durations of a spec, or the failure of the first one that cannot be used. -/
def TokenSpec.terms [DurationReader] (s : TokenSpec) : Except Failure TokenTerms := do
  let expiresIn ← DurationField.expiresIn.span? s.expiresIn
  let renewBefore ← DurationField.renewBefore.span? s.renewBefore
  let renewAfter ← DurationField.renewAfter.span? s.renewAfter
  return ⟨expiresIn, renewBefore, renewAfter⟩

/-- Whether a token has the lifetime asked for, in whole seconds; without one it must not
expire. -/
def TokenTerms.lifetimeMatches (terms : TokenTerms) (t : ObservedToken) : Bool :=
  match terms.expiresIn, t.lifetime with
  | none, none => true
  | some asked, some given => asked.wholeSeconds = given.wholeSeconds
  | _, _ => false

inductive IssueReason where
  | missing
  | expired
  | renewBefore
  | renewAfter
deriving DecidableEq, Repr

def IssueReason.text : IssueReason → String
  | .missing => "missing"
  | .expired => "expired"
  | .renewBefore => "renew before expiry"
  | .renewAfter => "renew after issuance"

/-- When a token has to be renewed ahead of its expiry; `none` if the policy does not apply. -/
def TokenSpec.dueBeforeExpiry (s : TokenSpec) (terms : TokenTerms) (t : ObservedToken) :
    Except Failure (Option Instant) :=
  match terms.renewBefore, t.expiresAt with
  | some lead, some expiry =>
    match expiry.minus? lead with
    | some due => .ok (some due)
    | none => .error (.durationOutOfRange .renewBefore (s.renewBefore.getD ""))
  | _, _ => .ok none

/-- When a token has to be renewed after its issue; `none` if the policy does not apply. -/
def TokenSpec.dueAfterIssue (s : TokenSpec) (terms : TokenTerms) (t : ObservedToken) :
    Except Failure (Option Instant) :=
  match terms.renewAfter with
  | some age =>
    match t.issuedAt.plus? age with
    | some due => .ok (some due)
    | none => .error (.durationOutOfRange .renewAfter (s.renewAfter.getD ""))
  | none => .ok none

/-- Why a spec needs its token issued, given the token that is there. A live token is left to its
renewal policies: that its lifetime is no longer the one asked for is drift, but no reason. -/
def TokenSpec.issueReason (s : TokenSpec) (terms : TokenTerms) (current : Option ObservedToken)
    (now : Instant) : Except Failure (Option IssueReason) :=
  match current with
  | none => .ok (some .missing)
  | some t =>
    if t.isExpired now then .ok (some .expired)
    else do
      if (← s.dueBeforeExpiry terms t).any (· ≤ now) then return some .renewBefore
      if (← s.dueAfterIssue terms t).any (· ≤ now) then return some .renewAfter
      return none

/-- Whether a role's tokens are the ones declared: paired by position, with equal ids, the lifetime
asked for, and none expired. Durations are read as far as the pairs before them agree, so an early
difference hides a later bad duration and not the other way round. -/
def tokensMatch [DurationReader]
    (now : Instant) : List TokenSpec → List ObservedToken → Except Failure Bool
  | s :: specs, t :: tokens => do
    let terms ← s.terms
    if s.id = t.id && terms.lifetimeMatches t && !t.isExpired now then tokensMatch now specs tokens
    else return false
  | _, _ => .ok true

/-- `tokensMatch` for lists of any length; lists of different length never match. -/
def tokensAgree [DurationReader]
    (specs : List TokenSpec) (tokens : List ObservedToken) (now : Instant) :
    Except Failure Bool :=
  if specs.length = tokens.length then tokensMatch now specs tokens else .ok false

end Reconcile
