import Reconcile.Declared
import Reconcile.Time.Stamp

/-!
# The declared project as a resource

A resource carries what the user declared together with what the latest successful pass saw: its
conditions and the tokens of the live project. The live project is addressed by the external name,
which is kept among the annotations.
-/

namespace Reconcile

/-- A token as the control plane reported it. A token without `expiresAt` never expires. A renewal
produces a new token with the same id. -/
structure ObservedToken where
  id : String
  issuedAt : Instant
  expiresAt : Option Instant
deriving DecidableEq, Repr

namespace ObservedToken

def lifetime (t : ObservedToken) : Option Span :=
  t.expiresAt.map (·.since t.issuedAt)

/-- A token has expired from its expiry onward. -/
def isExpired (t : ObservedToken) (now : Instant) : Bool :=
  t.expiresAt.any (· ≤ now)

end ObservedToken

/-- The tokens of each role as a pass saw them. -/
abbrev Observation : Type := Dict (List ObservedToken)

inductive ConditionKind where
  | ready
deriving DecidableEq, Repr

inductive ConditionReason where
  | available
  | unavailable
deriving DecidableEq, Repr

/-- A condition and the time since which it has held. -/
structure Condition where
  kind : ConditionKind
  status : Bool
  reason : ConditionReason
  since : Stamp
deriving DecidableEq, Repr

namespace Condition

def available (now : Instant) : Condition :=
  ⟨.ready, true, .available, ⟨now, false⟩⟩

/-- Equal but for the time. -/
def agrees (c d : Condition) : Bool :=
  c.kind = d.kind && c.status = d.status && c.reason = d.reason

/-- Puts a condition in the place of the first one of its kind, or at the end if there is none. A
condition that says nothing new leaves the old one and its time in place. -/
def place (new : Condition) : List Condition → List Condition
  | [] => [new]
  | c :: rest =>
    if c.kind = new.kind then (if c.agrees new then c else new) :: rest
    else c :: place new rest

end Condition

structure Metadata where
  name : String := ""
  labels : Dict String := ∅
  annotations : Dict String := ∅
deriving DecidableEq

structure Project where
  metadata : Metadata := {}
  parameters : Parameters := {}
  conditions : List Condition := []
  observation : Observation := ∅
deriving DecidableEq

namespace Project

/-- The annotation that holds the name of the live project. -/
def externalNameKey : String := "crossplane.io/external-name"

/-- A declaration that no pass has seen yet. -/
def declare (name : String) (parameters : Parameters) : Project :=
  { metadata := { name }, parameters }

def externalName (p : Project) : Option String :=
  p.metadata.annotations[externalNameKey]?.filter (· ≠ "")

def setExternalName (p : Project) (name : String) : Project :=
  { p with metadata.annotations := p.metadata.annotations.insert externalNameKey name }

def setCondition (p : Project) (c : Condition) : Project :=
  { p with conditions := c.place p.conditions }

def condition (p : Project) (kind : ConditionKind) : Option Condition :=
  p.conditions.find? (·.kind = kind)

end Project

end Reconcile
