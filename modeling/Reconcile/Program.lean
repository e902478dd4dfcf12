import Reconcile.Request

/-!
# Programs over requests

A lifecycle operation is a program that asks a control plane, looks at the clock and leaves notes,
one step at a time. What a program does is thus a value apart from whoever answers it: the same
program runs against a control plane in memory, against any list of answers, or beside another
program.

A host answers. Before each call it is asked whether the work has been withdrawn, and again when a
call stays open; only then is a call cut short. A call that stays open for ever leaves the run
without a result.
-/

namespace Reconcile

/-- What is written down for an auditor. -/
inductive AuditEvent where
  | created (project : String)
  | updated (project : String)
  | deleted (project : String)
  | tokenIssued (project : String) (key : TokenKey)
deriving DecidableEq, Repr

def AuditEvent.message : AuditEvent → String
  | .created _ => "Project created"
  | .updated _ => "Project updated"
  | .deleted _ => "Project deleted"
  | .tokenIssued _ _ => "Project token issued"

/-- Steps that end in a value. A call that is cut short is answered with `none`. -/
inductive Program (α : Type) : Type where
  | done (value : α)
  | ask (request : Request) (next : Option request.Answer → Program α)
  | look (next : Instant → Program α)
  | note (event : AuditEvent) (next : Program α)

namespace Program

def bind {α β : Type} : Program α → (α → Program β) → Program β
  | .done a, f => f a
  | .ask r next, f => .ask r fun answer => (next answer).bind f
  | .look next, f => .look fun now => (next now).bind f
  | .note e next, f => .note e (next.bind f)

instance : Monad Program where
  pure := .done
  bind := bind

end Program

/-- Who answers a program, with a state of its own. -/
structure Host (σ : Type) where
  isCancelled : σ → Bool
  clock : σ → Instant
  /-- Serves a call; `none` if the call stays open. -/
  serve : (r : Request) → σ → Option r.Answer × σ
  note : AuditEvent → σ → σ
  /-- Lets a number of seconds pass between two programs. -/
  pause : Nat → σ → σ

/-- Runs a program to its value, or to the call that stays open. -/
def Host.run {σ α : Type} (h : Host σ) : Program α → σ → Option α × σ
  | .done a, s => (some a, s)
  | .ask r next, s =>
    if h.isCancelled s then h.run (next none) s
    else
      match h.serve r s with
      | (some answer, s) => h.run (next (some answer)) s
      | (none, s) => if h.isCancelled s then h.run (next none) s else (none, s)
  | .look next, s => h.run (next (h.clock s)) s
  | .note e next, s => h.run next (h.note e s)

/-! ## Programs that can fail -/

/-- A program that ends in a value or a failure. -/
abbrev Attempt (α : Type) : Type := ExceptT Failure Program α

namespace Attempt

/-- Makes a call. Being cut short is a failure, being refused is an answer. -/
def call (r : Request) : Attempt r.Answer :=
  ExceptT.mk (.ask r fun
    | some answer => .done (.ok answer)
    | none => .done (.error .cancelled))

def now : Attempt Instant :=
  ExceptT.mk (.look fun t => .done (.ok t))

def note (e : AuditEvent) : Attempt Unit :=
  ExceptT.mk (.note e (.done (.ok ())))

/-- A value that has been worked out, or its failure. -/
def settled {α : Type} (a : Except Failure α) : Attempt α :=
  ExceptT.mk (.done a)

end Attempt

end Reconcile
