import Reconcile.ControlPlane
import Reconcile.Lifecycle

/-!
# Rehearsals

A host for trying programs out: a control plane in memory, a clock that is set by hand, a flag that
withdraws the work, and hooks that act around chosen calls. A hook before a call acts before the
control plane sees it; a hook after a call acts only when the call was served. All hooks that are
due at one point are picked before the first of them acts.
-/

namespace Reconcile

inductive HookAction where
  | cancel
  /-- Leaves the call open; later hooks no longer act. -/
  | stall
  /-- Puts the clock forward. -/
  | advance (seconds : Int)
  /-- Stores a project behind the caller's back. -/
  | insert (project : Live.Project)
  /-- Renames the project that the call gives. -/
  | rename (name : String)
  /-- Refuses the call once all hooks have acted. -/
  | fail (refusal : Refusal)
deriving DecidableEq

/-- On which side of a call a hook acts. -/
inductive HookPoint where
  | before
  | after
deriving DecidableEq, Repr

/-- An action around calls of one kind. It lets some calls pass, and then acts on some more. -/
structure Hook where
  operation : Operation
  point : HookPoint := .before
  action : HookAction
  skip : Nat := 0
  times : Nat := 1
deriving DecidableEq

namespace Hook

def watches (h : Hook) (op : Operation) (point : HookPoint) : Bool :=
  h.operation = op && h.point = point

/-- The hook after a point has been passed, and whether it acts there. -/
def pass (op : Operation) (point : HookPoint) (h : Hook) : Hook × Bool :=
  if !h.watches op point then (h, false)
  else if 0 < h.skip then ({ h with skip := h.skip - 1 }, false)
  else if 0 < h.times then ({ h with times := h.times - 1 }, true)
  else (h, false)

end Hook

/-- A control plane, its surroundings and the hooks. -/
structure Rehearsal where
  plane : ControlPlane := {}
  clock : Int
  cancelled : Bool := false
  hooks : List Hook := []
  audit : List AuditEvent := []
  tail : String

namespace Rehearsal

def renameReply (name : String) : (r : Request) → r.Reply → r.Reply
  | .get _, p => { p with name }
  | .create _ _, p => { p with name }
  | .update _, p => { p with name }
  | .delete _, reply => reply
  | .issue _, reply => reply

/-- A call under way: what it will be answered with once served, and the refusal that replaces
this. -/
structure Underway (r : Request) where
  reply : Option r.Reply := none
  refusal : Option Refusal := none

/-- Lets actions happen in turn, up to one that leaves the call open. -/
def act {r : Request} : List HookAction → Underway r → Rehearsal → Option (Underway r) × Rehearsal
  | [], call, w => (some call, w)
  | action :: rest, call, w =>
    match action with
    | .cancel => act rest call { w with cancelled := true }
    | .stall => (none, w)
    | .advance seconds => act rest call { w with clock := w.clock + seconds }
    | .insert p => act rest call { w with plane := w.plane.insert p }
    | .rename name => act rest { call with reply := call.reply.map (renameReply name r) } w
    | .fail refusal => act rest { call with refusal := some refusal } w

/-- Passes a point: the hooks due there are picked and then act. -/
def passPoint {r : Request} (point : HookPoint) (call : Underway r) (w : Rehearsal) :
    Option (Underway r) × Rehearsal :=
  let passed := w.hooks.map (Hook.pass r.operation point)
  let due := passed.filterMap fun (h, acts) => if acts then some h.action else none
  act due call { w with hooks := passed.map Prod.fst }

def moment (w : Rehearsal) : Moment :=
  ⟨w.clock, w.tail⟩

/-- Serves a call of a program; `none` if a hook leaves it open. -/
def serve (r : Request) (w : Rehearsal) : Option r.Answer × Rehearsal :=
  match passPoint .before ({} : Underway r) w with
  | (none, w) => (none, w)
  | (some { refusal := some refusal, .. }, w) => (some (.error refusal), w)
  | (some _, w) =>
    let (answer, plane) := w.plane.serve w.moment r
    let w := { w with plane := plane }
    match answer with
    | .error refusal => (some (.error refusal), w)
    | .ok reply =>
      match passPoint .after { reply := some reply } w with
      | (none, w) => (none, w)
      | (some { refusal := some refusal, .. }, w) => (some (.error refusal), w)
      | (some call, w) => (some (.ok (call.reply.getD reply)), w)

/-- A rehearsal answers programs. Pauses cost it nothing and leave its clock alone. -/
def host : Host Rehearsal where
  isCancelled w := w.cancelled
  clock w := instantOfTimestamp w.clock
  serve := serve
  note e w := { w with audit := w.audit ++ [e] }
  pause _ w := w

/-- Serves a call made past the hooks. -/
def serveDirectly (r : Request) (w : Rehearsal) : r.Answer × Rehearsal :=
  let (answer, plane) := w.plane.serve w.moment r
  (answer, { w with plane := plane })

end Rehearsal

end Reconcile
