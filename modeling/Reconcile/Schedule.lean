import Reconcile.Lifecycle

/-!
# Schedules

A schedule runs passes over one project. A pass observes, and then creates or updates as the
sighting demands. Passes stop when the work is withdrawn, when a pass found nothing to do and the
schedule is not to keep going, or when all have run. A failed pass is counted and the next one
starts afresh. In the end the project may be deleted.

A pass whose call stays open runs into its time limit. What the pass had already recorded in the
resource stays.
-/

namespace Reconcile

structure Schedule where
  passes : Nat := 5
  /-- Seconds between passes. -/
  interval : Nat := 1
  /-- Seconds a pass may take. -/
  timeout : Nat := 30
  keepGoing : Bool := false
  delete : Bool := false
deriving DecidableEq, Repr

inductive PassAction where
  | nothing
  | created
  | updated (issued : Nat)
deriving DecidableEq, Repr

def PassAction.text : PassAction → String
  | .nothing => "None"
  | .created => "Created"
  | .updated issued => "Updated \x7b issued: " ++ toString issued ++ " \x7d"

structure PassReport where
  state : ResourceState
  action : PassAction
deriving DecidableEq, Repr

/-- How a program under a time limit ended. -/
inductive Ending (α : Type) where
  | finished (value : α)
  | failed (failure : Failure)
  | timedOut

inductive ScheduleEvent where
  | passComplete (pass : Nat) (report : PassReport)
  | passCancelled (pass : Nat)
  | passFailed (pass : Nat) (failure : Failure)
  | passTimedOut (pass limit : Nat)
  | deleted
  | deleteFailed (failure : Failure)
  | deleteTimedOut (limit : Nat)
deriving DecidableEq

inductive EventLevel where
  | info
  | warn
  | error
deriving DecidableEq, Repr

def EventLevel.text : EventLevel → String
  | .info => "INFO"
  | .warn => "WARN"
  | .error => "ERROR"

namespace ScheduleEvent

def level : ScheduleEvent → EventLevel
  | .passComplete _ _ | .deleted => .info
  | .passCancelled _ => .warn
  | _ => .error

def message : ScheduleEvent → String
  | .passComplete _ _ => "Pass complete"
  | .passCancelled _ => "Pass cancelled"
  | .passFailed _ failure => "Pass failed: " ++ failure.message
  | .passTimedOut _ _ => "Pass timed out"
  | .deleted => "Project deleted"
  | .deleteFailed failure => "Delete failed: " ++ failure.message
  | .deleteTimedOut _ => "Delete timed out"

end ScheduleEvent

/-- What a run did. The state is the one that the last completed pass saw, or that the project is
gone after a delete. The failures are counted in 32 bits, which can also number the passes of a
schedule. The tokens are counted without a limit: no run brings as many as 64 bits can count. -/
structure Summary where
  passes : Nat := 0
  failures : Nat := 0
  tokensIssued : Nat := 0
  state : ResourceState := .unknown
deriving DecidableEq, Repr

/-- A run between two passes. -/
structure ScheduleRun (σ : Type) where
  project : Project
  host : σ
  summary : Summary := {}
  log : List ScheduleEvent := []

namespace Host

variable {σ : Type} (h : Host σ)

/-- Runs a program under the time limit. -/
def attempt {α : Type} (program : Attempt α) (s : σ) : Ending α × σ :=
  match h.run program.run s with
  | (none, s) => (.timedOut, s)
  | (some (.ok a), s) => (.finished a, s)
  | (some (.error failure), s) => (.failed failure, s)

/-- Does what a sighting demands. -/
def settle [DurationReader]
    (p : Project) (state : ResourceState) (s : σ) : Ending PassReport × Project × σ :=
  match state with
  | .notExists =>
    match h.attempt p.create s with
    | (.finished created, s) => (.finished ⟨state, .created⟩, created, s)
    | (.failed failure, s) => (.failed failure, p, s)
    | (.timedOut, s) => (.timedOut, p, s)
  | .drifted =>
    match h.attempt p.update s with
    | (.finished issued, s) => (.finished ⟨state, .updated issued.size⟩, p, s)
    | (.failed failure, s) => (.failed failure, p, s)
    | (.timedOut, s) => (.timedOut, p, s)
  | .upToDate | .unknown => (.finished ⟨state, .nothing⟩, p, s)

/-- One pass, and the resource as it leaves it. -/
def pass [DurationReader] (p : Project) (s : σ) : Ending PassReport × Project × σ :=
  match h.attempt p.observe s with
  | (.finished (sighting, seen), s) => h.settle seen sighting.state s
  | (.failed failure, s) => (.failed failure, p, s)
  | (.timedOut, s) => (.timedOut, p, s)

end Host

/-- The number of tokens a failure has the secrets of. -/
def Failure.issued : Failure → Nat
  | .tokens _ issued => issued.size
  | _ => 0

namespace PassAction

def issued : PassAction → Nat
  | .updated n => n
  | _ => 0

end PassAction

namespace Schedule

variable {σ : Type}

/-- Books the ending of a pass. A withdrawn pass is no failure. -/
def book (c : Schedule) (pass : Nat) (ending : Ending PassReport) (summary : Summary) :
    Summary × ScheduleEvent :=
  let summary := { summary with passes := pass }
  match ending with
  | .finished report =>
    ({ summary with
        state := report.state
        tokensIssued := summary.tokensIssued + report.action.issued },
      .passComplete pass report)
  | .failed .cancelled => (summary, .passCancelled pass)
  | .failed failure =>
    ({ summary with
        failures := Word.next32 summary.failures
        tokensIssued := summary.tokensIssued + failure.issued },
      .passFailed pass failure)
  | .timedOut =>
    ({ summary with failures := Word.next32 summary.failures }, .passTimedOut pass c.timeout)

/-- Whether no pass follows this one. -/
def isLast (c : Schedule) : Ending PassReport → Bool
  | .finished report => report.state = .upToDate && !c.keepGoing
  | .failed .cancelled => true
  | _ => false

/-- Runs up to `left` passes, the first of them numbered `pass`. -/
def runPasses [DurationReader]
    (c : Schedule) (h : Host σ) : (left pass : Nat) → ScheduleRun σ → ScheduleRun σ
  | 0, _, run => run
  | left + 1, pass, run =>
    if h.isCancelled run.host then run
    else
      let (ending, project, s) := h.pass run.project run.host
      let (summary, event) := c.book pass ending run.summary
      let run := { run with project, host := s, summary, log := run.log ++ [event] }
      if c.isLast ending then run
      else if left = 0 then run
      else runPasses c h left (pass + 1) { run with host := h.pause c.interval run.host }

/-- Deletes the project at the end of a run, if that is asked for and the work still wanted. -/
def finish (c : Schedule) (h : Host σ) (run : ScheduleRun σ) : ScheduleRun σ :=
  if !c.delete || h.isCancelled run.host then run
  else
    let (ending, s) := h.attempt run.project.delete run.host
    let failed := { run.summary with failures := Word.next32 run.summary.failures }
    let (summary, event) : Summary × ScheduleEvent :=
      match ending with
      | .finished () => ({ run.summary with state := .notExists }, .deleted)
      | .failed failure => (failed, .deleteFailed failure)
      | .timedOut => (failed, .deleteTimedOut c.timeout)
    { run with host := s, summary, log := run.log ++ [event] }

def run [DurationReader] (c : Schedule) (h : Host σ) (p : Project) (s : σ) : ScheduleRun σ :=
  c.finish h (c.runPasses h c.passes 1 ⟨p, s, {}, []⟩)

end Schedule

end Reconcile
