import Reconcile.Json.Value
import Reconcile.Schedule

/-!
# The log of a schedule

An event is logged with its level, its message and its fields; so is the summary of a finished run.
A log entry is one line, in plain words or as a JSON document.
-/

namespace Reconcile

structure LogEntry where
  level : EventLevel := .info
  message : String
  fields : List (String × Json) := []

namespace LogEntry

/-- The entry as a document; its message is the first of the fields there. -/
def toJson (e : LogEntry) : Json :=
  .object [("level", .text e.level.text),
    ("fields", .object (("message", .text e.message) :: e.fields))]

/-- The entry in plain words: the level, right-aligned, the message, and the fields with their
values. -/
def plain (e : LogEntry) : String :=
  let level := String.ofList (List.replicate (5 - e.level.text.length) ' ') ++ e.level.text
  e.fields.foldl (fun line (name, value) => line ++ " " ++ name ++ "=" ++ value.compact)
    (level ++ " " ++ e.message)

def line (e : LogEntry) (asJson : Bool) : String :=
  if asJson then e.toJson.compact else e.plain

end LogEntry

namespace ScheduleEvent

def limitText (seconds : Nat) : String :=
  if seconds = 0 then "0ns" else toString seconds ++ "s"

/-- What an event tells beside its message. -/
def fields : ScheduleEvent → List (String × Json)
  | .passComplete pass report =>
    [("pass", .int pass), ("state", .text report.state.text),
      ("action", .text report.action.text)]
  | .passCancelled pass | .passFailed pass _ => [("pass", .int pass)]
  | .passTimedOut pass limit => [("pass", .int pass), ("timeout", .text (limitText limit))]
  | .deleteTimedOut limit => [("timeout", .text (limitText limit))]
  | .deleted | .deleteFailed _ => []

def entry (e : ScheduleEvent) : LogEntry :=
  ⟨e.level, e.message, e.fields⟩

end ScheduleEvent

namespace Summary

def fields (s : Summary) : List (String × Json) :=
  [("passes", .int s.passes), ("failures", .int s.failures),
    ("tokens_issued", .int s.tokensIssued), ("state", .text s.state.text)]

def entry (s : Summary) : LogEntry where
  message := "Simulation finished"
  fields := s.fields

end Summary

def ScheduleRun.entries {σ : Type} (run : ScheduleRun σ) : List LogEntry :=
  run.log.map ScheduleEvent.entry ++ [run.summary.entry]

end Reconcile
