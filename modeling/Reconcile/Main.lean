import Reconcile.CommandLine
import Reconcile.Schedule.Log
import Std.Time.DateTime.Timestamp

/-!
# The command

The thin layer around `CommandLine.execute`: it reads the file that the arguments name, the
clock and some randomness, and writes the log of the run and the project asked for.
-/

namespace Reconcile.CommandLine

def usage : String :=
  "Usage: reconcile --file <FILE> [--passes <N>] [--interval <SECONDS>] [--timeout <SECONDS>]\n" ++
  "                 [--keep-going] [--delete] [--output <FILE>] [--log-json]"

def versionLine : String :=
  "reconcile 0.1.0"

/-- The content of a file, if it can be read as text. -/
def content? (path : String) : IO (Option String) :=
  try
    return some (← IO.FS.readFile path)
  catch _ =>
    return none

def seconds : IO Int := do
  return (← Std.Time.Timestamp.now).toSecondsSinceUnixEpoch.val

/-- Thirty-two hexadecimal digits that nobody can guess. -/
def secretTail : IO String := do
  let bytes ← IO.getRandomBytes 16
  return String.ofList (bytes.toList.flatMap fun b =>
    [Json.hexDigit (b.toNat / 16), Json.hexDigit (b.toNat % 16)])

def runOptions (args : List String) (o : Options) : IO UInt32 := do
  let text ← match o.file with
    | some path => content? path
    | none => pure none
  let result := execute args (fun _ => text) (← seconds) (← secretTail)
  match result.run with
  | none => IO.eprintln "error: the file cannot be read as a project"
  | some run =>
    for entry in run.entries do
      IO.println (entry.line o.logJson)
  match result.written with
  | none => return UInt32.ofNat result.exit
  | some (path, p) =>
    try
      IO.FS.writeFile path p.toJson.pretty
      return UInt32.ofNat result.exit
    catch e =>
      IO.eprintln ("error: " ++ toString e)
      return 1

end Reconcile.CommandLine

open Reconcile.CommandLine in
def main (args : List String) : IO UInt32 := do
  match parse args with
  | .run o => runOptions args o
  | .help => IO.println usage; return 0
  | .version => IO.println versionLine; return 0
  | .refused => IO.eprintln usage; return 2
