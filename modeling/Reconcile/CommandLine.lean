import Reconcile.Rehearsal
import Reconcile.Resource.Format
import Reconcile.Schedule

/-!
# The command line

A declared project is read from a file and driven against a control plane in memory by a schedule;
the resource may be written back in the end. Options are long; an option is given at most once, its
value follows it or stands behind an equals sign, and a value that follows must not start like an
option. Arguments are read from left to right and the first one at fault decides.
-/

namespace Reconcile.CommandLine

structure Options where
  file : Option String := none
  passes : Option Nat := none
  interval : Option Nat := none
  timeout : Option Nat := none
  keepGoing : Bool := false
  delete : Bool := false
  output : Option String := none
  logJson : Bool := false
deriving DecidableEq, Repr

inductive Request where
  | run (options : Options)
  | help
  | version
  | refused
deriving DecidableEq, Repr

/-- Options with a value. -/
inductive Setting where
  | file
  | passes
  | interval
  | timeout
  | output
deriving DecidableEq, Repr

/-- Options without a value. -/
inductive Switch where
  | keepGoing
  | delete
  | logJson
  | help
  | version
deriving DecidableEq, Repr

/-- Digits without anything else. -/
def natural? (cs : List Char) : Option Nat :=
  if cs ≠ [] ∧ cs.all Char.isDigit then
    some (cs.foldl (fun n c => n * 10 + (c.toNat - '0'.toNat)) 0)
  else none

/-- A number of 64 bits, with or without a plus sign. -/
def word64? (s : String) : Option Nat := do
  let n ← natural? (match s.toList with | '+' :: cs => cs | cs => cs)
  if n < Word.limit64 then some n else none

/-- A number of 32 bits, with or without a sign; minus zero is zero. -/
def word32? (s : String) : Option Nat :=
  match s.toList with
  | '-' :: cs => (natural? cs).filter (· = 0)
  | '+' :: cs => (natural? cs).filter (· < Word.limit32)
  | cs => (natural? cs).filter (· < Word.limit32)

/-- Gives a setting its value, unless it has one already or the value will not do. -/
def Setting.set (o : Options) (value : String) : Setting → Option Options
  | .file => if o.file.isSome ∨ value = "" then none else some { o with file := some value }
  | .output => if o.output.isSome ∨ value = "" then none else some { o with output := some value }
  | .passes => if o.passes.isSome then none else
    (word32? value).map fun n => { o with passes := some n }
  | .interval => if o.interval.isSome then none else
    (word64? value).map fun n => { o with interval := some n }
  | .timeout => if o.timeout.isSome then none else
    (word64? value).map fun n => { o with timeout := some n }

def named? : String → Option (Setting ⊕ Switch)
  | "file" => some (.inl .file)
  | "passes" => some (.inl .passes)
  | "interval" => some (.inl .interval)
  | "timeout" => some (.inl .timeout)
  | "output" => some (.inl .output)
  | "keep-going" => some (.inr .keepGoing)
  | "delete" => some (.inr .delete)
  | "log-json" => some (.inr .logJson)
  | "help" => some (.inr .help)
  | "version" => some (.inr .version)
  | _ => none

/-- An argument taken apart: an option with the value behind its equals sign, or something else. -/
inductive Argument where
  | long (name : String) (value : Option String)
  | short (letters : List Char)
  | rest
  | plain (value : String)
deriving DecidableEq, Repr

def Argument.of (s : String) : Argument :=
  match s.toList with
  | ['-', '-'] => .rest
  | '-' :: '-' :: cs =>
    let name := String.ofList (cs.takeWhile (· ≠ '='))
    match cs.dropWhile (· ≠ '=') with
    | [] => .long name none
    | _ :: value => .long name (some (String.ofList value))
  | ['-'] => .plain s
  | '-' :: cs => .short cs
  | _ => .plain s

/-- Turns a switch on, unless it is on already. -/
def Switch.turnOn (o : Options) : Switch → Except Request Options
  | .keepGoing => if o.keepGoing then .error .refused else .ok { o with keepGoing := true }
  | .delete => if o.delete then .error .refused else .ok { o with delete := true }
  | .logJson => if o.logJson then .error .refused else .ok { o with logJson := true }
  | .help => .error .help
  | .version => .error .version

/-- Reads arguments, the first of them as the value of a setting that waits for one. -/
def parseFrom (o : Options) : Option Setting → List String → Request
  | some _, [] => .refused
  | none, [] => if o.file.isSome then .run o else .refused
  | some setting, arg :: args =>
    match Argument.of arg with
    | .plain value =>
      match setting.set o value with
      | some o => parseFrom o none args
      | none => .refused
    | _ => .refused
  | none, arg :: args =>
    match Argument.of arg with
    | .plain _ => .refused
    | .rest => if args = [] then parseFrom o none args else .refused
    | .short ('h' :: _) => .help
    | .short ('V' :: _) => .version
    | .short _ => .refused
    | .long name given =>
      match named? name, given with
      | none, _ => .refused
      | some (.inr switch), none =>
        match switch.turnOn o with
        | .ok o => parseFrom o none args
        | .error request => request
      | some (.inr _), some _ => .refused
      | some (.inl setting), some value =>
        match setting.set o value with
        | some o => parseFrom o none args
        | none => .refused
      | some (.inl setting), none => parseFrom o (some setting) args

def parse (args : List String) : Request :=
  parseFrom {} none args

namespace Options

def schedule (o : Options) : Schedule :=
  { ({} : Schedule) with
    passes := o.passes.getD 5
    interval := o.interval.getD 1
    timeout := o.timeout.getD 30
    keepGoing := o.keepGoing
    delete := o.delete }

/-- Drives a project against an empty control plane, starting at a time in seconds. The clock runs
on between passes. -/
def simulate (o : Options) (start : Int) (tail : String) (p : Project) : ScheduleRun Rehearsal :=
  let host := { Rehearsal.host with
    pause := fun seconds w => { w with clock := w.clock + seconds } }
  o.schedule.run host p { clock := start, tail }

end Options

/-- What a command leaves behind: its exit code, the summary of its run, and the document it
writes. -/
structure Result where
  exit : Nat
  run : Option (ScheduleRun Rehearsal) := none
  /-- The file to write and what goes there. -/
  written : Option (String × Project) := none

/-- Runs a command. `text` gives the content of the file it names, if that can be read. -/
def execute (args : List String) (text : String → Option String) (start : Int) (tail : String) :
    Result :=
  match parse args with
  | .refused => { exit := 2 }
  | .help | .version => { exit := 0 }
  | .run o =>
    match (o.file.bind text).map Project.ofJson with
    | some (.ok p) =>
      let run := o.simulate start tail p
      { exit := 0, run := some run, written := o.output.map fun path => (path, run.project) }
    | _ => { exit := 1 }

end Reconcile.CommandLine
