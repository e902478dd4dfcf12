import Reconcile.Text
import Reconcile.Time.Instant
import Reconcile.Word

/-!
# Durations as people write them

A duration is a row of amounts such as `1h 30m`: a number, perhaps with a fraction, and a unit.
Amounts add up. Every count is kept in 64 bits, a fraction counts only when it comes out even, and
each fault names the byte at which reading stopped.

All that uses durations takes them from a `DurationReader`, so that it holds however they are
spelled. The reader in use is the one given here.
-/

namespace Reconcile

/-- Why a text is no duration. Positions are byte offsets into the text. -/
inductive DurationFault where
  | empty
  | numberExpected (offset : Nat)
  | invalidCharacter (offset : Nat)
  | unitNeeded (number : Nat)
  | unknownUnit (unit : String)
  | tooLarge
deriving DecidableEq, Repr

def DurationFault.message : DurationFault → String
  | .empty => "value was empty"
  | .numberExpected offset => "expected number at " ++ toString offset
  | .invalidCharacter offset => "invalid character at " ++ toString offset
  | .unitNeeded n =>
    "time unit needed, for example " ++ toString n ++ "sec or " ++ toString n ++ "ms"
  | .unknownUnit unit =>
    "unknown time unit " ++ Text.quoted unit ++ ", supported units: ns, us/µs, ms, sec, min, " ++
      "hours, days, weeks, months, years (and few variations)"
  | .tooLarge =>
    "number is too large or cannot be represented without a lack of precision " ++
      "(values below 1ns are not supported)"

/-- A length of time as it is counted: seconds in 64 bits, and nanoseconds below one second. -/
structure Duration where
  seconds : Nat
  nanos : Nat
  fits : seconds < Word.limit64
  below : nanos < nanosPerSecond
deriving DecidableEq, Repr

namespace Duration

def zero : Duration := ⟨0, 0, by decide, by decide⟩

/-- So many seconds, and what the nanoseconds leave of a whole one. -/
def ofParts (seconds nanos : Nat) : Except DurationFault Duration :=
  if h : seconds < Word.limit64 then
    .ok ⟨seconds, nanos % nanosPerSecond, h, Nat.mod_lt _ (by decide)⟩
  else .error .tooLarge

def count? (n : Nat) : Except DurationFault Nat :=
  if n < Word.limit64 then .ok n else .error .tooLarge

def toSpan (d : Duration) : Span :=
  ⟨(d.seconds * nanosPerSecond + d.nanos : Nat)⟩

/-- The longest usable span: the milliseconds that fit a signed 64-bit count. -/
def longest : Span := ⟨9223372036854775807 * 1000000⟩

def toSpan? (d : Duration) : Option Span :=
  if d.toSpan.nanos ≤ longest.nanos then some d.toSpan else none

/-- Seconds and nanoseconds added to what has been counted so far. -/
def add (total : Duration) (seconds nanos : Nat) : Except DurationFault Duration := do
  let nanos ← count? (total.nanos + nanos)
  let seconds ← count? (seconds + nanos / nanosPerSecond)
  ofParts (total.seconds + seconds) nanos

inductive TimeUnit where
  | nanosecond | microsecond | millisecond | second | minute
  | hour | day | week | month | year
deriving DecidableEq, Repr

namespace TimeUnit

def spellings : List (TimeUnit × List String) := [
  (.nanosecond, ["nanos", "nsec", "ns"]),
  (.microsecond, ["usec", "us", "µs"]),
  (.millisecond, ["millis", "msec", "ms"]),
  (.second, ["seconds", "second", "secs", "sec", "s"]),
  (.minute, ["minutes", "minute", "min", "mins", "m"]),
  (.hour, ["hours", "hour", "hr", "hrs", "h"]),
  (.day, ["days", "day", "d"]),
  (.week, ["weeks", "week", "wk", "wks", "w"]),
  (.month, ["months", "month", "M"]),
  (.year, ["years", "year", "yr", "yrs", "y"])]

/-- The unit with a given spelling; case counts. -/
def named? (s : String) : Option TimeUnit :=
  (spellings.find? fun (_, names) => names.contains s).map Prod.fst

/-- Seconds and nanoseconds of a whole number of units, before it is known whether they fit. -/
def scale (n : Nat) : TimeUnit → Nat × Nat
  | .nanosecond => (0, n)
  | .microsecond => (0, n * 1000)
  | .millisecond => (0, n * 1000000)
  | .second => (n, 0)
  | .minute => (n * 60, 0)
  | .hour => (n * 3600, 0)
  | .day => (n * 86400, 0)
  | .week => (n * 604800, 0)
  | .month => (n * 2630016, 0)
  | .year => (n * 31557600, 0)

/-- The grid on which fractions of a unit are counted: seconds from the hour upward, nanoseconds
below it. A nanosecond has no fractions. -/
def fractionScale : TimeUnit → Option (Nat × Nat)
  | .nanosecond => none
  | .second => some (0, nanosPerSecond)
  | .minute => some (0, 60 * nanosPerSecond)
  | unit => some (unit.scale 1)

end TimeUnit

/-- The digits after a decimal point, as a quotient. -/
structure Fraction where
  numerator : Nat
  denominator : Nat
deriving DecidableEq, Repr

/-- A fraction of `size` grid steps, which has to come out even. -/
def Fraction.of (f : Fraction) (size : Nat) : Except DurationFault Nat := do
  let product ← count? (f.numerator * size)
  if product % f.denominator = 0 then return product / f.denominator else throw .tooLarge

/-- One amount, with its unit as written, added to the total. -/
def addAmount (total : Duration) (whole : Nat) (fraction : Option Fraction) (unit : String) :
    Except DurationFault Duration := do
  if unit = "" then throw (.unitNeeded whole)
  let some unit := TimeUnit.named? unit | throw (.unknownUnit unit)
  let (seconds, nanos) := unit.scale whole
  let total ← total.add (← count? seconds) (← count? nanos)
  let some fraction := fraction | return total
  let some (seconds, nanos) := unit.fractionScale | throw .tooLarge
  total.add (← fraction.of seconds) (← fraction.of nanos)

inductive Phase where
  /-- An amount may start; blanks have been skipped since `offset`. -/
  | seeking (offset : Nat)
  /-- In the digits before a point or a unit. -/
  | whole (n : Nat)
  /-- In the digits after a point; `offset` is where the last character taken there ends, or
  where the point stands if none was. -/
  | fraction (whole : Nat) (f : Fraction) (offset : Nat)
  /-- In the letters of a unit, kept last first. -/
  | unit (whole : Nat) (f : Option Fraction) (letters : List Char)
deriving DecidableEq, Repr

/-- Units are spelled in ASCII letters and the micro sign. -/
def isUnitLetter (c : Char) : Bool :=
  c.isAlpha || c == 'µ'

def digit (c : Char) : Nat :=
  c.toNat - '0'.toNat

def finish (total : Duration) : Phase → Except DurationFault Duration
  | .seeking _ => .ok total
  | .whole n => addAmount total n none ""
  | .fraction n f offset =>
    if f.denominator = 1 then .error (.invalidCharacter offset) else addAmount total n (some f) ""
  | .unit n f letters => addAmount total n f (String.ofList letters.reverse)

/-- Reads on from a phase, with `offset` bytes behind and `total` counted. A unit is judged as soon
as it ends, so of several faults the one that ends first is reported. -/
def scan (phase : Phase) (offset : Nat) (total : Duration) :
    List Char → Except DurationFault Duration
  | [] => finish total phase
  | c :: rest => do
    let next := offset + c.utf8Size
    match phase with
    | .seeking since =>
      if Text.isBlank c then scan (.seeking since) next total rest
      else if c.isDigit then scan (.whole (digit c)) next total rest
      else throw (.numberExpected since)
    | .whole n =>
      if c.isDigit then
        let n ← count? (n * 10 + digit c)
        scan (.whole n) next total rest
      else if Text.isBlank c then scan (.whole n) next total rest
      else if isUnitLetter c then scan (.unit n none [c]) next total rest
      else if c == '.' then scan (.fraction n ⟨0, 1⟩ offset) next total rest
      else throw (.invalidCharacter offset)
    | .fraction n f taken =>
      if c.isDigit then
        let numerator ← count? (f.numerator * 10 + digit c)
        let denominator ← count? (f.denominator * 10)
        scan (.fraction n ⟨numerator, denominator⟩ next) next total rest
      else if Text.isBlank c then scan (.fraction n f next) next total rest
      else if isUnitLetter c && f.denominator != 1 then scan (.unit n (some f) [c]) next total rest
      else throw (.invalidCharacter taken)
    | .unit n f letters =>
      if isUnitLetter c then scan (.unit n f (c :: letters)) next total rest
      else if c.isDigit then
        let total ← addAmount total n f (String.ofList letters.reverse)
        scan (.whole (digit c)) next total rest
      else if Text.isBlank c then
        let total ← addAmount total n f (String.ofList letters.reverse)
        scan (.seeking next) next total rest
      else throw (.invalidCharacter offset)

/-- Reads a text with no blanks around it. A lone `0` needs no unit. -/
def ofChars (cs : List Char) : Except DurationFault Duration :=
  if cs = ['0'] then .ok zero
  else if cs.all Text.isBlank then .error .empty
  else scan (.seeking 0) 0 zero cs

def read (s : String) : Except DurationFault Duration :=
  ofChars (Text.trim s.toList)

end Duration

/-- How texts are read as durations. -/
class DurationReader where
  read : String → Except DurationFault Duration

instance : DurationReader := ⟨Duration.read⟩

end Reconcile
