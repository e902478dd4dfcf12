import Reconcile.Text
import Reconcile.Time.Calendar
import Reconcile.Time.Instant
import Reconcile.Word

/-!
# Stamps

An instant as RFC 3339 writes it. A stamp is written in UTC with the fewest of 0, 3, 6 or 9
fraction digits that lose nothing. Reading is more generous: any offset, blanks around the numbers,
short fields, a signed year of any width, a lower-case or blank separator, and a leap second.
-/

namespace Reconcile

/-- A point in time as it is written down. A leap stamp stands in the second that a minute may have
after its second 59; its instant is the one a second earlier. -/
structure Stamp where
  instant : Instant
  leap : Bool := false
deriving DecidableEq, Repr

inductive StampFault where
  | outOfRange
  | impossible
  | invalid
  | tooShort
  | tooLong
deriving DecidableEq, Repr

def StampFault.message : StampFault → String
  | .outOfRange => "input is out of range"
  | .impossible => "no possible date and time matching input"
  | .invalid => "input contains invalid characters"
  | .tooShort => "premature end of input"
  | .tooLong => "trailing input"

namespace Stamp

/-! ## Writing -/

/-- Decimal digits with zeros in front up to a width. -/
def padded (width n : Nat) : List Char :=
  let digits := Nat.toDigits 10 n
  List.replicate (width - digits.length) '0' ++ digits

/-- Four digits, with a sign outside the years 0 to 9999. -/
def yearText (year : Int) : List Char :=
  if 0 ≤ year ∧ year ≤ 9999 then padded 4 year.toNat
  else (if year < 0 then '-' else '+') :: padded 4 year.natAbs

/-- The fraction of a second with no more digits than needed, in groups of three. -/
def fractionText (nanos : Nat) : List Char :=
  if nanos = 0 then []
  else if nanos % 1000000 = 0 then '.' :: padded 3 (nanos / 1000000)
  else if nanos % 1000 = 0 then '.' :: padded 6 (nanos / 1000)
  else '.' :: padded 9 nanos

def toChars (s : Stamp) : List Char :=
  let date := Date.ofDays (s.instant.seconds / 86400)
  let second := (s.instant.seconds % 86400).toNat
  let leapSecond := if s.leap then 1 else 0
  yearText date.year ++ ['-'] ++ padded 2 date.month.toNat ++ ['-'] ++
    padded 2 date.day.toNat ++ ['T'] ++ padded 2 (second / 3600) ++ [':'] ++
    padded 2 (second / 60 % 60) ++ [':'] ++ padded 2 (second % 60 + leapSecond) ++
    fractionText s.instant.subsecond ++ ['Z']

def text (s : Stamp) : String :=
  String.ofList s.toChars

/-! ## Reading -/

/-- A reader takes a value off the front of a text and leaves the rest. -/
abbrev Taking (α : Type) : Type := StateT (List Char) (Except StampFault) α

def blanks : Taking Unit :=
  modify Text.trimStart

/-- At least one digit, and no more than `limit` where there is one. -/
def number (limit : Option Nat) : Taking Nat := fun cs => do
  if cs = [] then throw .tooShort
  let run := cs.takeWhile Char.isDigit
  let digits := match limit with
    | some n => run.take n
    | none => run
  if digits = [] then throw .invalid
  let value := digits.foldl (fun n c => n * 10 + (c.toNat - '0'.toNat)) 0
  if value < Word.limit63 then return (value, cs.drop digits.length) else throw .outOfRange

def literal (c : Char) : Taking Unit := fun
  | [] => throw .tooShort
  | d :: cs => if d = c then return ((), cs) else throw .invalid

/-- A number of up to two digits within bounds, blanks in front aside. -/
def field (low high : Nat) : Taking Nat := do
  blanks
  let n ← number (some 2)
  if low ≤ n ∧ n ≤ high then return n else throw .outOfRange

/-- A year: four digits at most, or a sign and any number of them. -/
def yearField : Taking Int := do
  blanks
  let signed : Int ← match (← get) with
    | '-' :: cs => do set cs; pure (-1)
    | '+' :: cs => do set cs; pure 1
    | _ => pure 0
  let n ← number (if signed = 0 then some 4 else none)
  let year : Int := if signed < 0 then -n else n
  if -Word.limit31 ≤ year ∧ year < Word.limit31 then return year else throw .outOfRange

/-- A separator between two fields, blanks around it aside. -/
def separator (c : Char) : Taking Unit := do
  blanks
  literal c

/-- The letter or blank between date and time. -/
def dateEnd : Taking Unit := fun
  | [] => throw .tooShort
  | c :: cs => if c = 't' || c = 'T' || c = ' ' then return ((), cs) else throw .invalid

/-- Nanoseconds, if a point follows; digits after the ninth count for nothing. -/
def fractionField : Taking Nat := fun
  | '.' :: cs => do
    let (n, rest) ← number (some 9) cs
    let taken := cs.length - rest.length
    return (n * tenTo (9 - taken), rest.dropWhile Char.isDigit)
  | cs => return (0, cs)

/-- Two characters that should be digits. A lone character of one byte is too short, anything else
is not a number. -/
def twoDigits : Taking (Nat × Nat) := fun
  | [] => throw .tooShort
  | [c] => if c.utf8Size < 2 then throw .tooShort else throw .invalid
  | a :: b :: cs =>
    if a.isDigit ∧ b.isDigit then
      return ((a.toNat - '0'.toNat, b.toNat - '0'.toNat), cs)
    else throw .invalid

/-- The distance from UTC in seconds. -/
def offsetField : Taking Int := do
  match (← get) with
  | [] => throw .tooShort
  | c :: cs =>
    if c = 'Z' || c = 'z' then
      set cs
      return 0
    else if (c :: cs.take 2).map Char.toUpper = ['U', 'T', 'C'] then
      set (cs.drop 2)
      return 0
    else
      let sign : Int ←
        if c = '+' then pure 1
        else if c = '-' || c = '−' then pure (-1)
        else throw .invalid
      set cs
      let (h, h') ← twoDigits
      modify fun cs => cs.dropWhile fun c => c = ':' || Text.isBlank c
      let (m, m') ← twoDigits
      if 5 < m then throw .outOfRange
      return sign * ((h * 10 + h') * 3600 + (m * 10 + m') * 60 : Nat)

def assemble (date : Date) (hour minute second nanos : Nat) (offset : Int) :
    Except StampFault Stamp := do
  if !date.isValid then throw .outOfRange
  if offset.natAbs ≥ 86400 then throw .outOfRange
  let leap := second = 60
  let second := if leap then 59 else second
  let seconds := date.toDays * 86400 + (hour * 3600 + minute * 60 + second : Nat) - offset
  match Instant.ofNanos? (seconds * nanosPerSecond + nanos) with
  | some instant => return ⟨instant, leap⟩
  | none => throw .impossible

def stampField : Taking Stamp := do
  let year ← yearField
  separator '-'
  let month ← field 1 12
  separator '-'
  let day ← field 1 31
  dateEnd
  let hour ← field 0 23
  separator ':'
  let minute ← field 0 59
  separator ':'
  let second ← field 0 60
  let nanos ← fractionField
  blanks
  let offset ← offsetField
  blanks
  if (← get) ≠ [] then throw .tooLong
  assemble ⟨year, month, day⟩ hour minute second nanos offset

def ofChars (cs : List Char) : Except StampFault Stamp :=
  (stampField.run cs).map Prod.fst

end Stamp

end Reconcile
