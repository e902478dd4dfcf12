import Reconcile.Decimal.Shortest
import Reconcile.Json.Fault

/-!
# JSON numbers

A number without fraction and exponent that fits 64 bits is an integer. Any other number is a
binary number: its digits are collected into 64 bits as far as they fit, and then scaled by a power
of ten. Such a number is never wanted here, so only its text is kept, for the message.
-/

namespace Reconcile.Json

open Decimal

inductive Numeral where
  | integer (n : Int)
  | real (text : String)
deriving DecidableEq, Repr

def digitValue (c : Char) : Nat :=
  c.toNat - '0'.toNat

/-- Digits collected into 64 bits, and the power of ten by which they count. -/
structure Collected where
  significand : Nat := 0
  exponent : Int := 0
deriving DecidableEq, Repr

namespace Collected

def fits (c : Collected) (d : Char) : Bool :=
  c.significand * 10 + digitValue d < Word.limit64

/-- Digits before the point. From the first one that does not fit, digits only raise the power. -/
def whole (c : Collected) : List Char → Collected
  | [] => c
  | d :: rest =>
    if c.exponent = 0 && c.fits d then
      whole { c with significand := c.significand * 10 + digitValue d } rest
    else whole { c with exponent := c.exponent + 1 } rest

/-- Digits after the point. From the first one that does not fit, digits count for nothing. -/
def fraction (c : Collected) : List Char → Collected
  | [] => c
  | d :: rest =>
    if c.fits d then fraction ⟨c.significand * 10 + digitValue d, c.exponent - 1⟩ rest else c

end Collected

/-- Powers of ten up to `10 ^ 308` are applied at once, to a binary number that is rounded. -/
def powerOfTen (n : Nat) : Option Binary :=
  Binary.ofQuotient (tenTo n) 1

/-- A binary number divided by a power of ten, in steps of at most `10 ^ 308`. Three steps reduce
any 64-bit number to zero. -/
def lowered : Nat → Binary → Nat → Option Binary
  | 0, _, _ => some ⟨0, Binary.leastExponent⟩
  | steps + 1, x, n => do
    if n ≤ 308 then x.ratio (← powerOfTen n)
    else if x.mantissa = 0 then return x
    else lowered steps (← x.ratio (← powerOfTen 308)) (n - 308)

/-- The binary number that collected digits stand for, unless it is too large. -/
def Collected.value (c : Collected) : Option Binary := do
  let x ← Binary.ofQuotient c.significand 1
  if 0 ≤ c.exponent then
    if c.exponent ≤ 308 then x.times (← powerOfTen c.exponent.toNat)
    else if c.significand = 0 then return x else none
  else lowered 3 x (-c.exponent).toNat

/-- A binary number as text: in positions between 0.00001 and 10000000000000000, otherwise with an
exponent. -/
def realText (negative : Bool) (x : Binary) : String :=
  let sign := if negative then ['-'] else []
  let body :=
    if x.mantissa = 0 then "0.0".toList
    else
      let s := shortest x
      let digits := Nat.toDigits 10 s.digits
      let point := digits.length + s.exponent
      if 0 ≤ s.exponent ∧ point ≤ 16 then
        digits ++ List.replicate s.exponent.toNat '0' ++ ".0".toList
      else if 0 < point ∧ point ≤ 16 then
        digits.take point.toNat ++ ['.'] ++ digits.drop point.toNat
      else if -5 < point ∧ point ≤ 0 then
        "0.".toList ++ List.replicate (-point).toNat '0' ++ digits
      else
        let exponent := (toString (point - 1)).toList
        match digits with
        | [d] => [d, 'e'] ++ exponent
        | d :: rest => [d, '.'] ++ rest ++ ['e'] ++ exponent
        | [] => []
  String.ofList (sign ++ body)

def Numeral.assemble (negative : Bool) (whole fraction : List Char) (exponent : Int) :
    Except Fault Numeral :=
  let collected := ((({} : Collected).whole whole).fraction fraction)
  if exponent.natAbs ≥ Word.limit31 then
    if collected.significand = 0 ∨ exponent < 0 then
      .ok (.real (realText negative ⟨0, Binary.leastExponent⟩))
    else .error .malformed
  else
    match { collected with exponent := collected.exponent + exponent }.value with
    | some x => .ok (.real (realText negative x))
    | none => .error .malformed

/-- The numeral of a sign and digits without fraction and exponent. Minus zero is no integer. -/
def Numeral.plain (negative : Bool) (whole : List Char) : Except Fault Numeral :=
  let n := whole.foldl (fun n d => n * 10 + digitValue d) 0
  if negative then
    if 0 < n ∧ n ≤ Word.limit63 then .ok (.integer (-n)) else Numeral.assemble true whole [] 0
  else if n < Word.limit64 then .ok (.integer n) else Numeral.assemble false whole [] 0

def someDigits (cs : List Char) : Except Fault (List Char × List Char) :=
  match cs with
  | [] => .error .incomplete
  | c :: _ =>
    if c.isDigit then .ok (cs.takeWhile Char.isDigit, cs.dropWhile Char.isDigit)
    else .error .malformed

/-- Digits before the point; a zero stands alone. -/
def wholeDigits (cs : List Char) : Except Fault (List Char × List Char) := do
  let (digits, rest) ← someDigits cs
  if digits.head? = some '0' && digits.length > 1 then throw .malformed
  return (digits, rest)

def exponentPart (cs : List Char) : Except Fault (Int × List Char) := do
  let (negative, cs) := match cs with
    | '-' :: rest => (true, rest)
    | '+' :: rest => (false, rest)
    | cs => (false, cs)
  let (digits, rest) ← someDigits cs
  let n := digits.foldl (fun n d => n * 10 + digitValue d) 0
  return (if negative then -n else n, rest)

def isExponentLetter (c : Char) : Bool :=
  c = 'e' || c = 'E'

def numeral (negative : Bool) (cs : List Char) : Except Fault (Numeral × List Char) := do
  let (whole, cs) ← wholeDigits cs
  let (fraction, cs) ← match cs with
    | '.' :: rest => someDigits rest
    | cs => pure ([], cs)
  match cs with
  | c :: rest =>
    if isExponentLetter c then
      let (exponent, rest) ← exponentPart rest
      return (← Numeral.assemble negative whole fraction exponent, rest)
    else if fraction = [] then return (← Numeral.plain negative whole, cs)
    else return (← Numeral.assemble negative whole fraction 0, cs)
  | [] =>
    if fraction = [] then return (← Numeral.plain negative whole, [])
    else return (← Numeral.assemble negative whole fraction 0, [])

/-- What is left behind a number whose value does not matter; a number cut short is malformed. -/
def skipNumeral (cs : List Char) : Except Fault (List Char) := do
  let digitsOf (cs : List Char) : Except Fault (List Char × List Char) :=
    match cs with
    | [] => .error .malformed
    | cs => someDigits cs
  let (whole, cs) ← digitsOf cs
  if whole.head? = some '0' && whole.length > 1 then throw .malformed
  let cs ← match cs with
    | '.' :: rest => (digitsOf rest).map Prod.snd
    | cs => pure cs
  match cs with
  | c :: rest =>
    if isExponentLetter c then
      match rest with
      | s :: rest' =>
        if s = '+' || s = '-' then (digitsOf rest').map Prod.snd
        else (digitsOf rest).map Prod.snd
      | [] => throw .malformed
    else return cs
  | [] => return []

end Reconcile.Json
