import Reconcile.Word

/-!
# Shortest decimals

A binary number is written with the fewest decimal digits from which the same number is read back,
and among those with the nearest ones. On each grid of decimals only the two neighbours of the
number need to be tried, for if any decimal of the grid reads back, one of these does.
-/

namespace Reconcile.Decimal

structure Scientific where
  digits : Nat
  exponent : Int
deriving DecidableEq, Repr

def readsBack (x : Binary) (digits : Nat) (exponent : Int) : Bool :=
  let read :=
    if 0 ≤ exponent then Binary.ofQuotient (digits * tenTo exponent.toNat) 1
    else Binary.ofQuotient digits (tenTo (-exponent).toNat)
  read = some x

/-- The decimal at or below a number on the grid of `10 ^ exponent`, and how far the number lies
above it and below the next one, both in one unit that depends on the number and the grid. -/
def neighbours (x : Binary) (exponent : Int) : Nat × Nat × Nat :=
  let (a, b) := x.quotient
  let (n, d) :=
    if 0 ≤ exponent then (a, b * tenTo exponent.toNat) else (a * tenTo (-exponent).toNat, b)
  (n / d, n % d, d - n % d)

/-- The decimal of a grid that reads back as the number, the nearer one if both do and the even one
if they are equally near. -/
def onGrid? (x : Binary) (exponent : Int) : Option Scientific :=
  let (low, below, above) := neighbours x exponent
  let lowFits := readsBack x low exponent
  let highFits := readsBack x (low + 1) exponent
  let takeLow := below < above || (below = above && low % 2 = 0)
  if lowFits && (takeLow || !highFits) then some ⟨low, exponent⟩
  else if highFits then some ⟨low + 1, exponent⟩
  else none

/-- The coarsest grid up to a given one on which the number has a decimal, tried for a number of
grids from coarse to fine. -/
def coarsest (x : Binary) : Nat → Int → Scientific
  | 0, exponent => ⟨0, exponent⟩
  | grids + 1, exponent => (onGrid? x exponent).getD (coarsest x grids (exponent - 1))

/-- The power of ten just above a positive number. -/
def magnitude (x : Binary) : Int :=
  let (a, b) := x.quotient
  if b ≤ a then (Nat.toDigits 10 (a / b)).length
  else
    let zeros := (Nat.toDigits 10 (b / a)).length
    if b ≤ a * tenTo (zeros - 1) then 2 - zeros else 1 - zeros

/-- The shortest decimal of a positive number. Nineteen grids always suffice. -/
def shortest (x : Binary) : Scientific :=
  coarsest x 19 (magnitude x)

end Reconcile.Decimal
