/-!
# Numbers in words

How far counts reach that are kept in words of a fixed number of bits, and the finite
non-negative numbers of the binary format with 53 significant bits.

The counts below `limit64` and `limit32` fit 64 and 32 bits, those below `limit63` and
`limit31` do so beside a sign. Where a count is kept in a word, it is said there what
happens if it does not fit. It is wrapped around by `next32` and nowhere else.
-/

namespace Reconcile

def twoTo (n : Nat) : Nat := Nat.pow 2 n

def tenTo (n : Nat) : Nat := Nat.pow 10 n

/-! ## Whole numbers -/

namespace Word

def limit64 : Nat := twoTo 64

def limit63 : Nat := twoTo 63

def limit32 : Nat := twoTo 32

def limit31 : Nat := twoTo 31

/-- A counter of 32 bits, one further. A full one starts again from nothing; where
sums are checked, the program that counts stops there instead. -/
def next32 (n : Nat) : Nat := (n + 1) % limit32

theorem next32_mod (n : Nat) : next32 (n % limit32) = (n + 1) % limit32 :=
  Nat.mod_add_mod n limit32 1

end Word

/-! ## Binary numbers -/

namespace Decimal

/-- The number `mantissa * 2 ^ exponent`. -/
structure Binary where
  mantissa : Nat
  exponent : Int
deriving DecidableEq, Repr

namespace Binary

def precision : Nat := 53

def leastExponent : Int := -1074

def greatestExponent : Int := 971

/-- The quotient `a / b` rounded to the nearest natural number, a half to the even one. -/
def roundQuotient (a b : Nat) : Nat :=
  let q := a / b
  let r := a % b
  if 2 * r < b ∨ (2 * r = b ∧ q % 2 = 0) then q else q + 1

def scaled (a b : Nat) (e : Int) : Nat × Nat :=
  if 0 ≤ e then (a, b * twoTo e.toNat) else (a * twoTo (-e).toNat, b)

/-- The nearest number to `a / b`, or `none` when it is too large to be finite. -/
def ofQuotient (a b : Nat) : Option Binary :=
  if a = 0 then some ⟨0, leastExponent⟩ else
  let estimate : Int := (Nat.log2 a : Int) - Nat.log2 b - precision
  let exponent := max estimate leastExponent
  let (n, d) := scaled a b exponent
  let exponent := if n / d < twoTo precision then exponent else exponent + 1
  let (n, d) := scaled a b exponent
  let mantissa := roundQuotient n d
  let result : Binary :=
    if mantissa < twoTo precision then ⟨mantissa, exponent⟩
    else ⟨twoTo (precision - 1), exponent + 1⟩
  if result.exponent ≤ greatestExponent then some result else none

def quotient (x : Binary) : Nat × Nat :=
  scaled x.mantissa 1 (-x.exponent)

def times (x y : Binary) : Option Binary :=
  let (a, b) := x.quotient
  let (c, d) := y.quotient
  ofQuotient (a * c) (b * d)

def ratio (x y : Binary) : Option Binary :=
  let (a, b) := x.quotient
  let (c, d) := y.quotient
  ofQuotient (a * d) (b * c)

end Binary

end Decimal

end Reconcile
