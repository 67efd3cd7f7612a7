/-!
# `AuditTables.Decimal.Binary64`: double-precision numbers

A double is its 64 bits, read as IEEE 754 reads them. All arithmetic here is on
natural numbers: a finite double is a significand times a power of two, hence a
quotient, and `ofRatio` gives the double nearest to a quotient, a tie going to
the even significand. Products and quotients of doubles are then exact quotients
rounded once, which is what the standard asks of them.
-/

set_option autoImplicit false

namespace AuditTables.Decimal

/-- A double-precision number, as its bits. -/
structure Binary64 where
  bits : UInt64
  deriving DecidableEq, Repr

namespace Binary64

/-- The weight of the sign bit. -/
def signBit : Nat := Nat.pow 2 63

/-- The bits of infinity, sign aside. Finite magnitudes lie below, and the
bits above belong to no number. -/
def infinityBits : Nat := 2047 * Nat.pow 2 52

/-- A double from its sign and the rest of its bits. -/
def ofMagnitude (negative : Bool) (magnitude : Nat) : Binary64 :=
  ⟨UInt64.ofNat (magnitude + if negative then signBit else 0)⟩

def zero (negative : Bool) : Binary64 := ofMagnitude negative 0

def infinity (negative : Bool) : Binary64 := ofMagnitude negative infinityBits

/-- The double that stands for no number. -/
def notANumber : Binary64 := ofMagnitude false (infinityBits + Nat.pow 2 51)

def isNegative (x : Binary64) : Bool := signBit ≤ x.bits.toNat

/-- The bits without the sign. -/
def magnitude (x : Binary64) : Nat := x.bits.toNat % signBit

def isFinite (x : Binary64) : Bool := x.magnitude < infinityBits

def isInfinite (x : Binary64) : Bool := x.magnitude == infinityBits

def isZero (x : Binary64) : Bool := x.magnitude == 0

/-- The same number with the other sign. -/
def negate (x : Binary64) : Binary64 := ofMagnitude (!x.isNegative) x.magnitude

/-- The significand of a finite double: its fraction, with the leading bit that
is not stored put back unless the double is subnormal. -/
def significand (x : Binary64) : Nat :=
  if x.magnitude < Nat.pow 2 52 then x.magnitude
  else x.magnitude % Nat.pow 2 52 + Nat.pow 2 52

/-- The power of two that the significand of a finite double counts in. -/
def exponent (x : Binary64) : Int :=
  if x.magnitude < Nat.pow 2 52 then -1074
  else Int.ofNat (x.magnitude / Nat.pow 2 52) - 1075

/-- The power of two `2 ^ e` as a quotient of two natural numbers. -/
def powerRatio (base : Nat) (e : Int) : Nat × Nat :=
  if 0 ≤ e then (base.pow e.toNat, 1) else (1, base.pow (-e).toNat)

/-- The size of a finite double as a quotient. -/
def ratio (x : Binary64) : Nat × Nat :=
  let (above, below) := powerRatio 2 x.exponent
  (x.significand * above, below)

/-- Which of two whole numbers a quotient halfway between them is rounded to. -/
inductive Tie where
  | toEven
  | up
  deriving DecidableEq, Repr

/-- The whole number nearest to a quotient. -/
def roundHalf (tie : Tie) (num den : Nat) : Nat :=
  let q := num / den
  let r := num % den
  if 2 * r < den then q
  else if den < 2 * r then q + 1
  else match tie with
    | .toEven => q + q % 2
    | .up => q + 1

/-- The exponent of the greatest power of two that is no more than a quotient of
positive numbers. -/
def binaryExponent (num den : Nat) : Int :=
  let k := Int.ofNat num.log2 - Int.ofNat den.log2
  let (above, below) := powerRatio 2 k
  if num * below < den * above then k - 1 else k

/-- The double nearest to a quotient. Its significand is the quotient counted in
the last place a double of that size has; counting up past the largest
significand carries into the exponent by itself, and past the largest exponent
it is infinity. -/
def ofRatio (negative : Bool) (num den : Nat) : Binary64 :=
  if num = 0 then zero negative
  else
    let place := max (binaryExponent num den - 52) (-1074)
    let (above, below) := powerRatio 2 place
    let q := roundHalf .toEven (num * below) (den * above)
    ofMagnitude negative (min infinityBits ((place + 1074).toNat * Nat.pow 2 52 + q))

/-- The double nearest to a natural number. -/
def ofNat (n : Nat) : Binary64 := ofRatio false n 1

/-- How many decimal digits a natural number has. -/
def digitCount (n : Nat) : Nat := (Nat.toDigits 10 n).length

/-- The double nearest to `digits * 10 ^ e`. Numbers far outside the range of
doubles are decided by their size alone, so an exponent of any length costs
nothing. -/
def ofDecimal (negative : Bool) (digits : Nat) (e : Int) : Binary64 :=
  let size := Int.ofNat (digitCount digits) + e
  if digits = 0 then zero negative
  else if 400 < size then infinity negative
  else if size < -400 then zero negative
  else
    let (above, below) := powerRatio 10 e
    ofRatio negative (digits * above) below

/-- The product of the sizes of two finite doubles, rounded once. -/
def mulSize (x y : Binary64) : Binary64 :=
  let (a, b) := x.ratio
  let (c, d) := y.ratio
  ofRatio false (a * c) (b * d)

/-- The quotient of the sizes of two finite doubles, rounded once. -/
def divSize (x y : Binary64) : Binary64 :=
  let (a, b) := x.ratio
  let (c, d) := y.ratio
  ofRatio false (a * d) (b * c)

/-- The whole number nearest to the size of a finite double. A half goes away
from zero. -/
def roundSize (x : Binary64) : Nat :=
  let (a, b) := x.ratio
  (2 * a + b) / (2 * b)

end Binary64

end AuditTables.Decimal
