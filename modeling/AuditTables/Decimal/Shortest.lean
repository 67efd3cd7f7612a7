import AuditTables.Decimal.Binary64

/-!
# `AuditTables.Decimal.Shortest`: the shortest text that reads back

A finite double is written with the fewest digits that read back as the same
double, and of those with the digits nearest to it. `shortest` looks for them on
one decimal grid after another: on the grid of one digit, of two, up to
seventeen, which always suffice. On each grid only the two neighbours of the
double can be nearest, so these are read back and compared.

How the digits are laid out is a `Layout`. JSON writes an exponent for very
large and very small numbers and always shows a point; settings write every
number positionally and whole numbers without a point. Of two shortest texts at
the same distance JSON writes the one that ends in an even digit, settings the
greater one.
-/

set_option autoImplicit false

namespace AuditTables.Decimal

/-- A positive decimal number `digits * 10 ^ power`. -/
structure Scaled where
  digits : Nat
  power : Int
  deriving DecidableEq, Repr

namespace Binary64

/-- The number of decimal digits before the point of a positive quotient, when
it is at least one; minus the zeros after the point otherwise. -/
def decimalExponent (num den : Nat) : Int :=
  let guess := Int.ofNat (digitCount num) - Int.ofNat (digitCount den)
  let (above, below) := powerRatio 10 guess
  if den * above ≤ num * below then guess + 1 else guess

/-- A point of the grid of `count` digits. The point just above the grid is the
next power of ten, which has a single digit. -/
def gridPoint (count : Nat) (power : Int) (digits : Nat) : Scaled :=
  if digits = Nat.pow 10 count then ⟨1, power + Int.ofNat count⟩ else ⟨digits, power⟩

/-- The neighbour of a double on the decimal grid of `count` digits that reads
back, the nearer one if both do. -/
def onGrid (tie : Tie) (x : Binary64) (count : Nat) : Option Scaled :=
  let (num, den) := x.ratio
  let power := decimalExponent num den - Int.ofNat count
  let (above, below) := powerRatio 10 power
  let low := num * below / (den * above)
  let readsBack (digits : Nat) : Bool := (ofDecimal false digits power).magnitude == x.magnitude
  match readsBack low, readsBack (low + 1) with
  | true, true => some (gridPoint count power (roundHalf tie (num * below) (den * above)))
  | true, false => some (gridPoint count power low)
  | false, true => some (gridPoint count power (low + 1))
  | false, false => none

/-- The fewest digits that read back as a positive finite double. -/
def shortest (tie : Tie) (x : Binary64) : Scaled :=
  ((List.range 17).findSome? fun n => onGrid tie x (n + 1)).getD ⟨x.significand, 0⟩

end Binary64

/-- How the digits of a number are laid out. -/
structure Layout where
  /-- The decimal exponents, first one included and last one not, that are
  written positionally; all of them if there is none. -/
  positional : Option (Int × Int)
  /-- Whether a whole number is written with a point and a zero. -/
  pointAlways : Bool
  /-- Which of two shortest texts is written that are equally near. -/
  tie : Binary64.Tie
  deriving DecidableEq, Repr

namespace Layout

/-- JSON writes `1.0`, `0.00001` and `1e+16`. -/
def json : Layout := ⟨some (-5, 16), true, .toEven⟩

/-- Settings write `1`, `1.5` and never an exponent. -/
def plain : Layout := ⟨none, false, .up⟩

/-- Digits with the point put in its place. -/
def place (layout : Layout) (digits : List Char) (power : Int) : List Char :=
  let before := Int.ofNat digits.length + power
  if 0 ≤ power then
    digits ++ List.replicate power.toNat '0' ++ (if layout.pointAlways then ['.', '0'] else [])
  else if 0 < before then
    digits.take before.toNat ++ '.' :: digits.drop before.toNat
  else
    '0' :: '.' :: List.replicate (-before).toNat '0' ++ digits

/-- Digits with one before the point and an exponent, whose sign is always
written. -/
def scientific (digits : List Char) (exponent : Int) : List Char :=
  let fraction := match digits.drop 1 with
    | [] => []
    | rest => '.' :: rest
  digits.take 1 ++ fraction ++ ['e', if 0 ≤ exponent then '+' else '-']
    ++ Nat.toDigits 10 exponent.natAbs

/-- A positive number in this layout. -/
def writeScaled (layout : Layout) (n : Scaled) : List Char :=
  let digits := Nat.toDigits 10 n.digits
  let exponent := Int.ofNat digits.length + n.power - 1
  let positional := match layout.positional with
    | none => true
    | some (first, last) => first ≤ exponent && exponent < last
  if positional then layout.place digits n.power else scientific digits exponent

/-- A finite double in this layout. Zero keeps its sign. -/
def write (layout : Layout) (x : Binary64) : List Char :=
  let size := if x.isZero then layout.place ['0'] 0 else layout.writeScaled (x.shortest layout.tie)
  if x.isNegative then '-' :: size else size

end Layout

end AuditTables.Decimal
