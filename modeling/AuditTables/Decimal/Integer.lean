/-!
# `AuditTables.Decimal.Integer`: reading whole numbers

A whole number is written as digits of some radix, at least one, with at most
one sign before them. Nothing else may stand in the text: no blank, no
separator, no second sign. A number outside the range asked for is refused, not
wrapped.
-/

set_option autoImplicit false

namespace AuditTables.Decimal

/-- The value of a digit in any radix up to sixteen, in either case. -/
def digitValue (c : Char) : Option Nat :=
  if '0' ≤ c ∧ c ≤ '9' then some (c.toNat - '0'.toNat)
  else if 'a' ≤ c ∧ c ≤ 'f' then some (c.toNat - 'a'.toNat + 10)
  else if 'A' ≤ c ∧ c ≤ 'F' then some (c.toNat - 'A'.toNat + 10)
  else none

/-- The value of a digit of the given radix. -/
def digitOf (radix : Nat) (c : Char) : Option Nat :=
  (digitValue c).filter (· < radix)

/-- Whether a character is an ASCII decimal digit. -/
def isDigit (c : Char) : Bool := '0' ≤ c && c ≤ '9'

/-- Digits read on from the value of those before them. -/
def readDigits (radix : Nat) : Nat → List Char → Option Nat
  | n, [] => some n
  | n, c :: cs =>
    match digitOf radix c with
    | none => none
    | some d => readDigits radix (n * radix + d) cs

/-- A number without a sign: one digit or more. -/
def readNatural (radix : Nat) : List Char → Option Nat
  | [] => none
  | c :: cs => readDigits radix 0 (c :: cs)

/-- A number with at most one sign. -/
def readSigned (radix : Nat) : List Char → Option Int
  | '+' :: cs => (readNatural radix cs).map Int.ofNat
  | '-' :: cs => (readNatural radix cs).map fun n => -Int.ofNat n
  | cs => (readNatural radix cs).map Int.ofNat

/-- The least signed number of 64 bits. -/
def int64Min : Int := -9223372036854775808

/-- The greatest signed number of 64 bits. -/
def int64Max : Int := 9223372036854775807

/-- The greatest unsigned number of 64 bits. -/
def word64Max : Nat := 18446744073709551615

/-- Whether a number has a signed form of 64 bits. -/
def inInt64 (n : Int) : Bool := int64Min ≤ n && n ≤ int64Max

/-- A signed number of 64 bits in the given radix. -/
def readInt64 (radix : Nat) (cs : List Char) : Option Int :=
  (readSigned radix cs).filter inInt64

/-- An unsigned decimal number of 64 bits. A plus sign may stand before it. -/
def readWord64 (cs : List Char) : Option Nat :=
  let digits := match cs with
    | '+' :: rest => rest
    | _ => cs
  (readNatural 10 digits).filter (· ≤ word64Max)

end AuditTables.Decimal
