import AuditTables.Decimal.Binary64
import AuditTables.Decimal.Integer

/-!
# `AuditTables.Decimal.Reading`: doubles from decimal text

A double is written as an optional sign and then either a word (`inf`,
`infinity` or `nan`, in any case) or decimal digits with an optional point and
an optional exponent. A digit has to stand on at least one side of the point,
and at least one in the exponent. The result is the nearest double.
-/

set_option autoImplicit false

namespace AuditTables.Decimal

/-- The letters of a word in lowercase, for ASCII letters. -/
def lowerAscii (cs : List Char) : List Char := cs.map Char.toLower

/-- The number that an exponent part stands for. An empty part is zero. -/
def readExponent : List Char → Option Int
  | [] => some 0
  | c :: rest =>
    if c = 'e' ∨ c = 'E' then readSigned 10 rest else none

/-- A number without sign: digits, a point, digits, an exponent. -/
def readUnsigned (negative : Bool) (cs : List Char) : Option Binary64 :=
  let whole := cs.takeWhile isDigit
  let afterWhole := cs.dropWhile isDigit
  let (fraction, tail) := match afterWhole with
    | '.' :: rest => (rest.takeWhile isDigit, rest.dropWhile isDigit)
    | _ => ([], afterWhole)
  match readNatural 10 (whole ++ fraction), readExponent tail with
  | some digits, some e =>
    some (Binary64.ofDecimal negative digits (e - Int.ofNat fraction.length))
  | _, _ => none

/-- A number or a word, after the sign. -/
def readMagnitude (negative : Bool) (cs : List Char) : Option Binary64 :=
  let word := String.ofList (lowerAscii cs)
  if word = "inf" ∨ word = "infinity" then some (Binary64.infinity negative)
  else if word = "nan" then some Binary64.notANumber
  else readUnsigned negative cs

/-- The double that a text stands for, if it is the text of one. -/
def readBinary64 : List Char → Option Binary64
  | '+' :: cs => readMagnitude false cs
  | '-' :: cs => readMagnitude true cs
  | cs => readMagnitude false cs

end AuditTables.Decimal
