import AuditTables.Decimal.Integer
import AuditTables.Json.Value

/-!
# `AuditTables.Json.Number`: reading a JSON number

A JSON number is read digit by digit. `Scan` is where such a reading stands:
what has been read of the number and what may follow. A whole number that fits
64 bits stays whole. A fraction, an exponent, a longer number and the number
minus zero become doubles.

A double is made from the digits that fit a word of 64 bits, later digits
counting only for their places. The word is rounded to a double and multiplied
or divided by a power of ten in double arithmetic (`scale`), so the last bit can
differ from that of the nearest double.
-/

set_option autoImplicit false

namespace AuditTables.Json

open AuditTables.Decimal

/-- The digits read of a number: those that fit a word, and the power of ten
they count in. -/
structure Digits where
  word : Nat
  power : Int
  deriving DecidableEq, Repr

/-- The power of ten `10 ^ n` as a double. -/
def powerOfTen (n : Nat) : Binary64 := Binary64.ofRatio false (Nat.pow 10 n) 1

/-- A size divided by a power of ten. Powers that no double holds are divided
by in parts of 308 places. -/
def scaleDown (x : Binary64) (n : Nat) : Binary64 :=
  if n ≤ 308 then x.divSize (powerOfTen n)
  else if x.isZero then x
  else scaleDown (x.divSize (powerOfTen 308)) (n - 308)
termination_by n

/-- The double made of digits, unless it is too large for one. -/
def scale (d : Digits) : Option Binary64 :=
  let x := Binary64.ofNat d.word
  if d.power < 0 then some (scaleDown x (-d.power).toNat)
  else if d.power ≤ 308 then (some (x.mulSize (powerOfTen d.power.toNat))).filter (·.isFinite)
  else if x.isZero then some x
  else none

/-- Where the reading of a number stands. -/
inductive Scan where
  /-- After the minus sign. -/
  | sign
  /-- After a leading zero, which no digit may follow. -/
  | zero
  /-- In the digits before the point. -/
  | whole (word : Nat)
  /-- In the digits before the point, past those that fit a word. -/
  | longWhole (d : Digits)
  /-- Just after the point. -/
  | point (d : Digits)
  /-- In the digits after the point. -/
  | fraction (d : Digits)
  /-- In the digits after the point, past those that fit a word. -/
  | longFraction (d : Digits)
  /-- After the letter of the exponent. -/
  | mark (d : Digits)
  /-- After the sign of the exponent. -/
  | markSign (d : Digits) (up : Bool)
  /-- In the digits of the exponent. -/
  | exponent (d : Digits) (up : Bool) (n : Nat)
  /-- In the digits of an exponent so low that the number is zero. -/
  | vanishing
  deriving DecidableEq, Repr

/-- What a character does to the reading of a number. -/
inductive Advance where
  /-- The character belongs to the number. -/
  | read (s : Scan)
  /-- The number ended before the character. -/
  | ended
  /-- The character cannot stand here. -/
  | invalid
  /-- The number became too large for a double with this character. -/
  | tooLarge
  deriving DecidableEq, Repr

/-- The greatest exponent that is counted exactly. -/
def exponentLimit : Nat := 2147483647

namespace Scan

/-- The number that one more digit makes, if it fits a word. -/
def extend (word digit : Nat) : Option Nat :=
  let n := word * 10 + digit
  if n ≤ word64Max then some n else none

/-- A digit of the exponent. -/
def exponentDigit (d : Digits) (up : Bool) (n digit : Nat) : Advance :=
  let m := n * 10 + digit
  if m ≤ exponentLimit then .read (.exponent d up m)
  else if d.word ≠ 0 ∧ up then .tooLarge
  else .read .vanishing

/-- A point, the letter of an exponent, or the end of the number. -/
def afterWhole (d : Digits) (c : Char) : Advance :=
  if c = '.' then .read (.point d)
  else if c = 'e' ∨ c = 'E' then .read (.mark d)
  else .ended

/-- A digit after the point. -/
def fractionDigit (d : Digits) (digit : Nat) : Advance :=
  match extend d.word digit with
  | some word => .read (.fraction ⟨word, d.power - 1⟩)
  | none => .read (.longFraction d)

/-- The letter of an exponent, or the end of the number. -/
def afterFraction (d : Digits) (c : Char) : Advance :=
  if c = 'e' ∨ c = 'E' then .read (.mark d) else .ended

/-- One character. -/
def advance (s : Scan) (c : Char) : Advance :=
  let digit := digitOf 10 c
  match s, digit with
  | .sign, some 0 => .read .zero
  | .sign, some n => .read (.whole n)
  | .sign, none => .invalid
  | .zero, some _ => .invalid
  | .zero, none => afterWhole ⟨0, 0⟩ c
  | .whole word, some n =>
    match extend word n with
    | some longer => .read (.whole longer)
    | none => .read (.longWhole ⟨word, 1⟩)
  | .whole word, none => afterWhole ⟨word, 0⟩ c
  | .longWhole d, some _ => .read (.longWhole ⟨d.word, d.power + 1⟩)
  | .longWhole d, none => afterWhole d c
  | .point d, some n => fractionDigit d n
  | .point _, none => .invalid
  | .fraction d, some n => fractionDigit d n
  | .fraction d, none => afterFraction d c
  | .longFraction d, some _ => .read (.longFraction d)
  | .longFraction d, none => afterFraction d c
  | .mark d, some n => .read (.exponent d true n)
  | .mark d, none =>
    if c = '+' then .read (.markSign d true)
    else if c = '-' then .read (.markSign d false)
    else .invalid
  | .markSign d up, some n => .read (.exponent d up n)
  | .markSign _ _, none => .invalid
  | .exponent d up n, some m => exponentDigit d up n m
  | .exponent _ _ _, none => .ended
  | .vanishing, some _ => .read .vanishing
  | .vanishing, none => .ended

/-- How a reading can end. -/
inductive Verdict where
  | done (n : Number)
  /-- The number stops where a digit has to follow. -/
  | unfinished
  /-- The number is too large for a double. -/
  | tooLarge
  deriving DecidableEq, Repr

/-- The double made of digits, with its sign. -/
def toDouble (negative : Bool) (d : Digits) : Verdict :=
  match scale d with
  | none => .tooLarge
  | some x => .done (.double (if negative then x.negate else x))

/-- A whole number that fits a word, with its sign. -/
def toWhole (negative : Bool) (word : Nat) : Verdict :=
  if negative then
    if word = 0 ∨ 9223372036854775808 < word then .done (.double (Binary64.ofNat word).negate)
    else .done (.whole (-Int.ofNat word))
  else .done (.whole (Int.ofNat word))

/-- The number read when it ends here. -/
def verdict (s : Scan) (negative : Bool) : Verdict :=
  match s with
  | .sign => .unfinished
  | .zero => toWhole negative 0
  | .whole word => toWhole negative word
  | .longWhole d => toDouble negative d
  | .point _ => .unfinished
  | .fraction d => toDouble negative d
  | .longFraction d => toDouble negative d
  | .mark _ => .unfinished
  | .markSign _ _ => .unfinished
  | .exponent d up n =>
    toDouble negative ⟨d.word, if up then d.power + Int.ofNat n else d.power - Int.ofNat n⟩
  | .vanishing => .done (.double (Binary64.zero negative))

end Scan

end AuditTables.Json
