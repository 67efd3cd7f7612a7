import AuditTables.Decimal.Reading
import AuditTables.Settings.Toml.Text

/-!
# `AuditTables.Settings.Toml.Number`: numbers

A whole number is decimal, with an optional sign and no needless zero in front,
or hexadecimal, octal or binary after `0x`, `0o` or `0b`. A double has a
fraction, an exponent or both, or is one of the words `inf` and `nan`. Single
underscores may stand between digits. A whole number has to fit 64 bits; a
double beyond the greatest is refused, but one below the least is not.
-/

set_option autoImplicit false

namespace AuditTables.Settings.Toml

open Reader AuditTables.Decimal

/-- A sign. -/
def isSign (c : Char) : Bool := c == '+' || c == '-'

/-- A sign, if there is one. -/
def sign : Reader (List Char) := do
  let taken ← perhaps (one isSign)
  pure taken.toList

/-- Digits that follow others, with single underscores between. The underscores
are left out. -/
def moreDigits (isMember : Char → Bool) : Reader (List Char) :=
  many (either (one isMember) do
    mark '_'
    expecting "digit" (commit (one isMember)))

/-- Digits with single underscores between. -/
def digits (isMember : Char → Bool) : Reader (List Char) := do
  let first ← one isMember
  let rest ← moreDigits isMember
  pure (first :: rest)

/-- A decimal whole number, with its sign. -/
def decimal : Reader (List Char) := label "integer" do
  let before ← sign
  let size ← either
    (do
      let first ← one fun c => Decimal.isDigit c && c != '0'
      let rest ← moreDigits Decimal.isDigit
      pure (first :: rest))
    (do
      let only ← one Decimal.isDigit
      pure [only])
  pure (before ++ size)

/-- The number of a text within 64 bits. -/
def int64Of (radix : Nat) (cs : List Char) : Except (Option String) Int :=
  match readSigned radix cs with
  | none => .error none
  | some n =>
    if n < int64Min then .error (some "number too small to fit in target type")
    else if int64Max < n then .error (some "number too large to fit in target type")
    else .ok n

/-- A whole number in a radix, after a zero and a letter. -/
def inRadix (letter : Char) (radix : Nat) (name : String) : Reader Int :=
  commit (check
    (label name do
      mark '0'
      mark letter
      commit (digits fun c => (digitOf radix c).isSome))
    (int64Of radix))

/-- A whole number. -/
def whole : Reader Int := fun cs =>
  match cs with
  | '0' :: 'x' :: _ => inRadix 'x' 16 "hexadecimal integer" cs
  | '0' :: 'o' :: _ => inRadix 'o' 8 "octal integer" cs
  | '0' :: 'b' :: _ => inRadix 'b' 2 "binary integer" cs
  | _ => settle decimal (int64Of 10) cs

/-- The digits after a point. -/
def fraction : Reader (List Char) := do
  mark '.'
  let ds ← expecting "digit" (commit (digits Decimal.isDigit))
  pure ('.' :: ds)

/-- An exponent. -/
def power : Reader (List Char) := do
  let _ ← one fun c => c == 'e' || c == 'E'
  let before ← sign
  let ds ← commit (digits Decimal.isDigit)
  pure ('e' :: before ++ ds)

/-- A double in digits. -/
def pointed : Reader (List Char) := do
  let before ← decimal
  let tail ← either power do
    let fs ← fraction
    let e ← perhaps power
    pure (fs ++ e.getD [])
  pure (before ++ tail)

/-- A double of digits, if it is not beyond the greatest. -/
def boundedOf (cs : List Char) : Except (Option String) Binary64 :=
  match readBinary64 cs with
  | none => .error none
  | some x => if x = Binary64.infinity false then .error none else .ok x

/-- A double of digits. -/
def measured : Reader Binary64 := settle pointed boundedOf

/-- A double in a word. -/
def worded : Reader Binary64 := do
  let before ← sign
  either (do word "inf"; pure (Binary64.infinity (before == ['-'])))
    (do word "nan"; pure Binary64.notANumber)

/-- A double. -/
def real : Reader Binary64 := label "floating-point number" (either measured worded)

end AuditTables.Settings.Toml
