import AuditTables.Decimal.Shortest
import AuditTables.Json.Value

/-!
# `AuditTables.Json.Printer`: compact JSON text

Values are written without any white space. A string escapes the quotation
mark, the backslash and the characters below U+0020 and nothing else, so all
other text stands as it is and no printed value contains a line break. A double
that is no number is written `null`.
-/

set_option autoImplicit false

namespace AuditTables.Json

open AuditTables.Decimal

/-- A hexadecimal digit in lowercase. -/
def hexDigit (n : Nat) : Char := Nat.digitChar n

/-- One character inside a JSON string. -/
def escape (c : Char) : List Char :=
  if c = '"' then ['\\', '"']
  else if c = '\\' then ['\\', '\\']
  else if c = '\x08' then ['\\', 'b']
  else if c = '\t' then ['\\', 't']
  else if c = '\n' then ['\\', 'n']
  else if c = '\x0c' then ['\\', 'f']
  else if c = '\r' then ['\\', 'r']
  else if c.toNat < 0x20 then
    ['\\', 'u', '0', '0', hexDigit (c.toNat / 16), hexDigit (c.toNat % 16)]
  else [c]

/-- A JSON string. -/
def printText (s : String) : List Char :=
  '"' :: s.toList.flatMap escape ++ ['"']

/-- A whole number in decimal. -/
def printWhole (n : Int) : List Char :=
  if n < 0 then '-' :: Nat.toDigits 10 n.natAbs else Nat.toDigits 10 n.natAbs

/-- A double, or `null` for one that is no finite number. -/
def printDouble (x : Binary64) : List Char :=
  if x.isFinite then Layout.json.write x else ['n', 'u', 'l', 'l']

/-- A JSON number. -/
def Number.print : Number → List Char
  | .whole n => printWhole n
  | .double x => printDouble x

mutual

/-- A JSON value, compact. -/
def Value.print : Value → List Char
  | .null => ['n', 'u', 'l', 'l']
  | .boolean true => ['t', 'r', 'u', 'e']
  | .boolean false => ['f', 'a', 'l', 's', 'e']
  | .number n => n.print
  | .text s => printText s
  | .list items => '[' :: printItems items ++ [']']
  | .object entries => '\x7b' :: printEntries entries ++ ['\x7d']

/-- The items of a list, with commas between them. -/
def printItems : List Value → List Char
  | [] => []
  | [v] => v.print
  | v :: w :: rest => v.print ++ ',' :: printItems (w :: rest)

/-- The entries of an object, with commas between them. -/
def printEntries : List (String × Value) → List Char
  | [] => []
  | [(k, v)] => printText k ++ ':' :: v.print
  | (k, v) :: e :: rest => printText k ++ ':' :: v.print ++ ',' :: printEntries (e :: rest)

end

/-- A JSON value as a string. -/
def Value.render (v : Value) : String := String.ofList v.print

end AuditTables.Json
