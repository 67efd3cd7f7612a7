import AuditTables.Text.Unprintable

/-!
# `AuditTables.Text.Quoted`: text shown between quotation marks

Messages show a piece of input between quotation marks, with every character
that would be misread written as an escape: the mark itself, the backslash, and
whatever does not stand for itself (`isUnprintable`). The apostrophe is left
alone.
-/

set_option autoImplicit false

namespace AuditTables.Text

namespace Quoted

/-- The number of a character in lowercase hexadecimal, without leading zeros. -/
def hexadecimal (n : Nat) : List Char := Nat.toDigits 16 n

/-- One character as a quoted text shows it. -/
def escape (c : Char) : List Char :=
  if c = '\x00' then ['\\', '0']
  else if c = '\t' then ['\\', 't']
  else if c = '\r' then ['\\', 'r']
  else if c = '\n' then ['\\', 'n']
  else if c = '"' ∨ c = '\\' then ['\\', c]
  else if isUnprintable c then ['\\', 'u', '\x7b'] ++ hexadecimal c.toNat ++ ['\x7d']
  else [c]

end Quoted

/-- A string between quotation marks. -/
def quoted (s : String) : String :=
  String.ofList ('"' :: s.toList.flatMap Quoted.escape ++ ['"'])

end AuditTables.Text
