import AuditTables.Decimal.Integer
import AuditTables.Text.Blank

/-!
# `AuditTables.Event.Integer`: whole numbers in event fields

Identifiers and masks are written in decimal, or in hexadecimal after `0x`. The
sign of a hexadecimal number stands after the `0x`. White space around the
number is allowed. A number that takes more than 64 bits is refused.
-/

set_option autoImplicit false

namespace AuditTables.Event

open AuditTables.Text AuditTables.Decimal

/-- The whole number of a text without white space around it. -/
def readBareInteger : List Char → Option Int
  | '0' :: 'x' :: digits => readInt64 16 digits
  | '0' :: 'X' :: digits => readInt64 16 digits
  | digits => readInt64 10 digits

/-- The whole number that a field stands for. -/
def readInteger (raw : String) : Option Int := readBareInteger (trim raw.toList)

end AuditTables.Event
