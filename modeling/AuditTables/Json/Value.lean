import AuditTables.Decimal.Binary64
import AuditTables.Keyed

/-!
# `AuditTables.Json.Value`: JSON values

A number is a whole number of 64 bits, signed or unsigned, or a double; which of
the two it is was decided when it was read and is never revised. The entries of
an object stand under ascending keys.
-/

set_option autoImplicit false

namespace AuditTables.Json

open AuditTables.Decimal

/-- A JSON number. A whole one lies between the least signed and the greatest
unsigned number of 64 bits. -/
inductive Number where
  | whole (n : Int)
  | double (x : Binary64)
  deriving DecidableEq, Repr

/-- A JSON value. -/
inductive Value where
  | null
  | boolean (b : Bool)
  | number (n : Number)
  | text (s : String)
  | list (items : List Value)
  | object (entries : List (String × Value))
  deriving Repr, Inhabited

namespace Value

/-- The text of a JSON string, and of nothing else. -/
def asText : Value → Option String
  | .text s => some s
  | _ => none

end Value

end AuditTables.Json
