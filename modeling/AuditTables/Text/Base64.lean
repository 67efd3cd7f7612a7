/-!
# `AuditTables.Text.Base64`: octets as text

Three octets are written as four letters of six bits each. One or two octets at
the end are written with as many letters as they need, filled up to four with
equals signs.
-/

set_option autoImplicit false

namespace AuditTables.Text.Base64

/-- The letters for the numbers from 0 to 63. -/
def alphabet : List Char :=
  "ABCDEFGHIJKLMNOPQRSTUVWXYZabcdefghijklmnopqrstuvwxyz0123456789+/".toList

/-- The letter for the lowest six bits of a number. -/
def letter (n : Nat) : Char := alphabet.getD (n % 64) '='

/-- Octets as letters. -/
def encode : List UInt8 → List Char
  | a :: b :: c :: rest =>
    let n := a.toNat * 65536 + b.toNat * 256 + c.toNat
    letter (n / 262144) :: letter (n / 4096) :: letter (n / 64) :: letter n :: encode rest
  | [a, b] =>
    let n := a.toNat * 256 + b.toNat
    [letter (n / 1024), letter (n / 16), letter (n * 4), '=']
  | [a] => [letter (a.toNat / 4), letter (a.toNat * 16), '=', '=']
  | [] => []

end AuditTables.Text.Base64
