import AuditTables.Decimal.Integer
import AuditTables.Text.Machine
import AuditTables.Text.Utf8
import AuditTables.Xml.Fault

/-!
# `AuditTables.Xml.Reference`: character references

Character data and attribute values may write a character by name or by number
between an ampersand and a semicolon. `resolve` puts the characters in. Five
names are known. A number is written in decimal, at most seven digits, or after
an `x` in hexadecimal, at most six.
-/

set_option autoImplicit false

namespace AuditTables.Xml

open AuditTables.Text AuditTables.Decimal

/-- The characters that have names. -/
def namedCharacter (name : String) : Option Char :=
  if name = "lt" then some '<'
  else if name = "gt" then some '>'
  else if name = "amp" then some '&'
  else if name = "apos" then some '\''
  else if name = "quot" then some '"'
  else none

/-- How a number is written in a reference. -/
structure NumberForm where
  radix : Nat
  /-- How many octets the digits may take. -/
  limit : Nat
  tooLong : ReferenceCause
  badDigit : Char → ReferenceCause

def NumberForm.hexadecimal : NumberForm := ⟨16, 6, .longHexadecimal, .badHexadecimal⟩

def NumberForm.decimal : NumberForm := ⟨10, 7, .longDecimal, .badDecimal⟩

/-- The number that digits stand for, no digits standing for zero. -/
def NumberForm.value (n : NumberForm) (digits : List Char) : Except ReferenceCause Nat :=
  if n.limit < Utf8.byteLength digits then .error n.tooLong
  else
    match digits.find? fun c => (digitOf n.radix c).isNone with
    | some c => .error (n.badDigit (Utf8.leadByte c))
    | none => .ok ((readDigits n.radix 0 digits).getD 0)

/-- The character of a number. -/
def characterOf (start stop n : Nat) : Except ReferenceCause Char :=
  if n = 0 then .error (.null start stop)
  else if n.isValidChar then .ok (Char.ofNat n)
  else .error (.notCharacter n)

/-- The character that a reference stands for. `start` is the position of the
ampersand and `stop` that of the semicolon. -/
def referent (start stop : Nat) (body : List Char) : Except ReferenceCause Char :=
  match body with
  | '#' :: 'x' :: digits => (NumberForm.hexadecimal.value digits).bind (characterOf start stop)
  | '#' :: digits => (NumberForm.decimal.value digits).bind (characterOf start stop)
  | _ =>
    let name := String.ofList body
    match namedCharacter name with
    | some c => .ok c
    | none => .error (.unknown (start + 1) stop name)

/-- A text whose references are being resolved: the octets taken, the
characters written, latest first, and the open reference, if any, as the
position of its ampersand and its characters so far, latest first. -/
structure Resolver where
  offset : Nat
  written : List Char
  opened : Option (Nat × List Char)
  deriving DecidableEq, Repr

namespace Resolver

/-- The resolver before any text. -/
def start : Resolver := ⟨0, [], none⟩

/-- One character of a text of `length` octets. -/
def step (length : Nat) (r : Resolver) (c : Char) : Except ReferenceCause Resolver :=
  let offset := r.offset + c.utf8Size
  match r.opened with
  | none =>
    if c = '&' then .ok ⟨offset, r.written, some (r.offset, [])⟩
    else .ok ⟨offset, c :: r.written, none⟩
  | some (position, body) =>
    if c = '&' then .error (.unterminated position length)
    else if c = ';' then
      (referent position r.offset body.reverse).map fun x => ⟨offset, x :: r.written, none⟩
    else .ok ⟨offset, r.written, some (position, c :: body)⟩

/-- The text when it ends here. -/
def finish (length : Nat) (r : Resolver) : Except ReferenceCause (List Char) :=
  match r.opened with
  | none => .ok r.written.reverse
  | some (position, _) => .error (.unterminated position length)

/-- The resolver of a text of `length` octets as a machine. -/
def machine (length : Nat) : Machine Char Resolver ReferenceCause (List Char) :=
  ⟨step length, finish length⟩

end Resolver

/-- A text with its references replaced by what they stand for. -/
def resolve (text : List Char) : Except ReferenceCause (List Char) :=
  (Resolver.machine (Utf8.byteLength text)).run Resolver.start text

end AuditTables.Xml
