import AuditTables.Decimal.Integer
import AuditTables.Octets
import AuditTables.Text.Blank

/-!
# `AuditTables.Flow.Address`: network addresses

An address has 32 bits or 128. The short form is four decimal numbers with
points between them, none with a needless zero in front. The long form is eight
groups of hexadecimal digits with colons between them; one run of zero groups,
at least one group long, may be left out between two colons, and the last two
groups may be written in the short form.

Short addresses come before long ones, and addresses of one length are ordered
as numbers.
-/

set_option autoImplicit false

namespace AuditTables.Flow

open AuditTables.Text AuditTables.Decimal

/-- A network address. -/
inductive Address where
  | short (bits : BitVec 32)
  | long (bits : BitVec 128)
  deriving DecidableEq, Repr

namespace Address

/-- The octets of an address, in the order they are sent. -/
def octets : Address → List UInt8
  | short bits => bigEndian 4 bits.toNat
  | long bits => bigEndian 16 bits.toNat

/-- The order of addresses. -/
def lt : Address → Address → Bool
  | short a, short b => a.toNat < b.toNat
  | short _, long _ => true
  | long _, short _ => false
  | long a, long b => a.toNat < b.toNat

/-- The pieces of a text between the separators in it. -/
def pieces (separator : Char) : List Char → List (List Char)
  | [] => [[]]
  | c :: cs =>
    if c = separator then [] :: pieces separator cs
    else match pieces separator cs with
      | [] => [[c]]
      | p :: ps => (c :: p) :: ps

/-- One of the four numbers of a short address. -/
def readOctet (cs : List Char) : Option Nat :=
  if cs.length ≤ 3 ∧ (cs.head? ≠ some '0' ∨ cs.length = 1) then
    (readNatural 10 cs).filter (· ≤ 255)
  else none

/-- The number that digits in some base make. -/
def joinDigits (base : Nat) (digits : List Nat) : Nat :=
  digits.foldl (fun n d => n * base + d) 0

/-- The number of a short address. -/
def readShort (cs : List Char) : Option Nat :=
  match (pieces '.' cs).mapM readOctet with
  | some [a, b, c, d] => some (joinDigits 256 [a, b, c, d])
  | _ => none

/-- One group of a long address. -/
def readGroup (cs : List Char) : Option Nat :=
  if cs.length ≤ 4 then readNatural 16 cs else none

/-- Groups of which the last may be a short address, which counts as two. -/
def readTail : List (List Char) → Option (List Nat)
  | [] => some []
  | [last] =>
    match readShort last with
    | some n => some [n / 65536, n % 65536]
    | none => (readGroup last).map ([·])
  | g :: rest =>
    match readGroup g, readTail rest with
    | some n, some ns => some (n :: ns)
    | _, _ => none

/-- The groups of a text, none if it is empty. -/
def groups (cs : List Char) : List (List Char) := if cs = [] then [] else pieces ':' cs

/-- A text cut at its first pair of colons. -/
def cutGap : List Char → Option (List Char × List Char)
  | ':' :: ':' :: rest => some ([], rest)
  | c :: cs => (cutGap cs).map fun (a, b) => (c :: a, b)
  | [] => none

/-- The eight groups of a long address. -/
def readGroups (cs : List Char) : Option (List Nat) :=
  match cutGap cs with
  | none => (readTail (groups cs)).filter (·.length == 8)
  | some (left, right) =>
    match (groups left).mapM readGroup, readTail (groups right) with
    | some a, some b =>
      if a.length + b.length ≤ 7 then
        some (a ++ List.replicate (8 - a.length - b.length) 0 ++ b)
      else none
    | _, _ => none

/-- The address of a text without white space around it. -/
def readBare (cs : List Char) : Option Address :=
  match readShort cs with
  | some n => some (short (BitVec.ofNat 32 n))
  | none => (readGroups cs).map fun g => long (BitVec.ofNat 128 (joinDigits 65536 g))

/-- The address that a text stands for. White space around it is allowed. -/
def read (s : String) : Option Address := readBare (trim s.toList)

end Address

end AuditTables.Flow
