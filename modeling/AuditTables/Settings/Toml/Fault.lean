import AuditTables.Text.Utf8

/-!
# `AuditTables.Settings.Toml.Fault`: why a settings file is not read

A fault knows where reading stopped, what was being read there, what could have
stood there, and why it did not do, as far as each can be said. `Fault.report`
shows it with the line of the document and a mark under the place.

Places are counted in characters of the line, but in octets if the character
there is not ASCII. The end of the document is counted on the line of its last
character, also if that is an end of line.
-/

set_option autoImplicit false

namespace AuditTables.Settings.Toml

open AuditTables.Text

/-- A place where reading stopped. -/
structure Fault where
  /-- What was left to read. -/
  rest : List Char
  /-- The smallest thing that was being read, of those that have a name. -/
  label : Option String
  /-- What could have stood there. -/
  expected : List String
  cause : Option String
  /-- Whether no other reading is to be tried. -/
  final : Bool
  deriving DecidableEq, Repr

namespace Fault

/-- A fault of which only the place is known. -/
def here (rest : List Char) : Fault := ⟨rest, none, [], none, false⟩

/-- The lines that say what is wrong. -/
def message (f : Fault) : String :=
  let invalid := f.label.map ("invalid " ++ ·)
  let expected := if f.expected.isEmpty then none
    else some ("expected " ++ ", ".intercalate f.expected)
  "\n".intercalate ([invalid, expected, f.cause].filterMap id)

/-- The characters after the last end of line. -/
def lastLine (cs : List Char) : List Char := (cs.reverse.takeWhile (· != '\n')).reverse

/-- The line and the column of the place, both from zero, given what was read
before it. -/
def position (f : Fault) (before : List Char) : Nat × Nat :=
  match f.rest with
  | c :: _ =>
    let line := lastLine before
    (before.count '\n', if c.toNat < 0x80 then line.length else Utf8.byteLength line)
  | [] =>
    if before.isEmpty then (0, 0)
    else
      let earlier := before.dropLast
      (earlier.count '\n', (lastLine earlier).length + 1)

/-- A fault as it is reported, with the line of the document it is in. -/
def report (f : Fault) (document : String) : String :=
  let cs := document.toList
  let (line, column) := f.position (cs.take (cs.length - f.rest.length))
  let number := toString (line + 1)
  let content := (document.splitOn "\n").getD line ""
  let marked := min ((f.rest.head?.map Char.utf8Size).getD 0)
    (Utf8.byteLength content.toList - column)
  let blanks (n : Nat) : String := String.ofList (List.replicate n ' ')
  let gutter := blanks (number.length + 1) ++ "|"
  "TOML parse error at line " ++ number ++ ", column " ++ toString (column + 1) ++ "\n"
    ++ gutter ++ "\n"
    ++ number ++ " | " ++ content ++ "\n"
    ++ gutter ++ blanks (column + 1) ++ String.ofList (List.replicate (max 1 marked) '^') ++ "\n"
    ++ f.message ++ "\n"

end Fault

end AuditTables.Settings.Toml
