import AuditTables.Settings.Toml.Reader

/-!
# `AuditTables.Settings.Toml.Gap`: what stands between the parts of a document

Spaces and tabs may stand between any two parts of a line. A comment goes from a
`#` to the end of its line. A line ends with a line feed, which a carriage return
may precede; a carriage return alone ends nothing. Control characters may stand
nowhere.
-/

set_option autoImplicit false

namespace AuditTables.Settings.Toml

open Reader

/-- White space within a line. -/
def isBlank (c : Char) : Bool := c == ' ' || c == '\t'

/-- A control character other than the tab. No text may contain one. -/
def isControl (c : Char) : Bool := (c.toNat < 0x20 && c != '\t') || c.toNat == 0x7F

/-- White space, if there is any. -/
def blanks : Reader Unit := do
  let _ ← run isBlank

/-- The rest after the first character, where a reader stops that looks at one
octet and finds it wrong. A character of several octets is not split. -/
def afterFirst : List Char → List Char
  | [] => []
  | c :: rest => if c.toNat < 0x80 then rest else c :: rest

/-- An end of line. -/
def newline : Reader Unit
  | '\n' :: rest => .ok ((), rest)
  | '\r' :: '\n' :: rest => .ok ((), rest)
  | cs => .error (.here (afterFirst cs))

/-- A comment, without the end of its line. -/
def comment : Reader Unit := do
  mark '#'
  let _ ← run fun c => !isControl c

/-- The end of a line or of the document. -/
def lineEnd : Reader Unit := either newline atEnd

/-- What may stand on a line after its last part. -/
def lineRest : Reader Unit := do
  blanks
  let _ ← perhaps comment
  lineEnd

/-- White space, comments and ends of lines, over at most so many lines. -/
def gapWithin : Nat → Reader Unit
  | 0 => blanks
  | bound + 1 => do
    blanks
    match ← next with
    | some '#' => do comment; newline; gapWithin bound
    | some '\n' => do newline; gapWithin bound
    | some '\r' => do newline; gapWithin bound
    | _ => pure ()

/-- White space, comments and ends of lines, if there are any. -/
def gap : Reader Unit := fun cs => gapWithin cs.length cs

end AuditTables.Settings.Toml
