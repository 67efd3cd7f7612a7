import AuditTables.Decimal.Integer
import AuditTables.Settings.Toml.Gap

/-!
# `AuditTables.Settings.Toml.Text`: texts and keys

A text stands between double or single quotes; between double ones a backslash
begins an escape. With three quotes at each end a text may go over several
lines, and one or two more quotes before the last three belong to it. The end of
line right after the first three does not. An end of line within a text is a
line feed, however it is written, and a backslash before it takes it away with
all white space that follows.

A key is a text on one line or a bare word. Keys with points between them lead
into tables, down to a depth of `depthLimit`.
-/

set_option autoImplicit false

namespace AuditTables.Settings.Toml

open Reader

/-- Values and keys nest less deep than this. -/
def depthLimit : Nat := 80

/-- The cause of a fault where values or keys nest too deep. -/
def tooDeep : String := "recursion limit exceeded"

/-- The cause of a fault where a number lies outside its range. -/
def outOfRange : String := "value is out of range"

/-- A character that stands for itself between double quotes. -/
def isPlain (c : Char) : Bool := !isControl c && c != '"' && c != '\\'

/-- A character that stands for itself between single quotes. -/
def isLiteral (c : Char) : Bool := !isControl c && c != '\''

/-- A hexadecimal digit. -/
def isHexDigit (c : Char) : Bool := (Decimal.digitOf 16 c).isSome

/-- The character of a number of so many hexadecimal digits. -/
def numbered (count : Nat) : Reader Char :=
  check (exactly count isHexDigit) fun digits =>
    let n := (Decimal.readNatural 16 digits).getD 0
    if n.isValidChar then .ok (Char.ofNat n) else .error (some outOfRange)

/-- The escapes of one letter. -/
def escapes : List (Char × Char) :=
  [('b', '\x08'), ('f', '\x0c'), ('n', '\n'), ('r', '\r'), ('t', '\t'), ('\\', '\\'), ('"', '"')]

/-- The letters that may follow a backslash, as faults list them. -/
def escapeLetters : List String := ["`b`", "`f`", "`n`", "`r`", "`t`", "`u`", "`U`", "`\\`", "`\"`"]

/-- What follows the backslash of an escape. -/
def escaped : Reader Char := fun cs =>
  match cs with
  | [] => .error (.here [])
  | 'u' :: rest => commit (label "unicode 4-digit hex code" (numbered 4)) rest
  | 'U' :: rest => commit (label "unicode 8-digit hex code" (numbered 8)) rest
  | c :: rest =>
    match escapes.lookup c with
    | some x => .ok (x, rest)
    | none => .error ⟨afterFirst cs, some "escape sequence", escapeLetters, none, true⟩

/-- An escape. -/
def escape : Reader (List Char) := do
  mark '\\'
  let c ← escaped
  pure [c]

/-- A text between double quotes. -/
def basicText : Reader String := do
  mark '"'
  let parts ← many (either (someRun isPlain) escape)
  label "basic string" (commit (mark '"'))
  pure (String.ofList parts.flatten)

/-- A text between single quotes. -/
def literalText : Reader String := label "literal string" do
  mark '\''
  let content ← commit (run isLiteral)
  commit (mark '\'')
  pure (String.ofList content)

/-- An end of line as the text has it. -/
def textNewline : Reader (List Char) := do
  newline
  pure ['\n']

/-- Backslashes before ends of lines, with the white space that follows. -/
def lineJoin : Reader (List Char) := do
  let _ ← someMany do
    mark '\\'
    blanks
    newline
    many (either textNewline (someRun isBlank))
  pure []

/-- One or two quotes that belong to a text, before what has to follow them. -/
def innerQuotes (quote : Char) (following : Reader Unit) : Reader (List Char) :=
  let quotes (count : Nat) : Reader (List Char) := do
    let taken ← exactly count (· == quote)
    ahead following
    pure taken
  either (quotes 2) (quotes 1)

/-- A text over several lines, given its parts between quotes. `behind` says where
reading stops when no part follows quotes within the text: behind them, or else
at them. -/
def longText (quote : Char) (name : String) (part : Reader (List Char)) (behind : Bool) :
    Reader String :=
  let delimiter : Reader Unit := do
    let _ ← exactly 3 (· == quote)
  label name do
    delimiter
    let _ ← perhaps newline
    let parts ← commit do
      let first ← many part
      let more ← many do
        let quotes ← innerQuotes quote do
          let _ ← one (· != quote)
        let parts ← if behind then many part else someMany part
        pure (quotes ++ parts.flatten)
      let last ← perhaps (innerQuotes quote delimiter)
      pure (first ++ more ++ last.toList)
    commit delimiter
    pure (String.ofList parts.flatten)

/-- A text between three double quotes. -/
def longBasicText : Reader String :=
  longText '"' "multiline basic string"
    (either (someRun isPlain) (either lineJoin (either escape textNewline))) true

/-- A text between three single quotes. -/
def longLiteralText : Reader String :=
  longText '\'' "multiline literal string" (either (someRun isLiteral) textNewline) false

/-- A text in any of its four forms. -/
def text : Reader String :=
  either longBasicText (either basicText (either longLiteralText literalText))

/-- A character of a bare word. -/
def isBare (c : Char) : Bool := c.isAlphanum || c == '_' || c == '-'

/-- One step of a key. -/
def keyStep : Reader String := do
  match ← next with
  | some '"' => basicText
  | some '\'' => literalText
  | _ =>
    let name ← someRun isBare
    pure (String.ofList name)

/-- A key: steps with points between them. -/
def key : Reader (List String) :=
  check
    (label "key" (separated (do blanks; let step ← keyStep; blanks; pure step) (mark '.')))
    fun steps => if steps.length < depthLimit then .ok steps else .error (some tooDeep)

end AuditTables.Settings.Toml
