import AuditTables.Json.Number
import AuditTables.Text.Blank
import AuditTables.Text.Machine
import AuditTables.Text.Utf8

/-!
# `AuditTables.Json.Reader`: reading JSON text

The reader takes one character at a time. What it is inside of is a stack of
`Frame`s, what it expects next is a `Mode`. Nesting is bounded: the stack holds
at most 127 lists and objects, and the bracket that would open one more is
refused.

An error names its cause and an octet position, and `Error.message` turns the
position into a line and a column. The position is the count of octets taken up
to and with the one that was found wrong; at the end of the text it is the
length of the text.
-/

set_option autoImplicit false

namespace AuditTables.Json

open AuditTables.Text

/-- What can be wrong with a JSON text. -/
inductive Cause where
  | endInValue
  | endInText
  | endInList
  | endInObject
  | noValue
  | badWord
  | badNumber
  | numberTooLarge
  | controlCharacter
  | badEscape
  | loneSurrogate
  | unfinishedSurrogate
  | itemSeparator
  | entrySeparator
  | colon
  | keyNotText
  | trailingComma
  | trailingCharacters
  | tooDeep
  deriving DecidableEq, Repr

/-- The wording of a cause. -/
def Cause.message : Cause → String
  | .endInValue => "EOF while parsing a value"
  | .endInText => "EOF while parsing a string"
  | .endInList => "EOF while parsing a list"
  | .endInObject => "EOF while parsing an object"
  | .noValue => "expected value"
  | .badWord => "expected ident"
  | .badNumber => "invalid number"
  | .numberTooLarge => "number out of range"
  | .controlCharacter => "control character (\\u0000-\\u001F) found while parsing a string"
  | .badEscape => "invalid escape"
  | .loneSurrogate => "lone leading surrogate in hex escape"
  | .unfinishedSurrogate => "unexpected end of hex escape"
  | .itemSeparator => "expected `,` or `]`"
  | .entrySeparator => "expected `,` or `\x7d`"
  | .colon => "expected `:`"
  | .keyNotText => "key must be a string"
  | .trailingComma => "trailing comma"
  | .trailingCharacters => "trailing characters"
  | .tooDeep => "recursion limit exceeded"

/-- A cause and the octet position it was found at. -/
structure Error where
  cause : Cause
  position : Nat
  deriving DecidableEq, Repr

/-- The line of an octet position, from 1, and its distance from the start of
that line. -/
def lineAndColumn (position : Nat) : List Char → Nat × Nat :=
  go 0 1 0
where
  /-- `start` is where the current line begins and `offset` where the list
  does. -/
  go (start line offset : Nat) : List Char → Nat × Nat
    | [] => (line, position - start)
    | c :: cs =>
      if position ≤ offset then (line, position - start)
      else if c = '\n' then go (offset + 1) (line + 1) (offset + 1) cs
      else go start line (offset + c.utf8Size) cs

/-- The wording of an error in a text. -/
def Error.message (e : Error) (text : List Char) : String :=
  let (line, column) := lineAndColumn e.position text
  e.cause.message ++ " at line " ++ toString line ++ " column " ++ toString column

/-- A list or an object that is being read. -/
inductive Frame where
  /-- The items so far, latest first. -/
  | list (items : List Value)
  /-- The entries so far and the key of the value that is being read. -/
  | object (entries : List (String × Value)) (key : String)
  deriving Repr

/-- A character of four hexadecimal digits that is being read. -/
structure Escape where
  /-- The position just before the digits. -/
  start : Nat
  /-- How many digits have been read, and their value. -/
  count : Nat
  value : Nat
  /-- The leading surrogate before this one, if there was one. -/
  leading : Option Nat
  deriving DecidableEq, Repr

/-- Where a string stands. -/
inductive TextMode where
  | plain
  /-- After a backslash. -/
  | escape
  | hex (e : Escape)
  /-- Among four octets that are not all hexadecimal digits. -/
  | notHex (start : Nat)
  /-- After a leading surrogate, before the backslash that has to follow. -/
  | surrogate (leading : Nat)
  /-- After that backslash. -/
  | surrogateMark (leading : Nat)
  deriving DecidableEq, Repr

/-- What the reader expects next. -/
inductive Mode where
  /-- A value. -/
  | value
  /-- A value or the end of an empty list. -/
  | firstItem
  /-- The value that a comma in a list promised. -/
  | nextItem
  /-- A key or the end of an empty object. -/
  | firstKey (entries : List (String × Value))
  /-- The key that a comma in an object promised. -/
  | nextKey (entries : List (String × Value))
  /-- The colon after a key. -/
  | colon (entries : List (String × Value)) (key : String)
  /-- A comma or the end of the list. -/
  | afterItem (items : List Value)
  /-- A comma or the end of the object. -/
  | afterEntry (entries : List (String × Value))
  /-- Nothing but white space. -/
  | done (v : Value)
  /-- The rest of a word, and the value of the word. -/
  | word (rest : List Char) (v : Value)
  | number (negative : Bool) (s : Scan)
  /-- A string that is a key of an object with these entries, or a value;
  its characters so far, latest first. -/
  | text (keyOf : Option (List (String × Value))) (read : List Char) (m : TextMode)
  deriving Repr

/-- The state of the reader: the octets taken, the lists and objects it is
inside of, innermost first, and what it expects. -/
structure Reader where
  offset : Nat
  stack : List Frame
  mode : Mode
  deriving Repr

/-- How many lists and objects a value may be inside of. -/
def depthLimit : Nat := 127

namespace Reader

/-- The reader before any text. -/
def start : Reader := ⟨0, [], .value⟩

/-- What to expect once a value is complete. The last of equal keys counts. -/
def complete (stack : List Frame) (v : Value) : List Frame × Mode :=
  match stack with
  | [] => ([], .done v)
  | .list items :: rest => (rest, .afterItem (v :: items))
  | .object entries key :: rest => (rest, .afterEntry (Keyed.put key v entries))

/-- A value was completed. -/
def close (r : Reader) (v : Value) : Reader :=
  let (stack, mode) := complete r.stack v
  ⟨r.offset, stack, mode⟩

/-- A string was completed. -/
def closeText (r : Reader) (keyOf : Option (List (String × Value))) (read : List Char) : Reader :=
  let s := String.ofList read.reverse
  match keyOf with
  | some entries => { r with mode := .colon entries s }
  | none => r.close (.text s)

/-- A refusal at the character just looked at. -/
def refuse (r : Reader) (cause : Cause) : Except Error Reader := .error ⟨cause, r.offset + 1⟩

/-- A list or an object begins. -/
def nest (r : Reader) (mode : Mode) : Except Error Reader :=
  if depthLimit ≤ r.stack.length then r.refuse .tooDeep else .ok { r with mode := mode }

/-- A character where a value is expected. -/
def beginValue (r : Reader) (c : Char) : Except Error Reader :=
  if c = '[' then r.nest .firstItem
  else if c = '\x7b' then r.nest (.firstKey [])
  else if c = '"' then .ok { r with mode := .text none [] .plain }
  else if c = 't' then .ok { r with mode := .word ['r', 'u', 'e'] (.boolean true) }
  else if c = 'f' then .ok { r with mode := .word ['a', 'l', 's', 'e'] (.boolean false) }
  else if c = 'n' then .ok { r with mode := .word ['u', 'l', 'l'] .null }
  else if c = '-' then .ok { r with mode := .number true .sign }
  else match Scan.sign.advance c with
    | .read s => .ok { r with mode := .number false s }
    | _ => r.refuse .noValue

/-- A character where a key is expected. -/
def beginKey (r : Reader) (entries : List (String × Value)) (c : Char) : Except Error Reader :=
  if c = '"' then .ok { r with mode := .text (some entries) [] .plain }
  else r.refuse .keyNotText

/-- A character between the tokens of a value. White space is passed over. -/
def between (r : Reader) (c : Char) : Except Error Reader :=
  if isSpace c then .ok r
  else match r.mode with
  | .value => r.beginValue c
  | .firstItem =>
    if c = ']' then .ok (r.close (.list []))
    else { r with stack := .list [] :: r.stack }.beginValue c
  | .nextItem => if c = ']' then r.refuse .trailingComma else r.beginValue c
  | .firstKey entries =>
    if c = '\x7d' then .ok (r.close (.object entries)) else r.beginKey entries c
  | .nextKey entries => if c = '\x7d' then r.refuse .trailingComma else r.beginKey entries c
  | .colon entries key =>
    if c = ':' then .ok { r with stack := .object entries key :: r.stack, mode := .value }
    else r.refuse .colon
  | .afterItem items =>
    if c = ',' then .ok { r with stack := .list items :: r.stack, mode := .nextItem }
    else if c = ']' then .ok (r.close (.list items.reverse))
    else r.refuse .itemSeparator
  | .afterEntry entries =>
    if c = ',' then .ok { r with mode := .nextKey entries }
    else if c = '\x7d' then .ok (r.close (.object entries))
    else r.refuse .entrySeparator
  | .done _ => r.refuse .trailingCharacters
  | _ => .ok r

/-- The character of an escape of two characters. -/
def shortEscape (c : Char) : Option Char :=
  if c = '"' ∨ c = '\\' ∨ c = '/' then some c
  else if c = 'b' then some '\x08'
  else if c = 'f' then some '\x0c'
  else if c = 'n' then some '\n'
  else if c = 'r' then some '\r'
  else if c = 't' then some '\t'
  else none

/-- What four hexadecimal digits say inside a string: a character, or that a
trailing surrogate has to follow. -/
def closeEscape (leading : Option Nat) (n : Nat) : Option (Char ⊕ Nat) :=
  match leading with
  | none =>
    if 0xDC00 ≤ n ∧ n ≤ 0xDFFF then none
    else if 0xD800 ≤ n ∧ n ≤ 0xDBFF then some (.inr n)
    else some (.inl (Char.ofNat n))
  | some high =>
    if 0xDC00 ≤ n ∧ n ≤ 0xDFFF then
      some (.inl (Char.ofNat ((high - 0xD800) * 0x400 + (n - 0xDC00) + 0x10000)))
    else none

/-- A character among the four of an escape by number. The escape takes four
octets whatever they are, so a wrong one is reported after the fourth. -/
def inHex (r : Reader) (keyOf : Option (List (String × Value))) (read : List Char) (e : Escape)
    (c : Char) : Except Error Reader :=
  match Decimal.digitOf 16 c with
  | none =>
    if e.start + 4 ≤ r.offset + c.utf8Size then .error ⟨.badEscape, e.start + 4⟩
    else .ok { r with mode := .text keyOf read (.notHex e.start) }
  | some d =>
    let value := e.value * 16 + d
    if e.count < 3 then
      .ok { r with mode := .text keyOf read (.hex { e with count := e.count + 1, value := value }) }
    else match closeEscape e.leading value with
      | none => r.refuse .loneSurrogate
      | some (.inl x) => .ok { r with mode := .text keyOf (x :: read) .plain }
      | some (.inr high) => .ok { r with mode := .text keyOf read (.surrogate high) }

/-- A character inside a string. -/
def inText (r : Reader) (keyOf : Option (List (String × Value))) (read : List Char) (m : TextMode)
    (c : Char) : Except Error Reader :=
  match m with
  | .plain =>
    if c = '"' then .ok (r.closeText keyOf read)
    else if c = '\\' then .ok { r with mode := .text keyOf read .escape }
    else if c.toNat < 0x20 then r.refuse .controlCharacter
    else .ok { r with mode := .text keyOf (c :: read) .plain }
  | .escape =>
    if c = 'u' then .ok { r with mode := .text keyOf read (.hex ⟨r.offset + 1, 0, 0, none⟩) }
    else match shortEscape c with
      | some x => .ok { r with mode := .text keyOf (x :: read) .plain }
      | none => r.refuse .badEscape
  | .hex e => r.inHex keyOf read e c
  | .notHex start =>
    if start + 4 ≤ r.offset + c.utf8Size then .error ⟨.badEscape, start + 4⟩ else .ok r
  | .surrogate high =>
    if c = '\\' then .ok { r with mode := .text keyOf read (.surrogateMark high) }
    else r.refuse .unfinishedSurrogate
  | .surrogateMark high =>
    if c = 'u' then
      .ok { r with mode := .text keyOf read (.hex ⟨r.offset + 1, 0, 0, some high⟩) }
    else r.refuse .unfinishedSurrogate

/-- A character inside or just after a number. The one after it is looked at
again as what follows the number. -/
def inNumber (r : Reader) (negative : Bool) (s : Scan) (c : Char) : Except Error Reader :=
  match s.advance c with
  | .read next => .ok { r with mode := .number negative next }
  | .invalid => r.refuse .badNumber
  | .tooLarge => r.refuse .numberTooLarge
  | .ended =>
    match s.verdict negative with
    | .done n => (r.close (.number n)).between c
    | .unfinished => r.refuse .badNumber
    | .tooLarge => .error ⟨.numberTooLarge, r.offset⟩

/-- A character, before it is counted. -/
def take (r : Reader) (c : Char) : Except Error Reader :=
  match r.mode with
  | .word [] v => (r.close v).between c
  | .word (x :: rest) v =>
    if c = x then
      .ok (if rest = [] then r.close v else { r with mode := .word rest v })
    else r.refuse .badWord
  | .number negative s => r.inNumber negative s c
  | .text keyOf read m => r.inText keyOf read m c
  | _ => r.between c

/-- One character. -/
def step (r : Reader) (c : Char) : Except Error Reader :=
  (r.take c).map fun next => { next with offset := r.offset + c.utf8Size }

/-- The cause when the text ends where something has to follow. -/
def endCause : Mode → Cause
  | .firstItem => .endInList
  | .afterItem _ => .endInList
  | .firstKey _ => .endInObject
  | .colon _ _ => .endInObject
  | .afterEntry _ => .endInObject
  | .text _ _ _ => .endInText
  | _ => .endInValue

/-- What the text amounts to when it ends here. -/
def finish (r : Reader) : Except Error Value :=
  match r.mode with
  | .done v => .ok v
  | .number negative s =>
    match s.verdict negative with
    | .done n =>
      match complete r.stack (.number n) with
      | (_, .done v) => .ok v
      | (_, mode) => .error ⟨endCause mode, r.offset⟩
    | .unfinished => .error ⟨.endInValue, r.offset⟩
    | .tooLarge => .error ⟨.numberTooLarge, r.offset⟩
  | mode => .error ⟨endCause mode, r.offset⟩

/-- The reader as a machine over characters. -/
def machine : Machine Char Reader Error Value := ⟨step, finish⟩

end Reader

/-- The value that a text stands for. -/
def read (text : List Char) : Except Error Value := Reader.machine.run Reader.start text

end AuditTables.Json
