import AuditTables.Text.Utf8

/-!
# `AuditTables.Event.Stream`: the records of a stream

Rendered records follow one another in a file, perhaps inside a wrapping
element, and the file may end in the middle of one. A record begins at an
opening `<Event` that a blank or a closing bracket follows, which tells it from
`<Events` and `<EventData`, and ends with the first `</Event>` after that.

`Splitter` looks at one octet at a time. Both patterns begin with the only
bracket in them, so a mismatch can restart a pattern only at the octet just
looked at, and the count of matched octets is all the memory that is needed.

What need not be looked at again is `consumed`. It stops before a record that
has no end yet, and before a last bracket that a tag may still grow from.
-/

set_option autoImplicit false

namespace AuditTables.Event

open AuditTables.Text

/-- A part of a stream, from an octet up to another that is not in it. -/
structure Span where
  start : Nat
  stop : Nat
  deriving DecidableEq, Repr

/-- The octets of a span. -/
def Span.slice (s : Span) (bytes : List UInt8) : List UInt8 :=
  (bytes.drop s.start).take (s.stop - s.start)

/-- The octets of `<Event`, which open a record. -/
def openMark : List UInt8 := [0x3C, 0x45, 0x76, 0x65, 0x6E, 0x74]

/-- The octets of `</Event>`, which close a record. -/
def closeMark : List UInt8 := [0x3C, 0x2F, 0x45, 0x76, 0x65, 0x6E, 0x74, 0x3E]

/-- The octet of an opening bracket. -/
def openBracket : UInt8 := 0x3C

/-- The octet of a closing bracket. -/
def closeBracket : UInt8 := 0x3E

/-- Whether an octet ends the name in an opening tag. -/
def endsName (b : UInt8) : Bool :=
  b == 0x20 || b == closeBracket || b == 0x09 || b == 0x0D || b == 0x0A

/-- How much of a mark is matched after one more octet. -/
def matchNext (mark : List UInt8) (matched : Nat) (b : UInt8) : Nat :=
  if mark[matched]? = some b then matched + 1
  else if b = openBracket then 1
  else 0

/-- What a splitter is inside of. -/
inductive SplitMode where
  /-- Between records: how much of the opening mark is matched, and the last
  opening bracket that no closing one follows. -/
  | between (matched : Nat) (dangling : Option Nat)
  /-- In a record: where it began, and how much of the closing mark is
  matched. -/
  | inside (start matched : Nat)
  deriving DecidableEq, Repr

/-- The state of a splitter: the octets taken, the records found, latest first,
and what it is inside of. -/
structure Splitter where
  offset : Nat
  found : List Span
  mode : SplitMode
  deriving DecidableEq, Repr

namespace Splitter

/-- The splitter at the beginning of a stream. -/
def start : Splitter := ⟨0, [], .between 0 none⟩

/-- One octet. -/
def step (s : Splitter) (b : UInt8) : Splitter :=
  let offset := s.offset + 1
  match s.mode with
  | .between matched dangling =>
    if matched = openMark.length ∧ endsName b then
      ⟨offset, s.found, .inside (s.offset - openMark.length) 0⟩
    else
      let dangling :=
        if b = openBracket then some s.offset
        else if b = closeBracket then none
        else dangling
      ⟨offset, s.found, .between (matchNext openMark matched b) dangling⟩
  | .inside start matched =>
    let matched := matchNext closeMark matched b
    if matched = closeMark.length then ⟨offset, ⟨start, offset⟩ :: s.found, .between 0 none⟩
    else ⟨offset, s.found, .inside start matched⟩

/-- How many octets need not be looked at again when the stream stops here. -/
def consumed (s : Splitter) : Nat :=
  match s.mode with
  | .between _ (some bracket) => bracket
  | .between _ none => s.offset
  | .inside start _ => start

/-- The splitter after a list of octets. -/
def feed (s : Splitter) (bytes : List UInt8) : Splitter := bytes.foldl step s

theorem feed_append (s : Splitter) (a b : List UInt8) : s.feed (a ++ b) = (s.feed a).feed b :=
  List.foldl_append

end Splitter

/-- The complete records of a stream, in order, and how many octets need not be
looked at again. -/
def split (bytes : List UInt8) : List Span × Nat :=
  let s := Splitter.start.feed bytes
  (s.found.reverse, s.consumed)

/-- The complete records of a stream as texts. -/
def splitTexts (bytes : List UInt8) : List String × Nat :=
  let (spans, consumed) := split bytes
  (spans.map fun s => Utf8.decode (s.slice bytes), consumed)

end AuditTables.Event
