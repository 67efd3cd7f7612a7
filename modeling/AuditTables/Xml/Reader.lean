import AuditTables.Xml.Attributes
import AuditTables.Xml.Node

/-!
# `AuditTables.Xml.Reader`: reading a document

The reader takes one character at a time. Between tags it collects character
data, which is trimmed, has its references resolved, and goes to the innermost
open element. Comments, processing instructions and a document type are passed
over, and the text of a CDATA section is kept as it stands. An end tag has to
repeat the full name of the element it closes.

What a document is allowed to leave out: the closing bracket of an end tag or
of a processing instruction may be missing at the very end, and a lone opening
bracket there is ignored. Outside the root element there may be white space but
no other character data.

Each fault is shown where the reader was before the piece it was reading
(`position`), or, for markup that has no end, just after its opening bracket.
-/

set_option autoImplicit false

namespace AuditTables.Xml

open AuditTables.Text

/-- An element whose end tag has not been read: its full name as written, its
attributes, and the character data and the children so far, latest first. -/
structure Opened where
  fullName : List Char
  attributes : List (String × String)
  text : String
  children : List Node
  deriving Repr

/-- The local name of an open element. -/
def Opened.name (o : Opened) : String := String.ofList (localName o.fullName)

/-- The element once it is closed. -/
def Opened.close (o : Opened) : Node := .mk o.name o.attributes o.text o.children.reverse

/-- Markup after an exclamation mark. -/
inductive Bang where
  | comment
  | cdata
  | doctype
  deriving DecidableEq, Repr

/-- The name of such markup when it is cut off. -/
def Bang.unfinished : Bang → Unfinished
  | .comment => .comment
  | .cdata => .cdata
  | .doctype => .doctype

/-- What the reader is inside of. `position` is where a fault in it is shown,
`start` the position after its opening bracket, and characters are kept latest
first. -/
inductive Mode where
  /-- Character data that began at `start`. -/
  | text (start : Nat) (read : List Char)
  /-- Just after an opening bracket. -/
  | angle (position : Nat)
  /-- Just after the exclamation mark. -/
  | bang (position start : Nat)
  | bangBody (kind : Bang) (position start : Nat) (read : List Char)
  | endTag (position start : Nat) (read : List Char)
  | instruction (start : Nat) (read : List Char)
  /-- A start tag, and the quote that is open in it. -/
  | tag (position start : Nat) (quote : Option Char) (read : List Char)
  deriving DecidableEq, Repr

/-- The state of the reader: the octets taken, the open elements, innermost
first, the root element if it is complete, and what is being read. -/
structure Reader where
  offset : Nat
  opened : List Opened
  root : Option Node
  mode : Mode
  deriving Repr

namespace Reader

/-- The reader before any text. -/
def start : Reader := ⟨0, [], none, .text 0 []⟩

/-- A fault at an octet. -/
def fault {α : Type} (cause : Cause) (position : Nat) : Except Fault α :=
  .error ⟨cause, .octet position⟩

/-- Character data goes to the innermost open element. Outside the root only
white space is allowed, and it is dropped. -/
def addText (r : Reader) (position : Nat) (text : List Char) : Except Fault Reader :=
  match r.opened with
  | o :: outer => .ok { r with opened := { o with text := o.text ++ String.ofList text } :: outer }
  | [] => if text.all isBlank then .ok r else fault .textOutsideRoot position

/-- A complete element goes to the innermost open element, or becomes the root
if there is none yet. -/
def addNode (r : Reader) (position : Nat) (node : Node) : Except Fault Reader :=
  match r.opened with
  | o :: outer => .ok { r with opened := { o with children := node :: o.children } :: outer }
  | [] =>
    match r.root with
    | some _ => fault .manyRoots position
    | none => .ok { r with root := some node }

/-- The end of a run of character data. White space around it is not part of
it, and a run of white space is none. -/
def endText (r : Reader) (position : Nat) (read : List Char) : Except Fault Reader :=
  match stripBoth isSpace read.reverse with
  | [] => .ok r
  | text =>
    match resolve text with
    | .error cause => fault (.reference cause) position
    | .ok resolved => r.addText position resolved

/-- Whether a run of character data is nothing but white space. -/
def blankRun (read : List Char) : Bool := read.all isSpace

/-- What kind of markup the character after an exclamation mark begins. -/
def bangKind (c : Char) : Option Bang :=
  if c = '[' then some .cdata
  else if c = '-' then some .comment
  else if c = 'D' ∨ c = 'd' then some .doctype
  else none

/-- Whether markup after an exclamation mark ends at a closing bracket. -/
def bangEnds (kind : Bang) (read : List Char) : Bool :=
  match kind with
  | .comment => 4 < read.length && ['-', '-'].isPrefixOf read
  | .cdata => [']', ']'].isPrefixOf read
  | .doctype => read.count '<' == read.count '>'

/-- Whether a text begins with a word, ASCII letters compared in any case. -/
def beginsWith (word text : List Char) : Bool :=
  word.isPrefixOf ((text.take word.length).map Char.toUpper)

/-- The end of markup after an exclamation mark. `after` is the position past
its closing bracket. -/
def endBang (r : Reader) (kind : Bang) (position after : Nat) (read : List Char) :
    Except Fault Reader :=
  let content := read.reverse
  match kind with
  | .comment =>
    if ['!', '-', '-'].isPrefixOf content then .ok r
    else fault (.unfinished .comment) after
  | .cdata =>
    if beginsWith ['!', '[', 'C', 'D', 'A', 'T', 'A', '['] content then
      r.addText position ((content.drop 8).take (content.length - 10))
    else fault (.unfinished .cdata) after
  | .doctype =>
    if beginsWith ['!', 'D', 'O', 'C', 'T', 'Y', 'P', 'E'] content then
      if (content.drop 8).all isSpace then fault .emptyDoctype after else .ok r
    else fault (.unfinished .doctype) after

/-- The name that an end tag gives, white space after it left out unless there
is nothing else. -/
def endName (content : List Char) : List Char :=
  let name := content.drop 1
  if name.all isSpace then name else (name.reverse.dropWhile isSpace).reverse

/-- The end of an end tag. `after` is where a wrong name is shown. -/
def closeElement (r : Reader) (position after : Nat) (read : List Char) : Except Fault Reader :=
  let content := read.reverse
  match r.opened with
  | [] => fault (.wrongEnd "" (String.ofList (content.drop 1))) after
  | o :: outer =>
    let name := endName content
    if name = o.fullName then { r with opened := outer }.addNode position o.close
    else fault (.wrongEnd (String.ofList o.fullName) (String.ofList name)) after

/-- The end of a processing instruction. -/
def endInstruction (r : Reader) (after : Nat) (read : List Char) : Except Fault Reader :=
  if 2 < read.length && ['?'].isPrefixOf read then .ok r
  else fault (.unfinished .instruction) after

/-- The element that the content of a tag begins. -/
def openElement (content : List Char) : Except AttributeCause Opened :=
  let name := content.takeWhile fun c => !isSpace c
  let rest := content.dropWhile fun c => !isSpace c
  (readAttributes (Utf8.byteLength name) rest).map fun attributes => ⟨name, attributes, "", []⟩

/-- The end of a start tag. A slash at its very end makes it an empty
element. -/
def endTag (r : Reader) (position : Nat) (read : List Char) : Except Fault Reader :=
  match read with
  | '/' :: content =>
    match openElement content.reverse with
    | .error cause => fault (.attributes cause) position
    | .ok o => r.addNode position o.close
  | content =>
    match openElement content.reverse with
    | .error cause => fault (.attributes cause) position
    | .ok o => .ok { r with opened := o :: r.opened }

/-- After markup comes character data. `after` is where it begins. -/
def resume (r : Except Fault Reader) (after : Nat) : Except Fault Reader :=
  r.map fun next => { next with mode := .text after [] }

/-- A character inside a start tag. The tag ends at the first closing bracket
outside quotes. -/
def inTag (r : Reader) (position start : Nat) (quote : Option Char) (read : List Char)
    (c : Char) : Except Fault Reader :=
  match quote with
  | some q =>
    let still := if c = q then none else some q
    .ok { r with mode := .tag position start still (c :: read) }
  | none =>
    if c = '>' then resume (r.endTag position read) (r.offset + 1)
    else
      let opens := if c = '"' ∨ c = '\'' then some c else none
      .ok { r with mode := .tag position start opens (c :: read) }

/-- A character, before it is counted. -/
def take (r : Reader) (c : Char) : Except Fault Reader :=
  match r.mode with
  | .text start read =>
    if c = '<' then
      (r.endText start read).map fun next =>
        { next with mode := .angle (if blankRun read then start else r.offset) }
    else .ok { r with mode := .text start (c :: read) }
  | .angle position =>
    if c = '!' then .ok { r with mode := .bang position r.offset }
    else if c = '/' then .ok { r with mode := .endTag position r.offset [c] }
    else if c = '?' then .ok { r with mode := .instruction r.offset [c] }
    else r.inTag position r.offset none [] c
  | .bang position start =>
    match bangKind c with
    | some kind => .ok { r with mode := .bangBody kind position start [c, '!'] }
    | none => fault (.unknownBang (Utf8.leadByte c)) start
  | .bangBody kind position start read =>
    if c = '>' ∧ bangEnds kind read then
      resume (r.endBang kind position (r.offset + 1) read) (r.offset + 1)
    else .ok { r with mode := .bangBody kind position start (c :: read) }
  | .endTag position start read =>
    if c = '>' then resume (r.closeElement position (start + 1) read) (r.offset + 1)
    else .ok { r with mode := .endTag position start (c :: read) }
  | .instruction start read =>
    if c = '>' then resume (r.endInstruction (start + 1) read) (r.offset + 1)
    else .ok { r with mode := .instruction start (c :: read) }
  | .tag position start quote read => r.inTag position start quote read c

/-- One character. -/
def step (r : Reader) (c : Char) : Except Fault Reader :=
  (r.take c).map fun next => { next with offset := r.offset + c.utf8Size }

/-- The piece that the end of the document ends, if it may end there. -/
def endPiece (r : Reader) : Except Fault Reader :=
  match r.mode with
  | .text start read => r.endText start read
  | .angle _ => .ok r
  | .bang _ start => fault (.unfinished .bang) start
  | .bangBody kind _ start _ => fault (.unfinished kind.unfinished) start
  | .endTag position start read => r.closeElement position start read
  | .instruction start read => r.endInstruction start read
  | .tag _ start _ _ => fault (.unfinished .element) start

/-- The root element, once nothing is open. -/
def complete (r : Reader) : Except Fault Node :=
  match r.opened with
  | o :: _ => .error ⟨.unclosed o.name, .documentEnd⟩
  | [] =>
    match r.root with
    | some node => .ok node
    | none => fault .noRoot 0

/-- The tree when the document ends here. -/
def finish (r : Reader) : Except Fault Node := r.endPiece.bind complete

/-- The reader of documents as a machine. -/
def machine : Machine Char Reader Fault Node := ⟨step, finish⟩

end Reader

/-- The document after its byte order mark, which positions do not count. -/
def withoutMark : List Char → List Char
  | [] => []
  | c :: cs => if c.toNat = 0xFEFF then cs else c :: cs

/-- A byte order mark is the first character or is not there. -/
theorem withoutMark_append_of_ne_nil {document : List Char} (h : document ≠ [])
    (rest : List Char) : withoutMark (document ++ rest) = withoutMark document ++ rest := by
  obtain ⟨c, cs, rfl⟩ := List.exists_cons_of_ne_nil h
  rw [List.cons_append, withoutMark, withoutMark]
  split <;> rfl

/-- The tree of a document, or the first thing wrong with it. -/
def readDocument (document : List Char) : Except Fault Node :=
  Reader.machine.run Reader.start (withoutMark document)

/-- How many characters of a document a fault quotes. -/
def fragmentLength : Nat := 64

/-- The rest of a text from an octet on, or from the start of the character that
the octet is inside of. -/
def fromOctet : Nat → List Char → List Char
  | _, [] => []
  | n, c :: cs => if c.utf8Size ≤ n then fromOctet (n - c.utf8Size) cs else c :: cs

/-- The part of a document around an octet position: it begins half its length
before the position. A position past the end counts as the end. -/
def fragmentAt (position : Nat) (document : List Char) : List Char :=
  let start := min position (Utf8.byteLength document) - fragmentLength / 2
  (fromOctet start document).take fragmentLength

/-- The part of the document that a fault quotes. -/
def Fault.fragment (f : Fault) (document : List Char) : List Char :=
  match f.place with
  | .octet position => fragmentAt position document
  | .documentEnd => fragmentAt (Utf8.byteLength document) document

end AuditTables.Xml
