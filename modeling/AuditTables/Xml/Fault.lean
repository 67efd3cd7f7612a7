import AuditTables.Text.Quoted

/-!
# `AuditTables.Xml.Fault`: what can be wrong with a document

A fault is a cause and the place that it is shown at. Causes carry what their
wording needs, and the wording is given here once: `ReferenceCause` for
character references, `AttributeCause` for attributes, `Cause` for all of a
document.
-/

set_option autoImplicit false

namespace AuditTables.Xml

open AuditTables.Text

/-- What can be wrong with a character reference. Positions count octets from
the start of the text or value it stands in. -/
inductive ReferenceCause where
  /-- No semicolon before the next ampersand or the end. -/
  | unterminated (start length : Nat)
  /-- A name that stands for nothing. -/
  | unknown (start stop : Nat) (name : String)
  | longHexadecimal
  | longDecimal
  /-- A character that is no digit, given by its first octet. -/
  | badHexadecimal (c : Char)
  | badDecimal (c : Char)
  /-- The number zero, which no document may contain. -/
  | null (start stop : Nat)
  /-- A number that is no character. -/
  | notCharacter (n : Nat)
  deriving DecidableEq, Repr

/-- The range of a reference as messages show it. -/
def rangeText (start stop : Nat) : String := toString start ++ ".." ++ toString stop

/-- The wording of a reference fault. -/
def ReferenceCause.message : ReferenceCause → String
  | .unterminated start length =>
    "Error while escaping character at range " ++ rangeText start length
      ++ ": Cannot find ';' after '&'"
  | .unknown start stop name =>
    "Error while escaping character at range " ++ rangeText start stop
      ++ ": Unrecognized escape symbol: " ++ quoted name
  | .longHexadecimal => "Cannot convert hexadecimal to utf8"
  | .longDecimal => "Cannot convert decimal to utf8"
  | .badHexadecimal c => "'" ++ c.toString ++ "' is not a valid hexadecimal character"
  | .badDecimal c => "'" ++ c.toString ++ "' is not a valid decimal character"
  | .null start stop =>
    "Error while escaping character at range " ++ rangeText start stop
      ++ ": Null character entity not allowed"
  | .notCharacter n => "'" ++ toString n ++ "' is not a valid codepoint"

/-- What can be wrong with the attributes of a tag. Positions count octets from
the start of the tag's content. -/
inductive AttributeCause where
  | noEquals (position : Nat)
  | duplicate (position earlier : Nat)
  | noValue (position : Nat)
  | notQuoted (position : Nat)
  | noClosingQuote (position : Nat) (quote : Char)
  | reference (cause : ReferenceCause)
  deriving DecidableEq, Repr

/-- The wording of an attribute fault. -/
def AttributeCause.message : AttributeCause → String
  | .noEquals p =>
    "position " ++ toString p ++ ": attribute key must be directly followed by `=` or space"
  | .duplicate p q =>
    "position " ++ toString p ++ ": duplicated attribute, previous declaration at position "
      ++ toString q
  | .noValue p => "position " ++ toString p ++ ": `=` must be followed by an attribute value"
  | .notQuoted p =>
    "position " ++ toString p ++ ": attribute value must be enclosed in `\"` or `'`"
  | .noClosingQuote p quote =>
    "position " ++ toString p ++ ": missing closing quote `" ++ quote.toString
      ++ "` in attribute value"
  | .reference cause => cause.message

/-- A kind of markup that the end of the document can cut off. -/
inductive Unfinished where
  | bang
  | comment
  | cdata
  | doctype
  | instruction
  | element
  deriving DecidableEq, Repr

/-- The name of a kind of markup in messages. -/
def Unfinished.label : Unfinished → String
  | .bang => "Bang"
  | .comment => "Comment"
  | .cdata => "CData"
  | .doctype => "DOCTYPE"
  | .instruction => "XmlDecl"
  | .element => "Element"

/-- What can be wrong with a document. -/
inductive Cause where
  | unfinished (what : Unfinished)
  /-- An exclamation mark that begins no markup, by the octet after it. -/
  | unknownBang (c : Char)
  | emptyDoctype
  | wrongEnd (expected found : String)
  | attributes (cause : AttributeCause)
  | reference (cause : ReferenceCause)
  | textOutsideRoot
  | manyRoots
  | unclosed (name : String)
  | noRoot
  deriving DecidableEq, Repr

/-- The wording of a fault. -/
def Cause.message : Cause → String
  | .unfinished what => "Unexpected EOF during reading " ++ what.label
  | .unknownBang c =>
    "Only Comment (`--`), CDATA (`[CDATA[`) and DOCTYPE (`DOCTYPE`) nodes can start with a '!', "
      ++ "but symbol `" ++ c.toString ++ "` found"
  | .emptyDoctype => "DOCTYPE declaration must not be empty"
  | .wrongEnd expected found => "Expecting </" ++ expected ++ "> found </" ++ found ++ ">"
  | .attributes cause => cause.message
  | .reference cause => cause.message
  | .textOutsideRoot => "text outside the root element"
  | .manyRoots => "multiple root elements"
  | .unclosed name => "unclosed element <" ++ name ++ ">"
  | .noRoot => "no root element"

/-- Where a fault is shown: at an octet of the document, a byte order mark not
counted, or at its end. -/
inductive Place where
  | octet (position : Nat)
  | documentEnd
  deriving DecidableEq, Repr

/-- A cause and its place. -/
structure Fault where
  cause : Cause
  place : Place
  deriving DecidableEq, Repr

end AuditTables.Xml
