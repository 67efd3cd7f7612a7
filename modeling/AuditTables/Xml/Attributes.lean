import AuditTables.Text.Blank
import AuditTables.Text.Machine
import AuditTables.Xml.Reference

/-!
# `AuditTables.Xml.Attributes`: the attributes of a tag

After the name of a tag stand its attributes: a key, an equals sign and a
quoted value, with white space allowed around each. A key takes every character
up to an equals sign or white space, its first one included whatever that is.
No key may be repeated, compared in full; the tree keeps local names. A value
has its references resolved before the next key is looked at, so of two faults
the first in the tag is the one reported.
-/

set_option autoImplicit false

namespace AuditTables.Xml

open AuditTables.Text

/-- The local part of a name: what follows its first colon. -/
def localName (name : List Char) : List Char :=
  match name.dropWhile (· != ':') with
  | ':' :: rest => rest
  | _ => name

/-- Where the reading of attributes stands. Keys and values are kept latest
character first. -/
inductive AttributeMode where
  /-- Before a key. -/
  | gap
  | key (position : Nat) (read : List Char)
  /-- After a key, before the equals sign. -/
  | afterKey (position : Nat) (read : List Char)
  /-- After the equals sign, before the quote. -/
  | beforeValue (key : List Char)
  | value (key : List Char) (quote : Char) (read : List Char)
  deriving DecidableEq, Repr

/-- The attributes read so far, latest first, the full keys with their
positions, and what is being read. -/
structure AttributeReader where
  offset : Nat
  seen : List (List Char × Nat)
  found : List (String × String)
  mode : AttributeMode
  deriving DecidableEq, Repr

namespace AttributeReader

/-- The reader at an octet of the content of a tag. -/
def start (offset : Nat) : AttributeReader := ⟨offset, [], [], .gap⟩

/-- The equals sign after a key. -/
def endKey (r : AttributeReader) (position : Nat) (read : List Char) :
    Except AttributeCause AttributeReader :=
  let key := read.reverse
  match r.seen.lookup key with
  | some earlier => .error (.duplicate position earlier)
  | none => .ok { r with seen := (key, position) :: r.seen, mode := .beforeValue key }

/-- The quote after a value. -/
def endValue (r : AttributeReader) (key read : List Char) :
    Except AttributeCause AttributeReader :=
  match resolve read.reverse with
  | .error cause => .error (.reference cause)
  | .ok value =>
    let entry := (String.ofList (localName key), String.ofList value)
    .ok { r with found := entry :: r.found, mode := .gap }

/-- A character, before it is counted. -/
def take (r : AttributeReader) (c : Char) : Except AttributeCause AttributeReader :=
  match r.mode with
  | .gap => if isSpace c then .ok r else .ok { r with mode := .key r.offset [c] }
  | .key position read =>
    if c = '=' then r.endKey position read
    else if isSpace c then .ok { r with mode := .afterKey position read }
    else .ok { r with mode := .key position (c :: read) }
  | .afterKey position read =>
    if isSpace c then .ok r
    else if c = '=' then r.endKey position read
    else .error (.noEquals r.offset)
  | .beforeValue key =>
    if isSpace c then .ok r
    else if c = '"' ∨ c = '\'' then .ok { r with mode := .value key c [] }
    else .error (.notQuoted r.offset)
  | .value key quote read =>
    if c = quote then r.endValue key read
    else .ok { r with mode := .value key quote (c :: read) }

/-- One character. -/
def step (r : AttributeReader) (c : Char) : Except AttributeCause AttributeReader :=
  (r.take c).map fun next => { next with offset := r.offset + c.utf8Size }

/-- The attributes when the tag ends here. -/
def finish (r : AttributeReader) : Except AttributeCause (List (String × String)) :=
  match r.mode with
  | .gap => .ok r.found.reverse
  | .key _ _ => .error (.noEquals r.offset)
  | .afterKey _ _ => .error (.noEquals r.offset)
  | .beforeValue _ => .error (.noValue r.offset)
  | .value _ quote _ => .error (.noClosingQuote r.offset quote)

/-- The reader of attributes as a machine. -/
def machine : Machine Char AttributeReader AttributeCause (List (String × String)) :=
  ⟨step, finish⟩

end AttributeReader

/-- The attributes of a tag whose content has them from octet `offset` on. -/
def readAttributes (offset : Nat) (content : List Char) :
    Except AttributeCause (List (String × String)) :=
  AttributeReader.machine.run (AttributeReader.start offset) content

end AuditTables.Xml
