import AuditTables.Event.Integer
import AuditTables.Json.Printer
import AuditTables.Json.Reader

/-!
# `AuditTables.Event.Fields`: the data fields of an event

An event carries its data fields as JSON text, an object with the single key
`EventData` under which the fields stand. `write` makes that text, and `read`
takes the fields out of any text of that kind. Tables look fields up by key: as
text, which only JSON strings are, or as a whole number, which a string may
stand for or a JSON number may be.
-/

set_option autoImplicit false

namespace AuditTables.Event

open AuditTables.Json

/-- The key that the fields stand under. -/
def fieldsKey : String := "EventData"

/-- The data fields of an event, by ascending key. -/
structure Fields where
  entries : List (String × Value)
  deriving Repr

namespace Fields

/-- What can be wrong with the data of an event. -/
inductive Fault where
  | notJson (message : String)
  | notObject
  /-- The fields are this value and no object. -/
  | fieldsNotObject (found : Value)
  deriving Repr

/-- The wording of such a fault. -/
def Fault.message : Fault → String
  | .notJson text => text
  | .notObject => "payload is not a JSON object"
  | .fieldsNotObject found => "EventData is not an object: " ++ found.render

/-- No fields. -/
def empty : Fields := ⟨[]⟩

/-- The fields of a JSON value. An object without the key has none. -/
def ofValue : Value → Except Fault Fields
  | .object entries =>
    match Keyed.get? fieldsKey entries with
    | none => .ok empty
    | some (.object fields) => .ok ⟨fields⟩
    | some other => .error (.fieldsNotObject other)
  | _ => .error .notObject

/-- The fields that a data text holds. -/
def read (data : String) : Except Fault Fields :=
  match Json.read data.toList with
  | .error e => .error (.notJson (e.message data.toList))
  | .ok v => ofValue v

/-- Fields as a data text. -/
def write (fields : Fields) : String :=
  (Value.object [(fieldsKey, .object fields.entries)]).render

def size (fields : Fields) : Nat := fields.entries.length

def isEmpty (fields : Fields) : Bool := fields.entries.isEmpty

/-- The value of a field. -/
def get? (fields : Fields) (key : String) : Option Value := Keyed.get? key fields.entries

/-- Whether there is a field of this key, of whatever value. -/
def contains (fields : Fields) (key : String) : Bool := (fields.get? key).isSome

/-- The text of a field that is a JSON string. -/
def text? (fields : Fields) (key : String) : Option String :=
  (fields.get? key).bind Value.asText

/-- The whole number that a JSON value stands for. A double stands for none,
and so does a number beyond the signed ones of 64 bits. -/
def integerOf : Value → Option Int
  | .text raw => readInteger raw
  | .number (.whole n) => if Decimal.inInt64 n then some n else none
  | _ => none

/-- The whole number of a field. -/
def integer? (fields : Fields) (key : String) : Option Int :=
  (fields.get? key).bind integerOf

/-- A text added under a key. The texts of a repeated key are collected in a
list, in the order they were added. -/
def add (fields : Fields) (key text : String) : Fields :=
  let value := match fields.get? key with
    | none => Value.text text
    | some (.list items) => .list (items ++ [.text text])
    | some first => .list [first, .text text]
  ⟨Keyed.put key value fields.entries⟩

/-- The fields that named texts make. -/
def ofTexts (texts : List (String × String)) : Fields :=
  texts.foldl (fun fields p => fields.add p.1 p.2) empty

end Fields

end AuditTables.Event
