import AuditTables.Event.Fields
import AuditTables.Failure
import AuditTables.Xml.Reader

/-!
# `AuditTables.Event.Record`: from a rendered record to an audit event

An audit event is what tables look at: the fixed fields of the record's
`System` element and the data text that holds everything else. `ofTree` takes
them out of the property tree. A field that is missing or unreadable is the
empty text, the event id zero, or minus one for the other numbers, so every
well-formed document makes an event.
-/

set_option autoImplicit false

namespace AuditTables

open AuditTables.Xml

/-- One entry of the security log. -/
structure AuditEvent where
  /-- Seconds of the host's clock when the event was taken in. -/
  captureTime : Int
  /-- The time that the source gave. -/
  eventTime : String
  source : String
  providerName : String
  providerGuid : String
  computerName : String
  /-- The number that tables select events by. -/
  eventId : Int
  taskId : Int
  level : Int
  processId : Int
  threadId : Int
  keywords : String
  /-- The data fields as JSON text. -/
  data : String
  deriving DecidableEq, Repr

namespace AuditEvent

/-- The event of which nothing is known. -/
def blank : AuditEvent :=
  ⟨0, "", "", "", "", "", 0, -1, -1, -1, -1, "", Event.Fields.empty.write⟩

/-- The named texts of a record. The children of `EventData` have their name in
an attribute or are named by their element. A record without it may carry its
fields one level deeper, under the first child of `UserData`. -/
def namedTexts (tree : Node) : List (String × String) :=
  match tree.child? "EventData" with
  | some parent => parent.children.map fun c => ((c.attribute? "Name").getD c.name, c.text)
  | none =>
    match (tree.child? "UserData").bind (·.children.head?) with
    | some parent => parent.children.map fun c => (c.name, c.text)
    | none => []

/-- The number that a text stands for, or a default. -/
def integerOr (default : Int) (raw : Option String) : Int :=
  (raw.bind Event.readInteger).getD default

/-- The event of a record. -/
def ofTree (captureTime : Int) (tree : Node) : AuditEvent :=
  let text (name : String) : Option String := tree.textAt? ["System", name]
  let entry (name key : String) : Option String := tree.attributeAt? ["System", name] key
  { captureTime := captureTime
    eventTime := (entry "TimeCreated" "SystemTime").getD ""
    source := (text "Channel").getD ""
    providerName := (entry "Provider" "Name").getD ""
    providerGuid := (entry "Provider" "Guid").getD ""
    computerName := (text "Computer").getD ""
    eventId := integerOr 0 (text "EventID")
    taskId := integerOr (-1) (text "Task")
    level := integerOr (-1) (text "Level")
    processId := integerOr (-1) (entry "Execution" "ProcessID")
    threadId := integerOr (-1) (entry "Execution" "ThreadID")
    keywords := (text "Keywords").getD ""
    data := (Event.Fields.ofTexts (namedTexts tree)).write }

/-- The property tree of a rendered record. -/
def readTree (record : String) : Except Failure Node :=
  match readDocument record.toList with
  | .ok tree => .ok tree
  | .error fault =>
    .error (.parse fault.cause.message (String.ofList (fault.fragment record.toList)))

/-- The event of a rendered record. -/
def read (captureTime : Int) (record : String) : Except Failure AuditEvent :=
  (readTree record).map (ofTree captureTime)

end AuditEvent

end AuditTables
