import AuditTables.Decimal.Reading
import AuditTables.Event.Record
import AuditTables.Flow.Key
import AuditTables.Table.Payload
import AuditTables.Table.Row

/-!
# `AuditTables.Table.Definition`: what a table selects and shows

A table is defined by data: the event numbers it looks at, the kinds of payload
it accepts, the data fields it shows as columns, and a last step that fills
columns from more than one field. `Definition.row?` is what all tables do with an
event. An event is not for a table if its number or its payload is not; its data
text is read only once the number fits, and only then can it be found
unreadable.

Every row has the thirteen columns of `systemColumns`, taken from the event
itself. A field that is missing, or is of the wrong form, shows as the empty text
or minus one, never as null.
-/

set_option autoImplicit false

namespace AuditTables.Table

open AuditTables.Text AuditTables.Decimal AuditTables.Event

/-- A data field shown as a column. -/
structure Field where
  column : String
  key : String
  type : ColumnType
  deriving DecidableEq, Repr

namespace Field

/-- The column that a field fills. -/
def toColumn (f : Field) : Column := ⟨f.column, f.type⟩

/-- What a whole number column shows for a missing number. -/
def missingInteger : Int := -1

/-- What a double column shows for a missing number. -/
def missingDouble : Binary64 := Binary64.ofRatio true 1 1

/-- What a field shows. A double has to be written as text. -/
def cell (f : Field) (fields : Fields) : Cell :=
  match f.type with
  | .string => .text ((fields.text? f.key).getD "")
  | .integer => .integer ((fields.integer? f.key).getD missingInteger)
  | .double =>
    .double (((fields.text? f.key).bind fun s => readBinary64 (trim s.toList)).getD missingDouble)

end Field

/-- The columns that every table has. -/
def systemColumns : List Column :=
  [⟨"capture_time", .integer⟩, ⟨"event_time", .string⟩, ⟨"source", .string⟩,
   ⟨"provider_name", .string⟩, ⟨"provider_guid", .string⟩, ⟨"computer_name", .string⟩,
   ⟨"event_id", .integer⟩, ⟨"task_id", .integer⟩, ⟨"level", .integer⟩, ⟨"pid", .integer⟩,
   ⟨"tid", .integer⟩, ⟨"keywords", .string⟩, ⟨"data", .string⟩]

/-- What an event shows in the columns that every table has. -/
def systemCells (e : AuditEvent) : List (String × Cell) :=
  [("capture_time", .integer e.captureTime), ("event_time", .text e.eventTime),
   ("source", .text e.source), ("provider_name", .text e.providerName),
   ("provider_guid", .text e.providerGuid), ("computer_name", .text e.computerName),
   ("event_id", .integer e.eventId), ("task_id", .integer e.taskId), ("level", .integer e.level),
   ("pid", .integer e.processId), ("tid", .integer e.threadId), ("keywords", .text e.keywords),
   ("data", .text e.data)]

/-- A step that fills columns after the fields have. -/
inductive Enrichment where
  /-- The elevation of a process token, which is written as a message number. -/
  | elevation
  /-- The direction of a connection in words, and its flow's fingerprint. -/
  | connection
  deriving DecidableEq, Repr

/-- The elevation that a message number stands for. -/
def elevationOf (raw : String) : Option Int :=
  let code := trimmed raw
  if code = "%%1936" then some 1
  else if code = "%%1937" then some 2
  else if code = "%%1938" then some 3
  else none

/-- The direction that a message number stands for. Other text stands for
itself. -/
def directionOf (raw : String) : String :=
  let code := trimmed raw
  if code = "%%14592" then "inbound"
  else if code = "%%14593" then "outbound"
  else code

/-- The fingerprint of the flow that fields describe, empty if they name no
protocol. -/
def flowFingerprint (fields : Fields) : String :=
  match fields.integer? "Protocol" with
  | none => ""
  | some protocol =>
    Flow.communityId ((fields.text? "SourceAddress").getD "") ((fields.text? "DestAddress").getD "")
      ((fields.integer? "SourcePort").getD (-1)) ((fields.integer? "DestPort").getD (-1)) protocol

/-- The cells that a step fills. -/
def Enrichment.cells (step : Enrichment) (fields : Fields) : List (String × Cell) :=
  match step with
  | .elevation =>
    match (fields.text? "TokenElevationType").bind elevationOf with
    | some n => [("token_elevation_type", .integer n)]
    | none => []
  | .connection =>
    let direction := match fields.text? "Direction" with
      | some raw => [("direction", Cell.text (directionOf raw))]
      | none => []
    direction ++ [("community_id", .text (flowFingerprint fields))]

/-- What a table selects and shows. -/
structure Definition where
  name : String
  /-- The event numbers that it looks at; any, if there are none. -/
  eventIds : Option (List Int)
  /-- The payloads that it accepts; any, if there are none. -/
  kinds : Option (List PayloadKind)
  /-- Whether it reads the data text at all. -/
  readsData : Bool
  fields : List Field
  /-- The columns that only the last step fills. -/
  derived : List Column
  enrichment : Option Enrichment
  deriving DecidableEq, Repr

namespace Definition

/-- The columns of a table, in declared order. -/
def schema (d : Definition) : List Column :=
  systemColumns ++ d.fields.map Field.toColumn ++ d.derived

/-- Whether a table looks at an event number. -/
def selects (d : Definition) (eventId : Int) : Bool :=
  match d.eventIds with
  | none => true
  | some ids => ids.contains eventId

/-- Whether a table accepts what fields describe. -/
def accepts (d : Definition) (fields : Fields) : Bool :=
  match d.kinds with
  | none => true
  | some kinds => kinds.contains (PayloadKind.classify fields)

/-- The row with the columns that every table has. -/
def systemRow (e : AuditEvent) : Row := Row.empty.setAll (systemCells e)

/-- The cells that a table's fields and its last step fill, in the order they
are written. -/
def dataCells (d : Definition) (fields : Fields) : List (String × Cell) :=
  d.fields.map (fun f => (f.column, f.cell fields))
    ++ (match d.enrichment with
      | some step => step.cells fields
      | none => [])

/-- The row of an event whose fields have been read. -/
def rowOf (d : Definition) (e : AuditEvent) (fields : Fields) : Row :=
  (systemRow e).setAll (d.dataCells fields)

/-- The row that a table makes of an event; none if the event is not for the
table. -/
def row? (d : Definition) (e : AuditEvent) : Except Failure (Option Row) :=
  if !d.selects e.eventId then .ok none
  else if !d.readsData then .ok (some (systemRow e))
  else
    match Fields.read e.data with
    | .error fault => .error (.malformedPayload d.name e.eventId fault.message)
    | .ok fields => .ok (if d.accepts fields then some (d.rowOf e fields) else none)

end Definition

end AuditTables.Table
