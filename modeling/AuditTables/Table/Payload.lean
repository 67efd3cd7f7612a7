import AuditTables.Event.Fields

/-!
# `AuditTables.Table.Payload`: what an event's fields describe

Event numbers are shared between things that have nothing to do with each other,
so tables also look at what the data fields describe. The kind is told by which
fields are there. The marks are tried in a fixed order, and the first one found
decides.
-/

set_option autoImplicit false

namespace AuditTables.Table

open AuditTables.Event

/-- What the data fields of an event describe. -/
inductive PayloadKind where
  | processCreation
  | processTermination
  | logon
  | connection
  | fileAccess
  | objectAccess
  | registryValue
  | unclassified
  deriving DecidableEq, Repr

/-- Whether two texts are equal, ASCII letters compared in any case. -/
def sameIgnoringCase (a b : String) : Bool :=
  a.toList.map Char.toLower == b.toList.map Char.toLower

/-- Whether the object that was accessed is a file. -/
def isFileObject (fields : Fields) : Bool :=
  (fields.text? "ObjectType").any (sameIgnoringCase "File")

/-- The kind of payload that fields make. -/
def PayloadKind.classify (fields : Fields) : PayloadKind :=
  let has := fields.contains
  if has "NewProcessId" || has "NewProcessName" then .processCreation
  else if has "LogonType" then .logon
  else if has "ObjectValueName" then .registryValue
  else if has "ObjectType" && (has "AccessList" || has "AccessMask") then
    if isFileObject fields then .fileAccess else .objectAccess
  else if has "Application" && has "DestAddress" then .connection
  else if has "ProcessName" && has "Status" then .processTermination
  else .unclassified

end AuditTables.Table
