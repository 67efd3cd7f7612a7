import AuditTables.Failure

/-!
# `AuditTables.Notice`: what is reported while events flow

Nothing that goes wrong with one event, one table or one source stops the
others. It is reported instead. A notice says what happened; its level, its
wording and the named details that go with it are functions of that, so an
operation that reports something simply returns the notices beside its result.
-/

set_option autoImplicit false

namespace AuditTables

/-- How serious a notice is. -/
inductive Level where
  | warning
  | error
  deriving DecidableEq, Repr

/-- Something worth reporting. -/
inductive Notice where
  /-- A queue was over its limit and lost its oldest rows. -/
  | rowsDropped (table : String) (count limit : Nat)
  /-- Settings name a table that there is not. -/
  | unknownTable (name : String)
  /-- A table could not read an event and left the rest of its batch. -/
  | tableFailed (table : String) (failure : Failure)
  /-- Every source is broken, with these codes. -/
  | allBroken (codes : List Nat)
  /-- A record of a file is no well-formed document. -/
  | recordDropped (failure : Failure)
  /-- A file that is followed could not be read. -/
  | fileUnreadable (failure : Failure)
  /-- A channel could not be subscribed to. -/
  | channelRefused (channel : String) (failure : Failure)
  /-- The file to follow could not be opened. -/
  | fileRefused (failure : Failure)
  /-- A channel will deliver no more. -/
  | channelBroken (channel : String) (code : Nat)
  /-- An event was dropped, after so many that went unreported. -/
  | eventDropped (channel : String) (failure : Failure) (unreported : Nat)
  /-- An event was dropped for a reason that is always reported. -/
  | eventLost (channel : String) (failure : Failure)
  deriving DecidableEq, Repr

/-- Codes as messages show them. -/
def codesText (codes : List Nat) : String :=
  "[" ++ ", ".intercalate (codes.map toString) ++ "]"

namespace Notice

def level : Notice → Level
  | tableFailed _ _ => .error
  | allBroken _ => .error
  | channelBroken _ _ => .error
  | eventLost _ _ => .error
  | _ => .warning

/-- The wording of a notice. -/
def message : Notice → String
  | rowsDropped table count limit =>
    "Dropped " ++ toString count ++ " rows from the " ++ table
      ++ " table; max_queued_row_count is " ++ toString limit
  | unknownTable _ => "Ignoring unknown table name in configuration"
  | tableFailed table _ => "The " ++ table ++ " table failed to process some events"
  | allBroken _ => "Every event subscription is broken; stopping"
  | recordDropped _ => "Dropping unparsable record"
  | fileUnreadable _ => "Failed to read replay file"
  | channelRefused _ _ => "Failed to subscribe to channel"
  | fileRefused _ => "Failed to open replay file"
  | channelBroken _ _ => "Event log subscription broken; no further events will be delivered"
  | eventDropped _ _ _ => "Dropping event"
  | eventLost _ _ => "Dropping event"

/-- The named details of a notice. -/
def details : Notice → List (String × String)
  | rowsDropped table count limit =>
    [("table", table), ("dropped", toString count), ("max_queued_row_count", toString limit)]
  | unknownTable name => [("table", name)]
  | tableFailed table failure => [("table", table), ("error", failure.message)]
  | allBroken codes => [("codes", codesText codes)]
  | recordDropped failure => [("error", failure.message)]
  | fileUnreadable failure => [("error", failure.message)]
  | channelRefused channel failure => [("channel", channel), ("error", failure.message)]
  | fileRefused failure => [("error", failure.message)]
  | channelBroken channel code => [("channel", channel), ("code", toString code)]
  | eventDropped channel failure unreported =>
    [("channel", channel), ("error", failure.message), ("suppressed", toString unreported)]
  | eventLost channel failure => [("channel", channel), ("error", failure.message)]

end Notice

end AuditTables
