/-!
# `AuditTables.Failure`: what can go wrong between a source and a table

Failures are causes with the details that their wording needs. Two of them
concern a single event and only cost that event; all others are handed to
whoever asked.
-/

set_option autoImplicit false

namespace AuditTables

/-- A failure of the way from a source to a table. -/
inductive Failure where
  /-- The system refused a subscription to a channel. -/
  | subscription (channel : String) (code : Nat)
  /-- An event could not be rendered as markup. -/
  | render (code : Nat)
  /-- A record is no well-formed document; a part of it around the fault. -/
  | parse (message fragment : String)
  /-- The data of an event is not what a table can read. -/
  | malformedPayload (table : String) (eventId : Int) (message : String)
  | outOfMemory (context : String)
  /-- The system's own words about a file. -/
  | io (message : String)
  deriving DecidableEq, Repr

namespace Failure

/-- The wording of a failure. -/
def message : Failure → String
  | subscription channel code =>
    "failed to subscribe to channel '" ++ channel ++ "' (os error " ++ toString code ++ ")"
  | render code => "failed to render event (os error " ++ toString code ++ ")"
  | parse text fragment =>
    "failed to parse event payload: " ++ text ++ " (near '" ++ fragment ++ "')"
  | malformedPayload table eventId text =>
    table ++ ": malformed EventData for event " ++ toString eventId ++ ": " ++ text
  | outOfMemory context => "out of memory while " ++ context
  | io text => text

/-- Whether a failure costs one event and no more. -/
def isPerEvent : Failure → Bool
  | render _ => true
  | parse _ _ => true
  | _ => false

/-- The system's code for an operation that it does not offer. -/
def notSupported : Nat := 50

end Failure

end AuditTables
