import AuditTables.Notice
import AuditTables.Source.Buffer
import AuditTables.Source.Throttle

/-!
# `AuditTables.Source.Channel`: a channel that delivers events

The system delivers the events of a subscribed channel one at a time, as markup
or as the failure to render it. Deliveries that make an event wait in a buffer;
the others are reported, at most one of a kind per window.

A channel breaks at most once: the first code it reports stays, and nothing that
comes after it is taken or reported. Closing a channel ends it in the same way,
and a channel that was closed can no longer break.
-/

set_option autoImplicit false

namespace AuditTables.Source

/-- Whether a source can still give events. -/
inductive Health where
  | active
  | broken (code : Nat)
  deriving DecidableEq, Repr

/-- The code of a broken source. -/
def Health.code? : Health → Option Nat
  | active => none
  | broken code => some code

/-- How long a notice of one kind keeps later ones back, in milliseconds. -/
def dropWindow : Nat := 10000

/-- A channel with the events that wait. -/
structure Channel where
  name : String
  buffer : Buffer
  closing : Bool
  health : Health
  throttle : Throttle

namespace Channel

/-- A channel just subscribed to. -/
def new (name : String) : Channel := ⟨name, Buffer.empty, false, .active, Throttle.new dropWindow⟩

/-- Whether deliveries are taken. -/
def accepting (c : Channel) : Bool := !c.closing && c.health == .active

/-- The kind that a failure of one event is held back under. -/
def dropKey : Failure → String
  | .render _ => "render"
  | _ => "parse"

/-- A failure reported. Only failures that cost a single event are ever held
back. -/
def report (c : Channel) (now : Nat) (failure : Failure) : Channel × List Notice :=
  if failure.isPerEvent then
    let (throttle, decision) := c.throttle.ask now (dropKey failure)
    let notices := match decision with
      | some unreported => [Notice.eventDropped c.name failure unreported]
      | none => []
    ({ c with throttle := throttle }, notices)
  else (c, [.eventLost c.name failure])

/-- The event that a delivery makes. -/
def eventOf (captureTime : Int) (rendered : Except Failure String) : Except Failure AuditEvent :=
  rendered.bind (AuditEvent.read captureTime)

/-- A delivery. -/
def deliver (c : Channel) (now : Nat) (captureTime : Int) (rendered : Except Failure String) :
    Channel × List Notice :=
  if c.accepting then
    match eventOf captureTime rendered with
    | .ok event => ({ c with buffer := c.buffer.push event }, [])
    | .error failure => c.report now failure
  else (c, [])

/-- The system says that the channel will deliver no more. -/
def markBroken (c : Channel) (code : Nat) : Channel × List Notice :=
  if c.accepting then ({ c with health := .broken code }, [.channelBroken c.name code])
  else (c, [])

/-- The subscription is given up. -/
def close (c : Channel) : Channel := { c with closing := true }

/-- The events that wait, and the channel without them. -/
def drain (c : Channel) : List AuditEvent × Channel :=
  let (events, buffer) := c.buffer.drain
  (events, { c with buffer := buffer })

/-- Subscribing to a channel is something that only the system whose log it is
can do. Elsewhere it is refused. -/
def subscribe (name : String) : Except Failure Channel :=
  .error (.subscription name Failure.notSupported)

end Channel

end AuditTables.Source
