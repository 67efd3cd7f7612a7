import AuditTables.Event.Record

/-!
# `AuditTables.Source.Buffer`: events waiting to be taken

A buffer hands events from whoever delivers them to whoever asks for them.
Events leave in the order they came, all at once.
-/

set_option autoImplicit false

namespace AuditTables.Source

/-- Events that wait, in the order they came. -/
structure Buffer where
  events : List AuditEvent
  deriving DecidableEq, Repr

namespace Buffer

/-- The buffer without events. -/
def empty : Buffer := ⟨[]⟩

/-- One more event. -/
def push (b : Buffer) (event : AuditEvent) : Buffer := ⟨b.events ++ [event]⟩

/-- More events. -/
def extend (b : Buffer) (events : List AuditEvent) : Buffer := ⟨b.events ++ events⟩

/-- All events, and the buffer without them. -/
def drain (b : Buffer) : List AuditEvent × Buffer := (b.events, empty)

def size (b : Buffer) : Nat := b.events.length

def isEmpty (b : Buffer) : Bool := b.events.isEmpty

end Buffer

end AuditTables.Source
