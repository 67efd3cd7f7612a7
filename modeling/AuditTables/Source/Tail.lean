import AuditTables.Event.Record
import AuditTables.Event.Stream
import AuditTables.Notice

/-!
# `AuditTables.Source.Tail`: following a file of records

A file of rendered records is followed as it grows. Each poll looks at the file
from where the last one stopped, takes every complete record there, and stops
again at what may still grow into one. A file that has become shorter than that
place was written anew and is read from its beginning. This is noticed as soon as
the file is open, so it holds for a file that cannot be read as well.

A record is decoded and parsed on its own, at the time that the clock then shows.
One that is no well-formed document is reported and left out.
-/

set_option autoImplicit false

namespace AuditTables.Source

open AuditTables.Text AuditTables.Event

/-- What the clock shows when the records of a poll are parsed, one after the other. -/
structure Clock where
  reading : Nat → Int

namespace Clock

/-- A clock that shows one time for all records. -/
def still (now : Int) : Clock := ⟨fun _ => now⟩

/-- A clock after its first reading. -/
def next (clock : Clock) : Clock := ⟨fun i => clock.reading (i + 1)⟩

/-- A number stands for the clock that shows it all the time. -/
instance (n : Nat) : OfNat Clock n := ⟨.still n⟩

@[simp] theorem reading_still (now : Int) (i : Nat) : (still now).reading i = now := rfl

@[simp] theorem next_still (now : Int) : (still now).next = still now := rfl

end Clock

/-- What a poll finds of a file. -/
inductive Look where
  /-- The file cannot be opened. -/
  | unopened (failure : Failure)
  /-- The file can be opened, which tells its length, but it cannot be read. -/
  | unread (length : Nat) (failure : Failure)
  | content (bytes : List UInt8)

/-- A file that is either there with its content or not there at all. -/
instance : Coe (Except Failure (List UInt8)) Look where
  coe
    | .ok bytes => .content bytes
    | .error failure => .unopened failure

/-- How much of a file has been taken. -/
structure Tail where
  offset : Nat
  deriving DecidableEq, Repr

/-- What a poll of a source gives. -/
structure Batch where
  events : List AuditEvent
  notices : List Notice

namespace Batch

/-- A batch of nothing. -/
def empty : Batch := ⟨[], []⟩

/-- The events of records, in order, with a notice for each record that is no
document. -/
def ofRecords (clock : Clock) : List String → Batch
  | [] => empty
  | record :: rest =>
    let later := ofRecords clock.next rest
    match AuditEvent.read (clock.reading 0) record with
    | .ok event => ⟨event :: later.events, later.notices⟩
    | .error failure => ⟨later.events, .recordDropped failure :: later.notices⟩

end Batch

namespace Tail

/-- The tail of a file of which nothing has been taken. -/
def start : Tail := ⟨0⟩

/-- Where a poll of a file of so many octets begins. -/
def resume (t : Tail) (length : Nat) : Nat := if length < t.offset then 0 else t.offset

/-- A poll of a file, given what it finds. A file that cannot be opened leaves the
place as it is. One that cannot be read leaves it where the poll began, and is
only tried if there is something to read. -/
def poll (t : Tail) (clock : Clock) : Look → Tail × Batch
  | .unopened failure => (t, ⟨[], [.fileUnreadable failure]⟩)
  | .unread length failure =>
    let place := t.resume length
    (⟨place⟩, if length = place then Batch.empty else ⟨[], [.fileUnreadable failure]⟩)
  | .content bytes =>
    let place := t.resume bytes.length
    let (records, consumed) := splitTexts (bytes.drop place)
    (⟨place + consumed⟩, Batch.ofRecords clock records)

end Tail

end AuditTables.Source
