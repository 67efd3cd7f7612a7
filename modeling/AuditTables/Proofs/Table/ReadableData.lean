import AuditTables.Proofs.Event.Capture
import AuditTables.Proofs.Event.DataFields
import AuditTables.Table.Registry
import Mathlib.Data.List.TakeWhile

/-!
# `AuditTables.Proofs.Table.ReadableData`: tables and events made of records

A table reads the data text of an event anew, and an event whose text it cannot read
stops the batch. An event made of a record (`FromRecord`) is never of that kind, whatever
the record looked like, because its data text reads back (`read_data_ofTree`). So
`fromRecord_never_fails` holds for every table, every batch and every queue. It also
says what a failure means: the data text is not one that a record makes.

The rows of any batch are those of the events before the first failure (`rowsOf_eq`).
`rowsOf_of_fromRecord` is the form that other proofs use. Without failures, the rows
that a table makes of a batch are the rows of its events one by one (`rowOr`), so
they do not depend on how events are put into batches.
-/

set_option autoImplicit false

namespace AuditTables.Proofs.Table

open AuditTables.Event AuditTables.Xml AuditTables.Table
open AuditTables.Proofs.Event

/-! ### The rows of a batch -/

/-- The row that a table makes of an event, none also if it cannot read the event. -/
def rowOr (d : Definition) (e : AuditEvent) : Option Row :=
  match d.row? e with
  | .ok row => row
  | .error _ => none

/-- The failure of a table on an event, if it fails. -/
def failureOf (d : Definition) (e : AuditEvent) : Option Failure :=
  match d.row? e with
  | .error failure => some failure
  | .ok _ => none

/-- The events of a batch before the first one that a table fails on. -/
def handled (d : Definition) (events : List AuditEvent) : List AuditEvent :=
  events.takeWhile fun e => (failureOf d e).isNone

/-- The rows of a batch are those of the events before the first failure. -/
theorem rowsOf_eq (d : Definition) (events : List AuditEvent) :
    LiveTable.rowsOf d events
      = ((handled d events).filterMap (rowOr d), events.findSome? (failureOf d)) := by
  induction events with
  | nil => rfl
  | cons e es ih =>
      cases hrow : d.row? e with
      | error failure => simp [LiveTable.rowsOf, handled, failureOf, hrow]
      | ok row =>
          have hhandled : handled d (e :: es) = e :: handled d es := by
            simp [handled, failureOf, hrow]
          have hfailure : (e :: es).findSome? (failureOf d) = es.findSome? (failureOf d) := by
            simp [failureOf, hrow]
          rw [hhandled, hfailure, LiveTable.rowsOf, hrow, ih]
          cases row with
          | none => simp [rowOr, hrow]
          | some row => simp [rowOr, hrow]

/-- A table does not fail on the events before the first failure. -/
theorem findSome?_handled (d : Definition) (events : List AuditEvent) :
    (handled d events).findSome? (failureOf d) = none := by
  refine List.findSome?_eq_none_iff.mpr fun e he => ?_
  simpa using List.mem_takeWhile_imp he

/-- All events of a batch without failures are handled. -/
theorem handled_of_findSome?_eq_none (d : Definition) {events : List AuditEvent}
    (h : events.findSome? (failureOf d) = none) : handled d events = events := by
  refine List.takeWhile_eq_self_iff.mpr fun e he => ?_
  simpa using List.findSome?_eq_none_iff.mp h e he

/-! ### Events made of records -/

/-- The data text of an event made of a record reads back. -/
theorem read_data_of_fromRecord {e : AuditEvent} (h : FromRecord e) :
    ∃ fields, Fields.read e.data = .ok fields := by
  obtain ⟨now, record, hread⟩ := h
  obtain ⟨tree, -, rfl⟩ := exists_tree_of_read hread
  exact ⟨_, read_data_ofTree now tree⟩

/-- Reading the data text is the only step of a table that can fail. -/
theorem row?_of_read_data (d : Definition) {e : AuditEvent} {fields : Fields}
    (h : Fields.read e.data = .ok fields) : ∃ row, d.row? e = .ok row := by
  unfold Definition.row?
  split
  · exact ⟨none, rfl⟩
  · split
    · exact ⟨_, rfl⟩
    · rw [h]
      exact ⟨_, rfl⟩

/-- A table does not fail on an event made of a record. -/
theorem row?_of_fromRecord (d : Definition) {e : AuditEvent} (h : FromRecord e) :
    d.row? e = .ok (rowOr d e) := by
  obtain ⟨fields, hfields⟩ := read_data_of_fromRecord h
  obtain ⟨row, hrow⟩ := row?_of_read_data d hfields
  rw [rowOr, hrow]

/-- The rows that a table makes of events made of records are the rows of the events one
by one, and there is no failure. -/
theorem rowsOf_of_fromRecord (d : Definition) {events : List AuditEvent}
    (h : ∀ e ∈ events, FromRecord e) :
    LiveTable.rowsOf d events = (events.filterMap (rowOr d), none) := by
  have hnone : events.findSome? (failureOf d) = none := by
    refine List.findSome?_eq_none_iff.mpr fun e he => ?_
    rw [failureOf, row?_of_fromRecord d (h e he)]
  rw [rowsOf_eq, handled_of_findSome?_eq_none d hnone, hnone]

/-- A table whatever its queue holds takes a batch of events made of records without a
failure. -/
theorem process_of_fromRecord (t : LiveTable) {events : List AuditEvent}
    (h : ∀ e ∈ events, FromRecord e) : (t.process events).2.2 = none := by
  show (LiveTable.rowsOf t.definition events).2 = none
  rw [rowsOf_of_fromRecord t.definition h]

/-- Events made of records never fail in a table. Their data text reads back, so every
table either shows such an event or passes it over, and takes any batch of them with any
rows waiting. A table that does fail on an event was given a data text that no record
makes. -/
theorem fromRecord_never_fails (events : List AuditEvent) (h : ∀ e ∈ events, FromRecord e) :
    (∀ e ∈ events, (∃ fields, Fields.read e.data = .ok fields) ∧
      ∀ d : Definition, ∃ row, d.row? e = .ok row) ∧
    (∀ t : LiveTable, (t.process events).2.2 = none) ∧
    ∀ (d : Definition) (e : AuditEvent) (failure : Failure), d.row? e = .error failure →
      ∀ (captureTime : Int) (tree : Node), e.data ≠ (AuditEvent.ofTree captureTime tree).data := by
  refine ⟨fun e he => ⟨read_data_of_fromRecord (h e he), fun d => ?_⟩,
    fun t => process_of_fromRecord t h, ?_⟩
  · exact ⟨_, row?_of_fromRecord d (h e he)⟩
  · intro d e failure hfailed captureTime tree hdata
    have hread := read_data_ofTree captureTime tree
    rw [← hdata] at hread
    obtain ⟨row, hrow⟩ := row?_of_read_data d hread
    rw [hrow] at hfailed
    cases hfailed

/-- A record with the number of a process creation, which is for a table that reads the
data text. -/
def creationRecord : String :=
  "<E><System><EventID>4688</EventID></System><EventData><a>x</a></EventData></E>"

/-- The table of process creations reads the data text of such a record, and does not fail
on the event. -/
theorem fromRecord_never_fails_creation :
    ∃ e, AuditEvent.read 7 creationRecord = .ok e ∧
      Catalogue.processCreation.selects e.eventId = true ∧
      ((LiveTable.new 1 Catalogue.processCreation).process [e]).2.2 = none := by
  refine ⟨_, rfl, rfl, (fromRecord_never_fails _ ?_).2.1 _⟩
  intro e he
  rw [List.mem_singleton.mp he]
  exact ⟨7, creationRecord, rfl⟩

end AuditTables.Proofs.Table
