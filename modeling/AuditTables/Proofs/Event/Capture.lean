import AuditTables.Event.Record
import AuditTables.Event.Stream

/-!
# `AuditTables.Proofs.Event.Capture`: events, their records and the time of capture

An event is made of a record at some time (`FromRecord`). The time is kept in the event, and
nothing else in the event depends on it. `stamp` gives an event another time, and `stamp_read`
says that this is the event which the same record makes at that time. Events taken in at
different times are compared in this way.

`eventsOf` is the yardstick for readers of a file. It splits all of a content at once and
reads every record at one time.
-/

set_option autoImplicit false

namespace AuditTables.Proofs.Event

open AuditTables.Text AuditTables.Event

/-- An event made of a record, at any time. -/
def FromRecord (e : AuditEvent) : Prop := ∃ now record, AuditEvent.read now record = .ok e

/-- An event as it would have been if it had been taken in at another time. -/
def stamp (now : Int) (e : AuditEvent) : AuditEvent := { e with captureTime := now }

/-- The events of the complete records of a content, in order, if they are read at a
time. A record that is no document makes none. -/
def eventsOf (now : Int) (content : List UInt8) : List AuditEvent :=
  (split content).1.filterMap fun s =>
    (AuditEvent.read now (Utf8.decode (s.slice content))).toOption

/-- A record that makes an event has a property tree, and the event is made of that. -/
theorem exists_tree_of_read {now : Int} {record : String} {e : AuditEvent}
    (h : AuditEvent.read now record = .ok e) :
    ∃ tree, AuditEvent.readTree record = .ok tree ∧ e = AuditEvent.ofTree now tree := by
  unfold AuditEvent.read at h
  cases htree : AuditEvent.readTree record with
  | error failure =>
      rw [htree] at h
      cases h
  | ok tree =>
      rw [htree] at h
      exact ⟨tree, rfl, (Except.ok.inj h).symm⟩

/-- An event carries the time at which its record was read. -/
theorem captureTime_of_read {now : Int} {record : String} {e : AuditEvent}
    (h : AuditEvent.read now record = .ok e) : e.captureTime = now := by
  obtain ⟨tree, -, rfl⟩ := exists_tree_of_read h
  rfl

/-- The time is the only thing that an event does not take from its record. -/
theorem stamp_read (now later : Int) (record : String) :
    (AuditEvent.read now record).toOption.map (stamp later)
      = (AuditEvent.read later record).toOption := by
  unfold AuditEvent.read
  cases AuditEvent.readTree record with
  | error failure => rfl
  | ok tree => rfl

/-- The events read from records are those that some of the records make. -/
theorem exists_read_of_mem {α : Type} {now : Int} {records : List α} {text : α → String}
    {e : AuditEvent}
    (h : e ∈ records.filterMap fun r => (AuditEvent.read now (text r)).toOption) :
    ∃ r ∈ records, AuditEvent.read now (text r) = .ok e := by
  obtain ⟨r, hr, hread⟩ := List.mem_filterMap.mp h
  cases hrecord : AuditEvent.read now (text r) with
  | error failure =>
      rw [hrecord] at hread
      cases hread
  | ok event =>
      rw [hrecord] at hread
      exact ⟨r, hr, hrecord.trans (congrArg Except.ok (Option.some.inj hread))⟩

/-- The events of a content are made of records. -/
theorem fromRecord_of_mem_eventsOf {now : Int} {content : List UInt8} {e : AuditEvent}
    (h : e ∈ eventsOf now content) : FromRecord e := by
  obtain ⟨s, -, hread⟩ := exists_read_of_mem h
  exact ⟨now, _, hread⟩

end AuditTables.Proofs.Event
