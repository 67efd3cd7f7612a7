import AuditTables.Proofs.Keyed
import AuditTables.Proofs.Table.ReadableData

/-!
# `AuditTables.Proofs.Table.CaptureTime`: the one column that depends on the clock

An event shows the time of its capture in one column. `rowOr_stamp` says that this is all
the clock does to a row. A table of the catalogue that is given the event of another time
makes the same row with the other time in that column, or no row as before.

A row is its cells in order, so two rows are equal if they show the same in every column
(`row_ext`). Writes to different columns therefore commute, which moves the write of the
capture time past all others. No other column of the catalogue has its name.
-/

set_option autoImplicit false

namespace AuditTables.Proofs.Table

open AuditTables.Event AuditTables.Table
open AuditTables.Proofs.Event AuditTables.Proofs.Keyed

/-- The column that shows when an event was taken in. -/
def captureColumn : String := "capture_time"

/-- A row as it would be if its event had been taken in at another time. -/
def stampRow (now : Int) (row : Row) : Row := row.set captureColumn (.integer now)

/-! ### Writes to a row -/

/-- Rows that show the same in every column are the same. -/
theorem row_ext {row row' : Row} (h : ∀ column, row.get? column = row'.get? column) :
    row = row' := by
  obtain ⟨cells, hcells⟩ := row
  obtain ⟨cells', hcells'⟩ := row'
  have heq : cells = cells' := eq_of_get?_eq hcells hcells' h
  subst heq
  rfl

/-- A second write to a column replaces the first. -/
theorem set_set (row : Row) (column : String) (cell cell' : Cell) :
    (row.set column cell).set column cell' = row.set column cell' := by
  refine row_ext fun other => ?_
  by_cases h : column = other
  · rw [← h, Row.get?_set_self, Row.get?_set_self]
  · rw [Row.get?_set_of_ne _ h, Row.get?_set_of_ne _ h, Row.get?_set_of_ne _ h]

/-- Writes to different columns commute. -/
theorem set_comm (row : Row) {column column' : String} (h : column ≠ column')
    (cell cell' : Cell) :
    (row.set column cell).set column' cell' = (row.set column' cell').set column cell := by
  refine row_ext fun other => ?_
  by_cases hfirst : column = other
  · have hsecond : column' ≠ other := fun heq => h (hfirst.trans heq.symm)
    rw [Row.get?_set_of_ne _ hsecond, ← hfirst, Row.get?_set_self, Row.get?_set_self]
  · rw [Row.get?_set_of_ne _ hfirst]
    by_cases hsecond : column' = other
    · rw [← hsecond, Row.get?_set_self, Row.get?_set_self]
    · rw [Row.get?_set_of_ne _ hsecond, Row.get?_set_of_ne _ hsecond,
        Row.get?_set_of_ne _ hfirst]

/-- The first of several writes comes first. -/
theorem setAll_cons (row : Row) (p : String × Cell) (cells : List (String × Cell)) :
    row.setAll (p :: cells) = (row.set p.1 p.2).setAll cells := rfl

/-- A write commutes with writes to other columns. -/
theorem setAll_set (row : Row) {column : String} (cell : Cell) {cells : List (String × Cell)}
    (h : ∀ p ∈ cells, p.1 ≠ column) :
    (row.set column cell).setAll cells = (row.setAll cells).set column cell := by
  induction cells generalizing row with
  | nil => rfl
  | cons p cells ih =>
      have hfirst : column ≠ p.1 := fun heq => h p List.mem_cons_self heq.symm
      have hrest : ∀ p' ∈ cells, p'.1 ≠ column := fun p' hp' =>
        h p' (List.mem_cons_of_mem p hp')
      rw [setAll_cons, setAll_cons, set_comm row hfirst, ih (row.set p.1 p.2) hrest]

/-! ### Rows of events -/

/-- The capture time is the first cell of an event, and no other one is in its column. -/
theorem systemCells_stamp (e : AuditEvent) :
    ∃ others, (∀ time, systemCells (stamp time e) = (captureColumn, .integer time) :: others) ∧
      ∀ p ∈ others, p.1 ≠ captureColumn := by
  refine ⟨(systemCells e).tail, fun time => rfl, ?_⟩
  simp [systemCells, captureColumn]

/-- The columns that every table has show another time and nothing else differently. -/
theorem systemRow_stamp (now : Int) (e : AuditEvent) :
    Definition.systemRow (stamp now e) = stampRow now (Definition.systemRow e) := by
  obtain ⟨others, hcells, hothers⟩ := systemCells_stamp e
  have hrow : ∀ time : Int, Definition.systemRow (stamp time e)
      = (Row.empty.setAll others).set captureColumn (.integer time) := by
    intro time
    rw [Definition.systemRow, hcells time, setAll_cons, setAll_set _ _ hothers]
  -- The event itself is the one stamped with its own time.
  have hself : stamp e.captureTime e = e := rfl
  have hstart := hrow e.captureTime
  rw [hself] at hstart
  rw [hrow now, stampRow, hstart, set_set]

/-- A table of the catalogue shows no data field in the column of the capture time. -/
theorem column_ne_of_mem_fields {d : Definition} (h : d ∈ catalogue) {f : Field}
    (hf : f ∈ d.fields) : f.column ≠ captureColumn := by
  have hall : ∀ d ∈ catalogue, ∀ f ∈ d.fields, f.column ≠ captureColumn := by decide
  exact hall d h f hf

/-- No last step fills the column of the capture time. -/
theorem column_ne_of_mem_cells (step : Enrichment) (fields : Fields) {p : String × Cell}
    (h : p ∈ step.cells fields) : p.1 ≠ captureColumn := by
  cases step with
  | elevation =>
      rw [Enrichment.cells] at h
      split at h
      · rw [List.mem_singleton.mp h]
        show "token_elevation_type" ≠ captureColumn
        decide
      · cases h
  | connection =>
      rcases List.mem_append.mp h with h | h
      · split at h
        · rw [List.mem_singleton.mp h]
          show "direction" ≠ captureColumn
          decide
        · cases h
      · rw [List.mem_singleton.mp h]
        show "community_id" ≠ captureColumn
        decide

/-- A table of the catalogue fills the column of the capture time from the event alone. -/
theorem column_ne_of_mem_dataCells {d : Definition} (h : d ∈ catalogue) (fields : Fields)
    {p : String × Cell} (hp : p ∈ d.dataCells fields) : p.1 ≠ captureColumn := by
  rcases List.mem_append.mp hp with hp | hp
  · obtain ⟨f, hf, rfl⟩ := List.mem_map.mp hp
    exact column_ne_of_mem_fields h hf
  · split at hp
    · exact column_ne_of_mem_cells _ fields hp
    · cases hp

/-- The clock decides what a row shows in the column of the capture time, and nothing
else. -/
theorem rowOr_stamp {d : Definition} (h : d ∈ catalogue) (now : Int) (e : AuditEvent) :
    rowOr d (stamp now e) = (rowOr d e).map (stampRow now) := by
  have hrowOf : ∀ fields, d.rowOf (stamp now e) fields = stampRow now (d.rowOf e fields) := by
    intro fields
    rw [Definition.rowOf, Definition.rowOf, systemRow_stamp]
    exact setAll_set _ _ fun p hp => column_ne_of_mem_dataCells h fields hp
  have hselects : d.selects (stamp now e).eventId = d.selects e.eventId := rfl
  have hdata : Fields.read (stamp now e).data = Fields.read e.data := rfl
  unfold rowOr Definition.row?
  rw [hselects, hdata, systemRow_stamp]
  cases d.selects e.eventId with
  | false => rfl
  | true =>
      cases d.readsData with
      | false => rfl
      | true =>
          cases Fields.read e.data with
          | error fault => rfl
          | ok fields =>
              cases haccepts : d.accepts fields with
              | false => simp [haccepts]
              | true => simp [haccepts, hrowOf]

/-- The rows of events of another time are the rows of the events, with that time. -/
theorem filterMap_rowOr_stamp {d : Definition} (h : d ∈ catalogue) (now : Int)
    (events : List AuditEvent) :
    (events.map (stamp now)).filterMap (rowOr d)
      = (events.filterMap (rowOr d)).map (stampRow now) := by
  have hrow : rowOr d ∘ stamp now = fun e => (rowOr d e).map (stampRow now) :=
    funext fun e => rowOr_stamp h now e
  rw [List.filterMap_map, List.map_filterMap, hrow]

end AuditTables.Proofs.Table
