import AuditTables.Proofs.Keyed
import AuditTables.Table.Catalogue
import Mathlib.Data.List.Nodup

/-!
# `AuditTables.Proofs.Table.RowShape`: what every table makes of an event

A table does one of three things with an event: it fails on the data text, passes the event
over, or makes a row of it. `row?_outcomes` says exactly when it does which, for every table
of the catalogue and every event, and what the row is like. It has the columns of the schema
and no others (`Fits`), each with a cell of the declared type and none with null, and it shows
the event itself in the thirteen columns that all tables have (`ShowsEvent`).

The schema is put together from the system columns, the fields and the derived columns of a
definition, while a row is written in three stages, of which the last may write over the
second. `fits_setAll` is the fact that joins the two. Cells make a row of some columns if each
is declared by one of them and each of them is written. For the cells of a table that is a
matter of its fields and its last step, and of a few facts about the catalogue that are
checked table by table.
-/

set_option autoImplicit false

namespace AuditTables.Proofs.Table

open AuditTables.Event AuditTables.Table
open AuditTables.Proofs.Keyed

/-! ### Cells written one after the other -/

/-- No cells leave a row as it is. -/
theorem setAll_nil (row : Row) : row.setAll [] = row := rfl

/-- Cells written in two parts are written one part after the other. -/
theorem setAll_append (row : Row) (first second : List (String × Cell)) :
    row.setAll (first ++ second) = (row.setAll first).setAll second :=
  List.foldl_append

/-- Cells in other columns do not change what a column shows. -/
theorem get?_setAll_of_ne (row : Row) {column : String} {cells : List (String × Cell)}
    (h : ∀ p ∈ cells, p.1 ≠ column) : (row.setAll cells).get? column = row.get? column := by
  induction cells generalizing row with
  | nil => rfl
  | cons p cells ih =>
      have hrest := ih (row.set p.1 p.2) fun p' hp' => h p' (List.mem_cons_of_mem p hp')
      show ((row.set p.1 p.2).setAll cells).get? column = row.get? column
      rw [hrest, Row.get?_set_of_ne row (h p List.mem_cons_self)]

/-- A column that is written shows one of the cells written there. By induction on the cells:
a later one in the column shows instead. -/
theorem exists_get?_setAll (row : Row) {column : String} {cells : List (String × Cell)}
    (h : column ∈ cells.map (·.1)) :
    ∃ cell, (column, cell) ∈ cells ∧ (row.setAll cells).get? column = some cell := by
  induction cells generalizing row with
  | nil => cases h
  | cons p cells ih =>
      by_cases hlater : column ∈ cells.map (·.1)
      · obtain ⟨cell, hmem, hget⟩ := ih (row.set p.1 p.2) hlater
        exact ⟨cell, List.mem_cons_of_mem p hmem, hget⟩
      · have hp : p.1 = column := by
          rcases List.mem_cons.mp h with heq | hmem
          · exact heq.symm
          · exact absurd hmem hlater
        have hne : ∀ p' ∈ cells, p'.1 ≠ column := fun p' hp' heq =>
          hlater (List.mem_map.mpr ⟨p', hp', heq⟩)
        refine ⟨p.2, hp ▸ List.mem_cons_self, ?_⟩
        show ((row.set p.1 p.2).setAll cells).get? column = some p.2
        rw [get?_setAll_of_ne _ hne, ← hp, Row.get?_set_self]

/-- A cell shows in its column if the cells are in different columns. -/
theorem get?_setAll_of_mem (row : Row) {p : String × Cell} {cells : List (String × Cell)}
    (hcolumns : (cells.map (·.1)).Nodup) (h : p ∈ cells) :
    (row.setAll cells).get? p.1 = some p.2 := by
  obtain ⟨cell, hmem, hget⟩ := exists_get?_setAll row (List.mem_map_of_mem h)
  have hp : (p.1, cell) = p := List.inj_on_of_nodup_map hcolumns hmem h rfl
  rw [hget, ← hp]

/-- A row has the columns that show something. -/
theorem mem_columns_iff (row : Row) (name : String) :
    name ∈ row.columns ↔ ∃ cell, row.get? name = some cell := by
  rw [Row.columns, ← get?_isSome_iff_mem_keys, Option.isSome_iff_exists]
  rfl

/-! ### Rows of declared columns -/

/-- A row is one of some columns. It has all of them and no others, each with a cell of the
declared type, and null in none. -/
structure Fits (row : Row) (columns : List Column) : Prop where
  names : ∀ name, name ∈ row.columns ↔ name ∈ columns.map (·.name)
  types : ∀ column ∈ columns, ∃ cell,
    row.get? column.name = some cell ∧ cell.type? = some column.type
  notNull : ∀ name, row.get? name ≠ some .null

/-- A cell is declared by one of some columns: it is in that column and of its type. -/
def DeclaredBy (columns : List Column) (p : String × Cell) : Prop :=
  ∃ column ∈ columns, column.name = p.1 ∧ p.2.type? = some column.type

/-- Cells declared by columns make a row of these columns, if each of them is written. -/
theorem fits_setAll {columns : List Column} {cells : List (String × Cell)}
    (hnames : (columns.map (·.name)).Nodup) (hdeclared : ∀ p ∈ cells, DeclaredBy columns p)
    (hwritten : ∀ column ∈ columns, column.name ∈ cells.map (·.1)) :
    Fits (Row.empty.setAll cells) columns := by
  have hall : ∀ column ∈ columns, ∃ cell,
      (Row.empty.setAll cells).get? column.name = some cell ∧ cell.type? = some column.type := by
    intro column hcolumn
    obtain ⟨cell, hmem, hget⟩ := exists_get?_setAll Row.empty (hwritten column hcolumn)
    obtain ⟨column', hcolumn', hname, htype⟩ := hdeclared _ hmem
    -- Columns have different names, so the one that declares the cell is this one.
    have heq : column' = column := List.inj_on_of_nodup_map hnames hcolumn' hcolumn hname
    exact ⟨cell, hget, heq ▸ htype⟩
  have hnone : ∀ name, name ∉ columns.map (·.name) →
      (Row.empty.setAll cells).get? name = none := by
    intro name hname
    refine get?_setAll_of_ne Row.empty fun p hp heq => hname ?_
    obtain ⟨column, hcolumn, hsame, -⟩ := hdeclared p hp
    exact List.mem_map.mpr ⟨column, hcolumn, hsame.trans heq⟩
  refine ⟨fun name => ?_, hall, fun name hnull => ?_⟩
  · -- The row has a column if it shows something there.
    rw [mem_columns_iff]
    constructor
    · rintro ⟨cell, hget⟩
      by_contra hname
      rw [hnone name hname] at hget
      cases hget
    · intro hname
      obtain ⟨column, hcolumn, rfl⟩ := List.mem_map.mp hname
      obtain ⟨cell, hget, -⟩ := hall column hcolumn
      exact ⟨cell, hget⟩
  · -- Null has no type, so no declared column shows it, and no other shows anything.
    by_cases hname : name ∈ columns.map (·.name)
    · obtain ⟨column, hcolumn, rfl⟩ := List.mem_map.mp hname
      obtain ⟨cell, hget, htype⟩ := hall column hcolumn
      rw [hget] at hnull
      rw [Option.some.inj hnull] at htype
      cases htype
    · rw [hnone name hname] at hnull
      cases hnull

/-! ### The columns that all tables have -/

/-- A row shows an event in the columns that all tables have. -/
structure ShowsEvent (row : Row) (e : AuditEvent) : Prop where
  captureTime : row.get? "capture_time" = some (.integer e.captureTime)
  eventTime : row.get? "event_time" = some (.text e.eventTime)
  source : row.get? "source" = some (.text e.source)
  providerName : row.get? "provider_name" = some (.text e.providerName)
  providerGuid : row.get? "provider_guid" = some (.text e.providerGuid)
  computerName : row.get? "computer_name" = some (.text e.computerName)
  eventId : row.get? "event_id" = some (.integer e.eventId)
  taskId : row.get? "task_id" = some (.integer e.taskId)
  level : row.get? "level" = some (.integer e.level)
  processId : row.get? "pid" = some (.integer e.processId)
  threadId : row.get? "tid" = some (.integer e.threadId)
  keywords : row.get? "keywords" = some (.text e.keywords)
  data : row.get? "data" = some (.text e.data)

/-- The cells of an event are in the system columns, in this order, and of their types. -/
theorem systemCells_fit (e : AuditEvent) :
    (systemCells e).map (fun p => (p.1, p.2.type?))
      = systemColumns.map fun column => (column.name, some column.type) := rfl

/-- The cells of an event are in the system columns. -/
theorem names_systemCells (e : AuditEvent) :
    (systemCells e).map (·.1) = systemColumns.map (·.name) := rfl

/-- The cells of an event are declared by the system columns. -/
theorem declaredBy_systemColumns {e : AuditEvent} {p : String × Cell} (h : p ∈ systemCells e) :
    DeclaredBy systemColumns p := by
  have hmem : (p.1, p.2.type?) ∈ (systemCells e).map fun p => (p.1, p.2.type?) :=
    List.mem_map_of_mem h
  rw [systemCells_fit] at hmem
  obtain ⟨column, hcolumn, heq⟩ := List.mem_map.mp hmem
  exact ⟨column, hcolumn, congrArg Prod.fst heq, (congrArg Prod.snd heq).symm⟩

/-- A row shows an event if it shows all cells of the event. -/
theorem showsEvent_of_systemCells {row : Row} {e : AuditEvent}
    (h : ∀ p ∈ systemCells e, row.get? p.1 = some p.2) : ShowsEvent row e := by
  simp only [systemCells, List.forall_mem_cons] at h
  obtain ⟨h1, h2, h3, h4, h5, h6, h7, h8, h9, h10, h11, h12, h13, -⟩ := h
  exact ⟨h1, h2, h3, h4, h5, h6, h7, h8, h9, h10, h11, h12, h13⟩

/-! ### The columns that a table adds -/

/-- The columns that a last step may fill. -/
def stepColumns : Enrichment → List Column
  | .elevation => [⟨"token_elevation_type", .integer⟩]
  | .connection => [⟨"direction", .string⟩, ⟨"community_id", .string⟩]

/-- The columns among them that a last step fills whatever the fields are. -/
def filledColumns : Enrichment → List String
  | .elevation => []
  | .connection => ["community_id"]

/-- A field's cell is of the field's type. -/
theorem type?_cell (f : Field) (fields : Fields) : (f.cell fields).type? = some f.type := by
  rw [Field.cell]
  cases f.type <;> rfl

/-- The cells of a last step are declared by its columns. -/
theorem declaredBy_stepColumns {step : Enrichment} {fields : Fields} {p : String × Cell}
    (h : p ∈ step.cells fields) : DeclaredBy (stepColumns step) p := by
  cases step with
  | elevation =>
      rw [Enrichment.cells] at h
      split at h
      · rw [List.mem_singleton.mp h]
        exact ⟨_, List.mem_singleton_self _, rfl, rfl⟩
      · cases h
  | connection =>
      rcases List.mem_append.mp h with h | h
      · split at h
        · rw [List.mem_singleton.mp h]
          exact ⟨_, List.mem_cons_self, rfl, rfl⟩
        · cases h
      · rw [List.mem_singleton.mp h]
        exact ⟨_, List.mem_cons_of_mem _ (List.mem_singleton_self _), rfl, rfl⟩

/-- A last step fills the columns that it always fills. -/
theorem mem_names_cells {step : Enrichment} {name : String} (h : name ∈ filledColumns step)
    (fields : Fields) : name ∈ (step.cells fields).map (·.1) := by
  cases step with
  | elevation => cases h
  | connection =>
      rw [List.mem_singleton.mp h]
      rw [Enrichment.cells, List.map_append]
      exact List.mem_append_right _ (List.mem_singleton_self _)

/-- The columns that a table has besides those that all tables have. -/
def ownColumns (d : Definition) : List Column := d.fields.map Field.toColumn ++ d.derived

/-- What makes a definition consistent. Its columns have different names, its last step fills
only columns of its own and all derived ones, and if it does not read the data it has no
columns of its own and takes every payload. -/
structure Consistent (d : Definition) : Prop where
  names : (d.schema.map (·.name)).Nodup
  step : ∀ step ∈ d.enrichment, ∀ column ∈ stepColumns step, column ∈ ownColumns d
  derived : ∀ column ∈ d.derived, column.name ∈ d.enrichment.toList.flatMap filledColumns
  unread : d.readsData = false → ownColumns d = [] ∧ d.kinds = none

/-- The definitions of the catalogue are consistent. -/
theorem consistent_of_mem {d : Definition} (h : d ∈ catalogue) : Consistent d := by
  -- Each condition is decidable, and there are eight definitions.
  have hnames : ∀ d ∈ catalogue, (d.schema.map (·.name)).Nodup := by decide
  have hstep : ∀ d ∈ catalogue, ∀ step ∈ d.enrichment, ∀ column ∈ stepColumns step,
      column ∈ ownColumns d := by decide
  have hderived : ∀ d ∈ catalogue, ∀ column ∈ d.derived,
      column.name ∈ d.enrichment.toList.flatMap filledColumns := by decide
  have hunread : ∀ d ∈ catalogue, d.readsData = false →
      ownColumns d = [] ∧ d.kinds = none := by decide
  exact ⟨hnames d h, hstep d h, hderived d h, hunread d h⟩

/-! ### Rows of a table -/

section

variable {d : Definition}

/-- The columns of a table are those of all tables and its own, with different names. -/
theorem nodup_names (h : Consistent d) :
    (systemColumns.map (·.name) ++ (ownColumns d).map (·.name)).Nodup := by
  have hnames := h.names
  rw [Definition.schema, List.append_assoc, List.map_append] at hnames
  exact hnames

/-- The cells that a table adds to those of an event are declared by its own columns. -/
theorem declaredBy_ownColumns (h : Consistent d) {fields : Fields} {p : String × Cell}
    (hp : p ∈ d.dataCells fields) : DeclaredBy (ownColumns d) p := by
  rcases List.mem_append.mp hp with hp | hp
  · obtain ⟨f, hf, rfl⟩ := List.mem_map.mp hp
    refine ⟨f.toColumn, List.mem_append_left _ (List.mem_map_of_mem hf), rfl, type?_cell f fields⟩
  · cases hstep : d.enrichment with
    | none => rw [hstep] at hp; cases hp
    | some step =>
        rw [hstep] at hp
        obtain ⟨column, hcolumn, hname, htype⟩ := declaredBy_stepColumns hp
        exact ⟨column, h.step step hstep column hcolumn, hname, htype⟩

/-- A table writes each of its own columns. -/
theorem mem_names_dataCells (h : Consistent d) {column : Column} (hcolumn : column ∈ ownColumns d)
    (fields : Fields) : column.name ∈ (d.dataCells fields).map (·.1) := by
  rw [Definition.dataCells, List.map_append]
  rcases List.mem_append.mp hcolumn with hfield | hderived
  · obtain ⟨f, hf, rfl⟩ := List.mem_map.mp hfield
    refine List.mem_append_left _ ?_
    rw [List.map_map]
    exact List.mem_map.mpr ⟨f, hf, rfl⟩
  · refine List.mem_append_right _ ?_
    obtain ⟨step, hstep, hfilled⟩ := List.mem_flatMap.mp (h.derived column hderived)
    rw [Option.mem_toList.mp hstep]
    exact mem_names_cells hfilled fields

/-- Cells that are declared by a table's own columns and fill them make a row of the table,
behind the cells of an event. -/
theorem fits_of_ownCells (h : Consistent d) (e : AuditEvent) {cells : List (String × Cell)}
    (hdeclared : ∀ p ∈ cells, DeclaredBy (ownColumns d) p)
    (hwritten : ∀ column ∈ ownColumns d, column.name ∈ cells.map (·.1)) :
    Fits ((Definition.systemRow e).setAll cells) d.schema ∧
      ShowsEvent ((Definition.systemRow e).setAll cells) e := by
  have hschema : d.schema = systemColumns ++ ownColumns d := List.append_assoc _ _ _
  constructor
  · rw [Definition.systemRow, ← setAll_append]
    refine fits_setAll h.names (fun p hp => ?_) fun column hcolumn => ?_
    · rw [hschema]
      rcases List.mem_append.mp hp with hp | hp
      · obtain ⟨column, hcolumn, hfits⟩ := declaredBy_systemColumns hp
        exact ⟨column, List.mem_append_left _ hcolumn, hfits⟩
      · obtain ⟨column, hcolumn, hfits⟩ := hdeclared p hp
        exact ⟨column, List.mem_append_right _ hcolumn, hfits⟩
    · rw [hschema] at hcolumn
      rw [List.map_append]
      rcases List.mem_append.mp hcolumn with hcolumn | hcolumn
      · rw [names_systemCells]
        exact List.mem_append_left _ (List.mem_map_of_mem hcolumn)
      · exact List.mem_append_right _ (hwritten column hcolumn)
  · -- No cell of the table is in a system column, as the names of the schema differ.
    obtain ⟨hsystem, -, hdisjoint⟩ := List.nodup_append.mp (nodup_names h)
    refine showsEvent_of_systemCells fun p hp => ?_
    obtain ⟨column, hcolumn, hname, -⟩ := declaredBy_systemColumns hp
    have hne : ∀ p' ∈ cells, p'.1 ≠ p.1 := by
      intro p' hp'
      obtain ⟨column', hcolumn', hname', -⟩ := hdeclared p' hp'
      rw [← hname, ← hname']
      exact (hdisjoint _ (List.mem_map_of_mem hcolumn) _ (List.mem_map_of_mem hcolumn')).symm
    rw [get?_setAll_of_ne _ hne]
    exact get?_setAll_of_mem Row.empty hsystem hp

end

/-! ### Outcomes -/

/-- A table looks at an event if it looks at all, or if it lists the event's number. -/
def LooksAt (d : Definition) (e : AuditEvent) : Prop :=
  ∀ ids, d.eventIds = some ids → e.eventId ∈ ids

/-- A table looks at an event and reads its data text, and finds this wrong with it. -/
def Unreadable (d : Definition) (e : AuditEvent) (fault : Fields.Fault) : Prop :=
  LooksAt d e ∧ d.readsData = true ∧ Fields.read e.data = .error fault

/-- A table does not look at an event, or its data text reads as a payload of a kind that is
not among those that the table accepts. -/
def Foreign (d : Definition) (e : AuditEvent) : Prop :=
  ¬ LooksAt d e ∨ (LooksAt d e ∧ ∃ fields kinds, Fields.read e.data = .ok fields ∧
    d.kinds = some kinds ∧ PayloadKind.classify fields ∉ kinds)

/-- A definition selects the events that it looks at. -/
theorem selects_iff (d : Definition) (e : AuditEvent) :
    d.selects e.eventId = true ↔ LooksAt d e := by
  rw [Definition.selects, LooksAt]
  cases d.eventIds <;> simp

/-- A definition accepts the payloads of the kinds that it names. -/
theorem not_accepts_iff (d : Definition) (fields : Fields) : ¬ d.accepts fields = true ↔
    ∃ kinds, d.kinds = some kinds ∧ PayloadKind.classify fields ∉ kinds := by
  rw [Definition.accepts]
  cases d.kinds <;> simp

/-- What a table can make of an event, and when it does. -/
inductive Outcome (d : Definition) (e : AuditEvent) : Except Failure (Option Row) → Prop where
  | skipped (hlooks : ¬ LooksAt d e) : Outcome d e (.ok none)
  | unread (hlooks : LooksAt d e) (hreads : d.readsData = false) :
      Outcome d e (.ok (some (Definition.systemRow e)))
  | failed (fault : Fields.Fault) (hfault : Unreadable d e fault) :
      Outcome d e (.error (.malformedPayload d.name e.eventId fault.message))
  | refused (fields : Fields) (hlooks : LooksAt d e) (hread : Fields.read e.data = .ok fields)
      (hkinds : ∃ kinds, d.kinds = some kinds ∧ PayloadKind.classify fields ∉ kinds) :
      Outcome d e (.ok none)
  | shown (fields : Fields) (hlooks : LooksAt d e) (hread : Fields.read e.data = .ok fields) :
      Outcome d e (.ok (some (d.rowOf e fields)))

/-- A table makes one of these of every event. -/
theorem outcome_row? (d : Definition) (e : AuditEvent) : Outcome d e (d.row? e) := by
  rw [Definition.row?]
  cases hselects : d.selects e.eventId with
  | false =>
      refine .skipped fun hlooks => ?_
      rw [(selects_iff d e).mpr hlooks] at hselects
      cases hselects
  | true =>
      have hlooks : LooksAt d e := (selects_iff d e).mp hselects
      cases hreads : d.readsData with
      | false => exact .unread hlooks hreads
      | true =>
          cases hread : Fields.read e.data with
          | error fault => exact .failed fault ⟨hlooks, hreads, hread⟩
          | ok fields =>
              show Outcome d e (.ok (if d.accepts fields then some (d.rowOf e fields) else none))
              split
              · exact .shown fields hlooks hread
              · rename_i haccepts
                exact .refused fields hlooks hread ((not_accepts_iff d fields).mp haccepts)

/-- A table fails on an event exactly if it cannot read its data text. -/
theorem row?_eq_error_iff (d : Definition) (e : AuditEvent) (failure : Failure) :
    d.row? e = .error failure ↔ ∃ fault, Unreadable d e fault ∧
      failure = .malformedPayload d.name e.eventId fault.message := by
  constructor
  · intro h
    have houtcome := outcome_row? d e
    rw [h] at houtcome
    cases houtcome with
    | failed fault hfault => exact ⟨fault, hfault, rfl⟩
  · rintro ⟨fault, ⟨hlooks, hreads, hread⟩, rfl⟩
    rw [Definition.row?, (selects_iff d e).mpr hlooks, hreads, hread]
    rfl

/-- A consistent table passes an event over exactly if the event is not for it. -/
theorem row?_eq_none_iff {d : Definition} (h : Consistent d) (e : AuditEvent) :
    d.row? e = .ok none ↔ Foreign d e := by
  constructor
  · intro hnone
    have houtcome := outcome_row? d e
    rw [hnone] at houtcome
    cases houtcome with
    | skipped hlooks => exact Or.inl hlooks
    | refused fields hlooks hread hkinds =>
        obtain ⟨kinds, hkinds⟩ := hkinds
        exact Or.inr ⟨hlooks, fields, kinds, hread, hkinds⟩
  · rintro (hnot | ⟨hlooks, fields, kinds, hread, hkinds⟩)
    · have hselects : d.selects e.eventId = false :=
        Bool.eq_false_iff.mpr fun hselects => hnot ((selects_iff d e).mp hselects)
      rw [Definition.row?, hselects]
      rfl
    · -- A table that names kinds reads the data, or it would not know the kind.
      have hreads : d.readsData = true := by
        by_contra hunread
        have hnone := (h.unread (Bool.eq_false_iff.mpr hunread)).2
        rw [hkinds.1] at hnone
        cases hnone
      have haccepts : ¬ d.accepts fields = true := (not_accepts_iff d fields).mpr ⟨kinds, hkinds⟩
      rw [Definition.row?, (selects_iff d e).mpr hlooks, hreads, hread]
      show Except.ok (if d.accepts fields then some (d.rowOf e fields) else none) = _
      rw [if_neg haccepts]

/-- The row that a consistent table makes fits its schema and shows the event. -/
theorem fits_of_row? {d : Definition} (h : Consistent d) {e : AuditEvent} {row : Row}
    (hrow : d.row? e = .ok (some row)) : Fits row d.schema ∧ ShowsEvent row e := by
  have houtcome := outcome_row? d e
  generalize d.row? e = result at houtcome hrow
  cases houtcome with
  | skipped hlooks => cases hrow
  | unread hlooks hreads =>
      have hown := (h.unread hreads).1
      rw [← Option.some.inj (Except.ok.inj hrow), ← setAll_nil (Definition.systemRow e)]
      refine fits_of_ownCells h e (fun p hp => absurd hp List.not_mem_nil) fun column hcolumn => ?_
      rw [hown] at hcolumn
      cases hcolumn
  | failed fault hfault => cases hrow
  | refused fields hlooks hread hkinds => cases hrow
  | shown fields hlooks hread =>
      rw [← Option.some.inj (Except.ok.inj hrow), Definition.rowOf]
      exact fits_of_ownCells h e (fun p hp => declaredBy_ownColumns h hp)
        fun column hcolumn => mem_names_dataCells h hcolumn fields

/-- A row that shows an event is not the empty one. -/
theorem isEmpty_of_showsEvent {row : Row} {e : AuditEvent} (h : ShowsEvent row e) :
    row.isEmpty = false := by
  cases hcells : row.cells with
  | nil =>
      have hget := h.data
      rw [Row.get?, hcells] at hget
      cases hget
  | cons p cells =>
      rw [Row.isEmpty, hcells]
      rfl

/-- Every table of the catalogue does one of three things with an event. It fails exactly if
it looks at the event and reads its data text and the text is not readable, and says so with
its own name and the event's number. It passes the event over exactly if it does not look at
it, or if the payload is of a kind that it does not accept. Otherwise it makes a row, which
has the columns of its schema and no others, each of its type and none null, and shows the
event in the columns that all tables have. No two columns of the schema have one name. -/
theorem row?_outcomes {d : Definition} (hd : d ∈ catalogue) (e : AuditEvent) :
    (d.schema.map (·.name)).Nodup ∧
    (∀ failure, d.row? e = .error failure ↔ ∃ fault, Unreadable d e fault ∧
      failure = .malformedPayload d.name e.eventId fault.message) ∧
    (d.row? e = .ok none ↔ Foreign d e) ∧
    ∀ row, d.row? e = .ok (some row) →
      row.isEmpty = false ∧ Fits row d.schema ∧ ShowsEvent row e := by
  have hconsistent := consistent_of_mem hd
  refine ⟨hconsistent.names, row?_eq_error_iff d e, row?_eq_none_iff hconsistent e,
    fun row hrow => ?_⟩
  have hfits := fits_of_row? hconsistent hrow
  exact ⟨isEmpty_of_showsEvent hfits.2, hfits⟩

/-- An event of a connection, whose direction is written over by the last step. -/
def connectionEvent : AuditEvent :=
  { AuditEvent.blank with
    eventId := 5156
    data := (Fields.ofTexts [("Direction", "%%14593"), ("Protocol", "6")]).write }

/-- The table of connections makes a row of such an event, which fits its schema. -/
theorem row?_outcomes_connectionEvent :
    Catalogue.networkConnection ∈ catalogue ∧
      ∃ row, Catalogue.networkConnection.row? connectionEvent = .ok (some row) ∧
        row.isEmpty = false ∧ Fits row Catalogue.networkConnection.schema ∧
        ShowsEvent row connectionEvent := by
  have hmem : Catalogue.networkConnection ∈ catalogue := by decide
  have hrow : ∃ row, Catalogue.networkConnection.row? connectionEvent = .ok (some row) := ⟨_, rfl⟩
  obtain ⟨row, hrow⟩ := hrow
  exact ⟨hmem, row, hrow, (row?_outcomes hmem connectionEvent).2.2.2 row hrow⟩

end AuditTables.Proofs.Table
