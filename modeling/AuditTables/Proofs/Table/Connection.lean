import AuditTables.Proofs.Event.DataFields
import AuditTables.Proofs.Flow.Fingerprint
import AuditTables.Proofs.Table.RowShape

/-!
# `AuditTables.Proofs.Table.Connection`: a connection seen from both ends

The fingerprint of a flow is the same at both of its ends. A row shows it next to the addresses
and ports, but it is computed from the fields and not from the columns, so that it belongs to what
the row shows has to be proved. `connection_both_ends` says that it does, whatever the fields are,
and that the event of the other end has the same row with the ends exchanged.

What is exchanged are names: `exchangeKey` those of fields, `exchangeColumn` those of columns. Both
undo themselves, so a fact about one direction has the other as an instance (`Exchanged.symm`).

A row is written in three stages, the columns of all tables, the fields and the last step. In each
of them the cells of one end are those of the other in exchanged columns, and
`get?_setAll_exchanged` carries this through a stage.
-/

set_option autoImplicit false

namespace AuditTables.Proofs.Table

open AuditTables.Event AuditTables.Table
open AuditTables.Proofs.Event AuditTables.Proofs.Flow

/-! ### Cells of a row -/

section

variable {d : Definition}

/-- The names of a table's fields are different. -/
theorem nodup_fields (h : Consistent d) : (d.fields.map (·.column)).Nodup := by
  have hown := (List.nodup_append.mp (nodup_names h)).2.1
  rw [ownColumns, List.map_append, List.map_map] at hown
  exact (List.nodup_append.mp hown).1

/-- The cells of a last step are in different columns. -/
theorem nodup_cells (step : Enrichment) (fields : Fields) :
    ((step.cells fields).map (·.1)).Nodup := by
  cases step with
  | elevation =>
      rw [Enrichment.cells]
      split <;> simp
  | connection =>
      rw [Enrichment.cells]
      split <;> simp

/-- The cells that a table's fields fill. -/
def fieldCells (d : Definition) (fields : Fields) : List (String × Cell) :=
  d.fields.map fun f => (f.column, f.cell fields)

/-- The cells that a table's last step fills, if it has one. -/
def stepCells (d : Definition) (fields : Fields) : List (String × Cell) :=
  match d.enrichment with
  | some step => step.cells fields
  | none => []

/-- The row of a table is written in three stages. -/
theorem rowOf_eq_setAll (e : AuditEvent) (fields : Fields) : d.rowOf e fields
    = ((Row.empty.setAll (systemCells e)).setAll (fieldCells d fields)).setAll
        (stepCells d fields) := setAll_append _ _ _

theorem nodup_fieldCells (h : Consistent d) (fields : Fields) :
    ((fieldCells d fields).map (·.1)).Nodup := by
  rw [fieldCells, List.map_map]
  exact nodup_fields h

/-- A field shows in its column, unless the last step may write there. -/
theorem get?_rowOf_field (h : Consistent d) (e : AuditEvent) (fields : Fields) {f : Field}
    (hf : f ∈ d.fields)
    (hstep : ∀ step ∈ d.enrichment, f.column ∉ (stepColumns step).map (·.name)) :
    (d.rowOf e fields).get? f.column = some (f.cell fields) := by
  -- The cells of the last step are in columns of its own, and the field's is none of them.
  have hother : ∀ p ∈ stepCells d fields, p.1 ≠ f.column := by
    intro p hp hsame
    rw [stepCells] at hp
    cases hd : d.enrichment with
    | none => rw [hd] at hp; cases hp
    | some step =>
        rw [hd] at hp
        obtain ⟨column, hcolumn, hname, -⟩ := declaredBy_stepColumns hp
        exact hstep step hd (List.mem_map.mpr ⟨column, hcolumn, hname.trans hsame⟩)
  rw [rowOf_eq_setAll, get?_setAll_of_ne _ hother]
  exact get?_setAll_of_mem (p := (f.column, f.cell fields)) _ (nodup_fieldCells h fields)
    (List.mem_map_of_mem hf)

end

/-- Cells written into two rows show alike in two columns, if the same cells are written there
and the rows were alike there. -/
theorem get?_setAll_congr {row row' : Row} {cells cells' : List (String × Cell)}
    {column column' : String} (hnames : (cells.map (·.1)).Nodup)
    (hcells : ∀ cell, (column', cell) ∈ cells' ↔ (column, cell) ∈ cells)
    (hrow : row'.get? column' = row.get? column) :
    (row'.setAll cells').get? column' = (row.setAll cells).get? column := by
  by_cases hwritten : column' ∈ cells'.map (·.1)
  · -- The cell that shows is one of those written, and so is it in the other row.
    obtain ⟨cell, hmem, hget⟩ := exists_get?_setAll row' hwritten
    rw [hget]
    exact (get?_setAll_of_mem row hnames ((hcells cell).mp hmem)).symm
  · -- Neither column is written, so both rows show there what they did.
    have hnone' : ∀ p ∈ cells', p.1 ≠ column' := fun p hp hsame =>
      hwritten (List.mem_map.mpr ⟨p, hp, hsame⟩)
    have hnone : ∀ p ∈ cells, p.1 ≠ column := by
      rintro p hp rfl
      exact hnone' (column', p.2) ((hcells p.2).mpr hp) rfl
    rw [get?_setAll_of_ne row' hnone', get?_setAll_of_ne row hnone, hrow]

/-! ### The two ends of a connection -/

/-- A name with two pairs of names exchanged. -/
def exchange (a a' b b' name : String) : String :=
  if name = a then a' else if name = a' then a
  else if name = b then b' else if name = b' then b
  else name

/-- Exchanging twice changes nothing. -/
theorem exchange_exchange {a a' b b' : String} (h : [a, a', b, b'].Nodup) (name : String) :
    exchange a a' b b' (exchange a a' b b' name) = name := by
  unfold exchange
  grind

/-- The key of the same value at the other end of a connection. -/
def exchangeKey (key : String) : String :=
  exchange "SourceAddress" "DestAddress" "SourcePort" "DestPort" key

/-- The column of the same value at the other end of a connection. -/
def exchangeColumn (column : String) : String :=
  exchange "source_address" "dest_address" "source_port" "dest_port" column

/-- The field of the same value at the other end of a connection. -/
def exchangeField (f : Field) : Field := ⟨exchangeColumn f.column, exchangeKey f.key, f.type⟩

@[simp]
theorem exchangeKey_exchangeKey (key : String) : exchangeKey (exchangeKey key) = key :=
  exchange_exchange (by decide) key

@[simp]
theorem exchangeColumn_exchangeColumn (column : String) :
    exchangeColumn (exchangeColumn column) = column :=
  exchange_exchange (by decide) column

/-- Fields are those of the other end. The values of the two addresses and of the two ports are
exchanged, or one is missing where the other was, and all else is the same. -/
def Exchanged (fields fields' : Fields) : Prop :=
  ∀ key, fields'.get? key = fields.get? (exchangeKey key)

theorem Exchanged.symm {fields fields' : Fields} (h : Exchanged fields fields') :
    Exchanged fields' fields := by
  intro key
  rw [h, exchangeKey_exchangeKey]

/-- Named texts with exchanged names make the fields of the other end. -/
theorem exchanged_ofTexts (texts : List (String × String)) : Exchanged (Fields.ofTexts texts)
    (Fields.ofTexts (texts.map fun p => (exchangeKey p.1, p.2))) := by
  intro key
  have hname : ∀ p : String × String, (exchangeKey p.1 == key) = (p.1 == exchangeKey key) := by
    intro p
    rw [Bool.eq_iff_iff, beq_iff_eq, beq_iff_eq]
    constructor
    · rintro rfl
      exact (exchangeKey_exchangeKey p.1).symm
    · intro hp
      rw [hp, exchangeKey_exchangeKey]
  rw [(collects_ofTexts _).get?, (collects_ofTexts _).get?, textsOf, textsOf, List.filter_map,
    List.map_map]
  simp only [Function.comp_def, hname]

section

variable {fields fields' : Fields} (h : Exchanged fields fields')

include h

theorem Exchanged.text? (key : String) : fields'.text? key = fields.text? (exchangeKey key) := by
  rw [Fields.text?, Fields.text?, h]

theorem Exchanged.integer? (key : String) :
    fields'.integer? key = fields.integer? (exchangeKey key) := by
  rw [Fields.integer?, Fields.integer?, h]

/-- A field of one end shows what the field of the same value does at the other end. -/
theorem Exchanged.cell (f : Field) : f.cell fields' = (exchangeField f).cell fields := by
  rw [Field.cell, Field.cell, h.text?, h.integer?]
  rfl

/-- The fingerprint does not tell the ends apart. -/
theorem Exchanged.flowFingerprint : flowFingerprint fields' = flowFingerprint fields := by
  have hprotocol : fields'.integer? "Protocol" = fields.integer? "Protocol" := h.integer? _
  unfold AuditTables.Table.flowFingerprint
  rw [hprotocol, h.text?, h.text?, h.integer? "SourcePort", h.integer? "DestPort"]
  cases fields.integer? "Protocol" with
  | none => rfl
  | some protocol => exact communityId_exchanged _ _ _ _ protocol

/-- The last step of connections fills the same cells at both ends. -/
theorem Exchanged.cells :
    Enrichment.connection.cells fields' = Enrichment.connection.cells fields := by
  have hdirection : fields'.text? "Direction" = fields.text? "Direction" := h.text? _
  rw [Enrichment.cells, Enrichment.cells, hdirection, h.flowFingerprint]

end

/-! ### Rows of both ends -/

/-- Only addresses and ports are in other columns at the other end. -/
theorem exchangeColumn_eq_self {column : String}
    (h : column ∈ systemColumns.map (·.name) ++ (stepColumns .connection).map (·.name)) :
    exchangeColumn column = column := by
  have hall : ∀ name ∈ systemColumns.map (·.name) ++ (stepColumns .connection).map (·.name),
      exchangeColumn name = name := by decide
  exact hall column h

/-- Cells that are exchanged show in exchanged columns, but for the data text. -/
theorem get?_setAll_exchanged {row row' : Row} {cells cells' : List (String × Cell)}
    (hnames : (cells.map (·.1)).Nodup)
    (hforth : ∀ p ∈ cells', p.1 ≠ "data" → (exchangeColumn p.1, p.2) ∈ cells)
    (hback : ∀ p ∈ cells, p.1 ≠ "data" → (exchangeColumn p.1, p.2) ∈ cells')
    (hrow : ∀ column, column ≠ "data" → row'.get? column = row.get? (exchangeColumn column)) :
    ∀ column, column ≠ "data" →
      (row'.setAll cells').get? column = (row.setAll cells).get? (exchangeColumn column) := by
  intro column hdata
  refine get?_setAll_congr hnames (fun cell => ⟨fun hmem => hforth _ hmem hdata, fun hmem => ?_⟩)
    (hrow column hdata)
  -- The data text is in no other column at the other end.
  have hdata' : exchangeColumn column ≠ "data" := by
    intro hsame
    rw [← exchangeColumn_exchangeColumn column, hsame] at hdata
    exact hdata rfl
  simpa using hback _ hmem hdata'

/-- The cells of an event with another data text are the same but for that. -/
theorem mem_systemCells_exchanged {e : AuditEvent} {data : String} {p : String × Cell}
    (h : p ∈ systemCells { e with data := data }) (hdata : p.1 ≠ "data") :
    (exchangeColumn p.1, p.2) ∈ systemCells e := by
  have hcells : systemCells { e with data := data }
      = (systemCells e).dropLast ++ [("data", .text data)] := rfl
  have hname : p.1 ∈ systemColumns.map (·.name) := by
    rw [← names_systemCells { e with data := data }]
    exact List.mem_map_of_mem h
  rw [hcells, List.mem_append, List.mem_singleton] at h
  rw [exchangeColumn_eq_self (List.mem_append_left _ hname)]
  rcases h with hfront | rfl
  · exact List.dropLast_subset _ hfront
  · exact absurd rfl hdata

/-- The cells of the fields are those of the other end, in exchanged columns. -/
theorem mem_fieldCells_exchanged {fields fields' : Fields} (h : Exchanged fields fields')
    {p : String × Cell}
    (hp : p ∈ fieldCells Catalogue.networkConnection fields') :
    (exchangeColumn p.1, p.2) ∈ fieldCells Catalogue.networkConnection fields := by
  have hclosed : ∀ f ∈ Catalogue.networkConnection.fields,
      exchangeField f ∈ Catalogue.networkConnection.fields := by decide
  -- The table has with each field the one that it is exchanged with.
  obtain ⟨f, hf, rfl⟩ := List.mem_map.mp hp
  exact List.mem_map.mpr ⟨exchangeField f, hclosed f hf, by rw [h.cell]; rfl⟩

/-- The cells of the last step are those of the other end, in the same columns. -/
theorem mem_stepCells_exchanged {fields fields' : Fields} (h : Exchanged fields fields')
    {p : String × Cell} (hp : p ∈ stepCells Catalogue.networkConnection fields') :
    (exchangeColumn p.1, p.2) ∈ stepCells Catalogue.networkConnection fields := by
  have hsame : stepCells Catalogue.networkConnection fields'
      = stepCells Catalogue.networkConnection fields := h.cells
  -- The step fills the same cells, so it is enough that their columns stay.
  have hcell : p ∈ Enrichment.connection.cells fields' := hp
  obtain ⟨column, hcolumn, hname, -⟩ := declaredBy_stepColumns hcell
  have hstep : p.1 ∈ (stepColumns .connection).map (·.name) :=
    List.mem_map.mpr ⟨column, hcolumn, hname⟩
  rw [exchangeColumn_eq_self (List.mem_append_right _ hstep), ← hsame]
  exact hp

/-- The rows of both ends are the same but for the data text, with the addresses and the ports
exchanged. This holds of each of the three stages of a row. -/
theorem get?_rowOf_exchanged {fields fields' : Fields} (h : Exchanged fields fields')
    (e : AuditEvent) (data : String) : ∀ column, column ≠ "data" →
      (Catalogue.networkConnection.rowOf { e with data := data } fields').get? column
        = (Catalogue.networkConnection.rowOf e fields).get? (exchangeColumn column) := by
  have hconsistent : Consistent Catalogue.networkConnection := consistent_of_mem (by decide)
  have hsystem : ((systemCells e).map (·.1)).Nodup :=
    (List.nodup_append.mp (nodup_names hconsistent)).1
  have hfields := nodup_fieldCells hconsistent fields
  have hstep : ((stepCells Catalogue.networkConnection fields).map (·.1)).Nodup :=
    nodup_cells .connection fields
  rw [rowOf_eq_setAll, rowOf_eq_setAll]
  refine get?_setAll_exchanged hstep ?_ ?_ (get?_setAll_exchanged hfields ?_ ?_
    (get?_setAll_exchanged hsystem ?_ ?_ fun column _ => rfl))
  · exact fun p hp _ => mem_stepCells_exchanged h hp
  · exact fun p hp _ => mem_stepCells_exchanged h.symm hp
  · exact fun p hp _ => mem_fieldCells_exchanged h hp
  · exact fun p hp _ => mem_fieldCells_exchanged h.symm hp
  · exact fun p hp hdata => mem_systemCells_exchanged hp hdata
  · exact fun p hp hdata => mem_systemCells_exchanged (e := { e with data := data }) hp hdata

/-! ### The fingerprint in a row -/

/-- A row shows two addresses with a port each, and a protocol. -/
structure ShowsFlow (row : Row) (a b : String) (p q r : Int) : Prop where
  source : row.get? "source_address" = some (.text a)
  destination : row.get? "dest_address" = some (.text b)
  sourcePort : row.get? "source_port" = some (.integer p)
  destinationPort : row.get? "dest_port" = some (.integer q)
  protocol : row.get? "protocol" = some (.integer r)

/-- The row of a connection shows what its fields are read as, or what stands for a missing
value. The fingerprint is read from the fields again. -/
theorem exists_showsFlow (e : AuditEvent) (fields : Fields) : ∃ a b p q r,
    ShowsFlow (Catalogue.networkConnection.rowOf e fields) a b p q r ∧
      (Catalogue.networkConnection.rowOf e fields).get? "community_id"
        = some (.text (if (fields.integer? "Protocol").isSome
            then Flow.communityId a b p q r else "")) := by
  have hconsistent : Consistent Catalogue.networkConnection := consistent_of_mem (by decide)
  have hfield : ∀ f ∈ Catalogue.networkConnection.fields,
      f.column ∉ (stepColumns .connection).map (·.name) →
        (Catalogue.networkConnection.rowOf e fields).get? f.column = some (f.cell fields) := by
    intro f hf hother
    refine get?_rowOf_field hconsistent e fields hf fun step hstep => ?_
    rwa [← Option.some.inj (Option.mem_def.mp hstep)]
  have hfingerprint : (Catalogue.networkConnection.rowOf e fields).get? "community_id"
      = some (.text (flowFingerprint fields)) := by
    have hcell : ("community_id", Cell.text (flowFingerprint fields))
        ∈ stepCells Catalogue.networkConnection fields :=
      List.mem_append_right _ (List.mem_singleton_self _)
    rw [rowOf_eq_setAll]
    exact get?_setAll_of_mem _ (nodup_cells .connection fields) hcell
  -- The columns show what the fingerprint is computed from, with the same values for missing ones.
  refine ⟨(fields.text? "SourceAddress").getD "", (fields.text? "DestAddress").getD "",
    (fields.integer? "SourcePort").getD (-1), (fields.integer? "DestPort").getD (-1),
    (fields.integer? "Protocol").getD (-1), ⟨?_, ?_, ?_, ?_, ?_⟩, ?_⟩
  · exact hfield (Catalogue.textField "source_address" "SourceAddress") (by decide) (by decide)
  · exact hfield (Catalogue.textField "dest_address" "DestAddress") (by decide) (by decide)
  · exact hfield (Catalogue.integerField "source_port" "SourcePort") (by decide) (by decide)
  · exact hfield (Catalogue.integerField "dest_port" "DestPort") (by decide) (by decide)
  · exact hfield (Catalogue.integerField "protocol" "Protocol") (by decide) (by decide)
  · rw [hfingerprint, flowFingerprint]
    cases fields.integer? "Protocol" with
    | none => rfl
    | some protocol => rfl

/-- The table of connections makes a row of every event of a connection that is readable. -/
theorem row?_connection {e : AuditEvent} {fields : Fields} (he : e.eventId = 5156)
    (hread : Fields.read e.data = .ok fields) : Catalogue.networkConnection.row? e
      = .ok (some (Catalogue.networkConnection.rowOf e fields)) := by
  have hselects : Catalogue.networkConnection.selects e.eventId = true := by
    rw [he]
    rfl
  rw [Definition.row?, hselects, hread]
  rfl

/-- The fingerprint in the row of a connection is that of the flow that the row shows, and it is
empty if the protocol is not readable as a number. The event of the other end has a row with the
same fingerprint. But for the data text it is the same row, with the two addresses exchanged and
the two ports. -/
theorem connection_both_ends {e : AuditEvent} {fields : Fields} (he : e.eventId = 5156)
    (hread : Fields.read e.data = .ok fields) :
    ∃ row, Catalogue.networkConnection.row? e = .ok (some row) ∧
      (∃ a b p q r, ShowsFlow row a b p q r ∧ row.get? "community_id"
        = some (.text (if (fields.integer? "Protocol").isSome
            then Flow.communityId a b p q r else ""))) ∧
      ∀ data' fields', Fields.read data' = .ok fields' → Exchanged fields fields' →
        ∃ row', Catalogue.networkConnection.row? { e with data := data' } = .ok (some row') ∧
          row'.get? "community_id" = row.get? "community_id" ∧
          ∀ column, column ≠ "data" → row'.get? column = row.get? (exchangeColumn column) := by
  refine ⟨_, row?_connection he hread, exists_showsFlow e fields,
    fun data' fields' hread' hexchanged => ?_⟩
  have he' : ({ e with data := data' } : AuditEvent).eventId = 5156 := he
  have hcolumns := get?_rowOf_exchanged hexchanged e data'
  exact ⟨_, row?_connection he' hread', hcolumns "community_id" (by decide), hcolumns⟩

/-- A connection from a port of one address to a port of another. -/
def webTexts : List (String × String) :=
  [("SourceAddress", "10.0.0.1"), ("SourcePort", "4711"), ("DestAddress", "10.0.0.2"),
    ("DestPort", "80"), ("Protocol", "6")]

/-- The event of a connection with these named texts. -/
def connectionOf (texts : List (String × String)) : AuditEvent :=
  { AuditEvent.blank with eventId := 5156, data := (Fields.ofTexts texts).write }

/-- The rows of both ends of a connection have one fingerprint, and the source address of the one
is the destination address of the other. -/
theorem connection_both_ends_web : ∃ row row',
    Catalogue.networkConnection.row? (connectionOf webTexts) = .ok (some row) ∧
      Catalogue.networkConnection.row?
        (connectionOf (webTexts.map fun p => (exchangeKey p.1, p.2))) = .ok (some row') ∧
      row'.get? "community_id" = row.get? "community_id" ∧
      row'.get? "dest_address" = row.get? "source_address" := by
  have hread (texts : List (String × String)) :
      Fields.read (connectionOf texts).data = .ok (Fields.ofTexts texts) :=
    read_write_of_collects (collects_ofTexts texts)
  obtain ⟨row, hrow, -, hother⟩ := connection_both_ends rfl (hread webTexts)
  obtain ⟨row', hrow', hsame, hcolumns⟩ := hother _ _ (hread _) (exchanged_ofTexts webTexts)
  exact ⟨row, row', hrow, hrow', hsame, hcolumns "dest_address" (by decide)⟩

end AuditTables.Proofs.Table
