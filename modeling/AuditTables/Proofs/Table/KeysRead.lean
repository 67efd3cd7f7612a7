import AuditTables.Proofs.Table.Connection
import AuditTables.Proofs.Table.Routing

/-!
# `AuditTables.Proofs.Table.KeysRead`: the data fields that a row depends on

An event may carry any number of data fields, and whoever causes the event chooses many of them. A
table declares the keys that it shows. `row?_of_agreeOn` says that it looks at no others, except for
the few keys that tell the kinds of payload apart. If the data of two events agree on these keys,
the table passes over both of the events or makes a row of each, and the rows differ in the data
text alone.

Each part of a table is a function of the values under some keys: `payloadKeys` are those of the
kind, `stepKeys` those of a last step, and a field has its own. A definition is closed
(`ReadsDeclared`) if its last step reads no key that it does not show, and the catalogue has only
such definitions. `agreeOn_append` is where agreement comes from: fields under other keys do not
count, whatever their values are.
-/

set_option autoImplicit false

namespace AuditTables.Proofs.Table

open AuditTables.Event AuditTables.Table
open AuditTables.Proofs.Event

/-! ### Agreement on keys -/

/-- Two lists of fields have the same values under these keys, or none in both. -/
def AgreeOn (keys : List String) (fields fields' : Fields) : Prop :=
  ∀ key ∈ keys, fields'.get? key = fields.get? key

/-- Texts under other keys do not change what is found under these. -/
theorem agreeOn_append {keys : List String} {texts more : List (String × String)}
    (h : ∀ p ∈ more, p.1 ∉ keys) :
    AgreeOn keys (Fields.ofTexts texts) (Fields.ofTexts (texts ++ more)) := by
  intro key hkey
  have hnone : textsOf key more = [] := by
    rw [textsOf_eq_nil_iff]
    intro hmem
    obtain ⟨p, hp, rfl⟩ := List.mem_map.mp hmem
    exact h p hp hkey
  have hsame : textsOf key (texts ++ more) = textsOf key texts := by
    rw [textsOf, List.filter_append, List.map_append]
    show textsOf key texts ++ textsOf key more = textsOf key texts
    rw [hnone, List.append_nil]
  rw [(collects_ofTexts _).get?, (collects_ofTexts _).get?, hsame]

/-- The keys that the kind of a payload is told by. -/
def payloadKeys : List String :=
  ["NewProcessId", "NewProcessName", "LogonType", "ObjectValueName", "ObjectType", "AccessList",
   "AccessMask", "Application", "DestAddress", "ProcessName", "Status"]

/-- The keys that a last step reads. -/
def stepKeys : Enrichment → List String
  | .elevation => ["TokenElevationType"]
  | .connection =>
    ["Direction", "Protocol", "SourceAddress", "DestAddress", "SourcePort", "DestPort"]

/-- The keys that a table declares: those of its fields. -/
def declaredKeys (d : Definition) : List String := d.fields.map (·.key)

section

variable {keys : List String} {fields fields' : Fields} (h : AgreeOn keys fields fields')

include h

theorem AgreeOn.text? {key : String} (hkey : key ∈ keys) :
    fields'.text? key = fields.text? key := by
  rw [Fields.text?, Fields.text?, h key hkey]

theorem AgreeOn.integer? {key : String} (hkey : key ∈ keys) :
    fields'.integer? key = fields.integer? key := by
  rw [Fields.integer?, Fields.integer?, h key hkey]

theorem AgreeOn.contains {key : String} (hkey : key ∈ keys) :
    fields'.contains key = fields.contains key := by
  rw [Fields.contains, Fields.contains, h key hkey]

/-- Agreement on some keys is agreement on fewer. -/
theorem AgreeOn.mono {fewer : List String} (hkeys : ∀ key ∈ fewer, key ∈ keys) :
    AgreeOn fewer fields fields' := fun key hkey => h key (hkeys key hkey)

/-- What a field shows depends on its own key. -/
theorem AgreeOn.cell {f : Field} (hkey : f.key ∈ keys) : f.cell fields' = f.cell fields := by
  rw [Field.cell, Field.cell, h.text? hkey, h.integer? hkey]

end

variable {fields fields' : Fields}

/-- The kind of a payload depends on its keys. -/
theorem classify_of_agreeOn (h : AgreeOn payloadKeys fields fields') :
    PayloadKind.classify fields' = PayloadKind.classify fields := by
  have hfile : isFileObject fields' = isFileObject fields := by
    rw [isFileObject, isFileObject, h.text? (by decide)]
  have hhas (key : String) (hkey : key ∈ payloadKeys) :
      fields'.contains key = fields.contains key := h.contains hkey
  rw [PayloadKind.classify, PayloadKind.classify, hfile, hhas "NewProcessId" (by decide),
    hhas "NewProcessName" (by decide), hhas "LogonType" (by decide),
    hhas "ObjectValueName" (by decide), hhas "ObjectType" (by decide),
    hhas "AccessList" (by decide), hhas "AccessMask" (by decide), hhas "Application" (by decide),
    hhas "DestAddress" (by decide), hhas "ProcessName" (by decide), hhas "Status" (by decide)]

/-- The fingerprint of a flow depends on the keys of the last step of connections. -/
theorem flowFingerprint_of_agreeOn (h : AgreeOn (stepKeys .connection) fields fields') :
    flowFingerprint fields' = flowFingerprint fields := by
  have htext (key : String) (hkey : key ∈ stepKeys .connection) :
      fields'.text? key = fields.text? key := h.text? hkey
  have hinteger (key : String) (hkey : key ∈ stepKeys .connection) :
      fields'.integer? key = fields.integer? key := h.integer? hkey
  rw [flowFingerprint, flowFingerprint, hinteger "Protocol" (by decide),
    htext "SourceAddress" (by decide), htext "DestAddress" (by decide),
    hinteger "SourcePort" (by decide), hinteger "DestPort" (by decide)]

/-- What a last step fills depends on the keys that it reads. -/
theorem cells_of_agreeOn {step : Enrichment} (h : AgreeOn (stepKeys step) fields fields') :
    step.cells fields' = step.cells fields := by
  cases step with
  | elevation => rw [Enrichment.cells, Enrichment.cells, h.text? (by decide)]
  | connection =>
      rw [Enrichment.cells, Enrichment.cells, h.text? (by decide), flowFingerprint_of_agreeOn h]

/-! ### Tables -/

/-- The last step of a table reads declared keys only. -/
def ReadsDeclared (d : Definition) : Prop :=
  ∀ step ∈ d.enrichment, ∀ key ∈ stepKeys step, key ∈ declaredKeys d

/-- No table of the catalogue reads a key that it does not declare. -/
theorem readsDeclared_of_mem {d : Definition} (h : d ∈ catalogue) : ReadsDeclared d := by
  have hall : ∀ d ∈ catalogue, ∀ step ∈ d.enrichment, ∀ key ∈ stepKeys step,
      key ∈ declaredKeys d := by decide
  exact hall d h

/-- The cells that a table fills from the data depend on the declared keys. -/
theorem dataCells_of_agreeOn {d : Definition} (hd : ReadsDeclared d)
    (h : AgreeOn (declaredKeys d) fields fields') : d.dataCells fields' = d.dataCells fields := by
  have hfields : (d.fields.map fun f => (f.column, f.cell fields'))
      = d.fields.map fun f => (f.column, f.cell fields) := by
    refine List.map_congr_left fun f hf => ?_
    rw [h.cell (List.mem_map_of_mem hf)]
  rw [Definition.dataCells, Definition.dataCells, hfields]
  cases hstep : d.enrichment with
  | none => rfl
  | some step =>
      show _ ++ step.cells fields' = _ ++ step.cells fields
      rw [cells_of_agreeOn (h.mono (hd step hstep))]

/-- Rows that show the same in a column still do when the same cells are written into both. -/
theorem get?_setAll_same {row row' : Row} {column : String} (cells : List (String × Cell))
    (h : row'.get? column = row.get? column) :
    (row'.setAll cells).get? column = (row.setAll cells).get? column := by
  induction cells generalizing row row' with
  | nil => exact h
  | cons p cells ih =>
      refine ih ?_
      by_cases hcolumn : p.1 = column
      · rw [← hcolumn, Row.get?_set_self, Row.get?_set_self]
      · rw [Row.get?_set_of_ne row' hcolumn, Row.get?_set_of_ne row hcolumn, h]

/-- Events that differ in their data show the same in every other column that all tables have. -/
theorem get?_systemRow_data (e : AuditEvent) (data : String) {column : String}
    (h : column ≠ "data") : (Definition.systemRow { e with data := data }).get? column
      = (Definition.systemRow e).get? column := by
  -- The data text is the last of the cells to be written.
  have hlast (data : String) : Definition.systemRow { e with data := data }
      = (Row.empty.setAll (systemCells e).dropLast).set "data" (.text data) := rfl
  have hsame : ({ e with data := e.data } : AuditEvent) = e := rfl
  rw [← hsame, hlast, hlast, Row.get?_set_of_ne _ (Ne.symm h), Row.get?_set_of_ne _ (Ne.symm h)]

/-- What a table makes of an event whose data it can read. -/
theorem row?_of_read {d : Definition} (hreads : d.readsData = true) {e : AuditEvent}
    (hread : Fields.read e.data = .ok fields) : d.row? e = .ok
      (if d.selects e.eventId && d.accepts fields then some (d.rowOf e fields) else none) := by
  rw [Definition.row?, hreads, hread]
  cases d.selects e.eventId <;> rfl

/-- A row depends only on the keys that its table declares, and whether there is one also on the
keys that tell kinds of payload apart. Take an event that a table of the data text can read, and
give it other data that agrees on these keys. The table passes over both events, or it makes rows
of both, which show the same in every column but that of the data text. -/
theorem row?_of_agreeOn {d : Definition} (hd : d ∈ dataTables) {e : AuditEvent} {data' : String}
    (hread : Fields.read e.data = .ok fields) (hread' : Fields.read data' = .ok fields')
    (h : AgreeOn (declaredKeys d ++ payloadKeys) fields fields') :
    (d.row? e = .ok none ∧ d.row? { e with data := data' } = .ok none) ∨
      ∃ row row', d.row? e = .ok (some row) ∧ d.row? { e with data := data' } = .ok (some row') ∧
        row.isEmpty = false ∧ row'.isEmpty = false ∧
        ∀ column, column ≠ "data" → row'.get? column = row.get? column := by
  obtain ⟨hmem, hreads⟩ := mem_dataTables.mp hd
  have hconsistent : Consistent d := consistent_of_mem hmem
  have hkind : PayloadKind.classify fields' = PayloadKind.classify fields :=
    classify_of_agreeOn (h.mono fun key => List.mem_append_right _)
  have hcells : d.dataCells fields' = d.dataCells fields :=
    dataCells_of_agreeOn (readsDeclared_of_mem hmem) (h.mono fun key => List.mem_append_left _)
  have haccepts : d.accepts fields' = d.accepts fields := by
    rw [accepts_eq, accepts_eq, hkind]
  have hrow := row?_of_read hreads hread
  have hrow' := row?_of_read (e := { e with data := data' }) hreads hread'
  rw [haccepts] at hrow'
  cases hfor : d.selects e.eventId && d.accepts fields with
  | false =>
      rw [hfor] at hrow hrow'
      exact Or.inl ⟨hrow, hrow'⟩
  | true =>
      rw [hfor] at hrow hrow'
      refine Or.inr ⟨_, _, hrow, hrow', ?_, ?_, fun column hdata => ?_⟩
      · exact isEmpty_of_showsEvent (fits_of_row? hconsistent hrow).2
      · exact isEmpty_of_showsEvent (fits_of_row? hconsistent hrow').2
      · rw [Definition.rowOf, Definition.rowOf, hcells]
        exact get?_setAll_same _ (get?_systemRow_data e data' hdata)

/-- Texts under keys that the table of connections does not declare, one of them twice. -/
def strayTexts : List (String × String) :=
  [("community_id", "1:forged"), ("source_port", "80"), ("source_port", "443")]

/-- Stray texts named after columns change neither the fingerprint of a connection nor its port. -/
theorem row?_of_agreeOn_stray : ∃ row row',
    Catalogue.networkConnection.row? (connectionOf webTexts) = .ok (some row) ∧
      Catalogue.networkConnection.row? (connectionOf (webTexts ++ strayTexts)) = .ok (some row') ∧
      row'.get? "community_id" = row.get? "community_id" ∧
      row'.get? "source_port" = row.get? "source_port" := by
  have hread (texts : List (String × String)) :
      Fields.read (connectionOf texts).data = .ok (Fields.ofTexts texts) :=
    read_write_of_collects (collects_ofTexts texts)
  have hagree : AgreeOn (declaredKeys Catalogue.networkConnection ++ payloadKeys)
      (Fields.ofTexts webTexts) (Fields.ofTexts (webTexts ++ strayTexts)) :=
    agreeOn_append (by decide)
  have hmem : Catalogue.networkConnection ∈ dataTables := by decide
  rcases row?_of_agreeOn hmem (hread webTexts) (hread _) hagree with ⟨hnone, -⟩ | hrows
  · -- The table takes every event of a connection.
    rw [row?_connection rfl (hread webTexts)] at hnone
    cases hnone
  · obtain ⟨row, row', hrow, hrow', -, -, hcolumns⟩ := hrows
    exact ⟨row, row', hrow, hrow', hcolumns _ (by decide), hcolumns _ (by decide)⟩

end AuditTables.Proofs.Table
