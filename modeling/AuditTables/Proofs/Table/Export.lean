import AuditTables.Proofs.Json.RoundTrip
import AuditTables.Proofs.Table.Draining
import AuditTables.Proofs.Table.RowShape

/-!
# `AuditTables.Proofs.Table.Export`: what a scan writes holds all rows

A scan writes every row that waits as one line, a JSON object of the table's name and the
row. `export_lossless` says that nothing is lost on the way: the text falls into lines at its
line breaks, there are as many as the scan counts, and each is read back (`readLine?`) as the
name and the cells that it was made of.

Two facts carry this. `readLine?_rowLine` is about one line: names, columns and texts may hold
any character, and whole numbers of 64 bits, texts and null come back as what they were
(`Portable`). A double would not, since its digits are read in double arithmetic.
`portable_of_reached` is about the tables: whatever batches they were given and whatever was
taken from them, no row that waits holds a double or a number beyond 64 bits. It is an
invariant of the registry, because the rows of a batch are portable by themselves.
-/

set_option autoImplicit false

namespace AuditTables.Proofs.Table

open AuditTables.Decimal AuditTables.Event AuditTables.Json AuditTables.Table AuditTables.Text
open AuditTables.Proofs.Json

/-! ### One line -/

/-- Cells that JSON text holds without loss. -/
def Portable : Cell → Prop
  | .null => True
  | .integer n => inInt64 n = true
  | .text _ => True
  | .double _ => False

/-- The cell that a JSON value stands for. -/
def cellOf? : Value → Option Cell
  | .null => some .null
  | .number (.whole n) => some (.integer n)
  | .text s => some (.text s)
  | _ => none

/-- The table's name and the row's cells that an export line holds. The line has to be an
object of two keys, `row` and `table`. -/
def readLine? (line : String) : Option (String × List (String × Cell)) :=
  match Json.read line.toList with
  | .ok (.object [("row", .object entries), ("table", .text table)]) =>
    (entries.mapM fun p => (cellOf? p.2).map (p.1, ·)).map (table, ·)
  | _ => none

/-- The entries of an export line, in the order they are written. -/
def lineEntries (table : String) (row : Row) : List (String × Value) :=
  [("table", .text table), ("row", row.toValue)]

theorem rowLine_eq (table : String) (row : Row) :
    (rowLine table row).toList = '\x7b' :: (printEntries (lineEntries table row) ++ ['\x7d']) := by
  simp [rowLine, lineEntries, printEntries, Value.print, String.toList_ofList]

theorem cellOf?_toValue {c : Cell} (h : Portable c) : cellOf? c.toValue = some c := by
  cases c with
  | null => rfl
  | integer n => rfl
  | text s => rfl
  | double x => exact h.elim

theorem exact_toValue {c : Cell} (h : Portable c) (room : Nat) : Exact room c.toValue := by
  cases c with
  | null => exact .null room
  | integer n =>
      have hbounds : int64Min ≤ n ∧ n ≤ int64Max := by simpa [Portable, inInt64] using h
      have hword : int64Max ≤ word64Max := by decide
      exact .whole room n hbounds.1 (Int.le_trans hbounds.2 hword)
  | text s => exact .text room s
  | double x => exact h.elim

theorem mapM_cellOf?_toValue {cells : List (String × Cell)} (h : ∀ p ∈ cells, Portable p.2) :
    (cells.map fun (k, c) => (k, c.toValue)).mapM
      (fun p => (cellOf? p.2).map (p.1, ·)) = some cells := by
  induction cells with
  | nil => rfl
  | cons p cells ih =>
      have hp := cellOf?_toValue (h p List.mem_cons_self)
      have hcells := ih fun q hq => h q (List.mem_cons_of_mem p hq)
      simp [List.mapM_cons, hp, hcells]

section

variable {row : Row} (h : ∀ p ∈ row.cells, Portable p.2)

include h

theorem exact_row (room : Nat) : Exact (room + 1) row.toValue := by
  have hkeys : Keyed.Ascending (row.cells.map fun (k, c) => (k, c.toValue)) :=
    List.pairwise_map.mpr row.ascending
  refine .object room _ hkeys fun p hp => ?_
  obtain ⟨q, hq, rfl⟩ := List.mem_map.mp hp
  exact exact_toValue (h q hq) room

/-- An export line holds no line break. -/
theorem newline_not_mem_rowLine (table : String) : '\n' ∉ (rowLine table row).toList := by
  have hentries : '\n' ∉ printEntries (lineEntries table row) := by
    refine newline_not_mem_printEntries fun p hp => ?_
    rcases List.mem_pair.mp hp with rfl | rfl
    · exact newline_not_mem_printText table
    · exact newline_not_mem_print (exact_row h 0)
  simpa [rowLine_eq] using hentries

/-- The reader takes an export line for an object of the row and the table's name. The keys
are written in the other order, so this is no instance of what holds of printed values. -/
theorem read_rowLine (table : String) :
    Json.read (rowLine table row).toList
      = .ok (.object [("row", row.toValue), ("table", .text table)]) := by
  have hroom : 1 + (125 + 1) ≤ depthLimit := by decide
  have hvalues : ∀ p ∈ lineEntries table row, ∀ before,
      ReadsBack (.object before p.1 :: []) p.2 := by
    intro p hp before
    rcases List.mem_pair.mp hp with rfl | rfl
    · exact readsBack_text table
    · exact readsBack_of_exact (exact_row h 125) _ hroom
  have hne : lineEntries table row ≠ [] := List.cons_ne_nil _ _
  have hfirst : Mode.firstKey [] = .firstKey [] ∨ Mode.firstKey [] = .nextKey [] := Or.inl rfl
  obtain ⟨o, ho⟩ := feed_printEntries hne hvalues hfirst 1
  have hopen : Reader.machine.feed Reader.start (rowLine table row).toList
      = Reader.machine.feed ⟨1, [], .firstKey []⟩
          (printEntries (lineEntries table row) ++ ['\x7d']) := by
    rw [rowLine_eq, feed_of_step]
    rfl
  have hput : (lineEntries table row).foldl (fun es p => Keyed.put p.1 p.2 es) []
      = [("row", row.toValue), ("table", .text table)] := by
    simp [lineEntries, Keyed.put, show "row" < "table" by decide]
  show Reader.machine.run Reader.start _ = _
  rw [Machine.run_eq_bind, hopen, ho, hput]
  rfl

/-- An export line is read back as the table's name and the cells of the row. -/
theorem readLine?_rowLine (table : String) :
    readLine? (rowLine table row) = some (table, row.cells) := by
  have hcells := congrArg (Option.map (table, ·)) (mapM_cellOf?_toValue h)
  rw [readLine?, read_rowLine h table]
  exact hcells

end

/-! ### Cells of a table's rows -/

/-- The numbers of an event are signed ones of 64 bits. -/
structure InRange (e : AuditEvent) : Prop where
  captureTime : inInt64 e.captureTime = true
  eventId : inInt64 e.eventId = true
  taskId : inInt64 e.taskId = true
  level : inInt64 e.level = true
  processId : inInt64 e.processId = true
  threadId : inInt64 e.threadId = true

theorem portable_setAll {row : Row} {cells : List (String × Cell)}
    (hrow : ∀ p ∈ row.cells, Portable p.2) (hcells : ∀ p ∈ cells, Portable p.2) :
    ∀ p ∈ (row.setAll cells).cells, Portable p.2 := by
  induction cells generalizing row with
  | nil => exact hrow
  | cons q cells ih =>
      refine ih (fun p hp => ?_) fun p hp => hcells p (List.mem_cons_of_mem q hp)
      rcases Keyed.mem_put hp with rfl | hp
      · exact hcells q List.mem_cons_self
      · exact hrow p hp

theorem inInt64_of_readInteger {raw : String} {n : Int} (h : readInteger raw = some n) :
    inInt64 n = true := by
  unfold readInteger readBareInteger at h
  split at h <;> exact (Option.filter_eq_some_iff.mp h).2

theorem inInt64_of_integer? {fields : Fields} {key : String} {n : Int}
    (h : fields.integer? key = some n) : inInt64 n = true := by
  obtain ⟨v, -, hv⟩ := Option.bind_eq_some_iff.mp h
  unfold Fields.integerOf at hv
  split at hv
  · exact inInt64_of_readInteger hv
  · split at hv
    · rename_i hn
      exact Option.some.inj hv ▸ hn
    · cases hv
  · cases hv

theorem portable_systemCells {e : AuditEvent} (h : InRange e) :
    ∀ p ∈ systemCells e, Portable p.2 := by
  obtain ⟨h1, h2, h3, h4, h5, h6⟩ := h
  simp [systemCells, Portable, h1, h2, h3, h4, h5, h6]

theorem portable_cell {f : Field} (h : f.type ≠ .double) (fields : Fields) :
    Portable (f.cell fields) := by
  unfold Field.cell
  split
  · trivial
  · cases hvalue : fields.integer? f.key with
    | none => exact (by decide : inInt64 Field.missingInteger = true)
    | some n => exact inInt64_of_integer? hvalue
  · rename_i hdouble
    exact absurd hdouble h

/-- The elevations that message numbers stand for are one, two and three. -/
theorem inInt64_of_elevationOf {raw : String} {n : Int} (h : elevationOf raw = some n) :
    inInt64 n = true := by
  simp only [elevationOf] at h
  split_ifs at h <;> cases h <;> decide

theorem portable_step (step : Enrichment) (fields : Fields) :
    ∀ p ∈ step.cells fields, Portable p.2 := by
  intro p hp
  cases step with
  | elevation =>
      rw [Enrichment.cells] at hp
      split at hp
      · rename_i n hn
        rw [List.mem_singleton.mp hp]
        obtain ⟨raw, -, hraw⟩ := Option.bind_eq_some_iff.mp hn
        exact inInt64_of_elevationOf hraw
      · cases hp
  | connection =>
      rcases List.mem_append.mp hp with hp | hp
      · split at hp
        · rw [List.mem_singleton.mp hp]
          trivial
        · cases hp
      · rw [List.mem_singleton.mp hp]
        trivial

/-- No table shows a field as a double. -/
theorem type_ne_double {d : Definition} (hd : d ∈ catalogue) {f : Field} (hf : f ∈ d.fields) :
    f.type ≠ .double := by
  have hall : ∀ d ∈ catalogue, ∀ f ∈ d.fields, f.type ≠ .double := by decide
  exact hall d hd f hf

theorem portable_dataCells {d : Definition} (hd : d ∈ catalogue) (fields : Fields) :
    ∀ p ∈ d.dataCells fields, Portable p.2 := by
  intro p hp
  rcases List.mem_append.mp hp with hp | hp
  · obtain ⟨f, hf, rfl⟩ := List.mem_map.mp hp
    exact portable_cell (type_ne_double hd hf) fields
  · cases hstep : d.enrichment with
    | none => rw [hstep] at hp; cases hp
    | some step =>
        rw [hstep] at hp
        exact portable_step step fields p hp

/-- A row that a table makes holds nothing that JSON text would not. -/
theorem portable_of_row? {d : Definition} (hd : d ∈ catalogue) {e : AuditEvent} (he : InRange e)
    {row : Row} (hrow : d.row? e = .ok (some row)) : ∀ p ∈ row.cells, Portable p.2 := by
  have hsystem : ∀ p ∈ (Definition.systemRow e).cells, Portable p.2 :=
    portable_setAll (fun p hp => absurd hp List.not_mem_nil) (portable_systemCells he)
  have houtcome := outcome_row? d e
  generalize d.row? e = result at houtcome hrow
  cases houtcome with
  | skipped => cases hrow
  | unread =>
      rw [← Option.some.inj (Except.ok.inj hrow)]
      exact hsystem
  | failed => cases hrow
  | refused => cases hrow
  | shown fields =>
      rw [← Option.some.inj (Except.ok.inj hrow)]
      exact portable_setAll hsystem (portable_dataCells hd fields)

/-- The rows of a batch are rows of its events, also if the table fails on one of them. -/
theorem exists_of_mem_rowsOf {d : Definition} {events : List AuditEvent} {row : Row}
    (h : row ∈ (LiveTable.rowsOf d events).1) : ∃ e ∈ events, d.row? e = .ok (some row) := by
  induction events with
  | nil => cases h
  | cons e events ih =>
      have hlater : row ∈ (LiveTable.rowsOf d events).1 →
          ∃ e' ∈ e :: events, d.row? e' = .ok (some row) := fun hmem =>
        (ih hmem).imp fun e' he' => ⟨List.mem_cons_of_mem e he'.1, he'.2⟩
      rw [LiveTable.rowsOf] at h
      split at h
      · cases h
      · exact hlater h
      · rename_i first hfirst
        rcases List.mem_cons.mp h with rfl | hmem
        · exact ⟨e, List.mem_cons_self, hfirst⟩
        · exact hlater hmem

/-! ### The registry -/

/-- The registries that calls lead to, from the one that settings ask for. A batch goes to one
table or to all of them, and rows are taken from one table or by a scan. -/
inductive Reached (limit : Nat) (enabled : List String) : Registry → Prop where
  | new : Reached limit enabled (Registry.new limit enabled)
  | processed {r : Registry} {t : LiveTable} (h : Reached limit enabled r) (ht : t ∈ r.tables)
      (events : List AuditEvent) (hevents : ∀ e ∈ events, InRange e) :
      Reached limit enabled (r.replace (t.process events).1)
  | dispatched {r : Registry} (h : Reached limit enabled r) (events : List AuditEvent)
      (hevents : ∀ e ∈ events, InRange e) : Reached limit enabled (r.dispatch events).1
  | drained {r : Registry} {t : LiveTable} (h : Reached limit enabled r) (ht : t ∈ r.tables) :
      Reached limit enabled (r.replace t.cleared)
  | scanned {r : Registry} (h : Reached limit enabled r) : Reached limit enabled r.scan.1

/-- A table of the catalogue whose rows can all be exported. -/
structure Exportable (t : LiveTable) : Prop where
  known : t.definition ∈ catalogue
  rows : ∀ row ∈ t.queue.items, ∀ p ∈ row.cells, Portable p.2

theorem exportable_process {t : LiveTable} (h : Exportable t) {events : List AuditEvent}
    (hevents : ∀ e ∈ events, InRange e) : Exportable (t.process events).1 := by
  refine ⟨h.known, fun row hrow => ?_⟩
  -- A row that waits afterwards waited before or is of the batch; none is new in other ways.
  have hmem : row ∈ t.queue.items ++ (LiveTable.rowsOf t.definition events).1 :=
    List.mem_of_mem_drop hrow
  rcases List.mem_append.mp hmem with hold | hnew
  · exact h.rows row hold
  · obtain ⟨e, he, hmade⟩ := exists_of_mem_rowsOf hnew
    exact portable_of_row? h.known (hevents e he) hmade

theorem exportable_cleared {t : LiveTable} (h : Exportable t) : Exportable t.cleared :=
  ⟨h.known, fun _ hrow => absurd hrow List.not_mem_nil⟩

theorem exportable_replace {r : Registry} (h : ∀ t ∈ r.tables, Exportable t) {table : LiveTable}
    (htable : Exportable table) : ∀ t ∈ (r.replace table).tables, Exportable t := by
  intro t ht
  obtain ⟨t', ht', rfl⟩ := List.mem_map.mp ht
  split
  · exact htable
  · exact h t' ht'

/-- In a registry that calls lead to, every row that waits can be exported. By induction on
the calls. -/
theorem exportable_of_reached {limit : Nat} {enabled : List String} {r : Registry}
    (h : Reached limit enabled r) : ∀ t ∈ r.tables, Exportable t := by
  induction h with
  | new =>
      intro t ht
      obtain ⟨d, hd, rfl⟩ := List.mem_map.mp ht
      exact ⟨mem_catalogue_of_enabled hd, fun _ hrow => absurd hrow List.not_mem_nil⟩
  | processed _ ht events hevents ih =>
      exact exportable_replace ih (exportable_process (ih _ ht) hevents)
  | dispatched _ events hevents ih =>
      intro t' ht'
      rw [tables_dispatch] at ht'
      obtain ⟨t, ht, rfl⟩ := List.mem_map.mp ht'
      exact exportable_process (ih t ht) hevents
  | drained _ ht ih => exact exportable_replace ih (exportable_cleared (ih _ ht))
  | scanned _ ih =>
      intro t' ht'
      obtain ⟨t, ht, rfl⟩ := List.mem_map.mp ht'
      exact exportable_cleared (ih t ht)

theorem names_replace (r : Registry) (table : LiveTable) : (r.replace table).names = r.names := by
  show (r.tables.map _).map LiveTable.name = r.tables.map LiveTable.name
  rw [List.map_map]
  refine List.map_congr_left fun t _ => ?_
  show LiveTable.name (if t.name == table.name then table else t) = t.name
  split
  · rename_i hsame
    exact (eq_of_beq hsame).symm
  · rfl

theorem names_eq_of_definitions (r : Registry) : r.names = (definitions r).map (·.name) := by
  rw [definitions, List.map_map]
  rfl

/-- Calls neither add tables nor move them. -/
theorem names_of_reached {limit : Nat} {enabled : List String} {r : Registry}
    (h : Reached limit enabled r) : r.names = (enabledTables enabled).map (·.name) := by
  induction h with
  | new => rw [names_eq_of_definitions, definitions_new]
  | processed _ _ events _ ih => rw [names_replace, ih]
  | dispatched _ events _ ih =>
      rw [names_eq_of_definitions, definitions_dispatch, ← names_eq_of_definitions, ih]
  | drained _ _ ih => rw [names_replace, ih]
  | @scanned r _ ih =>
      have hdefinitions : definitions r.scan.1 = definitions r := definitions_cleared r
      rw [names_eq_of_definitions, hdefinitions, ← names_eq_of_definitions, ih]

/-! ### A scan -/

/-- The rows that wait in a registry, table after table, each with its table's name. -/
def waiting (r : Registry) : List (String × Row) :=
  r.tables.flatMap fun t => t.queue.items.map fun row => (t.name, row)

/-- A scan goes over the rows that wait, also if it leaves tables without rows out. -/
theorem flatMap_queuedRows (r : Registry) :
    (r.queuedRows.flatMap fun (name, rows) => rows.map fun row => (name, row)) = waiting r := by
  obtain ⟨tables⟩ := r
  rw [waiting, Registry.queuedRows, List.flatMap_map]
  induction tables with
  | nil => rfl
  | cons t rest ih =>
      rw [List.filter_cons, List.flatMap_cons, ← ih]
      split
      · rw [List.flatMap_cons]
      · rename_i hempty
        have hitems : t.queue.items = [] := by simpa using hempty
        simp [hitems]

theorem queuedLines_eq (r : Registry) :
    r.queuedLines = (waiting r).map fun p => rowLine p.1 p.2 := by
  rw [← flatMap_queuedRows, List.map_flatMap, Registry.queuedLines]
  simp [Function.comp_def]

theorem exportCount_eq (r : Registry) : r.exportCount = (waiting r).length := by
  have hcount : ∀ (exported : List (String × List Row)) (total : Nat),
      exported.foldl (fun total (_, rows) => total + rows.length) total
        = total
          + (exported.flatMap fun (name, rows) => rows.map fun row => (name, row)).length := by
    intro exported
    induction exported with
    | nil => exact fun total => rfl
    | cons p exported ih =>
        intro total
        rw [List.foldl_cons, ih, List.flatMap_cons, List.length_append, List.length_map,
          Nat.add_assoc]
  rw [← flatMap_queuedRows, Registry.exportCount, hcount, Nat.zero_add]

/-- What a scan leaves has nothing to export. -/
theorem waiting_cleared (r : Registry) : waiting r.cleared = [] := by
  refine List.flatMap_eq_nil_iff.mpr fun t' ht' => ?_
  obtain ⟨t, -, rfl⟩ := List.mem_map.mp ht'
  rfl

theorem scan_cleared (r : Registry) : r.cleared.scan = (r.cleared, "", 0) := by
  have htables : r.cleared.cleared = r.cleared := by
    show Registry.mk ((r.tables.map LiveTable.cleared).map LiveTable.cleared) = _
    rw [List.map_map]
    rfl
  have hlines : r.cleared.queuedLines = [] := by rw [queuedLines_eq, waiting_cleared]; rfl
  have hcount : r.cleared.exportCount = 0 := by rw [exportCount_eq, waiting_cleared]; rfl
  rw [Registry.scan, Registry.exportText, htables, hlines, hcount]
  rfl

/-- A scan of a registry that calls lead to loses nothing. What it writes falls into lines that
a line break ends and that hold none. There are as many as the scan counts, one for each row
that waits, in the order of the tables and of their queues, and each is read back as the name
of its table and the cells of its row. The tables are the enabled ones, in the order of the
catalogue. Afterwards every queue is empty, and another scan writes nothing and counts none.
Any row of whole numbers of 64 bits, texts and nulls is read back from its line in this way,
whatever table and columns it is of. -/
theorem export_lossless {limit : Nat} {enabled : List String} {r : Registry}
    (h : Reached limit enabled r) :
    (∃ lines : List String,
      r.scan = (r.cleared, String.join (lines.map (· ++ "\n")), lines.length) ∧
      (∀ line ∈ lines, '\n' ∉ line.toList) ∧
      lines.map readLine? = (waiting r).map fun p => some (p.1, p.2.cells)) ∧
    r.names = (enabledTables enabled).map (·.name) ∧
    (∀ t ∈ r.cleared.tables, t.queue.items = []) ∧
    r.cleared.scan = (r.cleared, "", 0) ∧
    ∀ (table : String) (row : Row), (∀ p ∈ row.cells, Portable p.2) →
      '\n' ∉ (rowLine table row).toList ∧
        readLine? (rowLine table row) = some (table, row.cells) := by
  have hportable : ∀ p ∈ waiting r, ∀ q ∈ p.2.cells, Portable q.2 := by
    intro p hp
    obtain ⟨t, ht, hmem⟩ := List.mem_flatMap.mp hp
    obtain ⟨row, hrow, rfl⟩ := List.mem_map.mp hmem
    exact (exportable_of_reached h t ht).rows row hrow
  refine ⟨⟨r.queuedLines, ?_, ?_, ?_⟩, names_of_reached h, ?_, scan_cleared r, ?_⟩
  · have hlength : r.queuedLines.length = r.exportCount := by
      rw [exportCount_eq, queuedLines_eq, List.length_map]
    rw [hlength]
    rfl
  · intro line hline
    rw [queuedLines_eq] at hline
    obtain ⟨p, hp, rfl⟩ := List.mem_map.mp hline
    exact newline_not_mem_rowLine (hportable p hp) p.1
  · rw [queuedLines_eq, List.map_map]
    refine List.map_congr_left fun p hp => ?_
    rw [Function.comp_apply, readLine?_rowLine (hportable p hp)]
  · intro t' ht'
    obtain ⟨t, -, rfl⟩ := List.mem_map.mp ht'
    rfl
  · exact fun table row hrow =>
      ⟨newline_not_mem_rowLine hrow table, readLine?_rowLine hrow table⟩

/-- An event whose computer has a line break and a quotation mark in its name. -/
def brokenName : AuditEvent := { AuditEvent.blank with computerName := "a\n\"b" }

/-- The row of such an event is exported on one line and read back. -/
theorem export_lossless_brokenName :
    let r := ((Registry.new 5 ["winevtlog"]).dispatch [brokenName]).1
    ∃ line : String, r.scan = (r.cleared, String.join [line ++ "\n"], 1) ∧ '\n' ∉ line.toList ∧
      [readLine? line] = (waiting r).map fun p => some (p.1, p.2.cells) := by
  intro r
  have hrange : ∀ e ∈ [brokenName], InRange e := by
    intro e he
    rw [List.mem_singleton.mp he]
    constructor <;> decide
  have hnew : Reached 5 ["winevtlog"] (Registry.new 5 ["winevtlog"]) := .new
  obtain ⟨⟨lines, hscan, hlines, hread⟩, -⟩ :=
    export_lossless (hnew.dispatched [brokenName] hrange)
  have hlength : lines.length = 1 := by
    have hrows : (waiting r).length = 1 := rfl
    rw [← List.length_map, hread, List.length_map, hrows]
  obtain ⟨line, rfl⟩ := List.length_eq_one_iff.mp hlength
  exact ⟨line, hscan, hlines line List.mem_cons_self, hread⟩

end AuditTables.Proofs.Table
