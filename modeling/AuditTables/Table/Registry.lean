import AuditTables.Notice
import AuditTables.Table.Catalogue
import AuditTables.Table.Queue

/-!
# `AuditTables.Table.Registry`: tables at work

A table at work is a definition with a queue of rows. A registry holds the
tables that settings enable, in the order of the catalogue. A batch of events
goes to every table; a table that cannot read an event keeps the rows it has
made of the batch so far, reports the failure, and does not hold up the others.
A scan takes all queued rows, table after table.
-/

set_option autoImplicit false

namespace AuditTables.Table

/-- A definition and the rows that wait to be read. -/
structure LiveTable where
  definition : Definition
  queue : Queue Row

/-- What is reported when a batch pushes items out of the queue of a table. -/
def dropNotices {α : Type} (table : String) (q : Queue α) (batch : List α) : List Notice :=
  let (_, dropped) := q.push batch
  if dropped = 0 then [] else [.rowsDropped table dropped q.limit]

theorem dropNotices_eq {α : Type} (table : String) (q : Queue α) (batch : List α) :
    dropNotices table q batch
      = if q.excess batch = 0 then [] else [.rowsDropped table (q.excess batch) q.limit] := rfl

namespace LiveTable

/-- A table without rows. -/
def new (limit : Nat) (d : Definition) : LiveTable := ⟨d, Queue.empty limit⟩

def name (t : LiveTable) : String := t.definition.name

/-- The rows that a table makes of events, up to the first event that it cannot
read, and that failure. -/
def rowsOf (d : Definition) : List AuditEvent → List Row × Option Failure
  | [] => ([], none)
  | e :: es =>
    match d.row? e with
    | .error failure => ([], some failure)
    | .ok none => rowsOf d es
    | .ok (some row) =>
      let (rows, failure) := rowsOf d es
      (row :: rows, failure)

/-- Rows put into the queue, and what is reported of those pushed out. -/
def enqueue (t : LiveTable) (rows : List Row) : LiveTable × List Notice :=
  let (queue, _) := t.queue.push rows
  (⟨t.definition, queue⟩, dropNotices t.name t.queue rows)

/-- A batch of events given to a table: the table with its new rows, what is
reported, and the failure that stopped it. -/
def process (t : LiveTable) (events : List AuditEvent) : LiveTable × List Notice × Option Failure :=
  let (rows, failure) := rowsOf t.definition events
  let (next, notices) := t.enqueue rows
  (next, notices, failure)

/-- What is reported of a failure in a table. -/
def failureNotices (t : LiveTable) : Option Failure → List Notice
  | none => []
  | some failure => [.tableFailed t.name failure]

/-- A table without its rows. -/
def cleared (t : LiveTable) : LiveTable :=
  let (_, queue) := t.queue.drain
  ⟨t.definition, queue⟩

end LiveTable

/-- The tables that are enabled, in order. -/
structure Registry where
  tables : List LiveTable

namespace Registry

/-- Whether settings enable a table. No names at all enable every table. -/
def enables (enabled : List String) (d : Definition) : Bool :=
  enabled.isEmpty || enabled.contains d.name

/-- The registry that settings ask for. -/
def new (limit : Nat) (enabled : List String) : Registry :=
  ⟨(catalogue.filter (enables enabled)).map (LiveTable.new limit)⟩

/-- The enabled names that no table has, in the order given. -/
def unknownNames (enabled : List String) : List String :=
  enabled.filter fun name => !(catalogue.map (·.name)).contains name

/-- What is reported when a registry is made. -/
def newNotices (enabled : List String) : List Notice :=
  (unknownNames enabled).map .unknownTable

def names (r : Registry) : List String := r.tables.map LiveTable.name

def size (r : Registry) : Nat := r.tables.length

def isEmpty (r : Registry) : Bool := r.tables.isEmpty

/-- The table of a name. -/
def get? (r : Registry) (name : String) : Option LiveTable :=
  r.tables.find? fun t => t.name == name

/-- The registry with the table of a name put in the place of the old one. -/
def replace (r : Registry) (table : LiveTable) : Registry :=
  ⟨r.tables.map fun t => if t.name == table.name then table else t⟩

/-- A batch of events given to one table, and what is reported of it. -/
def dispatchTo (t : LiveTable) (events : List AuditEvent) : LiveTable × List Notice :=
  let (next, notices, failure) := t.process events
  (next, notices ++ t.failureNotices failure)

/-- A batch of events given to every table. -/
def dispatch (r : Registry) (events : List AuditEvent) : Registry × List Notice :=
  let results := r.tables.map (dispatchTo · events)
  (⟨results.map (·.1)⟩, results.flatMap (·.2))

/-- The rows that wait in each table that has any, with the table's name. -/
def queuedRows (r : Registry) : List (String × List Row) :=
  (r.tables.filter fun t => !t.queue.items.isEmpty).map fun t => (t.name, t.queue.items)

/-- The export lines of all rows that wait. -/
def queuedLines (r : Registry) : List String :=
  r.queuedRows.flatMap fun (name, rows) => rows.map (rowLine name)

/-- The registry after a scan took every row. -/
def cleared (r : Registry) : Registry := ⟨r.tables.map LiveTable.cleared⟩

/-- All rows that wait taken out, and the registry that is left. -/
def drain (r : Registry) : List (String × List Row) × Registry := (r.queuedRows, r.cleared)

/-- What a scan writes: the export lines, each ended by a line break. -/
def exportText (r : Registry) : String := String.join (r.queuedLines.map (· ++ "\n"))

/-- How many rows a scan hands out. -/
def exportCount (r : Registry) : Nat :=
  r.queuedRows.foldl (fun total (_, rows) => total + rows.length) 0

/-- A scan: the registry that it leaves, what it writes, and how many rows it
hands out. -/
def scan (r : Registry) : Registry × String × Nat := (r.cleared, r.exportText, r.exportCount)

end Registry

end AuditTables.Table
