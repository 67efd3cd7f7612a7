import AuditTables.Json.Printer

/-!
# `AuditTables.Table.Row`: columns, cells and rows

A row gives each of its columns a cell. A cell may be null, which is not the
same as holding the empty text, and a column that a row does not have is neither.
Columns are shown in ascending order of their names. That order is part of the
type: `Row.set` is the only way to add a cell and keeps it.
-/

set_option autoImplicit false

namespace AuditTables.Table

open AuditTables.Decimal

/-- The type that a table declares for a column. -/
inductive ColumnType where
  | integer
  | string
  | double
  deriving DecidableEq, Repr

/-- The name of a column type. -/
def ColumnType.label : ColumnType → String
  | .integer => "integer"
  | .string => "string"
  | .double => "double"

/-- A column of a table. -/
structure Column where
  name : String
  type : ColumnType
  deriving DecidableEq, Repr

/-- What a row holds in a column. -/
inductive Cell where
  | null
  | integer (n : Int)
  | text (s : String)
  | double (x : Binary64)
  deriving DecidableEq, Repr

namespace Cell

/-- The declared type that a cell belongs to. Null belongs to none. -/
def type? : Cell → Option ColumnType
  | null => none
  | integer _ => some .integer
  | text _ => some .string
  | double _ => some .double

/-- A cell as a JSON value. -/
def toValue : Cell → Json.Value
  | null => .null
  | integer n => .number (.whole n)
  | text s => .text s
  | double x => .number (.double x)

end Cell

/-- A row of a table. -/
structure Row where
  cells : List (String × Cell)
  ascending : Keyed.Ascending cells

namespace Row

/-- The row without columns. -/
def empty : Row := ⟨[], Keyed.ascending_nil⟩

instance : Inhabited Row := ⟨empty⟩

/-- A cell written into a column. -/
def set (row : Row) (column : String) (cell : Cell) : Row :=
  ⟨Keyed.put column cell row.cells, Keyed.ascending_put row.ascending column cell⟩

/-- Cells written into columns one after the other. -/
def setAll (row : Row) (cells : List (String × Cell)) : Row :=
  cells.foldl (fun r p => r.set p.1 p.2) row

/-- The cell of a column, if the row has the column. -/
def get? (row : Row) (column : String) : Option Cell := Keyed.get? column row.cells

/-- The text in a column that holds one. -/
def text? (row : Row) (column : String) : Option String :=
  match row.get? column with
  | some (.text s) => some s
  | _ => none

/-- The whole number in a column that holds one. -/
def integer? (row : Row) (column : String) : Option Int :=
  match row.get? column with
  | some (.integer n) => some n
  | _ => none

/-- The columns of a row, in order. -/
def columns (row : Row) : List String := Keyed.keys row.cells

def size (row : Row) : Nat := row.cells.length

def isEmpty (row : Row) : Bool := row.cells.isEmpty

/-- A row as a JSON object. -/
def toValue (row : Row) : Json.Value := .object (row.cells.map fun (k, c) => (k, c.toValue))

@[simp] theorem get?_set_self (row : Row) (column : String) (cell : Cell) :
    (row.set column cell).get? column = some cell :=
  Keyed.get?_put_self column cell row.cells

theorem get?_set_of_ne (row : Row) {column other : String} (h : column ≠ other) (cell : Cell) :
    (row.set column cell).get? other = row.get? other :=
  Keyed.get?_put_of_ne h cell row.cells

end Row

/-- The line that exports a row of a table: a JSON object with the table's name
and the row, without a line break. -/
def rowLine (table : String) (row : Row) : String :=
  String.ofList
    ('\x7b' :: Json.printText "table" ++ ':' :: Json.printText table
      ++ ',' :: Json.printText "row" ++ ':' :: row.toValue.print ++ ['\x7d'])

end AuditTables.Table
