import AuditTables.Decimal.Shortest
import AuditTables.Settings.Path
import AuditTables.Text.Lowercase

/-!
# `AuditTables.Settings.Value`: layered setting values

Settings come in layers, and a later layer is laid over the earlier ones entry
by entry: a table is merged into the table that is there, and anything else
replaces what is there. Names are put into lowercase when they are laid down. A
value remembers where it came from, because complaints about it say so.

An entry of a layer may lead deeper than its own table (`Path.ofName`). What is
in the way of such a path gives way to a table or to a list, and a list is made
long enough for the place that the path names.
-/

set_option autoImplicit false

namespace AuditTables.Settings

open AuditTables.Decimal AuditTables.Text

/-- A single setting value. -/
inductive Scalar where
  | boolean (b : Bool)
  | integer (n : Int)
  | real (x : Binary64)
  | text (s : String)
  deriving DecidableEq, Repr

/-- Where a value came from, if complaints are to say so. -/
abbrev Origin := Option String

/-- A setting value of any shape. -/
inductive Value where
  /-- No value, at a place of a list that was passed over. -/
  | nothing
  | scalar (origin : Origin) (s : Scalar)
  | list (origin : Origin) (items : List Value)
  | table (origin : Origin) (entries : List (String × Value))
  deriving Repr, Inhabited

namespace Value

/-- A table without entries. -/
def empty : Value := .table none []

/-- The entries of a table, none of anything else. -/
def entries : Value → List (String × Value)
  | .table _ es => es
  | _ => []

/-- A table with its entries changed. Anything else gives way to a table. -/
def overEntries (f : List (String × Value) → List (String × Value)) : Value → Value
  | .table origin es => .table origin (f es)
  | _ => .table none (f [])

/-- A list with its items changed. Anything else gives way to a list. -/
def overItems (f : List Value → List Value) : Value → Value
  | .list origin items => .list origin (f items)
  | _ => .list none (f [])

/-- The entries with one of them replaced, or added at the end. -/
def write (es : List (String × Value)) (name : String) (value : Value) :
    List (String × Value) :=
  if (es.lookup name).isSome then
    es.map fun p => if p.1 = name then (name, value) else p
  else es ++ [(name, value)]

/-- The items with the one at a place changed. A negative place counts from the
end. A place beyond either end is reached by filling up with nothing. -/
def overItem (place : Int) (f : Value → Value) (items : List Value) : List Value :=
  if 0 ≤ place then
    (items ++ List.replicate (place.toNat + 1 - items.length) Value.nothing).modify place.toNat f
  else
    (List.replicate (place.natAbs - items.length) Value.nothing ++ items).modify
      (items.length - place.natAbs) f

mutual

/-- The entries with a value laid over one of them. A table without entries
changes nothing that is there. -/
def lay (es : List (String × Value)) (name : String) : Value → List (String × Value)
  | .table _ incoming =>
    write es (lowercase name) (layAll ((es.lookup (lowercase name)).getD empty) incoming)
  | .scalar origin s => write es (lowercase name) (.scalar origin s)
  | .list origin items => write es (lowercase name) (.list origin items)
  | .nothing => write es (lowercase name) .nothing

/-- A value with entries laid over it, one after the other. -/
def layAll (target : Value) : List (String × Value) → Value
  | [] => target
  | (name, value) :: rest => layAll (target.overEntries fun es => lay es name value) rest

end

/-- A value with another laid over what a path leads to. -/
def put : Path → Value → Value → Value
  | [], _, root => root
  | [.entry name], value, root => root.overEntries fun es => lay es name value
  | [.item place], value, root => root.overItems (overItem place fun _ => value)
  | .entry name :: rest, value, root =>
    root.overEntries fun es =>
      write es (lowercase name) (put rest value ((es.lookup (lowercase name)).getD .nothing))
  | .item place :: rest, value, root => root.overItems (overItem place (put rest value))

/-- A value with a layer laid over it. -/
def layLayer (root : Value) (layer : List (String × Value)) : Value :=
  layer.foldl (fun acc p => put (Path.ofName p.1) p.2 acc) root

end Value

end AuditTables.Settings
