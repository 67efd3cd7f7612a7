import AuditTables.Settings.Toml.Moment
import AuditTables.Settings.Value

/-!
# `AuditTables.Settings.Toml.Tree`: the tables of a document

A document fills a tree of tables while it is read. Headers, keys with points
and tables in braces all walk down the tree and make the tables that they pass
(`descend`), but they may not pass everything:

* a header passes any table, and of a repeated header the last one;
* a key passes only tables that headers or keys have passed so far, and none
  that a header of its own has opened;
* a key in braces also passes the tables that keys in the same braces made.

An entry is then put where nothing is yet (`assign`), and a header opens a table
that was only passed so far (`openTable`) or adds one to a list (`openItem`).
What cannot be done is a `Clash`.
-/

set_option autoImplicit false

namespace AuditTables.Settings.Toml

/-- How a table came to be. -/
inductive TableKind where
  /-- A longer header passed it. -/
  | passed
  /-- A key with points made it. -/
  | dotted
  /-- A header opened it. -/
  | opened
  /-- It stands in braces. -/
  | braced
  deriving DecidableEq, Repr

/-- A document while it is being read. -/
inductive Tree where
  | single (s : Scalar)
  | moment (m : Moment)
  | list (items : List Tree)
  | table (kind : TableKind) (entries : List (String × Tree))
  /-- The tables of a repeated header, latest first. -/
  | tables (items : List (List (String × Tree)))

/-- The entries of a table while it is being read. -/
abbrev Entries := List (String × Tree)

/-- The document does not fit together. -/
inductive Clash where
  /-- An entry is there already, in the table of a path or in one that is not
  named. -/
  | duplicate (key : String) (path : Option (List String))
  /-- A path leads on from something that is no table. -/
  | noTable (path : List String) (found : String)
  deriving DecidableEq, Repr

/-- The wording of a clash. -/
def Clash.message : Clash → String
  | .duplicate key none => "duplicate key `" ++ key ++ "`"
  | .duplicate key (some []) => "duplicate key `" ++ key ++ "` in document root"
  | .duplicate key (some path) =>
    "duplicate key `" ++ key ++ "` in table `" ++ ".".intercalate path ++ "`"
  | .noTable path found =>
    "dotted key `" ++ ".".intercalate path ++ "` attempted to extend non-table type ("
      ++ found ++ ")"

/-- What a value is called. -/
def Tree.form : Tree → String
  | .single (.boolean _) => "boolean"
  | .single (.integer _) => "integer"
  | .single (.real _) => "float"
  | .single (.text _) => "string"
  | .moment _ => "datetime"
  | .list _ => "array"
  | .table _ _ => "inline table"
  | .tables _ => "array of tables"

/-- Who walks down the tree. -/
inductive Walker where
  | header
  | key
  | bracedKey
  deriving DecidableEq, Repr

namespace Walker

/-- The kind of the tables that it makes on its way. -/
def makes : Walker → TableKind
  | .header => .passed
  | _ => .dotted

/-- Whether it may try to pass a table at all. -/
def sees (w : Walker) (kind : TableKind) : Bool := kind != .braced || w == .bracedKey

/-- Whether it may pass a table. -/
def passes (w : Walker) (kind : TableKind) : Bool :=
  w == .header || kind == .passed || kind == .dotted

end Walker

/-- The entries with one of them replaced. -/
def replace (entries : Entries) (step : String) (tree : Tree) : Entries :=
  entries.map fun p => if p.1 = step then (step, tree) else p

/-- The entries with a change made to the table that a path leads to. `before`
is the path so far, `kind` the kind of the table that the path starts from. -/
def descend (w : Walker) (change : TableKind → Entries → Except Clash Entries)
    (before : List String) (kind : TableKind) : List String → Entries → Except Clash Entries
  | [], entries => change kind entries
  | step :: rest, entries =>
    match entries.lookup step with
    | none => do
      let inner ← descend w change (before ++ [step]) w.makes rest []
      pure (entries ++ [(step, .table w.makes inner)])
    | some (.tables (latest :: earlier)) => do
      let inner ← descend w change (before ++ [step]) .opened rest latest
      pure (replace entries step (.tables (inner :: earlier)))
    | some (.table kind inner) =>
      if !w.sees kind then .error (.noTable (before ++ [step]) (Tree.table kind inner).form)
      else if !w.passes kind then .error (.duplicate step none)
      else do
        let inner ← descend w change (before ++ [step]) kind rest inner
        pure (replace entries step (.table kind inner))
    | some tree => .error (.noTable (before ++ [step]) tree.form)

/-- The entries of a table with another one under a key. `home` is the path that
complaints name if the key is taken. Keys with points may add to no table but
those that such keys made. -/
def assign (w : Walker) (home : Option (List String)) (path : List String) (tree : Tree)
    (kind : TableKind) (entries : Entries) : Except Clash Entries :=
  let key := path.getLastD ""
  let add (kind : TableKind) (entries : Entries) : Except Clash Entries :=
    if (kind == .dotted) == path.dropLast.isEmpty then .error (.duplicate key none)
    else if (entries.lookup key).isSome then .error (.duplicate key home)
    else .ok (entries ++ [(key, tree)])
  descend w add [] kind path.dropLast entries

/-- A document and the path of the header that the next keys stand under. -/
structure Document where
  root : Entries
  path : List String

namespace Document

/-- A document without entries. -/
def empty : Document := ⟨[], []⟩

/-- A document with one more key. -/
def assign (d : Document) (path : List String) (tree : Tree) : Except Clash Document := do
  let root ← descend .header (Toml.assign .key (some d.path) path tree) [] .opened d.path d.root
  pure ⟨root, d.path⟩

/-- A document with what a header asks for: `change` makes it in the table that
holds the header's last step, if that can be done. -/
def openWith (change : String → Entries → Option Entries) (d : Document) (path : List String) :
    Except Clash Document := do
  let key := path.getLastD ""
  let make (_ : TableKind) (entries : Entries) : Except Clash Entries :=
    match change key entries with
    | some entries => .ok entries
    | none => .error (.duplicate key (some path.dropLast))
  let root ← descend .header make [] .opened path.dropLast d.root
  pure ⟨root, path⟩

/-- A document with a table opened by a header. -/
def openTable : Document → List String → Except Clash Document :=
  openWith fun key entries =>
    match entries.lookup key with
    | none => some (entries ++ [(key, .table .opened [])])
    | some (.table .passed inner) =>
      some (entries.filter (fun p => p.1 != key) ++ [(key, .table .opened inner)])
    | some _ => none

/-- A document with one more table of a repeated header. -/
def openItem : Document → List String → Except Clash Document :=
  openWith fun key entries =>
    match entries.lookup key with
    | none => some (entries ++ [(key, .tables [[]])])
    | some (.tables items) => some (replace entries key (.tables ([] :: items)))
    | some _ => none

end Document

end AuditTables.Settings.Toml
