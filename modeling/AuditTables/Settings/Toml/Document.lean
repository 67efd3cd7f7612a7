import AuditTables.Settings.Toml.Item

/-!
# `AuditTables.Settings.Toml.Document`: the settings file

A settings file is a TOML document: lines of `key = value`, gathered into tables
by headers in brackets. `Toml.read` gives its top-level entries as setting
values, or the report of the fault that it stops at.

A moment becomes the text that writes it. So does a table whose first entry has
the name `momentKey` and a moment for its text, whatever else is in it.
-/

set_option autoImplicit false

namespace AuditTables.Settings.Toml

open Reader

/-- How deep the value of a key may nest. -/
def valueDepth : Nat := depthLimit - 1

/-- A document changed, or the cause why it is not. -/
def orClash (result : Except Clash Document) : Except (Option String) Document :=
  result.mapError fun clash => some (Clash.message clash)

/-- A line with a comment and nothing else. -/
def commentLine (d : Document) : Reader Document := do
  comment
  lineEnd
  pure d

/-- A line without anything. -/
def emptyLine (d : Document) : Reader Document := do
  newline
  pure d

/-- What may stand on a line after a value or a header. -/
def tail : Reader Unit := expecting "`#`" (expecting "newline" lineRest)

/-- A line with a key and its value. -/
def keyLine (d : Document) : Reader Document :=
  check
    (do
      let path ← key
      commit do
        assignment
        blanks
        let tree ← value valueDepth
        tail
        pure (path, tree))
    fun (path, tree) => orClash (d.assign path tree)

/-- A line with a header between so many brackets, and what it does. -/
def header (width : Nat) (enter : List String → Except Clash Document) : Reader Document :=
  check
    (do
      let _ ← exactly width (· == '[')
      let path ← commit key
      let close := String.ofList (List.replicate width ']')
      expecting ("`" ++ close ++ "`") (expecting "`.`" (commit (word close)))
      commit tail
      pure path)
    fun path => orClash (enter path)

/-- A line with a header. A bracket at the very end of a document is none. -/
def headerLine (d : Document) : Reader Document := label "table header" fun cs =>
  match cs with
  | '[' :: '[' :: _ => header 2 d.openItem cs
  | _ :: _ :: _ => header 1 d.openTable cs
  | _ => .error (.here cs)

/-- Any line of a document. -/
def line (d : Document) : Reader Document := do
  let d ← match ← next with
    | none => stop
    | some c =>
      if c = '#' then commit (commentLine d)
      else if c = '[' then commit (headerLine d)
      else if c = '\n' ∨ c = '\r' then emptyLine d
      else commit (keyLine d)
  blanks
  pure d

/-- The lines of a document. Each takes at least one character, so a bound of one
line to a character is never reached. -/
def lines : Nat → Document → Reader Document
  | 0, d => pure d
  | bound + 1, d => do
    match ← perhaps (line d) with
    | some d => lines bound d
    | none => pure d

/-- A whole document. A byte order mark may stand in front. -/
def document (bound : Nat) : Reader Document := do
  let _ ← perhaps (one (· == '\uFEFF'))
  blanks
  let d ← lines bound Document.empty
  atEnd
  pure d

/-- The first key of a table that stands for a moment. -/
def momentKey : String := "$__toml_private_datetime"

/-- The moment that a table of entries stands for, if it is to be one. -/
def momentOf : Entries → Option (Option Moment)
  | (name, tree) :: _ =>
    if name = momentKey then
      match tree with
      | .single (.text s) => some (Moment.ofText s)
      | _ => some none
    else none
  | [] => none

/-- The complaint about a table that is to stand for a moment and does not. -/
def noMoment : String := "invalid datetime\n"

mutual

/-- A tree as a setting value. -/
def Tree.toValue (origin : Origin) : Tree → Except String Value
  | .single s => .ok (.scalar origin s)
  | .moment m => .ok (.scalar origin (.text m.text))
  | .list items => do
    let vs ← itemValues origin items
    pure (.list origin vs)
  | .table _ entries => tableValue origin entries
  | .tables items => do
    let vs ← tableValues origin items
    pure (.list origin vs.reverse)

/-- A table as a setting value. -/
def tableValue (origin : Origin) (entries : List (String × Tree)) : Except String Value :=
  match momentOf entries with
  | some (some m) => .ok (.scalar origin (.text m.text))
  | some none => .error noMoment
  | none => do
    let inner ← entryValues origin entries
    pure (.table origin inner)

/-- The items of a list as setting values. -/
def itemValues (origin : Origin) : List Tree → Except String (List Value)
  | [] => .ok []
  | tree :: rest => do
    let v ← tree.toValue origin
    let vs ← itemValues origin rest
    pure (v :: vs)

/-- Entries as setting values. -/
def entryValues (origin : Origin) : List (String × Tree) → Except String (List (String × Value))
  | [] => .ok []
  | (key, tree) :: rest => do
    let v ← tree.toValue origin
    let vs ← entryValues origin rest
    pure ((key, v) :: vs)

/-- The tables of a repeated header as setting values. -/
def tableValues (origin : Origin) : List (List (String × Tree)) → Except String (List Value)
  | [] => .ok []
  | entries :: rest => do
    let v ← tableValue origin entries
    let vs ← tableValues origin rest
    pure (v :: vs)

end

/-- The top-level entries of a document, or the report of what is wrong. -/
def read (origin : Origin) (text : String) : Except String (List (String × Value)) := do
  let cs := text.toList
  let (d, _) ← (document cs.length cs).mapError fun f => Fault.report f text
  match ← tableValue origin d.root with
  | .table _ entries => pure entries
  | _ => .error noMoment

end AuditTables.Settings.Toml
