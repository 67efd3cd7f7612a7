import AuditTables.Settings.Toml.Number
import AuditTables.Settings.Toml.Tree

/-!
# `AuditTables.Settings.Toml.Item`: values

A value is told by its first character. A digit or a sign may begin a moment, a
double or a whole number, which are tried in this order. Lists stand in brackets
and may go over several lines; tables stand in braces, on one line.

Lists and tables nest, but only less deep than `depthLimit`, so the readers of
values recur on the depth that is left.
-/

set_option autoImplicit false

namespace AuditTables.Settings.Toml

open Reader

/-- A value after a gap and before another one. -/
def spaced (v : Reader Tree) : Reader Tree := do
  gap
  let tree ← v
  gap
  pure tree

/-- The items of a list, after its bracket. A comma may follow the last one. -/
def items (v : Reader Tree) : Reader (List Tree) := do
  match ← next with
  | some ']' => pure []
  | _ =>
    let trees ← either
      (do
        let trees ← separated (spaced v) (mark ',')
        let _ ← perhaps (mark ',')
        pure trees)
      (pure [])
    gap
    pure trees

/-- A list. -/
def list (v : Reader Tree) : Reader Tree := do
  mark '['
  let trees ← commit (items v)
  label "array" (expecting "`]`" (commit (mark ']')))
  pure (.list trees)

/-- What has to follow a key. -/
def assignment : Reader Unit := expecting "`=`" (expecting "`.`" (mark '='))

/-- One entry of a table in braces. -/
def pair (v : Reader Tree) : Reader (List String × Tree) := do
  let path ← key
  commit do
    assignment
    blanks
    let tree ← v
    blanks
    pure (path, tree)

/-- The entries of a table in braces, put together. -/
def gather (pairs : List (List String × Tree)) : Except (Option String) Entries :=
  (pairs.foldlM (fun entries (path, tree) => assign .bracedKey none path tree .braced entries)
    []).mapError fun clash => some (Clash.message clash)

/-- A table in braces. -/
def braced (v : Reader Tree) : Reader Tree := do
  mark '\x7b'
  let entries ← commit (check
    (do
      let pairs ← either (separated (pair v) (mark ',')) (pure [])
      blanks
      pure pairs)
    gather)
  label "inline table" (expecting "`\x7d`" (commit (mark '\x7d')))
  pure (.table .braced entries)

/-- A moment or a number. -/
def measure : Reader Tree :=
  either (Tree.moment <$> Moment.reader Moment.strict)
    (either ((fun x => .single (.real x)) <$> real) ((fun n => .single (.integer n)) <$> whole))

/-- Something that is taken for a text without its quotes if it cannot be read. -/
def unquoted (p : Reader Tree) : Reader Tree :=
  expecting "`'`" (expecting "`\"`" (label "string" p))

/-- A truth value in a word. -/
def truth (text : String) (b : Bool) : Reader Tree := do
  word text
  pure (.single (.boolean b))

/-- A double in a word without a sign. -/
def wordedTree (text : String) (x : Decimal.Binary64) : Reader Tree := do
  word text
  pure (.single (.real x))

/-- A value, given how deep lists and tables in it may still nest. -/
def value (depth : Nat) : Reader Tree := do
  match ← next with
  | none => stop
  | some c =>
    if c = '"' ∨ c = '\'' then (fun s => .single (.text s)) <$> text
    else if c = '[' ∨ c = '\x7b' then
      match depth with
      | 0 => commit (check (pure ()) fun _ => .error (some tooDeep))
      | left + 1 => if c = '[' then list (value left) else braced (value left)
    else if isSign c ∨ Decimal.isDigit c then measure
    else if c = '_' then
      expecting "leading digit" ((fun n => .single (.integer n)) <$> whole)
    else if c = '.' then expecting "leading digit" ((fun x => .single (.real x)) <$> real)
    else if c = 't' then unquoted (truth "true" true)
    else if c = 'f' then unquoted (truth "false" false)
    else if c = 'i' then unquoted (wordedTree "inf" (Decimal.Binary64.infinity false))
    else if c = 'n' then unquoted (wordedTree "nan" Decimal.Binary64.notANumber)
    else unquoted stop

end AuditTables.Settings.Toml
