import AuditTables.Decimal.Reading
import AuditTables.Settings.Value

/-!
# `AuditTables.Settings.Environment`: settings from the environment

A variable whose name begins with `WELT__`, in any case, is a setting; the rest
of the name is its path, with two underscores between the steps. Its value is
taken for a truth value, a whole number or a double if it reads as one. Two
settings are lists, whose items stand between commas. A path may go on into a
list, as in `WELT__TABLES__ENABLED[0]`; what stands there is no list itself.
-/

set_option autoImplicit false

namespace AuditTables.Settings

open AuditTables.Decimal AuditTables.Text

namespace Environment

/-- What the names of settings begin with, in lowercase. -/
def mark : String := "welt__"

/-- The settings that are lists. -/
def listKeys : List String := ["subscription.channels", "tables.enabled"]

/-- Where complaints say that a value came from. -/
def origin : Origin := some "the environment"

/-- The setting that the name of a variable stands for, written as a path. -/
def keyOf (name : String) : Option String :=
  let word := lowercase name
  if mark.toList.isPrefixOf word.toList then
    some (".".intercalate ((String.ofList (word.toList.drop mark.length)).splitOn "__"))
  else none

/-- The value that a text of the environment stands for. -/
def valueOf (key text : String) : Value :=
  let word := lowercase text
  if word = "true" then .scalar origin (.boolean true)
  else if word = "false" then .scalar origin (.boolean false)
  else match readInt64 10 text.toList with
    | some n => .scalar origin (.integer n)
    | none =>
      match readBinary64 text.toList with
      | some x => .scalar origin (.real x)
      | none =>
        if listKeys.contains key then
          .list origin ((text.splitOn ",").map fun s => .scalar origin (.text s))
        else .scalar origin (.text text)

/-- The layer that variables make. -/
def layer (environment : List (String × String)) : List (String × Value) :=
  environment.filterMap fun (name, text) => (keyOf name).map fun key => (key, valueOf key text)

end Environment

end AuditTables.Settings
