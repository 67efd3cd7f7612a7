import AuditTables.Decimal.Integer
import AuditTables.Text.Blank

/-!
# `AuditTables.Settings.Path`: ways to a setting

A path leads from the whole of the settings to one of them: by the names of
entries and the places of items. It is written as in `subscription.channels[0]`
(`Path.text`), and read back where the name of a setting is given as one word
(`Path.ofName`). A word that is not written as a path is a single name.
-/

set_option autoImplicit false

namespace AuditTables.Settings

/-- One step of a path. -/
inductive Step where
  | entry (name : String)
  /-- A place of a list. A negative one counts from the end. -/
  | item (place : Int)
  deriving DecidableEq, Repr

/-- The steps from the whole of the settings to one of them. -/
abbrev Path := List Step

namespace Path

/-- A path with points between names and brackets around places. -/
def text : Path → String
  | [] => ""
  | .item place :: rest => "[" ++ toString place ++ "]" ++ text rest
  | [.entry name] => name
  | .entry name :: .item place :: rest => name ++ text (.item place :: rest)
  | .entry name :: rest => name ++ "." ++ text rest

/-- A character of a name in a path. -/
def isNameChar (c : Char) : Bool := c.isAlphanum || c == ' ' || c == '_' || c == '-'

/-- The place between two brackets. -/
def readPlace (cs : List Char) : Option Int :=
  let digits := Text.stripBoth (fun c => c == ' ' || c == '\t') cs
  if digits.head? = some '+' then none else Decimal.readInt64 10 digits

/-- The steps after the first name. -/
def readSteps : List Char → Option Path
  | [] => some []
  | '.' :: rest =>
    if (rest.takeWhile isNameChar).isEmpty then none
    else
      (readSteps (rest.dropWhile isNameChar)).map
        (.entry (String.ofList (rest.takeWhile isNameChar)) :: ·)
  | '[' :: rest =>
    match readPlace (rest.takeWhile (· != ']')), rest.dropWhile (· != ']') with
    | some place, ']' :: more =>
      if more.length < rest.length then (readSteps more).map (.item place :: ·) else none
    | _, _ => none
  | _ => none
termination_by cs => cs.length
decreasing_by
  · have := (List.dropWhile_sublist isNameChar (l := rest)).length_le
    simp only [List.length_cons]
    omega
  · simp only [List.length_cons]
    omega

/-- The path that a word is written as. -/
def read (word : String) : Option Path :=
  let cs := word.toList
  if (cs.takeWhile isNameChar).isEmpty then none
  else
    (readSteps (cs.dropWhile isNameChar)).map
      (.entry (String.ofList (cs.takeWhile isNameChar)) :: ·)

/-- The path that a word stands for. -/
def ofName (word : String) : Path := (read word).getD [.entry word]

end Path

end AuditTables.Settings
