import AuditTables.Decimal.Integer
import AuditTables.Settings.Value
import AuditTables.Source.Attach
import AuditTables.Text.Quoted

/-!
# `AuditTables.Settings.Decode`: what a setting value means

A setting is wanted as a text, a truth value, a count, a list of texts, or one
of a few names, and is taken in every form that has an obvious reading: the text
`no` is false, the number 2.5 is the count 3. A value without such a reading is
refused, with the value, what was wanted, the way to the setting and where the
value came from.
-/

set_option autoImplicit false

namespace AuditTables.Settings

open AuditTables.Text AuditTables.Decimal AuditTables.Source

/-- What can be wrong with settings. -/
inductive Error where
  /-- The settings file is not written as one. -/
  | unreadable (text : String) (origin : Origin)
  /-- A value of a setting has no reading of the form that is wanted. -/
  | wrongType (found wanted : String) (path : Path) (origin : Origin)
  /-- A setting is of a shape that no reading was tried of. -/
  | wrongShape (text : String)
  deriving DecidableEq, Repr

/-- The end of a complaint that says where a value came from. -/
def originText : Origin → String
  | some place => " in " ++ place
  | none => ""

/-- The wording of what is wrong. -/
def Error.message : Error → String
  | .unreadable text origin => text ++ originText origin
  | .wrongType found wanted path origin =>
    "invalid type: " ++ found ++ ", expected " ++ wanted ++ " for key `" ++ path.text ++ "`"
      ++ originText origin
  | .wrongShape text => text

/-- The complaint about a part as a complaint about the whole, to which the part
belongs by a step. -/
def Error.under (step : Step) : Error → Error
  | .wrongType found wanted path origin => .wrongType found wanted (step :: path) origin
  | other => other

/-- A reading of a part as a reading within the whole. -/
def within {α : Type} (step : Step) (result : Except Error α) : Except Error α :=
  result.mapError (Error.under step)

/-- A double in settings, positional and without a needless point. -/
def realText (x : Binary64) : String :=
  if x.isFinite then String.ofList (Layout.plain.write x)
  else if x.isInfinite then (if x.isNegative then "-inf" else "inf")
  else "NaN"

/-- A double with a point wherever one can be. -/
def pointedText (x : Binary64) : String :=
  let text := realText x
  if x.isFinite && !text.toList.contains '.' then text ++ ".0" else text

/-- A truth value in words. -/
def booleanText (b : Bool) : String := if b then "true" else "false"

/-- A text as complaints name it. -/
def foundText (s : String) : String := "string " ++ quoted s

/-- A value as complaints about its type name it. -/
def Value.found : Value → String
  | .nothing => "unit value"
  | .scalar _ (.boolean b) => "boolean `" ++ booleanText b ++ "`"
  | .scalar _ (.integer n) => "64-bit integer `" ++ toString n ++ "`"
  | .scalar _ (.real x) => "floating point `" ++ realText x ++ "`"
  | .scalar _ (.text s) => foundText s
  | .list _ _ => "sequence"
  | .table _ _ => "map"

/-- A value as complaints about its shape name it. -/
def Value.shape : Value → String
  | .scalar _ (.integer n) => "integer `" ++ toString n ++ "`"
  | .scalar _ (.real x) => "floating point `" ++ pointedText x ++ "`"
  | other => other.found

/-- Where a value came from. -/
def Value.origin : Value → Origin
  | .nothing => none
  | .scalar origin _ => origin
  | .list origin _ => origin
  | .table origin _ => origin

/-- A value refused for its type. -/
def refuse {α : Type} (wanted : String) (v : Value) : Except Error α :=
  .error (.wrongType v.found wanted [] v.origin)

/-- A value refused for its shape. -/
def refuseShape {α : Type} (wanted : String) (v : Value) : Except Error α :=
  .error (.wrongShape ("invalid type: " ++ v.shape ++ ", expected " ++ wanted))

/-- A setting wanted as text. -/
def decodeText : Value → Except Error String
  | .scalar _ (.text s) => .ok s
  | .scalar _ (.boolean b) => .ok (booleanText b)
  | .scalar _ (.integer n) => .ok (toString n)
  | .scalar _ (.real x) => .ok (realText x)
  | v => refuse "a string" v

/-- The truth value that a word stands for. -/
def truthOf (word : String) : Option Bool :=
  if ["1", "true", "on", "yes"].contains word then some true
  else if ["0", "false", "off", "no"].contains word then some false
  else none

/-- A setting wanted as a truth value. A word that stands for none is refused in
the lowercase form in which it was compared. -/
def decodeBoolean (v : Value) : Except Error Bool :=
  match v with
  | .scalar _ (.boolean b) => .ok b
  | .scalar _ (.integer n) => .ok (n != 0)
  | .scalar _ (.real x) => .ok (!x.isZero)
  | .scalar origin (.text s) =>
    match truthOf (lowercase s) with
    | some b => .ok b
    | none => refuse "a boolean" (.scalar origin (.text (lowercase s)))
  | _ => refuse "a boolean" v

/-- The count that a double stands for: the nearest one, a half going up, within
what 64 bits hold. -/
def countOfReal (x : Binary64) : Nat :=
  if x.isNegative then 0
  else if x.isFinite then min word64Max x.roundSize
  else if x.isInfinite then word64Max
  else 0

/-- The count that a text stands for. -/
def countOfText (s : String) : Option Nat :=
  let word := lowercase s
  if ["true", "on", "yes"].contains word then some 1
  else if ["false", "off", "no"].contains word then some 0
  else readWord64 s.toList

/-- A setting wanted as a count. -/
def decodeCount (v : Value) : Except Error Nat :=
  match v with
  | .scalar _ (.integer n) =>
    if 0 ≤ n then .ok n.toNat else refuse "an unsigned 64 bit or less integer" v
  | .scalar _ (.real x) => .ok (countOfReal x)
  | .scalar _ (.boolean b) => .ok (if b then 1 else 0)
  | .scalar _ (.text s) =>
    match countOfText s with
    | some n => .ok n
    | none => refuse "an integer" v
  | _ => refuse "an integer" v

/-- The items of a list, each wanted as text. -/
def decodeItems (place : Nat) : List Value → Except Error (List String)
  | [] => .ok []
  | v :: rest => do
    let s ← within (.item (Int.ofNat place)) (decodeText v)
    let ss ← decodeItems (place + 1) rest
    pure (s :: ss)

/-- A setting wanted as a list of texts. -/
def decodeList : Value → Except Error (List String)
  | .list _ items => decodeItems 0 items
  | v => refuseShape "a sequence" v

/-- The backend of a name, in any case. -/
def backendOf (name : String) : Except Error Backend :=
  let word := lowercase name
  if word = "eventlog" then .ok .eventLog
  else if word = "replay" then .ok .replay
  else .error (.wrongShape ("enum ConsumerBackend does not have variant constructor " ++ name))

/-- A setting wanted as a backend: its name, or a table with the name as its
only entry. -/
def decodeBackend : Value → Except Error Backend
  | .scalar _ (.text s) => backendOf s
  | .table _ [(name, _)] => backendOf name
  | _ =>
    .error (.wrongShape ("value of enum ConsumerBackend should be represented by either string "
      ++ "or table with exactly one key"))

end AuditTables.Settings
