/-!
# `AuditTables.CommandLine.Log`: where the log goes

A log is kept in one file a day. Its name is that of the settings with the day
after it, and it lies in the directory of the settings unless its name leads
elsewhere.
-/

set_option autoImplicit false

namespace AuditTables.CommandLine

namespace Log

/-- A number with at least two digits. -/
def twoDigits (n : Nat) : String := if n < 10 then "0" ++ toString n else toString n

/-- The day of a time in seconds since the epoch, as in `1979-05-27`. Years are
counted from March, so that a leap day comes last, in cycles of 400 years. -/
def day (now : Int) : String :=
  let days := now.toNat / 86400 + 719468
  let cycle := days / 146097
  let ofCycle := days % 146097
  let years := (ofCycle - ofCycle / 1460 + ofCycle / 36524 - ofCycle / 146096) / 365
  let ofYear := ofCycle - (365 * years + years / 4 - years / 100)
  let months := (5 * ofYear + 2) / 153
  let date := ofYear - (153 * months + 2) / 5 + 1
  let month := if months < 10 then months + 3 else months - 9
  let year := cycle * 400 + years + (if month ≤ 2 then 1 else 0)
  toString year ++ "-" ++ twoDigits month ++ "-" ++ twoDigits date

/-- A path that goes on from a directory. One from the root goes its own way. -/
def joined (directory path : String) : String :=
  if directory = "" ∨ path.toList.head? = some '/' then path
  else if directory.toList.getLast? = some '/' then directory ++ path
  else directory ++ "/" ++ path

/-- The path of a day's log. -/
def path (directory filename : String) (now : Int) : String :=
  joined directory ((if filename = "" then "" else filename ++ ".") ++ day now)

/-- The directory that a path ends in, empty if it is the current one. -/
def parent (path : String) : String :=
  String.ofList ((path.toList.reverse.dropWhile (· != '/')).drop 1).reverse

end Log

end AuditTables.CommandLine
