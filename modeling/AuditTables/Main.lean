import AuditTables.CommandLine.Course
import AuditTables.CommandLine.Log

/-!
# `AuditTables.Main`: the program

The outermost layer: it reads files, the environment and the clock, opens the
log, prints what a command answers, and keeps a session going. Nothing is decided
here.
-/

set_option autoImplicit false

namespace AuditTables.Program

open AuditTables.CommandLine

/-- The system's words about an error, with its code. -/
def errorText : IO.Error → String
  | .noFileOrDirectory _ code _ => "No such file or directory (os error " ++ toString code ++ ")"
  | .permissionDenied _ code _ => "Permission denied (os error " ++ toString code ++ ")"
  | .inappropriateType _ code details => details ++ " (os error " ++ toString code ++ ")"
  | e => toString e

/-- Whether a name holds the character that ends names in the system's eyes. -/
def holdsNul (name : String) : Bool := name.toList.contains '\x00'

/-- The failure to find such a name. -/
def nulInName : Failure := .io "file name contained an unexpected NUL byte"

/-- The content of a file on disk. -/
def readOctets (path : String) : IO (Except Failure (List UInt8)) := do
  if holdsNul path then
    return .error nulInName
  match ← (IO.FS.readBinFile path).toBaseIO with
  | .ok bytes => pure (.ok bytes.toList)
  | .error e => pure (.error (.io (errorText e)))

/-- Whether a file on disk can be opened. -/
def canOpen (path : String) : IO (Except Failure Unit) := do
  if holdsNul path then
    return .error nulInName
  match ← (IO.FS.Handle.mk path .read).toBaseIO with
  | .ok _ => pure (.ok ())
  | .error e => pure (.error (.io (errorText e)))

/-- Lines added to a file, which is made if it is not there. -/
def addLines (path : String) (lines : List String) : IO Unit := do
  let file ← IO.FS.Handle.mk path .append
  for line in lines do
    file.putStrLn line

/-- A log opened, and whether that was possible. -/
def openLog (now : Int) (directory filename : String) : IO Bool := do
  let path := Log.path directory filename now
  if holdsNul directory || holdsNul filename then return false
  if directory != "" then
    let _ ← (IO.FS.createDirAll directory).toBaseIO
  match ← (addLines path []).toBaseIO with
  | .ok _ => pure true
  | .error _ =>
    let made ← (do
      IO.FS.createDirAll (Log.parent path)
      addLines path [] : IO Unit).toBaseIO
    pure made.toOption.isSome

/-- The variables of the environment, as the system lists them. -/
def readVariables : IO (List (String × String)) := do
  match ← (IO.FS.readBinFile "/proc/self/environ").toBaseIO with
  | .error _ => pure []
  | .ok bytes =>
    let entries := (Text.Utf8.decode bytes.toList).splitOn "\x00"
    pure (entries.filterMap fun entry =>
      match entry.splitOn "=" with
      | name :: value :: more => some (name, "=".intercalate (value :: more))
      | _ => none)

/-- The first whole number of a text. -/
def firstNumber (text : String) : Nat :=
  let digits := (text.toList.dropWhile fun c => !c.isDigit).takeWhile Char.isDigit
  (Decimal.readNatural 10 digits).getD 0

/-- Seconds since the epoch: those of the system's start and those since. -/
def readClock : IO Int := do
  match ← (IO.FS.readFile "/proc/stat").toBaseIO, ← (IO.FS.readFile "/proc/uptime").toBaseIO with
  | .ok stat, .ok uptime =>
    let started := (stat.splitOn "\n").find? fun line => "btime ".isPrefixOf line
    pure (Int.ofNat (firstNumber (started.getD "") + firstNumber uptime))
  | _, _ => pure 0

/-- The lines of a list printed. -/
def printLines (lines : List String) : IO Unit := do
  let out ← IO.getStdout
  for line in lines do
    out.putStrLn line
  out.flush

/-- A session kept going, pass after pass. -/
partial def keepGoing (session : Session) : IO UInt32 := do
  let now ← readClock
  -- A file that cannot be read counts as one that cannot be opened.
  let file ← readOctets session.settings.subscription.replayPath
  let (worked, notices) := session.pass (.still now) file
  let logging := session.settings.logging
  let messages := notices.map (·.message)
  let _ ← (addLines (Log.path logging.directory logging.filename now) messages).toBaseIO
  if logging.consoleOutput then
    for message in messages do
      IO.eprintln message
  let (rows, scanned) := worked.scan
  printLines (rows.flatMap fun (table, rows) => rows.map (Table.rowLine table))
  IO.sleep (UInt32.ofNat (max 1 session.settings.service.scanInterval))
  keepGoing scanned

end AuditTables.Program

open AuditTables AuditTables.CommandLine AuditTables.Program in
/-- The program: the answer of a command line, or a session kept going. -/
def main (arguments : List String) : IO UInt32 := do
  let now ← readClock
  let surroundings : Surroundings IO :=
    ⟨readOctets, canOpen, openLog now, ← readVariables, .still now⟩
  match ← surroundings.course arguments with
  | .ends answer =>
    printLines answer.lines
    IO.eprint answer.report
    pure (UInt32.ofNat answer.code)
  | .works session => keepGoing session
