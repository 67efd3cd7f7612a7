import AuditTables.Flow.Key
import AuditTables.Pipeline
import AuditTables.Settings.Load
import AuditTables.Text.Quoted

/-!
# `AuditTables.CommandLine.Report`: what each command answers

A command answers with lines on standard output, and with an exit code and an
error report if it fails. The contents of files and the variables of the
environment are handed to it. The one command that does not end by itself makes a
`Session`, the sources and tables it works with, which goes pass after pass
(`Session.pass`) and hands out its rows whenever it is asked (`Session.scan`).
-/

set_option autoImplicit false

namespace AuditTables.CommandLine

open AuditTables.Text AuditTables.Source AuditTables.Table AuditTables.Event

/-- A failure that ends a command, and its cause. -/
structure Problem where
  summary : String
  cause : Option String
  deriving DecidableEq, Repr

/-- The lines of a cause, each set in. -/
def indented (text : String) : String :=
  "\n".intercalate ((text.splitOn "\n").map fun line => "    " ++ line)

/-- A problem as it is reported. -/
def Problem.report (p : Problem) : String :=
  "Error: " ++ p.summary
    ++ (match p.cause with
      | some cause => "\n\nCaused by:\n" ++ indented cause
      | none => "")
    ++ "\n"

/-- What a command that ends by itself leaves behind. -/
structure Answer where
  lines : List String
  code : Nat
  report : String
  deriving DecidableEq, Repr

namespace Answer

/-- An answer of lines. -/
def ofLines (lines : List String) : Answer := ⟨lines, 0, ""⟩

/-- An answer of a problem. -/
def ofProblem (p : Problem) : Answer := ⟨[], 1, p.report⟩

/-- The answer to a command line that asks for nothing there is. -/
def wrongArguments : Answer := ⟨[], 2, ""⟩

/-- The answer of a command that cannot keep its log. It stops without a word. -/
def noLog : Answer := ⟨[], 101, ""⟩

/-- Lines or a problem. -/
def ofResult : Except Problem (List String) → Answer
  | .ok lines => ofLines lines
  | .error p => ofProblem p

end Answer

/-- The name of the settings file. -/
def settingsFile : String := "weltables.toml"

/-- The name of a file that hides the settings file, being of the same name
without its form. -/
def settingsCover : String := "weltables"

/-- A text without the byte order mark in front. -/
def withoutMark (text : String) : String :=
  match text.toList with
  | '\uFEFF' :: rest => String.ofList rest
  | _ => text

/-- The settings in force, given the settings file. One that is not there is no
fault. -/
def settingsOf (file : Option (List UInt8)) (environment : List (String × String)) :
    Except Problem RunSettings :=
  let text := file.map fun bytes => withoutMark (Utf8.decode bytes)
  match RunSettings.load text (some settingsFile) environment with
  | .ok settings => .ok settings
  | .error e => .error ⟨"Failed to load configuration: " ++ e.message, none⟩

/-- The line of a column in a list of tables. -/
def columnLine (c : Column) : String :=
  "  " ++ c.name ++ String.ofList (List.replicate (28 - c.name.length) ' ') ++ " " ++ c.type.label

/-- The lines that list tables. -/
def tableLines (tables : List Definition) : List String :=
  tables.flatMap fun d => d.name :: d.schema.map columnLine

/-- The fingerprint of a flow, if the values are one. -/
def fingerprint (source destination : String) (sourcePort destinationPort protocol : Int) :
    Except Problem (List String) :=
  let id := Flow.communityId source destination sourcePort destinationPort protocol
  if id = "" then
    .error ⟨"invalid flow tuple: addresses must be IPs and ports 0-65535", none⟩
  else .ok [id]

/-- The tables that a replay fills: all that are registered, or the one named. -/
def replayTables (r : Registry) : Option String → Except Problem (List LiveTable)
  | none => .ok r.tables
  | some name =>
    match r.get? name with
    | some t => .ok [t]
    | none => .error ⟨"unknown or disabled table '" ++ name ++ "'", none⟩

/-- The export lines of the rows that a table makes of events. A table that
fails keeps the rows from before. -/
def replayLines (events : List AuditEvent) (t : LiveTable) : List String :=
  (t.process events).1.queue.items.map (rowLine t.name)

/-- The octets of a file, which have to be text. -/
def textOctets (file : Except Failure (List UInt8)) : Except Failure (List UInt8) := do
  let bytes ← file
  match Utf8.decode? bytes with
  | some _ => .ok bytes
  | none => .error (.io "stream did not contain valid UTF-8")

/-- The export lines of the rows that the records of a file make. -/
def replay (settings : RunSettings) (clock : Clock) (path : String)
    (file : Except Failure (List UInt8)) (table : Option String) :
    Except Problem (List String) := do
  let bytes ← match textOctets file with
    | .ok bytes => .ok bytes
    | .error failure =>
      .error ⟨"Failed to read replay file " ++ quoted path, some failure.message⟩
  let events := (Batch.ofRecords clock (splitTexts bytes).1).events
  let registry := Registry.new settings.tables.maxQueuedRows settings.tables.enabled
  let tables ← replayTables registry table
  pure (tables.flatMap (replayLines events))

/-- The sources and tables of a run that has not begun. -/
structure Session where
  settings : RunSettings
  sources : List Attached
  registry : Registry

/-- The sources attached and the tables registered, given whether the file to
follow can be opened. -/
def openSession (settings : RunSettings) (opened : Except Failure Unit) :
    Except Problem Session :=
  let subscription := settings.subscription
  match (attach subscription.backend subscription.channels subscription.replayPath opened).1 with
  | .error failure => .error ⟨"No event source could be attached", some failure.message⟩
  | .ok sources =>
    match sources, Pipeline.Ending.noSources.failure? with
    | [], some text => .error ⟨text, none⟩
    | _, _ =>
      .ok ⟨settings, sources,
        Registry.new settings.tables.maxQueuedRows settings.tables.enabled⟩

/-- The world of a session: its sources, what the clock shows, what there is to
find of the file it follows, and whether it was asked to stop. -/
structure SessionWorld where
  sources : List Attached
  clock : Clock
  look : Look
  stopping : Bool

namespace SessionWorld

/-- A poll of one of the sources. -/
def poll (source : Nat) (w : SessionWorld) : Batch × SessionWorld :=
  match w.sources[source]? with
  | none => (Batch.empty, w)
  | some a =>
    let (next, batch) := a.poll w.clock w.look
    (batch, { w with sources := w.sources.set source next })

/-- Whether one of the sources can still give events. -/
def health (source : Nat) (w : SessionWorld) : Health :=
  match w.sources[source]? with
  | none => .active
  | some a => a.health

/-- The sources of a session of so many. -/
def toSources (count : Nat) : Sources SessionWorld :=
  { count := count, poll := poll, health := health, stopping := (·.stopping), wait := id }

end SessionWorld

/-- One pass of a session over its sources. -/
def Session.pass (session : Session) (clock : Clock) (look : Look) : Session × List Notice :=
  let world : SessionWorld := ⟨session.sources, clock, look, false⟩
  let sources := SessionWorld.toSources session.sources.length
  if session.registry.isEmpty then (session, [])
  else
    let next := (Pipeline.pass sources ⟨world, session.registry, []⟩).1
    (⟨session.settings, next.world.sources, next.registry⟩, next.notices)

/-- The rows that a scan exports, by table, and the session without them. Rows
stay where they are if settings do not ask for them. -/
def Session.scan (session : Session) : List (String × List Row) × Session :=
  if session.settings.service.exportRows then
    let (rows, registry) := session.registry.drain
    (rows, { session with registry := registry })
  else ([], session)

/-- The rows that a session exports when it is stopped after one pass over its
sources. -/
def Session.rowsOfPass (session : Session) (clock : Clock) (look : Look) :
    List (String × List Row) :=
  ((session.pass clock look).1.scan).1

end AuditTables.CommandLine
