import AuditTables.CommandLine.Arguments
import AuditTables.CommandLine.Report

/-!
# `AuditTables.CommandLine.Course`: from a command line to its answer

Which files a command reads depends on its arguments and on its settings, so the
course of a command asks for them as it goes. How files are read is left to the
monad it runs in: the program reads them from disk, and a pure reader turns the
whole program into a function. A command that exports rows opens its log before
it reads any of them, and makes the log's directory if it has to.
-/

set_option autoImplicit false

namespace AuditTables.CommandLine

open AuditTables.Table

/-- What a command needs of the system. -/
structure Surroundings (m : Type → Type) where
  /-- The content of a file, or the failure to read it. -/
  contentOf : String → m (Except Failure (List UInt8))
  /-- Whether a file can be opened, or why it cannot. -/
  opened : String → m (Except Failure Unit)
  /-- Opens a log of a name in a directory, which is made if it is not there, and
  says whether that was possible. -/
  openLog : (directory filename : String) → m Bool
  environment : List (String × String)
  /-- What the clock shows at each record of a replay. -/
  now : Source.Clock

/-- What a command line comes to. -/
inductive Course where
  /-- It ends with an answer. -/
  | ends (a : Answer)
  /-- It works until it is stopped. -/
  | works (s : Session)

/-- The lines that describe the commands. -/
def helpLines : List String :=
  ["Windows security event log tables",
   "",
   "Usage: weltables [--log-level LEVEL] [COMMAND]",
   "",
   "Commands:",
   "  run [--console]                      Subscribe and export rows (default)",
   "  replay FILE [--table NAME]           Run every table once over a file of records",
   "  tables                               List tables and their columns",
   "  community-id SADDR DADDR SPORT DPORT PROTO",
   "                                       Compute the Community ID of a flow"]

section

variable {m : Type → Type} [Monad m]

/-- The settings in force. -/
def Surroundings.settings (s : Surroundings m) : m (Except Problem RunSettings) := do
  match ← s.contentOf settingsCover with
  | .ok _ => pure (settingsOf none s.environment)
  | .error _ => do
    let file ← s.contentOf settingsFile
    pure (settingsOf file.toOption s.environment)

/-- The settings in force, once the log that they name is open. -/
def Surroundings.ready (s : Surroundings m) : m (Except Answer RunSettings) := do
  match ← s.settings with
  | .error p => pure (.error (Answer.ofProblem p))
  | .ok settings =>
    if ← s.openLog settings.logging.directory settings.logging.filename then pure (.ok settings)
    else pure (.error Answer.noLog)

/-- The answer of a replay. The file is read last. -/
def Surroundings.replay (s : Surroundings m) (path : String) (table : Option String) :
    m Answer := do
  match ← s.ready with
  | .error answer => pure answer
  | .ok settings =>
    let file ← s.contentOf path
    pure (Answer.ofResult (CommandLine.replay settings s.now path file table))

/-- A session with the sources that settings name. -/
def Surroundings.openSession (s : Surroundings m) (console : Bool) :
    m (Except Answer Session) := do
  match ← s.ready with
  | .error answer => pure (.error answer)
  | .ok settings =>
    let logging := { settings.logging with
      consoleOutput := settings.logging.consoleOutput || console }
    let opened ← s.opened settings.subscription.replayPath
    pure ((CommandLine.openSession { settings with logging := logging } opened).mapError
      Answer.ofProblem)

/-- The course of a command. -/
def Surroundings.courseOf (s : Surroundings m) : Command → m Course
  | .run console => do
    match ← s.openSession console with
    | .error answer => pure (.ends answer)
    | .ok session => pure (.works session)
  | .replay file table => do
    let answer ← s.replay file table
    pure (.ends answer)
  | .tables => pure (.ends (Answer.ofLines (tableLines catalogue)))
  | .communityId a b p q r => pure (.ends (Answer.ofResult (fingerprint a b p q r)))

/-- The course of a command line. -/
def Surroundings.course (s : Surroundings m) (arguments : List String) : m Course :=
  match readArguments arguments with
  | .error .wrong => pure (.ends Answer.wrongArguments)
  | .error .help => pure (.ends (Answer.ofLines helpLines))
  | .ok c => s.courseOf c

end

end AuditTables.CommandLine
