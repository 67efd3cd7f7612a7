import AuditTables.Settings.Decode
import AuditTables.Settings.Environment
import AuditTables.Settings.Toml.Document

/-!
# `AuditTables.Settings.Load`: the settings of a run

Settings start from defaults. A settings file is laid over them if there is one,
together with the environment, which wins over the file. What is in force is then
read out section by section; names that no section has are passed over.
-/

set_option autoImplicit false

namespace AuditTables

open AuditTables.Settings AuditTables.Source

/-- How a run reports on itself. -/
structure LoggingSettings where
  level : String
  directory : String
  filename : String
  consoleOutput : Bool
  deriving DecidableEq, Repr

/-- Where events come from. -/
structure SubscriptionSettings where
  backend : Backend
  channels : List String
  replayPath : String
  pollTimeout : Nat
  deriving DecidableEq, Repr

/-- Which tables there are and how many rows each may hold. -/
structure TableSettings where
  maxQueuedRows : Nat
  enabled : List String
  deriving DecidableEq, Repr

/-- How rows leave. -/
structure ServiceSettings where
  scanInterval : Nat
  exportRows : Bool
  deriving DecidableEq, Repr

/-- All settings of a run. -/
structure RunSettings where
  logging : LoggingSettings
  subscription : SubscriptionSettings
  tables : TableSettings
  service : ServiceSettings
  deriving DecidableEq, Repr

namespace RunSettings

/-- A default that is a text. -/
def defaultText (s : String) : Value := .scalar none (.text s)

/-- A default that is a number. -/
def defaultNumber (n : Int) : Value := .scalar none (.integer n)

/-- A default that is a truth value. -/
def defaultTruth (b : Bool) : Value := .scalar none (.boolean b)

/-- The layer that all others are laid over. -/
def defaults : List (String × Value) :=
  [("logging.level", defaultText "info"),
   ("logging.directory", defaultText "logs"),
   ("logging.filename", defaultText "weltables.log"),
   ("logging.console_output", defaultTruth true),
   ("subscription.backend", defaultText "eventlog"),
   ("subscription.channels", .list none [defaultText "Security"]),
   ("subscription.replay_path", defaultText "events.xml"),
   ("subscription.poll_timeout_ms", defaultNumber 1000),
   ("tables.max_queued_row_count", defaultNumber 10000),
   ("tables.enabled", .list none []),
   ("service.scan_interval_ms", defaultNumber 1000),
   ("service.export_rows", defaultTruth true)]

/-- What a section is made of: entries by name, or items that stand for the
settings in order. -/
inductive Content where
  | named (entries : List (String × Value))
  | listed (items : List Value)

/-- A section while it is being read out: its name, what complaints call its
shape, the names of its settings, and its content. -/
structure Section where
  name : String
  label : String
  settings : List String
  content : Content

namespace Section

/-- A setting of a section, read as a form is wanted. -/
def get {α : Type} (s : Section) (name : String) (decode : Value → Except Settings.Error α) :
    Except Settings.Error α :=
  match s.content with
  | .named entries =>
    match entries.lookup name with
    | some v => within (.entry s.name) (within (.entry name) (decode v))
    | none => .error (.wrongShape ("missing field `" ++ name ++ "`"))
  | .listed items =>
    let place := s.settings.idxOf name
    match items[place]? with
    | some v => within (.entry s.name) (within (.item (Int.ofNat place)) (decode v))
    | none =>
      .error (.wrongShape ("invalid length " ++ toString items.length ++ ", expected struct "
        ++ s.label ++ " with " ++ toString s.settings.length ++ " elements"))

end Section

/-- The section of a name. -/
def sectionOf (entries : List (String × Value)) (name label : String) (settings : List String) :
    Except Settings.Error Section :=
  match entries.lookup name with
  | none => .error (.wrongShape ("missing field `" ++ name ++ "`"))
  | some (.table _ inner) => .ok ⟨name, label, settings, .named inner⟩
  | some (.list _ items) => .ok ⟨name, label, settings, .listed items⟩
  | some v => refuseShape ("struct " ++ label) v

/-- The settings that entries hold. -/
def ofEntries (entries : List (String × Value)) : Except Settings.Error RunSettings := do
  let logging ← sectionOf entries "logging" "LogConfig"
    ["level", "directory", "filename", "console_output"]
  let subscription ← sectionOf entries "subscription" "SubscriptionConfig"
    ["backend", "channels", "replay_path", "poll_timeout_ms"]
  let tables ← sectionOf entries "tables" "TablesConfig" ["max_queued_row_count", "enabled"]
  let service ← sectionOf entries "service" "ServiceConfig" ["scan_interval_ms", "export_rows"]
  pure
    { logging :=
        { level := ← logging.get "level" decodeText
          directory := ← logging.get "directory" decodeText
          filename := ← logging.get "filename" decodeText
          consoleOutput := ← logging.get "console_output" decodeBoolean }
      subscription :=
        { backend := ← subscription.get "backend" decodeBackend
          channels := ← subscription.get "channels" decodeList
          replayPath := ← subscription.get "replay_path" decodeText
          pollTimeout := ← subscription.get "poll_timeout_ms" decodeCount }
      tables :=
        { maxQueuedRows := ← tables.get "max_queued_row_count" decodeCount
          enabled := ← tables.get "enabled" decodeList }
      service :=
        { scanInterval := ← service.get "scan_interval_ms" decodeCount
          exportRows := ← service.get "export_rows" decodeBoolean } }

/-- The settings in force. `file` is the settings file, if there is one, and
`origin` where complaints say its values came from. File and environment are
laid over each other first, and then both over the defaults. -/
def load (file : Option String) (origin : Origin) (environment : List (String × String)) :
    Except Settings.Error RunSettings := do
  let given ← match file with
    | none => pure []
    | some document => (Toml.read origin document).mapError (Error.unreadable · origin)
  let layers := (Value.empty.layLayer given).layLayer (Environment.layer environment)
  ofEntries ((Value.empty.layLayer defaults).layLayer layers.entries).entries

end RunSettings

end AuditTables
