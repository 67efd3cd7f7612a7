import AuditTables.Source.Channel
import AuditTables.Source.Tail

/-!
# `AuditTables.Source.Attach`: attaching the sources that settings name

Settings name channels to subscribe to or a file to follow. Each source that
cannot be attached is reported. If none of those named can be, the failure of the
last is the failure of all; naming none at all is no failure.
-/

set_option autoImplicit false

namespace AuditTables.Source

/-- Where events come from. -/
inductive Backend where
  | eventLog
  | replay
  deriving DecidableEq, Repr

/-- A source that has been attached. -/
inductive Attached where
  | channel (c : Channel)
  /-- A file of records, by its path. -/
  | file (path : String) (tail : Tail)

namespace Attached

/-- The name that a source goes by. -/
def name : Attached → String
  | channel c => c.name
  | file path _ => path

/-- Whether a source can still give events. A file always can. -/
def health : Attached → Health
  | channel c => c.health
  | file _ _ => .active

/-- What a source has to give, and the source after it. `look` is what there is to
find of the file that settings name. -/
def poll (a : Attached) (clock : Clock) (look : Look) : Attached × Batch :=
  match a with
  | channel c =>
    let (events, c) := c.drain
    (.channel c, ⟨events, []⟩)
  | .file path tail =>
    let (tail, batch) := tail.poll clock look
    (.file path tail, batch)

end Attached

/-- The channels that could be subscribed to, what is reported of the others,
and the last failure. -/
def subscribeAll : List String → List Attached × List Notice × Option Failure
  | [] => ([], [], none)
  | name :: rest =>
    let (attached, notices, last) := subscribeAll rest
    match Channel.subscribe name with
    | .ok c => (.channel c :: attached, notices, last)
    | .error failure =>
      (attached, .channelRefused name failure :: notices, some (last.getD failure))

/-- A file to be followed, if it can be opened. That it can be opened does not say
that it can be read: a directory cannot. -/
def openFile (path : String) (opened : Except Failure Unit) :
    Except Failure Attached × List Notice :=
  match opened with
  | .ok _ => (.ok (.file path Tail.start), [])
  | .error failure => (.error failure, [.fileRefused failure])

/-- The sources that settings name. `opened` tells whether the file to follow can
be opened. -/
def attach (backend : Backend) (channels : List String) (path : String)
    (opened : Except Failure Unit) : Except Failure (List Attached) × List Notice :=
  match backend with
  | .eventLog =>
    let (attached, notices, last) := subscribeAll channels
    match attached, last with
    | [], some failure => (.error failure, notices)
    | _, _ => (.ok attached, notices)
  | .replay =>
    let (result, notices) := openFile path opened
    (result.map ([·]), notices)

end AuditTables.Source
