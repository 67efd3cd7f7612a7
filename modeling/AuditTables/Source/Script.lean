import AuditTables.Source.Channel
import AuditTables.Source.Tail

/-!
# `AuditTables.Source.Script`: sources with a known course

A scripted source gives fixed batches and breaks after a fixed number of polls,
which makes what a pipeline does with it predictable. Once its batches are used
up a script that never breaks asks the pipeline to stop, so every run over
scripts ends (`Stage.enough` bounds its turns).
-/

set_option autoImplicit false

namespace AuditTables.Source

/-- A source with a known course: its remaining batches, how often it has been
polled, the code it breaks with, if it does, and after how many polls. -/
structure Script where
  batches : List (List AuditEvent)
  polls : Nat
  brokenCode : Option Nat
  breakAfter : Nat

namespace Script

/-- Whether a script can still give events. -/
def health (s : Script) : Health :=
  match s.brokenCode with
  | some code => if s.breakAfter ≤ s.polls then .broken code else .active
  | none => .active

/-- A poll: the batch, the script after it, and whether it asks to stop. -/
def poll (s : Script) : List AuditEvent × Script × Bool :=
  match s.batches with
  | batch :: rest => (batch, { s with batches := rest, polls := s.polls + 1 }, false)
  | [] => ([], { s with polls := s.polls + 1 }, s.brokenCode.isNone)

/-- How many polls a script takes at most to break or to ask to stop. -/
def length (s : Script) : Nat := max s.batches.length s.breakAfter + 1

end Script

/-- Scripts side by side, and whether a stop was asked for. -/
structure Stage where
  scripts : List Script
  stopping : Bool

namespace Stage

/-- A poll of one of the scripts. -/
def poll (stage : Stage) (source : Nat) : List AuditEvent × Stage :=
  match stage.scripts[source]? with
  | none => ([], stage)
  | some script =>
    let (events, next, stop) := script.poll
    (events, ⟨stage.scripts.set source next, stage.stopping || stop⟩)

/-- Whether one of the scripts can still give events. -/
def health (stage : Stage) (source : Nat) : Health :=
  match stage.scripts[source]? with
  | none => .active
  | some script => script.health

/-- A number of turns that ends every run over these scripts. -/
def enough (stage : Stage) : Nat :=
  stage.scripts.foldl (fun n s => max n s.length) 0 + 2

end Stage

end AuditTables.Source
