import AuditTables.Source.Attach
import AuditTables.Table.Registry

/-!
# `AuditTables.Pipeline`: from sources to tables

The pipeline polls every source in turn and gives each batch to every table, pass
after pass. It stops when it is told to, which it looks at once before each pass,
or when a pass has left every source broken. While no table is registered there
is nothing to do, and it waits without polling.

What the sources are is left open. `Sources` says how many there are and how the
world changes when one is polled or when time passes, so a poll may break any
source or ask the pipeline to stop. A run takes a bound on the number of turns,
because a world need not ever end it.
-/

set_option autoImplicit false

namespace AuditTables

open AuditTables.Source AuditTables.Table

/-- The sources of a pipeline, over a world `ω`. -/
structure Sources (ω : Type) where
  count : Nat
  /-- The batch that a source gives, and the world after it. -/
  poll : Nat → ω → Batch × ω
  /-- Whether a source can still give events. -/
  health : Nat → ω → Health
  /-- Whether the pipeline was asked to stop. -/
  stopping : ω → Bool
  /-- The world after a wait. -/
  wait : ω → ω

/-- A pipeline at work: the world, the tables, and what has been reported, in
order. -/
structure Pipeline (ω : Type) where
  world : ω
  registry : Registry
  notices : List Notice

namespace Pipeline

variable {ω : Type}

/-- Why a pipeline stopped. -/
inductive Ending where
  /-- It was asked to. -/
  | asked
  /-- There was no source to poll. -/
  | noSources
  /-- Every source is broken, with these codes. -/
  | allBroken (codes : List Nat)
  deriving DecidableEq, Repr

/-- The wording of an ending that is a failure. -/
def Ending.failure? : Ending → Option String
  | .asked => none
  | .noSources => some "no event consumers to drain"
  | .allBroken codes =>
    some ("all event subscriptions are broken (os errors " ++ codesText codes ++ ")")

/-- A batch given to every table. -/
def dispatch (p : Pipeline ω) (events : List AuditEvent) : Pipeline ω :=
  let (registry, notices) := p.registry.dispatch events
  { p with registry := registry, notices := p.notices ++ notices }

/-- One source polled. A batch without events goes to no table. -/
def pollSource (s : Sources ω) (p : Pipeline ω) (source : Nat) : Pipeline ω × Nat :=
  let (batch, world) := s.poll source p.world
  let polled : Pipeline ω := { p with world := world, notices := p.notices ++ batch.notices }
  if batch.events.isEmpty then (polled, 0)
  else (polled.dispatch batch.events, batch.events.length)

/-- One pass over every source, and how many events it dispatched. -/
def pass (s : Sources ω) (p : Pipeline ω) : Pipeline ω × Nat :=
  (List.range s.count).foldl
    (fun (p, n) source =>
      let (next, m) := pollSource s p source
      (next, n + m))
    (p, 0)

/-- The codes of the sources, if all are broken. -/
def allBroken? (s : Sources ω) (world : ω) : Option (List Nat) :=
  (List.range s.count).mapM fun source => (s.health source world).code?

/-- Turns of the pipeline until it stops, if it does within a bound. -/
def turns (s : Sources ω) : Nat → Pipeline ω → Option (Ending × Pipeline ω)
  | 0, _ => none
  | bound + 1, p =>
    if s.stopping p.world then some (.asked, p)
    else if p.registry.isEmpty then turns s bound { p with world := s.wait p.world }
    else
      let next := (pass s p).1
      match allBroken? s next.world with
      | some codes =>
        some (.allBroken codes, { next with notices := next.notices ++ [.allBroken codes] })
      | none => turns s bound next

/-- A run of the pipeline. Without sources there is nothing to run. -/
def run (s : Sources ω) (bound : Nat) (p : Pipeline ω) : Option (Ending × Pipeline ω) :=
  if s.count = 0 then some (.noSources, p) else turns s bound p

end Pipeline

end AuditTables
