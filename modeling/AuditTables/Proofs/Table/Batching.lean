import AuditTables.Proofs.Table.Draining
import AuditTables.Proofs.Table.Eviction

/-!
# `AuditTables.Proofs.Table.Batching`: a batch, and its events one at a time

A table collects the rows of a batch up to the first event that it fails on. Then it puts all
of them into its queue at once, which may push out old rows and rows of the batch itself.
`oneByOne` is the plain account of what this comes to. It takes the events one at a time, puts
each row into the queue as soon as it is made, and stops at the first failure.

`process_refines_oneByOne` says that the two cannot be told apart, for every table, whatever
waits in its queue, and every batch. The queue is the same, as many rows are lost, and the
failure is the first one of the batch. The events before it are `handled`. Their rows were put
in, and the table is as if the batch had ended with them. If no event fails, a batch may be cut
anywhere.

Two facts carry this. `rowsOf_eq` says which rows a batch has, and what its failure is. One more
row in front of a batch may as well be put in by itself (`oneByOne_eq`), because batches that
follow one another evict what their concatenation does.
-/

set_option autoImplicit false

namespace AuditTables.Proofs.Table

open AuditTables.Event AuditTables.Table

/-! ### One at a time -/

/-- How far a table has come with the events that it takes. -/
structure Progress where
  table : LiveTable
  /-- How many rows were pushed out of the queue. -/
  dropped : Nat
  /-- The failure that stopped the table, if one did. -/
  failure : Option Failure

/-- A table that takes events one at a time. Each row goes into the queue at once, and the first
failure is the end. -/
def oneByOne (t : LiveTable) : List AuditEvent → Progress
  | [] => ⟨t, 0, none⟩
  | e :: es =>
    match t.definition.row? e with
    | .error failure => ⟨t, 0, some failure⟩
    | .ok none => oneByOne t es
    | .ok (some row) =>
      let rest := oneByOne ⟨t.definition, t.queue.append [row]⟩ es
      ⟨rest.table, t.queue.excess [row] + rest.dropped, rest.failure⟩

/-- What a table reports of so many rows pushed out. -/
def dropReport (t : LiveTable) (dropped : Nat) : List Notice :=
  if dropped = 0 then [] else [.rowsDropped t.name dropped t.queue.limit]

/-- Rows put in one at a time are put in together, by induction on the events. -/
theorem oneByOne_eq (t : LiveTable) (events : List AuditEvent) :
    oneByOne t events
      = ⟨⟨t.definition, t.queue.append (LiveTable.rowsOf t.definition events).1⟩,
          t.queue.excess (LiveTable.rowsOf t.definition events).1,
          (LiveTable.rowsOf t.definition events).2⟩ := by
  induction events generalizing t with
  | nil => simp [oneByOne, LiveTable.rowsOf]
  | cons e es ih =>
      rw [oneByOne, LiveTable.rowsOf]
      cases hrow : t.definition.row? e with
      | error failure => simp
      | ok row =>
          cases row with
          | none => exact ih t
          | some row =>
              -- The row is a batch of its own, in front of that of the events behind it.
              simp only [ih, append_append, excess_append, List.singleton_append]

/-- A batch does what its events do one at a time. -/
theorem process_eq (t : LiveTable) (events : List AuditEvent) :
    t.process events
      = ((oneByOne t events).table, dropReport t (oneByOne t events).dropped,
          (oneByOne t events).failure) := by
  rw [oneByOne_eq]
  rfl

/-! ### Batches cut into several -/

/-- The table after batches that follow one another. -/
def processAll (t : LiveTable) (pieces : List (List AuditEvent)) : LiveTable :=
  pieces.foldl (fun t piece => (t.process piece).1) t

/-- A batch in two parts of which the first has no failure. -/
theorem process_append (t : LiveTable) {first : List AuditEvent} (second : List AuditEvent)
    (h : first.findSome? (failureOf t.definition) = none) :
    ((t.process first).1.process second).1 = (t.process (first ++ second)).1 := by
  have hwhole : handled t.definition (first ++ second)
      = first ++ handled t.definition second := by
    refine List.takeWhile_append_of_pos fun e he => ?_
    simpa using List.findSome?_eq_none_iff.mp h e he
  show LiveTable.mk t.definition ((t.queue.append (LiveTable.rowsOf t.definition first).1).append
      (LiveTable.rowsOf t.definition second).1)
    = ⟨t.definition, t.queue.append (LiveTable.rowsOf t.definition (first ++ second)).1⟩
  rw [append_append, rowsOf_eq, rowsOf_eq, rowsOf_eq, hwhole, handled_of_findSome?_eq_none _ h,
    List.filterMap_append]

/-- A batch without failures in any number of parts, by induction on them. -/
theorem processAll_eq (t : LiveTable) {pieces : List (List AuditEvent)}
    (h : pieces.flatten.findSome? (failureOf t.definition) = none) :
    processAll t pieces = (t.process pieces.flatten).1 := by
  induction pieces generalizing t with
  | nil =>
      show t = ⟨t.definition, t.queue.append []⟩
      rw [Queue.append_nil]
  | cons piece pieces ih =>
      rw [List.flatten_cons, List.findSome?_append, Option.or_eq_none_iff] at h
      rw [List.flatten_cons, ← process_append t _ h.1]
      exact ih (t.process piece).1 h.2

/-- A batch is no different from its events taken one at a time. The table is left with the same
queue, it reports as many rows lost, and it returns the first failure of the batch, if there is
one. The rows of the events before that are put in, and those lost are the oldest of all; no
later event does anything, so the batch might have ended before the failure. A batch without
failures can be cut into any number of batches. -/
theorem process_refines_oneByOne (t : LiveTable) (events : List AuditEvent) :
    let one := oneByOne t events
    let before := handled t.definition events
    t.process events = (one.table, dropReport t one.dropped, one.failure) ∧
    one.failure = events.findSome? (failureOf t.definition) ∧
    (∃ evicted, evicted.length = one.dropped ∧
      t.queue.items ++ before.filterMap (rowOr t.definition)
        = evicted ++ one.table.queue.items) ∧
    t.process before = (one.table, dropReport t one.dropped, none) ∧
    (one.failure = none → ∀ pieces : List (List AuditEvent), pieces.flatten = events →
      processAll t pieces = one.table) := by
  intro one before
  have hone : one = ⟨⟨t.definition, t.queue.append (before.filterMap (rowOr t.definition))⟩,
      t.queue.excess (before.filterMap (rowOr t.definition)),
      events.findSome? (failureOf t.definition)⟩ := by
    show oneByOne t events = _
    rw [oneByOne_eq, rowsOf_eq]
  have hbefore : handled t.definition before = before :=
    handled_of_findSome?_eq_none _ (findSome?_handled _ _)
  refine ⟨process_eq t events, by rw [hone], ?_, ?_, fun hnone pieces hpieces => ?_⟩
  · rw [hone]
    exact items_append_evicts t.queue _
  · rw [process_eq, oneByOne_eq, rowsOf_eq, hbefore, hone, findSome?_handled]
  · rw [hone] at hnone
    subst hpieces
    rw [processAll_eq t hnone, process_eq]

/-- A logon of an account. -/
def logonOf (user : String) : AuditEvent :=
  { AuditEvent.blank with
    eventId := 4624
    data := (Fields.ofTexts [("TargetUserName", user)]).write }

/-- Two logons, one whose data are cut short, and one more. -/
def brokenBatch : List AuditEvent :=
  [logonOf "first", logonOf "second", { logonOf "" with data := "[" }, logonOf "third"]

/-- A table with room for one row is left by them as by two batches of the first two logons. It
has lost the row of the first, and returns a failure. -/
theorem process_refines_oneByOne_brokenBatch :
    let t := LiveTable.new 1 Catalogue.accountLogon
    (t.process brokenBatch).1 = processAll t [[logonOf "first"], [logonOf "second"]] ∧
      (t.process brokenBatch).2.1 = [.rowsDropped "account_logon" 1 1] ∧
      (t.process brokenBatch).2.2.isSome := by
  intro t
  obtain ⟨hbatch, hfailure, -, hbefore, -⟩ := process_refines_oneByOne t brokenBatch
  obtain ⟨hstart, -, -, -, hpieces⟩ :=
    process_refines_oneByOne t (handled t.definition brokenBatch)
  have hcut := hpieces rfl [[logonOf "first"], [logonOf "second"]] rfl
  refine ⟨?_, ?_, ?_⟩
  · rw [hcut, congrArg Prod.fst hbatch, ← congrArg Prod.fst hbefore, congrArg Prod.fst hstart]
  · rw [hbatch]
    rfl
  · rw [hbatch, hfailure]
    rfl

end AuditTables.Proofs.Table
