import AuditTables.Table.Registry
import Mathlib.Algebra.GroupWithZero.Nat
import Mathlib.Data.List.Induction

/-!
# `AuditTables.Proofs.Table.Eviction`: what a bounded queue keeps and what it loses

A queue is called any number of times, to put a batch in or to take all items out. `Usage`
is a queue in use: the queue itself and what its calls have answered so far. A batch is
answered by the number of items it pushed out, which is reported if it is positive, and a
drain by the items.

`bounded_usage` is the main fact, for every limit and every list of calls. The queue holds
the last items put in since the last drain, as many as the limit allows. Every loss is
accounted for: the items put in are as many as those taken out, those that wait and those
reported lost. What was taken out and what waits are in the order in which they came in, and
a batch may be cut into several without any difference to what follows.

`Keeps` is the invariant of a run, with one step lemma for each kind of call. Its part about
the last items is a suffix and a length, which say together which items those are.
-/

set_option autoImplicit false

namespace AuditTables.Proofs.Table

open AuditTables.Table

variable {α : Type}

/-! ### One batch -/

/-- A queue is its limit and its items. -/
theorem queue_ext {q q' : Queue α} (hlimit : q.limit = q'.limit) (hitems : q.items = q'.items) :
    q = q' := by
  obtain ⟨limit, items, hle⟩ := q
  obtain ⟨limit', items', hle'⟩ := q'
  have hlimits : limit = limit' := hlimit
  have hlists : items = items' := hitems
  subst hlimits hlists
  rfl

/-- A batch pushes out the oldest items, and `excess` is how many. -/
theorem items_append_evicts (q : Queue α) (batch : List α) :
    ∃ evicted, evicted.length = q.excess batch ∧
      q.items ++ batch = evicted ++ (q.append batch).items := by
  refine ⟨(q.items ++ batch).take (q.excess batch), ?_, ?_⟩
  · have hle : q.excess batch ≤ (q.items ++ batch).length := by
      rw [List.length_append, Queue.excess]
      omega
    rw [List.length_take, Nat.min_eq_left hle]
  · rw [Queue.items_append, List.take_append_drop]

/-- After a batch the queue has what fits of the items there were. -/
theorem length_items_append (q : Queue α) (batch : List α) :
    (q.append batch).items.length = min q.limit (q.items.length + batch.length) := by
  rw [Queue.items_append, List.length_drop, List.length_append, Queue.excess]
  omega

/-- A batch in two parts leaves the queue as the whole batch does. The items that the first
part pushes out are among the oldest of all. -/
theorem append_append (q : Queue α) (first second : List α) :
    (q.append first).append second = q.append (first ++ second) := by
  have hitems : ((q.append first).append second).items = (q.append (first ++ second)).items := by
    have hkept := length_items_append q first
    have hle : q.excess first ≤ (q.items ++ first).length := by
      rw [List.length_append, Queue.excess]
      omega
    -- Both sides drop from the same list of items; what is left to compare is how many.
    rw [Queue.items_append, Queue.items_append q (first ++ second), Queue.items_append q first,
      ← List.drop_append_of_le_length hle, List.drop_drop, List.append_assoc]
    refine congrArg (fun n => List.drop n _) ?_
    simp only [Queue.excess, hkept, Queue.limit_append, List.length_append]
    omega
  exact queue_ext rfl hitems

/-- A batch in two parts pushes out as many items as the whole batch does. -/
theorem excess_append (q : Queue α) (first second : List α) :
    q.excess first + (q.append first).excess second = q.excess (first ++ second) := by
  have hkept := length_items_append q first
  simp only [Queue.excess, hkept, Queue.limit_append, List.length_append]
  omega

/-! ### Calls -/

/-- A call to a queue. -/
inductive Call (α : Type) where
  /-- A batch is put in. -/
  | append (batch : List α)
  /-- All items are taken out. -/
  | drain
  deriving DecidableEq, Repr

/-- All items that calls put in, in order. -/
def putIn (calls : List (Call α)) : List α :=
  calls.flatMap fun
    | .append batch => batch
    | .drain => []

/-- The items that calls have put in since the last drain among them. -/
def sinceDrain (calls : List (Call α)) : List α :=
  calls.foldl (fun items call =>
    match call with
    | .append batch => items ++ batch
    | .drain => []) []

/-- A queue in use. The number of items that each batch has pushed out, the items that each
drain has taken, and what has been reported, all in order. -/
structure Usage (α : Type) where
  queue : Queue α
  dropped : List Nat
  drained : List (List α)
  notices : List Notice

namespace Usage

/-- A new queue. -/
def new (limit : Nat) : Usage α := ⟨Queue.empty limit, [], [], []⟩

/-- One call to the queue of a table. -/
def step (table : String) (u : Usage α) : Call α → Usage α
  | .append batch =>
    let (queue, dropped) := u.queue.push batch
    { u with
      queue := queue
      dropped := u.dropped ++ [dropped]
      notices := u.notices ++ dropNotices table u.queue batch }
  | .drain =>
    let (items, queue) := u.queue.drain
    { u with queue := queue, drained := u.drained ++ [items] }

/-- Calls one after the other. -/
def run (table : String) (u : Usage α) (calls : List (Call α)) : Usage α :=
  calls.foldl (step table) u

end Usage

/-- One more call comes after all others. -/
theorem run_concat (table : String) (u : Usage α) (calls : List (Call α)) (call : Call α) :
    u.run table (calls ++ [call]) = (u.run table calls).step table call := by
  simp only [Usage.run, List.foldl_append, List.foldl_cons, List.foldl_nil]

theorem putIn_concat_append (calls : List (Call α)) (batch : List α) :
    putIn (calls ++ [.append batch]) = putIn calls ++ batch := by
  rw [putIn, List.flatMap_append, List.flatMap_singleton]
  rfl

theorem putIn_concat_drain (calls : List (Call α)) :
    putIn (calls ++ [.drain]) = putIn calls := by
  rw [putIn, List.flatMap_append, List.flatMap_singleton]
  exact List.append_nil _

theorem sinceDrain_concat_append (calls : List (Call α)) (batch : List α) :
    sinceDrain (calls ++ [.append batch]) = sinceDrain calls ++ batch := by
  simp only [sinceDrain, List.foldl_append, List.foldl_cons, List.foldl_nil]

theorem sinceDrain_concat_drain (calls : List (Call α)) :
    sinceDrain (calls ++ [.drain]) = [] := by
  simp only [sinceDrain, List.foldl_append, List.foldl_cons, List.foldl_nil]

/-! ### The invariant -/

/-- What holds of a queue in use after calls. It has the last of the items since the last
drain. Its losses account for what is neither taken nor waiting, and what is taken or waiting
came in in this order. -/
structure Keeps (limit : Nat) (calls : List (Call α)) (u : Usage α) : Prop where
  bound : u.queue.limit = limit
  last : u.queue.items <:+ sinceDrain calls
  length : u.queue.items.length = min limit (sinceDrain calls).length
  account : (putIn calls).length
    = u.drained.flatten.length + u.queue.items.length + u.dropped.sum
  order : (u.drained.flatten ++ u.queue.items).Sublist (putIn calls)

/-- A new queue has nothing and has lost nothing. -/
theorem keeps_new (limit : Nat) : Keeps limit [] (Usage.new limit : Usage α) :=
  ⟨rfl, List.nil_suffix, (Nat.min_zero limit).symm, rfl, List.Sublist.refl []⟩

/-- A batch keeps the invariant. What it pushes out comes off the front. -/
theorem keeps_append {limit : Nat} {calls : List (Call α)} {u : Usage α} (table : String)
    (h : Keeps limit calls u) (batch : List α) :
    Keeps limit (calls ++ [.append batch]) (u.step table (.append batch)) := by
  obtain ⟨evicted, hcount, hsplit⟩ := items_append_evicts u.queue batch
  have hsuffix : (u.queue.append batch).items <:+ u.queue.items ++ batch := ⟨evicted, hsplit.symm⟩
  have hlengths := congrArg List.length hsplit
  rw [List.length_append, List.length_append, hcount] at hlengths
  refine ⟨h.bound, ?_, ?_, ?_, ?_⟩
  · -- A suffix of the waiting items and the batch is one of all items since the drain.
    rw [sinceDrain_concat_append]
    obtain ⟨older, holder⟩ := h.last
    refine hsuffix.trans ⟨older, ?_⟩
    rw [← holder, List.append_assoc]
  · show (u.queue.append batch).items.length = _
    rw [length_items_append, h.bound, h.length, sinceDrain_concat_append, List.length_append]
    omega
  · -- What the batch brings either waits or has pushed as much out.
    show _ = u.drained.flatten.length + (u.queue.append batch).items.length
      + (u.dropped ++ [u.queue.excess batch]).sum
    have haccount := h.account
    rw [putIn_concat_append, List.length_append, List.sum_append, List.sum_singleton]
    omega
  · rw [putIn_concat_append]
    have hkept := hsuffix.sublist.append_left u.drained.flatten
    rw [← List.append_assoc] at hkept
    exact hkept.trans (h.order.append_right batch)

/-- A drain keeps the invariant. The items that waited become the last ones taken. -/
theorem keeps_drain {limit : Nat} {calls : List (Call α)} {u : Usage α} (table : String)
    (h : Keeps limit calls u) : Keeps limit (calls ++ [.drain]) (u.step table .drain) := by
  have htaken : (u.drained ++ [u.queue.items]).flatten = u.drained.flatten ++ u.queue.items := by
    rw [List.flatten_append, List.flatten_singleton]
  refine ⟨h.bound, List.nil_suffix, ?_, ?_, ?_⟩
  · rw [sinceDrain_concat_drain]
    exact (Nat.min_zero limit).symm
  · show _ = (u.drained ++ [u.queue.items]).flatten.length + 0 + u.dropped.sum
    rw [putIn_concat_drain, htaken, List.length_append]
    exact h.account
  · show ((u.drained ++ [u.queue.items]).flatten ++ []).Sublist _
    rw [putIn_concat_drain, htaken, List.append_nil]
    exact h.order

/-- The invariant holds after any calls, by induction on the calls from the last one. -/
theorem keeps_run (limit : Nat) (table : String) (calls : List (Call α)) :
    Keeps limit calls ((Usage.new limit).run table calls) := by
  induction calls using List.reverseRecOn with
  | nil => exact keeps_new limit
  | append_singleton calls call ih =>
      rw [run_concat]
      cases call with
      | append batch => exact keeps_append table ih batch
      | drain => exact keeps_drain table ih

/-! ### Batches cut into several -/

/-- Two uses of a queue that calls cannot tell apart: the queues are the same, and so is the
number of items lost. -/
def Agree (u v : Usage α) : Prop := u.queue = v.queue ∧ u.dropped.sum = v.dropped.sum

/-- Uses that agree still agree after a call to both. -/
theorem agree_step {u v : Usage α} (table : String) (h : Agree u v) (call : Call α) :
    Agree (u.step table call) (v.step table call) := by
  obtain ⟨hqueue, hsum⟩ := h
  cases call with
  | append batch =>
      refine ⟨congrArg (Queue.append · batch) hqueue, ?_⟩
      show (u.dropped ++ [u.queue.excess batch]).sum = (v.dropped ++ [v.queue.excess batch]).sum
      rw [List.sum_append, List.sum_append, hsum, hqueue]
  | drain => exact ⟨congrArg Queue.clear hqueue, hsum⟩

/-- Uses that agree still agree after the same calls to both. -/
theorem agree_run {u v : Usage α} (table : String) (h : Agree u v) (calls : List (Call α)) :
    Agree (u.run table calls) (v.run table calls) := by
  induction calls generalizing u v with
  | nil => exact h
  | cons call rest ih => exact ih (agree_step table h call)

/-- A batch and the same batch cut into several agree, by induction on the pieces. -/
theorem agree_pieces (table : String) (u : Usage α) (pieces : List (List α)) :
    Agree (u.run table (pieces.map .append)) (u.step table (.append pieces.flatten)) := by
  induction pieces generalizing u with
  | nil =>
      -- No pieces at all: the whole is the empty batch, which pushes nothing out.
      refine ⟨(Queue.append_nil u.queue).symm, ?_⟩
      show u.dropped.sum = (u.dropped ++ [u.queue.excess []]).sum
      rw [Queue.excess_nil, List.sum_append, List.sum_singleton, Nat.add_zero]
  | cons piece pieces ih =>
      obtain ⟨hqueue, hsum⟩ := ih (u.step table (.append piece))
      refine ⟨hqueue.trans ?_, hsum.trans ?_⟩
      · show (u.queue.append piece).append pieces.flatten
          = u.queue.append (piece ++ pieces.flatten)
        exact append_append _ _ _
      · show ((u.dropped ++ [u.queue.excess piece])
            ++ [(u.queue.append piece).excess pieces.flatten]).sum
          = (u.dropped ++ [u.queue.excess (piece ++ pieces.flatten)]).sum
        simp only [List.sum_append, List.sum_singleton, ← excess_append]
        omega

/-! ### Queues in use -/

/-- A queue in use keeps the newest items and accounts for the others. After any calls it has
the last of the items put in since the last drain, as many as its limit allows. The next
batch would be answered by the number of the oldest items that it pushes out, and this is
reported exactly if it is not zero; the next drain would take all items and leave none. All
items put in are taken, waiting or counted as lost, those taken and those waiting are in the
order in which they came in, and cutting a batch into pieces changes neither the queue nor
the number of items lost, now or after further calls. -/
theorem bounded_usage (limit : Nat) (table : String) (calls : List (Call α)) :
    let u := (Usage.new limit).run table calls
    (u.queue.items <:+ sinceDrain calls ∧
      u.queue.items.length = min limit (sinceDrain calls).length) ∧
    (∀ batch, ∃ evicted,
      u.queue.items ++ batch = evicted ++ (u.step table (.append batch)).queue.items ∧
      (u.step table (.append batch)).dropped = u.dropped ++ [evicted.length] ∧
      (u.step table (.append batch)).notices
        = u.notices ++ if 0 < evicted.length then [.rowsDropped table evicted.length limit]
            else []) ∧
    ((u.step table .drain).drained = u.drained ++ [u.queue.items] ∧
      (u.step table .drain).queue.items = []) ∧
    (putIn calls).length = u.drained.flatten.length + u.queue.items.length + u.dropped.sum ∧
    (u.drained.flatten ++ u.queue.items).Sublist (putIn calls) ∧
    ∀ (pieces : List (List α)) (after : List (Call α)),
      let whole := u.run table (.append pieces.flatten :: after)
      let cut := u.run table (pieces.map .append ++ after)
      cut.queue = whole.queue ∧ cut.dropped.sum = whole.dropped.sum := by
  intro u
  have hkeeps : Keeps limit calls u := keeps_run limit table calls
  refine ⟨⟨hkeeps.last, hkeeps.length⟩, fun batch => ?_, ⟨rfl, rfl⟩, hkeeps.account,
    hkeeps.order, fun pieces after => ?_⟩
  · obtain ⟨evicted, hcount, hsplit⟩ := items_append_evicts u.queue batch
    refine ⟨evicted, hsplit, ?_, ?_⟩
    · rw [hcount]
      rfl
    · show u.notices ++ dropNotices table u.queue batch = _
      rw [dropNotices_eq, hcount, hkeeps.bound]
      by_cases hzero : u.queue.excess batch = 0
      · rw [if_pos hzero, if_neg (by omega)]
      · rw [if_neg hzero, if_pos (by omega)]
  · have hrun : u.run table (pieces.map .append ++ after)
        = (u.run table (pieces.map .append)).run table after := List.foldl_append
    show Agree (u.run table (pieces.map .append ++ after)) _
    rw [hrun]
    exact agree_run table (agree_pieces table u pieces) after

end AuditTables.Proofs.Table
