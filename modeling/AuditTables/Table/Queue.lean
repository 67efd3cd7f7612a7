/-!
# `AuditTables.Table.Queue`: rows waiting to be read

A queue holds at most as many items as its limit. A batch goes in at the back as
a whole and then the oldest items leave until the limit is kept, so a batch
larger than the limit loses its own first items. That the limit is kept is part
of the type.
-/

set_option autoImplicit false

namespace AuditTables.Table

/-- Items in the order they came in, no more than a limit. -/
structure Queue (α : Type) where
  limit : Nat
  items : List α
  length_le : items.length ≤ limit

namespace Queue

variable {α : Type}

/-- The queue without items. -/
def empty (limit : Nat) : Queue α := ⟨limit, [], Nat.zero_le _⟩

/-- How many of the oldest items a batch would push out. -/
def excess (q : Queue α) (batch : List α) : Nat := q.items.length + batch.length - q.limit

/-- The queue after a batch. -/
def append (q : Queue α) (batch : List α) : Queue α :=
  ⟨q.limit, (q.items ++ batch).drop (q.excess batch), by
    rw [List.length_drop, List.length_append, excess]; omega⟩

/-- A batch put in: the queue after it, and how many items were pushed out. -/
def push (q : Queue α) (batch : List α) : Queue α × Nat := (q.append batch, q.excess batch)

/-- The queue after its items have been taken. -/
def clear (q : Queue α) : Queue α := empty q.limit

/-- All items taken out, and the queue that is left. -/
def drain (q : Queue α) : List α × Queue α := (q.items, q.clear)

@[simp] theorem limit_append (q : Queue α) (batch : List α) : (q.append batch).limit = q.limit :=
  rfl

@[simp] theorem items_append (q : Queue α) (batch : List α) :
    (q.append batch).items = (q.items ++ batch).drop (q.excess batch) := rfl

/-- A batch of nothing pushes nothing out. -/
@[simp] theorem excess_nil (q : Queue α) : q.excess [] = 0 := Nat.sub_eq_zero_of_le q.length_le

/-- A batch of nothing leaves a queue as it is. -/
@[simp] theorem append_nil (q : Queue α) : q.append [] = q := by
  obtain ⟨limit, items, hle⟩ := q
  simp only [append, excess_nil, List.append_nil, List.drop_zero]

end Queue

end AuditTables.Table
