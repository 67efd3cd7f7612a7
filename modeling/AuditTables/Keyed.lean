/-!
# `AuditTables.Keyed`: values under ascending keys

JSON objects and table rows show their keys in ascending order, compared
character by character, which is the order of their octets. Both are lists of
pairs kept in that order. `put` writes a value under a key in its place and
`get?` reads it.

Main statements: `get?_put_self` and `get?_put_of_ne` say what a write does to
each read, and `ascending_put` that a write keeps the order.
-/

set_option autoImplicit false

namespace AuditTables.Keyed

variable {α : Type}

/-- The value under a key. -/
def get? (key : String) : List (String × α) → Option α
  | [] => none
  | (k, v) :: rest => if k = key then some v else get? key rest

/-- The list with a value written under a key. A key that is there keeps its
place and loses its old value; a new one goes before the first greater key. -/
def put (key : String) (value : α) : List (String × α) → List (String × α)
  | [] => [(key, value)]
  | (k, v) :: rest =>
    if key < k then (key, value) :: (k, v) :: rest
    else if k = key then (key, value) :: rest
    else (k, v) :: put key value rest

/-- The keys of a list, in its order. -/
def keys (entries : List (String × α)) : List String := entries.map (·.1)

/-- The order that `put` keeps: each key is less than every later one. -/
def Ascending (entries : List (String × α)) : Prop :=
  entries.Pairwise fun a b => a.1 < b.1

theorem ascending_nil : Ascending ([] : List (String × α)) := List.Pairwise.nil

@[simp] theorem get?_put_self (key : String) (value : α) (entries : List (String × α)) :
    get? key (put key value entries) = some value := by
  induction entries with
  | nil => simp [put, get?]
  | cons entry rest ih =>
    rw [put]
    split
    · simp [get?]
    · split
      · simp [get?]
      · rename_i hne
        rw [get?, if_neg hne, ih]

theorem get?_put_of_ne {key other : String} (h : key ≠ other) (value : α)
    (entries : List (String × α)) :
    get? other (put key value entries) = get? other entries := by
  induction entries with
  | nil => simp [put, get?, h]
  | cons entry rest ih =>
    rw [put]
    split
    · rw [get?, if_neg h]
    · split
      · rename_i heq
        simp [get?, h, heq]
      · rw [get?, ih, get?]

/-- Writing adds no key but the one written. -/
theorem mem_put {key : String} {value : α} {entries : List (String × α)} {p : String × α}
    (h : p ∈ put key value entries) : p = (key, value) ∨ p ∈ entries := by
  induction entries with
  | nil => simpa [put] using h
  | cons entry rest ih =>
    rw [put] at h
    split at h
    · simpa using h
    · split at h
      · rcases List.mem_cons.mp h with h | h
        · exact .inl h
        · exact .inr (List.mem_cons_of_mem _ h)
      · rcases List.mem_cons.mp h with h | h
        · exact .inr (h ▸ List.mem_cons_self)
        · exact (ih h).imp id (List.mem_cons_of_mem _)

theorem ascending_put {entries : List (String × α)} (h : Ascending entries) (key : String)
    (value : α) : Ascending (put key value entries) := by
  induction entries with
  | nil => exact List.pairwise_singleton _ _
  | cons entry rest ih =>
    obtain ⟨hhead, hrest⟩ := List.pairwise_cons.mp h
    rw [put]
    split
    · rename_i hlt
      refine List.pairwise_cons.mpr ⟨?_, h⟩
      intro p hp
      rcases List.mem_cons.mp hp with hp | hp
      · exact hp ▸ hlt
      · exact String.lt_trans hlt (hhead p hp)
    · rename_i hnot
      split
      · rename_i heq
        refine List.pairwise_cons.mpr ⟨?_, hrest⟩
        intro p hp
        exact heq ▸ hhead p hp
      · rename_i hne
        refine List.pairwise_cons.mpr ⟨?_, ih hrest⟩
        intro p hp
        rcases mem_put hp with hp | hp
        · -- The key written is not less than this one and not equal to it.
          exact hp ▸ Std.lt_of_le_of_ne (String.not_lt.mp hnot) hne
        · exact hhead p hp

end AuditTables.Keyed
