/-!
# `AuditTables.Source.Throttle`: one notice per key and window

A fault that repeats with every event would drown all other notices. A throttle
lets one notice per key through and holds back the rest for the length of a
window. The next one let through says how many were held back. The count has 64
bits and stays at the greatest number that they hold.

The table of keys is bounded. A new key that finds it full empties it first, so
the keys in it start afresh and what they held back is forgotten. The bound is
part of the type.
-/

set_option autoImplicit false

namespace AuditTables.Source

/-- How many keys a throttle remembers. -/
def keyLimit : Nat := 256

/-- The greatest number of notices held back that is counted. -/
def countLimit : Nat := UInt64.size - 1

/-- What is remembered of a key: when a notice was last let through, and how
many have been held back since. -/
structure KeyState where
  lastEmit : Nat
  heldBack : Nat
  deriving DecidableEq, Repr

/-- A window, and the keys that are remembered. -/
structure Throttle where
  window : Nat
  keys : List (String × KeyState)
  length_le : keys.length ≤ keyLimit

namespace Throttle

/-- The throttle that remembers no key. -/
def new (window : Nat) : Throttle := ⟨window, [], Nat.zero_le _⟩

/-- The keys with what is remembered of one of them replaced. -/
def update (key : String) (state : KeyState) (keys : List (String × KeyState)) :
    List (String × KeyState) :=
  keys.map fun p => if p.1 = key then (key, state) else p

@[simp] theorem length_update (key : String) (state : KeyState)
    (keys : List (String × KeyState)) : (update key state keys).length = keys.length :=
  List.length_map _

/-- What is remembered of a key replaced. -/
def setState (t : Throttle) (key : String) (state : KeyState) : Throttle :=
  ⟨t.window, update key state t.keys, by rw [length_update]; exact t.length_le⟩

/-- A new key remembered, all others forgotten if there is no room. -/
def addKey (t : Throttle) (key : String) (state : KeyState) : Throttle :=
  if h : t.keys.length < keyLimit then
    ⟨t.window, t.keys ++ [(key, state)], by rw [List.length_append]; exact h⟩
  else ⟨t.window, [(key, state)], Nat.succ_le_of_lt (by decide : 0 < keyLimit)⟩

/-- Whether a notice of a key is let through at an instant, with the number held
back before it. -/
def ask (t : Throttle) (now : Nat) (key : String) : Throttle × Option Nat :=
  match t.keys.lookup key with
  | none => (t.addKey key ⟨now, 0⟩, some 0)
  | some state =>
    if now - state.lastEmit < t.window then
      (t.setState key { state with heldBack := min (state.heldBack + 1) countLimit }, none)
    else (t.setState key ⟨now, 0⟩, some state.heldBack)

end Throttle

end AuditTables.Source
