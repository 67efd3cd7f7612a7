import AuditTables.Source.Throttle
import Mathlib.Algebra.GroupWithZero.Nat
import Mathlib.Data.Finset.Card
import Mathlib.Data.List.Dedup

/-!
# `AuditTables.Proofs.Source.Throttling`: the keys of a throttle do not disturb each other

One throttle serves notices of many keys out of one table. `throttled_by_key` says that no key
notices the others, as long as there are no more of them than the table holds. Each key is answered
as it would be by a throttle of its own: a notice is let through if it is the first or if a window
has passed since the last one that was, and it says how many were held back between the two. So all
notices of a key are let through, counted by one that was, or still waiting to be counted.

The rule is stated about the answers alone (`Throttled`), without the table. What the table has to
remember of a key for it is `Remembers`, and `remembers_askKey` is its step: `askKey` is what a call
does to its own key. What a call does to the others is nothing, if there is room (`ask_other`), and
there is room as the table has exactly the keys that were called (`Follows`).

With more keys than that the table is emptied now and then, so the rule does not hold, but the
bound does.
-/

set_option autoImplicit false

namespace AuditTables.Proofs.Source

open AuditTables.Source

/-! ### Calls and answers -/

/-- A notice that wants to pass: when it does, and its key. -/
structure Call where
  instant : Nat
  key : String
  deriving DecidableEq, Repr

/-- A throttle with the calls that it has had, and what it has answered, in order. -/
structure Throttling where
  throttle : Throttle
  answered : List (Call × Option Nat)

namespace Throttling

def new (window : Nat) : Throttling := ⟨Throttle.new window, []⟩

/-- A call is answered. -/
def call (s : Throttling) (c : Call) : Throttling :=
  let (throttle, answer) := s.throttle.ask c.instant c.key
  ⟨throttle, s.answered ++ [(c, answer)]⟩

/-- A new throttle answers these calls, one after the other. -/
def run (window : Nat) (calls : List Call) : Throttling := calls.foldl call (new window)

theorem run_concat (window : Nat) (calls : List Call) (c : Call) :
    run window (calls ++ [c]) = (run window calls).call c := List.foldl_append

end Throttling

/-- The answers to the calls of a key, with their instants. -/
def answersTo (key : String) (answered : List (Call × Option Nat)) : List (Nat × Option Nat) :=
  (answered.filter (·.1.key = key)).map fun p => (p.1.instant, p.2)

theorem answersTo_concat (key : String) (answered : List (Call × Option Nat)) (c : Call)
    (answer : Option Nat) : answersTo key (answered ++ [(c, answer)])
      = if c.key = key then answersTo key answered ++ [(c.instant, answer)]
        else answersTo key answered := by
  rw [answersTo, List.filter_append, List.map_append]
  split
  · rename_i hkey
    simp [hkey, answersTo]
  · rename_i hkey
    simp [hkey, answersTo]

/-! ### The rule for one key -/

/-- When a notice was last let through. -/
def lastEmission (answers : List (Nat × Option Nat)) : Option Nat :=
  (answers.reverse.find? (·.2.isSome)).map (·.1)

/-- How many notices have been held back since then. -/
def heldSince (answers : List (Nat × Option Nat)) : Nat :=
  (answers.reverse.takeWhile (·.2.isNone)).length

/-- How many notices were let through. -/
def emissions (answers : List (Nat × Option Nat)) : Nat := answers.countP (·.2.isSome)

/-- How many notices they say were held back before them. -/
def reported (answers : List (Nat × Option Nat)) : Nat := (answers.filterMap (·.2)).sum

section

variable (answers : List (Nat × Option Nat)) (now : Nat)

@[simp] theorem lastEmission_emitted (n : Nat) :
    lastEmission (answers ++ [(now, some n)]) = some now := by
  simp [lastEmission]

@[simp] theorem lastEmission_held :
    lastEmission (answers ++ [(now, none)]) = lastEmission answers := by
  simp [lastEmission]

@[simp] theorem heldSince_emitted (n : Nat) : heldSince (answers ++ [(now, some n)]) = 0 := by
  simp [heldSince]

@[simp] theorem heldSince_held :
    heldSince (answers ++ [(now, none)]) = heldSince answers + 1 := by
  simp [heldSince]

/-- A notice was let through at the instant of some call. -/
theorem mem_of_lastEmission {last : Nat} (h : lastEmission answers = some last) :
    ∃ answer, (last, answer) ∈ answers := by
  obtain ⟨p, hp, rfl⟩ := Option.map_eq_some_iff.mp h
  exact ⟨p.2, List.mem_reverse.mp (List.mem_of_find?_eq_some hp)⟩

end

/-- How a call is answered after these: it is let through if it is the first, or if the window has
passed since the last one that was, and counts those held back since. The count stays at the
greatest one that there is. -/
structure Answers (window : Nat) (before : List (Nat × Option Nat)) (now : Nat)
    (answer : Option Nat) : Prop where
  emits : answer.isSome = true ↔
    before = [] ∨ ∃ last, lastEmission before = some last ∧ last + window ≤ now
  counts : ∀ n, answer = some n → n = min (heldSince before) countLimit

/-- All calls of a key are answered by the rule. -/
def Throttled (window : Nat) (answers : List (Nat × Option Nat)) : Prop :=
  ∀ before now answer after, answers = before ++ (now, answer) :: after →
    Answers window before now answer

theorem throttled_concat {window : Nat} {answers : List (Nat × Option Nat)} {now : Nat}
    {answer : Option Nat} (h : Throttled window answers)
    (hlast : Answers window answers now answer) :
    Throttled window (answers ++ [(now, answer)]) := by
  intro before now' answer' after hsplit
  rcases List.eq_nil_or_concat after with rfl | ⟨after, last, rfl⟩
  · -- It is the last call that is looked at.
    obtain ⟨rfl, hsame⟩ := List.append_inj' hsplit rfl
    cases hsame
    exact hlast
  · rw [List.concat_eq_append, ← List.cons_append, ← List.append_assoc] at hsplit
    obtain ⟨hbefore, -⟩ := List.append_inj' hsplit rfl
    exact h before now' answer' after hbefore

/-- No notice is lost: each was let through, or is counted by one that was, or has been held back
since. By induction on the calls, as long as a count can hold them. -/
theorem length_of_throttled {window : Nat} {answers : List (Nat × Option Nat)}
    (h : Throttled window answers) (hlength : answers.length ≤ countLimit) :
    answers.length = emissions answers + reported answers + heldSince answers := by
  induction answers using List.reverseRecOn with
  | nil => rfl
  | append_singleton answers last ih =>
      obtain ⟨now, answer⟩ := last
      rw [List.length_append, List.length_singleton] at hlength
      have hbefore : Throttled window answers := fun before now' answer' after hsplit =>
        h before now' answer' (after ++ [(now, answer)]) (by rw [hsplit]; simp)
      have hall := ih hbefore (by omega)
      cases answer with
      | none =>
          simp only [emissions, reported] at hall ⊢
          simp
          omega
      | some n =>
          -- It counts all that were held back since the last one, as they are not too many.
          have hcounts := (h answers now (some n) [] rfl).counts n rfl
          simp only [emissions, reported] at hall ⊢
          simp
          omega

/-! ### What is remembered of a key -/

/-- What a call does to what is remembered of its key, and how it is answered. -/
def askKey (window now : Nat) : Option KeyState → KeyState × Option Nat
  | none => (⟨now, 0⟩, some 0)
  | some state =>
    if now - state.lastEmit < window then
      ({ state with heldBack := min (state.heldBack + 1) countLimit }, none)
    else (⟨now, 0⟩, some state.heldBack)

/-- The calls of a key were answered by the rule, and what is remembered of the key is all that the
rule needs for the next one. -/
structure Remembers (window : Nat) (answers : List (Nat × Option Nat)) (state : Option KeyState) :
    Prop where
  throttled : Throttled window answers
  known : state = none → answers = []
  last : lastEmission answers = state.map (·.lastEmit)
  held : ∀ s, state = some s → s.heldBack = min (heldSince answers) countLimit

theorem remembers_new (window : Nat) : Remembers window [] none :=
  ⟨by intro before now answer after h; simp at h, fun _ => rfl, rfl, nofun⟩

/-- A call keeps this true of its key, if its instant is not before the others. -/
theorem remembers_askKey {window now : Nat} {answers : List (Nat × Option Nat)}
    {state : Option KeyState} (h : Remembers window answers state)
    (hnow : ∀ last, lastEmission answers = some last → last ≤ now) :
    Remembers window (answers ++ [(now, (askKey window now state).2)])
      (some (askKey window now state).1) := by
  cases state with
  | none =>
      obtain rfl : answers = [] := h.known rfl
      have hfirst : Answers window [] now (some 0) := by
        refine ⟨by simp, fun n hn => ?_⟩
        rw [← Option.some.inj hn]
        rfl
      exact ⟨throttled_concat h.throttled hfirst, nofun, rfl, by rintro _ ⟨⟩; rfl⟩
  | some state =>
      have hlast : lastEmission answers = some state.lastEmit := h.last
      have hle : state.lastEmit ≤ now := hnow _ hlast
      have hheld : state.heldBack = min (heldSince answers) countLimit := h.held state rfl
      have hsome : answers ≠ [] := by
        rintro rfl
        cases hlast
      rw [askKey]
      split
      · rename_i hwithin
        have hanswer : Answers window answers now none := by
          refine ⟨⟨nofun, ?_⟩, nofun⟩
          rintro (hnil | ⟨last, hlast', hpassed⟩)
          · exact absurd hnil hsome
          · rw [hlast] at hlast'
            obtain rfl := Option.some.inj hlast'
            omega
        refine ⟨throttled_concat h.throttled hanswer, nofun, ?_, ?_⟩
        · rw [lastEmission_held, hlast]
          rfl
        · rintro _ ⟨⟩
          show min (state.heldBack + 1) countLimit = _
          rw [heldSince_held, hheld]
          omega
      · rename_i hpassed
        have hanswer : Answers window answers now (some state.heldBack) := by
          refine ⟨⟨fun _ => Or.inr ⟨state.lastEmit, hlast, by omega⟩, fun _ => rfl⟩, ?_⟩
          rintro n ⟨⟩
          exact hheld
        refine ⟨throttled_concat h.throttled hanswer, nofun, ?_, ?_⟩
        · rw [lastEmission_emitted]
          rfl
        · rintro _ ⟨⟩
          rw [heldSince_emitted]
          rfl

/-! ### The table of keys -/

section

variable {t : Throttle} {now : Nat} {key other : String}

/-- The keys that a throttle remembers. -/
def names (t : Throttle) : List String := t.keys.map (·.1)

/-- What a throttle remembers of a key. -/
def remembered (t : Throttle) (key : String) : Option KeyState := t.keys.lookup key

/-- How many notices of a key are held back and have not been counted yet. -/
def pending (t : Throttle) (key : String) : Nat :=
  ((remembered t key).map (·.heldBack)).getD 0

/-- A throttle has a place for a key: it remembers the key, or it is not full. -/
def HasRoom (t : Throttle) (key : String) : Prop := key ∈ names t ∨ t.keys.length < keyLimit

theorem remembered_eq_none_iff : remembered t key = none ↔ key ∉ names t := by
  rw [remembered, names, List.lookup_eq_none_iff]
  simp only [bne_iff_ne, List.mem_map, not_exists, not_and]
  exact ⟨fun h p hp heq => h p hp heq.symm, fun h p hp heq => h p hp heq.symm⟩

theorem lookup_cons_ite (name other : String) (state : KeyState) (keys : List (String × KeyState)) :
    ((name, state) :: keys).lookup other
      = if other = name then some state else keys.lookup other := by
  rw [List.lookup_cons]
  by_cases h : other = name
  · simp [h]
  · rw [beq_false_of_ne h, if_neg h]

/-- Replacing what is remembered of a key changes nothing else. -/
theorem lookup_update (key other : String) (state : KeyState) (keys : List (String × KeyState)) :
    (Throttle.update key state keys).lookup other
      = if other = key then (keys.lookup key).map fun _ => state else keys.lookup other := by
  induction keys with
  | nil => simp [Throttle.update]
  | cons p keys ih =>
      obtain ⟨name, known⟩ := p
      have hhead : Throttle.update key state ((name, known) :: keys)
          = (name, if name = key then state else known) :: Throttle.update key state keys := by
        rw [Throttle.update, List.map_cons]
        by_cases hname : name = key <;> simp [hname, Throttle.update]
      rw [hhead, lookup_cons_ite, lookup_cons_ite, lookup_cons_ite, ih]
      by_cases hother : other = key
      · subst hother
        by_cases hname : other = name
        · simp [hname]
        · simp [hname]
      · by_cases hname : other = name
        · subst hname
          simp [hother]
        · simp [hname, hother]

theorem names_update (key : String) (state : KeyState) (keys : List (String × KeyState)) :
    (Throttle.update key state keys).map (·.1) = keys.map (·.1) := by
  rw [Throttle.update, List.map_map]
  refine List.map_congr_left fun p _ => ?_
  show (if p.1 = key then (key, state) else p).1 = p.1
  split
  · exact (‹p.1 = key›).symm
  · rfl

/-- What a call does to the table: it replaces what is remembered of its key, or adds the key. The
answer is that of `askKey`. -/
theorem ask_cases (t : Throttle) (now : Nat) (key : String) :
    (t.ask now key).2 = (askKey t.window now (remembered t key)).2 ∧
      ((∃ state, remembered t key = some state ∧ (t.ask now key).1
          = t.setState key (askKey t.window now (remembered t key)).1) ∨
        (remembered t key = none ∧ (t.ask now key).1
          = t.addKey key (askKey t.window now (remembered t key)).1)) := by
  unfold Throttle.ask remembered
  cases t.keys.lookup key with
  | none => exact ⟨rfl, Or.inr ⟨rfl, rfl⟩⟩
  | some state =>
      by_cases hwithin : now - state.lastEmit < t.window
      · simp [askKey, hwithin]
      · simp [askKey, hwithin]

@[simp] theorem window_ask : (t.ask now key).1.window = t.window := by
  obtain ⟨-, ⟨_, -, hask⟩ | ⟨-, hask⟩⟩ := ask_cases t now key
  · rw [hask]
    rfl
  · rw [hask, Throttle.addKey]
    split <;> rfl

/-- A call leaves of its own key what `askKey` says. -/
theorem ask_self : remembered (t.ask now key).1 key
    = some (askKey t.window now (remembered t key)).1 := by
  obtain ⟨-, ⟨state, hknown, hask⟩ | ⟨hnew, hask⟩⟩ := ask_cases t now key
  · have hlookup : t.keys.lookup key = some state := hknown
    rw [hask]
    show (Throttle.update key _ t.keys).lookup key = _
    rw [lookup_update, if_pos rfl, hlookup]
    rfl
  · have hlookup : t.keys.lookup key = none := hnew
    rw [hask, Throttle.addKey]
    split
    · show (t.keys ++ [(key, _)]).lookup key = _
      rw [List.lookup_append, hlookup, List.lookup_cons_self]
      rfl
    · exact List.lookup_cons_self

/-- A call leaves the other keys alone, if there is room for its own. -/
theorem ask_other (hroom : HasRoom t key) (h : other ≠ key) :
    remembered (t.ask now key).1 other = remembered t other := by
  obtain ⟨-, ⟨state, hknown, hask⟩ | ⟨hnew, hask⟩⟩ := ask_cases t now key
  · rw [hask]
    show (Throttle.update key _ t.keys).lookup other = _
    rw [lookup_update, if_neg h]
    rfl
  · have hlength : t.keys.length < keyLimit :=
      hroom.resolve_left (remembered_eq_none_iff.mp hnew)
    have hnone : [(key, (askKey t.window now (remembered t key)).1)].lookup other = none := by
      rw [List.lookup_cons, beq_false_of_ne h]
      rfl
    rw [hask, Throttle.addKey, dif_pos hlength]
    show (t.keys ++ [(key, _)]).lookup other = t.keys.lookup other
    rw [List.lookup_append, hnone, Option.or_none]

/-- A call leaves the keys as they are, adds its own behind them, or empties a full table first. -/
theorem names_ask : (key ∈ names t ∧ names (t.ask now key).1 = names t) ∨
    (key ∉ names t ∧ t.keys.length < keyLimit ∧ names (t.ask now key).1 = names t ++ [key]) ∨
    (key ∉ names t ∧ keyLimit ≤ t.keys.length ∧ names (t.ask now key).1 = [key]) := by
  obtain ⟨-, ⟨state, hknown, hask⟩ | ⟨hnew, hask⟩⟩ := ask_cases t now key
  · left
    constructor
    · by_contra hmem
      rw [remembered_eq_none_iff.mpr hmem] at hknown
      cases hknown
    · rw [hask]
      exact names_update key _ t.keys
  · right
    have hmem : key ∉ names t := remembered_eq_none_iff.mp hnew
    rw [hask, Throttle.addKey]
    split
    · rename_i hlength
      exact Or.inl ⟨hmem, hlength, List.map_append⟩
    · rename_i hlength
      exact Or.inr ⟨hmem, Nat.le_of_not_lt hlength, rfl⟩

/-- Each key is remembered once. -/
theorem nodup_ask (h : (names t).Nodup) : (names (t.ask now key).1).Nodup := by
  rcases @names_ask t now key with ⟨-, hask⟩ | ⟨hnew, -, hask⟩ | ⟨-, -, hask⟩
  · rwa [hask]
  · rw [hask, ← List.concat_eq_append]
    exact h.concat hnew
  · rw [hask]
    exact List.nodup_singleton key

end

/-! ### Runs -/

/-- The keys of some calls. -/
def keysOf (calls : List Call) : Finset String := (calls.map (·.key)).toFinset

/-- A throttle has had some calls, has answered them in order, and remembers exactly their
keys. -/
structure Follows (window : Nat) (calls : List Call) (s : Throttling) : Prop where
  sameWindow : s.throttle.window = window
  inOrder : s.answered.map (·.1) = calls
  known : (names s.throttle).toFinset = keysOf calls

/-- Whatever is called, no key is remembered twice. -/
theorem nodup_run (window : Nat) (calls : List Call) :
    (names (Throttling.run window calls).throttle).Nodup := by
  induction calls using List.reverseRecOn with
  | nil => exact List.nodup_nil
  | append_singleton calls c ih =>
      rw [Throttling.run_concat]
      exact nodup_ask ih

theorem keysOf_concat (calls : List Call) (c : Call) :
    keysOf (calls ++ [c]) = insert c.key (keysOf calls) := by
  ext key
  simp [keysOf]

/-- There is room for one more call, if all keys have room together. -/
theorem Follows.hasRoom {window : Nat} {calls : List Call}
    (h : Follows window calls (.run window calls)) {c : Call}
    (hkeys : (keysOf (calls ++ [c])).card ≤ keyLimit) :
    HasRoom (Throttling.run window calls).throttle c.key := by
  by_cases hmem : c.key ∈ names (Throttling.run window calls).throttle
  · exact Or.inl hmem
  · right
    -- The key is one more than those in the table.
    have hnew : c.key ∉ keysOf calls := by
      rwa [← h.known, List.mem_toFinset]
    have hcard : (keysOf calls).card = (Throttling.run window calls).throttle.keys.length := by
      rw [← h.known, List.toFinset_card_of_nodup (nodup_run window calls), names, List.length_map]
    rw [keysOf_concat, Finset.card_insert_of_notMem hnew, hcard] at hkeys
    exact hkeys

theorem follows_new (window : Nat) : Follows window [] (.new window) :=
  ⟨rfl, rfl, rfl⟩

/-- One more call keeps the keys of the table, if there is room. -/
theorem follows_call {window : Nat} {calls : List Call} {s : Throttling}
    (h : Follows window calls s) {c : Call} (hroom : HasRoom s.throttle c.key) :
    Follows window (calls ++ [c]) (s.call c) := by
  refine ⟨window_ask.trans h.sameWindow, ?_, ?_⟩
  · rw [Throttling.call, List.map_append, h.inOrder]
    rfl
  · rw [Throttling.call, keysOf_concat, ← h.known]
    rcases @names_ask s.throttle c.instant c.key with ⟨hmem, hask⟩ | ⟨-, -, hask⟩ | ⟨hnew, hfull, -⟩
    · rw [hask, Finset.insert_eq_of_mem (List.mem_toFinset.mpr hmem)]
    · rw [hask]
      ext key
      simp
    · rcases hroom with hmem | hlength
      · exact absurd hmem hnew
      · exact absurd hfull (Nat.not_le_of_lt hlength)

/-- The calls before the last one have no more keys than all of them. -/
theorem card_keysOf_le (calls : List Call) (c : Call) :
    (keysOf calls).card ≤ (keysOf (calls ++ [c])).card := by
  rw [keysOf_concat]
  exact Finset.card_le_card (Finset.subset_insert _ _)

/-- A run on keys that have room remembers exactly these. -/
theorem follows_run {window : Nat} {calls : List Call} (hkeys : (keysOf calls).card ≤ keyLimit) :
    Follows window calls (.run window calls) := by
  induction calls using List.reverseRecOn with
  | nil => exact follows_new window
  | append_singleton calls c ih =>
      have hbefore := ih (Nat.le_trans (card_keysOf_le calls c) hkeys)
      rw [Throttling.run_concat]
      exact follows_call hbefore (hbefore.hasRoom hkeys)

/-- The answers to a key after one more call, and what is remembered of it. A call of the key adds
what `askKey` says, and any other call adds nothing. -/
theorem answersTo_call {s : Throttling} {c : Call} (hroom : HasRoom s.throttle c.key)
    (key : String) :
    (c.key = key →
      answersTo key (s.call c).answered = answersTo key s.answered
          ++ [(c.instant, (askKey s.throttle.window c.instant (remembered s.throttle key)).2)] ∧
        remembered (s.call c).throttle key
          = some (askKey s.throttle.window c.instant (remembered s.throttle key)).1) ∧
      (c.key ≠ key → answersTo key (s.call c).answered = answersTo key s.answered ∧
        remembered (s.call c).throttle key = remembered s.throttle key) := by
  rw [Throttling.call, answersTo_concat]
  constructor
  · rintro rfl
    rw [if_pos rfl, (ask_cases s.throttle c.instant c.key).1]
    exact ⟨rfl, ask_self⟩
  · intro hne
    rw [if_neg hne]
    exact ⟨rfl, ask_other hroom (Ne.symm hne)⟩

/-- The calls of a key have no more keys than all calls. -/
theorem card_keysOf_filter_le (calls : List Call) (key : String) :
    (keysOf (calls.filter (·.key = key))).card ≤ (keysOf calls).card := by
  refine Finset.card_le_card fun name hname => ?_
  rw [keysOf, List.mem_toFinset, List.mem_map] at hname ⊢
  obtain ⟨c, hc, rfl⟩ := hname
  exact ⟨c, List.mem_of_mem_filter hc, rfl⟩

/-- A key is answered and remembered as by a throttle that it has for itself. By induction on the
calls: one of the key is made to both throttles, any other to the shared one alone. -/
theorem run_filter {window : Nat} {calls : List Call} (hkeys : (keysOf calls).card ≤ keyLimit)
    (key : String) :
    answersTo key (Throttling.run window calls).answered
        = answersTo key (Throttling.run window (calls.filter (·.key = key))).answered ∧
      remembered (Throttling.run window calls).throttle key
        = remembered (Throttling.run window (calls.filter (·.key = key))).throttle key := by
  induction calls using List.reverseRecOn with
  | nil => exact ⟨rfl, rfl⟩
  | append_singleton calls c ih =>
      have hkeys' := Nat.le_trans (card_keysOf_le calls c) hkeys
      have hfollows := @follows_run window _ hkeys'
      obtain ⟨hanswers, hremembered⟩ := ih hkeys'
      have hshared := answersTo_call (hfollows.hasRoom hkeys) key
      rw [Throttling.run_concat, List.filter_append]
      by_cases hkey : c.key = key
      · have hone : [c].filter (·.key = key) = [c] := by simp [hkey]
        have hfew := Nat.le_trans (card_keysOf_filter_le (calls ++ [c]) key) hkeys
        rw [List.filter_append, hone] at hfew
        have hfew' := Nat.le_trans (card_keysOf_le _ c) hfew
        have halone := @follows_run window _ hfew'
        obtain ⟨hown, hown'⟩ := (answersTo_call (halone.hasRoom hfew) key).1 hkey
        obtain ⟨hcalled, hcalled'⟩ := hshared.1 hkey
        -- Both throttles know the same of the key, so they say the same.
        rw [hone, Throttling.run_concat, hown, hown', hcalled, hcalled', hanswers, hremembered,
          hfollows.sameWindow, halone.sameWindow]
        exact ⟨rfl, rfl⟩
      · have hnone : [c].filter (·.key = key) = [] := by simp [hkey]
        obtain ⟨hsame, hsame'⟩ := hshared.2 hkey
        rw [hnone, List.append_nil, hsame, hsame']
        exact ⟨hanswers, hremembered⟩

/-- An answer to a key has the instant of one of the calls. -/
theorem mem_of_mem_answersTo {window : Nat} {calls : List Call} {s : Throttling}
    (h : Follows window calls s) {key : String} {instant : Nat} {answer : Option Nat}
    (hmem : (instant, answer) ∈ answersTo key s.answered) : ∃ c ∈ calls, c.instant = instant := by
  obtain ⟨p, hp, heq⟩ := List.mem_map.mp hmem
  have hcall : p.1 ∈ s.answered.map (·.1) := List.mem_map_of_mem (List.mem_of_mem_filter hp)
  rw [h.inOrder] at hcall
  exact ⟨p.1, hcall, congrArg Prod.fst heq⟩

/-- What is remembered of each key is what its calls come to. By induction on the calls. -/
theorem remembers_run {window : Nat} {calls : List Call} (hkeys : (keysOf calls).card ≤ keyLimit)
    (hordered : calls.Pairwise fun c c' => c.instant ≤ c'.instant) (key : String) :
    Remembers window (answersTo key (Throttling.run window calls).answered)
      (remembered (Throttling.run window calls).throttle key) := by
  induction calls using List.reverseRecOn with
  | nil => exact remembers_new window
  | append_singleton calls c ih =>
      have hkeys' := Nat.le_trans (card_keysOf_le calls c) hkeys
      have hfollows := @follows_run window _ hkeys'
      obtain ⟨hordered', -, hlast⟩ := List.pairwise_append.mp hordered
      have hbefore := ih hkeys' hordered'
      have hcall := answersTo_call (hfollows.hasRoom hkeys) key
      rw [Throttling.run_concat]
      by_cases hkey : c.key = key
      · obtain ⟨hanswers, hremembered⟩ := hcall.1 hkey
        rw [hanswers, hremembered, hfollows.sameWindow]
        refine remembers_askKey hbefore fun last hemitted => ?_
        obtain ⟨answer, hmem⟩ := mem_of_lastEmission _ hemitted
        obtain ⟨c', hc', rfl⟩ := mem_of_mem_answersTo hfollows hmem
        exact hlast c' hc' c (List.mem_singleton_self c)
      · obtain ⟨hanswers, hremembered⟩ := hcall.2 hkey
        rw [hanswers, hremembered]
        exact hbefore

/-- What is still pending is what was held back since the last notice. -/
theorem pending_of_remembers {window : Nat} {answers : List (Nat × Option Nat)} {t : Throttle}
    {key : String} (h : Remembers window answers (remembered t key))
    (hlength : answers.length ≤ countLimit) : pending t key = heldSince answers := by
  have hle : heldSince answers ≤ answers.length := by
    have hall := length_of_throttled h.throttled hlength
    omega
  rw [pending]
  cases hstate : remembered t key with
  | none =>
      rw [h.known hstate]
      rfl
  | some state =>
      show state.heldBack = heldSince answers
      rw [h.held state hstate]
      omega

/-- Each call of a key has an answer. -/
theorem length_answersTo {window : Nat} {calls : List Call} {s : Throttling}
    (h : Follows window calls s) (key : String) :
    (answersTo key s.answered).length = calls.countP (·.key = key) := by
  rw [← h.inOrder, List.countP_map, answersTo, List.length_map, ← List.countP_eq_length_filter]
  rfl

/-- Keys in one table do not disturb each other, and no call is lost. If there are no more keys than
the table holds and no call is made before an earlier one, each key is answered as by a throttle
that has its calls only, and by the rule. So each call of the key was let through, was counted by a
later one that was, or is still counted in the table, as long as a count can hold the calls. Any
number of keys may be called, and the table has each key once and is never larger than its
bound. -/
theorem throttled_by_key (window : Nat) (calls : List Call) :
    ((keysOf calls).card ≤ keyLimit → calls.Pairwise (fun c c' => c.instant ≤ c'.instant) →
      (Throttling.run window calls).answered.map (·.1) = calls ∧
      ∀ key, answersTo key (Throttling.run window calls).answered
          = answersTo key (Throttling.run window (calls.filter (·.key = key))).answered ∧
        Throttled window (answersTo key (Throttling.run window calls).answered) ∧
        (calls.countP (·.key = key) ≤ countLimit → calls.countP (·.key = key)
          = emissions (answersTo key (Throttling.run window calls).answered)
            + reported (answersTo key (Throttling.run window calls).answered)
            + pending (Throttling.run window calls).throttle key)) ∧
    (names (Throttling.run window calls).throttle).Nodup ∧
    (names (Throttling.run window calls).throttle).length ≤ keyLimit := by
  refine ⟨fun hkeys hordered => ?_, nodup_run window calls, ?_⟩
  · have hfollows := @follows_run window _ hkeys
    refine ⟨hfollows.inOrder, fun key => ?_⟩
    have hremembers := @remembers_run window _ hkeys hordered key
    refine ⟨(run_filter hkeys key).1, hremembers.throttled, fun hcount => ?_⟩
    rw [← length_answersTo hfollows key] at hcount ⊢
    rw [pending_of_remembers hremembers hcount]
    exact length_of_throttled hremembers.throttled hcount
  · rw [names, List.length_map]
    exact (Throttling.run window calls).throttle.length_le

/-- Calls of two keys in turn. The window of the first is over at the very instant of its last
call, that of the second is not. -/
def interleavedCalls : List Call :=
  [⟨0, "a"⟩, ⟨3, "b"⟩, ⟨5, "a"⟩, ⟨9, "a"⟩, ⟨10, "a"⟩, ⟨12, "b"⟩]

/-- The last call of the first key is let through and counts the two that were held back. The last
call of the second key is held back, though a call of the first has just been let through. -/
theorem throttled_by_key_interleaved :
    answersTo "a" (Throttling.run 10 interleavedCalls).answered
        = [(0, some 0), (5, none), (9, none), (10, some 2)] ∧
      Throttled 10 [(0, some 0), (5, none), (9, none), (10, some 2)] ∧
      interleavedCalls.countP (·.key = "b")
        = emissions (answersTo "b" (Throttling.run 10 interleavedCalls).answered)
          + reported (answersTo "b" (Throttling.run 10 interleavedCalls).answered)
          + pending (Throttling.run 10 interleavedCalls).throttle "b" ∧
      pending (Throttling.run 10 interleavedCalls).throttle "b" = 1 := by
  have hanswers : answersTo "a" (Throttling.run 10 interleavedCalls).answered
      = [(0, some 0), (5, none), (9, none), (10, some 2)] := by decide
  obtain ⟨-, hkeys⟩ := (throttled_by_key 10 interleavedCalls).1 (by decide) (by decide)
  refine ⟨hanswers, ?_, (hkeys "b").2.2 (by decide), by decide⟩
  rw [← hanswers]
  exact (hkeys "a").2.1

end AuditTables.Proofs.Source
