import AuditTables.Proofs.Json.Token
import AuditTables.Proofs.Keyed

/-!
# `AuditTables.Proofs.Json.RoundTrip`: printed values read back

`read_print` is the main statement: a value of an `Exact` kind is what its printed
form reads as. What `Exact` asks for is what JSON text can carry without loss. A
double is left out, because its digits are read in double arithmetic. A whole
number has to fit 64 bits, signed or unsigned, the keys of an object have to
ascend, and containers may nest as deep as the reader allows.

The induction goes over the value, with the stack of containers around it left
open (`readsBack_of_exact`). A number is what keeps its statement from being an
equation between states: after the digits the reader has not closed the number
yet. `Alike` is the way around. It asks only that the reader does the same as one
that has closed the value, whatever may follow a value. Lists and objects are then
inductions over their items and entries (`feed_printItems`, `feed_printEntries`),
in which each comma or bracket is looked at by a reader that has closed the value
before it.

`newline_not_mem_print` is what lets printed values stand one to a line: an exact value
is printed without line breaks, whatever its texts hold.
-/

set_option autoImplicit false

namespace AuditTables.Proofs.Json

open AuditTables.Json AuditTables.Json.Reader AuditTables.Text AuditTables.Decimal
open AuditTables.Proofs.Keyed

/-- Values whose printed form holds all there is to know of them, with room for so
many more levels of nesting. -/
inductive Exact : Nat → Value → Prop where
  | null (room : Nat) : Exact room .null
  | boolean (room : Nat) (b : Bool) : Exact room (.boolean b)
  | whole (room : Nat) (n : Int) (hmin : int64Min ≤ n) (hmax : n ≤ word64Max) :
      Exact room (.number (.whole n))
  | text (room : Nat) (s : String) : Exact room (.text s)
  | list (room : Nat) (items : List Value) (hitems : ∀ v ∈ items, Exact room v) :
      Exact (room + 1) (.list items)
  | object (room : Nat) (entries : List (String × Value)) (hkeys : Keyed.Ascending entries)
      (hentries : ∀ p ∈ entries, Exact room p.2) : Exact (room + 1) (.object entries)

variable {S : List Frame}

/-! ### Stepping through accepted text -/

/-- A character that is accepted is followed by the rest of the text. -/
theorem feed_of_step {r t : Reader} {c : Char} (h : r.step c = .ok t) (cs : List Char) :
    machine.feed r (c :: cs) = machine.feed t cs := by
  rw [Machine.feed_cons]
  show (r.step c).bind _ = _
  rw [h]
  rfl

/-- The characters that may follow a value. -/
def Follows (c : Char) : Prop := c = ',' ∨ c = ']' ∨ c = '\x7d'

/-- Readers that do the same with whatever may follow a value, the end of the text
included. -/
structure Alike (r t : Reader) : Prop where
  step : ∀ c, Follows c → r.step c = t.step c
  finish : r.finish = t.finish

theorem Alike.refl (r : Reader) : Alike r r := ⟨fun _ _ => rfl, rfl⟩

/-- What follows a value may be given to any reader alike. -/
theorem feed_alike {r t u : Reader} {xs : List Char} (h : machine.feed r xs = .ok t)
    (ha : Alike t u) {c : Char} (hc : Follows c) (ys : List Char) :
    machine.feed r (xs ++ c :: ys) = machine.feed u (c :: ys) := by
  have hstep : machine.step t c = machine.step u c := ha.step c hc
  rw [Machine.feed_append_of_ok h, Machine.feed_cons, hstep, ← Machine.feed_cons]

/-- The reader waits for a value inside the containers `S`. -/
def Awaits (S : List Frame) (r : Reader) : Prop :=
  ∀ c, isSpace c = false → c ≠ ']' → r.take c = beginValue ⟨r.offset, S, .value⟩ c

theorem awaits_value (o : Nat) (S : List Frame) : Awaits S ⟨o, S, .value⟩ := by
  intro c hc _
  simp [take, between, hc]

theorem awaits_nextItem (o : Nat) (S : List Frame) : Awaits S ⟨o, S, .nextItem⟩ := by
  intro c hc hb
  simp only [take, between, hc, if_neg hb]
  rfl

/-- The first item of a list is read inside a list without items. -/
theorem awaits_firstItem (o : Nat) (S : List Frame) :
    Awaits (.list [] :: S) ⟨o, S, .firstItem⟩ := by
  intro c hc hb
  simp only [take, between, hc, if_neg hb]
  rfl

/-- The first character of a value is taken as one where a value is expected. -/
theorem feed_of_awaits {r t : Reader} {c : Char} (h : Awaits S r)
    (hspace : isSpace c = false) (hclose : c ≠ ']')
    (ht : beginValue ⟨r.offset, S, .value⟩ c = .ok t) (cs : List Char) :
    machine.feed r (c :: cs) = machine.feed { t with offset := r.offset + c.utf8Size } cs := by
  refine feed_of_step ?_ cs
  show (r.take c).map _ = _
  rw [h c hspace hclose, ht]
  rfl

/-- The reader once a value inside the containers `S` is closed. -/
def closed (o : Nat) (S : List Frame) (v : Value) : Reader := (⟨o, S, .value⟩ : Reader).close v

/-- Wherever the value is waited for inside `S`, its printed form is accepted, and
the reader then does what one that has closed the value does. -/
def ReadsBack (S : List Frame) (v : Value) : Prop :=
  ∀ r, Awaits S r → ∃ t o, machine.feed r v.print = .ok t ∧ Alike t (closed o S v)

/-! ### Values without parts -/

/-- A word is read letter by letter. -/
theorem readsBack_null : ReadsBack S .null := by
  intro r h
  refine ⟨_, r.offset + 4, ?_, Alike.refl _⟩
  have hbegin : beginValue ⟨r.offset, S, .value⟩ 'n'
      = .ok ⟨r.offset, S, .word ['u', 'l', 'l'] .null⟩ := rfl
  rw [Value.print, feed_of_awaits h (by decide) (by decide) hbegin]
  rfl

theorem readsBack_boolean (b : Bool) : ReadsBack S (.boolean b) := by
  intro r h
  cases b with
  | true =>
      refine ⟨_, r.offset + 4, ?_, Alike.refl _⟩
      have hbegin : beginValue ⟨r.offset, S, .value⟩ 't'
          = .ok ⟨r.offset, S, .word ['r', 'u', 'e'] (.boolean true)⟩ := rfl
      rw [Value.print, feed_of_awaits h (by decide) (by decide) hbegin]
      rfl
  | false =>
      refine ⟨_, r.offset + 5, ?_, Alike.refl _⟩
      have hbegin : beginValue ⟨r.offset, S, .value⟩ 'f'
          = .ok ⟨r.offset, S, .word ['a', 'l', 's', 'e'] (.boolean false)⟩ := rfl
      rw [Value.print, feed_of_awaits h (by decide) (by decide) hbegin]
      rfl

theorem readsBack_text (s : String) : ReadsBack S (.text s) := by
  intro r h
  have hbegin : beginValue ⟨r.offset, S, .value⟩ '"'
      = .ok ⟨r.offset, S, .text none [] .plain⟩ := rfl
  have hend : Reaches S (.text none (s.toList.reverse ++ []) .plain) ['"']
      (complete S (.text s)).1 (complete S (.text s)).2 :=
    Reaches.one fun _ => by simp [take, inText, closeText, close, String.ofList_toList]
  obtain ⟨o, ho⟩ := ((reaches_escapes none [] s.toList).append hend) (r.offset + '"'.utf8Size)
  refine ⟨_, o, ?_, Alike.refl _⟩
  rw [Value.print, printText, List.cons_append, feed_of_awaits h (by decide) (by decide) hbegin]
  exact ho

/-- A digit where a value is expected begins a number without a sign. -/
theorem feed_digit_of_awaits {r : Reader} (h : Awaits S r) {c : Char} (hc : c.isDigit = true)
    (cs : List Char) :
    machine.feed r (c :: cs) = machine.feed ⟨r.offset, S, .number false .sign⟩ (c :: cs) := by
  have hne : ∀ x : Char, x.isDigit = false → c ≠ x := by
    intro x hx he
    rw [he, hx] at hc
    exact absurd hc (by decide)
  obtain ⟨d, hd⟩ := exists_digitOf hc
  obtain ⟨s, hs⟩ : ∃ s, Scan.sign.advance c = .read s := by
    cases d with
    | zero => exact ⟨.zero, by simp [Scan.advance, hd]⟩
    | succ d => exact ⟨.whole (d + 1), by simp [Scan.advance, hd]⟩
  have hspace : isSpace c = false := by
    simp [isSpace, hne ' ' rfl, hne '\t' rfl, hne '\r' rfl, hne '\n' rfl]
  have hbegin : beginValue ⟨r.offset, S, .value⟩ c = .ok ⟨r.offset, S, .number false s⟩ := by
    simp [beginValue, hne '[' rfl, hne '\x7b' rfl, hne '"' rfl, hne 't' rfl, hne 'f' rfl,
      hne 'n' rfl, hne '-' rfl, hs]
  have hstep : (⟨r.offset, S, .number false .sign⟩ : Reader).step c
      = .ok ⟨r.offset + c.utf8Size, S, .number false s⟩ := by
    simp [step, take, inNumber, hs, Except.map]
  rw [feed_of_awaits h hspace (hne ']' rfl) hbegin, feed_of_step hstep]

/-- What may follow a value ends a number. -/
theorem advance_scanOf (n : Nat) {c : Char} (hc : Follows c) :
    (scanOf n).advance c = .ended := by
  unfold scanOf
  rcases hc with rfl | rfl | rfl <;> split <;> rfl

/-- After a value the reader is between tokens. -/
theorem take_closed (o : Nat) (v : Value) (c : Char) :
    (closed o S v).take c = (closed o S v).between c := by
  rcases S with _ | ⟨_ | _, _⟩ <;> rfl

/-- A reader that stands after the digits of a number does what one does that has
closed the number. -/
theorem alike_number (o : Nat) {negative : Bool} {n : Nat} {number : Number}
    (h : (scanOf n).verdict negative = .done number) :
    Alike ⟨o, S, .number negative (scanOf n)⟩ (closed o S (.number number)) := by
  constructor
  · intro c hc
    -- The character ends the number and is then taken as after any other value.
    have htake : take ⟨o, S, .number negative (scanOf n)⟩ c
        = (closed o S (.number number)).take c := by
      rw [take_closed]
      simp only [take, inNumber, advance_scanOf n hc, h]
      rfl
    rw [Reader.step, Reader.step, htake]
    rfl
  · simp only [Reader.finish, h]
    rcases S with _ | ⟨_ | _, _⟩ <;> rfl

theorem readsBack_whole {n : Int} (hmin : int64Min ≤ n) (hmax : n ≤ word64Max) :
    ReadsBack S (.number (.whole n)) := by
  intro r h
  have hword : n.natAbs ≤ word64Max := by
    have hmin' : -9223372036854775808 ≤ n := hmin
    have hmax' : n ≤ 18446744073709551615 := hmax
    show n.natAbs ≤ 18446744073709551615
    omega
  by_cases hneg : n < 0
  · obtain ⟨o, ho⟩ := reaches_toDigits (S := S) true n.natAbs hword (r.offset + '-'.utf8Size)
    refine ⟨_, o, ?_, alike_number o (verdict_scanOf_of_neg hneg hmin)⟩
    have hbegin : beginValue ⟨r.offset, S, .value⟩ '-'
        = .ok ⟨r.offset, S, .number true .sign⟩ := rfl
    rw [Value.print, Number.print, printWhole, if_pos hneg,
      feed_of_awaits h (by decide) (by decide) hbegin]
    exact ho
  · -- Without a sign the first digit is also what the value begins with.
    obtain ⟨o, ho⟩ := reaches_toDigits (S := S) false n.natAbs hword r.offset
    refine ⟨_, o, ?_, alike_number o (verdict_scanOf_of_nonneg (Int.not_lt.mp hneg))⟩
    obtain ⟨c, cs, hcs⟩ :=
      List.exists_cons_of_ne_nil (Nat.toDigits_ne_nil (n := n.natAbs) (b := 10))
    have hc : c.isDigit = true :=
      Nat.isDigit_of_mem_toDigits (b := 10) (n := n.natAbs) (by decide) (by decide)
        (hcs ▸ List.mem_cons_self)
    rw [hcs] at ho
    rw [Value.print, Number.print, printWhole, if_neg hneg, hcs, feed_digit_of_awaits h hc]
    exact ho

/-! ### Lists and objects -/

/-- The items of a list with the bracket that closes it, by induction on the items.
Those before them, latest first, are in the innermost container. -/
theorem feed_printItems {items : List Value} (hne : items ≠ [])
    (hitems : ∀ v ∈ items, ∀ before, ReadsBack (.list before :: S) v) {before : List Value}
    {r : Reader} (h : Awaits (.list before :: S) r) :
    ∃ o, machine.feed r (printItems items ++ [']'])
      = .ok (closed o S (.list (before.reverse ++ items))) := by
  induction items generalizing before r with
  | nil => exact absurd rfl hne
  | cons v rest ih =>
      obtain ⟨t, o, hfeed, halike⟩ := hitems v List.mem_cons_self before r h
      cases rest with
      | nil =>
          -- The bracket ends the last item, and the item joins those before it.
          have hclose : (closed o (.list before :: S) v).step ']'
              = .ok (closed (o + ']'.utf8Size) S (.list (v :: before).reverse)) := rfl
          refine ⟨o + ']'.utf8Size, ?_⟩
          rw [printItems, feed_alike hfeed halike (by simp [Follows]), feed_of_step hclose,
            List.reverse_cons]
          rfl
      | cons w rest =>
          have hnext : (closed o (.list before :: S) v).step ','
              = .ok ⟨o + ','.utf8Size, .list (v :: before) :: S, .nextItem⟩ := rfl
          obtain ⟨o', ho'⟩ := ih (by simp) (fun u hu => hitems u (List.mem_cons_of_mem _ hu))
            (awaits_nextItem (o + ','.utf8Size) (.list (v :: before) :: S))
          refine ⟨o', ?_⟩
          rw [printItems, List.append_assoc, List.cons_append,
            feed_alike hfeed halike (by simp [Follows]), feed_of_step hnext, ho',
            List.reverse_cons, List.append_assoc]
          rfl

/-- The entries of an object with the bracket that closes it, by induction on the
entries. Those before them are in the mode, with each entry written into them. -/
theorem feed_printEntries {entries : List (String × Value)} (hne : entries ≠ [])
    (hentries : ∀ p ∈ entries, ∀ before, ReadsBack (.object before p.1 :: S) p.2)
    {before : List (String × Value)} {m : Mode} (hm : m = .firstKey before ∨ m = .nextKey before)
    (o : Nat) :
    ∃ o', machine.feed ⟨o, S, m⟩ (printEntries entries ++ ['\x7d'])
      = .ok (closed o' S
          (.object (entries.foldl (fun es p => Keyed.put p.1 p.2 es) before))) := by
  induction entries generalizing before m o with
  | nil => exact absurd rfl hne
  | cons entry rest ih =>
      obtain ⟨key, v⟩ := entry
      -- A key, a colon and a value, whatever comes after them.
      obtain ⟨o₁, ho₁⟩ := reaches_key (S := S) hm key o
      have hcolon : (⟨o₁, S, .colon before key⟩ : Reader).step ':'
          = .ok ⟨o₁ + ':'.utf8Size, .object before key :: S, .value⟩ := rfl
      obtain ⟨t, o₂, hfeed, halike⟩ := hentries (key, v) List.mem_cons_self before _
        (awaits_value (o₁ + ':'.utf8Size) (.object before key :: S))
      cases rest with
      | nil =>
          have hclose : (closed o₂ (.object before key :: S) v).step '\x7d'
              = .ok (closed (o₂ + '\x7d'.utf8Size) S (.object (Keyed.put key v before))) := rfl
          refine ⟨o₂ + '\x7d'.utf8Size, ?_⟩
          rw [printEntries, List.append_assoc, Machine.feed_append_of_ok ho₁, List.cons_append,
            feed_of_step hcolon, feed_alike hfeed halike (by simp [Follows]),
            feed_of_step hclose]
          rfl
      | cons next rest =>
          have hnext : (closed o₂ (.object before key :: S) v).step ','
              = .ok ⟨o₂ + ','.utf8Size, S, .nextKey (Keyed.put key v before)⟩ := rfl
          obtain ⟨o', ho'⟩ := ih (by simp) (fun p hp => hentries p (List.mem_cons_of_mem _ hp))
            (Or.inr rfl) (o₂ + ','.utf8Size)
          refine ⟨o', ?_⟩
          rw [printEntries, List.append_assoc, List.append_assoc, Machine.feed_append_of_ok ho₁,
            List.cons_append, List.cons_append, feed_of_step hcolon,
            feed_alike hfeed halike (by simp [Follows]), feed_of_step hnext, ho']
          rfl

/-! ### The round trip -/

/-- An exact value reads back inside any containers that leave it the room it
needs. -/
theorem readsBack_of_exact {room : Nat} {v : Value} (h : Exact room v) :
    ∀ S : List Frame, S.length + room ≤ depthLimit → ReadsBack S v := by
  induction h with
  | null room => exact fun S _ => readsBack_null
  | boolean room b => exact fun S _ => readsBack_boolean b
  | whole room n hmin hmax => exact fun S _ => readsBack_whole hmin hmax
  | text room s => exact fun S _ => readsBack_text s
  | list room items _ ih =>
      intro S hroom r h
      have hopen : beginValue ⟨r.offset, S, .value⟩ '[' = .ok ⟨r.offset, S, .firstItem⟩ := by
        have hlt : ¬ depthLimit ≤ S.length := by omega
        simp [beginValue, nest, hlt]
      rw [Value.print, List.cons_append, feed_of_awaits h (by decide) (by decide) hopen]
      cases items with
      | nil => exact ⟨_, r.offset + 2, rfl, Alike.refl _⟩
      | cons v rest =>
          have hitems : ∀ u ∈ v :: rest, ∀ before, ReadsBack (.list before :: S) u :=
            fun u hu before => ih u hu _ (by rw [List.length_cons]; omega)
          obtain ⟨o, ho⟩ := feed_printItems (by simp) hitems
            (awaits_firstItem (r.offset + '['.utf8Size) S)
          exact ⟨_, o, ho, Alike.refl _⟩
  | object room entries hkeys _ ih =>
      intro S hroom r h
      have hopen : beginValue ⟨r.offset, S, .value⟩ '\x7b'
          = .ok ⟨r.offset, S, .firstKey []⟩ := by
        have hlt : ¬ depthLimit ≤ S.length := by omega
        simp [beginValue, nest, hlt]
      rw [Value.print, List.cons_append, feed_of_awaits h (by decide) (by decide) hopen]
      cases entries with
      | nil => exact ⟨_, r.offset + 2, rfl, Alike.refl _⟩
      | cons entry rest =>
          have hentries : ∀ p ∈ entry :: rest, ∀ before,
              ReadsBack (.object before p.1 :: S) p.2 :=
            fun p hp before => ih p hp _ (by rw [List.length_cons]; omega)
          obtain ⟨o, ho⟩ := feed_printEntries (by simp) hentries (Or.inl rfl)
            (r.offset + '\x7b'.utf8Size)
          -- The entries were written one by one, which rebuilds an ascending list.
          rw [foldl_put_of_ascending [] hkeys] at ho
          exact ⟨_, o, ho, Alike.refl _⟩

/-- An exact value is what its printed form reads as. -/
theorem read_print {v : Value} (h : Exact depthLimit v) : Json.read v.print = .ok v := by
  obtain ⟨t, o, hfeed, halike⟩ :=
    readsBack_of_exact h [] (by simp) Reader.start (awaits_value 0 [])
  show machine.run Reader.start v.print = .ok v
  rw [Machine.run_eq_bind, hfeed]
  exact halike.finish

/-! ### Line breaks -/

theorem hexDigit_ne_newline : ∀ n < 16, hexDigit n ≠ '\n' := by decide

/-- A printed character has no line break: one that is a line break is written as a letter
after a backslash. -/
theorem newline_not_mem_escape (c : Char) : '\n' ∉ escape c := by
  rcases escape_cases c with ⟨x, -, hshort, he⟩ | ⟨hlow, he⟩ | ⟨-, -, hlow, he⟩ <;>
    rw [he] <;> intro hmem
  · have hx : '\n' = x := by simpa using hmem
    subst hx
    cases hshort
  · have hhigh := hexDigit_ne_newline (c.toNat / 16) (by omega)
    have hunit := hexDigit_ne_newline (c.toNat % 16) (by omega)
    simp [hhigh.symm, hunit.symm] at hmem
  · have hc : '\n' = c := by simpa using hmem
    subst hc
    exact hlow (by decide)

theorem newline_not_mem_printText (s : String) : '\n' ∉ printText s := by
  intro hmem
  have hescaped : '\n' ∈ s.toList.flatMap escape := by simpa [printText] using hmem
  obtain ⟨c, -, hc⟩ := List.mem_flatMap.mp hescaped
  exact newline_not_mem_escape c hc

theorem newline_not_mem_printWhole (n : Int) : '\n' ∉ printWhole n := by
  have hdigits : '\n' ∉ Nat.toDigits 10 n.natAbs := fun hmem =>
    absurd (Nat.isDigit_of_mem_toDigits (by decide) (by decide) hmem) (by decide)
  unfold printWhole
  split
  · simpa using hdigits
  · exact hdigits

theorem newline_not_mem_printItems {items : List Value} (h : ∀ v ∈ items, '\n' ∉ v.print) :
    '\n' ∉ printItems items := by
  induction items with
  | nil => simp [printItems]
  | cons v rest ih =>
      have hv := h v List.mem_cons_self
      have hrest := ih fun w hw => h w (List.mem_cons_of_mem v hw)
      cases rest with
      | nil => simpa [printItems] using hv
      | cons w rest => simpa [printItems] using ⟨hv, hrest⟩

theorem newline_not_mem_printEntries {entries : List (String × Value)}
    (h : ∀ p ∈ entries, '\n' ∉ p.2.print) : '\n' ∉ printEntries entries := by
  induction entries with
  | nil => simp [printEntries]
  | cons p rest ih =>
      have hp := h p List.mem_cons_self
      have hkey := newline_not_mem_printText p.1
      have hrest := ih fun q hq => h q (List.mem_cons_of_mem p hq)
      cases rest with
      | nil => simpa [printEntries] using ⟨hkey, hp⟩
      | cons q rest => simpa [printEntries] using ⟨hkey, hp, hrest⟩

/-- An exact value is printed on one line. -/
theorem newline_not_mem_print {room : Nat} {v : Value} (h : Exact room v) : '\n' ∉ v.print := by
  induction h with
  | null room => decide
  | boolean room b => cases b <;> decide
  | whole room n hmin hmax => exact newline_not_mem_printWhole n
  | text room s => exact newline_not_mem_printText s
  | list room items _ ih => simpa [Value.print] using newline_not_mem_printItems ih
  | object room entries _ _ ih => simpa [Value.print] using newline_not_mem_printEntries ih

end AuditTables.Proofs.Json
