import AuditTables.Json.Printer
import AuditTables.Json.Reader

/-!
# `AuditTables.Proofs.Json.Token`: printed tokens under the reader

The reader takes one character at a time, and where it stands between two of them
is a stack of open containers and a mode. `Reaches` says that some characters take
it from one stack and mode to another. The octet position, which only errors show,
is left out of that, so the statements compose (`Reaches.append`).

Three kinds of token are followed here:

* `reaches_escapes`: the escaped characters of a string leave the reader in the
  string, with the characters themselves collected. `escape_cases` lists the three
  forms that an escape can take, and `reaches_escape` reads each of them.
* `reaches_key`: a printed key of an object leaves the reader before the colon.
* `reaches_toDigits`: the decimal digits of a number leave the reader with the
  number in its scan. A number does not end by itself, so what the reader makes of
  it is a matter of the character that follows. `verdict_scanOf_of_nonneg` and
  `verdict_scanOf_of_neg` say what the scan amounts to then.
-/

set_option autoImplicit false

namespace AuditTables.Proofs.Json

open AuditTables.Json AuditTables.Json.Reader AuditTables.Text AuditTables.Decimal

/-- From one stack and mode, the characters take the reader to another, wherever
in the text it stands. -/
def Reaches (stack : List Frame) (mode : Mode) (cs : List Char) (stack' : List Frame)
    (mode' : Mode) : Prop :=
  ∀ offset, ∃ offset',
    machine.feed ⟨offset, stack, mode⟩ cs = .ok ⟨offset', stack', mode'⟩

variable {S S' S'' : List Frame} {m m' m'' : Mode}

/-- No characters leave the reader where it is. -/
theorem Reaches.nil : Reaches S m [] S m := fun offset => ⟨offset, rfl⟩

/-- Two stretches of text in a row. -/
theorem Reaches.append {xs ys : List Char} (h : Reaches S m xs S' m')
    (h' : Reaches S' m' ys S'' m'') : Reaches S m (xs ++ ys) S'' m'' := by
  intro offset
  obtain ⟨o, ho⟩ := h offset
  obtain ⟨o', ho'⟩ := h' o
  exact ⟨o', by rw [Machine.feed_append, ho]; exact ho'⟩

/-- One character, given what it does before it is counted. -/
theorem Reaches.one {c : Char}
    (h : ∀ offset, take ⟨offset, S, m⟩ c = .ok ⟨offset, S', m'⟩) : Reaches S m [c] S' m' := by
  intro offset
  refine ⟨offset + c.utf8Size, ?_⟩
  rw [Machine.feed_cons]
  show ((take ⟨offset, S, m⟩ c).map _).bind _ = _
  rw [h]
  rfl

/-! ### Strings -/

/-- A digit of an escape is read as the number it was printed for. -/
theorem digitOf_hexDigit : ∀ n < 16, digitOf 16 (hexDigit n) = some n := by decide

/-- The three forms of a character in a string: a letter after a backslash, four
hexadecimal digits, or the character itself. -/
theorem escape_cases (c : Char) :
    (∃ x, x ≠ 'u' ∧ shortEscape x = some c ∧ escape c = ['\\', x]) ∨
    (c.toNat < 0x20 ∧ escape c
      = ['\\', 'u', '0', '0', hexDigit (c.toNat / 16), hexDigit (c.toNat % 16)]) ∨
    (c ≠ '"' ∧ c ≠ '\\' ∧ ¬ c.toNat < 0x20 ∧ escape c = [c]) := by
  by_cases hshort : c ∈ ['"', '\\', '\x08', '\t', '\n', '\x0c', '\r']
  · simp only [List.mem_cons, List.not_mem_nil, or_false] at hshort
    rcases hshort with rfl | rfl | rfl | rfl | rfl | rfl | rfl <;>
      exact Or.inl ⟨_, by decide, by decide, rfl⟩
  · simp only [List.mem_cons, List.not_mem_nil, or_false, not_or] at hshort
    obtain ⟨hquote, hslash, h1, h2, h3, h4, h5⟩ := hshort
    simp only [escape, if_neg hquote, if_neg hslash, if_neg h1, if_neg h2, if_neg h3, if_neg h4,
      if_neg h5]
    by_cases hlow : c.toNat < 0x20
    · exact Or.inr (Or.inl ⟨hlow, if_pos hlow⟩)
    · exact Or.inr (Or.inr ⟨hquote, hslash, hlow, if_neg hlow⟩)

/-- The digits of a character below the space are no surrogate. -/
theorem closeEscape_of_lt {n : Nat} (h : n < 0x20) :
    closeEscape none n = some (.inl (Char.ofNat n)) := by
  rw [closeEscape, if_neg (by omega), if_neg (by omega)]

/-- An escape by number is read as its character. -/
theorem reaches_hexEscape {keyOf : Option (List (String × Value))} {read : List Char} {c : Char}
    (h : c.toNat < 0x20) :
    Reaches S (.text keyOf read .plain)
      ['\\', 'u', '0', '0', hexDigit (c.toNat / 16), hexDigit (c.toNat % 16)]
      S (.text keyOf (c :: read) .plain) := by
  intro o
  have hhigh := digitOf_hexDigit (c.toNat / 16) (by omega)
  have hlow := digitOf_hexDigit (c.toNat % 16) (by omega)
  have hzero : digitOf 16 '0' = some 0 := by decide
  have hvalue : c.toNat / 16 * 16 + c.toNat % 16 = c.toNat := by omega
  simp [Machine.feed, machine, step, take, inText, inHex, hhigh, hlow, hzero, hvalue,
    closeEscape_of_lt h, Except.map]

/-- A printed character is read as itself. -/
theorem reaches_escape (keyOf : Option (List (String × Value))) (read : List Char) (c : Char) :
    Reaches S (.text keyOf read .plain) (escape c) S (.text keyOf (c :: read) .plain) := by
  rcases escape_cases c with ⟨x, hx, hshort, he⟩ | ⟨hlow, he⟩ | ⟨hquote, hslash, hlow, he⟩ <;>
    rw [he]
  · have hmark : Reaches S (.text keyOf read .plain) ['\\'] S (.text keyOf read .escape) :=
      Reaches.one fun _ => rfl
    have hletter : Reaches S (.text keyOf read .escape) [x] S (.text keyOf (c :: read) .plain) :=
      Reaches.one fun _ => by simp [take, inText, hx, hshort]
    exact hmark.append hletter
  · exact reaches_hexEscape hlow
  · exact Reaches.one fun _ => by simp [take, inText, hquote, hslash, hlow]

/-- The printed characters of a string are collected, latest first. -/
theorem reaches_escapes (keyOf : Option (List (String × Value))) (read cs : List Char) :
    Reaches S (.text keyOf read .plain) (cs.flatMap escape)
      S (.text keyOf (cs.reverse ++ read) .plain) := by
  induction cs generalizing read with
  | nil => exact Reaches.nil
  | cons c cs ih =>
      have h := (reaches_escape keyOf read c).append (ih (c :: read))
      simpa using h

/-- A printed key, after the bracket of an object or after a comma in it. -/
theorem reaches_key {entries : List (String × Value)}
    (hm : m = .firstKey entries ∨ m = .nextKey entries) (key : String) :
    Reaches S m (printText key) S (.colon entries key) := by
  have hbegin : Reaches S m ['"'] S (.text (some entries) [] .plain) := by
    rcases hm with rfl | rfl <;> exact Reaches.one fun _ => rfl
  have hend : Reaches S (.text (some entries) (key.toList.reverse ++ []) .plain) ['"']
      S (.colon entries key) :=
    Reaches.one fun _ => by simp [take, inText, closeText, String.ofList_toList]
  have h := hbegin.append ((reaches_escapes (some entries) [] key.toList).append hend)
  simpa [printText] using h

/-! ### Whole numbers -/

/-- A printed decimal digit is read as its number. -/
theorem digitOf_digitChar : ∀ d < 10, digitOf 10 (Nat.digitChar d) = some d := by decide

/-- Every decimal digit is read as some number. -/
theorem exists_digitOf {c : Char} (hc : c.isDigit = true) : ∃ d, digitOf 10 c = some d := by
  have hrange : '0' ≤ c ∧ c ≤ '9' := by
    simp only [Char.isDigit, Bool.and_eq_true, decide_eq_true_eq] at hc
    exact hc
  have hle : c.toNat ≤ 57 := hrange.2
  refine ⟨c.toNat - '0'.toNat, ?_⟩
  have hlt : c.toNat - '0'.toNat < 10 := by
    show c.toNat - 48 < 10
    omega
  rw [digitOf, digitValue, if_pos hrange, Option.filter_some, if_pos (decide_eq_true hlt)]

/-- Where the reading of a number stands after its digits. -/
def scanOf (n : Nat) : Scan := if n = 0 then .zero else .whole n

/-- A digit that the scan takes. -/
theorem reaches_digit {negative : Bool} {s s' : Scan} {c : Char} (h : s.advance c = .read s') :
    Reaches S (.number negative s) [c] S (.number negative s') :=
  Reaches.one fun _ => by simp [take, inNumber, h]

/-- The digits of a number that fits a word, by induction on the number: all but
the last are the digits of its tenth part. -/
theorem reaches_toDigits (negative : Bool) (n : Nat) (hn : n ≤ word64Max) :
    Reaches S (.number negative .sign) (Nat.toDigits 10 n) S (.number negative (scanOf n)) := by
  induction n using Nat.strongRecOn with
  | ind n ih =>
      by_cases hsmall : n < 10
      · rw [Nat.toDigits_of_lt_base hsmall]
        refine reaches_digit ?_
        have hdigit := digitOf_digitChar n hsmall
        cases n with
        | zero => rfl
        | succ n => simp [Scan.advance, hdigit, scanOf]
      · have hten : 10 ≤ n := Nat.le_of_not_lt hsmall
        have hdigit := digitOf_digitChar (n % 10) (Nat.mod_lt _ (by omega))
        have hfits : Scan.extend (n / 10) (n % 10) = some n := by
          rw [Scan.extend, show n / 10 * 10 + n % 10 = n by omega]
          simp [hn]
        have hhead : Reaches S (.number negative .sign) (Nat.toDigits 10 (n / 10)) S
            (.number negative (.whole (n / 10))) := by
          have h := ih (n / 10) (by omega) (by omega)
          rwa [scanOf, if_neg (by omega)] at h
        rw [Nat.toDigits_of_base_le (by decide) hten, scanOf, if_neg (by omega)]
        exact hhead.append (reaches_digit (by simp [Scan.advance, hdigit, hfits]))

/-- A number without a sign is read as itself. -/
theorem verdict_scanOf_of_nonneg {n : Int} (h : 0 ≤ n) :
    (scanOf n.natAbs).verdict false = .done (.whole n) := by
  have hvalue : Int.ofNat n.natAbs = n := Int.natAbs_of_nonneg h
  unfold scanOf
  split
  · rename_i hzero
    have hn : n = 0 := Int.natAbs_eq_zero.mp hzero
    rw [hn]
    rfl
  · show Scan.toWhole false n.natAbs = _
    rw [Scan.toWhole, if_neg (by decide), hvalue]

/-- A number after a minus sign is read as itself if it is a signed one of 64
bits. -/
theorem verdict_scanOf_of_neg {n : Int} (h : n < 0) (hmin : int64Min ≤ n) :
    (scanOf n.natAbs).verdict true = .done (.whole n) := by
  have hmin' : -9223372036854775808 ≤ n := hmin
  have hne : n.natAbs ≠ 0 := by omega
  have hle : ¬ 9223372036854775808 < n.natAbs := by omega
  have hvalue : -Int.ofNat n.natAbs = n := by
    show -(n.natAbs : Int) = n
    omega
  rw [scanOf, if_neg hne]
  show Scan.toWhole true n.natAbs = _
  rw [Scan.toWhole, if_pos rfl, if_neg (not_or.mpr ⟨hne, hle⟩), hvalue]

end AuditTables.Proofs.Json
