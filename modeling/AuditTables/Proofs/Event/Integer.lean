import AuditTables.Event.Integer
import Mathlib.Data.List.Forall2
import Mathlib.Data.Nat.Digits.Lemmas
import Mathlib.Tactic.Ring

/-!
# `AuditTables.Proofs.Event.Integer`: numerals of whole numbers

A number in an event field is written in decimal with an optional sign, or after `0x` in
hexadecimal, with the optional sign behind the `0x`. `Numeral` says so without the reader. Its
digits are the list `digitCharacters`, and their value is Mathlib's `Nat.ofDigits`. White space
may stand on both sides of a numeral (`PaddedNumeral`).

The reader is compared with this grammar in both directions, from digits to signs to whole texts.
A text that the grammar knows is read as its number if that fits in 64 bits, and is refused if not
(`readInteger_of_padded`), whatever the number of zeros before it. A text that is read is one that
the grammar knows (`padded_of_readInteger`). `readInteger_exact` puts the two together.

No numeral has white space in it, so what the reader takes from the ends of a text is what the
grammar allows there. That a decimal numeral has no `x` keeps the two radices apart.
-/

set_option autoImplicit false

namespace AuditTables.Proofs.Event

open AuditTables.Text AuditTables.Decimal AuditTables.Event

/-- The digits of numerals, letters in either case, with their values. -/
def digitCharacters : List (Char × Nat) :=
  "0123456789abcdef".toList.zipIdx ++ "ABCDEF".toList.zipIdx 10

/-- A character is the digit of a value. -/
structure IsDigit (radix : Nat) (c : Char) (value : Nat) : Prop where
  mem : (c, value) ∈ digitCharacters
  lt : value < radix

/-- One digit or more stand for a number. -/
inductive Unsigned (radix : Nat) : List Char → Nat → Prop where
  | mk {cs : List Char} {values : List Nat} (hsome : cs ≠ [])
      (hdigits : List.Forall₂ (IsDigit radix) cs values) :
      Unsigned radix cs (Nat.ofDigits radix values.reverse)

/-- Digits with an optional sign stand for a number. -/
inductive Signed (radix : Nat) : List Char → Int → Prop where
  | bare {cs : List Char} {n : Nat} (h : Unsigned radix cs n) : Signed radix cs n
  | plus {cs : List Char} {n : Nat} (h : Unsigned radix cs n) : Signed radix ('+' :: cs) n
  | minus {cs : List Char} {n : Nat} (h : Unsigned radix cs n) : Signed radix ('-' :: cs) (-n)

/-- A text without white space stands for a number. -/
inductive Numeral : List Char → Int → Prop where
  | decimal {cs : List Char} {n : Int} (h : Signed 10 cs n) : Numeral cs n
  | hexadecimal {x : Char} {cs : List Char} {n : Int} (hx : x = 'x' ∨ x = 'X')
      (h : Signed 16 cs n) : Numeral ('0' :: x :: cs) n

/-- A text stands for a number if a numeral is all that it has but white space. -/
inductive PaddedNumeral : List Char → Int → Prop where
  | mk {before body after : List Char} {n : Int} (hbefore : ∀ c ∈ before, isBlank c = true)
      (hbody : Numeral body n) (hafter : ∀ c ∈ after, isBlank c = true) :
      PaddedNumeral (before ++ (body ++ after)) n

/-! ### Every number has a numeral -/

theorem exists_unsigned (n : Nat) : ∃ cs, Unsigned 10 cs n := by
  by_cases hzero : n = 0
  · exact ⟨['0'], hzero ▸ .mk (by decide) (.cons ⟨by decide, by decide⟩ .nil)⟩
  · have hall : ∀ d < 10, (Nat.digitChar d, d) ∈ digitCharacters := by decide
    have hdigits : List.Forall₂ (IsDigit 10) ((Nat.digits 10 n).reverse.map Nat.digitChar)
        (Nat.digits 10 n).reverse := by
      rw [List.forall₂_map_left_iff, List.forall₂_same]
      intro d hd
      have hlt : d < 10 := Nat.digits_lt_base (by decide) (List.mem_reverse.mp hd)
      exact ⟨hall d hlt, hlt⟩
    have hsome : (Nat.digits 10 n).reverse.map Nat.digitChar ≠ [] := by
      simpa [Nat.digits_eq_nil_iff_eq_zero] using hzero
    have hunsigned := Unsigned.mk hsome hdigits
    rw [List.reverse_reverse, Nat.ofDigits_digits] at hunsigned
    exact ⟨_, hunsigned⟩

/-- Every number can be written. -/
theorem exists_numeral (n : Int) : ∃ raw : String, Numeral raw.toList n := by
  obtain ⟨cs, hcs⟩ := exists_unsigned n.natAbs
  rcases Int.natAbs_eq n with hn | hn
  · refine ⟨String.ofList cs, ?_⟩
    rw [hn, String.toList_ofList]
    exact .decimal (.bare hcs)
  · refine ⟨String.ofList ('-' :: cs), ?_⟩
    rw [hn, String.toList_ofList]
    exact .decimal (.minus hcs)

/-! ### Digits -/

theorem digitOf_of_isDigit {radix value : Nat} {c : Char} (h : IsDigit radix c value) :
    digitOf radix c = some value := by
  have hall : ∀ p ∈ digitCharacters, digitValue p.1 = some p.2 := by decide
  have hvalue : digitValue c = some value := hall (c, value) h.mem
  rw [digitOf, hvalue, Option.filter_some, if_pos (decide_eq_true h.lt)]

theorem mem_of_digitValue {c : Char} {value : Nat} (h : digitValue c = some value) :
    (c, value) ∈ digitCharacters := by
  -- A character between two others is the character of a number between theirs.
  have hbetween (low high : Char) (base : Nat)
      (hall : ∀ n ∈ List.range' low.toNat (high.toNat + 1 - low.toNat),
        (Char.ofNat n, n - low.toNat + base) ∈ digitCharacters)
      (hlow : low ≤ c) (hhigh : c ≤ high) : (c, c.toNat - low.toNat + base) ∈ digitCharacters := by
    have hlow' : low.toNat ≤ c.toNat := UInt32.le_iff_toNat_le.mp hlow
    have hhigh' : c.toNat ≤ high.toNat := UInt32.le_iff_toNat_le.mp hhigh
    have hmem := hall c.toNat (List.mem_range'_1.mpr ⟨hlow', by omega⟩)
    rwa [Char.ofNat_toNat] at hmem
  unfold digitValue at h
  split at h
  · rename_i hdigit
    obtain rfl := Option.some.inj h
    exact hbetween '0' '9' 0 (by decide) hdigit.1 hdigit.2
  · split at h
    · rename_i hlower
      obtain rfl := Option.some.inj h
      exact hbetween 'a' 'f' 10 (by decide) hlower.1 hlower.2
    · split at h
      · rename_i hupper
        obtain rfl := Option.some.inj h
        exact hbetween 'A' 'F' 10 (by decide) hupper.1 hupper.2
      · cases h

theorem isDigit_of_digitOf {radix value : Nat} {c : Char} (h : digitOf radix c = some value) :
    IsDigit radix c value := by
  obtain ⟨hvalue, hlt⟩ := Option.filter_eq_some_iff.mp h
  exact ⟨mem_of_digitValue hvalue, of_decide_eq_true hlt⟩

/-- Digits are read on from the number before them, which they shift by their count. -/
theorem readDigits_of_digits {radix : Nat} {cs : List Char} {values : List Nat}
    (h : List.Forall₂ (IsDigit radix) cs values) (before : Nat) :
    readDigits radix before cs
      = some (before * radix ^ cs.length + Nat.ofDigits radix values.reverse) := by
  induction h generalizing before with
  | nil => simp [readDigits]
  | @cons c value cs values hc hcs ih =>
      rw [readDigits, digitOf_of_isDigit hc]
      simp only
      rw [ih, List.reverse_cons, Nat.ofDigits_append, Nat.ofDigits_singleton, List.length_reverse,
        ← hcs.length_eq, List.length_cons]
      congr 1
      ring

theorem readNatural_of_unsigned {radix n : Nat} {cs : List Char} (h : Unsigned radix cs n) :
    readNatural radix cs = some n := by
  cases h with
  | mk hsome hdigits =>
      obtain ⟨c, cs, rfl⟩ := List.exists_cons_of_ne_nil hsome
      rw [readNatural, readDigits_of_digits hdigits, Nat.zero_mul, Nat.zero_add]

/-- What is read as digits has a digit's value for each character. -/
theorem exists_digits_of_readDigits {radix before n : Nat} {cs : List Char}
    (h : readDigits radix before cs = some n) :
    ∃ values, List.Forall₂ (IsDigit radix) cs values := by
  induction cs generalizing before with
  | nil => exact ⟨[], .nil⟩
  | cons c cs ih =>
      rw [readDigits] at h
      split at h
      next => cases h
      next value hvalue =>
        obtain ⟨values, hvalues⟩ := ih h
        exact ⟨value :: values, .cons (isDigit_of_digitOf hvalue) hvalues⟩

theorem unsigned_of_readNatural {radix n : Nat} {cs : List Char}
    (h : readNatural radix cs = some n) : Unsigned radix cs n := by
  cases cs with
  | nil => cases h
  | cons c cs =>
      obtain ⟨values, hvalues⟩ := exists_digits_of_readDigits h
      have hunsigned := Unsigned.mk (List.cons_ne_nil c cs) hvalues
      -- The digits are read as the number that they stand for, which is then what was read.
      have hread := readNatural_of_unsigned hunsigned
      rw [h] at hread
      exact Option.some.inj hread ▸ hunsigned

/-! ### Signs -/

/-- No digit is a sign, an `x` or white space. -/
theorem IsDigit.plain {radix value : Nat} {c : Char} (h : IsDigit radix c value) :
    c ≠ '+' ∧ c ≠ '-' ∧ c ≠ 'x' ∧ c ≠ 'X' ∧ isBlank c = false := by
  have hall : ∀ p ∈ digitCharacters,
      p.1 ≠ '+' ∧ p.1 ≠ '-' ∧ p.1 ≠ 'x' ∧ p.1 ≠ 'X' ∧ isBlank p.1 = false := by decide
  exact hall (c, value) h.mem

theorem exists_isDigit_of_mem {radix n : Nat} {cs : List Char} (h : Unsigned radix cs n) {c : Char}
    (hc : c ∈ cs) : ∃ value, IsDigit radix c value := by
  cases h with
  | @mk values _ hdigits =>
      obtain ⟨i, hi, rfl⟩ := List.getElem_of_mem hc
      have hi' : i < values.length := hdigits.length_eq ▸ hi
      exact ⟨values[i], hdigits.get hi hi'⟩

/-- A number with an optional sign is read as the number. -/
theorem readSigned_of_signed {radix : Nat} {cs : List Char} {n : Int} (h : Signed radix cs n) :
    readSigned radix cs = some n := by
  cases h with
  | @bare cs n h =>
      -- The text is not empty and begins with a digit, so the reader takes it for one without sign.
      unfold readSigned
      split
      next rest =>
        obtain ⟨value, hdigit⟩ := exists_isDigit_of_mem h List.mem_cons_self
        exact absurd rfl hdigit.plain.1
      next rest =>
        obtain ⟨value, hdigit⟩ := exists_isDigit_of_mem h List.mem_cons_self
        exact absurd rfl hdigit.plain.2.1
      next => rw [readNatural_of_unsigned h]; rfl
  | plus h => rw [readSigned, readNatural_of_unsigned h]; rfl
  | minus h => rw [readSigned, readNatural_of_unsigned h]; rfl

/-- Only a number with an optional sign is read as one. -/
theorem signed_of_readSigned {radix : Nat} {cs : List Char} {n : Int}
    (h : readSigned radix cs = some n) : Signed radix cs n := by
  unfold readSigned at h
  split at h
  next rest =>
    obtain ⟨m, hm, rfl⟩ := Option.map_eq_some_iff.mp h
    exact .plus (unsigned_of_readNatural hm)
  next rest =>
    obtain ⟨m, hm, rfl⟩ := Option.map_eq_some_iff.mp h
    exact .minus (unsigned_of_readNatural hm)
  next =>
    obtain ⟨m, hm, rfl⟩ := Option.map_eq_some_iff.mp h
    exact .bare (unsigned_of_readNatural hm)

/-- The characters of a number with an optional sign. -/
theorem mem_of_signed {radix : Nat} {cs : List Char} {n : Int} (h : Signed radix cs n) {c : Char}
    (hc : c ∈ cs) : c ≠ 'x' ∧ c ≠ 'X' ∧ isBlank c = false := by
  have hdigit {m : Nat} {ds : List Char} (hds : Unsigned radix ds m) (hmem : c ∈ ds) :
      c ≠ 'x' ∧ c ≠ 'X' ∧ isBlank c = false := by
    obtain ⟨value, hvalue⟩ := exists_isDigit_of_mem hds hmem
    exact hvalue.plain.2.2
  cases h with
  | bare h => exact hdigit h hc
  | plus h =>
      rcases List.mem_cons.mp hc with rfl | hmem
      · decide
      · exact hdigit h hmem
  | minus h =>
      rcases List.mem_cons.mp hc with rfl | hmem
      · decide
      · exact hdigit h hmem

/-! ### Numerals -/

theorem readInt64_of_signed {radix : Nat} {cs : List Char} {n : Int} (h : Signed radix cs n) :
    readInt64 radix cs = (some n).filter inInt64 := by
  rw [readInt64, readSigned_of_signed h]

/-- A numeral is read as its number, or refused if that takes more than 64 bits. -/
theorem readBareInteger_of_numeral {cs : List Char} {n : Int} (h : Numeral cs n) :
    readBareInteger cs = (some n).filter inInt64 := by
  cases h with
  | decimal h =>
      -- There is no `x` in a decimal numeral.
      unfold readBareInteger
      split
      next rest => exact absurd rfl (mem_of_signed h (c := 'x') (by simp)).1
      next rest => exact absurd rfl (mem_of_signed h (c := 'X') (by simp)).2.1
      next => exact readInt64_of_signed h
  | hexadecimal hx h =>
      rcases hx with rfl | rfl
      · exact readInt64_of_signed h
      · exact readInt64_of_signed h

/-- Only a numeral is read as a number, and that has 64 bits. -/
theorem numeral_of_readBareInteger {cs : List Char} {n : Int} (h : readBareInteger cs = some n) :
    Numeral cs n ∧ inInt64 n = true := by
  unfold readBareInteger at h
  split at h
  next digits =>
    obtain ⟨hread, hrange⟩ := Option.filter_eq_some_iff.mp h
    exact ⟨.hexadecimal (.inl rfl) (signed_of_readSigned hread), hrange⟩
  next digits =>
    obtain ⟨hread, hrange⟩ := Option.filter_eq_some_iff.mp h
    exact ⟨.hexadecimal (.inr rfl) (signed_of_readSigned hread), hrange⟩
  next =>
    obtain ⟨hread, hrange⟩ := Option.filter_eq_some_iff.mp h
    exact ⟨.decimal (signed_of_readSigned hread), hrange⟩

/-- There is no white space in a numeral. -/
theorem isBlank_of_mem_numeral {cs : List Char} {n : Int} (h : Numeral cs n) {c : Char}
    (hc : c ∈ cs) : isBlank c = false := by
  cases h with
  | decimal h => exact (mem_of_signed h hc).2.2
  | hexadecimal hx h =>
      rcases List.mem_cons.mp hc with rfl | hc
      · decide
      · rcases List.mem_cons.mp hc with rfl | hc
        · rcases hx with rfl | rfl <;> decide
        · exact (mem_of_signed h hc).2.2

/-! ### White space around -/

/-- The numeral is what is left of a text that stands for a number. -/
theorem readInteger_of_padded {raw : String} {n : Int} (h : PaddedNumeral raw.toList n) :
    readInteger raw = (some n).filter inInt64 := by
  rw [readInteger]
  generalize raw.toList = cs at h
  cases h with
  | @mk before body after _ hbefore hbody hafter =>
      have htrim : trim (before ++ (body ++ after)) = body := by
        rw [trim, stripBoth_of_all_append hbefore, stripBoth_append_of_all hafter]
        exact stripBoth_eq_self (fun _ hc => isBlank_of_mem_numeral hbody (List.mem_of_head? hc))
          fun _ hc => isBlank_of_mem_numeral hbody (List.mem_of_getLast? hc)
      rw [htrim, readBareInteger_of_numeral hbody]

/-- Only a text that stands for a number of 64 bits is read as one. -/
theorem padded_of_readInteger {raw : String} {n : Int} (h : readInteger raw = some n) :
    PaddedNumeral raw.toList n ∧ inInt64 n = true := by
  obtain ⟨hbody, hrange⟩ := numeral_of_readBareInteger h
  obtain ⟨before, after, hsplit, hbefore, hafter⟩ := exists_stripBoth isBlank raw.toList
  rw [hsplit]
  exact ⟨.mk hbefore hbody hafter, hrange⟩

/-- White space may be left out. -/
theorem padded_of_numeral {cs : List Char} {n : Int} (h : Numeral cs n) : PaddedNumeral cs n := by
  have hpadded : PaddedNumeral ([] ++ (cs ++ [])) n :=
    .mk (List.forall_mem_nil _) h (List.forall_mem_nil _)
  rwa [List.nil_append, List.append_nil] at hpadded

/-- A numeral of a number of 64 bits is read as the number. -/
theorem readInteger_of_numeral {raw : String} {n : Int} (h : Numeral raw.toList n)
    (hrange : inInt64 n = true) : readInteger raw = some n := by
  rw [readInteger_of_padded (padded_of_numeral h), Option.filter_some, if_pos hrange]

theorem inInt64_iff {n : Int} : inInt64 n = true ↔ int64Min ≤ n ∧ n ≤ int64Max := by
  simp [inInt64]

/-- The numbers that are read are those of the grammar that have 64 bits, each from the texts that
stand for it and no others. A text that stands for a number outside of that range is refused, and
is not read as another number. -/
theorem readInteger_exact (raw : String) (n : Int) :
    (readInteger raw = some n ↔ PaddedNumeral raw.toList n ∧ int64Min ≤ n ∧ n ≤ int64Max)
      ∧ (PaddedNumeral raw.toList n → n < int64Min ∨ int64Max < n → readInteger raw = none) := by
  constructor
  · constructor
    · intro hread
      obtain ⟨hpadded, hrange⟩ := padded_of_readInteger hread
      exact ⟨hpadded, inInt64_iff.mp hrange⟩
    · rintro ⟨hpadded, hrange⟩
      rw [readInteger_of_padded hpadded, Option.filter_some, if_pos (inInt64_iff.mpr hrange)]
  · intro hpadded houtside
    have hrange : ¬ inInt64 n = true := by
      rw [inInt64_iff]
      omega
    rw [readInteger_of_padded hpadded, Option.filter_some, if_neg hrange]

/-- The least number is read in hexadecimal after a no-break space. The number after the greatest
is refused in decimal. -/
theorem readInteger_exact_edges :
    (PaddedNumeral "\u00a00X-8000000000000000\n".toList int64Min
        ∧ readInteger "\u00a00X-8000000000000000\n" = some int64Min)
      ∧ PaddedNumeral "+009223372036854775808".toList (int64Max + 1)
        ∧ readInteger "+009223372036854775808" = none := by
  have hleast : readInteger "\u00a00X-8000000000000000\n" = some int64Min := by decide
  have hbody : Numeral "+009223372036854775808".toList (int64Max + 1) :=
    .decimal (signed_of_readSigned (by decide))
  have hbeyond := padded_of_numeral hbody
  exact ⟨⟨((readInteger_exact _ _).1.mp hleast).1, hleast⟩, hbeyond,
    (readInteger_exact _ _).2 hbeyond (.inr (by decide))⟩

end AuditTables.Proofs.Event
