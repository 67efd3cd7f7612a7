import AuditTables.Text.Utf8

/-!
# `AuditTables.Proofs.Text.Utf8`: decoding what was encoded

`decode_encode` says that the decoder reads the octets of a text as that text and puts
a replacement nowhere. `decode?_encode` is the strict form. A file of such octets is
accepted as text.

The octets of one character take the decoder from between two characters to the same
place with the character written (`feed_encodeChar`). There is a lemma for the first
octet of each length. Where the first octet narrows the range of the second, which it
does to refuse overlong forms, surrogates and numbers that are too large, the lemma says
that the second octet of a character lies in that range.

`infix_of_encodeChars` is for readers of octets that look for ASCII marks. What they find in
the octets of a text stands in the text, because an octet of ASCII is never a part of another
character. For the same reason the octets may be cut before and behind an octet of ASCII, and
both parts are the octets of texts (`exists_cut_before`, `exists_cut_behind`).
-/

set_option autoImplicit false

namespace AuditTables.Proofs.Text

open AuditTables.Text AuditTables.Text.Utf8

/-- A number below 256 is the number of its octet. -/
theorem toNat_octet {n : Nat} (h : n < 256) : (UInt8.ofNat n).toNat = n :=
  UInt8.toNat_ofNat_of_lt' h

/-- An octet in the range of an open sequence is in it as an octet, too. -/
theorem octet_mem {low high : UInt8} {n : Nat} (hlow : low.toNat ≤ n) (hhigh : n ≤ high.toNat) :
    low ≤ UInt8.ofNat n ∧ UInt8.ofNat n ≤ high := by
  rw [UInt8.le_iff_toNat_le, UInt8.le_iff_toNat_le,
    toNat_octet (Nat.lt_of_le_of_lt hhigh high.toNat_lt)]
  exact ⟨hlow, hhigh⟩

section Continuing

variable {written : List Char} {missing value n : Nat} {low high : UInt8}

/-- An octet of an open sequence adds its six bits. -/
theorem step_adds (hlow : low.toNat ≤ n) (hhigh : n ≤ high.toNat) :
    Decoder.step ⟨written, some ⟨missing + 2, low, high, value⟩⟩ (UInt8.ofNat n)
      = ⟨written, some ⟨missing + 1, 0x80, 0xBF, value * 64 + (n - 0x80)⟩⟩ := by
  show (if low ≤ UInt8.ofNat n ∧ UInt8.ofNat n ≤ high then _ else _) = _
  rw [if_pos (octet_mem hlow hhigh), toNat_octet (Nat.lt_of_le_of_lt hhigh high.toNat_lt)]
  exact if_neg (by show ¬missing + 2 ≤ 1; omega)

/-- The last octet of an open sequence writes the character. -/
theorem step_ends (hlow : low.toNat ≤ n) (hhigh : n ≤ high.toNat) :
    Decoder.step ⟨written, some ⟨1, low, high, value⟩⟩ (UInt8.ofNat n)
      = ⟨Char.ofNat (value * 64 + (n - 0x80)) :: written, none⟩ := by
  show (if low ≤ UInt8.ofNat n ∧ UInt8.ofNat n ≤ high then _ else _) = _
  rw [if_pos (octet_mem hlow hhigh), toNat_octet (Nat.lt_of_le_of_lt hhigh high.toNat_lt)]
  exact if_pos (Nat.le_refl 1)

end Continuing

/-- The octets after the second of a character are not less than `0x80`. -/
theorem tail_low (v : Nat) : (0x80 : UInt8).toNat ≤ v % 0x40 + 0x80 := Nat.le_add_left _ _

/-- The octets after the first of a character are not greater than `0xBF`. -/
theorem tail_high (v : Nat) : v % 0x40 + 0x80 ≤ (0xBF : UInt8).toNat := by
  show v % 0x40 + 0x80 ≤ 0xBF
  omega

/-! ### First octets -/

/-- The octet of a character of seven bits stands alone. -/
theorem lead_one {n : Nat} (h : n < 0x80) : lead (UInt8.ofNat n) = .alone (Char.ofNat n) := by
  rw [lead, toNat_octet (by omega)]
  exact if_pos h

/-- The first octet of two. -/
theorem lead_two {n : Nat} (hmin : 0xC2 ≤ n) (hmax : n < 0xE0) :
    lead (UInt8.ofNat n) = .opens ⟨1, 0x80, 0xBF, n - 0xC0⟩ := by
  rw [lead, toNat_octet (by omega)]
  rw [if_neg (by omega), if_neg (by omega), if_pos hmax]

/-- The first octet of three, and a second octet that follows it in a character. -/
theorem lead_three {n m : Nat} (hmin : 0xE0 ≤ n) (hmax : n < 0xF0) (hlow : 0x80 ≤ m)
    (hhigh : m ≤ 0xBF) (hoverlong : n = 0xE0 → 0xA0 ≤ m) (hsurrogate : n = 0xED → m ≤ 0x9F) :
    ∃ low high : UInt8, lead (UInt8.ofNat n) = .opens ⟨2, low, high, n - 0xE0⟩ ∧
      low.toNat ≤ m ∧ m ≤ high.toNat := by
  rw [lead, toNat_octet (by omega)]
  rw [if_neg (by omega), if_neg (by omega), if_neg (by omega)]
  by_cases hfirst : n = 0xE0
  · rw [if_pos hfirst, hfirst]
    exact ⟨_, _, rfl, hoverlong hfirst, hhigh⟩
  · rw [if_neg hfirst]
    by_cases hbefore : n = 0xED
    · rw [if_pos hbefore]
      exact ⟨_, _, rfl, hlow, hsurrogate hbefore⟩
    · rw [if_neg hbefore, if_pos hmax]
      exact ⟨_, _, rfl, hlow, hhigh⟩

/-- The first octet of four, and a second octet that follows it in a character. -/
theorem lead_four {n m : Nat} (hmin : 0xF0 ≤ n) (hmax : n ≤ 0xF4) (hlow : 0x80 ≤ m)
    (hhigh : m ≤ 0xBF) (hoverlong : n = 0xF0 → 0x90 ≤ m) (hlarge : n = 0xF4 → m ≤ 0x8F) :
    ∃ low high : UInt8, lead (UInt8.ofNat n) = .opens ⟨3, low, high, n - 0xF0⟩ ∧
      low.toNat ≤ m ∧ m ≤ high.toNat := by
  rw [lead, toNat_octet (by omega)]
  rw [if_neg (by omega), if_neg (by omega), if_neg (by omega), if_neg (by omega),
    if_neg (by omega), if_neg (by omega)]
  by_cases hfirst : n = 0xF0
  · rw [if_pos hfirst, hfirst]
    exact ⟨_, _, rfl, hoverlong hfirst, hhigh⟩
  · rw [if_neg hfirst]
    by_cases hmiddle : n < 0xF4
    · rw [if_pos hmiddle]
      exact ⟨_, _, rfl, hlow, hhigh⟩
    · have hlast : n = 0xF4 := by omega
      rw [if_neg hmiddle, if_pos hlast]
      exact ⟨_, _, rfl, hlow, hlarge hlast⟩

/-! ### Characters -/

/-- A first octet that opens a sequence leaves the decoder in it. -/
theorem step_opens {written : List Char} {b : UInt8} {p : Pending} (h : lead b = .opens p) :
    Decoder.step ⟨written, none⟩ b = ⟨written, some p⟩ := by
  show Decoder.begin written b = _
  rw [Decoder.begin, h]

section Lengths

variable (written : List Char) {v : Nat}

/-- A character of one octet. -/
theorem feed_one (h : v ≤ 0x7F) :
    [UInt8.ofNat v].foldl Decoder.step ⟨written, none⟩ = ⟨Char.ofNat v :: written, none⟩ := by
  show Decoder.begin written (UInt8.ofNat v) = _
  rw [Decoder.begin, lead_one (by omega)]

/-- A character of two octets. -/
theorem feed_two (hmin : 0x7F < v) (hmax : v ≤ 0x7FF) :
    [UInt8.ofNat (v / 64 % 0x20 + 0xC0), UInt8.ofNat (v % 0x40 + 0x80)].foldl
        Decoder.step ⟨written, none⟩
      = ⟨Char.ofNat v :: written, none⟩ := by
  have hlead := lead_two (n := v / 64 % 0x20 + 0xC0) (by omega) (by omega)
  have hvalue : (v / 64 % 0x20 + 0xC0 - 0xC0) * 64 + (v % 0x40 + 0x80 - 0x80) = v := by omega
  rw [List.foldl_cons, step_opens hlead, List.foldl_cons, step_ends (tail_low v) (tail_high v),
    hvalue, List.foldl_nil]

/-- A character of three octets. -/
theorem feed_three (hvalid : v < 0xD800 ∨ 0xDFFF < v) (hmin : 0x7FF < v) (hmax : v ≤ 0xFFFF) :
    [UInt8.ofNat (v / 4096 % 0x10 + 0xE0), UInt8.ofNat (v / 64 % 0x40 + 0x80),
        UInt8.ofNat (v % 0x40 + 0x80)].foldl Decoder.step ⟨written, none⟩
      = ⟨Char.ofNat v :: written, none⟩ := by
  obtain ⟨low, high, hlead, hlow, hhigh⟩ :=
    lead_three (n := v / 4096 % 0x10 + 0xE0) (m := v / 64 % 0x40 + 0x80)
      (by omega) (by omega) (by omega) (by omega) (by omega) (by omega)
  -- The octets carry the number in parts of six bits.
  have hvalue : ((v / 4096 % 0x10 + 0xE0 - 0xE0) * 64 + (v / 64 % 0x40 + 0x80 - 0x80)) * 64
      + (v % 0x40 + 0x80 - 0x80) = v := by omega
  rw [List.foldl_cons, step_opens hlead, List.foldl_cons, step_adds hlow hhigh, List.foldl_cons,
    step_ends (tail_low v) (tail_high v), hvalue, List.foldl_nil]

/-- A character of four octets. -/
theorem feed_four (hmin : 0xFFFF < v) (hmax : v < 0x110000) :
    [UInt8.ofNat (v / 262144 % 0x08 + 0xF0), UInt8.ofNat (v / 4096 % 0x40 + 0x80),
        UInt8.ofNat (v / 64 % 0x40 + 0x80), UInt8.ofNat (v % 0x40 + 0x80)].foldl
        Decoder.step ⟨written, none⟩
      = ⟨Char.ofNat v :: written, none⟩ := by
  obtain ⟨low, high, hlead, hlow, hhigh⟩ :=
    lead_four (n := v / 262144 % 0x08 + 0xF0) (m := v / 4096 % 0x40 + 0x80)
      (by omega) (by omega) (by omega) (by omega) (by omega) (by omega)
  have hvalue : (((v / 262144 % 0x08 + 0xF0 - 0xF0) * 64 + (v / 4096 % 0x40 + 0x80 - 0x80)) * 64
      + (v / 64 % 0x40 + 0x80 - 0x80)) * 64 + (v % 0x40 + 0x80 - 0x80) = v := by omega
  rw [List.foldl_cons, step_opens hlead, List.foldl_cons, step_adds hlow hhigh, List.foldl_cons,
    step_adds (tail_low (v / 64)) (tail_high (v / 64)), List.foldl_cons,
    step_ends (tail_low v) (tail_high v), hvalue, List.foldl_nil]

end Lengths

/-- The octets of a character write it. -/
theorem feed_encodeChar (written : List Char) (c : Char) :
    (String.utf8EncodeChar c).foldl Decoder.step ⟨written, none⟩ = ⟨c :: written, none⟩ := by
  have hvalid : c.val.toNat < 0xD800 ∨ 0xDFFF < c.val.toNat ∧ c.val.toNat < 0x110000 := c.valid
  have hchar : Char.ofNat c.val.toNat = c := Char.ofNat_toNat c
  unfold String.utf8EncodeChar
  by_cases hone : c.val.toNat ≤ 0x7F
  · rw [if_pos hone, feed_one written hone, hchar]
  · rw [if_neg hone]
    by_cases htwo : c.val.toNat ≤ 0x7FF
    · rw [if_pos htwo, feed_two written (by omega) htwo, hchar]
    · rw [if_neg htwo]
      by_cases hthree : c.val.toNat ≤ 0xFFFF
      · rw [if_pos hthree, feed_three written (by omega) (by omega) hthree, hchar]
      · rw [if_neg hthree, feed_four written (by omega) (by omega), hchar]

/-- The octets of characters write them one after the other. -/
theorem feed_encodeChars (cs : List Char) (written : List Char) :
    (encodeChars cs).foldl Decoder.step ⟨written, none⟩ = ⟨cs.reverse ++ written, none⟩ := by
  induction cs generalizing written with
  | nil => rfl
  | cons c cs ih =>
      have hsplit : encodeChars (c :: cs) = String.utf8EncodeChar c ++ encodeChars cs :=
        List.flatMap_cons
      rw [hsplit, List.foldl_append, feed_encodeChar, ih, List.reverse_cons, List.append_assoc,
        List.singleton_append]

/-- The octets of a text are decoded as the text. -/
theorem decode_encode (s : String) : decode (encode s) = s := by
  show String.ofList ((encodeChars s.toList).foldl Decoder.step ⟨[], none⟩).finish = s
  rw [feed_encodeChars, List.append_nil]
  show String.ofList s.toList.reverse.reverse = s
  rw [List.reverse_reverse, String.ofList_toList]

/-- The octets of characters are decoded as the text of these. -/
theorem decode_encodeChars (cs : List Char) : decode (encodeChars cs) = String.ofList cs := by
  have hdecode := decode_encode (String.ofList cs)
  rwa [encode, String.toList_ofList] at hdecode

/-- The octets of a text are all text. -/
theorem decode?_encode (s : String) : decode? (encode s) = some s := by
  rw [decode?, decode_encode]
  exact if_pos rfl

/-! ### ASCII patterns -/

theorem encodeChars_cons (c : Char) (cs : List Char) :
    encodeChars (c :: cs) = String.utf8EncodeChar c ++ encodeChars cs := List.flatMap_cons

theorem encodeChars_append (cs ds : List Char) :
    encodeChars (cs ++ ds) = encodeChars cs ++ encodeChars ds := List.flatMap_append

theorem encodeChar_ascii {c : Char} (h : c.toNat < 0x80) :
    String.utf8EncodeChar c = [UInt8.ofNat c.toNat] := by
  have hval : c.val.toNat ≤ 0x7F := Nat.le_of_lt_succ h
  rw [String.utf8EncodeChar, if_pos hval]
  rfl

/-- A character of ASCII in front is one octet in front. -/
theorem encodeChars_cons_ascii {c : Char} (h : c.toNat < 0x80) (cs : List Char) :
    encodeChars (c :: cs) = UInt8.ofNat c.toNat :: encodeChars cs := by
  rw [encodeChars_cons, encodeChar_ascii h]
  rfl

/-- No octet of a character beyond ASCII is one of ASCII. -/
theorem high_of_mem_encodeChar {c : Char} (h : ¬ c.toNat < 0x80) {b : UInt8}
    (hb : b ∈ String.utf8EncodeChar c) : 0x80 ≤ b.toNat := by
  have hval : ¬ c.val.toNat ≤ 0x7F := fun hle => h (Nat.lt_succ_of_le hle)
  have hlarge {n : Nat} (hn : n < 256) (hlow : 0x80 ≤ n) : 0x80 ≤ (UInt8.ofNat n).toNat := by
    rw [toNat_octet hn]
    exact hlow
  unfold String.utf8EncodeChar at hb
  simp only [if_neg hval] at hb
  split at hb
  · simp only [List.mem_cons, List.not_mem_nil, or_false] at hb
    rcases hb with rfl | rfl <;> exact hlarge (by omega) (by omega)
  · split at hb <;> simp only [List.mem_cons, List.not_mem_nil, or_false] at hb
    · rcases hb with rfl | rfl | rfl <;> exact hlarge (by omega) (by omega)
    · rcases hb with rfl | rfl | rfl | rfl <;> exact hlarge (by omega) (by omega)

/-- The octets of a character beyond ASCII begin with one that is not of ASCII. -/
theorem exists_high_of_encodeChar {c : Char} (h : ¬ c.toNat < 0x80) :
    ∃ b bs, String.utf8EncodeChar c = b :: bs ∧ 0x80 ≤ b.toNat := by
  obtain ⟨b, bs, hoctets⟩ := List.exists_cons_of_ne_nil
    (List.ne_nil_of_length_pos (String.length_utf8EncodeChar c ▸ Char.utf8Size_pos c))
  exact ⟨b, bs, hoctets, high_of_mem_encodeChar h (hoctets ▸ List.mem_cons_self)⟩

/-- A pattern does not begin in a list that does not have its first element. -/
theorem infix_of_not_mem {α : Type} {a : α} {pattern xs ys : List α} (hxs : a ∉ xs)
    (h : a :: pattern <:+: xs ++ ys) : a :: pattern <:+: ys := by
  induction xs with
  | nil => exact h
  | cons x xs ih =>
      rw [List.mem_cons, not_or] at hxs
      refine ih hxs.2 ((List.infix_cons_iff.mp h).resolve_left fun hbegins => ?_)
      exact hxs.1 (List.cons_prefix_cons.mp hbegins).1

section Patterns

variable {pattern : List Char} (hascii : ∀ c ∈ pattern, c.toNat < 0x80)

include hascii

/-- A text whose octets begin with an ASCII pattern begins with it. -/
theorem prefix_of_encodeChars {cs : List Char} (h : encodeChars pattern <+: encodeChars cs) :
    pattern <+: cs := by
  induction pattern generalizing cs with
  | nil => exact List.nil_prefix
  | cons p pattern ih =>
      have hp : p.toNat < 0x80 := hascii p List.mem_cons_self
      rw [encodeChars_cons, encodeChar_ascii hp] at h
      cases cs with
      | nil => exact absurd (List.prefix_nil.mp h) (List.cons_ne_nil _ _)
      | cons c cs =>
          rw [encodeChars_cons] at h
          by_cases hc : c.toNat < 0x80
          · rw [encodeChar_ascii hc] at h
            obtain ⟨hsame, hrest⟩ := List.cons_prefix_cons.mp h
            have hnumber : p.toNat = c.toNat := by
              rw [← toNat_octet (n := p.toNat) (by omega), hsame, toNat_octet (by omega)]
            obtain rfl : p = c := Char.toNat_inj.mp hnumber
            exact List.cons_prefix_cons.mpr
              ⟨rfl, ih (fun d hd => hascii d (List.mem_cons_of_mem p hd)) hrest⟩
          · -- The first octet is of ASCII, and that of the character is not.
            obtain ⟨b, bs, hoctets, hhigh⟩ := exists_high_of_encodeChar hc
            rw [hoctets] at h
            obtain ⟨rfl, -⟩ := List.cons_prefix_cons.mp h
            rw [toNat_octet (by omega)] at hhigh
            omega

/-- Octets that are not of ASCII hold no part of an ASCII pattern. -/
theorem infix_of_high (hne : pattern ≠ []) {high rest : List UInt8}
    (hhigh : ∀ b ∈ high, 0x80 ≤ b.toNat) (h : encodeChars pattern <:+: high ++ rest) :
    encodeChars pattern <:+: rest := by
  obtain ⟨p, pattern', rfl⟩ := List.exists_cons_of_ne_nil hne
  have hp : p.toNat < 0x80 := hascii p List.mem_cons_self
  rw [encodeChars_cons_ascii hp] at h ⊢
  refine infix_of_not_mem (fun hmem => ?_) h
  have hoctet := hhigh _ hmem
  rw [toNat_octet (by omega)] at hoctet
  omega

/-- A text whose octets hold an ASCII pattern holds it. -/
theorem infix_of_encodeChars {cs : List Char} (h : encodeChars pattern <:+: encodeChars cs) :
    pattern <:+: cs := by
  by_cases hne : pattern = []
  · rw [hne]
    exact List.nil_infix
  · induction cs with
    | nil =>
        have hprefix : encodeChars pattern <+: encodeChars [] :=
          List.infix_nil.mp h ▸ List.nil_prefix
        exact (prefix_of_encodeChars hascii hprefix).isInfix
    | cons c cs ih =>
        by_cases hc : c.toNat < 0x80
        · rw [encodeChars_cons_ascii hc] at h
          rcases List.infix_cons_iff.mp h with hprefix | hinfix
          · rw [← encodeChars_cons_ascii hc] at hprefix
            exact (prefix_of_encodeChars hascii hprefix).isInfix
          · exact List.infix_cons (ih hinfix)
        · rw [encodeChars_cons] at h
          exact List.infix_cons
            (ih (infix_of_high hascii hne (fun b hb => high_of_mem_encodeChar hc hb) h))

end Patterns

/-! ### Places between characters -/

/-- The octets of a text are cut between characters if the second part is empty or begins with an
octet of ASCII. By induction on the text: a cut in the first character would leave octets of it
in front of the second part. -/
theorem exists_cut_before {cs : List Char} {x y : List UInt8} (h : encodeChars cs = x ++ y)
    (hy : ∀ b ∈ y.head?, b.toNat < 0x80) :
    ∃ before after, cs = before ++ after ∧ encodeChars before = x ∧ encodeChars after = y := by
  induction cs generalizing x with
  | nil =>
      obtain ⟨rfl, rfl⟩ := List.append_eq_nil_iff.mp h.symm
      exact ⟨[], [], rfl, rfl, rfl⟩
  | cons c cs ih =>
      rw [encodeChars_cons] at h
      rcases List.append_eq_append_iff.mp h with ⟨z, rfl, hrest⟩ | ⟨z, hchar, rfl⟩
      · obtain ⟨before, after, rfl, hbefore, hafter⟩ := ih hrest
        exact ⟨c :: before, after, rfl, by rw [encodeChars_cons, hbefore], hafter⟩
      · -- The cut is in the octets of the first character, so it is at one of their ends.
        cases x with
        | nil =>
            refine ⟨[], c :: cs, rfl, rfl, ?_⟩
            rw [encodeChars_cons, hchar, List.nil_append]
        | cons b x =>
            cases z with
            | nil =>
                rw [List.append_nil] at hchar
                refine ⟨[c], cs, rfl, ?_, rfl⟩
                rw [encodeChars_cons, hchar]
                exact List.append_nil _
            | cons b' z =>
                have hlow : b'.toNat < 0x80 := hy b' rfl
                have hmem : b' ∈ String.utf8EncodeChar c := by simp [hchar]
                by_cases hc : c.toNat < 0x80
                · have hlength := congrArg List.length hchar
                  rw [encodeChar_ascii hc] at hlength
                  simp at hlength
                · have hhigh := high_of_mem_encodeChar hc hmem
                  omega

/-- The octets of a text are cut between characters behind an octet of ASCII. -/
theorem exists_cut_behind {cs : List Char} {x y : List UInt8} {b : UInt8}
    (h : encodeChars cs = x ++ [b] ++ y) (hb : b.toNat < 0x80) :
    ∃ before after, cs = before ++ after ∧ encodeChars before = x ++ [b] ∧
      encodeChars after = y := by
  have hsplit : encodeChars cs = x ++ (b :: y) := by
    rw [h, List.append_assoc, List.singleton_append]
  have hhead : ∀ b' ∈ (b :: y).head?, b'.toNat < 0x80 := by
    intro b' hb'
    rwa [← Option.some.inj hb']
  obtain ⟨before, after, rfl, hbefore, hafter⟩ := exists_cut_before hsplit hhead
  cases after with
  | nil => cases hafter
  | cons c after =>
      by_cases hc : c.toNat < 0x80
      · -- An octet of ASCII in front is all of the character.
        rw [encodeChars_cons_ascii hc] at hafter
        obtain ⟨hfirst, hrest⟩ := List.cons.inj hafter
        refine ⟨before ++ [c], after, by simp, ?_, hrest⟩
        rw [encodeChars_append, hbefore, ← hfirst, encodeChars_cons_ascii hc]
        rfl
      · obtain ⟨b', bs, hoctets, hhigh⟩ := exists_high_of_encodeChar hc
        rw [encodeChars_cons, hoctets] at hafter
        obtain rfl : b' = b := (List.cons.inj hafter).1
        omega

end AuditTables.Proofs.Text
