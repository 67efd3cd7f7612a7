/-!
# `AuditTables.Text.Blank`: white space and trimming

Two notions of a blank meet in an event record. Markup separates its parts with
four ASCII characters only (`isSpace`), while field values are trimmed of every
character with the Unicode property `White_Space` (`isBlank`). The four are
among the others, so text that is blank to the markup reader is blank to all
(`isBlank_of_isSpace`).
-/

set_option autoImplicit false

namespace AuditTables.Text

/-- The white space of markup and of JSON: space, tab, carriage return, line
feed. A byte order mark or a no-break space is not among them. -/
def isSpace (c : Char) : Bool :=
  c == ' ' || c == '\t' || c == '\r' || c == '\n'

/-- The Unicode property `White_Space`, as ranges of code points. -/
def blankRanges : List (Nat × Nat) :=
  [(0x09, 0x0D), (0x20, 0x20), (0x85, 0x85), (0xA0, 0xA0), (0x1680, 0x1680),
   (0x2000, 0x200A), (0x2028, 0x2029), (0x202F, 0x202F), (0x205F, 0x205F), (0x3000, 0x3000)]

/-- Whether a character is white space. -/
def isBlank (c : Char) : Bool :=
  blankRanges.any fun (low, high) => low ≤ c.toNat && c.toNat ≤ high

theorem isBlank_of_isSpace {c : Char} (h : isSpace c = true) : isBlank c = true := by
  simp only [isSpace, Bool.or_eq_true, beq_iff_eq] at h
  rcases h with ((rfl | rfl) | rfl) | rfl <;> decide

/-- A list without the characters of a class at its two ends. What lies between
the first and the last character outside the class is kept as it is. -/
def stripBoth (drop : Char → Bool) (cs : List Char) : List Char :=
  ((cs.dropWhile drop).reverse.dropWhile drop).reverse

/-! What is taken from the front of a list: nothing if its first character is kept, and no
character that is kept, so what follows such a character is not looked at. -/

theorem dropWhile_eq_self {drop : Char → Bool} {cs : List Char}
    (h : ∀ c ∈ cs.head?, drop c = false) : cs.dropWhile drop = cs := by
  cases cs with
  | nil => rfl
  | cons c cs => rw [List.dropWhile_cons, h c rfl, if_neg Bool.false_ne_true]

theorem mem_dropWhile {drop : Char → Bool} {c : Char} {cs : List Char} (h : drop c = false)
    (hc : c ∈ cs) : c ∈ cs.dropWhile drop := by
  induction cs with
  | nil => exact hc
  | cons d ds ih =>
      rw [List.dropWhile_cons]
      split
      · rename_i hdropped
        refine ih ((List.mem_cons.mp hc).resolve_left ?_)
        rintro rfl
        exact Bool.false_ne_true (h.symm.trans hdropped)
      · exact hc

theorem dropWhile_append_of_mem {drop : Char → Bool} {c : Char} {cs : List Char}
    (h : drop c = false) (hc : c ∈ cs) (ds : List Char) :
    (cs ++ ds).dropWhile drop = cs.dropWhile drop ++ ds := by
  have hsome : (cs.dropWhile drop).isEmpty ≠ true := by
    intro hempty
    have hmem := mem_dropWhile h hc
    rw [List.isEmpty_iff.mp hempty] at hmem
    cases hmem
  rw [List.dropWhile_append, if_neg hsome]

/-- Nothing is taken from a list with no character of the class at an end. -/
theorem stripBoth_eq_self {drop : Char → Bool} {cs : List Char}
    (hfirst : ∀ c ∈ cs.head?, drop c = false) (hlast : ∀ c ∈ cs.getLast?, drop c = false) :
    stripBoth drop cs = cs := by
  have hlast' : ∀ c ∈ cs.reverse.head?, drop c = false := by rwa [List.head?_reverse]
  rw [stripBoth, dropWhile_eq_self hfirst, dropWhile_eq_self hlast', List.reverse_reverse]

/-- One more character of the class at the end makes no difference. -/
theorem stripBoth_concat {drop : Char → Bool} {c : Char} (h : drop c = true) (cs : List Char) :
    stripBoth drop (cs ++ [c]) = stripBoth drop cs := by
  have hlast : [c].dropWhile drop = [] := by rw [List.dropWhile_cons, if_pos h]; rfl
  rw [stripBoth, stripBoth, List.dropWhile_append]
  by_cases hempty : (cs.dropWhile drop).isEmpty = true
  · rw [if_pos hempty, hlast, List.isEmpty_iff.mp hempty]
  · rw [if_neg hempty, List.reverse_append, List.reverse_singleton, List.singleton_append,
      List.dropWhile_cons, if_pos h]

/-- Characters of the class behind a list make no difference. -/
theorem stripBoth_append_of_all {drop : Char → Bool} {spaces : List Char}
    (h : ∀ c ∈ spaces, drop c = true) (cs : List Char) :
    stripBoth drop (cs ++ spaces) = stripBoth drop cs := by
  induction spaces generalizing cs with
  | nil => rw [List.append_nil]
  | cons c spaces ih =>
      have hsplit : cs ++ c :: spaces = cs ++ [c] ++ spaces := by simp
      rw [hsplit, ih fun x hx => h x (List.mem_cons_of_mem c hx),
        stripBoth_concat (h c List.mem_cons_self)]

/-- Nor do those before it. -/
theorem stripBoth_of_all_append {drop : Char → Bool} {spaces : List Char}
    (h : ∀ c ∈ spaces, drop c = true) (cs : List Char) :
    stripBoth drop (spaces ++ cs) = stripBoth drop cs := by
  rw [stripBoth, List.dropWhile_append_of_pos h, stripBoth]

theorem stripBoth_of_all {drop : Char → Bool} {cs : List Char} (h : cs.all drop = true) :
    stripBoth drop cs = [] := by
  have happend := stripBoth_append_of_all (List.all_eq_true.mp h) []
  rw [List.nil_append] at happend
  rw [happend]
  rfl

/-- Between two characters that are kept, all is kept. -/
theorem stripBoth_between {drop : Char → Bool} {c d : Char} (hc : drop c = false)
    (hd : drop d = false) (cs middle ds : List Char) :
    stripBoth drop (cs ++ c :: (middle ++ d :: ds))
      = stripBoth drop (cs ++ [c]) ++ (middle ++ stripBoth drop (d :: ds)) := by
  -- What is left of the front ends with `c`, so nothing is taken from its end.
  obtain ⟨front, hfront⟩ : ∃ front, (cs ++ [c]).dropWhile drop = front ++ [c] := by
    rw [List.dropWhile_append]
    split
    · exact ⟨[], dropWhile_eq_self fun x hx => Option.some.inj hx ▸ hc⟩
    · exact ⟨_, rfl⟩
  have hbefore : stripBoth drop (cs ++ [c]) = front ++ [c] := by
    rw [stripBoth, hfront, dropWhile_eq_self, List.reverse_reverse]
    intro x hx
    rw [List.reverse_concat] at hx
    exact Option.some.inj hx ▸ hc
  have hkept : (d :: ds).dropWhile drop = d :: ds :=
    dropWhile_eq_self fun x hx => Option.some.inj hx ▸ hd
  have hafter : stripBoth drop (d :: ds) = ((d :: ds).reverse.dropWhile drop).reverse := by
    rw [stripBoth, hkept]
  have hsplit : cs ++ c :: (middle ++ d :: ds) = cs ++ [c] ++ (middle ++ d :: ds) := by simp
  have hreverse : (front ++ [c] ++ (middle ++ d :: ds)).reverse
      = (d :: ds).reverse ++ (front ++ [c] ++ middle).reverse := by simp
  rw [hsplit, hbefore, hafter, stripBoth, dropWhile_append_of_mem hc (by simp), hfront, hreverse,
    dropWhile_append_of_mem hd (by simp), List.reverse_append, List.reverse_reverse,
    List.append_assoc]

/-- Only characters of the class are taken away. -/
theorem mem_stripBoth {drop : Char → Bool} {c : Char} {cs : List Char} (h : drop c = false)
    (hc : c ∈ cs) : c ∈ stripBoth drop cs :=
  List.mem_reverse.mpr (mem_dropWhile h (List.mem_reverse.mpr (mem_dropWhile h hc)))

/-- No character comes in. -/
theorem mem_of_mem_stripBoth {drop : Char → Bool} {c : Char} {cs : List Char}
    (h : c ∈ stripBoth drop cs) : c ∈ cs := by
  have hreverse := (List.dropWhile_sublist drop).subset (List.mem_reverse.mp h)
  exact (List.dropWhile_sublist drop).subset (List.mem_reverse.mp hreverse)

/-- What is taken away stands at the two ends and is all of the class. -/
theorem exists_stripBoth (drop : Char → Bool) (cs : List Char) :
    ∃ before after, cs = before ++ (stripBoth drop cs ++ after)
      ∧ (∀ c ∈ before, drop c = true) ∧ ∀ c ∈ after, drop c = true := by
  have hall (ds : List Char) : ∀ c ∈ ds.takeWhile drop, drop c = true :=
    fun c hc => List.all_eq_true.mp List.all_takeWhile c hc
  -- What is left of the front is looked at from its end.
  let rest := (cs.dropWhile drop).reverse
  refine ⟨cs.takeWhile drop, (rest.takeWhile drop).reverse, ?_, hall cs, ?_⟩
  · have hback : stripBoth drop cs ++ (rest.takeWhile drop).reverse = cs.dropWhile drop := by
      rw [stripBoth, ← List.reverse_append, List.takeWhile_append_dropWhile, List.reverse_reverse]
    rw [hback, List.takeWhile_append_dropWhile]
  · intro c hc
    exact hall rest c (List.mem_reverse.mp hc)

/-- Text without white space at its ends. -/
def trim (cs : List Char) : List Char := stripBoth isBlank cs

/-- A string without white space at its ends. -/
def trimmed (s : String) : String := String.ofList (trim s.toList)

end AuditTables.Text
