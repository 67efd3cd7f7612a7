import AuditTables.Proofs.Event.Resumption
import AuditTables.Proofs.Text.Utf8
import Mathlib.Data.List.Basic

/-!
# `AuditTables.Proofs.Event.Marks`: a splitter between marks

A splitter looks for an open tag and then for a closing mark, octet by octet. In octets that have
no mark of the kind it looks for, it stays in its mode (`feed_between`, `feed_inside`), and a mark
takes it to the other one (`feed_open`, `feed_close`). That holds however much of a mark it has
matched before, since a mark has its only bracket in front. What it has matched is always what the
octets taken end with (`take_matchNext`), so it finds no mark too early.

Between records it also remembers a bracket that no closing one follows. `Dangling` says what it
knows of the octets taken since the last record.
-/

set_option autoImplicit false

namespace AuditTables.Proofs.Event

open AuditTables.Event AuditTables.Text
open AuditTables.Proofs.Text

/-! ### The first of some patterns -/

/-- If some patterns are in a list, one of them is there before all others, by induction on the
list. -/
theorem exists_first_of {α : Type} (patterns : List α → Prop) {cs : List α}
    (hne : ¬ patterns []) (h : ∃ pattern, patterns pattern ∧ pattern <:+: cs) :
    ∃ before pattern after, patterns pattern ∧ cs = before ++ pattern ++ after ∧
      ∀ other, patterns other → ¬ other <:+: before := by
  have hnil : ∀ other, patterns other → ¬ other <:+: [] := by
    intro other hother hinfix
    exact hne (List.infix_nil.mp hinfix ▸ hother)
  induction cs with
  | nil =>
      obtain ⟨pattern, hpattern, hinfix⟩ := h
      exact absurd hinfix (hnil pattern hpattern)
  | cons c cs ih =>
      by_cases hhere : ∃ pattern, patterns pattern ∧ pattern <+: c :: cs
      · obtain ⟨pattern, hpattern, after, hafter⟩ := hhere
        exact ⟨[], pattern, after, hpattern, hafter.symm, hnil⟩
      · have hnot : ∀ other, patterns other → ¬ other <+: c :: cs := fun other hother hprefix =>
          hhere ⟨other, hother, hprefix⟩
        obtain ⟨pattern, hpattern, hinfix⟩ := h
        have hlater := (List.infix_cons_iff.mp hinfix).resolve_left (hnot pattern hpattern)
        obtain ⟨before, first, after, hfirst, rfl, hbefore⟩ := ih ⟨pattern, hpattern, hlater⟩
        refine ⟨c :: before, first, after, hfirst, rfl, fun other hother hinfix => ?_⟩
        rcases List.infix_cons_iff.mp hinfix with hbegins | hinside
        · refine hnot other hother (hbegins.trans ?_)
          rw [List.append_assoc, ← List.cons_append]
          exact List.prefix_append _ _
        · exact hbefore other hother hinside

/-- A pattern that is in a list is there for the first time. -/
theorem exists_first {α : Type} {pattern cs : List α} (hne : pattern ≠ [])
    (h : pattern <:+: cs) : ∃ before after, cs = before ++ pattern ++ after ∧
      ¬ pattern <:+: before := by
  obtain ⟨before, _, after, rfl, hcs, hbefore⟩ :=
    exists_first_of (· = pattern) hne.symm ⟨pattern, rfl, h⟩
  exact ⟨before, after, hcs, hbefore _ rfl⟩

/-! ### Brackets -/

section Brackets

variable {pattern x y : List UInt8} (hpattern : openBracket ∉ pattern.tail)

include hpattern

/-- A pattern whose only bracket is in front does not reach over a bracket. -/
theorem prefix_of_bracket (hx : x ≠ []) (h : pattern <+: x ++ openBracket :: y) :
    pattern <+: x := by
  obtain ⟨a, x, rfl⟩ := List.exists_cons_of_ne_nil hx
  cases pattern with
  | nil => exact List.nil_prefix
  | cons p pattern =>
      obtain ⟨rfl, hrest⟩ := List.cons_prefix_cons.mp h
      refine List.cons_prefix_cons.mpr ⟨rfl, ?_⟩
      obtain ⟨after, hafter⟩ := hrest
      rcases List.append_eq_append_iff.mp hafter with ⟨z, rfl, -⟩ | ⟨z, rfl, hz⟩
      · exact List.prefix_append _ _
      · cases z with
        | nil => exact ⟨[], by simp⟩
        | cons b z =>
            obtain ⟨rfl, -⟩ := List.cons.inj hz
            exact absurd (List.mem_append_right x List.mem_cons_self) hpattern

/-- It stands before the bracket or from there on. -/
theorem infix_of_bracket (h : pattern <:+: x ++ openBracket :: y) :
    pattern <:+: x ∨ pattern <:+: openBracket :: y := by
  induction x with
  | nil => exact Or.inr h
  | cons a x ih =>
      rcases List.infix_cons_iff.mp h with hbegins | hlater
      · exact Or.inl (prefix_of_bracket hpattern (List.cons_ne_nil a x) hbegins).isInfix
      · exact (ih hlater).imp_left List.infix_cons

end Brackets

theorem bracket_not_mem_closeMark : openBracket ∉ closeMark.tail := by decide

/-- An open tag has no bracket but the one in front. -/
theorem bracket_not_mem_openTag {b : UInt8} (hb : endsName b = true) :
    openBracket ∉ (openMark ++ [b]).tail := by
  have hne : openBracket ≠ b := by
    rintro rfl
    exact absurd hb (by decide)
  simpa [openMark, openBracket] using hne

/-- A closing mark does not begin in an open tag. -/
theorem infix_of_openTag {b : UInt8} (hb : endsName b = true) {bytes : List UInt8}
    (h : closeMark <:+: openMark ++ [b] ++ bytes) : closeMark <:+: bytes := by
  have hfirst : ¬ closeMark <+: openMark ++ [b] ++ bytes := by
    simp [closeMark, openMark, List.cons_prefix_cons]
  have hlater : closeMark <:+: (openMark ++ [b]).tail ++ bytes :=
    (List.infix_cons_iff.mp h).resolve_left hfirst
  exact infix_of_not_mem (bracket_not_mem_openTag hb) hlater

/-! ### Marks in octets -/

/-- A bracket begins the closing mark, however much of it was matched. -/
theorem matchNext_close_openBracket (matched : Nat) :
    matchNext closeMark matched openBracket = 1 := by
  match matched with
  | 0 | 1 | 2 | 3 | 4 | 5 | 6 | 7 => decide
  | n + 8 => simp [matchNext, closeMark]

/-- What is matched of a mark is what the octets taken end with. -/
theorem take_matchNext (mark : List UInt8) {read : List UInt8} {matched : Nat}
    (hmark : mark.take 1 = [openBracket]) (h : mark.take matched <:+ read) (b : UInt8) :
    mark.take (matchNext mark matched b) <:+ read ++ [b] := by
  unfold matchNext
  split
  · rename_i hnext
    obtain ⟨before, rfl⟩ := h
    rw [List.take_add_one, hnext]
    exact ⟨before, (List.append_assoc _ _ _).symm⟩
  · split
    · rename_i hb
      rw [hmark, hb]
      exact List.suffix_append _ _
    · exact List.nil_suffix

theorem feed_cons (s : Splitter) (b : UInt8) (bytes : List UInt8) :
    s.feed (b :: bytes) = (s.step b).feed bytes := rfl

section Runs

variable {bytes read : List UInt8} (offset start : Nat) {matched : Nat} (found : List Span)
  (dangling : Option Nat)

/-- A splitter stays in a record up to the first closing mark. -/
theorem feed_inside (hmatched : closeMark.take matched <:+ read)
    (h : ¬ closeMark <:+: read ++ bytes) :
    ∃ matched', Splitter.feed ⟨offset, found, .inside start matched⟩ bytes
      = ⟨offset + bytes.length, found, .inside start matched'⟩ := by
  induction bytes generalizing offset matched read with
  | nil => exact ⟨matched, rfl⟩
  | cons b bytes ih =>
      have hnext := take_matchNext closeMark rfl hmatched b
      have hsplit : read ++ b :: bytes = (read ++ [b]) ++ bytes := by simp
      have hcloses : matchNext closeMark matched b ≠ closeMark.length := by
        intro hfull
        rw [hfull, List.take_length] at hnext
        rw [hsplit] at h
        exact h (hnext.isInfix.trans (List.prefix_append _ _).isInfix)
      obtain ⟨matched', hrest⟩ := ih (offset + 1) hnext (hsplit ▸ h)
      refine ⟨matched', ?_⟩
      rw [feed_cons, step_inside hcloses, hrest, List.length_cons, Nat.add_right_comm,
        Nat.add_assoc]

/-- The closing mark ends a record, wherever in it the splitter is. -/
theorem feed_close : Splitter.feed ⟨offset, found, .inside start matched⟩ closeMark
    = ⟨offset + 8, ⟨start, offset + 8⟩ :: found, .between 0 none⟩ := by
  have hbracket : matchNext closeMark matched openBracket ≠ closeMark.length := by
    rw [matchNext_close_openBracket]
    decide
  have hmark : closeMark = openBracket :: closeMark.drop 1 := rfl
  rw [hmark, feed_cons, step_inside hbracket, matchNext_close_openBracket]
  simp [closeMark, Splitter.feed, Splitter.step, matchNext]

/-- No open tag begins in these octets. -/
def NoOpening (bytes : List UInt8) : Prop :=
  ∀ b, endsName b = true → ¬ openMark ++ [b] <:+: bytes

/-- The octets taken since a record ended, and the bracket that is held back. It is one of them,
in its place in the stream. If none is held back, a closing bracket follows each. -/
def Dangling (start : Nat) (read : List UInt8) : Option Nat → Prop
  | none => ∀ before after, read = before ++ openBracket :: after → closeBracket ∈ after
  | some place => ∃ before after, read = before ++ openBracket :: after ∧
      place = start + before.length

/-- One more octet is a bracket to hold back, or closes the one that is, or follows it. -/
theorem dangling_concat {start : Nat} (h : Dangling start read dangling) (b : UInt8) :
    Dangling start (read ++ [b])
      (if b = openBracket then some (start + read.length)
        else if b = closeBracket then none else dangling) := by
  by_cases hopen : b = openBracket
  · rw [if_pos hopen, hopen]
    exact ⟨read, [], rfl, rfl⟩
  rw [if_neg hopen]
  -- The octet is not the bracket itself, so it is behind every bracket that was read.
  have hbehind : ∀ before after, read ++ [b] = before ++ openBracket :: after →
      ∃ after', after = after' ++ [b] ∧ read = before ++ openBracket :: after' := by
    intro before after heq
    rcases List.eq_nil_or_concat' after with rfl | ⟨after', b', rfl⟩
    · exact absurd (List.cons.inj (List.append_inj' heq rfl).2).1 hopen
    · rw [← List.cons_append, ← List.append_assoc] at heq
      obtain ⟨hread, hlast⟩ := List.append_inj' heq rfl
      exact ⟨after', by rw [hlast], hread⟩
  by_cases hclose : b = closeBracket
  · rw [if_pos hclose]
    intro before after heq
    obtain ⟨after', rfl, -⟩ := hbehind before after heq
    exact List.mem_append_right _ (List.mem_singleton.mpr hclose.symm)
  · rw [if_neg hclose]
    cases dangling with
    | none =>
        intro before after heq
        obtain ⟨after', rfl, hread⟩ := hbehind before after heq
        exact List.mem_append_left _ (h before after' hread)
    | some place =>
        obtain ⟨before, after, rfl, hplace⟩ := h
        exact ⟨before, after ++ [b], by simp, hplace⟩

/-- A splitter stays between records while no open tag begins, and holds a bracket back. -/
theorem feed_between (hmatched : openMark.take matched <:+ read)
    (h : NoOpening (read ++ bytes)) :
    ∃ matched' dangling', Splitter.feed ⟨offset, found, .between matched dangling⟩ bytes
        = ⟨offset + bytes.length, found, .between matched' dangling'⟩ ∧
      ∀ start, offset = start + read.length → Dangling start read dangling →
        Dangling start (read ++ bytes) dangling' := by
  induction bytes generalizing offset matched dangling read with
  | nil =>
      refine ⟨matched, dangling, rfl, fun start _ hdangling => ?_⟩
      rwa [List.append_nil]
  | cons b bytes ih =>
      have hnext := take_matchNext openMark rfl hmatched b
      have hsplit : read ++ b :: bytes = (read ++ [b]) ++ bytes := by simp
      have hopens : ¬(matched = openMark.length ∧ endsName b) := by
        rintro ⟨rfl, hb⟩
        rw [List.take_length] at hmatched
        have hsuffix : openMark ++ [b] <:+ read ++ [b] := by
          obtain ⟨before, rfl⟩ := hmatched
          exact ⟨before, by simp⟩
        rw [hsplit] at h
        exact h b hb (hsuffix.isInfix.trans (List.prefix_append _ _).isInfix)
      obtain ⟨matched', dangling', hrest, hheld⟩ :=
        ih (offset + 1) (if b = openBracket then some offset
          else if b = closeBracket then none else dangling) hnext (hsplit ▸ h)
      refine ⟨matched', dangling', ?_, fun start hoffset hdangling => ?_⟩
      · rw [feed_cons, step_between hopens, hrest, List.length_cons, Nat.add_right_comm,
          Nat.add_assoc]
      · subst hoffset
        rw [hsplit]
        refine hheld start ?_ (dangling_concat dangling hdangling b)
        rw [List.length_append, List.length_singleton, Nat.add_assoc]

/-- An open tag begins a record, whatever was matched before it. -/
theorem feed_open {b : UInt8} (hb : endsName b = true) :
    Splitter.feed ⟨offset, found, .between matched dangling⟩ (openMark ++ [b])
      = ⟨offset + 7, found, .inside offset 0⟩ := by
  have hbracket : ¬(matched = openMark.length ∧ endsName openBracket) := fun h =>
    absurd h.2 (by decide)
  have hmark : openMark ++ [b] = openBracket :: (openMark.drop 1 ++ [b]) := rfl
  rw [hmark, feed_cons, step_between hbracket, matchNext_openBracket]
  simp [openMark, Splitter.feed, Splitter.step, matchNext, hb]

end Runs

/-! ### Octets without an open tag -/

theorem noOpening_nil : NoOpening [] := fun _ _ h =>
  absurd (List.infix_nil.mp h) (List.cons_ne_nil _ _)

theorem NoOpening.part {bytes part : List UInt8} (h : NoOpening bytes) (hpart : part <:+: bytes) :
    NoOpening part := fun b hb htag => h b hb (htag.trans hpart)

/-- Five octets end a name, so there are five open tags. -/
theorem noOpening_iff (bytes : List UInt8) : NoOpening bytes ↔
    ∀ b ∈ [0x20, closeBracket, 0x09, 0x0D, 0x0A], ¬ openMark ++ [b] <:+: bytes := by
  have hends (b : UInt8) :
      endsName b = true ↔ b ∈ [0x20, closeBracket, 0x09, 0x0D, 0x0A] := by
    simp [endsName, or_assoc]
  simp only [NoOpening, hends]

end AuditTables.Proofs.Event
