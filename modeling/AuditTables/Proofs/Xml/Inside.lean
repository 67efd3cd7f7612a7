import AuditTables.Proofs.Xml.Building

/-!
# `AuditTables.Proofs.Xml.Inside`: the text of an end tag inside of other markup

The text `</Event>` is an end tag only where character data may stand. Inside of a tag, a
quoted value, a comment or other markup it is part of that, and the reader takes it as such.
`text_before_closeTag` is the consequence that matters to anyone who cuts documents at that text:
if a document that stops right behind it is accepted, and its root is an event, then it was an
end tag. There is a lemma for each kind of markup that the text may be inside of.

That a document type does not end with the text, and that its quotation marks are none of the
text, are facts about how the reader got there (`Sound`).
-/

set_option autoImplicit false

namespace AuditTables.Proofs.Xml

open AuditTables.Text AuditTables.Xml

/-- The text of an event's end tag, but for the bracket at its end. -/
def closeName : List Char := ['<', '/', 'E', 'v', 'e', 'n', 't']

/-- The text of an event's end tag. -/
def closeTag : List Char := closeName ++ ['>']

/-! ### How the reader got there -/

/-- A value stands in quotation marks of one of two kinds, and a document type has not closed
more brackets than it has opened. -/
def Sound : Mode → Prop
  | .tag _ _ (some quote) _ => quote = '"' ∨ quote = '\''
  | .bangBody .doctype _ _ read => read.count '>' ≤ read.count '<'
  | _ => True

theorem sound_inTag {r r' : Reader} {position start : Nat} {quote : Option Char}
    {read : List Char} {c : Char} (h : r.inTag position start quote read c = .ok r')
    (hquote : ∀ q, quote = some q → q = '"' ∨ q = '\'') : Sound r'.mode := by
  cases quote with
  | some q =>
      cases h
      by_cases hclose : c = q
      · rw [if_pos hclose]
        trivial
      · rw [if_neg hclose]
        exact hquote q rfl
  | none =>
      simp only [Reader.inTag] at h
      split at h
      · obtain ⟨next, -, -, hmode⟩ := built_resume h
        rw [hmode]
        trivial
      · cases h
        by_cases hopen : c = '"' ∨ c = '\''
        · rw [if_pos hopen]
          exact hopen
        · rw [if_neg hopen]
          trivial

/-- A bracket that does not end a document type closes one that is open. -/
theorem sound_doctype {position start : Nat} {read : List Char} {c : Char}
    (hr : Sound (.bangBody .doctype position start read))
    (hgoes : ¬(c = '>' ∧ Reader.bangEnds .doctype read = true)) :
    Sound (.bangBody .doctype position start (c :: read)) := by
  have hle : read.count '>' ≤ read.count '<' := hr
  show (c :: read).count '>' ≤ (c :: read).count '<'
  by_cases hc : c = '>'
  · subst hc
    have hne : read.count '<' ≠ read.count '>' := fun heq =>
      hgoes ⟨rfl, by simpa [Reader.bangEnds] using heq⟩
    rw [List.count_cons_self, List.count_cons_of_ne (by decide)]
    omega
  · rw [List.count_cons_of_ne hc]
    exact Nat.le_trans hle List.count_le_count_cons

theorem sound_step {r r' : Reader} {c : Char} (h : Reader.machine.step r c = .ok r')
    (hr : Sound r.mode) : Sound r'.mode := by
  obtain ⟨next, htake, -, hmode⟩ := take_of_step h
  rw [hmode]
  unfold Reader.take at htake
  split at htake
  case h_1 start read hbefore =>
      split at htake
      · cases hend : r.endText start read with
        | error fault => rw [hend] at htake; cases htake
        | ok last => rw [hend] at htake; cases htake; trivial
      · cases htake
        trivial
  case h_2 position hbefore =>
      split at htake
      · cases htake
        trivial
      · split at htake
        · cases htake
          trivial
        · split at htake
          · cases htake
            trivial
          · exact sound_inTag htake nofun
  case h_3 position start hbefore =>
      split at htake
      · rename_i kind hkind
        cases htake
        cases kind with
        | comment => trivial
        | cdata => trivial
        | doctype =>
            have hc : c ≠ '>' := by
              rintro rfl
              cases hkind
            simp [Sound, List.count_cons, hc]
      · cases htake
  case h_4 kind position start read hbefore =>
      split at htake
      · obtain ⟨last, -, -, hlast⟩ := built_resume htake
        rw [hlast]
        trivial
      · rename_i hgoes
        cases htake
        cases kind with
        | comment => trivial
        | cdata => trivial
        | doctype =>
            rw [hbefore] at hr
            exact sound_doctype hr hgoes
  case h_5 position start read hbefore =>
      split at htake
      · obtain ⟨last, -, -, hlast⟩ := built_resume htake
        rw [hlast]
        trivial
      · cases htake
        trivial
  case h_6 start read hbefore =>
      split at htake
      · obtain ⟨last, -, -, hlast⟩ := built_resume htake
        rw [hlast]
        trivial
      · cases htake
        trivial
  case h_7 position start quote read hbefore =>
      refine sound_inTag htake fun q hq => ?_
      rw [hbefore, hq] at hr
      exact hr

/-! ### The text inside of markup -/

section

variable {offset position start : Nat} {opened : List Opened} {root : Option Node}
  {last : Reader} {tree : Node}

/-- A document that ends where character data may stand has all its elements closed. -/
theorem opened_of_finish {after : Nat} (hmode : last.mode = .text after [])
    (h : Reader.machine.finish last = .ok tree) : last.opened = [] ∧ last.root = some tree := by
  obtain ⟨offset, opened, root, mode⟩ := last
  obtain rfl : mode = .text after [] := hmode
  cases opened with
  | cons o outer => cases h
  | nil => cases root <;> cases h; exact ⟨rfl, rfl⟩

/-- A reader that collects the text up to its bracket has the bracket before it then. -/
theorem exists_bracket {text : List Char} (state : Nat → List Char → Reader) {read : List Char}
    (hcollect : ∀ x ∈ text, ∀ offset read, ∃ offset',
      Reader.machine.step (state offset read) x = .ok (state offset' (x :: read)))
    (hfeed : Reader.machine.feed (state offset read) (text ++ ['>']) = .ok last) :
    ∃ offset', Reader.machine.step (state offset' (text.reverse ++ read)) '>' = .ok last := by
  obtain ⟨offset', htext⟩ := Machine.feed_collect state hcollect offset read
  rw [Machine.feed_append_of_ok htext] at hfeed
  obtain ⟨next, hstep, hnext⟩ := Machine.exists_of_feed_cons hfeed
  obtain rfl : next = last := Except.ok.inj hnext
  exact ⟨offset', hstep⟩

/-- A start tag that does not end with a slash opens an element. -/
theorem not_after_tag {read : List Char}
    (hstep : Reader.machine.step ⟨offset, opened, root, .tag position start none ('t' :: read)⟩ '>'
      = .ok last) (h : Reader.machine.finish last = .ok tree) : False := by
  obtain ⟨taken, htake, hbuilt, hmode⟩ := take_of_step hstep
  simp only [Reader.take, Reader.inTag, if_true] at htake
  obtain ⟨ended, hended, hbuilt', hmode'⟩ := built_resume htake
  have hopened : ∃ o, ended.opened = o :: opened := by
    unfold Reader.endTag at hended
    split at hended
    · rename_i hslash
      exact absurd (List.cons.inj hslash).1 (by decide)
    · split at hended <;> cases hended
      exact ⟨_, rfl⟩
  obtain ⟨o, ho⟩ := hopened
  have hlast : last.opened = ended.opened := congrArg Built.opened (hbuilt.trans hbuilt')
  rw [(opened_of_finish (hmode.trans hmode') h).1, ho] at hlast
  cases hlast

theorem not_in_tag {read : List Char}
    (hfeed : Reader.machine.feed ⟨offset, opened, root, .tag position start none read⟩ closeTag
      = .ok last) (h : Reader.machine.finish last = .ok tree) : False := by
  have hplain : ∀ x ∈ closeName, x ≠ '>' ∧ x ≠ '"' ∧ x ≠ '\'' := by decide
  obtain ⟨offset', hstep⟩ := exists_bracket
    (fun offset read => ⟨offset, opened, root, .tag position start none read⟩)
    (fun x hx _ read => ⟨_, step_tagPlain (hplain x hx) read⟩) hfeed
  exact not_after_tag hstep h

/-- After an opening bracket, the text begins a start tag. -/
theorem not_after_angle
    (hfeed : Reader.machine.feed ⟨offset, opened, root, .angle position⟩ closeTag = .ok last)
    (h : Reader.machine.finish last = .ok tree) : False := by
  have hplain : ∀ x ∈ closeName.tail, x ≠ '>' ∧ x ≠ '"' ∧ x ≠ '\'' := by decide
  have hbegin : Reader.machine.step ⟨offset, opened, root, .angle position⟩ '<'
      = .ok ⟨offset + ('<').utf8Size, opened, root, .tag position offset none ['<']⟩ := rfl
  have hsplit : closeTag = '<' :: (closeName.tail ++ ['>']) := rfl
  rw [hsplit, Machine.feed_cons_of_ok hbegin] at hfeed
  obtain ⟨offset', hstep⟩ := exists_bracket
    (fun offset' read => ⟨offset', opened, root, .tag position offset none read⟩)
    (fun x hx _ read => ⟨_, step_tagPlain (hplain x hx) read⟩) hfeed
  exact not_after_tag hstep h

/-- In a quoted value, the text is part of the value, which goes on. -/
theorem not_in_value {quote : Char} {read : List Char} (hquote : quote = '"' ∨ quote = '\'')
    (hfeed : Reader.machine.feed ⟨offset, opened, root, .tag position start (some quote) read⟩
      closeTag = .ok last) (h : Reader.machine.finish last = .ok tree) : False := by
  have hne : ∀ x ∈ closeTag, x ≠ quote := by
    rcases hquote with rfl | rfl <;> decide
  obtain ⟨offset', hstep⟩ := exists_bracket
    (fun offset read => ⟨offset, opened, root, .tag position start (some quote) read⟩)
    (fun x hx _ read => ⟨_, step_tagValue (hne x (List.mem_append_left _ hx)) read⟩) hfeed
  rw [step_tagValue (hne '>' (by decide))] at hstep
  cases hstep
  cases h

/-- After an exclamation mark, nothing begins with the text. -/
theorem not_after_bang
    (hfeed : Reader.machine.feed ⟨offset, opened, root, .bang position start⟩ closeTag = .ok last) :
    False := by
  obtain ⟨next, hstep, -⟩ := Machine.exists_of_feed_cons hfeed
  cases hstep

theorem step_bangBody {kind : Bang} {x : Char} {read : List Char}
    (hx : ¬(x = '>' ∧ Reader.bangEnds kind read = true)) :
    Reader.machine.step ⟨offset, opened, root, .bangBody kind position start read⟩ x
      = .ok ⟨offset + x.utf8Size, opened, root, .bangBody kind position start (x :: read)⟩ := by
  simp only [readerStep_eq, Reader.take, if_neg hx]
  rfl

/-- The bracket of the text does not end a comment, a CDATA section or a document type: no hyphen
or bracket of the other kind is before it, and it closes the bracket in front of the text. -/
theorem bangEnds_closeName {kind : Bang} {read : List Char}
    (hsound : Sound (.bangBody kind position start read)) :
    ¬ Reader.bangEnds kind (closeName.reverse ++ read) = true := by
  cases kind with
  | comment => simp [Reader.bangEnds, closeName]
  | cdata => simp [Reader.bangEnds, closeName]
  | doctype =>
      have hle : read.count '>' ≤ read.count '<' := hsound
      have hopen : closeName.reverse.count '<' = 1 := by decide
      have hclose : closeName.reverse.count '>' = 0 := by decide
      simp only [Reader.bangEnds, List.count_append, hopen, hclose, beq_iff_eq]
      omega

/-- In a comment or the like, the text is part of that, which goes on. -/
theorem not_in_bang {kind : Bang} {read : List Char}
    (hsound : Sound (.bangBody kind position start read))
    (hfeed : Reader.machine.feed ⟨offset, opened, root, .bangBody kind position start read⟩ closeTag
      = .ok last) (h : Reader.machine.finish last = .ok tree) : False := by
  have hplain : ∀ x ∈ closeName, x ≠ '>' := by decide
  obtain ⟨offset', hstep⟩ := exists_bracket
    (fun offset read => ⟨offset, opened, root, .bangBody kind position start read⟩)
    (fun x hx _ read => ⟨_, step_bangBody fun hend => hplain x hx hend.1⟩) hfeed
  rw [step_bangBody fun hend => bangEnds_closeName hsound hend.2] at hstep
  cases hstep
  cases h

/-- In a processing instruction, the text ends it without a question mark. -/
theorem not_in_instruction {read : List Char}
    (hfeed : Reader.machine.feed ⟨offset, opened, root, .instruction start read⟩ closeTag
      = .ok last) : False := by
  have hplain : ∀ x ∈ closeName, x ≠ '>' := by decide
  obtain ⟨offset', hstep⟩ := exists_bracket
    (fun offset read => ⟨offset, opened, root, .instruction start read⟩)
    (fun x hx offset read => ⟨offset + x.utf8Size, by
      simp only [readerStep_eq, Reader.take, if_neg (hplain x hx)]
      rfl⟩) hfeed
  obtain ⟨taken, htake, -, -⟩ := take_of_step hstep
  simp only [Reader.take, if_true] at htake
  obtain ⟨ended, hended, -, -⟩ := built_resume htake
  have hmark : ['?'].isPrefixOf (closeName.reverse ++ read) = false := rfl
  rw [Reader.endInstruction, hmark, Bool.and_false] at hended
  cases hended

/-- A name that an end tag gives has a slash in it if the text is the last part of the tag. -/
theorem slash_mem_localName (read : List Char) :
    '/' ∈ localName (Reader.endName (read ++ closeName)) := by
  obtain ⟨front, hfront⟩ : ∃ front, (read ++ closeName).drop 1 = front ++ closeName.tail := by
    cases read with
    | nil => exact ⟨[], rfl⟩
    | cons c read => exact ⟨read ++ ['<'], by simp [closeName]⟩
  -- The name ends with a letter, so no white space is left out.
  have hname : Reader.endName (read ++ closeName) = front ++ closeName.tail := by
    have hreverse : (front ++ closeName.tail).reverse = closeName.tail.reverse ++ front.reverse :=
      List.reverse_append
    have hkeep : (front ++ closeName.tail).reverse.dropWhile isSpace
        = (front ++ closeName.tail).reverse := by
      rw [hreverse]
      rfl
    rw [Reader.endName, hfront, hkeep, List.reverse_reverse, ite_self]
  have hslash : '/' ∈ closeName.tail := by decide
  rw [hname, localName]
  split
  · -- The colon is before the text, so the slash is behind it.
    rename_i rest hrest
    have hsuffix : ':' :: rest <:+ front ++ closeName.tail := hrest ▸ List.dropWhile_suffix _
    rcases List.suffix_or_suffix_of_suffix hsuffix (List.suffix_append front closeName.tail) with
      hshort | hlong
    · have hcolon : ':' ∈ closeName.tail := hshort.subset List.mem_cons_self
      exact absurd hcolon (by decide)
    · rcases List.mem_cons.mp (hlong.subset hslash) with heq | hmem
      · cases heq
      · exact hmem
  · exact List.mem_append_right _ hslash

/-- In an end tag, the text ends it, with a name that is not an event's. -/
theorem not_in_endTag {read : List Char} (hname : tree.name = "Event")
    (hfeed : Reader.machine.feed ⟨offset, opened, root, .endTag position start read⟩ closeTag
      = .ok last) (h : Reader.machine.finish last = .ok tree) : False := by
  have hplain : ∀ x ∈ closeName, x ≠ '>' := by decide
  obtain ⟨offset', hstep⟩ := exists_bracket
    (fun offset read => ⟨offset, opened, root, .endTag position start read⟩)
    (fun x hx _ read => ⟨_, step_endTag (hplain x hx) read⟩) hfeed
  obtain ⟨taken, htake, hbuilt, hmode⟩ := take_of_step hstep
  simp only [Reader.take, if_true] at htake
  obtain ⟨ended, hended, hbuilt', hmode'⟩ := built_resume htake
  obtain ⟨o, outer, -, hclosed, htakes⟩ := takes_closeElement hended
  obtain ⟨hopened, hroot⟩ := opened_of_finish (hmode.trans hmode') h
  -- All elements are closed then, so the one that the tag closes is the root.
  have hlast : built ended = ⟨[], some tree⟩ := by
    rw [← hbuilt', ← hbuilt, built, hopened, hroot]
  rw [hlast] at htakes
  have hclose := (eq_of_takes_root htakes (Or.inr rfl)).2
  obtain rfl : tree = o.close := Option.some.inj (congrArg Built.root hclose)
  have hslash := slash_mem_localName read.reverse
  rw [List.reverse_append, List.reverse_reverse] at hclosed
  rw [hclosed] at hslash
  have hlocal : localName o.fullName = "Event".toList := by
    rw [← hname]
    exact String.toList_ofList.symm
  rw [hlocal] at hslash
  exact absurd hslash (by decide)

end

/-- If a document is accepted that stops right behind the text of an event's end tag, and its root
is an event, then the text is an end tag: character data may stand where it begins. -/
theorem text_before_closeTag {before : List Char} {tree : Node}
    (hbracket : before.head? = some '<')
    (hread : readDocument (before ++ closeTag) = .ok tree) (hname : tree.name = "Event") :
    ∃ r start read, Reader.machine.feed Reader.start before = .ok r ∧
      r.mode = .text start read := by
  obtain ⟨cs, rfl⟩ := List.head?_eq_some_iff.mp hbracket
  have hrun : Reader.machine.run Reader.start ('<' :: cs ++ closeTag) = .ok tree := hread
  obtain ⟨last, hwhole, hfinish⟩ := Machine.exists_of_run hrun
  obtain ⟨r, hbefore, hfeed⟩ := Machine.exists_of_feed_append hwhole
  have hstart : Sound Reader.start.mode := trivial
  have hsound : Sound r.mode :=
    Machine.feed_keeps (P := fun r : Reader => Sound r.mode) sound_step hbefore hstart
  obtain ⟨offset, opened, root, mode⟩ := r
  cases mode with
  | text start read => exact ⟨_, start, read, hbefore, rfl⟩
  | angle position => exact (not_after_angle hfeed hfinish).elim
  | bang position start => exact (not_after_bang hfeed).elim
  | bangBody kind position start read => exact (not_in_bang hsound hfeed hfinish).elim
  | endTag position start read => exact (not_in_endTag hname hfeed hfinish).elim
  | instruction start read => exact (not_in_instruction hfeed).elim
  | tag position start quote read =>
      cases quote with
      | none => exact (not_in_tag hfeed hfinish).elim
      | some q => exact (not_in_value hsound hfeed hfinish).elim

end AuditTables.Proofs.Xml
