import AuditTables.Proofs.Xml.Token

/-!
# `AuditTables.Proofs.Xml.Piece`: pieces of a document under the reader

The reader of documents takes one character at a time, and what it has built so far is not
its state alone: character data that is being read belongs to the open element only when it
ends. `Stands` says what the reader will have built when that happens, so white space and
comments change nothing in it, which is what `leads_gap` says.

A piece of a document is a text that takes the reader from one such place to another
(`Leads`). Pieces compose (`Leads.append`), and there is a lemma for each kind of them:

* `leads_gap`: white space and comments.
* `leads_open`: a start tag with the character data after it.
* `leads_single`, `leads_close`: an empty tag and an end tag, which complete an element.
  Where the element goes is `Takes`.
-/

set_option autoImplicit false

namespace AuditTables.Proofs.Xml

open AuditTables.Text AuditTables.Xml

/-! ### Between tags -/

/-- What the reader has built: the open elements, innermost first, and the root element if
it is complete. -/
structure Built where
  opened : List Opened
  root : Option Node

/-- The reader is between tags, and has built `b` once the character data it is in ends. -/
inductive Stands : Reader → Built → Prop where
  | blank {offset start : Nat} {read : List Char} {opened : List Opened} {root : Option Node}
      (hblank : stripBoth isSpace read.reverse = []) :
      Stands ⟨offset, opened, root, .text start read⟩ ⟨opened, root⟩
  | data {offset start : Nat} {read text : List Char} {o : Opened} {outer : List Opened}
      {root : Option Node} (hdata : resolve (stripBoth isSpace read.reverse) = .ok text) :
      Stands ⟨offset, o :: outer, root, .text start read⟩
        ⟨{ o with text := o.text ++ String.ofList text } :: outer, root⟩

variable {b b' b'' : Built} {r : Reader}

theorem readerStep_eq (r : Reader) (c : Char) : Reader.machine.step r c
    = (r.take c).map fun next => { next with offset := r.offset + c.utf8Size } := rfl

/-- After a tag, no character data is being read. -/
theorem Stands.afterTag (offset start : Nat) :
    Stands ⟨offset, b.opened, b.root, .text start []⟩ b := .blank rfl

/-- The end of the character data leaves what `Stands` says. -/
theorem Stands.endText (h : Stands r b) :
    ∃ start read, r.mode = .text start read
      ∧ r.endText start read = .ok { r with opened := b.opened, root := b.root } := by
  cases h with
  | @blank offset start read opened root hblank =>
      refine ⟨start, read, rfl, ?_⟩
      simp only [Reader.endText, hblank]
  | @data offset start read text o outer root hdata =>
      refine ⟨start, read, rfl, ?_⟩
      cases hstrip : stripBoth isSpace read.reverse with
      | nil =>
          -- Nothing was written, so nothing is added to the text.
          rw [hstrip] at hdata
          have htext : text = [] := (Except.ok.inj hdata).symm
          simp only [Reader.endText, hstrip, htext, String.ofList_nil, String.append_empty]
      | cons c cs =>
          rw [hstrip] at hdata
          simp only [Reader.endText, hstrip, hdata, Reader.addText]

/-- An opening bracket ends the character data. -/
theorem Stands.step_angle (h : Stands r b) :
    ∃ offset position,
      Reader.machine.step r '<' = .ok ⟨offset, b.opened, b.root, .angle position⟩ := by
  obtain ⟨start, read, hmode, hend⟩ := h.endText
  refine ⟨r.offset + ('<').utf8Size, if Reader.blankRun read then start else r.offset, ?_⟩
  simp only [readerStep_eq, Reader.take, hmode, hend, if_true]
  rfl

/-- A document that ends where its root is complete has that root for its tree. -/
theorem Stands.finish {tree : Node} (h : Stands r ⟨[], some tree⟩) :
    Reader.machine.finish r = .ok tree := by
  obtain ⟨start, read, hmode, hend⟩ := h.endText
  show Reader.finish r = _
  simp only [Reader.finish, Reader.endPiece, hmode, hend]
  rfl

/-! ### Pieces -/

/-- A text takes the reader from where it has built `b` to where it has built `b'`. -/
def Leads (cs : List Char) (b b' : Built) : Prop :=
  ∀ r, Stands r b → ∃ r', Reader.machine.feed r cs = .ok r' ∧ Stands r' b'

theorem Leads.nil : Leads [] b b := fun r hr => ⟨r, rfl, hr⟩

theorem Leads.append {cs ds : List Char} (h : Leads cs b b') (h' : Leads ds b' b'') :
    Leads (cs ++ ds) b b'' := by
  intro r hr
  obtain ⟨r₁, hfirst, hr₁⟩ := h r hr
  obtain ⟨r₂, hsecond, hr₂⟩ := h' r₁ hr₁
  exact ⟨r₂, (Machine.feed_append_of_ok hfirst ds).trans hsecond, hr₂⟩

variable {offset position start : Nat} {opened : List Opened} {root : Option Node}

theorem step_text {x : Char} (hx : x ≠ '<') (read : List Char) :
    Reader.machine.step ⟨offset, opened, root, .text start read⟩ x
      = .ok ⟨offset + x.utf8Size, opened, root, .text start (x :: read)⟩ := by
  simp only [readerStep_eq, Reader.take, if_neg hx]
  rfl

/-- White space between tags changes nothing, as it is not part of character data. -/
theorem leads_space {c : Char} (hspace : c ∈ spaceCharacters) : Leads [c] b b := by
  have hall : ∀ c ∈ spaceCharacters, isSpace c = true ∧ c ≠ '<' := by decide
  obtain ⟨hc, hne⟩ := hall c hspace
  -- What is pending grows by the character and is still the same without its ends.
  have hstrip (read : List Char) :
      stripBoth isSpace (c :: read).reverse = stripBoth isSpace read.reverse := by
    rw [List.reverse_cons, stripBoth_concat hc]
  intro r hr
  cases hr with
  | blank hblank =>
      exact ⟨_, Machine.feed_cons_of_ok (step_text hne _) [], .blank ((hstrip _).trans hblank)⟩
  | data hdata =>
      exact ⟨_, Machine.feed_cons_of_ok (step_text hne _) [], .data ((hstrip _).symm ▸ hdata)⟩

theorem step_comment {x : Char} (hx : x ≠ '>') (read : List Char) :
    Reader.machine.step ⟨offset, opened, root, .bangBody .comment position start read⟩ x
      = .ok ⟨offset + x.utf8Size, opened, root,
          .bangBody .comment position start (x :: read)⟩ := by
  simp only [readerStep_eq, Reader.take, hx, false_and, if_false]
  rfl

/-- A comment ends at a closing bracket after two hyphens. -/
theorem step_commentEnd (body : List Char) :
    Reader.machine.step ⟨offset, opened, root,
        .bangBody .comment position start ('-' :: '-' :: (body.reverse ++ ['-', '-', '!']))⟩ '>'
      = .ok ⟨offset + ('>').utf8Size, opened, root, .text (offset + 1) []⟩ := by
  have hends :
      Reader.bangEnds .comment ('-' :: '-' :: (body.reverse ++ ['-', '-', '!'])) = true := by
    simp [Reader.bangEnds]
  have hcontent : ('-' :: '-' :: (body.reverse ++ ['-', '-', '!'])).reverse
      = '!' :: '-' :: '-' :: (body ++ ['-', '-']) := by simp
  simp only [readerStep_eq, Reader.take, hends, Reader.endBang, hcontent]
  rfl

/-- A comment with a body. -/
def comment (body : List Char) : List Char :=
  '<' :: '!' :: '-' :: '-' :: (body ++ ['-', '-', '>'])

/-- A comment is passed over. It ends the character data before it. -/
theorem feed_comment {body : List Char} (hplain : ∀ c ∈ body, c ≠ '-' ∧ c ≠ '>')
    (hr : Stands r b) :
    ∃ offset' start,
      Reader.machine.feed r (comment body) = .ok ⟨offset', b.opened, b.root, .text start []⟩ := by
  obtain ⟨o, p, hangle⟩ := hr.step_angle
  have hbang : Reader.machine.step ⟨o, b.opened, b.root, .angle p⟩ '!'
      = .ok ⟨o + ('!').utf8Size, b.opened, b.root, .bang p o⟩ := rfl
  have hkind : Reader.machine.step ⟨o + ('!').utf8Size, b.opened, b.root, .bang p o⟩ '-'
      = .ok ⟨o + ('!').utf8Size + ('-').utf8Size, b.opened, b.root,
          .bangBody .comment p o ['-', '!']⟩ := rfl
  -- The second hyphen, the body and the last two hyphens are collected alike: the only
  -- closing bracket is the one that ends the comment.
  have hinside : ∀ x ∈ '-' :: (body ++ ['-', '-']), x ≠ '>' := by
    intro x hx
    simp only [List.mem_cons, List.mem_append, List.not_mem_nil, or_false] at hx
    rcases hx with rfl | hx | rfl | rfl
    · decide
    · exact (hplain x hx).2
    · decide
    · decide
  obtain ⟨o', hcollected⟩ := Machine.feed_collect
    (fun o' read => Reader.mk o' b.opened b.root (.bangBody .comment p o read))
    (fun x hx _ read => ⟨_, step_comment (hinside x hx) read⟩)
    (o + ('!').utf8Size + ('-').utf8Size) ['-', '!']
  have hread : ('-' :: (body ++ ['-', '-'])).reverse ++ ['-', '!']
      = '-' :: '-' :: (body.reverse ++ ['-', '-', '!']) := by simp
  have hsplit : '-' :: (body ++ ['-', '-', '>']) = '-' :: (body ++ ['-', '-']) ++ ['>'] := by simp
  rw [hread] at hcollected
  refine ⟨o' + ('>').utf8Size, o' + 1, ?_⟩
  rw [comment, Machine.feed_cons_of_ok hangle, Machine.feed_cons_of_ok hbang,
    Machine.feed_cons_of_ok hkind, hsplit, Machine.feed_append_of_ok hcollected,
    Machine.feed_cons_of_ok (step_commentEnd body), Machine.feed_nil]

theorem leads_comment {body : List Char} (hplain : ∀ c ∈ body, c ≠ '-' ∧ c ≠ '>') :
    Leads (comment body) b b := by
  intro r hr
  obtain ⟨o, start, hfeed⟩ := feed_comment hplain hr
  exact ⟨_, hfeed, .afterTag _ _⟩

/-- White space and comments change nothing. -/
theorem leads_gap {gap : List Char} (h : Gap gap) : Leads gap b b := by
  induction h with
  | nil => exact .nil
  | space hspace _ ih => exact (leads_space hspace).append ih
  | @comment body rest _ hplain _ ih =>
      have hsplit : '<' :: '!' :: '-' :: '-' :: (body ++ '-' :: '-' :: '>' :: rest)
          = comment body ++ rest := by simp [comment]
      rw [hsplit]
      exact (leads_comment hplain).append ih

/-! ### Start tags -/

/-- The reader collects these characters in a start tag, and is outside quotes after them as
it is before. -/
def Collected (cs : List Char) : Prop :=
  ∀ opened root position start offset read, ∃ offset',
    Reader.machine.feed ⟨offset, opened, root, .tag position start none read⟩ cs
      = .ok ⟨offset', opened, root, .tag position start none (cs.reverse ++ read)⟩

theorem Collected.append {cs ds : List Char} (h : Collected cs) (h' : Collected ds) :
    Collected (cs ++ ds) := by
  intro opened root position start offset read
  obtain ⟨o₁, hfirst⟩ := h opened root position start offset read
  obtain ⟨o₂, hsecond⟩ := h' opened root position start o₁ (cs.reverse ++ read)
  refine ⟨o₂, ?_⟩
  rw [Machine.feed_append_of_ok hfirst, hsecond, List.reverse_append, List.append_assoc]

/-- Outside quotes, a character that neither ends the tag nor opens a quote is collected. -/
theorem step_tagPlain {x : Char} (hx : x ≠ '>' ∧ x ≠ '"' ∧ x ≠ '\'') (read : List Char) :
    Reader.machine.step ⟨offset, opened, root, .tag position start none read⟩ x
      = .ok ⟨offset + x.utf8Size, opened, root, .tag position start none (x :: read)⟩ := by
  simp only [readerStep_eq, Reader.take, Reader.inTag, hx, or_self, if_false]
  rfl

theorem step_tagValue {x quote : Char} (hne : x ≠ quote) (read : List Char) :
    Reader.machine.step ⟨offset, opened, root, .tag position start (some quote) read⟩ x
      = .ok ⟨offset + x.utf8Size, opened, root,
          .tag position start (some quote) (x :: read)⟩ := by
  simp only [readerStep_eq, Reader.take, Reader.inTag, if_neg hne]
  rfl

/-- Characters that neither end a tag nor open a quote are collected. -/
theorem collected_of_plain {cs : List Char} (h : ∀ x ∈ cs, x ≠ '>' ∧ x ≠ '"' ∧ x ≠ '\'') :
    Collected cs := fun opened root position start offset read =>
  Machine.feed_collect
    (fun offset read => Reader.mk offset opened root (.tag position start none read))
    (fun x hx _ read => ⟨_, step_tagPlain (h x hx) read⟩) offset read

/-- A value in quotes is collected, closing brackets in it included. -/
theorem collected_of_quoted {quote : Char} (hquote : quote = '"' ∨ quote = '\'') {cs : List Char}
    (h : ∀ x ∈ cs, x ≠ quote) : Collected (quote :: (cs ++ [quote])) := by
  intro opened root position start offset read
  have hopen : Reader.machine.step ⟨offset, opened, root, .tag position start none read⟩ quote
      = .ok ⟨offset + quote.utf8Size, opened, root,
          .tag position start (some quote) (quote :: read)⟩ := by
    rcases hquote with rfl | rfl <;> rfl
  obtain ⟨o, hinside⟩ := Machine.feed_collect
    (fun offset read => Reader.mk offset opened root (.tag position start (some quote) read))
    (fun x hx _ read => ⟨_, step_tagValue (h x hx) read⟩) (offset + quote.utf8Size) (quote :: read)
  have hclose : Reader.machine.step
        ⟨o, opened, root, .tag position start (some quote) (cs.reverse ++ quote :: read)⟩ quote
      = .ok ⟨o + quote.utf8Size, opened, root,
          .tag position start none (quote :: (cs.reverse ++ quote :: read))⟩ := by
    simp only [readerStep_eq, Reader.take, Reader.inTag, if_true]
    rfl
  refine ⟨o + quote.utf8Size, ?_⟩
  rw [Machine.feed_cons_of_ok hopen, Machine.feed_append_of_ok hinside,
    Machine.feed_cons_of_ok hclose]
  simp

theorem collected_of_fullName {name : List Char} (h : FullName name) : Collected name :=
  collected_of_plain fun _ hx =>
    ⟨h.ne hx (by decide), h.ne hx (by decide), h.ne hx (by decide)⟩

theorem collected_of_spaces {spaces : List Char} (h : ∀ c ∈ spaces, c ∈ spaceCharacters) :
    Collected spaces := by
  have hall : ∀ c ∈ spaceCharacters, c ≠ '>' ∧ c ≠ '"' ∧ c ≠ '\'' := by decide
  exact collected_of_plain fun x hx => hall x (h x hx)

/-- Written attributes are collected. -/
theorem collected_of_attributeList {attributes : List (List Char × String)} {written : List Char}
    (h : AttributeList attributes written) : Collected written := by
  induction h with
  | nil hspaces => exact collected_of_spaces hspaces
  | @cons spaces key written rest value quote attributes _ hspaces hkey hquote hvalue _ ih =>
      have hsplit : spaces ++ (key ++ '=' :: quote :: (written ++ quote :: rest))
          = spaces ++ (key ++ (['='] ++ (quote :: (written ++ [quote]) ++ rest))) := by simp
      have hequals : Collected ['='] := collected_of_plain (by decide)
      have hquoted : Collected (quote :: (written ++ [quote])) :=
        collected_of_quoted hquote fun x hx => ne_quote_of_mem hquote hvalue hx
      rw [hsplit]
      exact (collected_of_spaces hspaces).append
        ((collected_of_fullName hkey).append (hequals.append (hquoted.append ih)))

/-- The first character of a name begins a start tag, being neither of the three that begin
other markup, and the rest of the tag is collected. -/
theorem feed_startTag {name : List Char} {attributes : List (List Char × String)} {tag : List Char}
    (h : StartTag name attributes tag) :
    ∃ offset' start,
      Reader.machine.feed ⟨offset, opened, root, .angle position⟩ tag
        = .ok ⟨offset', opened, root, .tag position start none tag.reverse⟩ := by
  cases h with
  | @mk written _ hname hattributes _ =>
      obtain ⟨c, cs, rfl⟩ := List.exists_cons_of_ne_nil hname.nonempty
      -- It is none of the characters that the reader looks for after the bracket.
      have hdelimiter {x : Char} (hx : x ∈ delimiters) : c ≠ x := hname.ne List.mem_cons_self hx
      have hfirst : Reader.machine.step ⟨offset, opened, root, .angle position⟩ c
          = .ok ⟨offset + c.utf8Size, opened, root, .tag position offset none [c]⟩ := by
        simp only [readerStep_eq, Reader.take, Reader.inTag, if_neg (@hdelimiter '!' (by decide)),
          if_neg (@hdelimiter '/' (by decide)), if_neg (@hdelimiter '?' (by decide)),
          if_neg (@hdelimiter '>' (by decide)), @hdelimiter '"' (by decide),
          @hdelimiter '\'' (by decide), or_self, if_false]
        rfl
      have hrest : Collected (cs ++ written) := by
        refine (collected_of_plain fun x hx => ?_).append (collected_of_attributeList hattributes)
        have hx : x ∈ c :: cs := List.mem_cons_of_mem c hx
        exact ⟨hname.ne hx (by decide), hname.ne hx (by decide), hname.ne hx (by decide)⟩
      obtain ⟨o, hcollected⟩ := hrest opened root position offset (offset + c.utf8Size) [c]
      refine ⟨o, offset, ?_⟩
      rw [List.cons_append, Machine.feed_cons_of_ok hfirst, hcollected, List.reverse_cons]

/-- Written attributes are nothing or begin with white space. -/
theorem AttributeList.stop {attributes : List (List Char × String)} {written : List Char}
    (h : AttributeList attributes written) :
    written.takeWhile (fun c => !isSpace c) = []
      ∧ written.dropWhile (fun c => !isSpace c) = written := by
  have hspace {c : Char} {cs : List Char} (hc : c ∈ spaceCharacters) :
      (c :: cs).takeWhile (fun c => !isSpace c) = []
        ∧ (c :: cs).dropWhile (fun c => !isSpace c) = c :: cs := by
    simp [isSpace_of_mem hc]
  cases h with
  | nil hspaces =>
      cases written with
      | nil => exact ⟨rfl, rfl⟩
      | cons c cs => exact hspace (hspaces c List.mem_cons_self)
  | @cons spaces _ _ _ _ _ _ hsome hspaces =>
      obtain ⟨c, cs, rfl⟩ := List.exists_cons_of_ne_nil hsome
      exact hspace (hspaces c List.mem_cons_self)

/-- What stands in a start tag makes an open element: the name ends where the attributes
begin. -/
theorem openElement_of_startTag {name : List Char} {attributes : List (List Char × String)}
    {tag : List Char} (h : StartTag name attributes tag) :
    Reader.openElement tag = .ok ⟨name, shortKeys attributes, "", []⟩ := by
  cases h with
  | mk hname hattributes hkeys =>
      have hplain : ∀ x ∈ name, (!isSpace x) = true := fun x hx => by
        rw [hname.isSpace_eq_false hx, Bool.not_false]
      rw [Reader.openElement, List.takeWhile_append_of_pos hplain,
        List.dropWhile_append_of_pos hplain, hattributes.stop.1, hattributes.stop.2,
        List.append_nil, readAttributes_of_attributeList hattributes hkeys]
      rfl

/-- Written attributes end with a quote or with white space, if they end. -/
theorem AttributeList.last_ne {attributes : List (List Char × String)} {written : List Char}
    (h : AttributeList attributes written) : written.getLast? ≠ some '/' := by
  have hspaces {spaces : List Char} (hmem : ∀ c ∈ spaces, c ∈ spaceCharacters) :
      spaces.getLast? ≠ some '/' := by
    intro hlast
    exact absurd (hmem _ (List.mem_of_getLast? hlast)) (by decide)
  induction h with
  | nil hmem => exact hspaces hmem
  | @cons spaces key written rest value quote attributes _ _ _ hquote _ _ ih =>
      have hsplit : spaces ++ (key ++ '=' :: quote :: (written ++ quote :: rest))
          = spaces ++ (key ++ '=' :: quote :: written) ++ quote :: rest := by simp
      rw [hsplit, List.getLast?_append]
      cases hrest : rest.getLast? with
      | none =>
          rw [List.getLast?_cons, hrest]
          rcases hquote with rfl | rfl <;> simp
      | some c =>
          rw [hrest] at ih
          rw [List.getLast?_cons, hrest]
          exact ih

/-- No start tag ends with the slash of an empty one. -/
theorem StartTag.not_slash {name : List Char} {attributes : List (List Char × String)}
    {tag content : List Char} (h : StartTag name attributes tag) :
    tag.reverse ≠ '/' :: content := by
  intro heq
  have hlast : tag.getLast? = some '/' := by
    rw [← List.head?_reverse, heq, List.head?_cons]
  cases h with
  | @mk written _ hname hattributes _ =>
      rw [List.getLast?_append] at hlast
      cases hwritten : written.getLast? with
      | none =>
          rw [hwritten, Option.none_or] at hlast
          exact hname.ne (List.mem_of_getLast? hlast) (by decide) rfl
      | some c =>
          rw [hwritten, Option.some_or, ← hwritten] at hlast
          exact hattributes.last_ne hlast

/-- A closing bracket ends a start tag and opens its element. -/
theorem step_startTag {name : List Char} {attributes : List (List Char × String)}
    {tag : List Char} (h : StartTag name attributes tag) :
    Reader.machine.step ⟨offset, opened, root, .tag position start none tag.reverse⟩ '>'
      = .ok ⟨offset + ('>').utf8Size, ⟨name, shortKeys attributes, "", []⟩ :: opened, root,
          .text (offset + 1) []⟩ := by
  have hend : Reader.endTag ⟨offset, opened, root, .tag position start none tag.reverse⟩ position
        tag.reverse
      = .ok ⟨offset, ⟨name, shortKeys attributes, "", []⟩ :: opened, root,
          .tag position start none tag.reverse⟩ := by
    unfold Reader.endTag
    split
    next content hslash => exact absurd hslash h.not_slash
    next => rw [List.reverse_reverse, openElement_of_startTag h]
  simp only [readerStep_eq, Reader.take, Reader.inTag, hend, if_true]
  rfl

/-! ### Character data -/

/-- There is no white space at the ends of written character data. -/
theorem CharacterData.stripBoth_eq {text written : List Char} (h : CharacterData text written) :
    stripBoth isSpace written = written := by
  -- Of white space, only a space may stand in a text as it is.
  have hspace {x : Char} (hx : x ∈ written) (hne : x ≠ ' ') : isSpace x = false := by
    simp only [isSpace, Bool.or_eq_false_iff, beq_eq_false_iff_ne]
    exact ⟨⟨⟨hne, ne_of_mem_escapedText h.escaped hx (by decide) (by decide) (by decide)⟩,
      ne_of_mem_escapedText h.escaped hx (by decide) (by decide) (by decide)⟩,
      ne_of_mem_escapedText h.escaped hx (by decide) (by decide) (by decide)⟩
  refine stripBoth_eq_self (fun c hc => hspace (List.mem_of_head? hc) ?_)
    fun c hc => hspace (List.mem_of_getLast? hc) ?_
  · rintro rfl
    exact h.first hc
  · rintro rfl
    exact h.last hc

/-- Character data after a tag goes to the open element. -/
theorem feed_characterData {text written : List Char} {o : Opened} {outer : List Opened}
    (h : CharacterData text written) :
    ∃ r', Reader.machine.feed ⟨offset, o :: outer, root, .text start []⟩ written = .ok r'
      ∧ Stands r' ⟨{ o with text := o.text ++ String.ofList text } :: outer, root⟩ := by
  have hplain : ∀ x ∈ written, x ≠ '<' := fun x hx =>
    ne_of_mem_escapedText h.escaped hx (by decide) (by decide) (by decide)
  obtain ⟨offset', hcollected⟩ := Machine.feed_collect
    (fun offset read => Reader.mk offset (o :: outer) root (.text start read))
    (fun x hx _ read => ⟨_, step_text (hplain x hx) read⟩) offset []
  refine ⟨_, hcollected, .data ?_⟩
  rw [List.append_nil, List.reverse_reverse, h.stripBoth_eq]
  exact resolve_of_escapedText (by decide) h.escaped

/-- A start tag and the character data after it open an element that has the data. -/
theorem leads_open {name : List Char} {attributes : List (List Char × String)}
    {tag text written : List Char} (htag : StartTag name attributes tag)
    (htext : CharacterData text written) :
    Leads ('<' :: (tag ++ '>' :: written)) b
      ⟨⟨name, shortKeys attributes, String.ofList text, []⟩ :: b.opened, b.root⟩ := by
  intro r hr
  obtain ⟨o, p, hangle⟩ := hr.step_angle
  obtain ⟨o', start, hcontent⟩ := @feed_startTag o p b.opened b.root _ _ _ htag
  obtain ⟨r', hdata, hr'⟩ := @feed_characterData (o' + ('>').utf8Size) (o' + 1) b.root text written
    ⟨name, shortKeys attributes, "", []⟩ b.opened htext
  rw [String.empty_append] at hr'
  refine ⟨r', ?_, hr'⟩
  rw [Machine.feed_cons_of_ok hangle, Machine.feed_append_of_ok hcontent,
    Machine.feed_cons_of_ok (step_startTag htag), hdata]

/-! ### Complete elements -/

/-- A complete element goes to the innermost open one, or is the root if none is open. -/
inductive Takes (node : Node) : Built → Built → Prop where
  | child {o : Opened} {outer : List Opened} {root : Option Node} :
      Takes node ⟨o :: outer, root⟩ ⟨{ o with children := node :: o.children } :: outer, root⟩
  | root : Takes node ⟨[], none⟩ ⟨[], some node⟩

/-- The reader puts a complete element where `Takes` says. -/
theorem addNode_of_takes {node : Node} (h : Takes node b b') (mode : Mode) :
    Reader.addNode ⟨offset, b.opened, b.root, mode⟩ position node
      = .ok ⟨offset, b'.opened, b'.root, mode⟩ := by
  cases h with
  | child => rfl
  | root => rfl

/-- A closed element has the short name of its tag. -/
theorem close_eq (name : List Char) (attributes : List (String × String)) (text : String)
    (children : List Node) :
    Opened.close ⟨name, attributes, text, children⟩
      = .mk (shortName name) attributes text children.reverse := rfl

/-- A tag has a name. -/
theorem StartTag.fullName {name : List Char} {attributes : List (List Char × String)}
    {tag : List Char} (h : StartTag name attributes tag) : FullName name := by
  cases h with
  | mk hname => exact hname

/-- A slash before the closing bracket makes a start tag an empty one. -/
theorem step_emptyTag {name : List Char} {attributes : List (List Char × String)}
    {tag : List Char} (htag : StartTag name attributes tag)
    (htakes : Takes (.mk (shortName name) (shortKeys attributes) "" []) b b') :
    Reader.machine.step
        ⟨offset, b.opened, b.root, .tag position start none ('/' :: tag.reverse)⟩ '>'
      = .ok ⟨offset + ('>').utf8Size, b'.opened, b'.root, .text (offset + 1) []⟩ := by
  simp only [readerStep_eq, Reader.take, Reader.inTag, Reader.endTag, List.reverse_reverse,
    openElement_of_startTag htag, close_eq, List.reverse_nil, addNode_of_takes htakes, if_true]
  rfl

/-- An empty tag is collected up to its closing bracket. -/
theorem feed_emptyTag {name : List Char} {attributes : List (List Char × String)} {tag : List Char}
    (h : StartTag name attributes tag) :
    ∃ offset' start,
      Reader.machine.feed ⟨offset, opened, root, .angle position⟩ (tag ++ ['/'])
        = .ok ⟨offset', opened, root, .tag position start none ('/' :: tag.reverse)⟩ := by
  obtain ⟨o, start, hcontent⟩ := @feed_startTag offset position opened root _ _ _ h
  refine ⟨o + ('/').utf8Size, start, ?_⟩
  rw [Machine.feed_append_of_ok hcontent,
    Machine.feed_cons_of_ok (step_tagPlain (by decide) tag.reverse), Machine.feed_nil]

/-- An empty tag is a complete element. -/
theorem leads_single {name : List Char} {attributes : List (List Char × String)}
    {tag : List Char} (htag : StartTag name attributes tag)
    (htakes : Takes (.mk (shortName name) (shortKeys attributes) "" []) b b') :
    Leads ('<' :: (tag ++ ['/', '>'])) b b' := by
  intro r hr
  obtain ⟨o, p, hangle⟩ := hr.step_angle
  obtain ⟨o', start, hcontent⟩ := @feed_emptyTag o p b.opened b.root _ _ _ htag
  have hsplit : tag ++ ['/', '>'] = tag ++ ['/'] ++ ['>'] := by simp
  refine ⟨⟨o' + ('>').utf8Size, b'.opened, b'.root, .text (o' + 1) []⟩, ?_, .afterTag _ _⟩
  rw [Machine.feed_cons_of_ok hangle, hsplit, Machine.feed_append_of_ok hcontent,
    Machine.feed_cons_of_ok (step_emptyTag htag htakes), Machine.feed_nil]

/-- The name that an end tag gives is all that stands in it. -/
theorem endName_of_fullName {name : List Char} (h : FullName name) :
    Reader.endName ('/' :: name) = name := by
  have hend : name.reverse.dropWhile isSpace = name.reverse := by
    refine List.dropWhile_eq_self_iff.mpr fun hlength hspace => ?_
    have hmem : name.reverse[0] ∈ name := List.mem_reverse.mp (List.getElem_mem hlength)
    exact Bool.false_ne_true ((h.isSpace_eq_false hmem).symm.trans hspace)
  rw [Reader.endName, List.drop_succ_cons, List.drop_zero, hend, List.reverse_reverse, ite_self]

theorem step_endTag {x : Char} (hx : x ≠ '>') (read : List Char) :
    Reader.machine.step ⟨offset, opened, root, .endTag position start read⟩ x
      = .ok ⟨offset + x.utf8Size, opened, root, .endTag position start (x :: read)⟩ := by
  simp only [readerStep_eq, Reader.take, if_neg hx]
  rfl

/-- An end tag is collected up to its closing bracket, whatever is open. -/
theorem feed_endTag {name : List Char} (hname : FullName name) :
    ∃ offset', Reader.machine.feed ⟨offset, opened, root, .angle position⟩ ('/' :: name)
      = .ok ⟨offset', opened, root, .endTag position offset (name.reverse ++ ['/'])⟩ := by
  have hslash : Reader.machine.step ⟨offset, opened, root, .angle position⟩ '/'
      = .ok ⟨offset + ('/').utf8Size, opened, root, .endTag position offset ['/']⟩ := rfl
  obtain ⟨offset', hcollected⟩ := Machine.feed_collect
    (fun offset' read => Reader.mk offset' opened root (.endTag position offset read))
    (fun x hx _ read => ⟨_, step_endTag (hname.ne hx (by decide)) read⟩)
    (offset + ('/').utf8Size) ['/']
  exact ⟨offset', (Machine.feed_cons_of_ok hslash _).trans hcollected⟩

/-- An end tag with the name of the innermost open element completes it. -/
theorem leads_close {name : List Char} {text : String} {attributes : List (String × String)}
    {children : List Node} {outer : List Opened} (hname : FullName name)
    (htakes : Takes (.mk (shortName name) attributes text children.reverse) ⟨outer, root⟩ b') :
    Leads ('<' :: '/' :: (name ++ ['>'])) ⟨⟨name, attributes, text, children⟩ :: outer, root⟩
      b' := by
  intro r hr
  obtain ⟨o, p, hangle⟩ := hr.step_angle
  obtain ⟨o', hcollected⟩ := @feed_endTag o p (⟨name, attributes, text, children⟩ :: outer) root _
    hname
  have hread : (name.reverse ++ ['/']).reverse = '/' :: name := by simp
  have hend : Reader.machine.step
        ⟨o', ⟨name, attributes, text, children⟩ :: outer, root,
          .endTag p o (name.reverse ++ ['/'])⟩ '>'
      = .ok ⟨o' + ('>').utf8Size, b'.opened, b'.root, .text (o' + 1) []⟩ := by
    simp only [readerStep_eq, Reader.take, Reader.closeElement, hread, endName_of_fullName hname,
      close_eq, @addNode_of_takes ⟨outer, root⟩ b' o' p _ htakes, if_true]
    rfl
  refine ⟨⟨o' + ('>').utf8Size, b'.opened, b'.root, .text (o' + 1) []⟩, ?_, .afterTag _ _⟩
  rw [Machine.feed_cons_of_ok hangle, ← List.cons_append, Machine.feed_append_of_ok hcollected,
    Machine.feed_cons_of_ok hend, Machine.feed_nil]

end AuditTables.Proofs.Xml
