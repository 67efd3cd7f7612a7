import AuditTables.Proofs.Xml.Building
import AuditTables.Proofs.Xml.RoundTrip

/-!
# `AuditTables.Proofs.Xml.Truncation`: documents that are cut off or run together

A document may reach the reader without its end, or with more around it than there should be. What
the reader makes of it must not pass for a record that was never written.

`tree_of_cut` says that a cut does not change what is read: a document that is cut off is either
refused or read as the same tree. There are two places where a document may stop (`finish_cases`).
Either its root is complete and stays what it is, or it is in the end tag of the root, where
whatever follows can only belong to the tag (`feed_rootEnd`).

More can be said of a document that begins and ends with its root element. `RootText` is the text of
such a document up to its last bracket, so the proper prefixes of the document are the prefixes of
the text. All of them are refused but one: an end tag may do without its bracket
(`readDocument_cutOff`). Two documents in a row are refused as well (`readDocument_twice`), and so
is a document with text before it or behind it (`readDocument_textBefore`,
`readDocument_textAfter`).
-/

set_option autoImplicit false

namespace AuditTables.Proofs.Xml

open AuditTables.Text AuditTables.Xml

/-! ### Where a document may stop -/

section

variable {r r' : Reader} {tree tree' : Node}

/-- The end of character data does not touch the root. -/
theorem root_endText {start : Nat} {read : List Char} (h : r.endText start read = .ok r') :
    r'.root = r.root := by
  unfold Reader.endText at h
  split at h
  · cases h
    rfl
  · split at h
    · cases h
    · unfold Reader.addText at h
      split at h
      · cases h
        rfl
      · split at h <;> cases h
        rfl

/-- A document may stop where its root is complete, or in the end tag of the root. -/
theorem finish_cases (h : Reader.machine.finish r = .ok tree) :
    r.root = some tree ∨ ∃ offset position start read o,
      r = ⟨offset, [o], none, .endTag position start read⟩ ∧
        Reader.endName read.reverse = o.fullName ∧ o.close = tree := by
  have hfinish : r.endPiece.bind Reader.complete = .ok tree := h
  cases hend : r.endPiece with
  | error fault => rw [hend] at hfinish; cases hfinish
  | ok last =>
      rw [hend] at hfinish
      have hlast : built last = ⟨[], some tree⟩ := by
        obtain ⟨offset, opened, root, mode⟩ := last
        cases opened with
        | cons o outer => cases hfinish
        | nil => cases root <;> cases hfinish; rfl
      have hroot : last.root = some tree := congrArg Built.root hlast
      obtain ⟨offset, opened, root, mode⟩ := r
      cases mode with
      | text start read => exact Or.inl ((root_endText hend).symm.trans hroot)
      | angle position =>
          cases hend
          exact Or.inl hroot
      | bang position start => cases hend
      | bangBody kind position start read => cases hend
      | tag position start quote read => cases hend
      | instruction start read =>
          unfold Reader.endPiece Reader.endInstruction at hend
          simp only at hend
          split at hend <;> cases hend
          exact Or.inl hroot
      | endTag position start read =>
          -- The element that is closed becomes the root, so it is the only one that is open.
          obtain ⟨o, outer, hopened, hname, htakes⟩ := takes_closeElement hend
          rw [hlast] at htakes
          obtain ⟨houter, htree⟩ := eq_of_takes_root htakes (Or.inr rfl)
          cases houter
          obtain rfl : opened = [o] := hopened
          exact Or.inr ⟨offset, position, start, read, o, rfl, hname,
            (Option.some.inj (congrArg Built.root htree)).symm⟩

/-- What follows in the end tag of the root is collected, up to the bracket that ends the tag. Then
the root is complete. -/
theorem feed_rootEnd {offset position start : Nat} {read rest : List Char} {o : Opened}
    (h : Reader.machine.feed ⟨offset, [o], none, .endTag position start read⟩ rest = .ok r') :
    r'.root = some o.close ∨ ∃ offset',
      r' = ⟨offset', [o], none, .endTag position start (rest.reverse ++ read)⟩ := by
  induction rest generalizing offset read with
  | nil =>
      cases h
      exact Or.inr ⟨offset, rfl⟩
  | cons c rest ih =>
      by_cases hbracket : c = '>'
      · subst hbracket
        obtain ⟨next, hstep, hrest⟩ := Machine.exists_of_feed_cons h
        obtain ⟨taken, htake, hbuilt, -⟩ := take_of_step hstep
        simp only [Reader.take, if_true] at htake
        obtain ⟨closed, hclosed, hbuilt', -⟩ := built_resume htake
        obtain ⟨o', outer, hopened, -, htakes⟩ := takes_closeElement hclosed
        obtain ⟨rfl, rfl⟩ := List.cons.inj hopened
        have hroot : (built next).root = some o.close := by
          rw [hbuilt, hbuilt', (eq_of_takes_root htakes (Or.inl rfl)).2]
        exact Or.inl (feed_keeps root_of_moves hrest hroot)
      · rw [Machine.feed_cons_of_ok (step_endTag hbracket read)] at h
        rw [List.reverse_cons, List.append_assoc]
        exact ih h

/-- A document that is accepted is not empty, so its byte order mark, if it has one, does not depend
on what follows. -/
theorem withoutMark_append {document : List Char} (h : readDocument document = .ok tree)
    (rest : List Char) : withoutMark (document ++ rest) = withoutMark document ++ rest := by
  refine withoutMark_append_of_ne_nil ?_ rest
  rintro rfl
  cases h

/-- A cut does not change what is read. If a document is accepted, and it is accepted as well when
it is cut off somewhere, then both are read as the same tree. -/
theorem tree_of_cut {cut document : List Char} (hcut : cut <+: document)
    (hread : readDocument cut = .ok tree) (hread' : readDocument document = .ok tree') :
    tree = tree' := by
  obtain ⟨rest, rfl⟩ := hcut
  rw [readDocument, withoutMark_append hread] at hread'
  obtain ⟨r, hfeed, hfinish⟩ := Machine.exists_of_run hread
  obtain ⟨last, hwhole, hfinish'⟩ := Machine.exists_of_run hread'
  rw [Machine.feed_append_of_ok hfeed] at hwhole
  -- A complete root is the tree of the whole document, as it stays.
  have hstays {node : Node} {s : Reader} (hroot : s.root = some node)
      (hlast : Moves (built s) ⟨[], some tree'⟩) : node = tree' :=
    (Option.some.inj (root_of_moves hlast hroot)).symm
  rcases finish_cases hfinish with hroot | ⟨offset, position, start, read, o, rfl, -, rfl⟩
  · exact hstays (feed_keeps root_of_moves hwhole hroot) (moves_finish hfinish')
  · rcases feed_rootEnd hwhole with hroot | ⟨offset', rfl⟩
    · exact hstays hroot (moves_finish hfinish')
    · -- The whole document stops in the same end tag.
      rcases finish_cases hfinish' with hroot | ⟨_, _, _, _, o', heq, -, hclose⟩
      · cases hroot
      · cases heq
        exact hclose

end

/-! ### Documents that begin and end with their root -/

/-- The text of a document that begins with its root element, up to the closing bracket that ends
the root and the document. -/
inductive RootText : Node → List Char → Prop where
  | single {tag name : List Char} {attributes : List (List Char × String)}
      (htag : StartTag name attributes tag) :
      RootText (.mk (shortName name) (shortKeys attributes) "" []) ('<' :: (tag ++ ['/']))
  | element {tag written inner name : List Char} {text : String}
      {attributes : List (List Char × String)} {children : List Node}
      (htag : StartTag name attributes tag) (htext : CharacterData text.toList written)
      (hchildren : Markup children inner) :
      RootText (.mk (shortName name) (shortKeys attributes) text children)
        ('<' :: (tag ++ '>' :: (written ++ (inner ++ '<' :: '/' :: name))))

variable {tree tree' : Node} {text : List Char}

theorem RootText.markup (h : RootText tree text) : Markup [tree] (text ++ ['>']) := by
  cases h with
  | single htag => simpa using Markup.single .nil htag (.gap .nil)
  | element htag htext hchildren =>
      simpa using Markup.element .nil htag htext hchildren (.gap .nil)

/-- The reader is before the last bracket of a tree, which is all that it lacks. How the text of the
tree ends tells the two kinds of tag apart. -/
inductive LacksBracket (tree : Node) (text : List Char) (b : Built) : Reader → Prop where
  | emptyTag {tag name : List Char} {attributes : List (List Char × String)}
      {offset position start : Nat} (htag : StartTag name attributes tag)
      (htree : tree = .mk (shortName name) (shortKeys attributes) "" [])
      (hlast : text.getLast? = some '/') : LacksBracket tree text b
        ⟨offset, b.opened, b.root, .tag position start none ('/' :: tag.reverse)⟩
  | endTag {offset position start : Nat} {o : Opened} {read : List Char}
      (hname : FullName o.fullName) (hread : read.reverse = '/' :: o.fullName)
      (htree : tree = o.close) (hlast : text.getLast? ≠ some '/') : LacksBracket tree text b
        ⟨offset, o :: b.opened, b.root, .endTag position start read⟩

/-- The text of a tree takes the reader to where it lacks the bracket only, whatever has been
built. -/
theorem RootText.feed (h : RootText tree text) {r : Reader} {b : Built} (hr : Stands r b) :
    ∃ r', Reader.machine.feed r text = .ok r' ∧ LacksBracket tree text b r' := by
  cases h with
  | single htag =>
      obtain ⟨o, p, hangle⟩ := hr.step_angle
      obtain ⟨o', start, hcontent⟩ := @feed_emptyTag o p b.opened b.root _ _ _ htag
      refine ⟨_, (Machine.feed_cons_of_ok hangle _).trans hcontent, .emptyTag htag rfl ?_⟩
      rw [← List.cons_append, List.getLast?_concat]
  | @element tag written inner name text attributes children htag htext hchildren =>
      -- The children join the element that the start tag has opened.
      have hopen := @leads_open b _ _ _ _ _ htag htext
      have hinner := leads_of_markup hchildren
        (takesAll_children children ⟨name, shortKeys attributes, text, []⟩ b.opened b.root)
      rw [String.ofList_toList] at hopen
      rw [List.append_nil] at hinner
      obtain ⟨r₁, hfeed, hr₁⟩ := (hopen.append hinner) r hr
      obtain ⟨o, p, hangle⟩ := hr₁.step_angle
      obtain ⟨o', htag'⟩ := @feed_endTag o p
        (⟨name, shortKeys attributes, text, children.reverse⟩ :: b.opened) b.root _ htag.fullName
      have hsplit : '<' :: (tag ++ '>' :: (written ++ (inner ++ '<' :: '/' :: name)))
          = '<' :: (tag ++ '>' :: written) ++ inner ++ '<' :: '/' :: name := by simp
      have hlast : ('<' :: (tag ++ '>' :: written) ++ inner ++ '<' :: '/' :: name).getLast?
          = name.getLast? := by
        obtain ⟨c, cs, rfl⟩ := List.exists_cons_of_ne_nil htag.fullName.nonempty
        rw [List.getLast?_append, List.getLast?_cons_cons, List.getLast?_cons_cons,
          List.getLast?_cons, Option.some_or]
      refine ⟨⟨o', ⟨name, shortKeys attributes, text, children.reverse⟩ :: b.opened, b.root,
        .endTag p o (name.reverse ++ ['/'])⟩, ?_, .endTag htag.fullName (by simp) ?_ ?_⟩
      · rw [hsplit, Machine.feed_append_of_ok hfeed, Machine.feed_cons_of_ok hangle]
        exact htag'
      · rw [close_eq, List.reverse_reverse]
      · rw [hsplit, hlast]
        exact fun hslash => htag.fullName.ne (List.mem_of_getLast? hslash) (by decide) rfl

/-! ### Cuts -/

/-- An end tag that gives the name has all of it. -/
theorem eq_nil_of_endName {name content rest : List Char} (h : FullName name)
    (hsplit : content ++ rest = '/' :: name) (hend : Reader.endName content = name) :
    rest = [] := by
  cases content with
  | nil => exact absurd hend.symm h.nonempty
  | cons c cs =>
      obtain ⟨rfl, rfl⟩ := List.cons.inj hsplit
      have hname : Reader.endName ('/' :: cs) = cs := by
        by_cases hnil : cs = []
        · rw [hnil]
          rfl
        · exact endName_of_fullName ⟨hnil, fun c hc => h.plain c (List.mem_append_left _ hc)⟩
      rw [hname] at hend
      exact List.self_eq_append_right.mp hend

/-- A document that begins and ends with its root is refused wherever it is cut off, but for one
place: the end tag of the root may do without its bracket, and then the tree is the same. -/
theorem readDocument_cutOff {cut : List Char} (h : RootText tree text) (hcut : cut <+: text) :
    readDocument cut = .ok tree' ↔
      cut = text ∧ text.getLast? ≠ some '/' ∧ tree' = tree := by
  have hstart : Stands Reader.start ⟨[], none⟩ := .blank rfl
  obtain ⟨last, hfeed, hlacks⟩ := h.feed hstart
  obtain ⟨rest, hsplit⟩ := hcut
  have hmark : withoutMark cut = cut := by
    have hbracket : text.head? = some '<' := by cases h <;> rfl
    cases cut with
    | nil => rfl
    | cons c cs =>
        rw [← hsplit] at hbracket
        obtain rfl : c = '<' := Option.some.inj hbracket
        rfl
  constructor
  · intro hread
    rw [readDocument, hmark] at hread
    obtain ⟨r, hr, hfinish⟩ := Machine.exists_of_run hread
    rw [← hsplit, Machine.feed_append_of_ok hr] at hfeed
    -- Before the last bracket no root is complete, so the cut is in the end tag of the root.
    have hroot : last.root = none := by cases hlacks <;> rfl
    have hnone {node : Node} (hsome : last.root = some node) : False := by
      rw [hroot] at hsome
      cases hsome
    rcases finish_cases hfinish with hcomplete | ⟨offset, position, start, read, o, rfl, hend, rfl⟩
    · exact (hnone (feed_keeps root_of_moves hfeed hcomplete)).elim
    · rcases feed_rootEnd hfeed with hcomplete | ⟨offset', rfl⟩
      · exact (hnone hcomplete).elim
      · cases hlacks with
        | endTag hname hcontent htree hlast =>
            rw [List.reverse_append, List.reverse_reverse] at hcontent
            obtain rfl := eq_nil_of_endName hname hcontent hend
            rw [List.append_nil] at hsplit
            exact ⟨hsplit, hlast, htree.symm⟩
  · rintro ⟨rfl, hlast, rfl⟩
    rw [readDocument, hmark, Machine.run_eq_bind, hfeed]
    cases hlacks with
    | emptyTag _ _ hslash => exact absurd hslash hlast
    | endTag hname hcontent htree _ =>
        show Reader.finish _ = _
        simp only [Reader.finish, Reader.endPiece, Reader.closeElement, hcontent,
          endName_of_fullName hname, if_true, htree]
        rfl

/-- An end tag without its bracket is enough for an element without content. -/
theorem readDocument_cutOff_lastBracket :
    readDocument "<a></a".toList = .ok (.mk "a" [] "" []) := by
  have hletter : FullName ['a'] := ⟨by decide, by decide⟩
  have htag : StartTag ['a'] [] ['a'] := .mk hletter (.nil (by decide)) List.nodup_nil
  have hempty : CharacterData "".toList [] := ⟨.nil, by decide, by decide⟩
  have htext : RootText (.mk (shortName ['a']) (shortKeys []) "" []) "<a></a".toList :=
    .element htag hempty (.gap .nil)
  exact (readDocument_cutOff htext List.prefix_rfl).mpr ⟨rfl, by decide, rfl⟩

/-! ### More than one document -/

/-- A second root is refused at its last bracket. -/
theorem step_secondRoot {r : Reader} (h : LacksBracket tree' text ⟨[], some tree⟩ r) :
    ∃ position, Reader.machine.step r '>' = .error ⟨.manyRoots, .octet position⟩ := by
  cases h with
  | @emptyTag _ _ _ offset position start htag htree =>
      refine ⟨position, ?_⟩
      simp only [readerStep_eq, Reader.take, Reader.inTag, Reader.endTag, List.reverse_reverse,
        openElement_of_startTag htag, if_true]
      rfl
  | @endTag offset position start o read hname hread =>
      refine ⟨position, ?_⟩
      simp only [readerStep_eq, Reader.take, Reader.closeElement, hread, endName_of_fullName hname,
        if_true]
      rfl

/-- After a document, with white space and comments around it, the reader stands where the root is
complete. -/
theorem feed_document {document : List Char} (h : Markup [tree] document) :
    ∃ r, Reader.machine.feed Reader.start document = .ok r ∧ Stands r ⟨[], some tree⟩ := by
  have hstart : Stands Reader.start ⟨[], none⟩ := .blank rfl
  exact leads_of_markup h (.cons .root .nil) Reader.start hstart

/-- A document with another one behind it is refused, whatever white space and comments stand
between the two, and whatever comes next. -/
theorem readDocument_twice {document gap : List Char} (h : Markup [tree] document) (hgap : Gap gap)
    (h' : RootText tree' text) (rest : List Char) :
    ∃ position, readDocument (document ++ (gap ++ (text ++ '>' :: rest)))
      = .error ⟨.manyRoots, .octet position⟩ := by
  obtain ⟨r, hfirst, hr⟩ := feed_document h
  obtain ⟨r₁, hbetween, hr₁⟩ := leads_gap hgap r hr
  obtain ⟨r₂, hsecond, hlacks⟩ := h'.feed hr₁
  obtain ⟨position, hstep⟩ := step_secondRoot hlacks
  have hfeed : Reader.machine.feed Reader.start (document ++ (gap ++ text)) = .ok r₂ := by
    rw [Machine.feed_append_of_ok hfirst, Machine.feed_append_of_ok hbetween, hsecond]
  refine ⟨position, ?_⟩
  rw [readDocument, withoutMark_append (readDocument_of_markup h), withoutMark_of_markup h]
  have hrefused := Machine.run_refused hfeed hstep rest
  simpa only [List.append_assoc] using hrefused

/-! ### Text outside of the root -/

/-- Text that can neither begin markup nor a reference, and that is not all white space. -/
structure StrayText (text : List Char) : Prop where
  plain : ∀ c ∈ text, c ≠ '<' ∧ c ≠ '&'
  visible : ∃ c ∈ text, isBlank c = false

/-- Stray text is refused where nothing is open. -/
theorem endText_stray {r : Reader} {read : List Char} (hopened : r.opened = [])
    (h : StrayText read.reverse) (position : Nat) :
    r.endText position read = .error ⟨.textOutsideRoot, .octet position⟩ := by
  obtain ⟨c, hc, hblank⟩ := h.visible
  have hspace : isSpace c = false := by
    rw [Bool.eq_false_iff]
    intro hspace
    exact Bool.false_ne_true (hblank.symm.trans (isBlank_of_isSpace hspace))
  have hkept : c ∈ stripBoth isSpace read.reverse := mem_stripBoth hspace hc
  have hresolve : resolve (stripBoth isSpace read.reverse)
      = .ok (stripBoth isSpace read.reverse) := by
    refine resolve_of_escapedText (List.mem_singleton_self '&') (escapedText_self fun x hx => ?_)
    rw [List.mem_singleton]
    exact (h.plain x (mem_of_mem_stripBoth hx)).2
  have hall : (stripBoth isSpace read.reverse).all isBlank = false :=
    List.all_eq_false.mpr ⟨c, hkept, by rw [hblank]; exact Bool.false_ne_true⟩
  unfold Reader.endText
  split
  · rename_i hnil
    rw [hnil] at hkept
    cases hkept
  · rw [hresolve]
    simp only [Reader.addText, hopened, hall]
    rfl

/-- Text is collected where character data may stand. -/
theorem feed_stray {offset start : Nat} {opened : List Opened} {root : Option Node}
    (h : StrayText text) (read : List Char) :
    ∃ offset', Reader.machine.feed ⟨offset, opened, root, .text start read⟩ text
      = .ok ⟨offset', opened, root, .text start (text.reverse ++ read)⟩ :=
  Machine.feed_collect (fun offset read => Reader.mk offset opened root (.text start read))
    (fun x hx _ read => ⟨_, step_text (h.plain x hx).1 read⟩) offset read

/-- Text before a document is refused, whatever comes next. A byte order mark is no text. -/
theorem readDocument_textBefore (h : StrayText text) (hmark : ∀ c ∈ text.head?, c.toNat ≠ 0xFEFF)
    (rest : List Char) :
    readDocument (text ++ '<' :: rest) = .error ⟨.textOutsideRoot, .octet 0⟩ := by
  have hwithout : withoutMark (text ++ '<' :: rest) = text ++ '<' :: rest := by
    cases text with
    | nil => rfl
    | cons c cs => rw [List.cons_append, withoutMark, if_neg (hmark c rfl)]
  obtain ⟨offset, hfeed⟩ := @feed_stray text 0 0 [] none h []
  have hstray : StrayText (text.reverse ++ []).reverse := by
    rwa [List.append_nil, List.reverse_reverse]
  have hend := @endText_stray ⟨offset, [], none, .text 0 (text.reverse ++ [])⟩ _ rfl hstray 0
  have hstep : Reader.machine.step ⟨offset, [], none, .text 0 (text.reverse ++ [])⟩ '<'
      = .error ⟨.textOutsideRoot, .octet 0⟩ := by
    simp only [readerStep_eq, Reader.take, hend, if_true]
    rfl
  rw [readDocument, hwithout]
  exact Machine.run_refused hfeed hstep rest

/-- Text behind a document is refused. -/
theorem readDocument_textAfter {document : List Char} (h : Markup [tree] document)
    (htext : StrayText text) :
    ∃ position, readDocument (document ++ text) = .error ⟨.textOutsideRoot, .octet position⟩ := by
  obtain ⟨r, hfeed, hr⟩ := feed_document h
  cases hr with
  | @blank offset start read _ _ hblank =>
      obtain ⟨offset', htail⟩ := @feed_stray text offset start [] (some tree) htext read
      -- What was read before the text is white space, so all of it is stray text.
      have hspace {c : Char} (hc : c ∈ read.reverse) : isSpace c = true := by
        by_contra hvisible
        have hkept := mem_stripBoth (Bool.eq_false_iff.mpr hvisible) hc
        rw [hblank] at hkept
        cases hkept
      have hstray : StrayText (text.reverse ++ read).reverse := by
        rw [List.reverse_append, List.reverse_reverse]
        refine ⟨fun c hc => ?_, ?_⟩
        · rcases List.mem_append.mp hc with hc | hc
          · constructor
            · rintro rfl
              exact absurd (hspace hc) (by decide)
            · rintro rfl
              exact absurd (hspace hc) (by decide)
          · exact htext.plain c hc
        · obtain ⟨c, hc, hvisible⟩ := htext.visible
          exact ⟨c, List.mem_append_right _ hc, hvisible⟩
      refine ⟨start, ?_⟩
      rw [readDocument, withoutMark_append (readDocument_of_markup h), withoutMark_of_markup h,
        Machine.run_eq_bind, Machine.feed_append_of_ok hfeed, htail]
      show Reader.finish _ = _
      simp only [Reader.finish, Reader.endPiece]
      rw [endText_stray rfl hstray]
      rfl

end AuditTables.Proofs.Xml
