import AuditTables.Proofs.Xml.SideBySide

/-!
# `AuditTables.Proofs.Xml.Comment`: comments in character data

A comment is not part of a document's content, but it ends the character data before it. The reader
takes what stands before a comment and what stands behind it as two runs, and takes the white space
from the ends of each of them. In the middle of a text there was no end, and so white space there
is part of the text without the comment and lost with it.

`lostBetween` is that white space: nothing if one of the two parts is nothing but white space, and
otherwise all that there is where the parts meet. `readDocument_comment` says that this is the whole
difference. With a comment put into the character data of an element, the reader refuses the
documents that it refuses without it. From all others it reads the same tree, but for one text,
which lacks the white space (`Lacks`). So the comment changes nothing exactly where no white space
is lost (`readDocument_comment_iff`), and `lostBetween_eq_nil_iff` says where that is.

The difference is made in one element. It is carried to the end of the document as a relation that
two readers keep (`kept_builtLacks`), and for that it is defined for trees, for open elements and
for all that is built.
-/

set_option autoImplicit false

namespace AuditTables.Proofs.Xml

open AuditTables.Text AuditTables.Xml

/-! ### White space where two parts meet -/

/-- The characters of a class that two parts lose between them if each is trimmed by itself. If one
part has no other characters, they are at an end of the whole too. -/
def lostBetween (drop : Char → Bool) (cs ds : List Char) : List Char :=
  if cs.all drop || ds.all drop then []
  else (cs.reverse.takeWhile drop).reverse ++ ds.takeWhile drop

variable {drop : Char → Bool} {cs ds : List Char}

theorem all_lostBetween : ∀ c ∈ lostBetween drop cs ds, drop c = true := by
  intro c hc
  unfold lostBetween at hc
  split at hc
  · cases hc
  · rcases List.mem_append.mp hc with hc | hc
    · exact List.mem_takeWhile_imp (List.mem_reverse.mp hc)
    · exact List.mem_takeWhile_imp hc

theorem takeWhile_eq_nil : cs.takeWhile drop = [] ↔ ∀ c ∈ cs.head?, drop c = false := by
  cases cs with
  | nil => simp
  | cons c cs => simp [List.takeWhile_cons]

/-- A list that has other characters begins with some of the class and one of the others. -/
theorem exists_first_kept (h : ds.all drop = false) :
    ∃ d rest, drop d = false ∧ ds = ds.takeWhile drop ++ d :: rest := by
  cases hrest : ds.dropWhile drop with
  | nil =>
      have hall : ds.all drop = true := List.all_eq_true.mpr (List.dropWhile_eq_nil_iff.mp hrest)
      rw [hall] at h
      cases h
  | cons d rest =>
      refine ⟨d, rest, ?_, ?_⟩
      · have hhead := List.head?_dropWhile_not drop ds
        rw [hrest] at hhead
        exact hhead
      · rw [← hrest, List.takeWhile_append_dropWhile]

/-- It ends likewise. -/
theorem exists_last_kept (h : cs.all drop = false) :
    ∃ c front, drop c = false ∧ cs = front ++ c :: (cs.reverse.takeWhile drop).reverse := by
  have hreverse : cs.reverse.all drop = false := by rw [List.all_reverse, h]
  obtain ⟨c, front, hc, hfront⟩ := exists_first_kept hreverse
  have hturned := congrArg List.reverse hfront
  rw [List.reverse_reverse, List.reverse_append, List.reverse_cons, List.append_assoc,
    List.singleton_append] at hturned
  exact ⟨c, front.reverse, hc, hturned⟩

/-- Characters of the class between two others are lost if the parts are trimmed by themselves. -/
theorem stripBoth_append_of_kept {c d : Char} (hc : drop c = false) (hd : drop d = false)
    {spaces spaces' : List Char} (hspaces : ∀ c ∈ spaces, drop c = true)
    (hspaces' : ∀ c ∈ spaces', drop c = true) (front rest : List Char) :
    stripBoth drop (front ++ c :: spaces ++ (spaces' ++ d :: rest))
      = stripBoth drop (front ++ c :: spaces)
        ++ (spaces ++ spaces' ++ stripBoth drop (spaces' ++ d :: rest)) := by
  have hwhole : front ++ c :: spaces ++ (spaces' ++ d :: rest)
      = front ++ c :: (spaces ++ spaces' ++ d :: rest) := by simp
  have hbefore : front ++ c :: spaces = front ++ [c] ++ spaces := by simp
  rw [hwhole, stripBoth_between hc hd, hbefore, stripBoth_append_of_all hspaces,
    stripBoth_of_all_append hspaces']

/-- Trimmed as a whole, two parts are the same as trimmed by themselves, but for what is lost. -/
theorem stripBoth_append (drop : Char → Bool) (cs ds : List Char) :
    stripBoth drop (cs ++ ds)
      = stripBoth drop cs ++ (lostBetween drop cs ds ++ stripBoth drop ds) := by
  unfold lostBetween
  by_cases hcs : cs.all drop = true
  · rw [hcs, Bool.true_or, if_pos rfl, stripBoth_of_all hcs,
      stripBoth_of_all_append (List.all_eq_true.mp hcs)]
    rfl
  · by_cases hds : ds.all drop = true
    · rw [hds, Bool.or_true, if_pos rfl, stripBoth_of_all hds,
        stripBoth_append_of_all (List.all_eq_true.mp hds), List.append_nil, List.append_nil]
    · rw [Bool.not_eq_true] at hcs hds
      rw [hcs, hds, Bool.or_false, if_neg Bool.false_ne_true]
      -- Each part has a character that is kept, where its white space ends.
      obtain ⟨c, front, hc, hfront⟩ := exists_last_kept hcs
      obtain ⟨d, rest, hd, hrest⟩ := exists_first_kept hds
      have hspaces : ∀ c ∈ (cs.reverse.takeWhile drop).reverse, drop c = true :=
        fun x hx => List.mem_takeWhile_imp (List.mem_reverse.mp hx)
      have hspaces' : ∀ c ∈ ds.takeWhile drop, drop c = true := fun _ => List.mem_takeWhile_imp
      -- From here on it does not matter how the white space was found.
      generalize (cs.reverse.takeWhile drop).reverse = spaces at hfront hspaces ⊢
      generalize ds.takeWhile drop = spaces' at hrest hspaces' ⊢
      rw [hfront, hrest]
      exact stripBoth_append_of_kept hc hd hspaces hspaces' front rest

/-- Nothing is lost next to a part without other characters, and where no character of the class
stands on either side. -/
theorem lostBetween_eq_nil_iff : lostBetween drop cs ds = [] ↔
    cs.all drop = true ∨ ds.all drop = true ∨
      (∀ c ∈ cs.getLast?, drop c = false) ∧ ∀ d ∈ ds.head?, drop d = false := by
  unfold lostBetween
  rw [← List.head?_reverse, ← takeWhile_eq_nil, ← takeWhile_eq_nil, ← or_assoc]
  by_cases hblank : cs.all drop = true ∨ ds.all drop = true
  · rw [if_pos (Bool.or_eq_true_iff.mpr hblank)]
    exact ⟨fun _ => Or.inl hblank, fun _ => rfl⟩
  · rw [if_neg (mt Bool.or_eq_true_iff.mp hblank), List.append_eq_nil_iff, List.reverse_eq_nil_iff]
    exact ⟨Or.inr, fun h => h.resolve_left hblank⟩

/-! ### Trees that differ in one text -/

/-- Two trees are the same but for the text of one element: the second tree lacks a part that the
first has there. -/
inductive Lacks (gap : String) : Node → Node → Prop where
  | text (name : String) (attributes : List (String × String)) (before after : String)
      (children : List Node) :
      Lacks gap (.mk name attributes (before ++ gap ++ after) children)
        (.mk name attributes (before ++ after) children)
  | child (name : String) (attributes : List (String × String)) (text : String)
      (before after : List Node) {node node' : Node} (h : Lacks gap node node') :
      Lacks gap (.mk name attributes text (before ++ node :: after))
        (.mk name attributes text (before ++ node' :: after))

/-- The same for two open elements: the part is in the text of the element or inside of a child. -/
inductive OpenedLacks (gap : String) : Opened → Opened → Prop where
  | text (fullName : List Char) (attributes : List (String × String)) (before after : String)
      (children : List Node) :
      OpenedLacks gap ⟨fullName, attributes, before ++ gap ++ after, children⟩
        ⟨fullName, attributes, before ++ after, children⟩
  | child (fullName : List Char) (attributes : List (String × String)) (text : String)
      (later earlier : List Node) {node node' : Node} (h : Lacks gap node node') :
      OpenedLacks gap ⟨fullName, attributes, text, later ++ node :: earlier⟩
        ⟨fullName, attributes, text, later ++ node' :: earlier⟩

/-- The same for all open elements: the difference is in one of them. -/
inductive AmongLacks (gap : String) : List Opened → List Opened → Prop where
  | head {o o' : Opened} (h : OpenedLacks gap o o') (outer : List Opened) :
      AmongLacks gap (o :: outer) (o' :: outer)
  | tail (o : Opened) {outer outer' : List Opened} (h : AmongLacks gap outer outer') :
      AmongLacks gap (o :: outer) (o :: outer')

/-- The same for what two readers have built. -/
inductive BuiltLacks (gap : String) : Built → Built → Prop where
  | opened {opened opened' : List Opened} (h : AmongLacks gap opened opened')
      (root : Option Node) : BuiltLacks gap ⟨opened, root⟩ ⟨opened', root⟩
  | root (opened : List Opened) {tree tree' : Node} (h : Lacks gap tree tree') :
      BuiltLacks gap ⟨opened, some tree⟩ ⟨opened, some tree'⟩

section

variable {gap : String}

/-- The trees are the same only if nothing is lacking. -/
theorem Lacks.eq_iff {tree tree' : Node} (h : Lacks gap tree tree') : tree = tree' ↔ gap = "" := by
  induction h with
  | text name attributes before after children =>
      constructor
      · intro heq
        have htext : before ++ gap ++ after = before ++ after := congrArg Node.text heq
        have hlength := congrArg String.length htext
        simp only [String.length_append] at hlength
        have hzero : gap.length = 0 := by omega
        exact String.length_eq_zero_iff.mp hzero
      · rintro rfl
        rw [String.append_empty]
  | child name attributes text before after h ih =>
      rw [← ih]
      constructor
      · intro heq
        have hchildren := congrArg Node.children heq
        exact (List.cons.inj (List.append_cancel_left hchildren)).1
      · rintro rfl
        rfl

theorem OpenedLacks.fullName_eq {o o' : Opened} (h : OpenedLacks gap o o') :
    o.fullName = o'.fullName := by
  cases h with
  | text => rfl
  | child => rfl

theorem OpenedLacks.writes {o o' : Opened} (h : OpenedLacks gap o o') (text : String) :
    OpenedLacks gap { o with text := o.text ++ text } { o' with text := o'.text ++ text } := by
  cases h with
  | text fullName attributes before after children =>
      have hwith : before ++ gap ++ after ++ text = before ++ gap ++ (after ++ text) :=
        String.append_assoc
      have hwithout : before ++ after ++ text = before ++ (after ++ text) := String.append_assoc
      simp only [hwith, hwithout]
      exact .text _ _ _ _ _
  | child fullName attributes text' later earlier h => exact .child _ _ _ _ _ h

theorem OpenedLacks.takes {o o' : Opened} (h : OpenedLacks gap o o') (node : Node) :
    OpenedLacks gap { o with children := node :: o.children }
      { o' with children := node :: o'.children } := by
  cases h with
  | text fullName attributes before after children => exact .text _ _ _ _ _
  | child fullName attributes text later earlier h => exact .child _ _ _ (node :: later) _ h

theorem OpenedLacks.close {o o' : Opened} (h : OpenedLacks gap o o') :
    Lacks gap o.close o'.close := by
  cases h with
  | text fullName attributes before after children => exact .text _ _ _ _ _
  | child fullName attributes text later earlier h =>
      simp only [Opened.close, List.reverse_append, List.reverse_cons, List.append_assoc,
        List.singleton_append]
      exact .child _ _ _ _ _ h

theorem AmongLacks.names_eq {opened opened' : List Opened} (h : AmongLacks gap opened opened') :
    opened.map (·.fullName) = opened'.map (·.fullName) := by
  induction h with
  | head h outer => rw [List.map_cons, List.map_cons, h.fullName_eq]
  | tail o h ih => rw [List.map_cons, List.map_cons, ih]

/-- An element that both take is no part of the difference. -/
theorem BuiltLacks.takes {node : Node} {b b' c c' : Built} (h : BuiltLacks gap b b')
    (hb : Takes node b c) (hb' : Takes node b' c') : BuiltLacks gap c c' := by
  -- It goes to the same place on both sides, since elements are open on both or on none.
  cases hb with
  | child =>
      cases hb' with
      | child =>
          cases h with
          | opened h root =>
              cases h with
              | head h outer => exact .opened (.head (h.takes node) _) _
              | tail o h => exact .opened (.tail _ h) _
          | root opened h => exact .root _ h
      | root =>
          cases h with
          | opened h root => cases h
  | root =>
      cases hb' with
      | child =>
          cases h with
          | opened h root => cases h
      | root =>
          cases h with
          | opened h root => cases h

/-- An element that has the difference takes it along. -/
theorem BuiltLacks.of_takes {node node' : Node} (hnode : Lacks gap node node') {b c c' : Built}
    (hb : Takes node b c) (hb' : Takes node' b c') : BuiltLacks gap c c' := by
  cases hb with
  | child =>
      cases hb' with
      | child => exact .opened (.head (.child _ _ _ [] _ hnode) _) _
  | root =>
      cases hb' with
      | root => exact .root [] hnode

theorem kept_builtLacks : Kept (BuiltLacks gap) where
  names h := by
    cases h with
    | opened h root => exact h.names_eq
    | root opened h => rfl
  root h := by
    cases h with
    | opened h root => rfl
    | root opened h => rfl
  writes h text := by
    cases h with
    | opened h root =>
        cases h with
        | head h outer => exact .opened (.head (h.writes text) _) _
        | tail o h => exact .opened (.tail _ h) _
    | root opened h => exact .root _ h
  begins h o := by
    cases h with
    | opened h root => exact .opened (.tail o h) root
    | root opened h => exact .root _ h
  takes h hb hb' := h.takes hb hb'
  closes h hb hb' := by
    cases h with
    | opened h root =>
        cases h with
        | head h outer =>
            -- The element that ends is the one with the difference.
            exact .of_takes h.close hb hb'
        | tail o h => exact BuiltLacks.takes (.opened h _) hb hb'
    | root opened h => exact BuiltLacks.takes (.root _ h) hb hb'

theorem lacks_of_relatedTrees {tree tree' : Node}
    (h : RelatedTrees (BuiltLacks gap) tree tree') : Lacks gap tree tree' := by
  cases h with
  | opened h root => cases h
  | root opened h => exact h

end

/-! ### The rest of the character data -/

/-- The character data that a text begins with. -/
def leadingData (cs : List Char) : List Char := cs.takeWhile (· != '<')

/-- It ends at a bracket or at the end of the text. -/
theorem exists_afterData (cs : List Char) :
    ∃ rest, cs = leadingData cs ++ rest ∧ (∀ c ∈ leadingData cs, c ≠ '<')
      ∧ ∀ c ∈ rest.head?, c = '<' := by
  refine ⟨cs.dropWhile (· != '<'), List.takeWhile_append_dropWhile.symm, ?_, ?_⟩
  · intro c hc
    exact bne_iff_ne.mp (List.mem_takeWhile_imp (p := (· != '<')) hc)
  · intro c hc
    have hhead := List.head?_dropWhile_not (· != '<') cs
    rw [hc] at hhead
    exact bne_eq_false_iff_eq.mp hhead

/-- Character data up to its end is collected. -/
theorem feed_data (offset start : Nat) (opened : List Opened) (root : Option Node)
    (read : List Char) {data : List Char} (h : ∀ c ∈ data, c ≠ '<') :
    ∃ offset', Reader.machine.feed ⟨offset, opened, root, .text start read⟩ data
      = .ok ⟨offset', opened, root, .text start (data.reverse ++ read)⟩ :=
  Machine.feed_collect (fun offset read => Reader.mk offset opened root (.text start read))
    (fun _ hc _ read => ⟨_, step_text (h _ hc) read⟩) offset read

/-- In an open element, a run of character data is resolved and goes to the element's text. -/
theorem coincide_endText_open (offset start : Nat) (o : Opened) (outer : List Opened)
    (root : Option Node) (mode : Mode) (read : List Char) :
    Coincide
      (fun next text =>
        built next = ⟨{ o with text := o.text ++ String.ofList text } :: outer, root⟩)
      (Reader.endText ⟨offset, o :: outer, root, mode⟩ start read)
      (resolve (stripBoth isSpace read.reverse)) := by
  unfold Reader.endText
  cases hstrip : stripBoth isSpace read.reverse with
  | nil =>
      -- A run of white space writes nothing, as the empty text would.
      refine .given ?_
      show Built.mk (o :: outer) root = _
      simp only [Resolver.start, List.reverse_nil, String.ofList_nil, String.append_empty]
  | cons c cs =>
      cases hresolve : resolve (c :: cs) with
      | error cause =>
          simp only [hresolve]
          exact .refused _ _
      | ok text =>
          simp only [hresolve]
          exact .given rfl

section

variable {P : Built → Built → Prop} {offset offset' start start' : Nat}
  {opened opened' : List Opened} {root root' : Option Node} {read read' : List Char}

/-- Readers of character data that have built related things once the data ends. -/
theorem coincide_dataEnd (hP : Kept P) {rest : List Char} (hrest : ∀ c ∈ rest.head?, c = '<')
    (h : ∀ mode mode', Coincide (Related P)
      (Reader.endText ⟨offset, opened, root, mode⟩ start read)
      (Reader.endText ⟨offset', opened', root', mode'⟩ start' read')) :
    Coincide (RelatedTrees P)
      (Reader.machine.run ⟨offset, opened, root, .text start read⟩ rest)
      (Reader.machine.run ⟨offset', opened', root', .text start' read'⟩ rest) := by
  cases rest with
  | nil => exact (h _ _).bind (coincide_complete hP)
  | cons c rest =>
      obtain rfl : c = '<' := hrest c rfl
      -- The bracket ends the data on both sides, and then the readers are side by side.
      have hstep : Coincide (SideBySide P)
          (Reader.machine.step ⟨offset, opened, root, .text start read⟩ '<')
          (Reader.machine.step ⟨offset', opened', root', .text start' read'⟩ '<') := by
        simp only [readerStep_eq, Reader.take, if_true]
        refine Coincide.map (R := SideBySide P) ?_ fun hnext => ⟨hnext.related, hnext.mode⟩
        exact (h _ _).map fun hnext => ⟨hnext, .angle _ _⟩
      rw [Machine.run_cons, Machine.run_cons]
      exact hstep.bind fun hnext => coincide_run hP hnext rest

end

/-! ### A comment in character data -/

/-- In an open element, character data is being read at the end of a text, and `run` is what there
is of it so far. No reference is cut off in it. -/
def InData (before run : List Char) : Prop :=
  (∃ offset start o outer root, Reader.machine.feed Reader.start (withoutMark before)
    = .ok ⟨offset, o :: outer, root, .text start run.reverse⟩)
  ∧ ∃ text, resolve (stripBoth isSpace run) = .ok text

variable {before run after body : List Char}

/-- A text in which nothing is a reference is resolved as it is. -/
theorem resolve_of_plain {cs : List Char} (h : ∀ c ∈ cs, c ≠ '&') : resolve cs = .ok cs := by
  have hescaped : EscapedText ['&'] cs cs := by
    induction cs with
    | nil => exact .nil
    | cons c cs ih =>
        have hplain : c ∉ ['&'] := fun hc => h c List.mem_cons_self (List.mem_singleton.mp hc)
        exact .cons (.plain hplain) (ih fun x hx => h x (List.mem_cons_of_mem c hx))
  exact resolve_of_escapedText List.mem_cons_self hescaped

/-- Trimmed and resolved in two parts, character data lacks what is lost between them. -/
theorem coincide_resolve_parts {data text : List Char}
    (h : resolve (stripBoth isSpace run) = .ok text) :
    Coincide (fun whole last => whole = text ++ (lostBetween isSpace run data ++ last))
      (resolve (stripBoth isSpace (run ++ data))) (resolve (stripBoth isSpace data)) := by
  -- White space is no reference.
  have hplain : ∀ c ∈ lostBetween isSpace run data, c ≠ '&' := by
    rintro c hc rfl
    exact absurd (all_lostBetween _ hc) (by decide)
  have hlost := coincide_resolve_append (resolve_of_plain hplain) (stripBoth isSpace data)
  rw [stripBoth_append]
  refine ((coincide_resolve_append h _).trans hlost).mono ?_
  rintro whole last ⟨rest, rfl, rfl⟩
  rfl

/-- A run of character data as a whole, and what follows it when a first part has been written. -/
theorem coincide_endText_parts {offset start offset' start' : Nat} {o : Opened}
    {outer : List Opened} {root : Option Node} {mode mode' : Mode} {data text : List Char}
    (h : resolve (stripBoth isSpace run) = .ok text) :
    Coincide (Related (BuiltLacks (String.ofList (lostBetween isSpace run data))))
      (Reader.endText ⟨offset, o :: outer, root, mode⟩ start (data.reverse ++ run.reverse))
      (Reader.endText
        ⟨offset', { o with text := o.text ++ String.ofList text } :: outer, root, mode'⟩ start'
        data.reverse) := by
  have hwhole := coincide_endText_open offset start o outer root mode (data.reverse ++ run.reverse)
  have hrest := coincide_endText_open offset' start'
    { o with text := o.text ++ String.ofList text } outer root mode' data.reverse
  have hreverse : (data.reverse ++ run.reverse).reverse = run ++ data := by simp
  rw [hreverse] at hwhole
  rw [List.reverse_reverse] at hrest
  refine ((hwhole.trans (coincide_resolve_parts h)).through hrest).mono ?_
  rintro next next' ⟨last, ⟨whole, hnext, rfl⟩, hnext'⟩
  have htext : o.text ++ String.ofList (text ++ (lostBetween isSpace run data ++ last))
      = o.text ++ String.ofList text ++ String.ofList (lostBetween isSpace run data)
        ++ String.ofList last := by
    simp only [String.ofList_append, String.append_assoc]
  rw [Related, hnext, hnext', htext]
  exact .opened (.head (.text _ _ _ _ _) outer) root

/-- With a comment in it, character data lacks the white space around the comment. There is no other
difference in the tree, and none in what is refused. -/
theorem readDocument_comment (h : InData before run) (hplain : ∀ c ∈ body, c ≠ '-' ∧ c ≠ '>') :
    Coincide (Lacks (String.ofList (lostBetween isSpace run (leadingData after))))
      (readDocument (before ++ after)) (readDocument (before ++ (comment body ++ after))) := by
  obtain ⟨⟨offset, start, o, outer, root, hfeed⟩, text, htext⟩ := h
  have hne : before ≠ [] := by
    -- At the start of a document no element is open.
    rintro rfl
    cases hfeed
  -- The comment ends the run, so what it resolves to is written when the rest is read.
  have hstands : Stands ⟨offset, o :: outer, root, .text start run.reverse⟩
      ⟨{ o with text := o.text ++ String.ofList text } :: outer, root⟩ :=
    .data (by rw [List.reverse_reverse, htext])
  obtain ⟨offset', start', hcomment⟩ := feed_comment hplain hstands
  rw [readDocument, readDocument, withoutMark_append_of_ne_nil hne,
    withoutMark_append_of_ne_nil hne, Machine.run_append_of_ok hfeed,
    Machine.run_append_of_ok hfeed, Machine.run_append_of_ok hcomment]
  obtain ⟨rest, hsplit, hdata, hrest⟩ := exists_afterData after
  generalize leadingData after = data at hsplit hdata ⊢
  subst hsplit
  -- Both readers take the rest of the character data, and then what follows it.
  obtain ⟨offset₁, hwhole⟩ := feed_data offset start (o :: outer) root run.reverse hdata
  obtain ⟨offset₂, hparts⟩ := feed_data offset' start' _ root [] hdata
  rw [Machine.run_append_of_ok hwhole, Machine.run_append_of_ok hparts, List.append_nil]
  exact (coincide_dataEnd kept_builtLacks hrest fun _ _ => coincide_endText_parts htext).mono
    lacks_of_relatedTrees

/-- A comment in the character data of a document that is accepted changes nothing, unless there is
white space next to it, and other characters on both sides of it. -/
theorem readDocument_comment_iff {tree : Node} (h : InData before run)
    (hplain : ∀ c ∈ body, c ≠ '-' ∧ c ≠ '>') (hread : readDocument (before ++ after) = .ok tree) :
    readDocument (before ++ (comment body ++ after)) = .ok tree ↔
      run.all isSpace = true ∨ (leadingData after).all isSpace = true ∨
        (∀ c ∈ run.getLast?, isSpace c = false)
          ∧ ∀ c ∈ (leadingData after).head?, isSpace c = false := by
  have hboth : Coincide _ (readDocument (before ++ after)) _ := readDocument_comment h hplain
  obtain ⟨tree', hread', hlacks⟩ := hboth.exists_of_ok hread
  -- The other tree is the same only if nothing is lost.
  rw [hread', Except.ok.injEq, eq_comm, hlacks.eq_iff, String.ofList_eq_empty_iff,
    lostBetween_eq_nil_iff]

/-- The space that separates two words is lost. -/
theorem readDocument_comment_space :
    readDocument "<a>x y</a>".toList = .ok (.mk "a" [] "x y" [])
      ∧ readDocument "<a>x<!--c--> y</a>".toList = .ok (.mk "a" [] "xy" []) := ⟨rfl, rfl⟩

/-- The comment of that document stands in character data. -/
example : InData "<a>x".toList "x".toList := ⟨⟨4, 3, _, _, _, rfl⟩, _, rfl⟩

end AuditTables.Proofs.Xml
