import AuditTables.Proofs.Xml.Building

/-!
# `AuditTables.Proofs.Xml.SideBySide`: two readers of one text

When a document is changed in one place, the reader comes out of that place in another state than
before, if only because it counts octets. What it makes of the rest of the document should depend
on what the change was about and on nothing else. Here two readers are followed through the same
text.

A reader looks at little of what it has built: at the names of the open elements, and at whether
the root is complete. It writes texts and never looks at them again, and positions are for its
faults. So a relation between what two readers have built is `Kept` if it says as much as that, and
survives what the readers do to both sides. `SideBySide` adds that they are inside of the same kind
of markup. No character tells such readers apart (`coincide_step`), nor does the end
(`coincide_finish`), so `coincide_run` has both refuse a document or both read it, with trees that
are related.

The first part does the same for references. `coincide_resolve_append` says that a text whose
references are resolved has no influence on the text after it.
-/

set_option autoImplicit false

namespace AuditTables.Proofs.Xml

open AuditTables.Text AuditTables.Xml

/-! ### References -/

/-- A resolver has written some text before all that another one has written, and otherwise they
are the same but for positions. -/
def Ahead (before : List Char) (r r' : Resolver) : Prop :=
  r.written = r'.written ++ before.reverse ∧ r.opened.map (·.2) = r'.opened.map (·.2)

theorem coincide_referent (start stop start' stop' : Nat) (body : List Char) :
    Coincide Eq (referent start stop body) (referent start' stop' body) := by
  refine coincide_eq_iff.mpr fun c => ?_
  constructor
  · intro h
    exact referent_of_referent h start' stop'
  · intro h
    exact referent_of_referent h start stop

variable {before text : List Char} {length length' : Nat}

theorem coincide_resolverStep {r r' : Resolver} (c : Char) (h : Ahead before r r') :
    Coincide (Ahead before) ((Resolver.machine length).step r c)
      ((Resolver.machine length').step r' c) := by
  obtain ⟨offset, written, opened⟩ := r
  obtain ⟨offset', written', opened'⟩ := r'
  obtain ⟨hwritten, hopened⟩ := h
  subst hwritten
  -- In each branch the same is written in front, or the same is kept of an open reference.
  show Coincide (Ahead before) (Resolver.step length _ c) (Resolver.step length' _ c)
  unfold Resolver.step
  cases opened with
  | none =>
      obtain rfl : opened' = none := Option.map_eq_none_iff.mp hopened.symm
      by_cases hampersand : c = '&'
      · simp only [if_pos hampersand]
        exact .given ⟨rfl, rfl⟩
      · simp only [if_neg hampersand]
        exact .given ⟨rfl, rfl⟩
  | some reference =>
      obtain ⟨position, body⟩ := reference
      obtain ⟨⟨position', _⟩, rfl, hbody⟩ := Option.map_eq_some_iff.mp hopened.symm
      obtain rfl := hbody
      by_cases hampersand : c = '&'
      · simp only [if_pos hampersand]
        exact .refused _ _
      · simp only [if_neg hampersand]
        by_cases hsemicolon : c = ';'
        · simp only [if_pos hsemicolon]
          refine (coincide_referent _ _ _ _ _).map ?_
          rintro x _ rfl
          exact ⟨rfl, rfl⟩
        · simp only [if_neg hsemicolon]
          exact .given ⟨rfl, rfl⟩

theorem coincide_resolverFinish {r r' : Resolver} (h : Ahead before r r') :
    Coincide (fun text rest => text = before ++ rest) ((Resolver.machine length).finish r)
      ((Resolver.machine length').finish r') := by
  obtain ⟨offset, written, opened⟩ := r
  obtain ⟨offset', written', opened'⟩ := r'
  obtain ⟨hwritten, hopened⟩ := h
  subst hwritten
  show Coincide _ (Resolver.finish length _) (Resolver.finish length' _)
  unfold Resolver.finish
  cases opened with
  | none =>
      obtain rfl : opened' = none := Option.map_eq_none_iff.mp hopened.symm
      exact .given (by simp)
  | some reference =>
      obtain ⟨reference', rfl, -⟩ := Option.map_eq_some_iff.mp hopened.symm
      exact .refused _ _

/-- A text may end only outside of references, and is then what has been written. -/
theorem resolver_of_finish {r : Resolver} {resolved : List Char}
    (h : (Resolver.machine length).finish r = .ok resolved) :
    r.opened = none ∧ r.written = resolved.reverse := by
  obtain ⟨offset, written, opened⟩ := r
  cases opened with
  | none =>
      obtain rfl : written.reverse = resolved := Except.ok.inj h
      exact ⟨rfl, (List.reverse_reverse written).symm⟩
  | some reference => cases h

/-- A text that resolves stands before whatever the text behind it resolves to. -/
theorem coincide_resolve_append {resolved : List Char} (h : resolve text = .ok resolved)
    (rest : List Char) :
    Coincide (fun whole last => whole = resolved ++ last) (resolve (text ++ rest))
      (resolve rest) := by
  obtain ⟨last, hfeed, hfinish⟩ := Machine.exists_of_run h
  obtain ⟨hnone, hresolved⟩ := resolver_of_finish hfinish
  -- The first text is resolved in the same way when more follows, as lengths are for faults only.
  have hsame : Coincide (Ahead [])
      ((Resolver.machine (Utf8.byteLength text)).feed Resolver.start text)
      ((Resolver.machine (Utf8.byteLength (text ++ rest))).feed Resolver.start text) :=
    Machine.coincide_feed coincide_resolverStep ⟨rfl, rfl⟩ text
  obtain ⟨last', hfeed', hwritten, hopened⟩ := hsame.exists_of_ok hfeed
  rw [List.reverse_nil, List.append_nil] at hwritten
  have hahead : Ahead resolved last' Resolver.start := by
    refine ⟨?_, ?_⟩
    · rw [← hwritten, hresolved]
      rfl
    · rw [← hopened, hnone]
      rfl
  have hwhole : resolve (text ++ rest)
      = (Resolver.machine (Utf8.byteLength (text ++ rest))).run last' rest :=
    Machine.run_append_of_ok hfeed' rest
  rw [hwhole]
  exact Machine.coincide_run coincide_resolverStep coincide_resolverFinish hahead rest

/-! ### Relations that are kept -/

/-- A relation between what two readers have built. It says that open elements have the same names
and that the root is complete on both sides or on none, and it survives what readers do. -/
structure Kept (P : Built → Built → Prop) : Prop where
  names {b b' : Built} (h : P b b') :
    b.opened.map (·.fullName) = b'.opened.map (·.fullName)
  root {b b' : Built} (h : P b b') : b.root.isSome = b'.root.isSome
  writes {o o' : Opened} {outer outer' : List Opened} {root root' : Option Node}
    (h : P ⟨o :: outer, root⟩ ⟨o' :: outer', root'⟩) (text : String) :
    P ⟨{ o with text := o.text ++ text } :: outer, root⟩
      ⟨{ o' with text := o'.text ++ text } :: outer', root'⟩
  begins {b b' : Built} (h : P b b') (o : Opened) :
    P ⟨o :: b.opened, b.root⟩ ⟨o :: b'.opened, b'.root⟩
  takes {b b' c c' : Built} {node : Node} (h : P b b') (hb : Takes node b c)
    (hb' : Takes node b' c') : P c c'
  closes {o o' : Opened} {outer outer' : List Opened} {root root' : Option Node} {c c' : Built}
    (h : P ⟨o :: outer, root⟩ ⟨o' :: outer', root'⟩) (hb : Takes o.close ⟨outer, root⟩ c)
    (hb' : Takes o'.close ⟨outer', root'⟩ c') : P c c'

/-- Where the names are the same, elements are open on both sides or on none. -/
theorem nil_iff_of_names {opened opened' : List Opened}
    (h : opened.map (·.fullName) = opened'.map (·.fullName)) : opened = [] ↔ opened' = [] := by
  rw [← List.map_eq_nil_iff, h, List.map_eq_nil_iff]

/-! ### Readers side by side -/

/-- Two readers are inside of the same kind of markup and have read the same of it. -/
inductive SameMode : Mode → Mode → Prop where
  | text (start start' : Nat) (read : List Char) :
      SameMode (.text start read) (.text start' read)
  | angle (position position' : Nat) : SameMode (.angle position) (.angle position')
  | bang (position start position' start' : Nat) :
      SameMode (.bang position start) (.bang position' start')
  | bangBody (kind : Bang) (position start position' start' : Nat) (read : List Char) :
      SameMode (.bangBody kind position start read) (.bangBody kind position' start' read)
  | endTag (position start position' start' : Nat) (read : List Char) :
      SameMode (.endTag position start read) (.endTag position' start' read)
  | instruction (start start' : Nat) (read : List Char) :
      SameMode (.instruction start read) (.instruction start' read)
  | tag (position start position' start' : Nat) (quote : Option Char) (read : List Char) :
      SameMode (.tag position start quote read) (.tag position' start' quote read)

/-- Two readers have built related things. -/
def Related (P : Built → Built → Prop) (r r' : Reader) : Prop := P (built r) (built r')

/-- Two readers have built related things and go on alike. -/
structure SideBySide (P : Built → Built → Prop) (r r' : Reader) : Prop where
  related : Related P r r'
  mode : SameMode r.mode r'.mode

section

variable {P : Built → Built → Prop} {r r' : Reader}

/-- Either nothing is open on both sides, or elements of one name are innermost. -/
theorem Kept.cases_opened (hP : Kept P) (h : Related P r r') :
    (r.opened = [] ∧ r'.opened = []) ∨ ∃ o outer o' outer', r.opened = o :: outer
      ∧ r'.opened = o' :: outer' ∧ o.fullName = o'.fullName := by
  have hnames : r.opened.map (·.fullName) = r'.opened.map (·.fullName) := hP.names h
  cases hr : r.opened with
  | nil =>
      rw [hr, List.map_nil] at hnames
      exact Or.inl ⟨rfl, List.map_eq_nil_iff.mp hnames.symm⟩
  | cons o outer =>
      rw [hr, List.map_cons] at hnames
      obtain ⟨o', outer', hr', hname, -⟩ := List.map_eq_cons_iff.mp hnames.symm
      exact Or.inr ⟨o, outer, o', outer', rfl, hr', hname.symm⟩

/-- A complete element is refused on both sides, or goes where `Takes` says. -/
theorem coincide_addNode {node node' : Node} (position position' : Nat)
    (hopened : r.opened = [] ↔ r'.opened = []) (hroot : r.root.isSome = r'.root.isSome) :
    Coincide (fun s s' => Takes node (built r) (built s) ∧ Takes node' (built r') (built s'))
      (r.addNode position node) (r'.addNode position' node') := by
  obtain ⟨offset, opened, root, mode⟩ := r
  obtain ⟨offset', opened', root', mode'⟩ := r'
  cases opened with
  | nil =>
      obtain rfl : opened' = [] := hopened.mp rfl
      cases root with
      | none =>
          obtain rfl : root' = none :=
            Option.isNone_iff_eq_none.mp (Option.isSome_eq_false_iff.mp hroot.symm)
          exact .given ⟨.root, .root⟩
      | some tree =>
          obtain ⟨tree', rfl⟩ := Option.isSome_iff_exists.mp hroot.symm
          exact .refused _ _
  | cons o outer =>
      cases opened' with
      | nil => exact absurd (hopened.mpr rfl) (List.cons_ne_nil o outer)
      | cons o' outer' => exact .given ⟨.child, .child⟩

theorem coincide_addText (hP : Kept P) (h : Related P r r') (position position' : Nat)
    (text : List Char) :
    Coincide (Related P) (r.addText position text) (r'.addText position' text) := by
  unfold Reader.addText
  rcases hP.cases_opened h with ⟨hr, hr'⟩ | ⟨o, outer, o', outer', hr, hr', -⟩
  · rw [hr, hr']
    by_cases hblank : text.all isBlank = true
    · simp only [if_pos hblank]
      exact .given h
    · simp only [if_neg hblank]
      exact .refused _ _
  · rw [hr, hr']
    refine .given (hP.writes ?_ _)
    rw [Related, built, built, hr, hr'] at h
    exact h

theorem coincide_endText (hP : Kept P) (h : Related P r r') (start start' : Nat)
    (read : List Char) :
    Coincide (Related P) (r.endText start read) (r'.endText start' read) := by
  unfold Reader.endText
  split
  · exact .given h
  · split
    · exact .refused _ _
    · exact coincide_addText hP h _ _ _

theorem coincide_endBang (hP : Kept P) (h : Related P r r') (kind : Bang)
    (position after position' after' : Nat) (read : List Char) :
    Coincide (Related P) (r.endBang kind position after read)
      (r'.endBang kind position' after' read) := by
  unfold Reader.endBang
  cases kind with
  | comment =>
      simp only
      split
      · exact .given h
      · exact .refused _ _
  | cdata =>
      simp only
      split
      · exact coincide_addText hP h _ _ _
      · exact .refused _ _
  | doctype =>
      simp only
      split
      · split
        · exact .refused _ _
        · exact .given h
      · exact .refused _ _

theorem coincide_closeElement (hP : Kept P) (h : Related P r r')
    (position after position' after' : Nat) (read : List Char) :
    Coincide (Related P) (r.closeElement position after read)
      (r'.closeElement position' after' read) := by
  obtain ⟨offset, opened, root, mode⟩ := r
  obtain ⟨offset', opened', root', mode'⟩ := r'
  unfold Reader.closeElement
  rcases hP.cases_opened h with ⟨hr, hr'⟩ | ⟨o, outer, o', outer', hr, hr', hname⟩
  · obtain rfl : opened = [] := hr
    obtain rfl : opened' = [] := hr'
    exact .refused _ _
  · obtain rfl : opened = o :: outer := hr
    obtain rfl : opened' = o' :: outer' := hr'
    simp only [hname]
    split
    · -- Around the elements that are closed, the same elements are open.
      have hnil : outer = [] ↔ outer' = [] := nil_iff_of_names (List.cons.inj (hP.names h)).2
      refine (coincide_addNode _ _ hnil (hP.root h)).mono ?_
      rintro s s' ⟨hs, hs'⟩
      exact hP.closes h hs hs'
    · exact .refused _ _

theorem coincide_endInstruction (h : Related P r r') (after after' : Nat) (read : List Char) :
    Coincide (Related P) (r.endInstruction after read) (r'.endInstruction after' read) := by
  unfold Reader.endInstruction
  split
  · exact .given h
  · exact .refused _ _

theorem coincide_endTag (hP : Kept P) (h : Related P r r') (position position' : Nat)
    (read : List Char) :
    Coincide (Related P) (r.endTag position read) (r'.endTag position' read) := by
  unfold Reader.endTag
  -- An empty tag completes an element, any other opens one.
  split
  · split
    · exact .refused _ _
    · refine (coincide_addNode _ _ (nil_iff_of_names (hP.names h)) (hP.root h)).mono ?_
      rintro s s' ⟨hs, hs'⟩
      exact hP.takes h hs hs'
  · split
    · exact .refused _ _
    · exact .given (hP.begins h _)

/-- After markup both readers are between tags. -/
theorem coincide_resume {x y : Except Fault Reader} (h : Coincide (Related P) x y)
    (after after' : Nat) :
    Coincide (SideBySide P) (Reader.resume x after) (Reader.resume y after') :=
  h.map fun hrelated => ⟨hrelated, .text _ _ _⟩

theorem coincide_inTag (hP : Kept P) (h : Related P r r') (position start position' start' : Nat)
    (quote : Option Char) (read : List Char) (c : Char) :
    Coincide (SideBySide P) (r.inTag position start quote read c)
      (r'.inTag position' start' quote read c) := by
  unfold Reader.inTag
  cases quote with
  | some q => exact .given ⟨h, .tag _ _ _ _ _ _⟩
  | none =>
      simp only
      split
      · exact coincide_resume (coincide_endTag hP h _ _ _) _ _
      · exact .given ⟨h, .tag _ _ _ _ _ _⟩

/-- No character tells readers apart that are side by side. There is a case for each mode. -/
theorem coincide_take (hP : Kept P) (h : SideBySide P r r') (c : Char) :
    Coincide (SideBySide P) (r.take c) (r'.take c) := by
  obtain ⟨offset, opened, root, mode⟩ := r
  obtain ⟨offset', opened', root', mode'⟩ := r'
  obtain ⟨hrelated, hmode⟩ := h
  simp only at hmode
  unfold Reader.take
  cases hmode with
  | text start start' read =>
      simp only
      split
      · exact (coincide_endText hP hrelated _ _ _).map fun hnext => ⟨hnext, .angle _ _⟩
      · exact .given ⟨hrelated, .text _ _ _⟩
  | angle position position' =>
      simp only
      split
      · exact .given ⟨hrelated, .bang _ _ _ _⟩
      · split
        · exact .given ⟨hrelated, .endTag _ _ _ _ _⟩
        · split
          · exact .given ⟨hrelated, .instruction _ _ _⟩
          · exact coincide_inTag hP hrelated _ _ _ _ _ _ _
  | bang position start position' start' =>
      simp only
      split
      · exact .given ⟨hrelated, .bangBody _ _ _ _ _ _⟩
      · exact .refused _ _
  | bangBody kind position start position' start' read =>
      simp only
      split
      · exact coincide_resume (coincide_endBang hP hrelated _ _ _ _ _ _) _ _
      · exact .given ⟨hrelated, .bangBody _ _ _ _ _ _⟩
  | endTag position start position' start' read =>
      simp only
      split
      · exact coincide_resume (coincide_closeElement hP hrelated _ _ _ _ _) _ _
      · exact .given ⟨hrelated, .endTag _ _ _ _ _⟩
  | instruction start start' read =>
      simp only
      split
      · exact coincide_resume (coincide_endInstruction hrelated _ _ _) _ _
      · exact .given ⟨hrelated, .instruction _ _ _⟩
  | tag position start position' start' quote read =>
      exact coincide_inTag hP hrelated _ _ _ _ _ _ _

theorem coincide_step (hP : Kept P) (c : Char) (h : SideBySide P r r') :
    Coincide (SideBySide P) (Reader.machine.step r c) (Reader.machine.step r' c) := by
  rw [readerStep_eq, readerStep_eq]
  exact (coincide_take hP h c).map fun hnext => ⟨hnext.related, hnext.mode⟩

theorem coincide_endPiece (hP : Kept P) (h : SideBySide P r r') :
    Coincide (Related P) r.endPiece r'.endPiece := by
  obtain ⟨offset, opened, root, mode⟩ := r
  obtain ⟨offset', opened', root', mode'⟩ := r'
  obtain ⟨hrelated, hmode⟩ := h
  simp only at hmode
  unfold Reader.endPiece
  cases hmode with
  | text start start' read => exact coincide_endText hP hrelated _ _ _
  | angle position position' => exact .given hrelated
  | bang position start position' start' => exact .refused _ _
  | bangBody kind position start position' start' read => exact .refused _ _
  | endTag position start position' start' read =>
      exact coincide_closeElement hP hrelated _ _ _ _ _
  | instruction start start' read => exact coincide_endInstruction hrelated _ _ _
  | tag position start position' start' quote read => exact .refused _ _

/-- The trees that two readers end with are related as all that they have built. -/
def RelatedTrees (P : Built → Built → Prop) (tree tree' : Node) : Prop :=
  P ⟨[], some tree⟩ ⟨[], some tree'⟩

theorem coincide_complete (hP : Kept P) (h : Related P r r') :
    Coincide (RelatedTrees P) r.complete r'.complete := by
  obtain ⟨offset, opened, root, mode⟩ := r
  obtain ⟨offset', opened', root', mode'⟩ := r'
  have hroot : root.isSome = root'.isSome := hP.root h
  unfold Reader.complete
  rcases hP.cases_opened h with ⟨hr, hr'⟩ | ⟨o, outer, o', outer', hr, hr', -⟩
  · obtain rfl : opened = [] := hr
    obtain rfl : opened' = [] := hr'
    cases root with
    | none =>
        obtain rfl : root' = none :=
          Option.isNone_iff_eq_none.mp (Option.isSome_eq_false_iff.mp hroot.symm)
        exact .refused _ _
    | some tree =>
        obtain ⟨tree', rfl⟩ := Option.isSome_iff_exists.mp hroot.symm
        exact .given h
  · obtain rfl : opened = o :: outer := hr
    obtain rfl : opened' = o' :: outer' := hr'
    exact .refused _ _

theorem coincide_finish (hP : Kept P) (h : SideBySide P r r') :
    Coincide (RelatedTrees P) (Reader.machine.finish r) (Reader.machine.finish r') :=
  (coincide_endPiece hP h).bind (coincide_complete hP)

/-- Readers that are side by side refuse the same texts, and read related trees from all others. -/
theorem coincide_run (hP : Kept P) (h : SideBySide P r r') (cs : List Char) :
    Coincide (RelatedTrees P) (Reader.machine.run r cs) (Reader.machine.run r' cs) :=
  Machine.coincide_run (coincide_step hP) (coincide_finish hP) h cs

end

end AuditTables.Proofs.Xml
