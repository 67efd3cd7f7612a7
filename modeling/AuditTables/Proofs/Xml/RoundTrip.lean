import AuditTables.Event.Record
import AuditTables.Proofs.Xml.Piece

/-!
# `AuditTables.Proofs.Xml.RoundTrip`: reading undoes writing

However a property tree is written as a document, the reader gives the tree back.

`readDocument_of_markup` says so of the characters of every document that `Markup` relates with
the tree. It is assembled from the pieces of `Proofs/Xml/Piece.lean` by one induction on how the
tree is written (`leads_of_markup`), for lists of trees at any depth: each tree goes where
`Takes` says, one after the other (`TakesAll`), which is how the children of an element join
it and how a single tree becomes the root. A document that is written this way has no byte order
mark, as it begins with white space or a bracket (`withoutMark_of_markup`).

The main theorem, `readTree_rendered`, is the case of the renderings of a tree whose names are
made of letters. Every such tree has one.
-/

set_option autoImplicit false

namespace AuditTables.Proofs.Xml

open AuditTables.Text AuditTables.Xml

/-! ### Lists of trees -/

/-- Complete elements go where `Takes` says, one after the other. -/
inductive TakesAll : List Node → Built → Built → Prop where
  | nil {b : Built} : TakesAll [] b b
  | cons {node : Node} {nodes : List Node} {b b' b'' : Built} (hfirst : Takes node b b')
      (hrest : TakesAll nodes b' b'') : TakesAll (node :: nodes) b b''

/-- Inside an open element, all join its children, latest first. -/
theorem takesAll_children (nodes : List Node) (o : Opened) (outer : List Opened)
    (root : Option Node) :
    TakesAll nodes ⟨o :: outer, root⟩
      ⟨{ o with children := nodes.reverse ++ o.children } :: outer, root⟩ := by
  induction nodes generalizing o with
  | nil => exact .nil
  | cons node nodes ih =>
      have hrest := ih { o with children := node :: o.children }
      rw [List.reverse_cons, List.append_assoc]
      exact .cons .child hrest

/-- Written trees take the reader where the trees go. The induction is on how they are written, so
that the trees inside an element are covered by it: between its tags, they join the element
that its start tag has opened. -/
theorem leads_of_markup {nodes : List Node} {written : List Char} (h : Markup nodes written)
    {b b' : Built} (htakes : TakesAll nodes b b') : Leads written b b' := by
  induction h generalizing b b' with
  | gap hgap =>
      cases htakes
      exact leads_gap hgap
  | @single gap tag rest name attributes nodes hgap htag _ ih =>
      cases htakes with
      | cons hfirst hrest =>
          have hsplit : gap ++ '<' :: (tag ++ '/' :: '>' :: rest)
              = gap ++ ('<' :: (tag ++ ['/', '>']) ++ rest) := by simp
          rw [hsplit]
          exact (leads_gap hgap).append ((leads_single htag hfirst).append (ih hrest))
  | @element gap tag data inner rest name text attributes children nodes hgap htag htext _ _
      ihchildren ihrest =>
      cases htakes with
      | cons hfirst hrest =>
          -- Between its tags the element is the innermost open one. Its children join it latest
          -- first, and are put in order again when it is closed.
          have hopen := @leads_open b _ _ _ _ _ htag htext
          have hinner := ihchildren
            (takesAll_children children ⟨name, shortKeys attributes, text, []⟩ b.opened b.root)
          have hfirst' : Takes (.mk (shortName name) (shortKeys attributes) text
              children.reverse.reverse) ⟨b.opened, b.root⟩ _ :=
            (List.reverse_reverse children).symm ▸ hfirst
          have hclose := leads_close htag.fullName hfirst'
          rw [String.ofList_toList] at hopen
          rw [List.append_nil] at hinner
          have hsplit : gap ++ '<' :: (tag ++ '>' :: (data ++ (inner
                ++ '<' :: '/' :: (name ++ '>' :: rest))))
              = gap ++ ('<' :: (tag ++ '>' :: data) ++ (inner
                ++ ('<' :: '/' :: (name ++ ['>']) ++ rest))) := by simp
          rw [hsplit]
          exact (leads_gap hgap).append
            (hopen.append (hinner.append (hclose.append (ihrest hrest))))

/-! ### Documents -/

/-- A gap does not begin with a byte order mark. -/
theorem head_gap {gap rest : List Char} (h : Gap gap)
    (hrest : ∀ c ∈ rest.head?, c.toNat ≠ 0xFEFF) : ∀ c ∈ (gap ++ rest).head?, c.toNat ≠ 0xFEFF := by
  cases h with
  | nil => exact hrest
  | @space x gap hspace _ =>
      intro c hc
      have hall : ∀ c ∈ spaceCharacters, c.toNat ≠ 0xFEFF := by decide
      obtain rfl : x = c := Option.some.inj hc
      exact hall x hspace
  | comment =>
      intro c hc
      obtain rfl : '<' = c := Option.some.inj hc
      decide

/-- Written trees do not begin with a byte order mark, but with white space or a bracket. -/
theorem withoutMark_of_markup {nodes : List Node} {written : List Char}
    (h : Markup nodes written) : withoutMark written = written := by
  have hhead : ∀ c ∈ written.head?, c.toNat ≠ 0xFEFF := by
    have hbracket (cs : List Char) : ∀ c ∈ ('<' :: cs).head?, c.toNat ≠ 0xFEFF := by
      intro c hc
      obtain rfl : '<' = c := Option.some.inj hc
      decide
    cases h with
    | gap hgap =>
        have := head_gap hgap (show ∀ c ∈ ([] : List Char).head?, c.toNat ≠ 0xFEFF from nofun)
        rwa [List.append_nil] at this
    | single hgap => exact head_gap hgap (hbracket _)
    | element hgap => exact head_gap hgap (hbracket _)
  cases written with
  | nil => rfl
  | cons c cs => rw [withoutMark, if_neg (hhead c rfl)]

/-- A document of a tree is read as the tree. -/
theorem readDocument_of_markup {tree : Node} {document : List Char} (h : Markup [tree] document) :
    readDocument document = .ok tree := by
  have hstart : Stands Reader.start ⟨[], none⟩ := .blank rfl
  have hleads : Leads document ⟨[], none⟩ ⟨[], some tree⟩ := leads_of_markup h (.cons .root .nil)
  obtain ⟨r, hfeed, hr⟩ := hleads Reader.start hstart
  rw [readDocument, withoutMark_of_markup h, Machine.run_eq_bind, hfeed]
  exact hr.finish

theorem readDocument_of_rendered {tree : Node} {document : List Char}
    (h : Rendered [tree] document) : readDocument document = .ok tree :=
  readDocument_of_markup (markup_of_rendered h)

/-- Reading undoes writing: a tree whose names are made of letters can be written, and every
document that is a writing of it is read as exactly that tree. -/
theorem readTree_rendered {tree : Node} (h : WellNamed tree) :
    (∃ document : String, Rendered [tree] document.toList)
      ∧ ∀ document : String, Rendered [tree] document.toList →
          AuditEvent.readTree document = .ok tree := by
  constructor
  · obtain ⟨document, hdocument⟩ := exists_rendered h
    exact ⟨String.ofList document, by rwa [String.toList_ofList]⟩
  · intro document hdocument
    rw [AuditEvent.readTree, readDocument_of_rendered hdocument]

/-- A tree with an attribute, a text and a child. -/
def note : Node := .mk "note" [("to", "a<b")] "x & y\n" [.mk "end" [] "" []]

/-- A note is well named, and is read back from a document with references, a comment, an
empty tag and white space around. -/
theorem readTree_rendered_note :
    WellNamed note
      ∧ Rendered [note]
        "\n<note to=\"a&lt;b\">x &amp; y&#x0A; <!--seen-->\n<end/></note> ".toList
      ∧ AuditEvent.readTree
        "\n<note to=\"a&lt;b\">x &amp; y&#x0A; <!--seen-->\n<end/></note> " = .ok note := by
  have hletters (name : String) (h : name.toList ≠ [] ∧ ∀ c ∈ name.toList, c.isAlpha = true) :
      IsName name.toList := ⟨h.1, h.2⟩
  have hwell : WellNamed note := by
    refine .mk (hletters "note" (by decide)) (fun p hp => ?_) (by decide) fun child hchild => ?_
    · obtain rfl := List.mem_singleton.mp hp
      exact hletters "to" (by decide)
    · obtain rfl := List.mem_singleton.mp hchild
      exact .mk (hletters "end" (by decide)) (List.forall_mem_nil _) List.nodup_nil
        (List.forall_mem_nil _)
  have hvalue : Spelled "a<b".toList "a&lt;b".toList :=
    .cons (.plain (by decide)) (.cons (@Written.named '<' "lt" (by decide))
      (.cons (.plain (by decide)) .nil))
  have htag : TagContent "note" [("to", "a<b")] "note to=\"a&lt;b\"".toList :=
    .mk (hletters _ (by decide)) (.cons (hletters "to" (by decide)) hvalue .nil) (by decide)
  have hspelled : Spelled "x & y\n".toList "x &amp; y&#x0A;".toList :=
    .cons (.plain (by decide)) (.cons (.plain (by decide))
      (.cons (@Written.named '&' "amp" (by decide)) (.cons (.plain (by decide))
        (.cons (.plain (by decide)) (.cons (@Written.numbered '\n' "x0A".toList (by decide)
          (by decide)) .nil)))))
  have hdata : SpelledData "x & y\n".toList "x &amp; y&#x0A;".toList :=
    ⟨hspelled, by decide, by decide⟩
  have hgap : Gap " <!--seen-->\n".toList :=
    .space (by decide) (@Gap.comment "seen".toList ['\n'] (by decide) (by decide)
      (.space (by decide) .nil))
  have hchildren : Rendered [.mk "end" [] "" []] " <!--seen-->\n<end/>".toList :=
    .single hgap (.mk (hletters "end" (by decide)) .nil .nil) (.gap .nil)
  have hrendered : Rendered [note]
      "\n<note to=\"a&lt;b\">x &amp; y&#x0A; <!--seen-->\n<end/></note> ".toList :=
    .element (.space (by decide) .nil) htag hdata hchildren (.gap (.space (by decide) .nil))
  exact ⟨hwell, hrendered, (readTree_rendered hwell).2 _ hrendered⟩

end AuditTables.Proofs.Xml
