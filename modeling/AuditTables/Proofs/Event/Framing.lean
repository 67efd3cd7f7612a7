import AuditTables.Event.Record
import AuditTables.Proofs.Event.Records
import AuditTables.Proofs.Xml.Inside

/-!
# `AuditTables.Proofs.Event.Framing`: where the splitter and the reader end a record

The splitter looks for marks in octets, and the reader of documents knows markup. On a stream
of documents of one event each, the two need not see the same records: the text that the
splitter ends a record at may be in a comment, or not be there at all (`split_disagrees`). They
do if each document is cut at that text (`Cut`), which means that the first closing text in it
is one that the reader comes to outside of all other markup, and if behind it no open tag
begins before the next document does. Behind the last document there is no next one, so an open
tag may be there that no closing text follows (`NoRecordText`). Then the splitter finds as many
records as there are documents, and each is read as the tree that its document is read as. For
one document by itself this is necessary, too. `split_agrees` has both.

Three facts are put together. `splitTexts_octetsOf` is about octets. Records with no open tag
between them are what the splitter finds, since they are parts of a stream.
`readDocument_cut` and `text_before_closeTag` are about the reader: a document may as well stop
at the end tag of its root, and if it may stop at a closing text, that was the end tag. The
marks are of ASCII, so their octets are found where the characters are
(`infix_of_encodeChars`, `noRecord_encodeChars_iff`).
-/

set_option autoImplicit false

namespace AuditTables.Proofs.Event

open AuditTables.Event AuditTables.Text AuditTables.Xml
open AuditTables.Proofs.Text AuditTables.Proofs.Xml

/-! ### Records and what is between them -/

/-- Records, each followed by octets in which none begins. -/
def octetsOf (parts : List (List UInt8 × List UInt8)) : List UInt8 :=
  parts.flatMap fun p => p.1 ++ p.2

/-- Such octets and a last record, behind others without an open tag, are parts of these records.
By induction on the records: what is behind one is the gap before the next. -/
theorem exists_parts_octetsOf {pieces : List (List UInt8 × List UInt8)}
    (hpieces : ∀ p ∈ pieces, IsRecord p.1 ∧ NoOpening p.2) {gap record : List UInt8}
    (hgap : NoOpening gap) (hrecord : IsRecord record) :
    ∃ parts, gap ++ (octetsOf pieces ++ record) = octets parts ∧
      (∀ p ∈ parts, NoOpening p.gap ∧ IsRecord p.record) ∧
      parts.map (·.record) = pieces.map (·.1) ++ [record] := by
  induction pieces generalizing gap with
  | nil =>
      refine ⟨[⟨gap, record⟩], ?_, List.forall_mem_singleton.mpr ⟨hgap, hrecord⟩, rfl⟩
      rw [octets_cons, octets_nil, List.append_nil]
      rfl
  | cons p pieces ih =>
      obtain ⟨hfirst, hafter⟩ := hpieces p List.mem_cons_self
      obtain ⟨parts, hrest, hparts, hrecords⟩ :=
        ih (fun q hq => hpieces q (List.mem_cons_of_mem p hq)) hafter
      refine ⟨⟨gap, p.1⟩ :: parts, ?_, List.forall_mem_cons.mpr ⟨⟨hgap, hfirst⟩, hparts⟩,
        by rw [List.map_cons, List.map_cons, hrecords, List.cons_append]⟩
      have hsplit : octetsOf (p :: pieces) = (p.1 ++ p.2) ++ octetsOf pieces := List.flatMap_cons
      rw [hsplit, octets_cons, ← hrest]
      simp only [List.append_assoc]

/-- Octets that are records with no others between them and none behind are split into these. -/
theorem splitTexts_octetsOf {pieces : List (List UInt8 × List UInt8)}
    (hpieces : ∀ p ∈ pieces, IsRecord p.1 ∧ NoOpening p.2) {record behind : List UInt8}
    (hrecord : IsRecord record) (hbehind : NoRecord behind) :
    (splitTexts (octetsOf pieces ++ (record ++ behind))).1
      = (pieces.map fun p => Utf8.decode p.1) ++ [Utf8.decode record] := by
  obtain ⟨parts, hoctets, hparts, hrecords⟩ :=
    exists_parts_octetsOf hpieces noOpening_nil hrecord
  rw [List.nil_append] at hoctets
  rw [← List.append_assoc, hoctets, splitTexts_parts hparts ((noRecord_iff behind).mp hbehind),
    hrecords, List.map_append, List.map_map]
  rfl

/-- The octets of a record, whatever is behind them, are split into the record and what there is
behind it. -/
theorem splitTexts_record {record : List UInt8} (h : IsRecord record) (behind : List UInt8) :
    (splitTexts (record ++ behind)).1 = Utf8.decode record :: (splitTexts behind).1 := by
  obtain ⟨parts, last, rfl, hparts, hlast⟩ := exists_parts behind
  have hall : record ++ (octets parts ++ last) = octets (⟨[], record⟩ :: parts) ++ last := by
    rw [octets_cons, List.nil_append, List.append_assoc]
  rw [hall, splitTexts_parts (List.forall_mem_cons.mpr ⟨⟨noOpening_nil, h⟩, hparts⟩) hlast,
    splitTexts_parts hparts hlast]
  rfl

/-- The octets of an open tag hold no record if no closing mark is behind it. -/
theorem splitTexts_unfinished {b : UInt8} (hb : endsName b = true) {bytes : List UInt8}
    (h : ¬ closeMark <:+: bytes) : (splitTexts (openMark ++ [b] ++ bytes)).1 = [] := by
  rw [splitTexts_eq_nil_iff, noRecord_iff]
  exact .unfinished noOpening_nil hb h

/-! ### Documents -/

/-- The text that opens a record, before the character that ends the name. -/
def openTag : List Char := ['<', 'E', 'v', 'e', 'n', 't']

/-- A character that ends the name in an open tag. -/
def EndsName (c : Char) : Prop := c = '>' ∨ isSpace c = true

/-- A text that begins with an open tag and is a document of one event: its root is an event, and
no other element is. -/
structure EventDocument (document : String) (tree : Node) : Prop where
  begins : ∃ c rest, EndsName c ∧ document.toList = openTag ++ c :: rest
  reads : AuditEvent.readTree document = .ok tree
  named : tree.name = "Event"
  alone : "Event" ∉ namesAll tree.children

/-- A text is cut at its first closing text, which is markup: it is not in a comment, a tag or a
CDATA section. -/
structure Cut (document : String) (c : Char) (body after : List Char) : Prop where
  endsName : EndsName c
  whole : document.toList = openTag ++ c :: body ++ closeTag ++ after
  first : ¬ closeTag <:+: body
  markup : ∃ r start read, Reader.machine.feed Reader.start (openTag ++ c :: body) = .ok r ∧
    r.mode = .text start read

/-- No open tag begins in this text. -/
def NoOpenTag (text : List Char) : Prop := ∀ c, EndsName c → ¬ openTag ++ [c] <:+: text

/-- No open tag in this text has a closing text behind it. -/
def NoRecordText (text : List Char) : Prop :=
  ∀ before c rest, EndsName c → text = before ++ (openTag ++ c :: rest) → ¬ closeTag <:+: rest

/-- A record is read as a document is. -/
def ReadAs (record document : String) : Prop :=
  ∃ tree, AuditEvent.readTree document = .ok tree ∧ AuditEvent.readTree record = .ok tree

theorem mem_of_endsName {c : Char} (h : EndsName c) : c ∈ ['>', ' ', '\t', '\r', '\n'] := by
  rcases h with rfl | hspace
  · exact List.mem_cons_self
  · simpa [isSpace, or_assoc] using Or.inr hspace

/-- The character of an octet that ends a name ends a name. -/
theorem exists_endsName {b : UInt8} (h : endsName b = true) :
    ∃ c, EndsName c ∧ Utf8.encodeChars [c] = [b] := by
  simp only [endsName, closeBracket, Bool.or_eq_true, beq_iff_eq] at h
  rcases h with (((rfl | rfl) | rfl) | rfl) | rfl
  · exact ⟨' ', Or.inr rfl, rfl⟩
  · exact ⟨'>', Or.inl rfl, rfl⟩
  · exact ⟨'\t', Or.inr rfl, rfl⟩
  · exact ⟨'\r', Or.inr rfl, rfl⟩
  · exact ⟨'\n', Or.inr rfl, rfl⟩

/-- The octet of a character that ends a name ends a name. -/
theorem endsName_octet {c : Char} (h : EndsName c) :
    Utf8.encodeChars [c] = [UInt8.ofNat c.toNat] ∧ endsName (UInt8.ofNat c.toNat) = true := by
  have hall : ∀ c ∈ ['>', ' ', '\t', '\r', '\n'],
      Utf8.encodeChars [c] = [UInt8.ofNat c.toNat] ∧ endsName (UInt8.ofNat c.toNat) = true := by
    decide
  exact hall c (mem_of_endsName h)

theorem ascii_openTag {c : Char} (h : EndsName c) : ∀ x ∈ openTag ++ [c], x.toNat < 0x80 := by
  have hopen : ∀ x ∈ openTag, x.toNat < 0x80 := by decide
  have hends : ∀ x ∈ ['>', ' ', '\t', '\r', '\n'], x.toNat < 0x80 := by decide
  intro x hx
  rcases List.mem_append.mp hx with hx | hx
  · exact hopen x hx
  · exact hends x (List.mem_singleton.mp hx ▸ mem_of_endsName h)

theorem readTree_eq_ok_iff {record : String} {tree : Node} :
    AuditEvent.readTree record = .ok tree ↔ readDocument record.toList = .ok tree := by
  rw [AuditEvent.readTree]
  cases readDocument record.toList with
  | ok tree' => simp
  | error fault => simp

section

variable {document : String} {tree : Node} {c : Char} {body after : List Char}

/-- The octets of a text up to its first closing text are a record. -/
theorem isRecord_encodeChars (hc : EndsName c) (hfirst : ¬ closeTag <:+: body) :
    IsRecord (Utf8.encodeChars (openTag ++ c :: body ++ closeTag)) := by
  have hascii : ∀ x ∈ closeTag, x.toNat < 0x80 := by decide
  obtain ⟨hoctet, hends⟩ := endsName_octet hc
  have hsplit : openTag ++ c :: body ++ closeTag = openTag ++ ([c] ++ (body ++ closeTag)) := by
    simp
  refine ⟨_, Utf8.encodeChars body, hends,
    fun hinfix => hfirst (infix_of_encodeChars hascii hinfix), ?_⟩
  rw [hsplit, encodeChars_append, encodeChars_append, hoctet, encodeChars_append,
    List.append_assoc]
  rfl

theorem noOpening_encodeChars (h : NoOpenTag after) : NoOpening (Utf8.encodeChars after) := by
  intro b hb hinfix
  obtain ⟨c, hc, hoctet⟩ := exists_endsName hb
  refine h c hc (infix_of_encodeChars (ascii_openTag hc) ?_)
  rw [encodeChars_append, hoctet]
  exact hinfix

/-- Where no open tag has a closing text behind it there is no record, and nowhere else. -/
theorem noRecord_encodeChars_iff : NoRecord (Utf8.encodeChars after) ↔ NoRecordText after := by
  have hascii : ∀ x ∈ closeTag, x.toNat < 0x80 := by decide
  constructor
  · intro h before c rest hc hafter hclose
    -- The open tag and all up to the first closing text behind it are a record.
    have hne : closeTag ≠ [] := by decide
    obtain ⟨body, behind, rfl, hfirst⟩ := exists_first hne hclose
    have hrecord := (wholeRecord_iff _).mpr (isRecord_encodeChars hc hfirst)
    refine h _ hrecord ⟨Utf8.encodeChars before, Utf8.encodeChars behind, ?_⟩
    rw [hafter, ← encodeChars_append, ← encodeChars_append]
    simp
  · rintro h record hrecord ⟨x, y, hall⟩
    have hisRecord := (wholeRecord_iff _).mp hrecord
    obtain ⟨before, inside, behind, rfl, -, hinside⟩ := exists_inside hisRecord hall.symm
    obtain ⟨b, body, hb, -, rfl⟩ := hisRecord
    obtain ⟨c, hc, hoctet⟩ := exists_endsName hb
    have hmark : Utf8.encodeChars (openTag ++ [c]) = openMark ++ [b] := by
      rw [encodeChars_append, hoctet]
      rfl
    have hbegins : openTag ++ [c] <+: inside := by
      refine prefix_of_encodeChars (ascii_openTag hc) ?_
      rw [hmark, hinside]
      exact List.prefix_append _ _
    obtain ⟨rest, rfl⟩ := hbegins
    rw [encodeChars_append, hmark, List.append_cancel_left_eq] at hinside
    have hclose : closeTag <:+: rest := by
      refine infix_of_encodeChars hascii ?_
      rw [hinside]
      exact (List.suffix_append _ _).isInfix
    refine h before c (rest ++ behind) hc (by simp) ?_
    exact hclose.trans (List.prefix_append _ _).isInfix

/-- The octets of a document that is cut are those of the record and of what is behind. -/
theorem encode_of_cut (hcut : Cut document c body after) :
    Utf8.encode document = Utf8.encodeChars (openTag ++ c :: body ++ closeTag)
      ++ Utf8.encodeChars after := by
  rw [Utf8.encode, hcut.whole, encodeChars_append]

/-- The record of a document that is cut is read as the document is. The document may stop at the
end tag, as no element in it has the root's name. -/
theorem readAs_of_cut (hdocument : EventDocument document tree)
    (hcut : Cut document c body after) :
    ReadAs (Utf8.decode (Utf8.encodeChars (openTag ++ c :: body ++ closeTag))) document := by
  refine ⟨tree, hdocument.reads, ?_⟩
  obtain ⟨r, start, read, hfeed, hmode⟩ := hcut.markup
  have htag : FullName ['E', 'v', 'e', 'n', 't'] := ⟨by decide, by decide⟩
  have hread := readTree_eq_ok_iff.mp hdocument.reads
  rw [hcut.whole] at hread
  rw [decode_encodeChars, readTree_eq_ok_iff, String.toList_ofList]
  exact readDocument_cut htag rfl hfeed hmode hread hdocument.alone

end

/-- The splitter agrees with the reader on a list of documents: it finds one record for each, and
the record is read as the document is. -/
def Agrees (documents : List String) : Prop :=
  List.Forall₂ ReadAs (splitTexts (Utf8.encode (String.join documents))).1 documents

theorem encode_join (documents : List String) :
    Utf8.encode (String.join documents) = documents.flatMap Utf8.encode := by
  rw [Utf8.encode, String.toList_join, Utf8.encodeChars, List.flatMap_assoc]
  rfl

/-- Documents that are cut, with no open tag behind, are records with none between them. -/
theorem exists_pieces_of_cut {documents : List String}
    (hdocuments : ∀ document ∈ documents, ∃ tree, EventDocument document tree)
    (hcuts : ∀ document ∈ documents, ∃ c body after,
      Cut document c body after ∧ NoOpenTag after) :
    ∃ pieces : List (List UInt8 × List UInt8), documents.flatMap Utf8.encode = octetsOf pieces ∧
      (∀ p ∈ pieces, IsRecord p.1 ∧ NoOpening p.2) ∧
      List.Forall₂ ReadAs (pieces.map fun p => Utf8.decode p.1) documents := by
  induction documents with
  | nil => exact ⟨[], rfl, List.forall_mem_nil _, .nil⟩
  | cons document documents ih =>
      obtain ⟨tree, hdocument⟩ := hdocuments document List.mem_cons_self
      obtain ⟨c, body, after, hcut, hbehind⟩ := hcuts document List.mem_cons_self
      obtain ⟨pieces, hrest, hall, hreads⟩ :=
        ih (fun d hd => hdocuments d (List.mem_cons_of_mem document hd))
          fun d hd => hcuts d (List.mem_cons_of_mem document hd)
      refine ⟨(Utf8.encodeChars (openTag ++ c :: body ++ closeTag), Utf8.encodeChars after)
        :: pieces, ?_, ?_, .cons (readAs_of_cut hdocument hcut) hreads⟩
      · rw [List.flatMap_cons, hrest, encode_of_cut hcut]
        rfl
      · exact List.forall_mem_cons.mpr
          ⟨⟨isRecord_encodeChars hcut.endsName hcut.first, noOpening_encodeChars hbehind⟩, hall⟩

/-- Documents that are cut are the records that the splitter finds, if no open tag is behind those
that another document follows, and no record behind the last. -/
theorem agrees_of_cut {documents : List String}
    (hdocuments : ∀ document ∈ documents, ∃ tree, EventDocument document tree)
    (hcuts : ∀ document ∈ documents.dropLast, ∃ c body after,
      Cut document c body after ∧ NoOpenTag after)
    (hlast : ∀ document ∈ documents.getLast?, ∃ c body after,
      Cut document c body after ∧ NoRecordText after) : Agrees documents := by
  rcases List.eq_nil_or_concat' documents with rfl | ⟨front, last, rfl⟩
  · exact .nil
  rw [List.dropLast_concat] at hcuts
  rw [List.getLast?_concat] at hlast
  obtain ⟨pieces, hoctets, hall, hreads⟩ :=
    exists_pieces_of_cut (fun d hd => hdocuments d (List.mem_append_left _ hd)) hcuts
  obtain ⟨tree, hdocument⟩ := hdocuments last (List.mem_append_right _ List.mem_cons_self)
  obtain ⟨c, body, after, hcut, hbehind⟩ := hlast last rfl
  have hrecord := isRecord_encodeChars hcut.endsName hcut.first
  rw [Agrees, encode_join, List.flatMap_append, hoctets, List.flatMap_singleton,
    encode_of_cut hcut, splitTexts_octetsOf hall hrecord (noRecord_encodeChars_iff.mpr hbehind)]
  exact List.rel_append hreads (.cons (readAs_of_cut hdocument hcut) .nil)

/-- A document whose only record is read as the document is cut where the record ends, and no
record is behind that. -/
theorem cut_of_agrees {document : String} {tree : Node} (hdocument : EventDocument document tree)
    (h : Agrees [document]) : ∃ c body after, Cut document c body after ∧ NoRecordText after := by
  obtain ⟨c, rest, hc, hbegins⟩ := hdocument.begins
  obtain ⟨hoctet, hends⟩ := endsName_octet hc
  have hascii : ∀ x ∈ closeTag, x.toNat < 0x80 := by decide
  have hjoin : Utf8.encode (String.join [document]) = Utf8.encode document := by
    rw [encode_join, List.flatMap_singleton]
  rw [Agrees, hjoin, Utf8.encode, hbegins] at h
  by_cases hclose : closeTag <:+: rest
  · have hne : closeTag ≠ [] := by decide
    obtain ⟨body, after, rfl, hfirst⟩ := exists_first hne hclose
    have hsplit : openTag ++ c :: (body ++ closeTag ++ after)
        = openTag ++ c :: body ++ closeTag ++ after := by simp
    rw [hsplit, encodeChars_append, splitTexts_record (isRecord_encodeChars hc hfirst),
      decode_encodeChars] at h
    obtain ⟨⟨tree', hread, hrecord⟩, hbehind⟩ := List.forall₂_cons.mp h
    obtain rfl : tree' = tree := Except.ok.inj (hread.symm.trans hdocument.reads)
    rw [readTree_eq_ok_iff, String.toList_ofList] at hrecord
    refine ⟨c, body, after, ⟨hc, hbegins.trans hsplit, hfirst,
      text_before_closeTag rfl hrecord hdocument.named⟩, ?_⟩
    rw [← noRecord_encodeChars_iff, ← splitTexts_eq_nil_iff]
    exact List.forall₂_nil_right_iff.mp hbehind
  · -- Without a closing text there is no record.
    have hsplit : openTag ++ c :: rest = openTag ++ ([c] ++ rest) := rfl
    have hnone : ¬ closeMark <:+: Utf8.encodeChars rest := fun hinfix =>
      hclose (infix_of_encodeChars hascii hinfix)
    have hrecords := splitTexts_unfinished hends hnone
    rw [List.append_assoc, ← hoctet] at hrecords
    rw [hsplit, encodeChars_append, encodeChars_append] at h
    cases (show List.Forall₂ _ [] _ from hrecords ▸ h)

/-- Where the splitter and the reader of documents agree. Documents of one event each follow one
another. If each is cut at its first closing text, no open tag is behind that in any but the last,
and no record is behind it in the last, there are as many records as documents, and each is read
as the document that it is of. Of one document by itself the splitter finds the one record, read
as the document is, only if the document is cut and no record is behind. -/
theorem split_agrees (documents : List String)
    (h : ∀ document ∈ documents, ∃ tree, EventDocument document tree) :
    ((∀ document ∈ documents.dropLast, ∃ c body after,
        Cut document c body after ∧ NoOpenTag after) →
      (∀ document ∈ documents.getLast?, ∃ c body after,
        Cut document c body after ∧ NoRecordText after) →
      Agrees documents) ∧
    ∀ document ∈ documents, Agrees [document] ↔
      ∃ c body after, Cut document c body after ∧ NoRecordText after := by
  refine ⟨agrees_of_cut h, ?_⟩
  intro document hdocument
  obtain ⟨tree, htree⟩ := h document hdocument
  refine ⟨cut_of_agrees htree, fun hcut => ?_⟩
  refine agrees_of_cut (List.forall_mem_singleton.mpr ⟨tree, htree⟩) (List.forall_mem_nil _) ?_
  intro last hlast
  obtain rfl : document = last := Option.some.inj hlast
  exact hcut

/-- A document of a child with a comment behind it, and an empty one with an open tag in a
comment, follow one another. -/
theorem split_agrees_comment :
    Agrees ["<Event Id='1'>\n<System/></Event>\n<!-- last -->",
      "<Event></Event><!--<Event >-->"] := by
  -- The letter `v` is in both marks, and in neither what is inside nor what is behind the first.
  have hmark {pattern cs : List Char} (hpattern : 'v' ∈ pattern) (hcs : 'v' ∉ cs) :
      ¬ pattern <:+: cs := fun h => hcs (h.subset hpattern)
  have hopen (c : Char) : 'v' ∈ openTag ++ [c] := List.mem_append_left _ (by decide)
  refine (split_agrees _ ?_).1 ?_ ?_
  · intro document hdocument
    rcases List.mem_pair.mp hdocument with rfl | rfl
    · exact ⟨.mk "Event" [("Id", "1")] "" [.mk "System" [] "" []],
        ⟨' ', _, Or.inr rfl, rfl⟩, rfl, rfl, by decide⟩
    · exact ⟨.mk "Event" [] "" [], ⟨'>', _, Or.inl rfl, rfl⟩, rfl, rfl, by decide⟩
  · intro document hdocument
    obtain rfl := List.mem_singleton.mp hdocument
    exact ⟨' ', "Id='1'>\n<System/>".toList, "\n<!-- last -->".toList,
      ⟨Or.inr rfl, rfl, hmark (by decide) (by decide), ⟨_, _, _, rfl, rfl⟩⟩,
      fun c _ => hmark (hopen c) (by decide)⟩
  · intro document hdocument
    obtain rfl := Option.some.inj hdocument
    refine ⟨'>', [], "<!--<Event >-->".toList,
      ⟨Or.inl rfl, rfl, hmark (by decide) (by decide), ⟨_, _, _, rfl, rfl⟩⟩, ?_⟩
    -- The open tag has no closing text behind it, as there is no slash.
    intro before c rest hc hafter hclose
    have hslash : '/' ∈ rest := hclose.subset (by decide)
    have hnone : '/' ∉ "<!--<Event >-->".toList := by decide
    rw [hafter] at hnone
    exact hnone (List.mem_append_right _ (List.mem_append_right _ (List.mem_cons_of_mem c hslash)))

/-- Documents that are not cut in this way need not be what the splitter finds. An empty tag has
no closing text, so its record goes on through the next document. A closing text in a CDATA
section ends a record too early. An open tag in a comment begins one before the next document
does. -/
theorem split_disagrees :
    (∀ document ∈ ["<Event />", "<Event></Event>", "<Event><![CDATA[</Event>]]></Event>",
      "<Event></Event><!--<Event >-->"], ∃ tree, EventDocument document tree) ∧
      ¬ Agrees ["<Event />", "<Event></Event>"] ∧
      ¬ Agrees ["<Event><![CDATA[</Event>]]></Event>"] ∧
      ¬ Agrees ["<Event></Event><!--<Event >-->", "<Event></Event>"] := by
  refine ⟨?_, ?_, ?_, ?_⟩
  · simp only [List.forall_mem_cons]
    refine ⟨⟨_, ⟨' ', _, Or.inr rfl, rfl⟩, rfl, rfl, ?_⟩,
      ⟨_, ⟨'>', _, Or.inl rfl, rfl⟩, rfl, rfl, ?_⟩, ⟨_, ⟨'>', _, Or.inl rfl, rfl⟩, rfl, rfl, ?_⟩,
      ⟨_, ⟨'>', _, Or.inl rfl, rfl⟩, rfl, rfl, ?_⟩, List.forall_mem_nil _⟩ <;>
      exact List.not_mem_nil
  · intro h
    have hrecords : (splitTexts (Utf8.encode (String.join ["<Event />", "<Event></Event>"]))).1
        = ["<Event /><Event></Event>"] := rfl
    rw [Agrees, hrecords] at h
    cases h with
    | cons _ hrest => cases hrest
  · intro h
    have hrecords : (splitTexts (Utf8.encode
        (String.join ["<Event><![CDATA[</Event>]]></Event>"]))).1
          = ["<Event><![CDATA[</Event>"] := rfl
    rw [Agrees, hrecords] at h
    obtain ⟨⟨tree, -, hread⟩, -⟩ := List.forall₂_cons.mp h
    cases hread
  · intro h
    have hrecords : (splitTexts (Utf8.encode
        (String.join ["<Event></Event><!--<Event >-->", "<Event></Event>"]))).1
          = ["<Event></Event>", "<Event >--><Event></Event>"] := rfl
    rw [Agrees, hrecords] at h
    obtain ⟨-, hrest⟩ := List.forall₂_cons.mp h
    obtain ⟨⟨tree, -, hread⟩, -⟩ := List.forall₂_cons.mp hrest
    cases hread

end AuditTables.Proofs.Event
