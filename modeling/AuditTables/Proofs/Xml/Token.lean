import AuditTables.Proofs.Xml.Markup
import AuditTables.Xml.Reader

/-!
# `AuditTables.Proofs.Xml.Token`: written texts and attributes under their readers

Two kinds of token are followed here through the readers of markup. Both readers keep what
they have read latest first and add to it character by character (`Machine.feed_collect`).

* `resolve_of_escapedText`: an escaped text resolves to the text. `feed_escaped` reads one
  character of it, which is itself or a reference.
* `readAttributes_of_attributeList`: written attributes are read as the attributes. Their keys
  differ, so none is refused as a second one.

Between them stands what keeps the tokens apart: no escaped text has a character in it that is
escaped there (`ne_of_mem_escapedText`), and no name any character of markup (`FullName.ne`).
-/

set_option autoImplicit false

namespace AuditTables.Proofs.Xml

open AuditTables.Text AuditTables.Xml

/-! ### Texts -/

/-- Where a reference stands shows in its faults only, not in the character. -/
theorem referent_of_referent {start stop : Nat} {body : List Char} {c : Char}
    (h : referent start stop body = .ok c) (start' stop' : Nat) :
    referent start' stop' body = .ok c := by
  -- Positions are given to `characterOf`, and to the fault of an unknown name.
  have hcharacter (n : Nat) (h : characterOf start stop n = .ok c) :
      characterOf start' stop' n = .ok c := by
    unfold characterOf at h ⊢
    split at h
    next => cases h
    next hne => rwa [if_neg hne]
  have hvalue (value : Except ReferenceCause Nat)
      (h : value.bind (characterOf start stop) = .ok c) :
      value.bind (characterOf start' stop') = .ok c := by
    cases value with
    | error cause => cases h
    | ok n => exact hcharacter n h
  revert h
  unfold referent
  split
  next digits => exact hvalue _
  next digits _ => exact hvalue _
  next =>
    simp only
    split
    next => exact id
    next =>
      intro h
      cases h

/-- The name of a character resolves to the character. -/
theorem referent_of_name {c : Char} {name : String} (h : (c, name) ∈ characterNames)
    (start stop : Nat) : referent start stop name.toList = .ok c := by
  have hall : ∀ p ∈ characterNames, referent 0 0 p.2.toList = .ok p.1 := by decide
  exact referent_of_referent (hall _ h) start stop

/-- A numeral of a character resolves to the character. -/
theorem referent_of_numeral {c : Char} {numeral : List Char} (hnumbered : c ∈ numberedCharacters)
    (h : numeral ∈ numerals c.toNat) (start stop : Nat) :
    referent start stop ('#' :: numeral) = .ok c := by
  have hall : ∀ c ∈ numberedCharacters, ∀ numeral ∈ numerals c.toNat,
      referent 0 0 ('#' :: numeral) = .ok c := by decide
  exact referent_of_referent (hall c hnumbered numeral h) start stop

variable {length : Nat}

theorem step_plain {c : Char} (hne : c ≠ '&') (offset : Nat) (read : List Char) :
    (Resolver.machine length).step ⟨offset, read, none⟩ c
      = .ok ⟨offset + c.utf8Size, c :: read, none⟩ := by
  show Resolver.step length ⟨offset, read, none⟩ c = _
  simp only [Resolver.step, if_neg hne]

theorem step_reference {x : Char} (hx : x ≠ '&' ∧ x ≠ ';') (offset position : Nat)
    (read body : List Char) :
    (Resolver.machine length).step ⟨offset, read, some (position, body)⟩ x
      = .ok ⟨offset + x.utf8Size, read, some (position, x :: body)⟩ := by
  show Resolver.step length ⟨offset, read, some (position, body)⟩ x = _
  simp only [Resolver.step, if_neg hx.1, if_neg hx.2]

/-- The end of a reference puts the character in that it stands for. -/
theorem step_semicolon {body : List Char} {c : Char}
    (hreferent : ∀ start stop, referent start stop body.reverse = .ok c) (offset position : Nat)
    (read : List Char) :
    (Resolver.machine length).step ⟨offset, read, some (position, body)⟩ ';'
      = .ok ⟨offset + (';').utf8Size, c :: read, none⟩ := by
  show Resolver.step length ⟨offset, read, some (position, body)⟩ ';' = _
  simp only [Resolver.step, hreferent]
  rfl

/-- A reference is read as the character that it stands for. -/
theorem feed_reference {body : List Char} {c : Char} (hplain : ∀ x ∈ body, x ≠ '&' ∧ x ≠ ';')
    (hreferent : ∀ start stop, referent start stop body = .ok c) (offset : Nat)
    (read : List Char) :
    ∃ offset', (Resolver.machine length).feed ⟨offset, read, none⟩ ('&' :: (body ++ [';']))
      = .ok ⟨offset', c :: read, none⟩ := by
  have hstart : (Resolver.machine length).step ⟨offset, read, none⟩ '&'
      = .ok ⟨offset + ('&').utf8Size, read, some (offset, [])⟩ := rfl
  obtain ⟨o, hbody⟩ := Machine.feed_collect (fun o r => Resolver.mk o read (some (offset, r)))
    (fun x hx o r => ⟨_, step_reference (hplain x hx) o offset read r⟩)
    (offset + ('&').utf8Size) []
  rw [List.append_nil] at hbody
  -- The body is kept latest character first and turned around at the semicolon.
  rw [← List.reverse_reverse body] at hreferent
  refine ⟨o + (';').utf8Size, ?_⟩
  rw [Machine.feed_cons_of_ok hstart, Machine.feed_append_of_ok hbody,
    Machine.feed_cons_of_ok (step_semicolon hreferent o offset read)]
  rfl

section

variable {marked : List Char}

/-- A written character is read as the character, if ampersands are escaped. -/
theorem feed_escaped (hmarked : '&' ∈ marked) {c : Char} {written : List Char}
    (h : Escaped marked c written) (offset : Nat) (read : List Char) :
    ∃ offset', (Resolver.machine length).feed ⟨offset, read, none⟩ written
      = .ok ⟨offset', c :: read, none⟩ := by
  cases h with
  | plain hplain =>
      have hne : c ≠ '&' := fun heq => hplain (heq ▸ hmarked)
      exact ⟨_, Machine.feed_cons_of_ok (step_plain hne offset read) []⟩
  | named hname =>
      have hall : ∀ p ∈ characterNames, ∀ x ∈ p.2.toList, x ≠ '&' ∧ x ≠ ';' := by decide
      exact feed_reference (hall _ hname) (referent_of_name hname) offset read
  | numbered hnumbered hnumeral =>
      have hall : ∀ c ∈ numberedCharacters, ∀ numeral ∈ numerals c.toNat,
          ∀ x ∈ '#' :: numeral, x ≠ '&' ∧ x ≠ ';' := by decide
      exact feed_reference (hall c hnumbered _ hnumeral) (referent_of_numeral hnumbered hnumeral)
        offset read

/-- An escaped text is read as the text, by induction on its characters. -/
theorem feed_escapedText (hmarked : '&' ∈ marked) {text written : List Char}
    (h : EscapedText marked text written) (offset : Nat) (read : List Char) :
    ∃ offset', (Resolver.machine length).feed ⟨offset, read, none⟩ written
      = .ok ⟨offset', text.reverse ++ read, none⟩ := by
  induction h generalizing offset read with
  | nil => exact ⟨offset, rfl⟩
  | @cons c text written rest hfirst hrest ih =>
      obtain ⟨o, hwritten⟩ := feed_escaped hmarked hfirst offset read
      obtain ⟨o', hrest⟩ := ih o (c :: read)
      refine ⟨o', ?_⟩
      rw [Machine.feed_append_of_ok hwritten, hrest, List.reverse_cons, List.append_assoc]
      rfl

/-- An escaped text resolves to the text. -/
theorem resolve_of_escapedText (hmarked : '&' ∈ marked) {text written : List Char}
    (h : EscapedText marked text written) : resolve written = .ok text := by
  obtain ⟨o, hfeed⟩ :=
    @feed_escapedText (Utf8.byteLength written) marked hmarked text written h 0 []
  rw [resolve, Machine.run_eq_bind, Resolver.start, hfeed, List.append_nil]
  show Resolver.finish (Utf8.byteLength written) ⟨o, text.reverse, none⟩ = _
  rw [Resolver.finish, List.reverse_reverse]

/-! ### Which characters are where -/

/-- Of the characters of markup that are escaped where it stands, an ampersand alone is in a
written character. -/
theorem eq_ampersand_of_escaped {c : Char} {written : List Char} (h : Escaped marked c written) :
    ∀ x ∈ written, x ∈ marked → x ∈ numberedCharacters → x = '&' := by
  cases h with
  | plain hplain =>
      intro x hx hmarked
      rw [List.mem_singleton.mp hx] at hmarked
      exact absurd hmarked hplain
  | named hname =>
      have hall : ∀ p ∈ characterNames, ∀ x ∈ '&' :: (p.2.toList ++ [';']),
          x ∈ numberedCharacters → x = '&' := by decide
      exact fun x hx _ => hall _ hname x hx
  | numbered hnumbered hnumeral =>
      have hall : ∀ c ∈ numberedCharacters, ∀ numeral ∈ numerals c.toNat,
          ∀ x ∈ '&' :: '#' :: (numeral ++ [';']),
            x ∈ numberedCharacters → x = '&' := by decide
      exact fun x hx _ => hall c hnumbered _ hnumeral x hx

/-- An escaped text has none of the others in it. -/
theorem ne_of_mem_escapedText {text written : List Char} (h : EscapedText marked text written)
    {x : Char} (hx : x ∈ written) {c : Char} (hc : c ∈ marked) (hmarkup : c ∈ numberedCharacters)
    (hne : c ≠ '&') : x ≠ c := by
  rintro rfl
  induction h with
  | nil => exact List.not_mem_nil hx
  | cons hfirst _ ih =>
      rcases List.mem_append.mp hx with hx | hx
      · exact hne (eq_ampersand_of_escaped hfirst x hx hc hmarkup)
      · exact ih hx

end

/-- No character of a name is a delimiter. -/
theorem FullName.ne {name : List Char} (h : FullName name) {x : Char} (hx : x ∈ name) {c : Char}
    (hc : c ∈ delimiters) : x ≠ c := by
  rintro rfl
  exact h.plain x hx hc

/-- There is no white space in a name. -/
theorem FullName.isSpace_eq_false {name : List Char} (h : FullName name) {x : Char}
    (hx : x ∈ name) : isSpace x = false := by
  simp only [isSpace, Bool.or_eq_false_iff, beq_eq_false_iff_ne]
  exact ⟨⟨⟨h.ne hx (by decide), h.ne hx (by decide)⟩, h.ne hx (by decide)⟩, h.ne hx (by decide)⟩

theorem isSpace_of_mem {c : Char} (h : c ∈ spaceCharacters) : isSpace c = true := by
  have hall : ∀ c ∈ spaceCharacters, isSpace c = true := by decide
  exact hall c h

/-! ### Attributes -/

/-! One lemma for each thing that a character can do to the reader of attributes. -/

theorem attributeStep_eq (r : AttributeReader) (c : Char) : AttributeReader.machine.step r c
    = (r.take c).map fun next => { next with offset := r.offset + c.utf8Size } := rfl

variable {offset : Nat} {seen : List (List Char × Nat)} {found : List (String × String)}

theorem step_attributeSpace {c : Char} (hc : isSpace c = true) :
    AttributeReader.machine.step ⟨offset, seen, found, .gap⟩ c
      = .ok ⟨offset + c.utf8Size, seen, found, .gap⟩ := by
  simp only [attributeStep_eq, AttributeReader.take, hc, if_true]
  rfl

theorem step_keyFirst {c : Char} (hc : isSpace c = false) :
    AttributeReader.machine.step ⟨offset, seen, found, .gap⟩ c
      = .ok ⟨offset + c.utf8Size, seen, found, .key offset [c]⟩ := by
  simp only [attributeStep_eq, AttributeReader.take, hc]
  rfl

theorem step_keyRest {x : Char} (hequals : x ≠ '=') (hspace : isSpace x = false)
    (position : Nat) (read : List Char) :
    AttributeReader.machine.step ⟨offset, seen, found, .key position read⟩ x
      = .ok ⟨offset + x.utf8Size, seen, found, .key position (x :: read)⟩ := by
  simp only [attributeStep_eq, AttributeReader.take, if_neg hequals, hspace]
  rfl

/-- The equals sign after a new key. -/
theorem step_equals {read : List Char} (hnew : seen.lookup read.reverse = none)
    (position : Nat) :
    AttributeReader.machine.step ⟨offset, seen, found, .key position read⟩ '='
      = .ok ⟨offset + ('=').utf8Size, (read.reverse, position) :: seen, found,
          .beforeValue read.reverse⟩ := by
  simp only [attributeStep_eq, AttributeReader.take, AttributeReader.endKey, hnew]
  rfl

theorem step_openingQuote {quote : Char} (hquote : quote = '"' ∨ quote = '\'') (key : List Char) :
    AttributeReader.machine.step ⟨offset, seen, found, .beforeValue key⟩ quote
      = .ok ⟨offset + quote.utf8Size, seen, found, .value key quote []⟩ := by
  rcases hquote with rfl | rfl <;> rfl

theorem step_valueRest {x quote : Char} (hne : x ≠ quote) (key read : List Char) :
    AttributeReader.machine.step ⟨offset, seen, found, .value key quote read⟩ x
      = .ok ⟨offset + x.utf8Size, seen, found, .value key quote (x :: read)⟩ := by
  simp only [attributeStep_eq, AttributeReader.take, if_neg hne]
  rfl

/-- The quote after a value ends its attribute. -/
theorem step_closingQuote {value read : List Char} (hvalue : resolve read.reverse = .ok value)
    (key : List Char) (quote : Char) :
    AttributeReader.machine.step ⟨offset, seen, found, .value key quote read⟩ quote
      = .ok ⟨offset + quote.utf8Size, seen, (shortName key, String.ofList value) :: found,
          .gap⟩ := by
  simp only [attributeStep_eq, AttributeReader.take, AttributeReader.endValue, hvalue, if_true]
  rfl

/-- White space before a key, or after the last value, is passed over. -/
theorem feed_attributeSpaces {spaces : List Char} (h : ∀ c ∈ spaces, c ∈ spaceCharacters) :
    ∃ offset', AttributeReader.machine.feed ⟨offset, seen, found, .gap⟩ spaces
      = .ok ⟨offset', seen, found, .gap⟩ :=
  Machine.feed_collect (fun o _ => AttributeReader.mk o seen found .gap)
    (fun x hx _ _ => ⟨_, step_attributeSpace (isSpace_of_mem (h x hx))⟩) offset []

/-- A key is read up to its equals sign. -/
theorem feed_key {key : List Char} (hkey : FullName key) (hnew : seen.lookup key = none) :
    ∃ offset' position,
      AttributeReader.machine.feed ⟨offset, seen, found, .gap⟩ (key ++ ['='])
        = .ok ⟨offset', (key, position) :: seen, found, .beforeValue key⟩ := by
  obtain ⟨c, cs, rfl⟩ := List.exists_cons_of_ne_nil hkey.nonempty
  have hrest : ∀ x ∈ cs, x ≠ '=' ∧ isSpace x = false := fun x hx =>
    ⟨hkey.ne (List.mem_cons_of_mem c hx) (by decide),
      hkey.isSpace_eq_false (List.mem_cons_of_mem c hx)⟩
  obtain ⟨o, hcollected⟩ := Machine.feed_collect
    (fun o read => AttributeReader.mk o seen found (.key offset read))
    (fun x hx _ read => ⟨_, step_keyRest (hrest x hx).1 (hrest x hx).2 _ read⟩)
    (offset + c.utf8Size) [c]
  have hread : (cs.reverse ++ [c]).reverse = c :: cs := by
    rw [List.reverse_append, List.reverse_reverse]
    rfl
  refine ⟨o + ('=').utf8Size, offset, ?_⟩
  rw [List.cons_append,
    Machine.feed_cons_of_ok (step_keyFirst (hkey.isSpace_eq_false List.mem_cons_self)),
    Machine.feed_append_of_ok hcollected,
    Machine.feed_cons_of_ok (step_equals (hread.symm ▸ hnew) _), hread]
  rfl

/-- In a value, the quote that ends it is escaped. -/
theorem ne_quote_of_mem {quote : Char} (hquote : quote = '"' ∨ quote = '\'')
    {value written : List Char} (hvalue : EscapedText (markedInValue quote) value written)
    {x : Char} (hx : x ∈ written) : x ≠ quote := by
  rcases hquote with rfl | rfl
  · exact ne_of_mem_escapedText hvalue hx (by decide) (by decide) (by decide)
  · exact ne_of_mem_escapedText hvalue hx (by decide) (by decide) (by decide)

/-- A value is read up to its closing quote, and its attribute found. -/
theorem feed_value {quote : Char} (hquote : quote = '"' ∨ quote = '\'') (key : List Char)
    {value written : List Char} (hvalue : EscapedText (markedInValue quote) value written) :
    ∃ offset',
      AttributeReader.machine.feed ⟨offset, seen, found, .beforeValue key⟩
        (quote :: (written ++ [quote]))
        = .ok ⟨offset', seen, (shortName key, String.ofList value) :: found, .gap⟩ := by
  have hresolve : resolve written.reverse.reverse = .ok value := by
    rw [List.reverse_reverse]
    exact resolve_of_escapedText (List.mem_cons_of_mem quote (by decide)) hvalue
  obtain ⟨o, hcollected⟩ := Machine.feed_collect
    (fun o read => AttributeReader.mk o seen found (.value key quote read))
    (fun x hx _ read => ⟨_, step_valueRest (ne_quote_of_mem hquote hvalue hx) key read⟩)
    (offset + quote.utf8Size) []
  rw [List.append_nil] at hcollected
  refine ⟨o + quote.utf8Size, ?_⟩
  rw [Machine.feed_cons_of_ok (step_openingQuote hquote key), Machine.feed_append_of_ok hcollected,
    Machine.feed_cons_of_ok (step_closingQuote hresolve key quote)]
  rfl

/-- Written attributes whose keys are new are found one after the other, by induction on
them: a key that has been read is none of those after it. -/
theorem feed_attributes {attributes : List (List Char × String)} {written : List Char}
    (h : AttributeList attributes written) (hkeys : (attributes.map (·.1)).Nodup)
    (hnew : ∀ p ∈ attributes, seen.lookup p.1 = none) :
    ∃ offset' seen',
      AttributeReader.machine.feed ⟨offset, seen, found, .gap⟩ written
        = .ok ⟨offset', seen', (shortKeys attributes).reverse ++ found, .gap⟩ := by
  induction h generalizing offset seen found with
  | nil hspaces =>
      obtain ⟨o, hfeed⟩ := feed_attributeSpaces hspaces
      exact ⟨o, seen, hfeed⟩
  | @cons spaces key written rest value quote attributes _ hspaces hkey hquote hvalue hrest ih =>
      obtain ⟨hother, hkeys⟩ := List.nodup_cons.mp hkeys
      obtain ⟨o₁, hspacesRead⟩ := @feed_attributeSpaces offset seen found _ hspaces
      obtain ⟨o₂, position, hkeyRead⟩ := @feed_key o₁ seen found _ hkey
        (hnew _ List.mem_cons_self)
      obtain ⟨o₃, hvalueRead⟩ := @feed_value o₂ ((key, position) :: seen) found _ hquote key _ _
        hvalue
      -- The key that has just been read is none of those that are left.
      have hnew' : ∀ p ∈ attributes, List.lookup p.1 ((key, position) :: seen) = none := by
        intro p hp
        have hne : (p.1 == key) = false := by
          refine beq_eq_false_iff_ne.mpr fun heq => hother ?_
          exact List.mem_map.mpr ⟨p, hp, heq⟩
        rw [List.lookup_cons, hne]
        exact hnew p (List.mem_cons_of_mem _ hp)
      obtain ⟨o₄, seen', hrestRead⟩ := @ih o₃ ((key, position) :: seen)
        ((shortName key, String.ofList value.toList) :: found) hkeys hnew'
      refine ⟨o₄, seen', ?_⟩
      have hsplit : spaces ++ (key ++ '=' :: quote :: (written ++ quote :: rest))
          = spaces ++ (key ++ ['='] ++ (quote :: (written ++ [quote]) ++ rest)) := by simp
      have hreverse : (shortKeys ((key, value) :: attributes)).reverse
          = (shortKeys attributes).reverse ++ [(shortName key, value)] := List.reverse_cons
      rw [hsplit, Machine.feed_append_of_ok hspacesRead, Machine.feed_append_of_ok hkeyRead,
        Machine.feed_append_of_ok hvalueRead, hrestRead, String.ofList_toList, hreverse,
        List.append_assoc]
      rfl

/-- Written attributes with different keys are read as the attributes. -/
theorem readAttributes_of_attributeList {attributes : List (List Char × String)}
    {written : List Char} (h : AttributeList attributes written)
    (hkeys : (attributes.map (·.1)).Nodup) (offset : Nat) :
    readAttributes offset written = .ok (shortKeys attributes) := by
  obtain ⟨o, seen, hfeed⟩ := @feed_attributes offset [] [] _ _ h hkeys fun _ _ => rfl
  rw [readAttributes, Machine.run_eq_bind, AttributeReader.start, hfeed, List.append_nil]
  show AttributeReader.finish ⟨o, seen, (shortKeys attributes).reverse, .gap⟩ = _
  rw [AttributeReader.finish, List.reverse_reverse]

end AuditTables.Proofs.Xml
