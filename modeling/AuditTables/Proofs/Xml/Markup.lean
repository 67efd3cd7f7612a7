import AuditTables.Proofs.Xml.Rendering
import AuditTables.Xml.Attributes
import Mathlib.Data.List.Nodup
import Mathlib.Data.List.TakeWhile

/-!
# `AuditTables.Proofs.Xml.Markup`: documents as programs write them

`Rendered` fixes much about how a document looks: names are made of letters, values stand in
double quotes after one space, and whatever could be taken for markup is escaped. Programs that
write documents make other choices. `Markup` is the relation between trees and the documents that
they may come up with.

* A name has any characters but white space and those of markup, and may have a prefix before a
  colon (`FullName`). The tree knows it without the prefix (`shortName`).
* A value stands in quotes of either kind, and white space of any kind and length separates
  attributes (`AttributeList`).
* Of the characters of a text, an ampersand, an opening bracket, tabs and line ends are
  escaped. So is the quote in a value, and a space at an end of character data. Other characters
  may be, if they have a name or are white space.

Gaps are those of `Rendered`, and every rendering is such a document (`markup_of_rendered`), so the
reader is followed through `Markup` alone.
-/

set_option autoImplicit false

namespace AuditTables.Proofs.Xml

open AuditTables.Xml

/-! ### Texts -/

/-- The characters that are always escaped, in values and in character data. -/
def markedInData : List Char := ['<', '&', '\t', '\r', '\n']

/-- The characters that are escaped in a value between quotes. -/
def markedInValue (quote : Char) : List Char := quote :: markedInData

/-- The characters that may be written by their number. -/
def numberedCharacters : List Char := spaceCharacters ++ characterNames.map (·.1)

/-- How one character is written where these ones are escaped. -/
inductive Escaped (marked : List Char) : Char → List Char → Prop where
  | plain {c : Char} (hplain : c ∉ marked) : Escaped marked c [c]
  | named {c : Char} {name : String} (hname : (c, name) ∈ characterNames) :
      Escaped marked c ('&' :: (name.toList ++ [';']))
  | numbered {c : Char} {numeral : List Char} (hnumbered : c ∈ numberedCharacters)
      (hnumeral : numeral ∈ numerals c.toNat) :
      Escaped marked c ('&' :: '#' :: (numeral ++ [';']))

/-- How a text is written, character by character. -/
inductive EscapedText (marked : List Char) : List Char → List Char → Prop where
  | nil : EscapedText marked [] []
  | cons {c : Char} {text written rest : List Char} (hfirst : Escaped marked c written)
      (hrest : EscapedText marked text rest) : EscapedText marked (c :: text) (written ++ rest)

/-- How character data is written: no space stands as it is at either end. -/
structure CharacterData (text written : List Char) : Prop where
  escaped : EscapedText markedInData text written
  first : written.head? ≠ some ' '
  last : written.getLast? ≠ some ' '

/-! ### Tags -/

/-- The characters that no name has. -/
def delimiters : List Char := spaceCharacters ++ ['<', '>', '&', '\'', '"', '/', '=', '!', '?']

/-- A name as it is written, with a prefix if it has one. -/
structure FullName (name : List Char) : Prop where
  nonempty : name ≠ []
  plain : ∀ c ∈ name, c ∉ delimiters

/-- A name without its prefix. -/
def shortName (name : List Char) : String := String.ofList (localName name)

/-- How attributes are written: each after white space, the value in quotes of either kind, and
white space after the last one. -/
inductive AttributeList : List (List Char × String) → List Char → Prop where
  | nil {spaces : List Char} (hspaces : ∀ c ∈ spaces, c ∈ spaceCharacters) :
      AttributeList [] spaces
  | cons {spaces key written rest : List Char} {value : String} {quote : Char}
      {attributes : List (List Char × String)} (hsome : spaces ≠ [])
      (hspaces : ∀ c ∈ spaces, c ∈ spaceCharacters) (hkey : FullName key)
      (hquote : quote = '"' ∨ quote = '\'')
      (hvalue : EscapedText (markedInValue quote) value.toList written)
      (hrest : AttributeList attributes rest) :
      AttributeList ((key, value) :: attributes)
        (spaces ++ (key ++ '=' :: quote :: (written ++ quote :: rest)))

/-- What stands in a start tag: a name and attributes with different keys. -/
inductive StartTag : List Char → List (List Char × String) → List Char → Prop where
  | mk {name written : List Char} {attributes : List (List Char × String)}
      (hname : FullName name) (hattributes : AttributeList attributes written)
      (hkeys : (attributes.map (·.1)).Nodup) : StartTag name attributes (name ++ written)

/-- Attributes as the tree has them. -/
def shortKeys (attributes : List (List Char × String)) : List (String × String) :=
  attributes.map fun p => (shortName p.1, p.2)

/-! ### Trees -/

/-- How trees are written one after the other, with gaps before, between and after them. -/
inductive Markup : List Node → List Char → Prop where
  | gap {gap : List Char} (hgap : Gap gap) : Markup [] gap
  | single {gap tag rest name : List Char} {attributes : List (List Char × String)}
      {nodes : List Node} (hgap : Gap gap) (htag : StartTag name attributes tag)
      (hrest : Markup nodes rest) :
      Markup (.mk (shortName name) (shortKeys attributes) "" [] :: nodes)
        (gap ++ '<' :: (tag ++ '/' :: '>' :: rest))
  | element {gap tag written inner rest name : List Char} {text : String}
      {attributes : List (List Char × String)} {children nodes : List Node} (hgap : Gap gap)
      (htag : StartTag name attributes tag) (htext : CharacterData text.toList written)
      (hchildren : Markup children inner) (hrest : Markup nodes rest) :
      Markup (.mk (shortName name) (shortKeys attributes) text children :: nodes)
        (gap ++ '<' :: (tag ++ '>' :: (written ++ (inner ++ '<' :: '/' :: (name ++ '>' :: rest)))))

/-! ### Renderings are documents -/

/-- A text without characters to escape may stand as it is. -/
theorem escapedText_self {marked text : List Char} (h : ∀ c ∈ text, c ∉ marked) :
    EscapedText marked text text := by
  induction text with
  | nil => exact .nil
  | cons c text ih =>
      exact .cons (.plain (h c List.mem_cons_self)) (ih fun x hx => h x (List.mem_cons_of_mem c hx))

theorem escapedText_of_spelled {marked : List Char} (hmarked : ∀ c ∈ marked, c ∈ markedCharacters)
    {text written : List Char} (h : Spelled text written) : EscapedText marked text written := by
  induction h with
  | nil => exact .nil
  | cons hfirst _ ih =>
      refine .cons ?_ ih
      cases hfirst with
      | plain hplain => exact .plain fun hmem => hplain (hmarked _ hmem)
      | named hname => exact .named hname
      | numbered hspace hnumeral =>
          exact .numbered (List.mem_append_left _ hspace) hnumeral

theorem IsName.fullName {name : List Char} (h : IsName name) : FullName name := by
  have hall : ∀ c ∈ delimiters, c.isAlpha = false := by decide
  refine ⟨h.nonempty, ?_⟩
  intro c hc hmem
  exact Bool.false_ne_true ((hall c hmem).symm.trans (h.letters c hc))

/-- A name made of letters has no prefix. -/
theorem IsName.shortName_eq {name : String} (h : IsName name.toList) :
    shortName name.toList = name := by
  have hdrop : name.toList.dropWhile (· != ':') = [] := by
    refine List.dropWhile_eq_nil_iff.mpr fun x hx => bne_iff_ne.mpr ?_
    rintro rfl
    exact absurd (h.letters _ hx) (by decide)
  rw [shortName, localName, hdrop, String.ofList_toList]

/-- Written attributes with their keys as characters. -/
theorem attributeList_of_written {attributes : List (String × String)} {written : List Char}
    (h : AttributesWritten attributes written) :
    AttributeList (attributes.map fun p => (p.1.toList, p.2)) written := by
  induction h with
  | nil => exact .nil (by decide)
  | cons hkey hvalue _ ih =>
      have hmarked : ∀ c ∈ markedInValue '"', c ∈ markedCharacters := by decide
      exact .cons (List.cons_ne_nil ' ' []) (by decide) hkey.fullName (.inl rfl)
        (escapedText_of_spelled hmarked hvalue) ih

theorem AttributesWritten.shortKeys_eq {attributes : List (String × String)} {written : List Char}
    (h : AttributesWritten attributes written) :
    shortKeys (attributes.map fun p => (p.1.toList, p.2)) = attributes := by
  induction h with
  | nil => rfl
  | cons hkey _ _ ih =>
      rw [shortKeys, List.map_cons, List.map_cons, hkey.shortName_eq]
      exact congrArg (_ :: ·) ih

theorem startTag_of_tagContent {name : String} {attributes : List (String × String)}
    {tag : List Char} (h : TagContent name attributes tag) :
    ∃ attributes', StartTag name.toList attributes' tag ∧ shortName name.toList = name ∧
      shortKeys attributes' = attributes := by
  cases h with
  | mk hname hattributes hkeys =>
      refine ⟨_, .mk hname.fullName (attributeList_of_written hattributes) ?_, hname.shortName_eq,
        hattributes.shortKeys_eq⟩
      have hkeys' : ((attributes.map (·.1)).map String.toList).Nodup :=
        hkeys.map fun _ _ heq => String.toList_inj.mp heq
      simpa [List.map_map, Function.comp_def] using hkeys'

theorem characterData_of_spelledData {text written : List Char} (h : SpelledData text written) :
    CharacterData text written :=
  ⟨escapedText_of_spelled (by decide) h.spelled, h.first, h.last⟩

/-- Every rendering is a document of the wider kind. -/
theorem markup_of_rendered {nodes : List Node} {written : List Char} (h : Rendered nodes written) :
    Markup nodes written := by
  induction h with
  | gap hgap => exact .gap hgap
  | single hgap htag _ ih =>
      obtain ⟨attributes, htag', hname, hattributes⟩ := startTag_of_tagContent htag
      have hmarkup := Markup.single hgap htag' ih
      rwa [hname, hattributes] at hmarkup
  | element hgap htag htext _ _ ihchildren ihrest =>
      obtain ⟨attributes, htag', hname, hattributes⟩ := startTag_of_tagContent htag
      have hmarkup :=
        Markup.element hgap htag' (characterData_of_spelledData htext) ihchildren ihrest
      rwa [hname, hattributes] at hmarkup

end AuditTables.Proofs.Xml
