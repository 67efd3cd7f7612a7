import AuditTables.Xml.Node

/-!
# `AuditTables.Proofs.Xml.Rendering`: the ways to write a property tree

A property tree can be written as a document in many ways. White space and comments may
stand wherever no character data does, an element without content may have one tag or two,
and a character may be written by a reference. `Rendered` is the relation between trees and
all of these texts. It is defined without the reader, from the grammar: `Written` for one
character, `Spelled` for a text, `Gap` for what stands between, `TagContent` for what stands
between the brackets of a start tag.

`Rendered` relates a list of trees with a text, which is what the content of an element is
and, with one tree, a document. A text of trees begins and ends with a gap, so one rule
places gaps after the character data of an element, between its children, behind the last
of them, and around the root.

`exists_rendered` says that every tree whose names are made of letters can be written
(`WellNamed`), whatever its texts and values are.
-/

set_option autoImplicit false

namespace AuditTables.Proofs.Xml

open AuditTables.Xml

/-! ### Characters and texts -/

/-- What holds of all characters of a list is decided on the list, not on all characters that
there are. -/
instance decidableForallMem (p : Char → Prop) [DecidablePred p] (cs : List Char) :
    Decidable (∀ c ∈ cs, p c) := List.decidableBAll p cs

/-- The characters that markup is made of, with their names. -/
def characterNames : List (Char × String) :=
  [('<', "lt"), ('>', "gt"), ('&', "amp"), ('\'', "apos"), ('"', "quot")]

/-- The white space of markup. -/
def spaceCharacters : List Char := [' ', '\t', '\r', '\n']

/-- The characters that are never written as they are. A space may be. -/
def markedCharacters : List Char := ['<', '>', '&', '\'', '"', '\t', '\r', '\n']

/-- Digits with zeros before them, up to a number of digits. -/
def padded (width : Nat) (digits : List Char) : List (List Char) :=
  (List.range (width - digits.length + 1)).map fun zeros => List.replicate zeros '0' ++ digits

/-- The numerals of a number in a reference: in decimal with up to seven digits, or after an
`x` in hexadecimal with up to six, in lower or in upper case. -/
def numerals (n : Nat) : List (List Char) :=
  padded 7 (Nat.toDigits 10 n)
    ++ (padded 6 (Nat.toDigits 16 n) ++ padded 6 ((Nat.toDigits 16 n).map Char.toUpper)).map
      ('x' :: ·)

/-- How one character is written. -/
inductive Written : Char → List Char → Prop where
  | plain {c : Char} (hplain : c ∉ markedCharacters) : Written c [c]
  | named {c : Char} {name : String} (hname : (c, name) ∈ characterNames) :
      Written c ('&' :: (name.toList ++ [';']))
  | numbered {c : Char} {numeral : List Char} (hspace : c ∈ spaceCharacters)
      (hnumeral : numeral ∈ numerals c.toNat) : Written c ('&' :: '#' :: (numeral ++ [';']))

/-- How a text is written, character by character. -/
inductive Spelled : List Char → List Char → Prop where
  | nil : Spelled [] []
  | cons {c : Char} {text written rest : List Char} (hfirst : Written c written)
      (hrest : Spelled text rest) : Spelled (c :: text) (written ++ rest)

/-- How character data is written: no space stands as it is at either end. -/
structure SpelledData (text written : List Char) : Prop where
  spelled : Spelled text written
  first : written.head? ≠ some ' '
  last : written.getLast? ≠ some ' '

/-! ### Markup -/

/-- What may stand where no character data does: white space and comments. A comment has a
body without hyphens and closing brackets. -/
inductive Gap : List Char → Prop where
  | nil : Gap []
  | space {c : Char} {rest : List Char} (hspace : c ∈ spaceCharacters) (hrest : Gap rest) :
      Gap (c :: rest)
  | comment {body rest : List Char} (hbody : body ≠ []) (hplain : ∀ c ∈ body, c ≠ '-' ∧ c ≠ '>')
      (hrest : Gap rest) : Gap ('<' :: '!' :: '-' :: '-' :: (body ++ '-' :: '-' :: '>' :: rest))

/-- A name made of letters. -/
structure IsName (name : List Char) : Prop where
  nonempty : name ≠ []
  letters : ∀ c ∈ name, c.isAlpha = true

/-- How attributes are written: each after a space, the value in quotes. -/
inductive AttributesWritten : List (String × String) → List Char → Prop where
  | nil : AttributesWritten [] []
  | cons {key value : String} {attributes : List (String × String)} {written rest : List Char}
      (hkey : IsName key.toList) (hvalue : Spelled value.toList written)
      (hrest : AttributesWritten attributes rest) :
      AttributesWritten ((key, value) :: attributes)
        (' ' :: (key.toList ++ '=' :: '"' :: (written ++ '"' :: rest)))

/-- What stands in a start tag: a name and attributes with different keys. -/
inductive TagContent : String → List (String × String) → List Char → Prop where
  | mk {name : String} {attributes : List (String × String)} {written : List Char}
      (hname : IsName name.toList) (hattributes : AttributesWritten attributes written)
      (hkeys : (attributes.map (·.1)).Nodup) : TagContent name attributes (name.toList ++ written)

/-- How trees are written one after the other, with gaps before, between and after them. A
tree without content may be written as one tag. -/
inductive Rendered : List Node → List Char → Prop where
  | gap {gap : List Char} (hgap : Gap gap) : Rendered [] gap
  | single {gap tag rest : List Char} {name : String} {attributes : List (String × String)}
      {nodes : List Node} (hgap : Gap gap) (htag : TagContent name attributes tag)
      (hrest : Rendered nodes rest) :
      Rendered (.mk name attributes "" [] :: nodes)
        (gap ++ '<' :: (tag ++ '/' :: '>' :: rest))
  | element {gap tag written inner rest : List Char} {name text : String}
      {attributes : List (String × String)} {children nodes : List Node} (hgap : Gap gap)
      (htag : TagContent name attributes tag) (htext : SpelledData text.toList written)
      (hchildren : Rendered children inner) (hrest : Rendered nodes rest) :
      Rendered (.mk name attributes text children :: nodes)
        (gap ++ '<' :: (tag ++ '>' :: (written ++ (inner
          ++ '<' :: '/' :: (name.toList ++ '>' :: rest)))))

/-! ### Every tree can be written -/

/-- All names of a tree are made of letters, and no element has two attributes of one key. -/
inductive WellNamed : Node → Prop where
  | mk {name text : String} {attributes : List (String × String)} {children : List Node}
      (hname : IsName name.toList) (hattributes : ∀ p ∈ attributes, IsName p.1.toList)
      (hkeys : (attributes.map (·.1)).Nodup) (hchildren : ∀ child ∈ children, WellNamed child) :
      WellNamed (.mk name attributes text children)

/-- A character can be written so that no space stands as it is. -/
theorem exists_written (c : Char) : ∃ written, Written c written ∧ ' ' ∉ written := by
  by_cases hnamed : c ∈ characterNames.map (·.1)
  · -- It has a name, and no name has a space in it.
    have hall : ∀ p ∈ characterNames, ' ' ∉ '&' :: (p.2.toList ++ [';']) := by decide
    obtain ⟨p, hp, rfl⟩ := List.mem_map.mp hnamed
    exact ⟨_, .named hp, hall p hp⟩
  · by_cases hspace : c ∈ spaceCharacters
    · -- White space has no names, only numbers.
      have hall : ∀ c ∈ spaceCharacters, ∃ numeral ∈ numerals c.toNat,
          ' ' ∉ '&' :: '#' :: (numeral ++ [';']) := by decide
      obtain ⟨numeral, hnumeral, hplain⟩ := hall c hspace
      exact ⟨_, .numbered hspace hnumeral, hplain⟩
    · have hmarked : ∀ c ∈ markedCharacters,
          c ∈ characterNames.map (·.1) ∨ c ∈ spaceCharacters := by decide
      refine ⟨[c], .plain fun hmem => ?_, fun hmem => ?_⟩
      · exact (hmarked c hmem).elim hnamed hspace
      · rw [← List.mem_singleton.mp hmem] at hspace
        exact hspace List.mem_cons_self

/-- A text can be written so that no space stands as it is. -/
theorem exists_spelled (text : List Char) : ∃ written, Spelled text written ∧ ' ' ∉ written := by
  induction text with
  | nil => exact ⟨[], .nil, List.not_mem_nil⟩
  | cons c text ih =>
      obtain ⟨first, hfirst, hplain⟩ := exists_written c
      obtain ⟨rest, hrest, hplain'⟩ := ih
      refine ⟨first ++ rest, .cons hfirst hrest, fun hmem => ?_⟩
      exact (List.mem_append.mp hmem).elim hplain hplain'

/-- Character data can be written. -/
theorem exists_spelledData (text : List Char) : ∃ written, SpelledData text written := by
  obtain ⟨written, hspelled, hplain⟩ := exists_spelled text
  refine ⟨written, hspelled, fun hfirst => ?_, fun hlast => ?_⟩
  · exact hplain (List.mem_of_head? hfirst)
  · exact hplain (List.mem_of_getLast? hlast)

/-- Attributes whose keys are names can be written. -/
theorem exists_attributesWritten {attributes : List (String × String)}
    (h : ∀ p ∈ attributes, IsName p.1.toList) :
    ∃ written, AttributesWritten attributes written := by
  induction attributes with
  | nil => exact ⟨[], .nil⟩
  | cons p attributes ih =>
      obtain ⟨rest, hrest⟩ := ih fun p' hp' => h p' (List.mem_cons_of_mem p hp')
      obtain ⟨written, hvalue, -⟩ := exists_spelled p.2.toList
      exact ⟨_, .cons (h p List.mem_cons_self) hvalue hrest⟩

/-- Trees that can be written one by one can be written one after the other. -/
theorem exists_rendered_all {nodes : List Node} (h : ∀ node ∈ nodes, ∃ doc, Rendered [node] doc) :
    ∃ doc, Rendered nodes doc := by
  induction nodes with
  | nil => exact ⟨[], .gap .nil⟩
  | cons node nodes ih =>
      obtain ⟨rest, hrest⟩ := ih fun node' hnode' => h node' (List.mem_cons_of_mem node hnode')
      obtain ⟨doc, hdoc⟩ := h node List.mem_cons_self
      cases hdoc with
      | single hgap htag _ => exact ⟨_, .single hgap htag hrest⟩
      | element hgap htag htext hchildren _ => exact ⟨_, .element hgap htag htext hchildren hrest⟩

/-- Every well-named tree can be written, by induction on the tree. -/
theorem exists_rendered {tree : Node} (h : WellNamed tree) : ∃ doc, Rendered [tree] doc := by
  induction h with
  | mk hname hattributes hkeys hchildren ih =>
      obtain ⟨attributes, hattributes⟩ := exists_attributesWritten hattributes
      obtain ⟨written, htext⟩ := exists_spelledData _
      obtain ⟨inner, hinner⟩ := exists_rendered_all ih
      exact ⟨_, .element .nil (.mk hname hattributes hkeys) htext hinner (.gap .nil)⟩

end AuditTables.Proofs.Xml
