import AuditTables.Event.Record

/-!
# `AuditTables.Proofs.Xml.Excerpt`: the part of a document that a fault quotes

A fault is shown with a part of its document, which begins half its length before the place of the
fault. Places and that distance are counted in octets, the length in characters, and a character
has up to four octets. What makes a good quotation of it is `Excerpt`: it is a piece of the
document, it is not too long, and the place is inside of it or at one of its ends.

`fragmentAt` takes characters from the front of the document while they fit. A program that works
on octets does otherwise: it goes back from the octet where the fragment should begin to where a
character begins, and cuts there. `walkedFragment` is that way of finding the fragment, and it has
two places to fail, as it could go back past the first octet, or cut inside of a character.
`walkedFragment_eq` says that it does neither, and finds the same fragment.

`excerpt_fragmentAt` is about every position, the end of the document and what is beyond it
included, and so about the position of every fault.
-/

set_option autoImplicit false

namespace AuditTables.Proofs.Xml

open AuditTables.Text AuditTables.Text.Utf8 AuditTables.Xml

/-! ### Cutting at octets -/

/-- The rest of a text from an octet on, if a character begins there or the text ends. -/
def cutAt : List Char → Nat → Option (List Char)
  | cs, 0 => some cs
  | [], _ + 1 => none
  | c :: cs, n + 1 => if c.utf8Size ≤ n + 1 then cutAt cs (n + 1 - c.utf8Size) else none

/-- The first octet at which a text can be cut, going back from an octet one by one. There is none
if that goes past the first octet. -/
def walkBack (cs : List Char) : Nat → Option Nat
  | 0 => if (cutAt cs 0).isSome then some 0 else none
  | n + 1 => if (cutAt cs (n + 1)).isSome then some (n + 1) else walkBack cs n

/-- The part of a document around an octet position, found octet by octet. -/
def walkedFragment (position : Nat) (document : List Char) : Option (List Char) :=
  (walkBack document (min position (byteLength document) - fragmentLength / 2)).bind fun start =>
    (cutAt document start).map fun rest => rest.take fragmentLength

theorem cutAt_zero (cs : List Char) : cutAt cs 0 = some cs := by
  cases cs <;> rfl

/-- Where a text can be cut, no character is cut. -/
theorem fromOctet_of_cutAt {n : Nat} {cs rest : List Char} (h : cutAt cs n = some rest) :
    fromOctet n cs = rest := by
  induction cs generalizing n with
  | nil =>
      cases n with
      | zero => exact Option.some.inj h
      | succ n => cases h
  | cons c cs ih =>
      cases n with
      | zero =>
          have hpos := c.utf8Size_pos
          rw [fromOctet, if_neg (by omega)]
          exact Option.some.inj h
      | succ n =>
          rw [cutAt] at h
          split at h
          · rename_i hfits
            rw [fromOctet, if_pos hfits]
            exact ih h
          · cases h

/-- Where a text cannot be cut, the octet before belongs to the same character, or is beyond the
end of the text as well. -/
theorem fromOctet_succ {n : Nat} {cs : List Char} (h : cutAt cs (n + 1) = none) :
    fromOctet (n + 1) cs = fromOctet n cs := by
  induction cs generalizing n with
  | nil => rw [fromOctet, fromOctet]
  | cons c cs ih =>
      have hpos := c.utf8Size_pos
      rw [cutAt] at h
      split at h
      · rename_i hfits
        -- The text can be cut behind the character, so the octet is further on.
        have hne : n + 1 - c.utf8Size ≠ 0 := by
          intro hzero
          rw [hzero, cutAt_zero] at h
          cases h
        have hsucc : n + 1 - c.utf8Size = n - c.utf8Size + 1 := by omega
        rw [hsucc] at h
        rw [fromOctet, fromOctet, if_pos hfits, if_pos (by omega), hsucc, ih h]
      · rename_i hbeyond
        rw [fromOctet, fromOctet, if_neg hbeyond, if_neg (by omega)]

/-- Going back from an octet ends where a character begins, and the text from there on is what
`fromOctet` gives. -/
theorem exists_walkBack (cs : List Char) (n : Nat) :
    ∃ start, walkBack cs n = some start ∧ cutAt cs start = some (fromOctet n cs) := by
  induction n with
  | zero =>
      have hcut := cutAt_zero cs
      refine ⟨0, ?_, ?_⟩
      · rw [walkBack, hcut]
        rfl
      · rw [hcut, fromOctet_of_cutAt hcut]
  | succ n ih =>
      cases hcut : cutAt cs (n + 1) with
      | some rest =>
          refine ⟨n + 1, ?_, ?_⟩
          · rw [walkBack, hcut]
            rfl
          · rw [hcut, fromOctet_of_cutAt hcut]
      | none =>
          obtain ⟨start, hwalk, hrest⟩ := ih
          refine ⟨start, ?_, ?_⟩
          · rw [walkBack, hcut]
            exact hwalk
          · rw [hrest, fromOctet_succ hcut]

/-- The fragment is found octet by octet, whatever the position is: going back from there never
passes the first octet, and no character is cut. -/
theorem walkedFragment_eq (position : Nat) (document : List Char) :
    walkedFragment position document = some (fragmentAt position document) := by
  obtain ⟨start, hwalk, hcut⟩ := exists_walkBack document
    (min position (byteLength document) - fragmentLength / 2)
  rw [walkedFragment, hwalk, Option.bind_some, hcut, Option.map_some, fragmentAt]

/-! ### Excerpts -/

/-- A piece of a document that shows what is at an octet position, or at the end of the document if
the position is beyond it. -/
structure Excerpt (document : List Char) (position : Nat) (fragment : List Char) : Prop where
  length_le : fragment.length ≤ 64
  nonempty : document ≠ [] → fragment ≠ []
  covers : ∃ before after, document = before ++ (fragment ++ after)
    ∧ byteLength before ≤ min position (byteLength document)
    ∧ min position (byteLength document) ≤ byteLength before + byteLength fragment

/-- What is before an octet are the characters that fit. What is left of the octets is a part of
one character. -/
theorem exists_before_fromOctet {n : Nat} {cs : List Char} (h : n ≤ byteLength cs) :
    ∃ before, cs = before ++ fromOctet n cs ∧ byteLength before ≤ n
      ∧ n < byteLength before + 4 := by
  induction cs generalizing n with
  | nil =>
      rw [byteLength_nil] at h
      exact ⟨[], rfl, Nat.zero_le n, by rw [byteLength_nil]; omega⟩
  | cons c cs ih =>
      have hfour := c.utf8Size_le_four
      rw [byteLength_cons] at h
      rw [fromOctet]
      split
      · rename_i hfits
        obtain ⟨before, hsplit, hle, hlt⟩ := ih (n := n - c.utf8Size) (by omega)
        refine ⟨c :: before, by rw [List.cons_append, ← hsplit], ?_, ?_⟩
        · rw [byteLength_cons]
          omega
        · rw [byteLength_cons]
          omega
      · exact ⟨[], rfl, Nat.zero_le n, by rw [byteLength_nil]; omega⟩

/-- The part of a document around a position is an excerpt of it. It begins 32 to 35 octets before
the position, or where the document begins, and 64 characters take 64 octets or more. -/
theorem excerpt_fragmentAt (position : Nat) (document : List Char) :
    Excerpt document position (fragmentAt position document) := by
  have hend : min position (byteLength document) ≤ byteLength document := Nat.min_le_right _ _
  show Excerpt document position
    ((fromOctet (min position (byteLength document) - 64 / 2) document).take 64)
  obtain ⟨before, hsplit, hbefore, hnear⟩ :=
    @exists_before_fromOctet (min position (byteLength document) - 64 / 2) document (by omega)
  generalize fromOctet (min position (byteLength document) - 64 / 2) document = rest at hsplit ⊢
  have hlength : byteLength document = byteLength before + byteLength rest := by
    rw [hsplit, byteLength_append]
  refine ⟨List.length_take_le 64 rest, ?_, before, rest.drop 64, ?_, by omega, ?_⟩
  · intro hdocument hempty
    have hrest : rest = [] := by
      cases rest with
      | nil => rfl
      | cons c cs => cases hempty
    -- Then all of the document would be before the fragment, which begins 32 octets before the end.
    have hpos : 0 < byteLength document :=
      Nat.lt_of_lt_of_le (List.length_pos_iff.mpr hdocument) (length_le_byteLength document)
    rw [hrest, byteLength_nil] at hlength
    omega
  · rw [List.take_append_drop]
    exact hsplit
  · by_cases hshort : rest.length ≤ 64
    · rw [List.take_of_length_le hshort]
      omega
    · have hfull : (rest.take 64).length = 64 := List.length_take_of_le (by omega)
      have htaken := length_le_byteLength (rest.take 64)
      omega

/-! ### Faults -/

/-- The octet position that a fault is shown at. -/
def octetOf (document : List Char) : Place → Nat
  | .octet position => position
  | .documentEnd => byteLength document

/-- The fragment of a fault is the one at its position. -/
theorem fragment_eq (fault : Fault) (document : List Char) :
    fault.fragment document = fragmentAt (octetOf document fault.place) document := by
  unfold Fault.fragment
  cases fault.place with
  | octet position => rfl
  | documentEnd => rfl

/-- Whatever the position is, the part of a record around it is found octet by octet and is an
excerpt of the record. So every record that is refused as markup is refused with an excerpt of it
that shows what is at the place of the fault. -/
theorem fragment_excerpt (record : String) :
    (∀ position, walkedFragment position record.toList
          = some (fragmentAt position record.toList)
        ∧ Excerpt record.toList position (fragmentAt position record.toList))
      ∧ ∀ failure, AuditEvent.readTree record = .error failure →
          ∃ fault fragment, readDocument record.toList = .error fault
            ∧ failure = .parse fault.cause.message fragment
            ∧ Excerpt record.toList (octetOf record.toList fault.place) fragment.toList := by
  refine ⟨fun position => ⟨walkedFragment_eq position _, excerpt_fragmentAt position _⟩, ?_⟩
  intro failure hread
  unfold AuditEvent.readTree at hread
  split at hread
  · cases hread
  · rename_i fault hfault
    cases hread
    refine ⟨fault, _, hfault, rfl, ?_⟩
    rw [String.toList_ofList, fragment_eq]
    exact excerpt_fragmentAt _ _

/-- The fault of a document that is refused. -/
def fault? (document : List Char) : Option Fault :=
  match readDocument document with
  | .error fault => some fault
  | .ok _ => none

theorem fault?_eq_some_iff {document : List Char} {fault : Fault} :
    fault? document = some fault ↔ readDocument document = .error fault := by
  rw [fault?]
  cases readDocument document <;> simp

/-- A record with a wrong end tag. The fault is at octet 37, and 32 octets before that is inside of
the first of eight characters that take four octets each. -/
def wrongEnd : String := "<a>😀😀😀😀😀😀😀😀</b>"

/-- The fragment begins with the character that would have been cut. -/
theorem fragment_excerpt_wrongEnd :
    AuditEvent.readTree wrongEnd
        = .error (.parse "Expecting </a> found </b>" "😀😀😀😀😀😀😀😀</b>")
      ∧ Excerpt wrongEnd.toList 37 "😀😀😀😀😀😀😀😀</b>".toList := by
  have hdocument : readDocument wrongEnd.toList = .error ⟨.wrongEnd "a" "b", .octet 37⟩ :=
    fault?_eq_some_iff.mp (by decide +kernel)
  have hread : AuditEvent.readTree wrongEnd
      = .error (.parse "Expecting </a> found </b>" "😀😀😀😀😀😀😀😀</b>") := by
    rw [AuditEvent.readTree, hdocument]
    have hfragment : (Fault.mk (.wrongEnd "a" "b") (.octet 37)).fragment wrongEnd.toList
        = "😀😀😀😀😀😀😀😀</b>".toList := by decide +kernel
    simp only [hfragment, String.ofList_toList]
    rfl
  obtain ⟨fault, fragment, hfault, hfailure, hexcerpt⟩ := (fragment_excerpt wrongEnd).2 _ hread
  cases hdocument.symm.trans hfault
  cases hfailure
  exact ⟨hread, hexcerpt⟩

end AuditTables.Proofs.Xml
