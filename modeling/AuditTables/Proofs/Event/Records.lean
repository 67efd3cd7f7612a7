import AuditTables.Proofs.Event.Marks

/-!
# `AuditTables.Proofs.Event.Records`: the splitter finds the records

What is a record can be said without a splitter. It begins with an open tag, and the only closing
mark in it is its end (`WholeRecord`). `split_finds_records` says that the splitter finds these,
whatever octets it is given: each span that it finds is a record, and no record is in the octets
that it leaves out.

All octets are parts, each a gap and a record, and a remainder (`exists_parts`). A gap has no open
tag. The remainder has none either, or it ends in a record that is not closed. The splitter is in
the same mode behind each part, so it finds the records of the parts (`feed_parts`), and nothing in
the remainder (`feed_remainder`). `split_of_parts` puts the two together. In the remainder it stops
at the end, or at a bracket that a tag may still grow from. No tag begins before that place, since
an open tag has no bracket but its first (`not_startsTag`).

In a text the places that it cuts at are in front of a bracket, behind one, or at the end. The
octet of a bracket is a character by itself, so no character is cut (`exists_inside`).
-/

set_option autoImplicit false

namespace AuditTables.Proofs.Event

open AuditTables.Event AuditTables.Text
open AuditTables.Proofs.Text

/-! ### Records -/

/-- Octets that are one record: an open tag, and all up to the first closing mark after it. -/
def IsRecord (record : List UInt8) : Prop :=
  ∃ b body, endsName b = true ∧ ¬ closeMark <:+: body ∧
    record = openMark ++ [b] ++ (body ++ closeMark)

/-- A record is one span for a splitter that was between records, and is so again. -/
theorem feed_record {record : List UInt8} (h : IsRecord record) (offset matched : Nat)
    (found : List Span) (dangling : Option Nat) :
    Splitter.feed ⟨offset, found, .between matched dangling⟩ record
      = ⟨offset + record.length, ⟨offset, offset + record.length⟩ :: found, .between 0 none⟩ := by
  obtain ⟨b, body, hb, hbody, rfl⟩ := h
  have hnone : closeMark.take 0 <:+ [] := List.nil_suffix
  obtain ⟨matched', hinside⟩ := feed_inside (offset + 7) offset found hnone hbody
  have hlength : offset + 7 + body.length + 8
      = offset + (openMark ++ [b] ++ (body ++ closeMark)).length := by
    simp [openMark, closeMark]
    omega
  rw [Splitter.feed_append, feed_open offset found dangling hb, Splitter.feed_append, hinside,
    feed_close, hlength]

/-- An open tag begins these octets. -/
def Opens (bytes : List UInt8) : Prop := ∃ b, endsName b = true ∧ openMark ++ [b] <+: bytes

/-- These octets are a record. They begin with an open tag, they end with a closing mark, and
there is no other closing mark in them. -/
structure WholeRecord (record : List UInt8) : Prop where
  opens : Opens record
  closes : closeMark <:+ record
  once : ∀ before after, record = before ++ closeMark ++ after → after = []

/-- A record is an open tag and all up to the first closing mark. -/
theorem wholeRecord_iff (record : List UInt8) : WholeRecord record ↔ IsRecord record := by
  constructor
  · intro h
    obtain ⟨b, hb, rest, rfl⟩ := h.opens
    have hne : closeMark ≠ [] := by decide
    have hcloses : closeMark <:+: rest := infix_of_openTag hb h.closes.isInfix
    obtain ⟨body, after, rfl, hfirst⟩ := exists_first hne hcloses
    have hlast : after = [] := h.once (openMark ++ [b] ++ body) after (by simp)
    exact ⟨b, body, hb, hfirst, by rw [hlast, List.append_nil]⟩
  · rintro ⟨b, body, hb, hfirst, rfl⟩
    refine ⟨⟨b, hb, List.prefix_append _ _⟩, ?_, fun before after heq => ?_⟩
    · exact (List.suffix_append _ _).trans (List.suffix_append _ _)
    · -- A closing mark with octets behind it would not need the last octet of the record.
      rcases List.eq_nil_or_concat' after with rfl | ⟨after, last, rfl⟩
      · rfl
      have hmark : closeMark = closeMark.dropLast ++ [closeBracket] := by decide
      have hall : openMark ++ [b] ++ body ++ closeMark.dropLast ++ [closeBracket]
          = before ++ closeMark ++ after ++ [last] := by
        rw [List.append_assoc, ← hmark, List.append_assoc, heq, List.append_assoc _ after]
      have hinfix : closeMark <:+: openMark ++ [b] ++ (body ++ closeMark.dropLast) := by
        rw [← List.append_assoc, (List.append_inj' hall rfl).1, List.append_assoc]
        exact ⟨before, after, by simp⟩
      rcases infix_of_bracket bracket_not_mem_closeMark (infix_of_openTag hb hinfix)
        with hbody | hshort
      · exact absurd hbody hfirst
      · exact absurd hshort.length_le (by decide)

/-! ### Parts of a stream -/

/-- A record and the octets between it and the one before. -/
structure Part where
  gap : List UInt8
  record : List UInt8

/-- The octets of parts that follow one another. -/
def octets (parts : List Part) : List UInt8 := parts.flatMap fun p => p.gap ++ p.record

/-- Where the records of parts are, if the parts begin at an offset. -/
def spansOf (offset : Nat) : List Part → List Span
  | [] => []
  | p :: parts =>
    ⟨offset + p.gap.length, offset + p.gap.length + p.record.length⟩
      :: spansOf (offset + p.gap.length + p.record.length) parts

/-- No record is in these octets. -/
def NoRecord (bytes : List UInt8) : Prop := ∀ record, WholeRecord record → ¬ record <:+: bytes

@[simp]
theorem octets_nil : octets [] = [] := rfl

theorem octets_cons (p : Part) (parts : List Part) :
    octets (p :: parts) = p.gap ++ p.record ++ octets parts := List.flatMap_cons

/-- A record has an open tag in front, so there is none where there is no open tag. -/
theorem NoOpening.noRecord {bytes : List UInt8} (h : NoOpening bytes) : NoRecord bytes := by
  intro record hrecord hinfix
  obtain ⟨b, hb, hopens⟩ := hrecord.opens
  exact h b hb (hopens.isInfix.trans hinfix)

/-- The splitter finds the records of parts, by induction on them, and is between records
behind each. -/
theorem feed_parts {parts : List Part} (hparts : ∀ p ∈ parts, NoOpening p.gap ∧ IsRecord p.record)
    (offset : Nat) (found : List Span) :
    Splitter.feed ⟨offset, found, .between 0 none⟩ (octets parts)
      = ⟨offset + (octets parts).length, (spansOf offset parts).reverse ++ found,
          .between 0 none⟩ := by
  induction parts generalizing offset found with
  | nil => rfl
  | cons p parts ih =>
      obtain ⟨hgap, hrecord⟩ := hparts p List.mem_cons_self
      have hnone : openMark.take 0 <:+ [] := List.nil_suffix
      obtain ⟨matched, dangling, hbetween, -⟩ := feed_between offset found none hnone hgap
      have hrest := ih (fun q hq => hparts q (List.mem_cons_of_mem p hq))
        (offset + p.gap.length + p.record.length)
        (⟨offset + p.gap.length, offset + p.gap.length + p.record.length⟩ :: found)
      rw [octets_cons, Splitter.feed_append, Splitter.feed_append, hbetween, feed_record hrecord,
        hrest]
      simp [spansOf, Nat.add_assoc]

/-! ### Behind the last record -/

/-- An open tag begins these octets, or they end before it does. -/
def StartsTag (bytes : List UInt8) : Prop :=
  ∃ b, endsName b = true ∧ (openMark ++ [b] <+: bytes ∨ bytes <+: openMark ++ [b])

/-- What may be behind the records: octets with no open tag, or a record that is not closed. -/
inductive Remainder : List UInt8 → Prop where
  | closed {bytes : List UInt8} (hgap : NoOpening bytes) : Remainder bytes
  | unfinished {gap rest : List UInt8} {b : UInt8} (hgap : NoOpening gap)
      (hb : endsName b = true) (hrest : ¬ closeMark <:+: rest) :
      Remainder (gap ++ (openMark ++ [b] ++ rest))

/-- All octets are parts and a remainder. The record of a part is an open tag and all up to the
first closing mark behind it, by induction on the number of octets. -/
theorem exists_parts (bytes : List UInt8) :
    ∃ parts last, bytes = octets parts ++ last ∧
      (∀ p ∈ parts, NoOpening p.gap ∧ IsRecord p.record) ∧ Remainder last := by
  induction hlength : bytes.length using Nat.strongRecOn generalizing bytes with
  | _ length ih =>
  by_cases hopening : NoOpening bytes
  · exact ⟨[], bytes, rfl, List.forall_mem_nil _, .closed hopening⟩
  have htag : ∃ tag, (∃ b, endsName b = true ∧ tag = openMark ++ [b]) ∧ tag <:+: bytes := by
    simp only [NoOpening, not_forall, not_not] at hopening
    obtain ⟨b, hb, hinfix⟩ := hopening
    exact ⟨_, ⟨b, hb, rfl⟩, hinfix⟩
  have hne : ¬ ∃ b, endsName b = true ∧ [] = openMark ++ [b] := by
    rintro ⟨b, -, hnil⟩
    exact List.cons_ne_nil _ _ hnil.symm
  obtain ⟨gap, _, rest, ⟨b, hb, rfl⟩, rfl, hfirst⟩ := exists_first_of _ hne htag
  have hgap : NoOpening gap := fun b hb => hfirst _ ⟨b, hb, rfl⟩
  by_cases hclose : closeMark <:+: rest
  · -- The first open tag and all up to the first closing mark behind it are the first part.
    have hmark : closeMark ≠ [] := by decide
    obtain ⟨body, after, rfl, hbody⟩ := exists_first hmark hclose
    have hshorter : after.length < length := by
      simp [← hlength, openMark]
      omega
    obtain ⟨parts, last, rfl, hparts, hlast⟩ := ih _ hshorter after rfl
    refine ⟨⟨gap, openMark ++ [b] ++ (body ++ closeMark)⟩ :: parts, last, ?_,
      List.forall_mem_cons.mpr ⟨⟨hgap, b, body, hb, hbody, rfl⟩, hparts⟩, hlast⟩
    simp [octets_cons]
  · refine ⟨[], gap ++ (openMark ++ [b] ++ rest), ?_, List.forall_mem_nil _,
      .unfinished hgap hb hclose⟩
    rw [List.append_assoc gap]
    rfl

/-- A tag that begins before a bracket ends before it, as it has no bracket but its first. -/
theorem not_startsTag {x : List UInt8} (hne : x ≠ []) (h : NoOpening x) (y : List UInt8) :
    ¬ StartsTag (x ++ openBracket :: y) := by
  rintro ⟨b, hb, hwhole | hcut⟩
  · exact h b hb (prefix_of_bracket (bracket_not_mem_openTag hb) hne hwhole).isInfix
  · obtain ⟨a, x, rfl⟩ := List.exists_cons_of_ne_nil hne
    obtain ⟨-, hrest⟩ := List.cons_prefix_cons.mp hcut
    exact bracket_not_mem_openTag hb
      (hrest.subset (List.mem_append_right x List.mem_cons_self))

/-- A tag does not begin at a bracket that is closed, unless it is all there. -/
theorem not_startsTag_closed {y : List UInt8} (h : NoOpening (openBracket :: y))
    (hclosed : closeBracket ∈ y) : ¬ StartsTag (openBracket :: y) := by
  rintro ⟨b, hb, hwhole | hcut⟩
  · exact h b hb hwhole.isInfix
  · -- A closing bracket is in a tag at its end only.
    have hmark : closeBracket ∉ openMark := by decide
    rcases List.prefix_concat_iff.mp hcut with hall | hbegins
    · exact h b hb (hall ▸ List.infix_rfl)
    · exact hmark (hbegins.subset (List.mem_cons_of_mem _ hclosed))

/-- Where the splitter may stop in the octets behind the records. It stops at their end or in
front of a bracket, and no open tag begins before that. -/
structure HoldsBack (last : List UInt8) (place : Nat) : Prop where
  le : place ≤ last.length
  bracket : ∀ b ∈ (last.drop place).head?, b = openBracket
  before : ∀ i < place, ¬ StartsTag (last.drop i)

/-- It may stop in front of a bracket if no open tag is before that. -/
theorem holdsBack_bracket {x : List UInt8} (h : NoOpening x) (y : List UInt8) :
    HoldsBack (x ++ openBracket :: y) x.length := by
  refine ⟨by simp, by simp, fun i hi => ?_⟩
  rw [List.drop_append_of_le_length (Nat.le_of_lt hi)]
  have hne : x.drop i ≠ [] := by
    intro hnil
    have hle := List.drop_eq_nil_iff.mp hnil
    omega
  exact not_startsTag hne (h.part (List.drop_suffix i x).isInfix) y

/-- It may stop at the end if no open tag is before that and every bracket is closed. -/
theorem holdsBack_end {last : List UInt8} (h : NoOpening last)
    (hclosed : ∀ before after, last = before ++ openBracket :: after → closeBracket ∈ after) :
    HoldsBack last last.length := by
  refine ⟨Nat.le_refl _, by simp, fun i hi => ?_⟩
  have hinfix : last.drop i <:+: last := (List.drop_suffix i last).isInfix
  obtain ⟨a, rest, hrest⟩ :=
    List.exists_cons_of_ne_nil (List.ne_nil_of_length_pos (List.length_drop ▸ Nat.sub_pos_of_lt hi))
  by_cases ha : a = openBracket
  · rw [ha] at hrest
    have hsplit : last = last.take i ++ openBracket :: rest := by
      rw [← hrest, List.take_append_drop]
    rw [hrest] at hinfix ⊢
    exact not_startsTag_closed (h.part hinfix) (hclosed _ _ hsplit)
  · -- Both a tag and the beginning of one have a bracket in front.
    rw [hrest]
    rintro ⟨b, -, hwhole | hcut⟩
    · exact ha (List.cons_prefix_cons.mp hwhole).1.symm
    · exact ha (List.cons_prefix_cons.mp hcut).1

/-- The splitter finds no record in a remainder, and stops where it may. -/
theorem feed_remainder {last : List UInt8} (h : Remainder last) (offset : Nat)
    (found : List Span) :
    (Splitter.feed ⟨offset, found, .between 0 none⟩ last).found = found ∧
      ∃ place, (Splitter.feed ⟨offset, found, .between 0 none⟩ last).consumed = offset + place ∧
        HoldsBack last place := by
  have hnone : openMark.take 0 <:+ [] := List.nil_suffix
  cases h with
  | closed hgap =>
      obtain ⟨matched, dangling, hbetween, hheld⟩ := feed_between offset found none hnone hgap
      -- Nothing was read when the remainder began, so no bracket was held back.
      have hdangling : Dangling offset last dangling := by
        refine hheld offset rfl fun before after hnil => ?_
        exact absurd hnil.symm (List.append_ne_nil_of_right_ne_nil _ (List.cons_ne_nil _ _))
      rw [hbetween]
      refine ⟨rfl, ?_⟩
      cases dangling with
      | none => exact ⟨last.length, rfl, holdsBack_end hgap hdangling⟩
      | some place =>
          obtain ⟨before, after, rfl, rfl⟩ := hdangling
          exact ⟨before.length, rfl,
            holdsBack_bracket (hgap.part (List.prefix_append _ _).isInfix) after⟩
  | @unfinished gap rest b hgap hb hrest =>
      obtain ⟨matched, dangling, hbetween, -⟩ := feed_between offset found none hnone hgap
      have hinside : closeMark.take 0 <:+ [] := List.nil_suffix
      obtain ⟨matched', hstays⟩ :=
        feed_inside (offset + gap.length + 7) (offset + gap.length) found hinside hrest
      rw [Splitter.feed_append, hbetween, Splitter.feed_append, feed_open _ _ _ hb, hstays]
      exact ⟨rfl, gap.length, rfl, holdsBack_bracket hgap _⟩

/-- There is no record in a remainder. -/
theorem Remainder.noRecord {last : List UInt8} (h : Remainder last) : NoRecord last := by
  cases h with
  | closed hgap => exact hgap.noRecord
  | @unfinished gap rest b hgap hb hrest =>
      rintro record hrecord ⟨before, after, hall⟩
      have hclosed : ¬ closeMark <:+: openMark ++ [b] ++ rest := fun hinfix =>
        hrest (infix_of_openTag hb hinfix)
      have hcloses : closeMark <:+: record := hrecord.closes.isInfix
      rw [List.append_assoc] at hall
      rcases List.append_eq_append_iff.mp hall.symm with ⟨z, -, htag⟩ | ⟨z, hgapsplit, hbegins⟩
      · -- The record begins at the tag or behind it, so its closing mark is behind the tag.
        exact hclosed (htag ▸ hcloses.trans (List.infix_append' z record after))
      · -- Or it begins in the gap, where no open tag does.
        by_cases hz : z = []
        · rw [hz, List.nil_append] at hbegins
          exact hclosed (hbegins ▸ hcloses.trans (List.prefix_append record after).isInfix)
        · obtain ⟨b', hb', hopens⟩ := hrecord.opens
          have hz' : NoOpening z := hgap.part (hgapsplit ▸ List.suffix_append _ _).isInfix
          have hstarts : StartsTag (z ++ (openMark ++ [b] ++ rest)) :=
            ⟨b', hb', Or.inl (hbegins ▸ hopens.trans (List.prefix_append record after))⟩
          exact not_startsTag hz hz' (openMark.tail ++ [b] ++ rest) hstarts

/-! ### Spans -/

theorem octets_append (front back : List Part) :
    octets (front ++ back) = octets front ++ octets back := List.flatMap_append

theorem spansOf_append (offset : Nat) (front back : List Part) :
    spansOf offset (front ++ back)
      = spansOf offset front ++ spansOf (offset + (octets front).length) back := by
  induction front generalizing offset with
  | nil => rfl
  | cons p front ih => simp [spansOf, ih, octets_cons, Nat.add_assoc]

/-- A span is of one part. It begins behind the parts before and the gap. -/
theorem exists_part_of_mem {offset : Nat} {parts : List Part} {s : Span}
    (h : s ∈ spansOf offset parts) :
    ∃ front p back, parts = front ++ p :: back ∧
      s = ⟨offset + (octets front ++ p.gap).length,
        offset + (octets front ++ p.gap ++ p.record).length⟩ := by
  induction parts generalizing offset with
  | nil => exact absurd h List.not_mem_nil
  | cons p parts ih =>
      rcases List.mem_cons.mp h with rfl | hlater
      · exact ⟨[], p, parts, rfl, by simp [Nat.add_assoc]⟩
      · obtain ⟨front, q, back, rfl, rfl⟩ := ih hlater
        exact ⟨p :: front, q, back, rfl, by simp [octets_cons, Nat.add_assoc]⟩

/-- The slice between two parts of the octets is what stands between them. -/
theorem slice_between (before record after : List UInt8) :
    (Span.mk before.length (before ++ record).length).slice (before ++ record ++ after)
      = record := by
  rw [Span.slice, List.length_append, Nat.add_sub_cancel_left, List.append_assoc, List.drop_left,
    List.take_left]

/-- The octets of a span are the record of its part. -/
theorem exists_octets_of_mem {parts : List Part} {s : Span} (h : s ∈ spansOf 0 parts)
    (last : List UInt8) :
    ∃ p ∈ parts, ∃ before after, octets parts ++ last = before ++ p.record ++ after ∧
      s = ⟨before.length, (before ++ p.record).length⟩ ∧
      (before ++ p.record).length ≤ (octets parts).length ∧
      s.slice (octets parts ++ last) = p.record := by
  obtain ⟨front, p, back, rfl, rfl⟩ := exists_part_of_mem h
  have hall : octets (front ++ p :: back) ++ last
      = octets front ++ p.gap ++ p.record ++ (octets back ++ last) := by
    simp [octets_append, octets_cons]
  rw [Nat.zero_add, Nat.zero_add, hall]
  refine ⟨p, by simp, octets front ++ p.gap, octets back ++ last, rfl, rfl, ?_,
    slice_between _ _ _⟩
  simp [octets_append, octets_cons]

/-- The slices of the spans of parts are their records, by induction on the parts. The octets
before are those of the parts before. -/
theorem slices_spansOf (before : List UInt8) (parts : List Part) (last : List UInt8) :
    (spansOf before.length parts).map (·.slice (before ++ (octets parts ++ last)))
      = parts.map (·.record) := by
  induction parts generalizing before with
  | nil => rfl
  | cons p parts ih =>
      have hall : before ++ (octets (p :: parts) ++ last)
          = before ++ p.gap ++ p.record ++ (octets parts ++ last) := by
        simp [octets_cons]
      rw [hall, spansOf, ← List.length_append, ← List.length_append, List.map_cons, slice_between,
        ih, List.map_cons]

/-- The spans of parts are in the order of the parts, and apart. -/
theorem pairwise_spansOf (offset : Nat) (parts : List Part) :
    (spansOf offset parts).Pairwise fun s t => s.stop ≤ t.start := by
  induction parts generalizing offset with
  | nil => exact .nil
  | cons p parts ih =>
      refine .cons (fun t ht => ?_) (ih _)
      obtain ⟨front, q, -, -, rfl⟩ := exists_part_of_mem ht
      exact Nat.le_add_right _ _

/-- The octets of parts end where the last span does. -/
theorem length_octets_le {parts : List Part} {place : Nat}
    (h : ∀ s ∈ spansOf 0 parts, s.stop ≤ place) : (octets parts).length ≤ place := by
  rcases List.eq_nil_or_concat' parts with rfl | ⟨front, p, rfl⟩
  · exact Nat.zero_le place
  · have hlast := h _ (by rw [spansOf_append]; exact List.mem_append_right _ List.mem_cons_self)
    simpa [octets_append, octets_cons, Nat.add_assoc] using hlast

/-! ### All streams and texts -/

/-- What is found in octets: spans, and how many octets need not be looked at again. The spans are
those of parts, and no record is in a gap or in what is behind. No open tag is in a gap, and none
begins behind the last span before what is to be looked at again. -/
structure Finds (bytes : List UInt8) (found : List Span) (consumed : Nat) : Prop where
  ordered : found.Pairwise fun s t => s.stop ≤ t.start
  records : ∀ s ∈ found, s.start < s.stop ∧ s.stop ≤ consumed ∧ WholeRecord (s.slice bytes)
  gaps : ∃ parts last, bytes = octets parts ++ last ∧ found = spansOf 0 parts ∧
    (∀ p ∈ parts, NoOpening p.gap ∧ NoRecord p.gap) ∧ NoRecord last
  within : consumed ≤ bytes.length
  tags : ∀ place < consumed, (∀ s ∈ found, s.stop ≤ place) → ¬ StartsTag (bytes.drop place)

/-- What the splitter finds is the spans of parts, and where it stops behind them. -/
theorem split_of_parts {parts : List Part} {last : List UInt8}
    (hparts : ∀ p ∈ parts, NoOpening p.gap ∧ IsRecord p.record) (hlast : Remainder last) :
    ∃ place, split (octets parts ++ last) = (spansOf 0 parts, (octets parts).length + place) ∧
      HoldsBack last place := by
  have hfeed := feed_parts hparts 0 []
  rw [Nat.zero_add, List.append_nil] at hfeed
  obtain ⟨hfound, place, hconsumed, hplace⟩ :=
    feed_remainder hlast (octets parts).length (spansOf 0 parts).reverse
  refine ⟨place, ?_, hplace⟩
  rw [split, Splitter.feed_append, Splitter.start, hfeed]
  exact Prod.ext (by rw [hfound, List.reverse_reverse]) hconsumed

/-- The texts that the splitter finds are those of the records. -/
theorem splitTexts_parts {parts : List Part} {last : List UInt8}
    (hparts : ∀ p ∈ parts, NoOpening p.gap ∧ IsRecord p.record) (hlast : Remainder last) :
    (splitTexts (octets parts ++ last)).1 = (parts.map (·.record)).map Utf8.decode := by
  obtain ⟨place, hsplit, -⟩ := split_of_parts hparts hlast
  have hslices := slices_spansOf [] parts last
  rw [List.nil_append, List.length_nil] at hslices
  rw [splitTexts_eq, hsplit, hslices]

/-- Octets without a record are all remainder, and no others are. -/
theorem noRecord_iff (bytes : List UInt8) : NoRecord bytes ↔ Remainder bytes := by
  refine ⟨fun h => ?_, Remainder.noRecord⟩
  obtain ⟨parts, last, rfl, hparts, hlast⟩ := exists_parts bytes
  cases parts with
  | nil => exact hlast
  | cons p parts =>
      have hrecord : WholeRecord p.record :=
        (wholeRecord_iff _).mpr (hparts p List.mem_cons_self).2
      have hinfix : p.record <:+: octets (p :: parts) ++ last :=
        ⟨p.gap, octets parts ++ last, by simp [octets_cons]⟩
      exact absurd hinfix (h _ hrecord)

/-- The splitter finds no text exactly where there is no record. -/
theorem splitTexts_eq_nil_iff (bytes : List UInt8) :
    (splitTexts bytes).1 = [] ↔ NoRecord bytes := by
  rw [noRecord_iff]
  constructor
  · intro hnone
    obtain ⟨parts, last, rfl, hparts, hlast⟩ := exists_parts bytes
    rw [splitTexts_parts hparts hlast, List.map_eq_nil_iff, List.map_eq_nil_iff] at hnone
    rwa [hnone, octets_nil, List.nil_append]
  · intro hlast
    have hnone := splitTexts_parts (List.forall_mem_nil _) hlast
    rwa [octets_nil, List.nil_append] at hnone

theorem IsRecord.length_pos {record : List UInt8} (h : IsRecord record) : 0 < record.length := by
  obtain ⟨b, body, -, -, rfl⟩ := h
  exact Nat.zero_lt_succ _

/-- The splitter finds the records of any octets. -/
theorem finds_split (bytes : List UInt8) : Finds bytes (split bytes).1 (split bytes).2 := by
  obtain ⟨parts, last, rfl, hparts, hlast⟩ := exists_parts bytes
  obtain ⟨place, hsplit, hplace⟩ := split_of_parts hparts hlast
  rw [hsplit]
  refine ⟨pairwise_spansOf 0 parts, fun s hs => ?_, ⟨parts, last, rfl, rfl, fun p hp => ?_,
    hlast.noRecord⟩, ?_, fun i hi hbehind hstarts => ?_⟩
  · obtain ⟨p, hp, before, after, -, rfl, hle, hslice⟩ := exists_octets_of_mem hs last
    have hrecord := (hparts p hp).2
    have hlength := hrecord.length_pos
    refine ⟨by simp [hlength], Nat.le_add_right_of_le hle, ?_⟩
    rw [hslice]
    exact (wholeRecord_iff _).mpr hrecord
  · exact ⟨(hparts p hp).1, (hparts p hp).1.noRecord⟩
  · rw [List.length_append]
    exact Nat.add_le_add_left hplace.le _
  · -- A place behind all spans is one in the remainder.
    have hle := length_octets_le hbehind
    rw [List.drop_append, List.drop_eq_nil_of_le hle, List.nil_append] at hstarts
    have hbefore : i - (octets parts).length < place := by
      have hi' : i < (octets parts).length + place := hi
      omega
    exact hplace.before _ hbefore hstarts

/-- A place in the octets of a text that is between two characters. -/
def BetweenCharacters (text : List Char) (place : Nat) : Prop :=
  ∃ before after, text = before ++ after ∧ place = (Utf8.encodeChars before).length

/-- The part of a text that has the octets of a record is text. A record begins and ends with an
octet of ASCII. -/
theorem exists_inside {text : List Char} {before record after : List UInt8}
    (hrecord : IsRecord record) (h : Utf8.encodeChars text = before ++ record ++ after) :
    ∃ x inside y, text = x ++ inside ++ y ∧ Utf8.encodeChars x = before ∧
      Utf8.encodeChars inside = record := by
  obtain ⟨b, body, hb, -, rfl⟩ := hrecord
  have hmark : closeMark = closeMark.dropLast ++ [closeBracket] := by decide
  rw [List.append_assoc before] at h
  obtain ⟨x, rest, rfl, hx, hrest⟩ := exists_cut_before h fun c hc => by
    obtain rfl : openBracket = c := Option.some.inj hc
    decide
  have hbehind : Utf8.encodeChars rest
      = (openMark ++ [b] ++ body ++ closeMark.dropLast) ++ [closeBracket] ++ after := by
    rw [hrest, hmark]
    simp
  obtain ⟨inside, y, rfl, hinside, -⟩ := exists_cut_behind hbehind (by decide)
  refine ⟨x, inside, y, by simp, hx, ?_⟩
  rw [hinside, hmark]
  simp

/-- In a text, the splitter finds texts, and it stops between characters. -/
theorem texts_split (text : List Char) :
    (∀ s ∈ (split (Utf8.encodeChars text)).1, ∃ before inside after,
      text = before ++ inside ++ after ∧
      s = ⟨(Utf8.encodeChars before).length, (Utf8.encodeChars (before ++ inside)).length⟩ ∧
      Utf8.decode (s.slice (Utf8.encodeChars text)) = String.ofList inside) ∧
    BetweenCharacters text (split (Utf8.encodeChars text)).2 := by
  obtain ⟨parts, last, hall, hparts, hlast⟩ := exists_parts (Utf8.encodeChars text)
  obtain ⟨place, hsplit, hplace⟩ := split_of_parts hparts hlast
  rw [hall, hsplit]
  refine ⟨fun s hs => ?_, ?_⟩
  · obtain ⟨p, hp, before, after, hocts, rfl, -, hslice⟩ := exists_octets_of_mem hs last
    obtain ⟨x, inside, y, rfl, hx, hinside⟩ :=
      exists_inside (hparts p hp).2 (hall.trans hocts)
    refine ⟨x, inside, y, rfl, ?_, ?_⟩
    · rw [encodeChars_append, hx, hinside]
    · rw [hslice, ← hinside, decode_encodeChars]
  · -- It stops at the end or in front of a bracket, which is of ASCII.
    have hcut : Utf8.encodeChars text = (octets parts ++ last.take place) ++ last.drop place := by
      rw [hall, List.append_assoc, List.take_append_drop]
    obtain ⟨before, after, rfl, hbefore, -⟩ := exists_cut_before hcut fun b hb => by
      rw [hplace.bracket b hb]
      decide
    refine ⟨before, after, rfl, ?_⟩
    rw [hbefore, List.length_append, List.length_take_of_le hplace.le]

/-- The splitter finds exactly the records. In any octets it finds spans in order, each with the
octets of a record, and neither the gaps nor what is behind hold another. Gaps hold no open tag,
and none that begins behind the last record is consumed, not even in part. Conversely, the
records that stand between octets without an open tag are what is found. In a text, all places
that it cuts at are between characters, so each record is the text that was there. -/
theorem split_finds_records :
    (∀ bytes, Finds bytes (split bytes).1 (split bytes).2) ∧
    (∀ parts last, (∀ p ∈ parts, NoOpening p.gap ∧ WholeRecord p.record) → NoOpening last →
      (split (octets parts ++ last)).1 = spansOf 0 parts) ∧
    ∀ text : String, (∀ s ∈ (split (Utf8.encode text)).1, ∃ before inside after,
        text.toList = before ++ inside ++ after ∧
        s = ⟨(Utf8.encodeChars before).length, (Utf8.encodeChars (before ++ inside)).length⟩ ∧
        Utf8.decode (s.slice (Utf8.encode text)) = String.ofList inside) ∧
      BetweenCharacters text.toList (split (Utf8.encode text)).2 := by
  refine ⟨finds_split, fun parts last hparts hlast => ?_, fun text => texts_split text.toList⟩
  have hrecords : ∀ p ∈ parts, NoOpening p.gap ∧ IsRecord p.record := fun p hp =>
    (hparts p hp).imp_right (wholeRecord_iff p.record).mp
  obtain ⟨place, hsplit, -⟩ := split_of_parts hrecords (.closed hlast)
  rw [hsplit]

/-- The tag of a wrapping element, a record with an open tag in it, and a closing mark of none. -/
theorem split_finds_records_wrapped :
    (split (openMark ++ [0x73, closeBracket]
      ++ (openMark ++ [0x09] ++ (openMark ++ [closeBracket] ++ closeMark)) ++ closeMark)).1
        = [⟨8, 30⟩] := by
  have hgap : NoOpening (openMark ++ [0x73, closeBracket]) := by
    simp only [noOpening_iff, List.forall_mem_cons]
    exact ⟨by decide, by decide, by decide, by decide, by decide, List.forall_mem_nil _⟩
  have hlast : NoOpening closeMark := by
    simp only [noOpening_iff, List.forall_mem_cons]
    exact ⟨by decide, by decide, by decide, by decide, by decide, List.forall_mem_nil _⟩
  have hbody : ¬ closeMark <:+: openMark ++ [closeBracket] := by decide
  have hrecord : WholeRecord (openMark ++ [0x09] ++ (openMark ++ [closeBracket] ++ closeMark)) :=
    (wholeRecord_iff _).mpr ⟨0x09, _, by decide, hbody, rfl⟩
  exact split_finds_records.2.1 [⟨_, _⟩] closeMark
    (List.forall_mem_singleton.mpr ⟨hgap, hrecord⟩) hlast

end AuditTables.Proofs.Event
