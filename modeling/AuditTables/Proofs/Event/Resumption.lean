import AuditTables.Event.Stream
import Mathlib.Data.List.Induction

/-!
# `AuditTables.Proofs.Event.Resumption`: splitting a stream in pieces

A reader that has split a stream forgets what is consumed and starts over at the rest
once more octets are there. `splitTexts_append` says that this finds the same records.
The records of a stream are those of its first part, followed by those of what was left
of the first part and the octets after it.

The splitter that starts over has to come to the state that the other one was left in.
`resumes_feed` is that fact. A splitter started at the consumed octet is in the same state
as the one from the beginning, but for the place it started at (`shift`) and the records
from before. Each octet either leaves the consumed octet where it is, and then both
splitters take the same step (`step_shift`), or it consumes everything up to a state that
a splitter comes to from the start (`resumes_of_nothing`, `resumes_of_bracket`).

A step looks back at octets it has taken when a name ends. `Placed` says that they are
there, and that a partly matched mark begins at the last bracket.

`split_resumed` is the same fact about places in the stream: where the records are, which
octets they have, and how much is consumed.
-/

set_option autoImplicit false

namespace AuditTables.Proofs.Event

open AuditTables.Text AuditTables.Event

/-! ### Streams that begin later -/

/-- A span of a stream that begins some octets earlier. -/
def shiftSpan (places : Nat) (s : Span) : Span := ⟨s.start + places, s.stop + places⟩

/-- A mode in a stream that begins some octets earlier. -/
def shiftMode (places : Nat) : SplitMode → SplitMode
  | .between matched dangling => .between matched (dangling.map (· + places))
  | .inside start matched => .inside (start + places) matched

/-- A splitter in a stream that begins some octets earlier, with records found there. -/
def shift (places : Nat) (before : List Span) (s : Splitter) : Splitter :=
  ⟨s.offset + places, s.found.map (shiftSpan places) ++ before, shiftMode places s.mode⟩

/-- The octets of a shifted span are those of the span in the stream from there on. -/
theorem slice_shiftSpan (places : Nat) (s : Span) (bytes : List UInt8) :
    (shiftSpan places s).slice bytes = s.slice (bytes.drop places) := by
  have hlength : s.stop + places - (s.start + places) = s.stop - s.start := by omega
  simp only [Span.slice, shiftSpan, List.drop_drop, hlength, Nat.add_comm places]

/-- Shifting moves the consumed octet along. -/
theorem consumed_shift (places : Nat) (before : List Span) (s : Splitter) :
    (shift places before s).consumed = s.consumed + places := by
  obtain ⟨offset, found, mode⟩ := s
  rcases mode with ⟨matched, _ | bracket⟩ | ⟨start, matched⟩ <;> rfl

/-! ### Matching a mark -/

/-- A bracket begins the opening mark, however much of it was matched. The mark has no
other bracket. -/
theorem matchNext_openBracket (matched : Nat) : matchNext openMark matched openBracket = 1 := by
  match matched with
  | 0 | 1 | 2 | 3 | 4 | 5 => decide
  | n + 6 => simp [matchNext, openMark]

/-- A closing bracket is no part of the opening mark. -/
theorem matchNext_closeBracket (matched : Nat) :
    matchNext openMark matched closeBracket = 0 := by
  match matched with
  | 0 | 1 | 2 | 3 | 4 | 5 => decide
  | n + 6 => simp [matchNext, openMark, closeBracket, openBracket]

/-- An octet that is no bracket matches nothing or carries a begun match on. -/
theorem matchNext_of_ne {b : UInt8} (hb : b ≠ openBracket) (matched : Nat) :
    matchNext openMark matched b = 0 ∨
      matched ≠ 0 ∧ matchNext openMark matched b = matched + 1 := by
  unfold matchNext
  by_cases hnext : openMark[matched]? = some b
  · refine Or.inr ⟨?_, if_pos hnext⟩
    rintro rfl
    exact hb (Option.some.inj hnext).symm
  · exact Or.inl (by rw [if_neg hnext, if_neg hb])

/-! ### One step -/

/-- The octets that a splitter looks back at are there. A partly matched opening mark
begins at the last bracket. -/
def Placed (s : Splitter) : Prop :=
  match s.mode with
  | .between matched dangling =>
    matched ≤ s.offset ∧ (matched ≠ 0 → dangling = some (s.offset - matched))
  | .inside _ _ => True

/-- A splitter that was fed one more octet took one more step. -/
theorem feed_append_singleton (s : Splitter) (bytes : List UInt8) (b : UInt8) :
    s.feed (bytes ++ [b]) = (s.feed bytes).step b := by
  rw [Splitter.feed_append]
  rfl

section Step

variable {offset start matched : Nat} {found : List Span} {dangling : Option Nat} {b : UInt8}

/-- The octet that ends the name of an opening tag opens a record. -/
theorem step_opens (h : matched = openMark.length ∧ endsName b) :
    Splitter.step ⟨offset, found, .between matched dangling⟩ b
      = ⟨offset + 1, found, .inside (offset - openMark.length) 0⟩ := if_pos h

/-- Any other octet between records is matched with the opening mark. -/
theorem step_between (h : ¬(matched = openMark.length ∧ endsName b)) :
    Splitter.step ⟨offset, found, .between matched dangling⟩ b
      = ⟨offset + 1, found, .between (matchNext openMark matched b)
          (if b = openBracket then some offset
            else if b = closeBracket then none else dangling)⟩ := if_neg h

/-- The octet that completes the closing mark closes a record. -/
theorem step_closes (h : matchNext closeMark matched b = closeMark.length) :
    Splitter.step ⟨offset, found, .inside start matched⟩ b
      = ⟨offset + 1, ⟨start, offset + 1⟩ :: found, .between 0 none⟩ := if_pos h

/-- Any other octet of a record is matched with the closing mark. -/
theorem step_inside (h : matchNext closeMark matched b ≠ closeMark.length) :
    Splitter.step ⟨offset, found, .inside start matched⟩ b
      = ⟨offset + 1, found, .inside start (matchNext closeMark matched b)⟩ := if_neg h

end Step

/-- A splitter that has matched nothing is placed. -/
theorem placed_zero (offset : Nat) (found : List Span) (dangling : Option Nat) :
    Placed ⟨offset, found, .between 0 dangling⟩ :=
  ⟨Nat.zero_le offset, fun h => absurd rfl h⟩

/-- A step keeps a splitter placed. -/
theorem placed_step {s : Splitter} (h : Placed s) (b : UInt8) : Placed (s.step b) := by
  obtain ⟨offset, found, mode⟩ := s
  cases mode with
  | inside start matched =>
      by_cases hcloses : matchNext closeMark matched b = closeMark.length
      · rw [step_closes hcloses]
        exact placed_zero _ _ _
      · rw [step_inside hcloses]
        trivial
  | between matched dangling =>
      obtain ⟨hle, hbracket⟩ := h
      by_cases hopens : matched = openMark.length ∧ endsName b
      · rw [step_opens hopens]
        trivial
      · rw [step_between hopens]
        by_cases hb : b = openBracket
        · rw [if_pos hb, hb, matchNext_openBracket]
          exact ⟨Nat.le_add_left 1 offset, fun _ => rfl⟩
        · rw [if_neg hb]
          rcases matchNext_of_ne hb matched with hnone | ⟨hbegun, hnext⟩
          · rw [hnone]
            exact placed_zero _ _ _
          · have hclose : b ≠ closeBracket := by
              rintro rfl
              rw [matchNext_closeBracket] at hnext
              omega
            rw [hnext, if_neg hclose, hbracket hbegun]
            refine ⟨Nat.succ_le_succ hle, fun _ => ?_⟩
            simp only [Nat.add_sub_add_right]

/-- Every splitter that is fed from the start is placed, by induction on the octets from
the last one back. -/
theorem placed_feed (bytes : List UInt8) : Placed (Splitter.start.feed bytes) := by
  induction bytes using List.reverseRecOn with
  | nil => exact placed_zero 0 [] none
  | append_singleton bytes b ih =>
      rw [feed_append_singleton]
      exact placed_step ih b

/-- A step looks at nothing that a shift moves. -/
theorem step_shift (places : Nat) (before : List Span) {s : Splitter} (h : Placed s) (b : UInt8) :
    (shift places before s).step b = shift places before (s.step b) := by
  obtain ⟨offset, found, mode⟩ := s
  cases mode with
  | inside start matched =>
      by_cases hcloses : matchNext closeMark matched b = closeMark.length
      · simp only [shift, shiftMode, step_closes hcloses, List.map_cons, shiftSpan,
          List.cons_append, Option.map_none, Nat.add_right_comm]
      · simp only [shift, shiftMode, step_inside hcloses, Nat.add_right_comm]
  | between matched dangling =>
      by_cases hopens : matched = openMark.length ∧ endsName b
      · -- The mark lies behind the shifted place as well, since it was matched there.
        have hle : openMark.length ≤ offset := hopens.1 ▸ h.1
        simp only [shift, shiftMode, step_opens hopens, Nat.add_right_comm,
          Nat.sub_add_comm hle]
      · have hdangling : (if b = openBracket then some offset
              else if b = closeBracket then none else dangling).map (· + places)
            = if b = openBracket then some (offset + places)
              else if b = closeBracket then none else dangling.map (· + places) := by
          split
          · rfl
          · split <;> rfl
        simp only [shift, shiftMode, step_between hopens, hdangling, Nat.add_right_comm]

/-- Feeding commutes with a shift, by induction on the octets. -/
theorem feed_shift (places : Nat) (before : List Span) (bytes : List UInt8) {s : Splitter}
    (h : Placed s) :
    (shift places before s).feed bytes = shift places before (s.feed bytes) := by
  induction bytes generalizing s with
  | nil => rfl
  | cons b bytes ih =>
      show ((shift places before s).step b).feed bytes = _
      rw [step_shift places before h b, ih (placed_step h b)]
      rfl

/-! ### Starting over -/

/-- What holds of a splitter that has taken some octets: it is the splitter that starts
over at the consumed octet, but for the place and for the records found before, which
lie in the octets taken. -/
structure Resumes (bytes : List UInt8) (s : Splitter) : Prop where
  offset : s.offset = bytes.length
  consumed_le : s.consumed ≤ bytes.length
  stop_le : ∀ span ∈ s.found, span.stop ≤ bytes.length
  feed_rest : shift s.consumed s.found (Splitter.start.feed (bytes.drop s.consumed)) = s

section Step

variable {bytes : List UInt8} {s : Splitter} {found : List Span} {b : UInt8}

/-- Records that lie in the octets taken lie in one octet more. -/
theorem stop_le_append (h : ∀ span ∈ found, span.stop ≤ bytes.length) (b : UInt8) :
    ∀ span ∈ found, span.stop ≤ (bytes ++ [b]).length := by
  intro span hspan
  rw [List.length_append]
  exact Nat.le_add_right_of_le (h span hspan)

/-- An octet that consumes nothing and finds no record is one more step for the splitter
that starts over, too. -/
theorem resumes_of_consumed_eq (h : Resumes bytes s) (hoffset : (s.step b).offset = s.offset + 1)
    (hfound : (s.step b).found = s.found) (hconsumed : (s.step b).consumed = s.consumed) :
    Resumes (bytes ++ [b]) (s.step b) := by
  have hlength : (bytes ++ [b]).length = bytes.length + 1 := List.length_append
  refine ⟨?_, ?_, ?_, ?_⟩
  · rw [hoffset, h.offset, hlength]
  · rw [hconsumed, hlength]
    exact Nat.le_succ_of_le h.consumed_le
  · rw [hfound]
    exact stop_le_append h.stop_le b
  · rw [hconsumed, hfound, List.drop_append_of_le_length h.consumed_le, feed_append_singleton,
      ← step_shift _ _ (placed_feed _), h.feed_rest]

/-- A splitter that has matched nothing since it consumed the last octet has nothing to
look at again. -/
theorem resumes_of_nothing (hstop : ∀ span ∈ found, span.stop ≤ bytes.length) :
    Resumes bytes ⟨bytes.length, found, .between 0 none⟩ := by
  refine ⟨rfl, Nat.le_refl _, hstop, ?_⟩
  show shift bytes.length found (Splitter.start.feed (bytes.drop bytes.length)) = _
  rw [List.drop_length]
  simp [Splitter.feed, Splitter.start, shift, shiftMode]

/-- A splitter at a bracket looks at the bracket again, and at nothing else. -/
theorem resumes_of_bracket (hstop : ∀ span ∈ found, span.stop ≤ bytes.length) :
    Resumes (bytes ++ [openBracket])
      ⟨bytes.length + 1, found, .between 1 (some bytes.length)⟩ := by
  have hlength : (bytes ++ [openBracket]).length = bytes.length + 1 := List.length_append
  refine ⟨hlength.symm, ?_, stop_le_append hstop openBracket, ?_⟩
  · rw [hlength]
    exact Nat.le_succ _
  · show shift bytes.length found
      (Splitter.start.feed ((bytes ++ [openBracket]).drop bytes.length)) = _
    rw [List.drop_left]
    -- One bracket takes a splitter from the start to this mode.
    show shift bytes.length found ⟨1, [], .between 1 (some 0)⟩ = _
    simp [shift, shiftMode, Nat.add_comm]

/-- An octet of a record either closes it, and then everything is consumed, or leaves the
place where the record begins as it is. -/
theorem resumes_step_inside {start matched : Nat}
    (h : Resumes bytes ⟨bytes.length, found, .inside start matched⟩) (b : UInt8) :
    Resumes (bytes ++ [b]) (Splitter.step ⟨bytes.length, found, .inside start matched⟩ b) := by
  have hlength : (bytes ++ [b]).length = bytes.length + 1 := List.length_append
  by_cases hcloses : matchNext closeMark matched b = closeMark.length
  · rw [step_closes hcloses, ← hlength]
    refine resumes_of_nothing fun span hspan => ?_
    rcases List.mem_cons.mp hspan with rfl | hspan
    · exact Nat.le_refl _
    · exact stop_le_append h.stop_le b span hspan
  · have hstep : Splitter.step ⟨bytes.length, found, .inside start matched⟩ b = _ :=
      step_inside hcloses
    exact resumes_of_consumed_eq h (by rw [hstep]) (by rw [hstep]) (by rw [hstep]; rfl)

/-- An octet between records that is no bracket and opens no record leaves a bracket that is
held back as it is. If none is held back, nothing is matched, and the octet is consumed. -/
theorem resumes_step_plain {matched : Nat} {dangling : Option Nat}
    (hplaced : Placed ⟨bytes.length, found, .between matched dangling⟩)
    (h : Resumes bytes ⟨bytes.length, found, .between matched dangling⟩)
    (hopens : ¬(matched = openMark.length ∧ endsName b)) (hbracket : b ≠ openBracket)
    (hclose : b ≠ closeBracket) :
    Resumes (bytes ++ [b]) (Splitter.step ⟨bytes.length, found, .between matched dangling⟩ b) := by
  have hlength : (bytes ++ [b]).length = bytes.length + 1 := List.length_append
  have hstep : Splitter.step ⟨bytes.length, found, .between matched dangling⟩ b = _ :=
    step_between hopens
  rw [if_neg hbracket, if_neg hclose] at hstep
  cases dangling with
  | some bracket =>
      exact resumes_of_consumed_eq h (by rw [hstep]) (by rw [hstep]) (by rw [hstep]; rfl)
  | none =>
      have hnone : matchNext openMark matched b = 0 := by
        rcases matchNext_of_ne hbracket matched with hnone | ⟨hbegun, -⟩
        · exact hnone
        · cases hplaced.2 hbegun
      rw [hstep, hnone, ← hlength]
      exact resumes_of_nothing (stop_le_append h.stop_le b)

/-- An octet between records. -/
theorem resumes_step_between {matched : Nat} {dangling : Option Nat}
    (hplaced : Placed ⟨bytes.length, found, .between matched dangling⟩)
    (h : Resumes bytes ⟨bytes.length, found, .between matched dangling⟩) (b : UInt8) :
    Resumes (bytes ++ [b]) (Splitter.step ⟨bytes.length, found, .between matched dangling⟩ b) := by
  have hlength : (bytes ++ [b]).length = bytes.length + 1 := List.length_append
  by_cases hopens : matched = openMark.length ∧ endsName b
  · -- The mark that was matched begins at the last bracket, which was held back already.
    have hdangling : dangling = some (bytes.length - openMark.length) := by
      rw [hplaced.2 (by rw [hopens.1]; decide), hopens.1]
    subst hdangling
    have hstep : Splitter.step ⟨bytes.length, found,
        .between matched (some (bytes.length - openMark.length))⟩ b = _ := step_opens hopens
    exact resumes_of_consumed_eq h (by rw [hstep]) (by rw [hstep]) (by rw [hstep]; rfl)
  · by_cases hbracket : b = openBracket
    · rw [step_between hopens, if_pos hbracket, hbracket, matchNext_openBracket]
      exact resumes_of_bracket h.stop_le
    · by_cases hclose : b = closeBracket
      · rw [step_between hopens, if_neg hbracket, if_pos hclose, hclose, matchNext_closeBracket,
          ← hclose, ← hlength]
        exact resumes_of_nothing (stop_le_append h.stop_le b)
      · exact resumes_step_plain hplaced h hopens hbracket hclose

/-- One more octet. It either leaves what is consumed as it is, or consumes all octets
with it, or all before it if it is a bracket. -/
theorem resumes_step (hplaced : Placed s) (h : Resumes bytes s) (b : UInt8) :
    Resumes (bytes ++ [b]) (s.step b) := by
  have hoffset := h.offset
  obtain ⟨offset, found, mode⟩ := s
  obtain rfl : offset = bytes.length := hoffset
  cases mode with
  | inside start matched => exact resumes_step_inside h b
  | between matched dangling => exact resumes_step_between hplaced h b

end Step

/-- Every splitter is the one that starts over at the consumed octet, by induction on the
octets from the last one back. -/
theorem resumes_feed (bytes : List UInt8) : Resumes bytes (Splitter.start.feed bytes) := by
  induction bytes using List.reverseRecOn with
  | nil => exact resumes_of_nothing fun span hspan => absurd hspan List.not_mem_nil
  | append_singleton bytes b ih =>
      rw [feed_append_singleton]
      exact resumes_step (placed_feed bytes) ih b

/-! ### Splitting in pieces -/

/-- What is consumed lies in the stream. -/
theorem split_snd_le (bytes : List UInt8) : (split bytes).2 ≤ bytes.length :=
  (resumes_feed bytes).consumed_le

/-- The records of a stream and more octets are the records of the stream and those that
a splitter finds that starts over at what is not consumed. -/
theorem split_append (bytes more : List UInt8) :
    split (bytes ++ more)
      = ((split bytes).1 ++ (split (bytes.drop (split bytes).2 ++ more)).1.map
            (shiftSpan (split bytes).2),
          (split (bytes.drop (split bytes).2 ++ more)).2 + (split bytes).2) := by
  have hplaced := placed_feed (bytes.drop (split bytes).2)
  have hfeed : Splitter.start.feed (bytes ++ more)
      = shift (split bytes).2 (Splitter.start.feed bytes).found
          (Splitter.start.feed (bytes.drop (split bytes).2 ++ more)) := by
    rw [Splitter.feed_append, Splitter.feed_append, ← feed_shift _ _ _ hplaced]
    exact congrArg (Splitter.feed · more) (resumes_feed bytes).feed_rest.symm
  show ((Splitter.start.feed (bytes ++ more)).found.reverse,
    (Splitter.start.feed (bytes ++ more)).consumed) = _
  rw [hfeed, consumed_shift]
  simp [shift, split]

/-- A record found in a stream has the same octets when there are more. -/
theorem slice_append {bytes : List UInt8} {s : Span} (h : s ∈ (split bytes).1)
    (more : List UInt8) : s.slice (bytes ++ more) = s.slice bytes := by
  have hstop : s.stop ≤ bytes.length :=
    (resumes_feed bytes).stop_le s (List.mem_reverse.mp h)
  unfold Span.slice
  by_cases hstart : s.start ≤ bytes.length
  · rw [List.drop_append_of_le_length hstart, List.take_append_of_le_length]
    rw [List.length_drop]
    omega
  · have hempty : s.stop - s.start = 0 := by omega
    rw [hempty, List.take_zero, List.take_zero]

/-- The octets of the records of a stream and more octets are those of the records of the
stream, and those of the records that a splitter finds that starts over. -/
theorem slices_append (bytes more : List UInt8) :
    (split (bytes ++ more)).1.map (·.slice (bytes ++ more))
      = (split bytes).1.map (·.slice bytes)
        ++ (split (bytes.drop (split bytes).2 ++ more)).1.map
            (·.slice (bytes.drop (split bytes).2 ++ more)) := by
  have hdrop : (bytes ++ more).drop (split bytes).2 = bytes.drop (split bytes).2 ++ more :=
    List.drop_append_of_le_length (split_snd_le bytes)
  have hbefore : (split bytes).1.map (fun s => s.slice (bytes ++ more))
      = (split bytes).1.map fun s => s.slice bytes :=
    List.map_congr_left fun s hs => slice_append hs more
  simp only [split_append bytes more, List.map_append, List.map_map, hbefore,
    Function.comp_def, slice_shiftSpan, hdrop]

/-- The texts of the records of a stream are what their octets are decoded as. -/
theorem splitTexts_eq (bytes : List UInt8) :
    splitTexts bytes
      = (((split bytes).1.map (·.slice bytes)).map Utf8.decode, (split bytes).2) := by
  rw [List.map_map]
  rfl

/-- The texts of the records of a stream and more octets are those of the stream's, and
those of the records that a splitter finds that starts over. -/
theorem splitTexts_append (bytes more : List UInt8) :
    splitTexts (bytes ++ more)
      = ((splitTexts bytes).1 ++ (splitTexts (bytes.drop (split bytes).2 ++ more)).1,
          (split bytes).2 + (splitTexts (bytes.drop (split bytes).2 ++ more)).2) := by
  rw [splitTexts_eq, splitTexts_eq, splitTexts_eq, slices_append, List.map_append,
    split_append bytes more, Nat.add_comm]

/-- What a splitter has not consumed holds no record, and none of it is consumed when it is
split on its own. -/
theorem split_rest (bytes : List UInt8) : split (bytes.drop (split bytes).2) = ([], 0) := by
  have hsplit := split_append bytes []
  rw [List.append_nil, List.append_nil] at hsplit
  -- Both sides are the split of the whole, so starting over adds nothing to it.
  have hspans := congrArg Prod.fst hsplit
  have hconsumed := congrArg Prod.snd hsplit
  have hnone : (split (bytes.drop (split bytes).2)).1 = [] :=
    List.map_eq_nil_iff.mp (List.append_right_eq_self.mp hspans.symm)
  have hzero : (split (bytes.drop (split bytes).2)).2 = 0 := Nat.left_eq_add.mp (by
    rw [Nat.add_comm]
    exact hconsumed)
  exact Prod.ext hnone hzero

/-- Splitting can be resumed anywhere. A stream is cut in two, and the first part is split.
What is consumed lies in it, and its records together with those of all octets from the
consumed one on, in their places in the whole, are the records of the whole, octet for octet;
what is consumed of the whole is consumed in two steps. With no second part there is nothing
left to find or to consume. -/
theorem split_resumed (bytes more : List UInt8) :
    let consumed := (split bytes).2
    let rest := (bytes ++ more).drop consumed
    split (bytes ++ more)
        = ((split bytes).1 ++ (split rest).1.map (shiftSpan consumed),
            consumed + (split rest).2) ∧
      (split (bytes ++ more)).1.map (·.slice (bytes ++ more))
        = (split bytes).1.map (·.slice bytes) ++ (split rest).1.map (·.slice rest) ∧
      consumed ≤ bytes.length ∧
      split (bytes.drop consumed) = ([], 0) := by
  intro consumed rest
  have hrest : rest = bytes.drop consumed ++ more :=
    List.drop_append_of_le_length (split_snd_le bytes)
  refine ⟨?_, ?_, split_snd_le bytes, split_rest bytes⟩
  · rw [split_append, hrest, Nat.add_comm consumed]
  · rw [slices_append, hrest]

end AuditTables.Proofs.Event
