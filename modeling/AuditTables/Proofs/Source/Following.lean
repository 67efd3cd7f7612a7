import AuditTables.Proofs.Event.Capture
import AuditTables.Proofs.Event.Resumption
import AuditTables.Source.Tail

/-!
# `AuditTables.Proofs.Source.Following`: a file followed as it grows

The run model is a file and its reader (`Follower`), and a list of what happens to them
(`Occurrence`). The file grows by any octets, which may end in the middle of a tag or of
a character or be no text at all. It may be cut to a shorter length. The reader polls the
file whenever it likes. It misses the file if it cannot be opened, and a file that is open
may still not be readable. The answers to all polls are kept, in order.

`following_delivers` is the main fact. In a run that never cuts the file, the events of
all answers up to a poll are those of the complete records that the file then has, each
once and in order. The events of a content (`eventsOf`) are defined by one split of all
of it. Each event also carries a time, which the clock of its poll showed at its record
(`Clock`), so `stamp` sets all of these to one time before they are compared. A poll that
misses the file gives no events and leaves the place alone. A poll that finds a file shorter
than that place starts over, so that from then on the reader answers as a new one does. It
notices that as soon as the file is open, and so does one that cannot read the file.

`Followed` is the invariant of a run. Some first part of the file has been seen (`Sees`):
the place is what a split of that part consumes, and its events are the events of all
answers. Only a poll moves it, by `splitTexts_append`.

A file that is written anew need not be shorter than the place. If it is not, the reader takes it
for the old one that has grown. `poll_rewritten` says what it then misses.
-/

set_option autoImplicit false

namespace AuditTables.Proofs.Source

open AuditTables.Text AuditTables.Event AuditTables.Source
open AuditTables.Proofs.Event

/-! ### Batches -/

/-- The events of records read at one time are those of the records that make one. -/
theorem events_ofRecords (now : Int) (records : List String) :
    (Batch.ofRecords (.still now) records).events
      = records.filterMap fun r => (AuditEvent.read now r).toOption := by
  induction records with
  | nil => rfl
  | cons record rest ih =>
      rw [Batch.ofRecords, Clock.next_still, Clock.reading_still]
      cases hread : AuditEvent.read now record with
      | error failure => simp [hread, Except.toOption, ih]
      | ok event => simp [hread, Except.toOption, ih]

/-- The events of a content are those of the texts of its records. -/
theorem eventsOf_eq (now : Int) (content : List UInt8) :
    eventsOf now content = (Batch.ofRecords (.still now) (splitTexts content).1).events := by
  rw [events_ofRecords]
  simp only [splitTexts, List.filterMap_map]
  rfl

/-- Events of records read by any clock are those read at one time, but for the time. -/
theorem stamp_ofRecords (clock : Clock) (later : Int) (records : List String) :
    (Batch.ofRecords clock records).events.map (stamp later)
      = (Batch.ofRecords (.still later) records).events := by
  induction records generalizing clock with
  | nil => rfl
  | cons record rest ih =>
      have hstamp := stamp_read (clock.reading 0) later record
      rw [events_ofRecords] at ih ⊢
      rw [Batch.ofRecords, List.filterMap_cons, ← hstamp]
      cases hread : AuditEvent.read (clock.reading 0) record with
      | error failure => exact ih clock.next
      | ok event =>
          show stamp later event :: _ = _
          rw [ih clock.next]
          rfl

/-- The events of a content read by any clock are those read at one time, but for the time. -/
theorem stamp_ofRecords_content (clock : Clock) (content : List UInt8) (later : Int) :
    (Batch.ofRecords clock (splitTexts content).1).events.map (stamp later)
      = eventsOf later content := by
  rw [eventsOf_eq, stamp_ofRecords]

/-- Events carry times that the clock showed at their records. -/
theorem captureTime_of_mem_ofRecords {clock : Clock} {records : List String} {e : AuditEvent}
    (h : e ∈ (Batch.ofRecords clock records).events) :
    ∃ i, e.captureTime = clock.reading i := by
  induction records generalizing clock with
  | nil => cases h
  | cons record rest ih =>
      have hlater (hrest : e ∈ (Batch.ofRecords clock.next rest).events) :
          ∃ i, e.captureTime = clock.reading i := by
        obtain ⟨i, hi⟩ := ih hrest
        exact ⟨i + 1, hi⟩
      rw [Batch.ofRecords] at h
      cases hread : AuditEvent.read (clock.reading 0) record with
      | error failure =>
          rw [hread] at h
          exact hlater h
      | ok event =>
          rw [hread] at h
          rcases List.mem_cons.mp h with rfl | hrest
          · exact ⟨0, captureTime_of_read hread⟩
          · exact hlater hrest

/-! ### Polls -/

/-- A poll of a file that has reached the place begins there. -/
theorem resume_of_le {tail : Tail} {length : Nat} (h : tail.offset ≤ length) :
    tail.resume length = tail.offset := if_neg (Nat.not_lt.mpr h)

/-- A file is never shorter than the place of a reader that has seen a part of it. -/
theorem resume_of_seen {tail : Tail} {seen : List UInt8} (h : tail.offset = (split seen).2)
    (rest : List UInt8) : tail.resume (seen ++ rest).length = tail.offset := by
  refine resume_of_le ?_
  have hle : (split seen).2 ≤ seen.length := split_snd_le seen
  rw [h, List.length_append]
  omega

/-- A reader that has seen a part of a file and polls all of it gives the records that a
reader of the rest finds. Its place is then what a split of all of it consumes. -/
theorem poll_of_seen {tail : Tail} {seen : List UInt8} (h : tail.offset = (split seen).2)
    (clock : Clock) (rest : List UInt8) :
    tail.poll clock (.content (seen ++ rest))
      = (⟨(split (seen ++ rest)).2⟩,
          Batch.ofRecords clock (splitTexts (seen.drop (split seen).2 ++ rest)).1) := by
  have hresume : tail.resume (seen ++ rest).length = (split seen).2 :=
    (resume_of_seen h rest).trans h
  have hdrop : (seen ++ rest).drop (split seen).2 = seen.drop (split seen).2 ++ rest :=
    List.drop_append_of_le_length (split_snd_le seen)
  have hplace : (split (seen ++ rest)).2
      = (split seen).2 + (splitTexts (seen.drop (split seen).2 ++ rest)).2 :=
    congrArg Prod.snd (splitTexts_append seen rest)
  simp only [Tail.poll, hresume, hdrop, hplace]

/-- A poll of a file that cannot be read gives no events. -/
theorem events_poll_unread (tail : Tail) (clock : Clock) (length : Nat) (failure : Failure) :
    (tail.poll clock (.unread length failure)).2.events = [] := by
  rw [Tail.poll]
  show (if length = _ then Batch.empty else _).events = []
  split <;> rfl

/-- The events of a file are those of a part of it and those that a reader finds who has
seen that part. -/
theorem eventsOf_append (now : Int) (seen rest : List UInt8) :
    eventsOf now (seen ++ rest)
      = eventsOf now seen ++ eventsOf now (seen.drop (split seen).2 ++ rest) := by
  simp only [eventsOf_eq, splitTexts_append seen rest, events_ofRecords, List.filterMap_append]

/-- A reader that has seen a part of a file. Its place is what a split of that part
consumes, and the events it has taken are those of that part. -/
structure Sees (tail : Tail) (taken : List AuditEvent) (seen : List UInt8) : Prop where
  offset : tail.offset = (split seen).2
  events : ∀ now, taken.map (stamp now) = eventsOf now seen

/-- A new reader has seen nothing. -/
theorem sees_start : Sees Tail.start [] [] := ⟨rfl, fun _ => rfl⟩

/-- After a poll all of the file is seen. -/
theorem sees_poll {tail : Tail} {taken : List AuditEvent} {seen : List UInt8}
    (h : Sees tail taken seen) (clock : Clock) (rest : List UInt8) :
    Sees (tail.poll clock (.content (seen ++ rest))).1
      (taken ++ (tail.poll clock (.content (seen ++ rest))).2.events) (seen ++ rest) := by
  rw [poll_of_seen h.offset clock rest]
  refine ⟨rfl, fun later => ?_⟩
  rw [List.map_append, h.events later, stamp_ofRecords_content, ← eventsOf_append]

/-- A reader that has seen a part of a file and cannot read all of it keeps its place. -/
theorem sees_poll_unread {tail : Tail} {taken : List AuditEvent} {seen : List UInt8}
    (h : Sees tail taken seen) (clock : Clock) (rest : List UInt8) (failure : Failure) :
    Sees (tail.poll clock (.unread (seen ++ rest).length failure)).1 taken seen :=
  ⟨(resume_of_seen h.offset rest).trans h.offset, h.events⟩

/-- Events that are those of a content, but for the time, are made of records. -/
theorem fromRecord_of_stamped {events : List AuditEvent} {content : List UInt8}
    (h : ∀ now, events.map (stamp now) = eventsOf now content) {e : AuditEvent}
    (he : e ∈ events) : FromRecord e := by
  have hstamped : stamp e.captureTime e ∈ eventsOf e.captureTime content := by
    rw [← h e.captureTime]
    exact List.mem_map_of_mem he
  exact fromRecord_of_mem_eventsOf hstamped

/-- A reader whose place lies behind the end of a file starts over as soon as it has opened
the file. -/
theorem resume_of_length_lt {tail : Tail} {length : Nat} (h : length < tail.offset) :
    tail.resume length = Tail.start.resume length := by
  have hstart : Tail.start.resume length = 0 := if_neg (Nat.not_lt_zero _)
  rw [hstart, Tail.resume, if_pos h]

/-- It then polls the file as a new reader does. -/
theorem poll_of_length_lt {tail : Tail} {content : List UInt8} (h : content.length < tail.offset)
    (clock : Clock) :
    tail.poll clock (.content content) = Tail.start.poll clock (.content content) := by
  rw [Tail.poll, Tail.poll, resume_of_length_lt h]

/-- So it does if it cannot read the file. -/
theorem poll_unread_of_length_lt {tail : Tail} {length : Nat} (h : length < tail.offset)
    (clock : Clock) (failure : Failure) :
    tail.poll clock (.unread length failure) = Tail.start.poll clock (.unread length failure) := by
  rw [Tail.poll, Tail.poll, resume_of_length_lt h]

/-! ### Runs -/

/-- What can happen to a file and its reader. -/
inductive Occurrence where
  /-- Octets are added at the end of the file. -/
  | append (chunk : List UInt8)
  /-- The file is cut to a length. -/
  | truncate (length : Nat)
  /-- The reader polls the file. -/
  | poll (clock : Clock)
  /-- The reader polls the file, which cannot be opened. -/
  | miss (clock : Clock) (failure : Failure)
  /-- The reader polls the file, which can be opened and not be read. -/
  | unread (clock : Clock) (failure : Failure)

namespace Occurrence

/-- Whether the file is cut. -/
def truncates : Occurrence → Bool
  | truncate _ => true
  | _ => false

/-- Whether the reader opens the file. -/
def opens : Occurrence → Bool
  | poll _ => true
  | unread _ _ => true
  | _ => false

end Occurrence

/-- A file, its reader, and the answers to all polls so far, in order. -/
structure Follower where
  content : List UInt8
  tail : Tail
  answers : List Batch

namespace Follower

/-- A new reader of a file. -/
def new (content : List UInt8) : Follower := ⟨content, Tail.start, []⟩

/-- A poll, given what the reader finds. -/
def ask (f : Follower) (clock : Clock) (look : Look) : Follower :=
  let (tail, batch) := f.tail.poll clock look
  ⟨f.content, tail, f.answers ++ [batch]⟩

/-- One occurrence. -/
def step (f : Follower) : Occurrence → Follower
  | .append chunk => { f with content := f.content ++ chunk }
  | .truncate length => { f with content := f.content.take length }
  | .poll clock => f.ask clock (.content f.content)
  | .miss clock failure => f.ask clock (.unopened failure)
  | .unread clock failure => f.ask clock (.unread f.content.length failure)

/-- Occurrences one after the other. -/
def run (f : Follower) (occurrences : List Occurrence) : Follower := occurrences.foldl step f

/-- The events of all answers, in order. -/
def events (f : Follower) : List AuditEvent := f.answers.flatMap (·.events)

end Follower

/-- The events of one more answer come last. -/
theorem events_ask (f : Follower) (clock : Clock) (look : Look) :
    (f.ask clock look).events = f.events ++ (f.tail.poll clock look).2.events := by
  simp [Follower.ask, Follower.events]

/-- The invariant of a run that does not cut the file: a first part of the file is
seen, and its events are those of all answers. -/
def Followed (f : Follower) : Prop :=
  ∃ seen rest, f.content = seen ++ rest ∧ Sees f.tail f.events seen

/-- A new reader follows any file. -/
theorem followed_new (content : List UInt8) : Followed (Follower.new content) :=
  ⟨[], content, rfl, sees_start⟩

/-- After a poll all of the file is seen. -/
theorem sees_step_poll {f : Follower} (h : Followed f) (clock : Clock) :
    Sees (f.step (.poll clock)).tail (f.step (.poll clock)).events f.content := by
  obtain ⟨seen, rest, hcontent, hsees⟩ := h
  show Sees (f.tail.poll clock (.content f.content)).1
    (f.ask clock (.content f.content)).events f.content
  rw [events_ask, hcontent]
  exact sees_poll hsees clock rest

/-- An occurrence that does not cut the file keeps the invariant. -/
theorem followed_step {f : Follower} (h : Followed f) {o : Occurrence}
    (ho : o.truncates = false) : Followed (f.step o) := by
  cases o with
  | append chunk =>
      obtain ⟨seen, rest, hcontent, hsees⟩ := h
      refine ⟨seen, rest ++ chunk, ?_, hsees⟩
      show f.content ++ chunk = _
      rw [hcontent, List.append_assoc]
  | truncate length => cases ho
  | poll clock => exact ⟨f.content, [], (List.append_nil _).symm, sees_step_poll h clock⟩
  | miss clock failure =>
      obtain ⟨seen, rest, hcontent, hsees⟩ := h
      refine ⟨seen, rest, hcontent, ?_⟩
      show Sees f.tail (f.ask clock (.unopened failure)).events seen
      rw [events_ask]
      show Sees f.tail (f.events ++ []) seen
      rw [List.append_nil]
      exact hsees
  | unread clock failure =>
      obtain ⟨seen, rest, hcontent, hsees⟩ := h
      refine ⟨seen, rest, hcontent, ?_⟩
      show Sees (f.tail.poll clock (.unread f.content.length failure)).1
        (f.ask clock (.unread f.content.length failure)).events seen
      rw [events_ask, events_poll_unread, List.append_nil, hcontent]
      exact sees_poll_unread hsees clock rest failure

/-- A run that does not cut the file keeps the invariant, by induction on the
occurrences. -/
theorem followed_run {f : Follower} (h : Followed f) {occurrences : List Occurrence}
    (hkept : ∀ o ∈ occurrences, o.truncates = false) : Followed (f.run occurrences) := by
  induction occurrences generalizing f with
  | nil => exact h
  | cons o rest ih =>
      have hstep := followed_step h (hkept o List.mem_cons_self)
      exact ih hstep fun o' ho' => hkept o' (List.mem_cons_of_mem o ho')

/-- What a run answers does not depend on the answers before it. -/
theorem run_answers (f : Follower) (before : List Batch) (occurrences : List Occurrence) :
    Follower.run { f with answers := before ++ f.answers } occurrences
      = { f.run occurrences with answers := before ++ (f.run occurrences).answers } := by
  induction occurrences generalizing f with
  | nil => rfl
  | cons o rest ih =>
      have hstep : Follower.step { f with answers := before ++ f.answers } o
          = { f.step o with answers := before ++ (f.step o).answers } := by
        cases o with
        | append chunk => rfl
        | truncate length => rfl
        | poll clock => simp only [Follower.step, Follower.ask, List.append_assoc]
        | miss clock failure => simp only [Follower.step, Follower.ask, List.append_assoc]
        | unread clock failure => simp only [Follower.step, Follower.ask, List.append_assoc]
      show Follower.run (Follower.step { f with answers := before ++ f.answers } o) rest = _
      rw [hstep, ih]
      rfl

/-- A poll that opens a file shorter than the place does what that of a new reader does. -/
theorem step_of_length_lt {f : Follower} (h : f.content.length < f.tail.offset) {o : Occurrence}
    (ho : o.opens = true) :
    f.step o = { (Follower.new f.content).step o with
      answers := f.answers ++ ((Follower.new f.content).step o).answers } := by
  cases o with
  | append chunk => cases ho
  | truncate length => cases ho
  | poll clock =>
      have hpoll := poll_of_length_lt h clock
      simp only [Follower.step, Follower.ask, Follower.new, hpoll, List.nil_append]
  | miss clock failure => cases ho
  | unread clock failure =>
      have hpoll := poll_unread_of_length_lt h clock failure
      simp only [Follower.step, Follower.ask, Follower.new, hpoll, List.nil_append]

/-- A run that begins with such a poll goes as that of a new reader of the file. -/
theorem run_of_length_lt {f : Follower} (h : f.content.length < f.tail.offset) {o : Occurrence}
    (ho : o.opens = true) (after : List Occurrence) :
    f.run (o :: after)
      = { (Follower.new f.content).run (o :: after) with
          answers := f.answers ++ ((Follower.new f.content).run (o :: after)).answers } := by
  show (f.step o).run after = _
  rw [step_of_length_lt h ho, run_answers]
  rfl

/-- A reader of a file gives every complete record once and in order, however the file
grows and whenever it is polled. After a poll that finds the file, in a run that did not
cut it, the events of all answers are those of the file's content, and the place is what a
split of the content consumes. Each event carries a time that the clock of its poll showed. A
poll that cannot open the file gives no events and leaves the place. One that can open it and
not read it gives none either, and leaves the place unless the file is shorter. In any run, a
poll that opens the file and finds it shorter than the place, and every later one, answers as
if the reader were new. -/
theorem following_delivers (content : List UInt8) (occurrences : List Occurrence) :
    ((∀ o ∈ occurrences, o.truncates = false) → ∀ clock : Clock,
      let f := (Follower.new content).run (occurrences ++ [.poll clock])
      (∀ later, f.events.map (stamp later) = eventsOf later f.content) ∧
        f.tail.offset = (split f.content).2 ∧ f.tail.offset ≤ f.content.length) ∧
    let f := (Follower.new content).run occurrences
    ∀ clock : Clock,
      (∃ batch, (f.step (.poll clock)).answers = f.answers ++ [batch] ∧
        ∀ e ∈ batch.events, ∃ i, e.captureTime = clock.reading i) ∧
      (∀ failure, (f.step (.miss clock failure)).tail = f.tail ∧
        ∃ batch, (f.step (.miss clock failure)).answers = f.answers ++ [batch] ∧
          batch.events = []) ∧
      (∀ failure, (f.tail.offset ≤ f.content.length →
          (f.step (.unread clock failure)).tail = f.tail) ∧
        ∃ batch, (f.step (.unread clock failure)).answers = f.answers ++ [batch] ∧
          batch.events = []) ∧
      (f.content.length < f.tail.offset →
        ∀ o : Occurrence, o.opens = true → ∀ after : List Occurrence,
          (f.run (o :: after)).answers
              = f.answers ++ ((Follower.new f.content).run (o :: after)).answers ∧
            (f.run (o :: after)).tail = ((Follower.new f.content).run (o :: after)).tail) := by
  refine ⟨?_, ?_⟩
  · intro hkept clock
    have hfollowed := followed_run (followed_new content) hkept
    have hsees := sees_step_poll hfollowed clock
    have hrun : (Follower.new content).run (occurrences ++ [.poll clock])
        = ((Follower.new content).run occurrences).step (.poll clock) := by
      simp only [Follower.run, List.foldl_append, List.foldl_cons, List.foldl_nil]
    rw [hrun]
    refine ⟨hsees.events, hsees.offset, ?_⟩
    rw [hsees.offset]
    exact split_snd_le _
  · intro f clock
    refine ⟨⟨_, rfl, ?_⟩, ?_, ?_, ?_⟩
    · intro e he
      exact captureTime_of_mem_ofRecords he
    · intro failure
      exact ⟨rfl, _, rfl, rfl⟩
    · intro failure
      refine ⟨?_, _, rfl, events_poll_unread f.tail clock f.content.length failure⟩
      intro hle
      show Tail.mk (f.tail.resume f.content.length) = f.tail
      rw [resume_of_le hle]
    · intro hlt o ho after
      rw [run_of_length_lt hlt ho after]
      exact ⟨rfl, rfl⟩

/-- The octets of a record up to the middle of its closing tag, a poll, and the rest of
them. -/
def cutRecord : List Occurrence :=
  [.append (Utf8.encode "<Event>a</Ev"), .poll 1, .append (Utf8.encode "ent>")]

/-- A record cut in its closing tag is given once, by the poll that sees its end. -/
theorem following_delivers_cutRecord :
    let f := (Follower.new []).run (cutRecord ++ [.poll 2])
    f.events.map (stamp 0) = eventsOf 0 f.content ∧ f.tail.offset = 16 ∧
      f.answers.map (·.events.length) = [0, 1] := by
  have hkept : ∀ o ∈ cutRecord, o.truncates = false := by decide
  have hdelivers := (following_delivers [] cutRecord).1 hkept 2
  exact ⟨hdelivers.1 0, hdelivers.2.1, rfl⟩

/-! ### Files written anew -/

/-- The events of a poll are those of the content from the place where it resumes. -/
theorem events_poll (tail : Tail) (clock : Clock) (content : List UInt8) (later : Int) :
    (tail.poll clock (.content content)).2.events.map (stamp later)
      = eventsOf later (content.drop (tail.resume content.length)) :=
  stamp_ofRecords_content clock _ later

/-- A poll of a file that was emptied and written anew. Only its length can tell that it was. If
the file is now shorter than the place, the reader answers as a new one does. If it has reached
the place again, the reader goes on from there. It gives nothing if the file is just as long, and
if a record ends at the place, the events of all records up to there are lost. -/
theorem poll_rewritten (f : Follower) (content : List UInt8) (clock : Clock) :
    ∃ batch, (f.run [.truncate 0, .append content, .poll clock]).answers = f.answers ++ [batch] ∧
      (content.length < f.tail.offset ∨ f.tail.offset = 0 →
        ∀ later, batch.events.map (stamp later) = eventsOf later content) ∧
      (f.tail.offset ≤ content.length →
        (∀ later, batch.events.map (stamp later)
          = eventsOf later (content.drop f.tail.offset)) ∧
        (content.length = f.tail.offset → batch.events = []) ∧
        ((split (content.take f.tail.offset)).2 = f.tail.offset → ∀ later,
          eventsOf later content = eventsOf later (content.take f.tail.offset)
            ++ batch.events.map (stamp later))) := by
  have hevents := events_poll f.tail clock content
  refine ⟨(f.tail.poll clock (.content content)).2, rfl, ?_, ?_⟩
  · intro hanew later
    have hresume : f.tail.resume content.length = 0 := by
      rw [Tail.resume]
      split
      · rfl
      · exact hanew.resolve_left ‹_›
    rw [hevents, hresume, List.drop_zero]
  · intro hle
    rw [resume_of_le hle] at hevents
    refine ⟨hevents, ?_, ?_⟩
    · intro hlength
      have hnone := hevents 0
      rw [← hlength, List.drop_length] at hnone
      exact List.map_eq_nil_iff.mp hnone
    · -- The records up to the place and those behind it are all records.
      intro hplace later
      have hsplit := eventsOf_append later (content.take f.tail.offset)
        (content.drop f.tail.offset)
      have hnone : (content.take f.tail.offset).drop f.tail.offset = [] :=
        List.drop_eq_nil_of_le (List.length_take_le _ _)
      rw [List.take_append_drop, hplace, hnone, List.nil_append] at hsplit
      rw [hsplit, hevents]

/-- A file of one record. -/
def shortContent : List UInt8 := Utf8.encode "<Event></Event>"

/-- A longer file of one record, whose open tag the shorter one covers. -/
def longContent : List UInt8 :=
  Utf8.encode "<Event><System><EventID>7</EventID></System></Event>"

/-- The reader of a file that was written anew and is longer than it was misses its record. -/
theorem poll_rewritten_longer :
    let f := (Follower.new shortContent).run
      [.poll 1, .truncate 0, .append longContent, .poll 2]
    f.answers.map (·.events.length) = [1, 0] ∧ (eventsOf 2 longContent).length = 1 :=
  ⟨rfl, rfl⟩

end AuditTables.Proofs.Source
