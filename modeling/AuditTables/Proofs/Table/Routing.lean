import AuditTables.Proofs.Table.RowShape
import Mathlib.Data.List.Pairwise

/-!
# `AuditTables.Proofs.Table.Routing`: which tables an event goes to

Several tables look at the same event numbers and are told apart only by the kind of payload
that they accept. `routing_exclusive` says that this is enough. The table of all events shows
every event. Of the tables that read the data text, no event is shown by two, but for the two
tables that are meant to share accesses to files. An event whose data text is not readable is
shown by none of them, and fails in those that look at its number.

`Takes` is what a definition says about a number and a kind, apart from any event. A table
that reads the data shows an event exactly if it takes the event's number and the kind of its
payload (`givesRow_iff_takes`). So it is enough to compare definitions, which
`pairwise_apart` does for each pair of the catalogue.

What the kinds are is told by the marks of payloads, which are keys that have to be there. They
stand in the order in which they are tried, and the first one found decides (`Marked`).
`classify_eq_iff` says that this is the kind which tables go by.
-/

set_option autoImplicit false

namespace AuditTables.Proofs.Table

open AuditTables.Event AuditTables.Table

/-- A table shows an event in a row that has columns. -/
def GivesRow (d : Definition) (e : AuditEvent) : Prop :=
  ∃ row, d.row? e = .ok (some row) ∧ row.isEmpty = false

/-- The tables that read the data text. -/
def dataTables : List Definition := catalogue.filter (·.readsData)

/-- A definition looks at a number and accepts a kind of payload. -/
def Takes (d : Definition) (eventId : Int) (kind : PayloadKind) : Prop :=
  d.selects eventId = true ∧ (d.kinds.all fun kinds => kinds.contains kind) = true

instance (d : Definition) (eventId : Int) (kind : PayloadKind) :
    Decidable (Takes d eventId kind) := inferInstanceAs (Decidable (_ ∧ _))

/-! ### One table -/

section

variable {d : Definition} {e : AuditEvent}

theorem mem_dataTables : d ∈ dataTables ↔ d ∈ catalogue ∧ d.readsData = true := List.mem_filter

theorem accepts_eq (fields : Fields) :
    d.accepts fields = d.kinds.all fun kinds => kinds.contains (PayloadKind.classify fields) := by
  rw [Definition.accepts]
  cases d.kinds <;> rfl

/-- A row of a consistent table is never the empty one, so that a table makes a row is all
that there is to say. -/
theorem givesRow_iff (h : Consistent d) : GivesRow d e ↔ ∃ row, d.row? e = .ok (some row) := by
  constructor
  · rintro ⟨row, hrow, -⟩
    exact ⟨row, hrow⟩
  · rintro ⟨row, hrow⟩
    exact ⟨row, hrow, isEmpty_of_showsEvent (fits_of_row? h hrow).2⟩

/-- A table that does not read the data shows every event that it looks at. -/
theorem givesRow_of_unread (h : Consistent d) (hreads : d.readsData = false)
    (hlooks : LooksAt d e) : GivesRow d e := by
  rw [givesRow_iff h, Definition.row?, (selects_iff d e).mpr hlooks, hreads]
  exact ⟨_, rfl⟩

/-- A table that reads the data shows an event if the data reads as a payload of which it
takes the kind, together with the number of the event. -/
theorem givesRow_iff_takes (h : Consistent d) (hreads : d.readsData = true) :
    GivesRow d e ↔ ∃ fields, Fields.read e.data = .ok fields ∧
      Takes d e.eventId (PayloadKind.classify fields) := by
  rw [givesRow_iff h, Definition.row?, hreads]
  constructor
  · rintro ⟨row, hrow⟩
    -- What is not selected, not read or not accepted ends in no row.
    cases hselects : d.selects e.eventId with
    | false =>
        rw [hselects] at hrow
        cases hrow
    | true =>
        cases hread : Fields.read e.data with
        | error fault =>
            rw [hselects, hread] at hrow
            cases hrow
        | ok fields =>
            cases haccepts : d.accepts fields with
            | false =>
                simp [hselects, hread, haccepts] at hrow
            | true => exact ⟨fields, rfl, hselects, (accepts_eq fields).symm.trans haccepts⟩
  · rintro ⟨fields, hread, hselects, haccepts⟩
    rw [← accepts_eq] at haccepts
    refine ⟨d.rowOf e fields, ?_⟩
    simp [hselects, hread, haccepts]

/-- An event whose data does not read fails in a table that reads it if the table looks at the
event, and is passed over otherwise. -/
theorem row?_of_unreadable (hreads : d.readsData = true) {fault : Fields.Fault}
    (hread : Fields.read e.data = .error fault) :
    ((∃ failure, d.row? e = .error failure) ↔ LooksAt d e) ∧ ¬ GivesRow d e := by
  have hfails : (∃ failure, d.row? e = .error failure) ↔ LooksAt d e := by
    constructor
    · rintro ⟨failure, hfailure⟩
      obtain ⟨_, ⟨hlooks, -⟩, -⟩ := (row?_eq_error_iff d e failure).mp hfailure
      exact hlooks
    · intro hlooks
      exact ⟨_, (row?_eq_error_iff d e _).mpr ⟨fault, ⟨hlooks, hreads, hread⟩, rfl⟩⟩
  refine ⟨hfails, ?_⟩
  rintro ⟨row, hrow, -⟩
  cases hselects : d.selects e.eventId with
  | false =>
      rw [Definition.row?, hselects] at hrow
      cases hrow
  | true =>
      obtain ⟨failure, hfailure⟩ := hfails.mpr ((selects_iff d e).mp hselects)
      rw [hfailure] at hrow
      cases hrow

end

/-! ### Kinds of payload -/

/-- What marks a kind of payload: all keys of one of some lists, and for some kinds that the object
which was accessed is a file. -/
structure Mark where
  kind : PayloadKind
  keys : List (List String)
  ofFile : Bool
  deriving DecidableEq, Repr

/-- The marks in the order in which they are tried, the most specific first. Those of objects are
tried for files before they are tried for others. -/
def marks : List Mark :=
  [⟨.processCreation, [["NewProcessId"], ["NewProcessName"]], false⟩,
    ⟨.logon, [["LogonType"]], false⟩,
    ⟨.registryValue, [["ObjectValueName"]], false⟩,
    ⟨.fileAccess, [["ObjectType", "AccessList"], ["ObjectType", "AccessMask"]], true⟩,
    ⟨.objectAccess, [["ObjectType", "AccessList"], ["ObjectType", "AccessMask"]], false⟩,
    ⟨.connection, [["Application", "DestAddress"]], false⟩,
    ⟨.processTermination, [["ProcessName", "Status"]], false⟩]

/-- The mark is found on fields. -/
def Mark.On (mark : Mark) (fields : Fields) : Prop :=
  (∃ keys ∈ mark.keys, ∀ key ∈ keys, fields.contains key = true) ∧
    (mark.ofFile = true → isFileObject fields = true)

instance (mark : Mark) (fields : Fields) : Decidable (mark.On fields) :=
  inferInstanceAs (Decidable (_ ∧ _))

/-- Fields are of the kind of the first mark found on them, or of none. -/
inductive Marked (fields : Fields) : PayloadKind → Prop where
  | first {before after : List Mark} {mark : Mark} (hmarks : marks = before ++ mark :: after)
      (hon : mark.On fields) (hbefore : ∀ other ∈ before, ¬ other.On fields) :
      Marked fields mark.kind
  | unmarked (hnone : ∀ mark ∈ marks, ¬ mark.On fields) : Marked fields .unclassified

/-- A mark is found if the keys of one of its lists are all there, and a file where it asks for
one. -/
theorem decide_on (mark : Mark) (fields : Fields) : decide (mark.On fields)
    = ((mark.keys.any fun keys => keys.all fields.contains)
      && (!mark.ofFile || isFileObject fields)) := by
  rw [Bool.eq_iff_iff, decide_eq_true_iff]
  cases hfile : mark.ofFile <;> simp [Mark.On, hfile]

/-- The kind of fields is looked up in the marks. -/
theorem classify_eq_find (fields : Fields) : PayloadKind.classify fields
    = ((marks.find? fun mark => mark.On fields).map (·.kind)).getD .unclassified := by
  simp only [marks, List.find?_cons, List.find?_nil, decide_on, List.any_cons, List.any_nil,
    List.all_cons, List.all_nil, Bool.or_false, Bool.and_true, Bool.not_false, Bool.not_true,
    Bool.true_or, Bool.false_or, ← Bool.and_or_distrib_left]
  unfold PayloadKind.classify
  simp only
  -- Each test of the rules is the test of a mark, files and other objects sharing one.
  generalize (fields.contains "NewProcessId" || fields.contains "NewProcessName") = creation
  generalize fields.contains "LogonType" = logon
  generalize fields.contains "ObjectValueName" = value
  generalize (fields.contains "ObjectType" &&
    (fields.contains "AccessList" || fields.contains "AccessMask")) = access
  generalize isFileObject fields = file
  generalize (fields.contains "Application" && fields.contains "DestAddress") = connection
  generalize (fields.contains "ProcessName" && fields.contains "Status") = termination
  cases creation with
  | true => rfl
  | false => cases logon with
    | true => rfl
    | false => cases value with
      | true => rfl
      | false => cases access with
        | true => cases file <;> rfl
        | false => cases connection <;> cases termination <;> rfl

/-- The kind that tables go by is that of the first mark found. -/
theorem classify_eq_iff (fields : Fields) (kind : PayloadKind) :
    PayloadKind.classify fields = kind ↔ Marked fields kind := by
  rw [classify_eq_find]
  constructor
  · rintro rfl
    cases hfind : marks.find? fun mark => mark.On fields with
    | none =>
        refine .unmarked fun mark hmark => ?_
        simpa using List.find?_eq_none.mp hfind mark hmark
    | some mark =>
        obtain ⟨hon, before, after, hmarks, hbefore⟩ := List.find?_eq_some_iff_append.mp hfind
        exact .first hmarks (of_decide_eq_true hon) (by simpa using hbefore)
  · intro h
    cases h with
    | @first before after mark hmarks hon hbefore =>
        have hfind : (marks.find? fun mark => mark.On fields) = some mark :=
          List.find?_eq_some_iff_append.mpr
            ⟨decide_eq_true hon, before, after, hmarks, by simpa using hbefore⟩
        rw [hfind]
        rfl
    | unmarked hnone =>
        have hfind : (marks.find? fun mark => mark.On fields) = none :=
          List.find?_eq_none.mpr (by simpa using hnone)
        rw [hfind]
        rfl

/-! ### Pairs of tables -/

/-- The two tables that share accesses to files. -/
def fileTables : List Definition := [Catalogue.fileMonitoring, Catalogue.objectAccess]

/-- The numbers that the tables look at which read the data. -/
def dataNumbers : List Int := dataTables.flatMap fun d => d.eventIds.getD []

/-- No number is taken with a kind by both definitions, except for accesses to files with the
number 4663. -/
def Apart (kind : PayloadKind) (d d' : Definition) : Prop :=
  ∀ eventId ∈ dataNumbers, Takes d eventId kind ∧ Takes d' eventId kind →
    eventId = 4663 ∧ kind = .fileAccess ∧
      d.name ∈ fileTables.map (·.name) ∧ d'.name ∈ fileTables.map (·.name)

instance (kind : PayloadKind) (d d' : Definition) : Decidable (Apart kind d d') :=
  inferInstanceAs (Decidable (∀ eventId ∈ dataNumbers, _))

/-- Any two of the tables that read the data are apart. There are eight kinds, seven tables and
a few numbers, so that this is checked case by case. -/
theorem pairwise_apart (kind : PayloadKind) : dataTables.Pairwise (Apart kind) := by
  cases kind <;> decide

instance (kind : PayloadKind) : Std.Symm (Apart kind) where
  symm := by
    intro d d' h eventId hnumber htakes
    obtain ⟨hid, hkind, hd, hd'⟩ := h eventId hnumber htakes.symm
    exact ⟨hid, hkind, hd', hd⟩

/-- A table that reads the data lists its numbers, and looks at no others. -/
theorem looksAt_iff_mem {d : Definition} (hd : d ∈ dataTables) (e : AuditEvent) :
    LooksAt d e ↔ ∃ ids, d.eventIds = some ids ∧ e.eventId ∈ ids := by
  have hlists : ∀ d ∈ dataTables, d.eventIds.isSome = true := by decide
  obtain ⟨ids, hids⟩ := Option.isSome_iff_exists.mp (hlists d hd)
  constructor
  · intro hlooks
    exact ⟨ids, hids, hlooks ids hids⟩
  · rintro ⟨ids', hids', hmem⟩ ids'' hids''
    exact Option.some.inj (hids'.symm.trans hids'') ▸ hmem

/-- A table of this kind that has one of the two names is one of the two tables. -/
theorem mem_fileTables {d : Definition} (hd : d ∈ dataTables)
    (hname : d.name ∈ fileTables.map (·.name)) : d ∈ fileTables := by
  have hall : ∀ d ∈ dataTables, d.name ∈ fileTables.map (·.name) → d ∈ fileTables := by decide
  exact hall d hd hname

/-- Two tables that both show an event, and read its data, are the two that share accesses to
files. -/
theorem mem_fileTables_of_givesRow {d d' : Definition} {e : AuditEvent} (hd : d ∈ dataTables)
    (hd' : d' ∈ dataTables) (hne : d ≠ d') (hrow : GivesRow d e) (hrow' : GivesRow d' e) :
    d ∈ fileTables ∧ d' ∈ fileTables := by
  obtain ⟨hmem, hreads⟩ := mem_dataTables.mp hd
  obtain ⟨hmem', hreads'⟩ := mem_dataTables.mp hd'
  obtain ⟨fields, hread, htakes⟩ := (givesRow_iff_takes (consistent_of_mem hmem) hreads).mp hrow
  obtain ⟨fields', hread', htakes'⟩ :=
    (givesRow_iff_takes (consistent_of_mem hmem') hreads').mp hrow'
  -- Both have read the same data, so they have seen the same kind.
  obtain rfl : fields' = fields := Except.ok.inj (hread'.symm.trans hread)
  have hnumber : e.eventId ∈ dataNumbers := by
    obtain ⟨ids, hids, hid⟩ := (looksAt_iff_mem hd e).mp ((selects_iff d e).mp htakes.1)
    exact List.mem_flatMap.mpr ⟨d, hd, by rwa [hids, Option.getD_some]⟩
  have hapart := (pairwise_apart (PayloadKind.classify fields')).forall hd hd' hne
  obtain ⟨-, -, hname, hname'⟩ := hapart e.eventId hnumber ⟨htakes, htakes'⟩
  exact ⟨mem_fileTables hd hname, mem_fileTables hd' hname'⟩

/-- The table of file accesses takes files under three numbers. -/
theorem takes_fileMonitoring_iff (eventId : Int) (kind : PayloadKind) :
    Takes Catalogue.fileMonitoring eventId kind ↔
      (eventId = 4656 ∨ eventId = 4663 ∨ eventId = 4688) ∧ kind = .fileAccess := by
  simp [Takes, Definition.selects, Catalogue.fileMonitoring]

/-- The table of object accesses takes files and other objects, under one number. -/
theorem takes_objectAccess_iff (eventId : Int) (kind : PayloadKind) :
    Takes Catalogue.objectAccess eventId kind ↔
      eventId = 4663 ∧ (kind = .fileAccess ∨ kind = .objectAccess) := by
  simp [Takes, Definition.selects, Catalogue.objectAccess]

/-- The two tables both show an event exactly if it is an access to a file with the number that
they have in common. -/
theorem givesRow_fileTables_iff (e : AuditEvent) :
    (GivesRow Catalogue.fileMonitoring e ∧ GivesRow Catalogue.objectAccess e) ↔
      e.eventId = 4663 ∧ ∃ fields, Fields.read e.data = .ok fields ∧
        PayloadKind.classify fields = .fileAccess := by
  have hfile := @givesRow_iff_takes Catalogue.fileMonitoring e (consistent_of_mem (by decide)) rfl
  have hobject := @givesRow_iff_takes Catalogue.objectAccess e (consistent_of_mem (by decide)) rfl
  simp only [takes_fileMonitoring_iff] at hfile
  simp only [takes_objectAccess_iff] at hobject
  rw [hfile, hobject]
  constructor
  · rintro ⟨⟨fields, hread, -, hkind⟩, -, -, hid, -⟩
    exact ⟨hid, fields, hread, hkind⟩
  · rintro ⟨hid, fields, hread, hkind⟩
    exact ⟨⟨fields, hread, .inr (.inl hid), hkind⟩, fields, hread, hid, .inl hkind⟩

/-! ### Routing -/

/-- The routing of events is exclusive. The table of all events shows every event, whatever its
number and its data are. No two of the tables that read the data show the same event, except
for the two that share accesses to files, and these do so exactly for the number that they have
in common. An event whose data is not readable fails in exactly those of the tables that list
its number, and is shown by none of them. There are seven of these tables, and the kind that they
go by is that of the first mark found. -/
theorem routing_exclusive (e : AuditEvent) :
    GivesRow Catalogue.allEvents e ∧
    (∀ d ∈ dataTables, ∀ d' ∈ dataTables, GivesRow d e → GivesRow d' e →
      d = d' ∨ (d ∈ fileTables ∧ d' ∈ fileTables)) ∧
    ((GivesRow Catalogue.fileMonitoring e ∧ GivesRow Catalogue.objectAccess e) ↔
      e.eventId = 4663 ∧ ∃ fields, Fields.read e.data = .ok fields ∧
        PayloadKind.classify fields = .fileAccess) ∧
    (∀ fault, Fields.read e.data = .error fault → ∀ d ∈ dataTables,
      ((∃ failure, d.row? e = .error failure) ↔
        ∃ ids, d.eventIds = some ids ∧ e.eventId ∈ ids) ∧ ¬ GivesRow d e) ∧
    dataTables.length = 7 ∧
    ∀ fields kind, PayloadKind.classify fields = kind ↔ Marked fields kind := by
  refine ⟨?_, ?_, givesRow_fileTables_iff e, ?_, rfl, classify_eq_iff⟩
  · -- The table of all events has no list of numbers that an event could miss.
    refine givesRow_of_unread (consistent_of_mem (by decide)) rfl ?_
    intro ids hids
    cases hids
  · intro d hd d' hd' hrow hrow'
    by_cases heq : d = d'
    · exact .inl heq
    · exact .inr (mem_fileTables_of_givesRow hd hd' heq hrow hrow')
  · intro fault hread d hd
    rw [← looksAt_iff_mem hd]
    exact row?_of_unreadable (mem_dataTables.mp hd).2 hread

/-- An event about a new process, with data that are cut short. -/
def cutShort : AuditEvent := { AuditEvent.blank with eventId := 4688, data := "[" }

/-- It fails in the table of new processes and not in that of logons, and only the table of all
events shows it. -/
theorem routing_exclusive_cutShort :
    GivesRow Catalogue.allEvents cutShort ∧
      (∃ failure, Catalogue.processCreation.row? cutShort = .error failure) ∧
      (¬ ∃ failure, Catalogue.accountLogon.row? cutShort = .error failure) ∧
      ∀ d ∈ dataTables, ¬ GivesRow d cutShort := by
  obtain ⟨hall, -, -, hunreadable, -⟩ := routing_exclusive cutShort
  obtain ⟨fault, hread⟩ : ∃ fault, Fields.read cutShort.data = .error fault := ⟨_, rfl⟩
  have hfails := hunreadable fault hread
  refine ⟨hall, (hfails _ (by decide)).1.mpr ⟨_, rfl, by decide⟩, ?_, fun d hd => (hfails d hd).2⟩
  rw [(hfails _ (by decide)).1]
  rintro ⟨ids, hids, hmem⟩
  cases hids
  exact absurd hmem (by decide)

end AuditTables.Proofs.Table
