import AuditTables.CommandLine.Report
import AuditTables.Proofs.Source.Following
import AuditTables.Proofs.Table.CaptureTime
import AuditTables.Proofs.Table.Draining
import AuditTables.Proofs.Text.Utf8

/-!
# `AuditTables.Proofs.CommandLine.Streaming`: a file streamed and a file replayed

There are two ways from a file of records to rows. A session follows the file as it grows.
Its passes put the rows of new records into queues, and scans take them out from time to
time. A replay reads a file that is complete and prints its rows. `streamed_eq_replayed` says
that both come to the same. Whatever pieces a text is written in, and however passes and scans
are put between the writes, the rows that scans have taken from a table once the text was
written, seen by a pass and scanned are the rows that a replay of the text prints for that
table, but for the time of capture. The replay may be asked for the table by name, or for all
of them, and then the lines of the table are those that begin with its name.

The run model is the file, the session and all that scans exported (`Stream`), and a list of
`Turn`s. It begins with the session that the settings ask for (`openSession_replay`). Its
invariant is `Streams`. Some first part of the file has been seen, and the rows of
that part's events have been drained or wait (`Drains`). A table must have room for its rows,
since a full queue loses the oldest. No table fails on the way, because the events are made
of records.
-/

set_option autoImplicit false

namespace AuditTables.Proofs.CommandLine

open AuditTables.Text AuditTables.Event AuditTables.Source AuditTables.Table
open AuditTables.CommandLine
open AuditTables.Proofs.Event AuditTables.Proofs.Source AuditTables.Proofs.Table
open AuditTables.Proofs.Text

/-! ### Runs -/

/-- What can happen in a run over a file that grows. -/
inductive Turn where
  /-- Octets are added at the end of the file. -/
  | append (chunk : List UInt8)
  /-- The session goes over its sources once. -/
  | pass (clock : Clock)
  /-- A scan takes the rows that wait. -/
  | scan

/-- The octets that turns add to the file. -/
def appended (turns : List Turn) : List UInt8 :=
  turns.flatMap fun turn =>
    match turn with
    | .append chunk => chunk
    | _ => []

/-- A file that grows, a session that follows it, and all that scans exported. -/
structure Stream where
  content : List UInt8
  session : Session
  exported : List (String × List Row)

namespace Stream

/-- An empty file, and a session that has just attached it. -/
def new (settings : RunSettings) (path : String) : Stream :=
  ⟨[],
    ⟨settings, [.file path Tail.start],
      Registry.new settings.tables.maxQueuedRows settings.tables.enabled⟩,
    []⟩

/-- One turn. -/
def step (s : Stream) : Turn → Stream
  | .append chunk => { s with content := s.content ++ chunk }
  | .pass clock => { s with session := (s.session.pass clock (.content s.content)).1 }
  | .scan =>
    let (rows, registry) := s.session.registry.drain
    { s with
      session := { s.session with registry := registry }
      exported := s.exported ++ rows }

/-- Turns one after the other. -/
def run (s : Stream) (turns : List Turn) : Stream := turns.foldl step s

end Stream

/-- Turns in two parts are run one part after the other. -/
theorem run_append (s : Stream) (first second : List Turn) :
    s.run (first ++ second) = (s.run first).run second := List.foldl_append

/-- A run adds to the file what its turns add. -/
theorem content_run (s : Stream) (turns : List Turn) :
    (s.run turns).content = s.content ++ appended turns := by
  induction turns generalizing s with
  | nil => exact (List.append_nil _).symm
  | cons turn rest ih =>
      have happended : appended (turn :: rest) = appended [turn] ++ appended rest := by
        rw [appended, List.flatMap_cons, appended, List.flatMap_singleton, appended]
      have hstep : (s.step turn).content = s.content ++ appended [turn] := by
        cases turn with
        | append chunk => simp [Stream.step, appended]
        | pass clock => simp [Stream.step, appended]
        | scan => simp [Stream.step, appended]
      show ((s.step turn).run rest).content = _
      rw [ih, hstep, happended, List.append_assoc]

/-- A session with the settings to follow a file starts a run over it. -/
theorem openSession_replay {settings : RunSettings}
    (h : settings.subscription.backend = .replay) :
    openSession settings (.ok ())
      = .ok (Stream.new settings settings.subscription.replayPath).session := by
  rw [openSession, h]
  rfl

/-! ### Passes -/

/-- A pass of a session over a file polls the file once and gives the events to every
table. -/
theorem pass_file {session : Session} {path : String} {tail : Tail}
    (hsources : session.sources = [.file path tail]) (hregistry : session.registry.isEmpty = false)
    (clock : Clock) (look : Look) :
    (session.pass clock look).1
      = { session with
          sources := [.file path (tail.poll clock look).1]
          registry := (session.registry.dispatch (tail.poll clock look).2.events).1 } := by
  obtain ⟨settings, sources, registry⟩ := session
  subst hsources
  have hworld : SessionWorld.poll 0 ⟨[.file path tail], clock, look, false⟩
      = ((tail.poll clock look).2,
          ⟨[.file path (tail.poll clock look).1], clock, look, false⟩) := rfl
  rw [Session.pass, hregistry]
  show Session.mk settings _ _ = _
  simp only [Pipeline.pass, SessionWorld.toSources, List.length_singleton, List.range_one,
    List.foldl_cons, List.foldl_nil, Pipeline.pollSource, hworld, Pipeline.dispatch]
  -- A batch without events is not given to the tables, which comes to the same.
  cases hevents : (tail.poll clock look).2.events with
  | nil => simp [dispatch_nil]
  | cons e rest => simp

/-! ### The invariant -/

section Invariant

variable {settings : RunSettings} {path : String} {s : Stream} {tail : Tail}
  {seen rest : List UInt8} {taken : List AuditEvent}

/-- What holds in a run: the session follows the file, which it has seen a part of, and
the rows of the events of that part have been exported or wait. -/
structure Streams (settings : RunSettings) (path : String) (s : Stream) (tail : Tail)
    (seen : List UInt8) (taken : List AuditEvent) : Prop where
  sources : s.session.sources = [.file path tail]
  definitions : definitions s.session.registry = enabledTables settings.tables.enabled
  sees : Sees tail taken seen
  drains : Drains settings.tables.maxQueuedRows s.session.registry s.exported taken

/-- A new run has seen nothing of its file. -/
theorem streams_new (settings : RunSettings) (path : String) :
    Streams settings path (Stream.new settings path) Tail.start [] [] :=
  ⟨rfl, definitions_new _ _, sees_start, drains_new _ _⟩

/-- Octets added to the file are not seen before a pass. -/
theorem streams_append (h : Streams settings path s tail seen taken) (chunk : List UInt8) :
    Streams settings path (s.step (.append chunk)) tail seen taken :=
  ⟨h.sources, h.definitions, h.sees, h.drains⟩

/-- A scan moves rows, and takes none from another table than it says. -/
theorem streams_scan (h : Streams settings path s tail seen taken) :
    Streams settings path (s.step .scan) tail seen taken := by
  have hnames : s.session.registry.names.Nodup := by
    have hmap : s.session.registry.names = (definitions s.session.registry).map (·.name) := by
      rw [definitions, List.map_map]
      rfl
    rw [hmap, h.definitions]
    exact nodup_names_enabled _
  exact ⟨h.sources, (definitions_cleared _).trans h.definitions, h.sees,
    drains_scan hnames h.drains⟩

/-- A run that enables a table has one. -/
theorem registry_nonempty (hregistered : enabledTables settings.tables.enabled ≠ [])
    (h : Streams settings path s tail seen taken) : s.session.registry.isEmpty = false := by
  cases htables : s.session.registry.tables with
  | nil =>
      refine absurd ?_ hregistered
      rw [← h.definitions, definitions, htables, List.map_nil]
  | cons t tables => rw [Registry.isEmpty, htables, List.isEmpty_cons]

/-- A pass sees all of the file and dispatches the events that are new. -/
theorem streams_pass (hregistered : enabledTables settings.tables.enabled ≠ [])
    (h : Streams settings path s tail seen taken) (hcontent : s.content = seen ++ rest)
    (clock : Clock) :
    Streams settings path (s.step (.pass clock)) (tail.poll clock (.content s.content)).1 s.content
      (taken ++ (tail.poll clock (.content s.content)).2.events) := by
  have hpass : (s.step (.pass clock)).session = _ :=
    pass_file h.sources (registry_nonempty hregistered h) clock (.content s.content)
  have hsees := sees_poll h.sees clock rest
  rw [← hcontent] at hsees
  refine ⟨by rw [hpass], ?_, hsees, ?_⟩
  · rw [hpass]
    exact (definitions_dispatch _ _).trans h.definitions
  · rw [hpass]
    refine drains_dispatch h.drains fun e he => ?_
    exact fromRecord_of_stamped hsees.events (List.mem_append_right taken he)

/-- A run up to any turn has seen a first part of the file. -/
theorem streams_run (hregistered : enabledTables settings.tables.enabled ≠ [])
    (h : Streams settings path s tail seen taken) (hcontent : s.content = seen ++ rest)
    (turns : List Turn) :
    ∃ tail' seen' rest' taken', (s.run turns).content = seen' ++ rest' ∧
      Streams settings path (s.run turns) tail' seen' taken' := by
  induction turns generalizing s tail seen rest taken with
  | nil => exact ⟨tail, seen, rest, taken, hcontent, h⟩
  | cons turn turns ih =>
      cases turn with
      | append chunk =>
          have hgrown : (s.step (.append chunk)).content = seen ++ (rest ++ chunk) := by
            show s.content ++ chunk = _
            rw [hcontent, List.append_assoc]
          exact ih (streams_append h chunk) hgrown
      | pass clock =>
          exact ih (streams_pass hregistered h hcontent clock) (List.append_nil _).symm
      | scan => exact ih (streams_scan h) hcontent

/-! ### The end of a run -/

/-- A poll of a file that is all seen gives no events. -/
theorem poll_of_seen_all (h : Sees tail taken seen) (clock : Clock) :
    (tail.poll clock (.content seen)).2.events = [] := by
  have hafter := (sees_poll h clock []).events 0
  rw [List.append_nil, List.map_append, h.events 0] at hafter
  -- The events taken before and after the poll are those of one content.
  have hnone := List.append_right_eq_self.mp hafter
  exact List.map_eq_nil_iff.mp hnone

/-- Turns that add nothing begin with one that adds nothing. -/
theorem appended_cons_eq_nil {turn : Turn} {turns : List Turn}
    (h : appended (turn :: turns) = []) : appended [turn] = [] ∧ appended turns = [] := by
  rw [appended, List.flatMap_cons, List.append_eq_nil_iff] at h
  exact ⟨by rw [appended, List.flatMap_singleton]; exact h.1, h.2⟩

/-- A turn that adds nothing leaves the file as it is. -/
theorem content_step {turn : Turn} (h : appended [turn] = []) :
    (s.step turn).content = s.content := by
  have hrun := content_run s [turn]
  rw [h, List.append_nil] at hrun
  exact hrun

/-- A turn that adds nothing to a file that is all seen leaves it all seen. -/
theorem streams_step_of_seen_all (hregistered : enabledTables settings.tables.enabled ≠ [])
    (h : Streams settings path s tail s.content taken) {turn : Turn}
    (hturn : appended [turn] = []) :
    ∃ tail' taken', Streams settings path (s.step turn) tail' (s.step turn).content taken' := by
  rw [content_step hturn]
  cases turn with
  | append chunk => exact ⟨tail, taken, streams_append h chunk⟩
  | pass clock => exact ⟨_, _, streams_pass hregistered h (List.append_nil _).symm clock⟩
  | scan => exact ⟨tail, taken, streams_scan h⟩

/-- A run in which all of the file is seen and no rows wait. -/
structure Settled (settings : RunSettings) (path : String) (s : Stream) : Prop where
  streams : ∃ tail taken, Streams settings path s tail s.content taken
  waiting : ∀ t ∈ s.session.registry.tables, t.queue.items = []

/-- A scan after all of the file is seen settles the run. -/
theorem settled_scan (h : Streams settings path s tail s.content taken) :
    Settled settings path (s.step .scan) := by
  refine ⟨⟨tail, taken, streams_scan h⟩, fun t' ht' => ?_⟩
  obtain ⟨t, -, rfl⟩ := List.mem_map.mp ht'
  rfl

/-- A pass over a file that is all seen changes no table. -/
theorem registry_pass_of_seen_all (hregistered : enabledTables settings.tables.enabled ≠ [])
    (h : Streams settings path s tail s.content taken) (clock : Clock) :
    (s.step (.pass clock)).session.registry = s.session.registry := by
  have hpass : (s.step (.pass clock)).session = _ :=
    pass_file h.sources (registry_nonempty hregistered h) clock (.content s.content)
  rw [hpass]
  show (s.session.registry.dispatch (tail.poll clock (.content s.content)).2.events).1 = _
  rw [poll_of_seen_all h.sees, dispatch_nil]

/-- A turn that adds nothing keeps a run settled. A pass finds no events, and a scan no
rows. -/
theorem settled_step (hregistered : enabledTables settings.tables.enabled ≠ [])
    (h : Settled settings path s) {turn : Turn} (hturn : appended [turn] = []) :
    Settled settings path (s.step turn) := by
  obtain ⟨⟨tail, taken, hstreams⟩, hwaiting⟩ := h
  refine ⟨streams_step_of_seen_all hregistered hstreams hturn, ?_⟩
  cases turn with
  | append chunk => exact hwaiting
  | pass clock =>
      rw [registry_pass_of_seen_all hregistered hstreams clock]
      exact hwaiting
  | scan => exact (settled_scan hstreams).waiting

/-- Turns that add nothing leave a file that is all seen all seen. -/
theorem streams_run_of_seen_all (hregistered : enabledTables settings.tables.enabled ≠ [])
    (h : Streams settings path s tail s.content taken) {turns : List Turn}
    (hturns : appended turns = []) :
    ∃ tail' taken', Streams settings path (s.run turns) tail' (s.run turns).content taken' := by
  induction turns generalizing s tail taken with
  | nil => exact ⟨tail, taken, h⟩
  | cons turn turns ih =>
      obtain ⟨hturn, hrest⟩ := appended_cons_eq_nil hturns
      obtain ⟨tail', taken', hstep⟩ := streams_step_of_seen_all hregistered h hturn
      exact ih hstep hrest

/-- Turns that add nothing keep a run settled. -/
theorem settled_run (hregistered : enabledTables settings.tables.enabled ≠ [])
    (h : Settled settings path s) {turns : List Turn} (hturns : appended turns = []) :
    Settled settings path (s.run turns) := by
  induction turns generalizing s with
  | nil => exact h
  | cons turn turns ih =>
      obtain ⟨hturn, hrest⟩ := appended_cons_eq_nil hturns
      exact ih (settled_step hregistered h hturn) hrest

/-- A run that ends, once its file is written, with a pass and later a scan is settled. -/
theorem settled_new_run (hregistered : enabledTables settings.tables.enabled ≠ [])
    (before : List Turn) (clock : Clock) {between after : List Turn}
    (hbetween : appended between = []) (hafter : appended after = []) :
    Settled settings path
      ((Stream.new settings path).run (before ++ .pass clock :: between ++ .scan :: after)) := by
  obtain ⟨tail, seen, rest, taken, hcontent, hstreams⟩ :=
    streams_run hregistered (streams_new settings path) rfl before
  have hpassed := streams_pass hregistered hstreams hcontent clock
  obtain ⟨tail', taken', hseen⟩ := streams_run_of_seen_all hregistered hpassed hbetween
  have hscanned := settled_run hregistered (settled_scan hseen) hafter
  rw [run_append, run_append]
  exact hscanned

/-- The rows that scans of a settled run exported from a table are those of the events of
the file, but for the time of capture. -/
theorem exported_of_settled (h : Settled settings path s) {d : Definition}
    (hd : d ∈ enabledTables settings.tables.enabled) (later : Int)
    (hroom : ((eventsOf later s.content).filterMap (rowOr d)).length
      ≤ settings.tables.maxQueuedRows) :
    (rowsNamed d.name s.exported).map (stampRow later)
      = (eventsOf later s.content).filterMap (rowOr d) := by
  obtain ⟨⟨tail, taken, hstreams⟩, hwaiting⟩ := h
  have hrows : (taken.filterMap (rowOr d)).map (stampRow later)
      = (eventsOf later s.content).filterMap (rowOr d) := by
    rw [← filterMap_rowOr_stamp (mem_catalogue_of_enabled hd), hstreams.sees.events]
  -- The table is one of the registry, and what was not exported would still wait there.
  rw [← hstreams.definitions] at hd
  obtain ⟨t, ht, rfl⟩ := List.mem_map.mp hd
  rw [← hrows, List.length_map] at hroom
  have hdrained := hstreams.drains.rows t ht hroom
  rw [hwaiting t ht, List.append_nil] at hdrained
  show (rowsNamed t.name s.exported).map (stampRow later) = _
  rw [hdrained, hrows]

end Invariant

/-! ### Replays -/

/-- The octets that a line of a table begins with. -/
def lineStart (table : String) : List Char :=
  '\x7b' :: Json.printText "table" ++ ':' :: Json.printText table ++ [',']

/-- Whether a line is of a table. -/
def isLineOf (table : String) (line : String) : Bool := (lineStart table).isPrefixOf line.toList

/-- The line of a row begins with the name of its table. -/
theorem rowLine_begins (table : String) (row : Row) :
    lineStart table <+: (rowLine table row).toList := by
  refine ⟨Json.printText "row" ++ ':' :: row.toValue.print ++ ['\x7d'], ?_⟩
  rw [rowLine, String.toList_ofList, lineStart]
  simp only [List.cons_append, List.append_assoc, List.nil_append]

/-- The line of a row is of its table. -/
theorem isLineOf_self (table : String) (row : Row) : isLineOf table (rowLine table row) = true :=
  List.isPrefixOf_iff_prefix.mpr (rowLine_begins table row)

/-- The line of a row is of no other table of the catalogue. -/
theorem isLineOf_of_ne {d d' : Definition} (hd : d ∈ catalogue) (hd' : d' ∈ catalogue)
    (hne : d'.name ≠ d.name) (row : Row) : isLineOf d.name (rowLine d'.name row) = false := by
  have hstarts : ∀ d ∈ catalogue, ∀ d' ∈ catalogue, d'.name ≠ d.name →
      ¬ lineStart d.name <+: lineStart d'.name := by decide
  refine Bool.eq_false_iff.mpr fun hline => ?_
  have hprefix := List.isPrefixOf_iff_prefix.mp hline
  -- Both starts begin one line, so one of them begins with the other.
  rcases List.prefix_or_prefix_of_prefix hprefix (rowLine_begins d'.name row) with h | h
  · exact hstarts d hd d' hd' hne h
  · exact hstarts d' hd' d hd hne.symm h

/-- The table of a name is found among tables with different names. -/
theorem get?_new {limit : Nat} {enabled : List String} {d : Definition}
    (hd : d ∈ enabledTables enabled) :
    (Registry.new limit enabled).get? d.name = some (LiveTable.new limit d) := by
  have hnames := nodup_names_enabled enabled
  show ((enabledTables enabled).map (LiveTable.new limit)).find? (fun t => t.name == d.name) = _
  generalize enabledTables enabled = ds at hd hnames
  induction ds with
  | nil => cases hd
  | cons d' ds ih =>
      obtain ⟨hfresh, hnames'⟩ := List.nodup_cons.mp hnames
      rw [List.map_cons]
      rcases List.mem_cons.mp hd with rfl | hd'
      · exact List.find?_cons_of_pos (beq_self_eq_true d.name)
      · have hne : d'.name ≠ d.name := fun heq =>
          hfresh (List.mem_map.mpr ⟨d, hd', heq.symm⟩)
        have hskip : ((LiveTable.new limit d').name == d.name) = false := beq_false_of_ne hne
        rw [List.find?_cons, hskip]
        exact ih hd' hnames'

/-- The octets of a text are read as they are. -/
theorem textOctets_encode (text : String) :
    textOctets (.ok (Utf8.encode text)) = .ok (Utf8.encode text) := by
  simp only [textOctets, bind, Except.bind, decode?_encode]

/-- The events that a replay makes of a content, each with the time that the clock showed. -/
def replayedEvents (clock : Clock) (content : List UInt8) : List AuditEvent :=
  (Batch.ofRecords clock (splitTexts content).1).events

/-- A replay of a text gives its events to every table asked for. -/
theorem replay_encode (settings : RunSettings) (clock : Clock) (file text : String)
    (table : Option String) :
    replay settings clock file (.ok (Utf8.encode text)) table
      = (replayTables (Registry.new settings.tables.maxQueuedRows settings.tables.enabled)
          table).map fun tables =>
            tables.flatMap (replayLines (replayedEvents clock (Utf8.encode text))) := by
  rw [replay, textOctets_encode]
  rfl

/-- The rows that a replay makes of a content for a table. -/
def replayedRows (d : Definition) (clock : Clock) (content : List UInt8) : List Row :=
  (replayedEvents clock content).filterMap (rowOr d)

section ReplayedRows

variable {d : Definition} (clock : Clock) (content : List UInt8)

/-- The rows of a replay are those of the content read at one time, but for the time. -/
theorem stampRow_replayedRows (h : d ∈ catalogue) (later : Int) :
    (replayedRows d clock content).map (stampRow later)
      = (eventsOf later content).filterMap (rowOr d) := by
  rw [replayedRows, ← filterMap_rowOr_stamp h, replayedEvents, stamp_ofRecords_content]

/-- At whatever time a content is read, as many rows are made of it. -/
theorem length_replayedRows (h : d ∈ catalogue) (now : Int) :
    (LiveTable.rowsOf d (eventsOf now content)).1.length
      = (replayedRows d clock content).length := by
  rw [rowsOf_of_fromRecord d fun e he => fromRecord_of_mem_eventsOf he,
    ← stampRow_replayedRows clock content h now, List.length_map]

variable {clock content}

/-- A row of a replay shows a time of the clock. -/
theorem stampRow_of_mem_replayedRows (h : d ∈ catalogue) {row : Row}
    (hrow : row ∈ replayedRows d clock content) : ∃ i, stampRow (clock.reading i) row = row := by
  obtain ⟨e, he, hshown⟩ := List.mem_filterMap.mp hrow
  obtain ⟨i, htime⟩ := captureTime_of_mem_ofRecords he
  refine ⟨i, ?_⟩
  -- The event has the time already, so stamping it with the time changes nothing.
  have hsame : rowOr d e = (rowOr d e).map (stampRow e.captureTime) :=
    rowOr_stamp h e.captureTime e
  rw [hshown, Option.map_some, Option.some.injEq] at hsame
  rw [← htime]
  exact hsame.symm

/-- A new table with room for them shows all rows of a replay. -/
theorem replayLines_new {limit : Nat} (hroom : (replayedRows d clock content).length ≤ limit) :
    replayLines (replayedEvents clock content) (LiveTable.new limit d)
      = (replayedRows d clock content).map (rowLine d.name) := by
  have hrows : (LiveTable.rowsOf d (replayedEvents clock content)).1
      = replayedRows d clock content := by
    have hmade : ∀ e ∈ replayedEvents clock content, FromRecord e := fun e he =>
      fromRecord_of_stamped (stamp_ofRecords_content clock content) he
    rw [rowsOf_of_fromRecord d hmade, replayedRows]
  have hfits : (Queue.empty limit : Queue Row).items.length
      + (replayedRows d clock content).length ≤ limit := by
    show 0 + _ ≤ limit
    omega
  show ((Queue.empty limit).append
    (LiveTable.rowsOf d (replayedEvents clock content)).1).items.map (rowLine d.name) = _
  rw [hrows, items_append_of_le hfits]
  rfl

end ReplayedRows

/-- The lines of a table among the lines that every enabled table prints. -/
theorem filter_isLineOf {limit : Nat} {enabled : List String} {d : Definition}
    (hd : d ∈ enabledTables enabled) (events : List AuditEvent) :
    ((Registry.new limit enabled).tables.flatMap (replayLines events)).filter (isLineOf d.name)
      = replayLines events (LiveTable.new limit d) := by
  have hown : (replayLines events (LiveTable.new limit d)).filter (isLineOf d.name)
      = replayLines events (LiveTable.new limit d) := by
    refine List.filter_eq_self.mpr fun line hline => ?_
    obtain ⟨row, -, rfl⟩ := List.mem_map.mp hline
    exact isLineOf_self d.name row
  have hother : ∀ d' ∈ enabledTables enabled, d'.name ≠ d.name →
      (replayLines events (LiveTable.new limit d')).filter (isLineOf d.name) = [] := by
    intro d' hd' hne
    refine List.filter_eq_nil_iff.mpr fun line hline => ?_
    obtain ⟨row, -, rfl⟩ := List.mem_map.mp hline
    have hline := isLineOf_of_ne (mem_catalogue_of_enabled hd) (mem_catalogue_of_enabled hd')
      hne row
    exact Bool.eq_false_iff.mp hline
  show (((enabledTables enabled).map (LiveTable.new limit)).flatMap
    (replayLines events)).filter (isLineOf d.name) = _
  rw [List.flatMap_map, List.filter_flatMap,
    flatMap_of_key (nodup_names_enabled enabled) hd hother, hown]

/-- A file streamed and a file replayed give the same rows. A text is written to a file in any
pieces, and passes and scans happen between them in any order. After the last piece there is a
pass and, later, a scan. Then the rows that all scans exported from an enabled table with room
for its rows are those that a replay of the text prints for the table, in the same order, but
for the time of capture, which in the printed rows is one that the clock of the replay showed.
The replay is asked for the table by name, or for all tables. The session of the run is the one
that settings open which say to follow the file. -/
theorem streamed_eq_replayed (settings : RunSettings) (path file text : String)
    (clock last : Clock) (before between after : List Turn) (d : Definition)
    (htext : appended before = Utf8.encode text) (hbetween : appended between = [])
    (hafter : appended after = []) (hd : d ∈ catalogue)
    (henabled : Registry.enables settings.tables.enabled d = true)
    (hroom : (LiveTable.rowsOf d (eventsOf (clock.reading 0) (Utf8.encode text))).1.length
      ≤ settings.tables.maxQueuedRows) :
    let s := (Stream.new settings path).run (before ++ .pass last :: between ++ .scan :: after)
    (∃ printed : List Row,
      replay settings clock file (.ok (Utf8.encode text)) (some d.name)
          = .ok (printed.map (rowLine d.name)) ∧
        (∃ lines, replay settings clock file (.ok (Utf8.encode text)) none = .ok lines ∧
          lines.filter (isLineOf d.name) = printed.map (rowLine d.name)) ∧
        (∀ later, (rowsNamed d.name s.exported).map (stampRow later)
          = printed.map (stampRow later)) ∧
        ∀ row ∈ printed, ∃ i, stampRow (clock.reading i) row = row) ∧
    (settings.subscription.backend = .replay → settings.subscription.replayPath = path →
      openSession settings (.ok ()) = .ok (Stream.new settings path).session) := by
  have hmem : d ∈ enabledTables settings.tables.enabled := List.mem_filter.mpr ⟨hd, henabled⟩
  have hregistered : enabledTables settings.tables.enabled ≠ [] := List.ne_nil_of_mem hmem
  rw [length_replayedRows clock _ hd] at hroom
  have hlines := replayLines_new hroom
  intro s
  have hsettled : Settled settings path s :=
    settled_new_run hregistered before last hbetween hafter
  have hcontent : s.content = Utf8.encode text := by
    have happended : appended (before ++ .pass last :: between ++ .scan :: after)
        = appended before ++ appended between ++ appended after := by
      simp [appended]
    rw [content_run, happended, htext, hbetween, hafter, List.append_nil, List.append_nil]
    exact List.nil_append _
  refine ⟨⟨replayedRows d clock (Utf8.encode text), ?_, ⟨_, replay_encode .., ?_⟩, ?_, ?_⟩, ?_⟩
  · rw [replay_encode, replayTables, get?_new hmem]
    show Except.ok (List.flatMap _ [_]) = _
    rw [List.flatMap_singleton, hlines]
  · show (List.flatMap _ _).filter _ = _
    rw [filter_isLineOf hmem, hlines]
  · intro later
    have hrows := stampRow_replayedRows clock (Utf8.encode text) hd later
    have hexported := exported_of_settled hsettled hmem later
    rw [hcontent, ← hrows, List.length_map] at hexported
    exact hexported hroom
  · intro row hrow
    exact stampRow_of_mem_replayedRows hd hrow
  · rintro hbackend rfl
    exact openSession_replay hbackend

/-- Settings that enable one table, with room for two rows. -/
def oneTable : RunSettings where
  logging := ⟨"info", "logs", "weltables.log", false⟩
  subscription := ⟨.replay, [], "events.xml", 1000⟩
  tables := ⟨2, ["winevtlog"]⟩
  service := ⟨1000, true⟩

/-- The text of one record, in two pieces. -/
def twoPieces : List Turn :=
  [.append (Utf8.encode "<Event><a>x</a></Ev"), .pass 1, .scan, .append (Utf8.encode "ent>")]

/-- A record written in two pieces is streamed and replayed as one row. -/
theorem streamed_eq_replayed_twoPieces :
    let s := (Stream.new oneTable "events.xml").run (twoPieces ++ .pass 2 :: [] ++ .scan :: [])
    (∃ printed, replay oneTable 9 "events.xml" (.ok (Utf8.encode "<Event><a>x</a></Event>"))
          (some "winevtlog") = .ok (printed.map (rowLine "winevtlog")) ∧
        (rowsNamed "winevtlog" s.exported).map (stampRow 9) = printed) ∧
      openSession oneTable (.ok ()) = .ok (Stream.new oneTable "events.xml").session ∧
      s.exported.map (fun p => (p.1, p.2.length)) = [("winevtlog", 1)] := by
  obtain ⟨⟨printed, hprinted, -, hsame, htimes⟩, hsession⟩ :=
    streamed_eq_replayed oneTable "events.xml" "events.xml" "<Event><a>x</a></Event>" 9 2
      twoPieces [] [] Catalogue.allEvents rfl rfl rfl (by decide) rfl (by decide)
  refine ⟨⟨printed, hprinted, ?_⟩, hsession rfl rfl, rfl⟩
  -- The clock of the replay stands still, so every printed row shows its time.
  have hstill : printed.map (stampRow 9) = printed.map id := by
    refine List.map_congr_left fun row hrow => ?_
    obtain ⟨i, htime⟩ := htimes row hrow
    exact htime
  exact (hsame 9).trans (hstill.trans (List.map_id printed))

end AuditTables.Proofs.CommandLine
