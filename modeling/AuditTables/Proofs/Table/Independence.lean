import AuditTables.Proofs.Table.Draining

/-!
# `AuditTables.Proofs.Table.Independence`: tables do not influence each other

A service gives batches of events to a registry, and scans take the rows out. The tables of the
registry are worked one after the other, and any of them may fail on a batch.
`tables_independent` says that this does not matter to a table. Whatever batches and scans there
are, the table has the queue that it would have as the only one registered, and every scan hands
out the same rows of it. Each batch is reported as an error once for each table that fails on
it, in the order of the tables. Which tables there are, and in what order, is a matter of the
known names that settings list, and of nothing else about the list.

The proof looks at some of the tables only. `restrict` leaves out all tables but those of some
names, and it commutes with a batch (`dispatch_restrict`), with a scan
(`queuedRows_restrict`, `cleared_restrict`) and so with any run (`run_restrict`). Nothing in
that depends on which names they are.
-/

set_option autoImplicit false

namespace AuditTables.Proofs.Table

open AuditTables.Table

/-! ### Runs of a service -/

/-- What a service does to a registry. -/
inductive Visit where
  /-- A batch of events is given to every table. -/
  | dispatch (events : List AuditEvent)
  /-- A scan takes all rows that wait. -/
  | scan

/-- A registry in service, and what each scan so far has handed out. -/
structure Service where
  registry : Registry
  scans : List (List (String × List Row))

namespace Service

/-- A registry that has not been visited. -/
def new (r : Registry) : Service := ⟨r, []⟩

/-- One visit. -/
def step (s : Service) : Visit → Service
  | .dispatch events => { s with registry := (s.registry.dispatch events).1 }
  | .scan =>
    let (rows, registry) := s.registry.drain
    ⟨registry, s.scans ++ [rows]⟩

/-- Visits one after the other. -/
def run (s : Service) (visits : List Visit) : Service := visits.foldl step s

end Service

/-! ### Some of the tables -/

section Restriction

variable (names : String → Bool)

/-- A registry without the tables of other names. -/
def restrict (r : Registry) : Registry := ⟨r.tables.filter fun t => names t.name⟩

/-- What a scan handed out of tables of some names. -/
def restrictRows (rows : List (String × List Row)) : List (String × List Row) :=
  rows.filter fun p => names p.1

/-- A service of the tables of some names. -/
def restrictService (s : Service) : Service :=
  ⟨restrict names s.registry, s.scans.map (restrictRows names)⟩

/-- A batch does to a table what it does without the others. -/
theorem dispatch_restrict (r : Registry) (events : List AuditEvent) :
    ((restrict names r).dispatch events).1 = restrict names (r.dispatch events).1 := by
  have htables : ((restrict names r).dispatch events).1.tables
      = (r.dispatch events).1.tables.filter fun t => names t.name := by
    rw [tables_dispatch, tables_dispatch, List.filter_map]
    -- Processing keeps the name, so it does not matter which of the two is looked at.
    rfl
  exact congrArg Registry.mk htables

/-- A scan empties a table as it does without the others. -/
theorem cleared_restrict (r : Registry) :
    (restrict names r).cleared = restrict names r.cleared := by
  refine congrArg Registry.mk ?_
  show (r.tables.filter _).map LiveTable.cleared = (r.tables.map LiveTable.cleared).filter _
  rw [List.filter_map]
  rfl

/-- A scan hands out of a table what it does without the others. -/
theorem queuedRows_restrict (r : Registry) :
    (restrict names r).queuedRows = restrictRows names r.queuedRows := by
  show ((r.tables.filter _).filter _).map _ = ((r.tables.filter _).map _).filter _
  rw [List.filter_map, List.filter_filter, List.filter_filter]
  refine congrArg (List.map _) (List.filter_congr fun t _ => ?_)
  exact Bool.and_comm _ _

/-- A visit does to a table what it does without the others. -/
theorem step_restrict (s : Service) (visit : Visit) :
    (restrictService names s).step visit = restrictService names (s.step visit) := by
  cases visit with
  | dispatch events =>
      show Service.mk ((restrict names s.registry).dispatch events).1 _ = _
      rw [dispatch_restrict]
      rfl
  | scan =>
      show Service.mk (restrict names s.registry).cleared
        (s.scans.map (restrictRows names) ++ [(restrict names s.registry).queuedRows]) = _
      rw [cleared_restrict, queuedRows_restrict, ← List.map_singleton, ← List.map_append]
      rfl

/-- Visits do to a table what they do without the others, by induction on the visits. -/
theorem run_restrict (s : Service) (visits : List Visit) :
    (restrictService names s).run visits = restrictService names (s.run visits) := by
  induction visits generalizing s with
  | nil => rfl
  | cons visit rest ih =>
      show ((restrictService names s).step visit).run rest = _
      rw [step_restrict, ih]
      rfl

end Restriction

/-- A visit changes no definition. -/
theorem definitions_step (s : Service) (visit : Visit) :
    definitions (s.step visit).registry = definitions s.registry := by
  cases visit with
  | dispatch events => exact definitions_dispatch s.registry events
  | scan => exact definitions_cleared s.registry

/-- Visits change no definition. -/
theorem definitions_run (s : Service) (visits : List Visit) :
    definitions (s.run visits).registry = definitions s.registry := by
  induction visits generalizing s with
  | nil => rfl
  | cons visit rest ih => exact (ih (s.step visit)).trans (definitions_step s visit)

/-! ### One table -/

/-- Names that are one name. -/
def isNamed (name : String) (other : String) : Bool := other == name

/-- The table of a name is found among the tables of that name. -/
theorem get?_restrict (name : String) (r : Registry) :
    (restrict (isNamed name) r).get? name = r.get? name := by
  show (r.tables.filter _).find? _ = r.tables.find? _
  simp only [List.find?_filter, isNamed, and_self, Bool.decide_eq_true]

/-- Settings that name one table enable it and no other. -/
theorem enabledTables_singleton {d : Definition} (h : d ∈ catalogue) :
    enabledTables [d.name] = [d] := by
  have hall : ∀ d ∈ catalogue, enabledTables [d.name] = [d] := by decide
  exact hall d h

/-- Settings that name tables enable those of the names. -/
theorem enables_iff {enabled : List String} (h : enabled ≠ []) (d : Definition) :
    Registry.enables enabled d = true ↔ d.name ∈ enabled := by
  have hlisted : enabled.isEmpty = false := List.isEmpty_eq_false_iff.mpr h
  rw [Registry.enables, hlisted, Bool.false_or, List.contains_iff_mem]

/-- Of the tables that settings enable, those of one name are registered if it is the only
name. -/
theorem restrict_new (limit : Nat) {enabled : List String} {d : Definition}
    (henabled : Registry.enables enabled d = true) :
    restrict (isNamed d.name) (Registry.new limit enabled) = Registry.new limit [d.name] := by
  refine congrArg Registry.mk ?_
  show ((catalogue.filter (Registry.enables enabled)).map (LiveTable.new limit)).filter _ = _
  rw [List.filter_map, List.filter_filter]
  refine congrArg (List.map _) (List.filter_congr fun d' _ => ?_)
  -- A table of the name is enabled, since settings enable tables by their names.
  rw [Bool.eq_iff_iff, enables_iff (List.cons_ne_nil _ _), List.mem_singleton, Bool.and_eq_true]
  show (d'.name == d.name) = true ∧ Registry.enables enabled d' = true ↔ d'.name = d.name
  rw [beq_iff_eq, and_iff_left_iff_imp]
  intro hname
  rw [Registry.enables, hname]
  exact henabled

/-- A registry with one definition has one table. -/
theorem tables_of_definitions {r : Registry} {d : Definition} (h : definitions r = [d]) :
    ∃ t, t.definition = d ∧ r.tables = [t] := by
  obtain ⟨t, htables, hdefinition⟩ := List.map_eq_singleton_iff.mp h
  exact ⟨t, hdefinition, htables⟩

/-! ### Failures -/

/-- The failure of a table on a batch, if it fails. -/
def failureOn (events : List AuditEvent) (t : LiveTable) : Option Failure :=
  (t.process events).2.2

/-- The errors among what is reported of a batch are the failures of the tables, one for each
table that fails, in the order of the tables. -/
theorem errors_dispatch (r : Registry) (events : List AuditEvent) :
    (r.dispatch events).2.filter (fun n => n.level = .error)
      = r.tables.filterMap fun t => (failureOn events t).map (.tableFailed t.name) := by
  have htable : ∀ t : LiveTable,
      (Registry.dispatchTo t events).2.filter (fun n => n.level = .error)
        = ((failureOn events t).map (Notice.tableFailed t.name)).toList := by
    intro t
    have hdropped : (dropNotices t.name t.queue (LiveTable.rowsOf t.definition events).1).filter
        (fun n => n.level = .error) = [] := by
      rw [dropNotices_eq]
      split <;> rfl
    show (dropNotices _ _ _ ++ t.failureNotices (failureOn events t)).filter _ = _
    rw [List.filter_append, hdropped, List.nil_append]
    cases failureOn events t <;> rfl
  show ((r.tables.map (Registry.dispatchTo · events)).flatMap (·.2)).filter _ = _
  rw [List.flatMap_map, List.filter_flatMap, List.filterMap_eq_flatMap_toList]
  exact congrArg (r.tables.flatMap ·) (funext htable)

/-! ### Every table by itself -/

/-- An enabled table has in a registry the queue that it has in a registry of its own, and each
scan has handed out the same rows of it. -/
theorem run_alone (limit : Nat) {enabled : List String} {d : Definition} (hd : d ∈ catalogue)
    (henabled : Registry.enables enabled d = true) (visits : List Visit) :
    let all := (Service.new (Registry.new limit enabled)).run visits
    let alone := (Service.new (Registry.new limit [d.name])).run visits
    (∃ t, t.definition = d ∧ all.registry.get? d.name = some t ∧ alone.registry.tables = [t]) ∧
      all.scans.map (restrictRows (isNamed d.name)) = alone.scans := by
  intro all alone
  have halone : alone = restrictService (isNamed d.name) all := by
    have hnew : Service.new (Registry.new limit [d.name])
        = restrictService (isNamed d.name) (Service.new (Registry.new limit enabled)) :=
      congrArg (Service.mk · []) (restrict_new limit henabled).symm
    show (Service.new (Registry.new limit [d.name])).run visits = _
    rw [hnew, run_restrict]
  refine ⟨?_, (congrArg Service.scans halone).symm⟩
  have hdefinitions : definitions alone.registry = [d] := by
    rw [definitions_run]
    exact (definitions_new limit [d.name]).trans (enabledTables_singleton hd)
  obtain ⟨t, hdefinition, htables⟩ := tables_of_definitions hdefinitions
  refine ⟨t, hdefinition, ?_, htables⟩
  have hname : (t.name == d.name) = true := by
    rw [LiveTable.name, hdefinition]
    exact beq_self_eq_true d.name
  have hregistry : restrict (isNamed d.name) all.registry = alone.registry :=
    (congrArg Service.registry halone).symm
  rw [← get?_restrict, hregistry, Registry.get?, htables]
  exact List.find?_cons_of_pos hname

/-- Settings that name the same known tables register the same ones, in the same order. -/
theorem new_eq_of_same_names (limit : Nat) {enabled enabled' : List String} (h : enabled ≠ [])
    (h' : enabled' ≠ []) (hsame : ∀ d ∈ catalogue, d.name ∈ enabled' ↔ d.name ∈ enabled) :
    Registry.new limit enabled' = Registry.new limit enabled := by
  refine congrArg (fun ds => Registry.mk (ds.map (LiveTable.new limit)))
    (List.filter_congr fun d hd => ?_)
  rw [Bool.eq_iff_iff, enables_iff h', enables_iff h]
  exact hsame d hd

/-- Tables do not influence each other. Take any settings, and any batches and scans. Then the
registry has every table that the settings enable with the queue that it has in a registry of
its own, and each scan has handed out the same rows of it. A further batch is reported as an
error once for each table that fails on it, in the order of the tables. Other settings register
the same tables in the same order if they name the same known tables, be it none, and an empty
list registers all eight. -/
theorem tables_independent (limit : Nat) (enabled : List String) (visits : List Visit) :
    let all := (Service.new (Registry.new limit enabled)).run visits
    (∀ d ∈ catalogue, Registry.enables enabled d = true →
      let alone := (Service.new (Registry.new limit [d.name])).run visits
      (∃ t, t.definition = d ∧ all.registry.get? d.name = some t ∧
        alone.registry.tables = [t]) ∧
      all.scans.map (restrictRows (isNamed d.name)) = alone.scans) ∧
    (∀ events, (all.registry.dispatch events).2.filter (fun n => n.level = .error)
      = all.registry.tables.filterMap fun t =>
          (failureOn events t).map (.tableFailed t.name)) ∧
    (∀ enabled', enabled ≠ [] → enabled' ≠ [] →
      (∀ d ∈ catalogue, d.name ∈ enabled' ↔ d.name ∈ enabled) →
      Registry.new limit enabled' = Registry.new limit enabled) ∧
    (Registry.new limit []).tables = catalogue.map (LiveTable.new limit) ∧
    catalogue.length = 8 := by
  intro all
  refine ⟨?_, errors_dispatch all.registry, ?_, ?_, rfl⟩
  · intro d hd henabled
    exact run_alone limit hd henabled visits
  · intro enabled' hlisted hlisted' hsame
    exact new_eq_of_same_names limit hlisted hlisted' hsame
  · exact congrArg (List.map _) (List.filter_true catalogue)

/-- An account that logged on, with data that is no JSON. -/
def brokenLogon : AuditEvent := { AuditEvent.blank with eventId := 4624, data := "broken" }

/-- The table of logons fails on such an event, and the table of all events shows it as it
would by itself. The order of the two names and an unknown one make no difference. -/
theorem tables_independent_brokenLogon :
    let visits := [.dispatch [brokenLogon], .scan]
    let all := (Service.new (Registry.new 5 ["winevtlog", "account_logon"])).run visits
    let alone := (Service.new (Registry.new 5 ["winevtlog"])).run visits
    all.scans.map (restrictRows (isNamed "winevtlog")) = alone.scans ∧
      alone.scans.map (·.map fun p => (p.1, p.2.length)) = [[("winevtlog", 1)]] ∧
      (failureOn [brokenLogon] (LiveTable.new 5 Catalogue.accountLogon)).isSome = true ∧
      Registry.new 5 ["account_logon", "bogus", "winevtlog"]
        = Registry.new 5 ["winevtlog", "account_logon"] := by
  intro visits all alone
  obtain ⟨hevery, -, hnames, -⟩ :=
    tables_independent 5 ["winevtlog", "account_logon"] visits
  have hlogs := hevery Catalogue.allEvents (by decide) (by decide)
  exact ⟨hlogs.2, rfl, rfl, hnames _ (List.cons_ne_nil _ _) (List.cons_ne_nil _ _) (by decide)⟩

end AuditTables.Proofs.Table
