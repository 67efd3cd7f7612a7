import AuditTables.Proofs.Table.ReadableData
import Mathlib.Data.List.Nodup

/-!
# `AuditTables.Proofs.Table.Draining`: rows queued, and rows taken out

Batches of events put rows into the queues of all tables, and a scan takes them out again.
`Drains` is what holds of a table through all of this. The rows that scans have taken from
it, followed by those that still wait, are the rows of all events dispatched so far. It
needs room for them: a table with more rows than its limit may have lost some.
`drains_dispatch` and `drains_scan` are its two step lemmas.

Scans say which table rows are from by its name (`rowsNamed`), so the lemmas about them ask
that names differ. Those of the catalogue do.
-/

set_option autoImplicit false

namespace AuditTables.Proofs.Table

open AuditTables.Event AuditTables.Table
open AuditTables.Proofs.Event

/-! ### Tables and their names -/

/-- Among items with different keys, only one is selected by its key. -/
theorem flatMap_of_key {α β : Type} {key : α → String} {xs : List α} {x : α} {f : α → List β}
    (hkeys : (xs.map key).Nodup) (hx : x ∈ xs) (hother : ∀ x' ∈ xs, key x' ≠ key x → f x' = []) :
    xs.flatMap f = f x := by
  induction xs with
  | nil => cases hx
  | cons y ys ih =>
      obtain ⟨hfresh, hkeys'⟩ := List.nodup_cons.mp hkeys
      rw [List.flatMap_cons]
      rcases List.mem_cons.mp hx with rfl | hx'
      · have hrest : ys.flatMap f = [] := by
          refine List.flatMap_eq_nil_iff.mpr fun x' hx' => ?_
          refine hother x' (List.mem_cons_of_mem x hx') fun heq => hfresh ?_
          exact List.mem_map.mpr ⟨x', hx', heq⟩
        rw [hrest, List.append_nil]
      · have hfirst : f y = [] := by
          refine hother y List.mem_cons_self fun heq => hfresh ?_
          exact List.mem_map.mpr ⟨x, hx', heq.symm⟩
        rw [hfirst, List.nil_append]
        exact ih hkeys' hx' fun x' hx'' => hother x' (List.mem_cons_of_mem y hx'')

/-- The tables of the catalogue have different names. -/
theorem nodup_names_catalogue : (catalogue.map (·.name)).Nodup := by decide

/-- The tables that settings enable. -/
def enabledTables (enabled : List String) : List Definition :=
  catalogue.filter (Registry.enables enabled)

/-- Enabled tables are of the catalogue. -/
theorem mem_catalogue_of_enabled {enabled : List String} {d : Definition}
    (h : d ∈ enabledTables enabled) : d ∈ catalogue := (List.mem_filter.mp h).1

/-- The tables that settings enable have different names. -/
theorem nodup_names_enabled (enabled : List String) :
    ((enabledTables enabled).map (·.name)).Nodup :=
  nodup_names_catalogue.sublist (List.filter_sublist.map _)

/-- The definitions of the tables in a registry. -/
def definitions (r : Registry) : List Definition := r.tables.map (·.definition)

/-- A new registry has the tables that settings enable. -/
theorem definitions_new (limit : Nat) (enabled : List String) :
    definitions (Registry.new limit enabled) = enabledTables enabled := by
  show ((enabledTables enabled).map (LiveTable.new limit)).map (·.definition) = _
  rw [List.map_map]
  exact List.map_id _

/-! ### Batches and scans -/

/-- The tables after a batch. -/
theorem tables_dispatch (r : Registry) (events : List AuditEvent) :
    (r.dispatch events).1.tables = r.tables.map fun t => (t.process events).1 := by
  show (r.tables.map (Registry.dispatchTo · events)).map (·.1) = _
  rw [List.map_map]
  rfl

/-- A batch changes no definition. -/
theorem definitions_dispatch (r : Registry) (events : List AuditEvent) :
    definitions (r.dispatch events).1 = definitions r := by
  rw [definitions, tables_dispatch, List.map_map]
  rfl

/-- A scan changes no definition. -/
theorem definitions_cleared (r : Registry) : definitions r.cleared = definitions r := by
  show (r.tables.map LiveTable.cleared).map (·.definition) = _
  rw [List.map_map]
  rfl

/-- A batch for which there is room pushes nothing out of a queue. -/
theorem items_append_of_le {α : Type} {q : Queue α} {batch : List α}
    (h : q.items.length + batch.length ≤ q.limit) :
    (q.append batch).items = q.items ++ batch := by
  have hexcess : q.excess batch = 0 := Nat.sub_eq_zero_of_le h
  rw [Queue.items_append, hexcess, List.drop_zero]

/-- A batch of no events leaves every table as it is. -/
theorem dispatch_nil (r : Registry) : (r.dispatch []).1 = r := by
  have hprocess : ∀ t : LiveTable, (t.process []).1 = t := by
    intro t
    show LiveTable.mk t.definition (t.queue.append []) = t
    rw [Queue.append_nil]
  have htables := tables_dispatch r []
  simp only [hprocess, List.map_id'] at htables
  exact congrArg Registry.mk htables

/-- What scans have exported from the table of a name. -/
def rowsNamed (name : String) (exported : List (String × List Row)) : List Row :=
  exported.flatMap fun p => if p.1 = name then p.2 else []

/-- What more scans have exported comes last. -/
theorem rowsNamed_append (name : String) (before after : List (String × List Row)) :
    rowsNamed name (before ++ after) = rowsNamed name before ++ rowsNamed name after :=
  List.flatMap_append

/-- A scan exports the rows that wait, also if it leaves tables without rows out. -/
theorem rowsNamed_queuedRows (name : String) (r : Registry) :
    rowsNamed name r.queuedRows
      = r.tables.flatMap fun t => if t.name = name then t.queue.items else [] := by
  obtain ⟨tables⟩ := r
  induction tables with
  | nil => rfl
  | cons t rest ih =>
      have hrest : rowsNamed name (Registry.mk rest).queuedRows = _ := ih
      have hcons : (Registry.mk (t :: rest)).queuedRows
          = (if t.queue.items.isEmpty then [] else [(t.name, t.queue.items)])
            ++ (Registry.mk rest).queuedRows := by
        cases hitems : t.queue.items with
        | nil => simp [Registry.queuedRows, hitems]
        | cons row rows => simp [Registry.queuedRows, hitems]
      rw [hcons, rowsNamed_append, hrest, List.flatMap_cons]
      refine congrArg (· ++ _) ?_
      cases hitems : t.queue.items with
      | nil => simp [rowsNamed]
      | cons row rows => simp [rowsNamed]

/-- A scan exports from the table of a name the rows that wait there. -/
theorem rowsNamed_of_mem {r : Registry} (hnames : r.names.Nodup) {t : LiveTable}
    (ht : t ∈ r.tables) : rowsNamed t.name r.queuedRows = t.queue.items := by
  rw [rowsNamed_queuedRows, flatMap_of_key hnames ht fun t' _ hne => if_neg hne, if_pos rfl]

/-! ### The invariant -/

/-- The rows that scans have taken from each table and those that still wait are the rows
of all events dispatched so far, if there is room for as many. -/
structure Drains (limit : Nat) (r : Registry) (drained : List (String × List Row))
    (taken : List AuditEvent) : Prop where
  limits : ∀ t ∈ r.tables, t.queue.limit = limit
  rows : ∀ t ∈ r.tables, (taken.filterMap (rowOr t.definition)).length ≤ limit →
    rowsNamed t.name drained ++ t.queue.items = taken.filterMap (rowOr t.definition)

/-- A new registry has no rows, like no events. -/
theorem drains_new (limit : Nat) (enabled : List String) :
    Drains limit (Registry.new limit enabled) [] [] := by
  refine ⟨fun t ht => ?_, fun t ht _ => ?_⟩
  · obtain ⟨d, -, rfl⟩ := List.mem_map.mp ht
    rfl
  · obtain ⟨d, -, rfl⟩ := List.mem_map.mp ht
    rfl

/-- A batch of events made of records puts their rows behind those that wait. -/
theorem drains_dispatch {limit : Nat} {r : Registry} {drained : List (String × List Row)}
    {taken events : List AuditEvent} (h : Drains limit r drained taken)
    (hevents : ∀ e ∈ events, FromRecord e) :
    Drains limit (r.dispatch events).1 drained (taken ++ events) := by
  refine ⟨fun t' ht' => ?_, fun t' ht' hroom => ?_⟩
  · rw [tables_dispatch] at ht'
    obtain ⟨t, ht, rfl⟩ := List.mem_map.mp ht'
    exact h.limits t ht
  · rw [tables_dispatch] at ht'
    obtain ⟨t, ht, rfl⟩ := List.mem_map.mp ht'
    have hdefinition : (t.process events).1.definition = t.definition := rfl
    have hrows : (LiveTable.rowsOf t.definition events).1
        = events.filterMap (rowOr t.definition) := by
      rw [rowsOf_of_fromRecord t.definition hevents]
    rw [hdefinition, List.filterMap_append, List.length_append] at hroom
    -- There was room for the rows from before, since there is for all of them.
    have hbefore := h.rows t ht (Nat.le_trans (Nat.le_add_right _ _) hroom)
    have hlength := congrArg List.length hbefore
    rw [List.length_append] at hlength
    have hfits : t.queue.items.length + (LiveTable.rowsOf t.definition events).1.length
        ≤ t.queue.limit := by
      rw [hrows, h.limits t ht]
      omega
    show rowsNamed t.name drained ++ (t.queue.append (LiveTable.rowsOf t.definition events).1).items
      = (taken ++ events).filterMap (rowOr t.definition)
    rw [items_append_of_le hfits, ← List.append_assoc, hbefore, hrows, List.filterMap_append]

/-- A scan moves the rows that wait to those that were taken. -/
theorem drains_scan {limit : Nat} {r : Registry} {drained : List (String × List Row)}
    {taken : List AuditEvent} (hnames : r.names.Nodup) (h : Drains limit r drained taken) :
    Drains limit r.cleared (drained ++ r.queuedRows) taken := by
  refine ⟨fun t' ht' => ?_, fun t' ht' hroom => ?_⟩
  · obtain ⟨t, ht, rfl⟩ := List.mem_map.mp ht'
    exact h.limits t ht
  · obtain ⟨t, ht, rfl⟩ := List.mem_map.mp ht'
    show rowsNamed t.name (drained ++ r.queuedRows) ++ [] = _
    rw [rowsNamed_append, rowsNamed_of_mem hnames ht, List.append_nil]
    exact h.rows t ht hroom

end AuditTables.Proofs.Table
