import AuditTables.Proofs.Event.DataFields
import AuditTables.Proofs.Event.Integer
import AuditTables.Proofs.Xml.RoundTrip

/-!
# `AuditTables.Proofs.Event.RecordRoundTrip`: a record reads back as what it was written from

`Record` is what can be put into a record, each part of it or nothing in its place. `Holds` says
what the tree of such a record looks like. Its `System` element has the elements of the parts that
are there (`Record.header`), in any order and among any elements of other names, and its
`EventData` element has one `Data` element for each pair.

The main theorem, `read_record`, puts this together with the documents of a tree (`Markup`), the
numerals of a number (`Numeral`) and the fields of named texts (`Collects`). Every document of a
record reads as the event of its parts (`Record.event`), with the defaults of the event for what
is not there, and each key that occurs once has its text among the data fields.

The order of the elements does not matter since no two of them share a name
(`child?_of_slot`). The nine elements that are looked up are treated alike, as slots of a name
that are filled or not.
-/

set_option autoImplicit false

namespace AuditTables.Proofs.Event

open AuditTables.Decimal AuditTables.Event AuditTables.Xml
open AuditTables.Proofs.Xml

/-! ### Records and their trees -/

/-- A number of 64 bits, and a text that it is written as. -/
structure WholeNumber where
  value : Int
  raw : String
  inRange : inInt64 value = true
  numeral : Numeral raw.toList value

/-- Every number of 64 bits can be put into a record. -/
theorem exists_wholeNumber {n : Int} (h : inInt64 n = true) : ∃ w : WholeNumber, w.value = n := by
  obtain ⟨raw, hraw⟩ := exists_numeral n
  exact ⟨⟨n, raw, h, hraw⟩, rfl⟩

/-- What the element of the provider says. -/
structure ProviderElement where
  name : Option String
  guid : Option String

/-- What the element of the execution says. -/
structure ExecutionElement where
  processId : Option WholeNumber
  threadId : Option WholeNumber

/-- What a record says. Each part may be left out. -/
structure Record where
  provider : Option ProviderElement
  eventId : Option WholeNumber
  level : Option WholeNumber
  task : Option WholeNumber
  keywords : Option String
  systemTime : Option String
  execution : Option ExecutionElement
  channel : Option String
  computer : Option String
  data : List (String × String)

/-- The attributes that are there. -/
def given (entries : List (String × Option String)) : List (String × String) :=
  entries.filterMap fun p => p.2.map (p.1, ·)

namespace Record

/-- The elements of a `System` element by their names, each with its attributes and its text if it
is there. -/
def slots (r : Record) : List (String × Option (List (String × String) × String)) :=
  [("Provider", r.provider.map fun p => (given [("Name", p.name), ("Guid", p.guid)], "")),
    ("EventID", r.eventId.map fun n => ([], n.raw)),
    ("Level", r.level.map fun n => ([], n.raw)),
    ("Task", r.task.map fun n => ([], n.raw)),
    ("Keywords", r.keywords.map ([], ·)),
    ("TimeCreated", r.systemTime.map fun time => ([("SystemTime", time)], "")),
    ("Execution", r.execution.map fun e =>
      (given [("ProcessID", e.processId.map (·.raw)), ("ThreadID", e.threadId.map (·.raw))], "")),
    ("Channel", r.channel.map ([], ·)),
    ("Computer", r.computer.map ([], ·))]

/-- The elements that are there. -/
def header (r : Record) : List Node :=
  r.slots.filterMap fun slot => slot.2.map fun element => .mk slot.1 element.1 element.2 []

/-- The elements of the data fields. -/
def dataElements (r : Record) : List Node := r.data.map fun p => .mk "Data" [("Name", p.1)] p.2 []

/-- The event that a record stands for, up to its data text. -/
def event (r : Record) (captureTime : Int) (data : String) : AuditEvent where
  captureTime := captureTime
  eventTime := r.systemTime.getD ""
  source := r.channel.getD ""
  providerName := (r.provider.bind (·.name)).getD ""
  providerGuid := (r.provider.bind (·.guid)).getD ""
  computerName := r.computer.getD ""
  eventId := (r.eventId.map (·.value)).getD 0
  taskId := (r.task.map (·.value)).getD (-1)
  level := (r.level.map (·.value)).getD (-1)
  processId := ((r.execution.bind (·.processId)).map (·.value)).getD (-1)
  threadId := ((r.execution.bind (·.threadId)).map (·.value)).getD (-1)
  keywords := r.keywords.getD ""
  data := data

end Record

/-- The names of the elements that are looked up in a `System` element. -/
def slotNames : List String :=
  ["Provider", "EventID", "Level", "Task", "Keywords", "TimeCreated", "Execution", "Channel",
    "Computer"]

/-- A tree is one of a record: the `System` element has the record's elements, in any order among
others, and the `EventData` element those of its data. The names are those of the tree, without
prefixes: `x:Level` is looked up as `Level`, so it is not an element of another name. -/
structure Holds (r : Record) (tree : Node) : Prop where
  root : tree.name = "Event"
  parts : ∃ system data others, tree.children.Perm (system :: data :: others) ∧
    (∀ other ∈ others, other.name ∉ ["System", "EventData"]) ∧
    system.name = "System" ∧ data.name = "EventData" ∧
    (∃ others, system.children.Perm (r.header ++ others) ∧
      ∀ other ∈ others, other.name ∉ slotNames) ∧
    data.children = r.dataElements

/-! ### Look-ups -/

/-- Among elements in any order, a name finds the one element that has it. -/
theorem child?_of_unique {node child : Node} {name : String} (hmem : child ∈ node.children)
    (hname : child.name = name) (hunique : ∀ c ∈ node.children, c.name = name → c = child) :
    node.child? name = some child := by
  cases hfind : node.children.find? fun c => c.name == name with
  | none =>
      have hnot := List.find?_eq_none.mp hfind child hmem
      exact absurd (beq_iff_eq.mpr hname) hnot
  | some found =>
      have hfound : found.name = name := by simpa using List.find?_some hfind
      rw [Node.child?, hfind, hunique found (List.mem_of_find?_eq_some hfind) hfound]

theorem child?_of_absent {node : Node} {name : String}
    (h : ∀ c ∈ node.children, c.name ≠ name) : node.child? name = none := by
  refine List.find?_eq_none.mpr ?_
  intro c hc
  simpa using h c hc

variable {r : Record}

theorem nodup_slots (r : Record) : (r.slots.map (·.1)).Nodup := by
  show slotNames.Nodup
  decide

/-- An element of the header is that of its slot. -/
theorem mem_header {node : Node} :
    node ∈ r.header ↔ ∃ slot ∈ r.slots, ∃ element, slot.2 = some element ∧
      Node.mk slot.1 element.1 element.2 [] = node := by
  simp only [Record.header, List.mem_filterMap, Option.map_eq_some_iff]

/-- A slot is found as it is filled, whatever the order and the other elements are. -/
theorem child?_of_slot {system : Node} {others : List Node}
    (hperm : system.children.Perm (r.header ++ others))
    (hothers : ∀ other ∈ others, other.name ∉ slotNames)
    {slot : String × Option (List (String × String) × String)} (hslot : slot ∈ r.slots) :
    system.child? slot.1 = slot.2.map fun element => .mk slot.1 element.1 element.2 [] := by
  have hname : slot.1 ∈ slotNames := List.mem_map.mpr ⟨slot, hslot, rfl⟩
  -- An element of the name of the slot can only be the one that the slot is filled with.
  have hfilled : ∀ c ∈ system.children, c.name = slot.1 →
      ∃ element, slot.2 = some element ∧ Node.mk slot.1 element.1 element.2 [] = c := by
    intro c hc hcname
    rcases List.mem_append.mp (hperm.mem_iff.mp hc) with hheader | hother
    · obtain ⟨slot', hslot', element, helement, rfl⟩ := mem_header.mp hheader
      have hslots : slot' = slot := List.inj_on_of_nodup_map (nodup_slots r) hslot' hslot hcname
      exact ⟨element, hslots ▸ helement, hslots ▸ rfl⟩
    · exact absurd (hcname ▸ hname) (hothers c hother)
  cases helement : slot.2 with
  | none =>
      refine child?_of_absent ?_
      intro c hc hcname
      obtain ⟨element, hsome, -⟩ := hfilled c hc hcname
      rw [helement] at hsome
      cases hsome
  | some element =>
      refine child?_of_unique (hperm.mem_iff.mpr (List.mem_append_left _ ?_)) rfl ?_
      · exact mem_header.mpr ⟨slot, hslot, element, helement, rfl⟩
      · intro c hc hcname
        obtain ⟨element', hsome, rfl⟩ := hfilled c hc hcname
        rw [helement] at hsome
        rw [Option.some.inj hsome]

/-- A numeral that is there reads as its number, and a default stands for one that is not. -/
theorem integerOr_raw (default : Int) (n : Option WholeNumber) :
    AuditEvent.integerOr default (n.map (·.raw)) = (n.map (·.value)).getD default := by
  cases n with
  | none => rfl
  | some n =>
      show (readInteger n.raw).getD default = n.value
      rw [readInteger_of_numeral n.numeral n.inRange]
      rfl

/-- Of two attributes, each is found if it is there. -/
theorem lookup_given {key key' : String} (hne : key ≠ key') (value value' : Option String) :
    (given [(key, value), (key', value')]).lookup key = value ∧
      (given [(key, value), (key', value')]).lookup key' = value' := by
  have hne' : (key' == key) = false := beq_eq_false_iff_ne.mpr hne.symm
  have hne'' : (key == key') = false := beq_eq_false_iff_ne.mpr hne
  cases value <;> cases value' <;> simp [given, List.lookup_cons, hne', hne'']

/-! ### The event of a tree -/

/-- The two parts of a tree are found by their names. -/
theorem child?_of_parts {tree system data : Node} {others : List Node}
    (hperm : tree.children.Perm (system :: data :: others))
    (hothers : ∀ other ∈ others, other.name ∉ ["System", "EventData"])
    (hsystem : system.name = "System") (hdata : data.name = "EventData") :
    tree.child? "System" = some system ∧ tree.child? "EventData" = some data := by
  have hparts : ∀ c ∈ tree.children, c.name ∈ ["System", "EventData"] → c = system ∨ c = data := by
    intro c hc hname
    rcases List.mem_cons.mp (hperm.mem_iff.mp hc) with rfl | hc
    · exact .inl rfl
    · rcases List.mem_cons.mp hc with rfl | hc
      · exact .inr rfl
      · exact absurd hname (hothers c hc)
  constructor
  · refine child?_of_unique (hperm.mem_iff.mpr List.mem_cons_self) hsystem ?_
    intro c hc hname
    rcases hparts c hc (by simp [hname]) with rfl | rfl
    · rfl
    · exact absurd (hdata.symm.trans hname) (by decide)
  · refine child?_of_unique (hperm.mem_iff.mpr (List.mem_cons_of_mem _ List.mem_cons_self)) hdata ?_
    intro c hc hname
    rcases hparts c hc (by simp [hname]) with rfl | rfl
    · exact absurd (hsystem.symm.trans hname) (by decide)
    · rfl

/-- The named texts of a tree are the pairs of its record. -/
theorem namedTexts_of_holds {tree : Node} (h : Holds r tree) :
    AuditEvent.namedTexts tree = r.data := by
  obtain ⟨system, data, others, hperm, hothers, hsystem, hdata, -, helements⟩ := h.parts
  have hchild := (child?_of_parts hperm hothers hsystem hdata).2
  simp only [AuditEvent.namedTexts, hchild, helements, Record.dataElements, List.map_map]
  refine (List.map_congr_left ?_).trans (List.map_id r.data)
  intro p _
  rfl

/-- A slot is found in the tree of its record. -/
theorem find?_of_holds {tree : Node} (h : Holds r tree)
    {slot : String × Option (List (String × String) × String)} (hslot : slot ∈ r.slots) :
    tree.find? ["System", slot.1]
      = slot.2.map fun element => .mk slot.1 element.1 element.2 [] := by
  obtain ⟨system, data, others, hperm, hothers, hsystem, hdata, ⟨extra, hheader, hextra⟩, -⟩ :=
    h.parts
  rw [Node.find?_cons, (child?_of_parts hperm hothers hsystem hdata).1, Option.bind_some,
    Node.find?_cons, child?_of_slot hheader hextra hslot]
  cases slot.2 <;> rfl

/-- The event of a tree is that of its record. -/
theorem ofTree_of_holds {tree : Node} (h : Holds r tree) (captureTime : Int) :
    AuditEvent.ofTree captureTime tree
      = r.event captureTime (Fields.ofTexts r.data).write := by
  have htext : ∀ slot ∈ r.slots, tree.textAt? ["System", slot.1] = slot.2.map (·.2) := by
    intro slot hslot
    rw [Node.textAt?, find?_of_holds h hslot, Option.map_map]
    rfl
  have hattribute : ∀ slot ∈ r.slots, ∀ key, tree.attributeAt? ["System", slot.1] key
      = slot.2.bind fun element => element.1.lookup key := by
    intro slot hslot key
    rw [Node.attributeAt?, find?_of_holds h hslot, Option.bind_map]
    rfl
  -- Each of the nine slots in turn, as `slots` lists them.
  simp only [Record.slots, List.forall_mem_cons, Option.map_map, Function.comp_def,
    Option.map_id'] at htext
  simp only [Record.slots, List.forall_mem_cons, Option.bind_map, Function.comp_def] at hattribute
  obtain ⟨-, heventId, hlevel, htask, hkeywords, -, -, hchannel, hcomputer, -⟩ := htext
  obtain ⟨hprovider, -, -, -, -, htime, hexecution, -⟩ := hattribute
  have hname : tree.attributeAt? ["System", "Provider"] "Name" = r.provider.bind (·.name) := by
    rw [hprovider]
    exact congrArg _ (funext fun p => (lookup_given (by decide) p.name p.guid).1)
  have hguid : tree.attributeAt? ["System", "Provider"] "Guid" = r.provider.bind (·.guid) := by
    rw [hprovider]
    exact congrArg _ (funext fun p => (lookup_given (by decide) p.name p.guid).2)
  have hprocess : tree.attributeAt? ["System", "Execution"] "ProcessID"
      = (r.execution.bind (·.processId)).map (·.raw) := by
    rw [hexecution, Option.map_bind]
    exact congrArg _ (funext fun e => (lookup_given (by decide) _ _).1)
  have hthread : tree.attributeAt? ["System", "Execution"] "ThreadID"
      = (r.execution.bind (·.threadId)).map (·.raw) := by
    rw [hexecution, Option.map_bind]
    exact congrArg _ (funext fun e => (lookup_given (by decide) _ _).2)
  have htime' : tree.attributeAt? ["System", "TimeCreated"] "SystemTime" = r.systemTime := by
    rw [htime]
    cases r.systemTime <;> rfl
  simp only [AuditEvent.ofTree, Record.event, heventId, hlevel, htask, hkeywords, hchannel,
    hcomputer, hname, hguid, hprocess, hthread, htime', integerOr_raw, namedTexts_of_holds h]

/-! ### Every record can be written -/

theorem sublist_keys_given (entries : List (String × Option String)) :
    ((given entries).map (·.1)).Sublist (entries.map (·.1)) := by
  induction entries with
  | nil => exact .slnil
  | cons entry rest ih =>
      obtain ⟨key, value⟩ := entry
      cases value with
      | none => exact ih.cons key
      | some value => exact ih.cons_cons key

/-- The keys of the attributes in a header. -/
def attributeKeys : List String := ["Name", "Guid", "SystemTime", "ProcessID", "ThreadID"]

/-- The attributes of a slot have different keys. -/
theorem keys_of_slot (r : Record) : ∀ slot ∈ r.slots, ∀ element, slot.2 = some element →
    (element.1.map (·.1)).Nodup ∧ ∀ key ∈ element.1.map (·.1), key ∈ attributeKeys := by
  have hpair : ∀ key ∈ attributeKeys, ∀ key' ∈ attributeKeys, key ≠ key' →
      ∀ value value' : Option String,
        ((given [(key, value), (key', value')]).map (·.1)).Nodup ∧
          ∀ k ∈ (given [(key, value), (key', value')]).map (·.1), k ∈ attributeKeys := by
    intro key hkey key' hkey' hne value value'
    have hsublist := sublist_keys_given [(key, value), (key', value')]
    refine ⟨List.Nodup.sublist hsublist (by simpa using hne), ?_⟩
    intro k hk
    have hmem : k = key ∨ k = key' := by simpa using hsublist.subset hk
    rcases hmem with rfl | rfl
    · exact hkey
    · exact hkey'
  simp only [Record.slots, List.forall_mem_cons, Option.map_eq_some_iff]
  refine ⟨?provider, ?_, ?_, ?_, ?_, ?time, ?execution, ?_, ?_, nofun⟩
  case provider =>
    rintro _ ⟨p, -, rfl⟩
    exact hpair "Name" (by decide) "Guid" (by decide) (by decide) p.name p.guid
  case time =>
    rintro _ ⟨time, -, rfl⟩
    exact ⟨List.nodup_singleton _, by simp [attributeKeys]⟩
  case execution =>
    rintro _ ⟨e, -, rfl⟩
    exact hpair "ProcessID" (by decide) "ThreadID" (by decide) (by decide) _ _
  -- The other slots have a text and no attributes.
  all_goals
    rintro _ ⟨_, -, rfl⟩
    exact ⟨List.nodup_nil, nofun⟩

/-- The names of elements and attributes in a record are made of letters. -/
theorem isName_of_mem {name : String} (h : name ∈ "Event" :: "System" :: "EventData" :: "Data"
      :: (slotNames ++ attributeKeys)) : IsName name.toList := by
  have hall : ∀ name ∈ "Event" :: "System" :: "EventData" :: "Data" :: (slotNames ++ attributeKeys),
      name.toList ≠ [] ∧ ∀ c ∈ name.toList, c.isAlpha = true := by decide
  exact ⟨(hall name h).1, (hall name h).2⟩

/-- There is a tree of every record, and it can be written. -/
theorem exists_holds (r : Record) :
    ∃ tree : Node, Holds r tree ∧ ∃ document : String, Markup [tree] document.toList := by
  have hheader : ∀ node ∈ r.header, WellNamed node := by
    intro node hnode
    obtain ⟨slot, hslot, element, helement, rfl⟩ := mem_header.mp hnode
    obtain ⟨hnodup, hkeys⟩ := keys_of_slot r slot hslot element helement
    have hname : slot.1 ∈ slotNames := List.mem_map.mpr ⟨slot, hslot, rfl⟩
    refine .mk (isName_of_mem (by simp [hname])) (fun p hp => isName_of_mem ?_) hnodup nofun
    simp [hkeys p.1 (List.mem_map.mpr ⟨p, hp, rfl⟩)]
  have hdata : ∀ node ∈ r.dataElements, WellNamed node := by
    intro node hnode
    obtain ⟨p, -, rfl⟩ := List.mem_map.mp hnode
    have hkey : IsName "Name".toList := isName_of_mem (by decide)
    refine .mk (isName_of_mem (by decide)) ?_ (List.nodup_singleton _) nofun
    intro entry hentry
    obtain rfl := List.mem_singleton.mp hentry
    exact hkey
  let system : Node := .mk "System" [] "" r.header
  let data : Node := .mk "EventData" [] "" r.dataElements
  have hwell : WellNamed (.mk "Event" [] "" [system, data]) := by
    refine .mk (isName_of_mem (by decide)) nofun List.nodup_nil ?_
    intro child hchild
    rcases List.mem_cons.mp hchild with rfl | hchild
    · exact .mk (isName_of_mem (by decide)) nofun List.nodup_nil hheader
    · obtain rfl := List.mem_singleton.mp hchild
      exact .mk (isName_of_mem (by decide)) nofun List.nodup_nil hdata
  have hholds : Holds r (.mk "Event" [] "" [system, data]) := by
    refine ⟨rfl, system, data, [], .refl _, nofun, rfl, rfl, ⟨[], ?_, nofun⟩, rfl⟩
    rw [List.append_nil]
    exact .refl _
  obtain ⟨document, hdocument⟩ := exists_rendered hwell
  refine ⟨_, hholds, String.ofList document, ?_⟩
  rw [String.toList_ofList]
  exact markup_of_rendered hdocument

/-! ### The main theorem -/

/-- A record reads back as what it was written from. Every record can be written, and every
document of it, whatever the order of its elements, the elements between them, the numerals and the
layout, reads as the event of its parts, with defaults for the parts that are left out. The data
text of the event reads as fields that show under each key that occurs once its text. The numbers
in a record may be any of 64 bits. -/
theorem read_record (r : Record) :
    (∃ tree, Holds r tree ∧ ∃ document : String, Markup [tree] document.toList) ∧
    (∀ tree, Holds r tree → ∀ document : String, Markup [tree] document.toList →
      ∀ captureTime, ∃ data,
        AuditEvent.read captureTime document = .ok (r.event captureTime data) ∧
        ∃ fields, Fields.read data = .ok fields ∧
          ∀ key value, (key, value) ∈ r.data → (r.data.map (·.1)).count key = 1 →
            fields.text? key = some value) ∧
    ∀ n, inInt64 n = true → ∃ number : WholeNumber, number.value = n := by
  refine ⟨exists_holds r, ?_, fun _ => exists_wholeNumber⟩
  intro tree hholds document hdocument captureTime
  have hcollects := collects_ofTexts r.data
  refine ⟨_, ?_, _, read_write_of_collects hcollects, ?_⟩
  · rw [AuditEvent.read, AuditEvent.readTree, readDocument_of_markup hdocument]
    exact congrArg Except.ok (ofTree_of_holds hholds captureTime)
  · intro key value hmem hcount
    rw [Fields.text?, hcollects.get?, textsOf_of_count hmem hcount]
    rfl

/-- The number -31, written in hexadecimal. -/
def threadNumber : WholeNumber where
  value := -31
  raw := "0x-1f"
  inRange := by decide
  numeral := .hexadecimal (.inl rfl) (.minus (@Unsigned.mk 16 ['1', 'f'] [1, 15] (by decide)
    (.cons ⟨by decide, by decide⟩ (.cons ⟨by decide, by decide⟩ .nil))))

/-- A record with little more than a number and a data field. -/
def sparse : Record where
  provider := none
  eventId := none
  level := none
  task := none
  keywords := none
  systemTime := none
  execution := some ⟨none, some threadNumber⟩
  channel := none
  computer := none
  data := [("k", "1<2")]

/-- The system element of a document of it, with an element of another name that has a prefix. -/
def sparseSystem : String := "<System><x:A/><Execution ThreadID='0x-1f' /></System>"

/-- The data element, with a character that is escaped. -/
def sparseData : String := "<EventData><Data Name=\"k\">1&lt;2</Data></EventData>"

/-- The trees of the two elements. -/
def sparseParts : List Node :=
  [.mk "EventData" [] "" [.mk "Data" [("Name", "k")] "1<2" []],
    .mk "System" [] "" [.mk "A" [] "" [], .mk "Execution" [("ThreadID", "0x-1f")] "" []]]

/-- The record reads back from the document, whose elements are in another order than usual. -/
theorem read_record_sparse :
    let document := "<Event>" ++ sparseData ++ sparseSystem ++ "</Event>"
    ∃ tree, Holds sparse tree ∧ Markup [tree] document.toList ∧
      ∃ data, AuditEvent.read 7 document = .ok (sparse.event 7 data) ∧
        ∃ fields, Fields.read data = .ok fields ∧ fields.text? "k" = some "1<2" := by
  intro document
  have hname (name : String) (h : name.toList ≠ [] ∧ ∀ c ∈ name.toList, c ∉ delimiters) :
      FullName name.toList := ⟨h.1, h.2⟩
  have hbare (name : String) (h : name.toList ≠ [] ∧ ∀ c ∈ name.toList, c ∉ delimiters) :
      StartTag name.toList [] name.toList := by
    have htag := StartTag.mk (hname name h) (@AttributeList.nil [] (by decide)) List.nodup_nil
    rwa [List.append_nil] at htag
  have hempty : CharacterData "".toList [] := ⟨.nil, by decide, by decide⟩
  have hexecutionTag : StartTag "Execution".toList [("ThreadID".toList, "0x-1f")]
      "Execution ThreadID='0x-1f' ".toList :=
    .mk (hname "Execution" (by decide)) (@AttributeList.cons [' '] "ThreadID".toList "0x-1f".toList
      [' '] "0x-1f" '\'' [] (by decide) (by decide) (hname "ThreadID" (by decide)) (.inr rfl)
      (escapedText_self (by decide)) (.nil (by decide))) (by decide)
  have hsystem : Markup [.mk "System" [] "" [.mk "A" [] "" [],
      .mk "Execution" [("ThreadID", "0x-1f")] "" []]] sparseSystem.toList :=
    .element .nil (hbare "System" (by decide)) hempty
      (.single .nil (hbare "x:A" (by decide)) (.single .nil hexecutionTag (.gap .nil))) (.gap .nil)
  have hvalue : CharacterData "1<2".toList "1&lt;2".toList :=
    ⟨.cons (.plain (by decide)) (.cons (@Escaped.named _ '<' "lt" (by decide))
      (.cons (.plain (by decide)) .nil)), by decide, by decide⟩
  have hdataTag : StartTag "Data".toList [("Name".toList, "k")] "Data Name=\"k\"".toList :=
    .mk (hname "Data" (by decide)) (@AttributeList.cons [' '] "Name".toList "k".toList [] "k" '"' []
      (by decide) (by decide) (hname "Name" (by decide)) (.inl rfl) (escapedText_self (by decide))
      (.nil (by decide))) (by decide)
  have hparts : Markup sparseParts (sparseData.toList ++ sparseSystem.toList) :=
    .element .nil (hbare "EventData" (by decide)) hempty
      (.element .nil hdataTag hvalue (.gap .nil) (.gap .nil)) hsystem
  have hdocument : Markup [.mk "Event" [] "" sparseParts] document.toList := by
    have hevent : Markup [.mk "Event" [] "" sparseParts] _ :=
      .element .nil (hbare "Event" (by decide)) hempty hparts (.gap .nil)
    simpa [document] using hevent
  have hholds : Holds sparse (.mk "Event" [] "" sparseParts) :=
    ⟨rfl, _, _, [], .swap _ _ _, nofun, rfl, rfl, ⟨[.mk "A" [] "" []], .swap _ _ _, by decide⟩, rfl⟩
  obtain ⟨data, hread, fields, hfields, hshown⟩ :=
    (read_record sparse).2.1 _ hholds document hdocument 7
  exact ⟨_, hholds, hdocument, data, hread, fields, hfields,
    hshown "k" "1<2" (by decide) (by decide)⟩

end AuditTables.Proofs.Event
