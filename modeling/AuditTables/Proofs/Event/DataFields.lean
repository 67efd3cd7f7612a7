import AuditTables.Event.Record
import AuditTables.Proofs.Json.RoundTrip
import Mathlib.Data.List.Induction

/-!
# `AuditTables.Proofs.Event.DataFields`: the data text and what it was made from

An event carries its data fields as text, and every table reads that text anew.
`data_ofTree_decodes` says that nothing is lost on the way. What a record holds is
told by its items, keys with texts, which are read off the tree of the record
(`itemsOf`, and `namedTexts_eq_itemsOf` for those that the fields are made of). The
text of any record reads back as fields that have the keys of its items and no
others. A key that occurs once shows its text, one that occurs more often the list
of its texts in document order. The text is canonical as well: records whose items
differ only in how different keys are interleaved have the same data text.

`collects_ofTexts` is the fact behind both. Adding texts one by one keeps the fields
in step with what has been added, key by key (`Collects`), and the step lemma
`collects_add` is one case per number of texts that the key had before. `read_write`
is the other half, the round trip of JSON for values of this kind.
-/

set_option autoImplicit false

namespace AuditTables.Proofs.Event

open AuditTables.Json AuditTables.Event AuditTables.Xml
open AuditTables.Proofs.Json AuditTables.Proofs.Keyed

/-! ### Items -/

/-- The key of a child of `EventData`: the value of its first attribute `Name`, or the name of
the element if it has none. -/
def keyOf (child : Node) : String :=
  ((child.attributes.filter fun p => p.1 = "Name").map (·.2)).headD child.name

/-- The children of an element that have a name. -/
def childrenNamed (name : String) (node : Node) : List Node :=
  node.children.filter fun c => c.name = name

/-- The items of a record, each a key with a text. They stand in the first `EventData`, and in
a record without one they are the elements inside the first child of the first `UserData`. -/
def itemsOf (tree : Node) : List (String × String) :=
  match childrenNamed "EventData" tree, childrenNamed "UserData" tree with
  | parent :: _, _ => parent.children.map fun c => (keyOf c, c.text)
  | [], [] => []
  | [], outer :: _ =>
    match outer.children with
    | [] => []
    | parent :: _ => parent.children.map fun c => (c.name, c.text)

/-- A child is looked up by taking the first of those that have the name. -/
theorem child?_eq_head? (name : String) (node : Node) :
    node.child? name = (childrenNamed name node).head? := by
  rw [childrenNamed, List.head?_filter, Node.child?]
  simp only [beq_eq_decide]

/-- An attribute is looked up by taking the first value under the name, by induction on the
attributes. -/
theorem lookup_eq_head? (key : String) (attributes : List (String × String)) :
    attributes.lookup key = ((attributes.filter fun p => p.1 = key).map (·.2)).head? := by
  induction attributes with
  | nil => rfl
  | cons p rest ih =>
      by_cases hkey : p.1 = key
      · subst hkey
        rw [List.lookup_cons, beq_self_eq_true, List.filter_cons_of_pos (by simp)]
        rfl
      · have hne : (key == p.1) = false := beq_eq_false_iff_ne.mpr (Ne.symm hkey)
        rw [List.lookup_cons, hne, List.filter_cons_of_neg (by simpa using hkey)]
        exact ih

/-- The named texts that a record's fields are made of are its items. -/
theorem namedTexts_eq_itemsOf (tree : Node) : AuditEvent.namedTexts tree = itemsOf tree := by
  have hkey (child : Node) : (child.attribute? "Name").getD child.name = keyOf child := by
    rw [Node.attribute?, lookup_eq_head?, keyOf, List.headD_eq_head?_getD]
  simp only [AuditEvent.namedTexts, itemsOf, child?_eq_head?, hkey]
  cases childrenNamed "EventData" tree with
  | cons parent others => rfl
  | nil =>
      cases childrenNamed "UserData" tree with
      | nil => rfl
      | cons outer others => cases houter : outer.children <;> simp [houter]

/-- The texts of a key, in order. -/
def textsOf (key : String) (texts : List (String × String)) : List String :=
  (texts.filter fun p => p.1 == key).map (·.2)

/-- What a key shows for its texts: nothing, a text, or a list of texts. -/
def shown : List String → Option Value
  | [] => none
  | [text] => some (.text text)
  | texts => some (.list (texts.map .text))

/-- Fields that show the named texts: under each key, its texts. -/
structure Collects (fields : Fields) (texts : List (String × String)) : Prop where
  ascending : Keyed.Ascending fields.entries
  get? : ∀ key, fields.get? key = shown (textsOf key texts)

/-! ### Adding texts -/

/-- The texts of a key after one more named text. -/
theorem textsOf_append_singleton (key : String) (texts : List (String × String))
    (p : String × String) :
    textsOf key (texts ++ [p])
      = if p.1 = key then textsOf key texts ++ [p.2] else textsOf key texts := by
  unfold textsOf
  by_cases hkey : p.1 = key <;> simp [hkey]

/-- A key has no texts exactly if none of the named texts is its own. -/
theorem textsOf_eq_nil_iff (key : String) (texts : List (String × String)) :
    textsOf key texts = [] ↔ key ∉ texts.map (·.1) := by
  simp only [textsOf, List.map_eq_nil_iff, List.filter_eq_nil_iff, List.mem_map, not_exists,
    not_and, beq_iff_eq]

/-- A key that occurs once has one text. -/
theorem textsOf_of_count {key value : String} {texts : List (String × String)}
    (hmem : (key, value) ∈ texts) (hcount : (texts.map (·.1)).count key = 1) :
    textsOf key texts = [value] := by
  have hlength : (texts.filter fun p => p.1 == key).length = 1 := by
    rw [← hcount, List.count, List.countP_map, List.countP_eq_length_filter]
    rfl
  obtain ⟨p, hp⟩ := List.length_eq_one_iff.mp hlength
  have hfilter : (key, value) ∈ texts.filter fun p => p.1 == key :=
    List.mem_filter.mpr ⟨hmem, beq_self_eq_true key⟩
  rw [hp] at hfilter
  rw [textsOf, hp, ← List.mem_singleton.mp hfilter]
  rfl

/-- Only a key without texts shows nothing. -/
theorem shown_isSome (texts : List String) : (shown texts).isSome = true ↔ texts ≠ [] := by
  rcases texts with _ | ⟨first, _ | ⟨second, rest⟩⟩ <;> simp [shown]

/-- A text added under a key joins the texts of that key and leaves the others
alone. -/
theorem collects_add {fields : Fields} {texts : List (String × String)}
    (h : Collects fields texts) (key text : String) :
    Collects (fields.add key text) (texts ++ [(key, text)]) := by
  refine ⟨Keyed.ascending_put h.ascending key _, fun other => ?_⟩
  rw [textsOf_append_singleton]
  by_cases hkey : key = other
  · subst hkey
    rw [if_pos rfl, Fields.get?, Fields.add, h.get? key, Keyed.get?_put_self]
    -- The key had no text yet, or one, or more than one, which are in a list already.
    rcases textsOf key texts with _ | ⟨first, _ | ⟨second, rest⟩⟩
    · rfl
    · rfl
    · simp [shown]
  · rw [if_neg hkey, Fields.get?, Fields.add, Keyed.get?_put_of_ne hkey]
    exact h.get? other

/-- The fields made of named texts show them, by induction on the texts from the
last one back, which is the one added last. -/
theorem collects_ofTexts (texts : List (String × String)) :
    Collects (Fields.ofTexts texts) texts := by
  induction texts using List.reverseRecOn with
  | nil => exact ⟨Keyed.ascending_nil, fun _ => rfl⟩
  | append_singleton texts p ih =>
      have hlast : Fields.ofTexts (texts ++ [p]) = (Fields.ofTexts texts).add p.1 p.2 := by
        simp only [Fields.ofTexts, List.foldl_append, List.foldl_cons, List.foldl_nil]
      rw [hlast]
      exact collects_add ih p.1 p.2

/-- Fields that show the same texts under every key are the same fields. -/
theorem entries_eq_of_textsOf_eq {fields fields' : Fields} {texts texts' : List (String × String)}
    (h : Collects fields texts) (h' : Collects fields' texts')
    (heq : ∀ key, textsOf key texts = textsOf key texts') : fields.entries = fields'.entries := by
  refine eq_of_get?_eq h.ascending h'.ascending fun key => ?_
  have hread := h.get? key
  rw [heq key, ← h'.get? key] at hread
  exact hread

/-! ### Reading the data text -/

/-- What a key shows takes no more than one level of nesting. -/
theorem exact_of_shown {texts : List String} {v : Value} (h : shown texts = some v) (room : Nat) :
    Exact (room + 1) v := by
  rcases texts with _ | ⟨first, _ | ⟨second, rest⟩⟩
  · exact absurd h (by simp [shown])
  · rw [← Option.some.inj h]
    exact Exact.text _ _
  · rw [← Option.some.inj h]
    refine Exact.list _ _ fun u hu => ?_
    obtain ⟨text, -, rfl⟩ := List.mem_map.mp hu
    exact Exact.text _ _

/-- Fields read back from their data text, if they leave room for the two objects
around them. -/
theorem read_write {fields : Fields} (hkeys : Keyed.Ascending fields.entries)
    (hvalues : ∀ p ∈ fields.entries, Exact 125 p.2) : Fields.read fields.write = .ok fields := by
  have houter : Exact depthLimit (.object [(fieldsKey, .object fields.entries)]) := by
    refine Exact.object 126 _ (List.pairwise_singleton _ _) fun p hp => ?_
    rw [List.mem_singleton.mp hp]
    exact Exact.object 125 _ hkeys hvalues
  have hread : Json.read fields.write.toList
      = .ok (.object [(fieldsKey, .object fields.entries)]) := by
    rw [Fields.write, Value.render, String.toList_ofList]
    exact read_print houter
  rw [Fields.read, hread]
  show Fields.ofValue _ = _
  rw [Fields.ofValue, Keyed.get?, if_pos rfl]

/-- Fields that show named texts read back from their data text. -/
theorem read_write_of_collects {fields : Fields} {texts : List (String × String)}
    (h : Collects fields texts) : Fields.read fields.write = .ok fields := by
  refine read_write h.ascending fun p hp => ?_
  have hget : fields.get? p.1 = some p.2 := (mem_iff_get?_eq_some h.ascending).mp hp
  rw [h.get? p.1] at hget
  exact exact_of_shown hget 124

/-- The data text of a record reads back as the fields made of its items. -/
theorem read_data_ofTree (captureTime : Int) (tree : Node) :
    Fields.read (AuditEvent.ofTree captureTime tree).data
      = .ok (Fields.ofTexts (itemsOf tree)) := by
  rw [← namedTexts_eq_itemsOf]
  exact read_write_of_collects (collects_ofTexts _)

/-- The data text of every record reads back, as fields that have exactly the keys
of the record's items. A key that occurs once shows its text, and a key that
occurs more often the list of its texts in document order. The text depends on
nothing else: records that have the same texts under every key, in the same order
for each key, have the same data text. -/
theorem data_ofTree_decodes (captureTime : Int) (tree : Node) :
    (∃ fields, Fields.read (AuditEvent.ofTree captureTime tree).data = .ok fields ∧
      Keyed.Ascending fields.entries ∧
      (∀ key, key ∈ Keyed.keys fields.entries ↔ key ∈ (itemsOf tree).map (·.1)) ∧
      (∀ key text, textsOf key (itemsOf tree) = [text] →
        fields.get? key = some (.text text)) ∧
      (∀ key, 2 ≤ (textsOf key (itemsOf tree)).length →
        fields.get? key = some (.list ((textsOf key (itemsOf tree)).map .text)))) ∧
    ∀ (captureTime' : Int) (tree' : Node),
      (∀ key, textsOf key (itemsOf tree) = textsOf key (itemsOf tree')) →
      (AuditEvent.ofTree captureTime tree).data
        = (AuditEvent.ofTree captureTime' tree').data := by
  have hcollects := collects_ofTexts (itemsOf tree)
  refine ⟨⟨_, read_data_ofTree captureTime tree, hcollects.ascending, ?_, ?_, ?_⟩, ?_⟩
  · intro key
    have hget := hcollects.get? key
    rw [← get?_isSome_iff_mem_keys key (Fields.ofTexts (itemsOf tree)).entries]
    show ((Fields.ofTexts (itemsOf tree)).get? key).isSome = true ↔ _
    rw [hget, shown_isSome, Ne, textsOf_eq_nil_iff, Classical.not_not]
  · intro key text htexts
    rw [hcollects.get?, htexts]
    rfl
  · intro key htwo
    rw [hcollects.get?]
    rcases htexts : textsOf key (itemsOf tree) with _ | ⟨first, _ | ⟨second, rest⟩⟩
    · simp [htexts] at htwo
    · simp [htexts] at htwo
    · rfl
  · intro captureTime' tree' heq
    have hentries := entries_eq_of_textsOf_eq hcollects (collects_ofTexts (itemsOf tree')) heq
    show Fields.write (Fields.ofTexts (AuditEvent.namedTexts tree)) = Fields.write _
    rw [namedTexts_eq_itemsOf, namedTexts_eq_itemsOf, Fields.write, Fields.write, hentries]

/-- A record with one field that has a name and two that have none. -/
def partlyNamed : Node :=
  .mk "Event" [] "" [.mk "EventData" [] ""
    [.mk "Data" [("Name", "User")] "ann" [], .mk "Data" [] "one" [], .mk "Data" [] "two" []]]

/-- The same record with the named field in the middle. -/
def namedInside : Node :=
  .mk "Event" [] "" [.mk "EventData" [] ""
    [.mk "Data" [] "one" [], .mk "Data" [("Name", "User")] "ann" [], .mk "Data" [] "two" []]]

/-- The fields without a name are collected under the name of their element, wherever the named
one stands. -/
theorem data_ofTree_decodes_partlyNamed :
    (∃ fields, Fields.read (AuditEvent.ofTree 7 partlyNamed).data = .ok fields ∧
      (∀ key, key ∈ Keyed.keys fields.entries ↔ key = "User" ∨ key = "Data") ∧
      fields.get? "User" = some (.text "ann") ∧
      fields.get? "Data" = some (.list [.text "one", .text "two"])) ∧
    (AuditEvent.ofTree 7 partlyNamed).data = (AuditEvent.ofTree 8 namedInside).data := by
  have hitems : itemsOf partlyNamed = [("User", "ann"), ("Data", "one"), ("Data", "two")] := rfl
  have hitems' : itemsOf namedInside = [("Data", "one"), ("User", "ann"), ("Data", "two")] := rfl
  obtain ⟨⟨fields, hread, -, hkeys, hone, hmore⟩, hsame⟩ := data_ofTree_decodes 7 partlyNamed
  refine ⟨⟨fields, hread, ?_, hone "User" "ann" rfl, hmore "Data" (by decide)⟩, ?_⟩
  · intro key
    rw [hkeys, hitems]
    simp
  · refine hsame 8 namedInside fun key => ?_
    rw [hitems, hitems']
    -- Only the key of the unnamed fields has texts on both sides of the named one.
    by_cases huser : key = "User"
    · subst huser
      rfl
    · simp [textsOf, List.filter_cons, Ne.symm huser]

end AuditTables.Proofs.Event
