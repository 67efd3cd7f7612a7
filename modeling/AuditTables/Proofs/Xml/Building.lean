import AuditTables.Proofs.Xml.Piece

/-!
# `AuditTables.Proofs.Xml.Building`: how a tree grows under the reader

Between two characters the reader has built some open elements, and the root if it is complete.
A character changes little of that: `Moves` lists what one can do, the end of the document
included, and `moves_step` and `moves_finish` say that there is nothing else. So what every move
keeps, every document keeps (`feed_keeps`). Two facts are kept. A complete root stays what it
is, and an element that is inside of another stays in the tree (`Contains`).

`readDocument_cut` is what they come to. In a document that is accepted, an end tag whose name
no element inside of the root has can only be the root's, so the document may as well stop
there. What follows in it adds nothing to the tree.
-/

set_option autoImplicit false

namespace AuditTables.Proofs.Xml

open AuditTables.Text AuditTables.Xml

/-! ### Names in a tree -/

mutual

/-- The names of an element and of all elements inside of it. -/
def names : Node → List String
  | .mk name _ _ children => name :: namesAll children

/-- The names of elements and of all elements inside of them. -/
def namesAll : List Node → List String
  | [] => []
  | node :: nodes => names node ++ namesAll nodes

end

theorem names_eq (node : Node) : names node = node.name :: namesAll node.children := by
  cases node
  rw [names]
  rfl

theorem mem_namesAll {name : String} {nodes : List Node} :
    name ∈ namesAll nodes ↔ ∃ node ∈ nodes, name ∈ names node := by
  induction nodes with
  | nil => simp [namesAll]
  | cons node nodes ih => simp [namesAll, ih]

theorem mem_namesAll_reverse {name : String} {nodes : List Node} :
    name ∈ namesAll nodes.reverse ↔ name ∈ namesAll nodes := by
  simp only [mem_namesAll, List.mem_reverse]

/-! ### Moves -/

/-- What the reader has built. -/
def built (r : Reader) : Built := ⟨r.opened, r.root⟩

/-- What one character, or the end of the document, can do to what was built. -/
inductive Moves : Built → Built → Prop where
  | stays (b : Built) : Moves b b
  | writes (o : Opened) (outer : List Opened) (root : Option Node) (text : String) :
      Moves ⟨o :: outer, root⟩ ⟨{ o with text := text } :: outer, root⟩
  | begins (b : Built) (o : Opened) : Moves b ⟨o :: b.opened, b.root⟩
  | takes {node : Node} {b b' : Built} (h : Takes node b b') : Moves b b'
  | closes {o : Opened} {outer : List Opened} {root : Option Node} {b' : Built}
      (h : Takes o.close ⟨outer, root⟩ b') : Moves ⟨o :: outer, root⟩ b'

section

variable {r r' : Reader} {position start after : Nat} {read text : List Char}

theorem moves_addText (h : r.addText position text = .ok r') : Moves (built r) (built r') := by
  obtain ⟨offset, opened, root, mode⟩ := r
  cases opened with
  | nil =>
      simp only [Reader.addText] at h
      split at h <;> cases h
      exact .stays _
  | cons o outer =>
      cases h
      exact .writes o outer root _

theorem takes_addNode {node : Node} (h : r.addNode position node = .ok r') :
    Takes node (built r) (built r') := by
  obtain ⟨offset, opened, root, mode⟩ := r
  cases opened with
  | nil =>
      cases root <;> cases h
      exact .root
  | cons o outer =>
      cases h
      exact .child

theorem moves_endText (h : r.endText start read = .ok r') : Moves (built r) (built r') := by
  unfold Reader.endText at h
  split at h
  · cases h
    exact .stays _
  · split at h
    · cases h
    · exact moves_addText h

theorem moves_endBang {kind : Bang} (h : r.endBang kind position after read = .ok r') :
    Moves (built r) (built r') := by
  cases kind with
  | comment =>
      simp only [Reader.endBang] at h
      split at h <;> cases h
      exact .stays _
  | cdata =>
      simp only [Reader.endBang] at h
      split at h
      · exact moves_addText h
      · cases h
  | doctype =>
      simp only [Reader.endBang] at h
      split at h
      · split at h <;> cases h
        exact .stays _
      · cases h

/-- An end tag closes the innermost open element, whose name it repeats. -/
theorem takes_closeElement (h : r.closeElement position after read = .ok r') :
    ∃ o outer, r.opened = o :: outer ∧ Reader.endName read.reverse = o.fullName ∧
      Takes o.close ⟨outer, r.root⟩ (built r') := by
  obtain ⟨offset, opened, root, mode⟩ := r
  cases opened with
  | nil => cases h
  | cons o outer =>
      simp only [Reader.closeElement] at h
      split at h
      · rename_i hname
        exact ⟨o, outer, rfl, hname, takes_addNode h⟩
      · cases h

theorem moves_closeElement (h : r.closeElement position after read = .ok r') :
    Moves (built r) (built r') := by
  obtain ⟨o, outer, hopened, -, htakes⟩ := takes_closeElement h
  rw [built, hopened]
  exact .closes htakes

theorem moves_endInstruction (h : r.endInstruction after read = .ok r') :
    Moves (built r) (built r') := by
  unfold Reader.endInstruction at h
  split at h <;> cases h
  exact .stays _

theorem moves_endTag (h : r.endTag position read = .ok r') : Moves (built r) (built r') := by
  unfold Reader.endTag at h
  split at h
  · split at h
    · cases h
    · exact .takes (takes_addNode h)
  · split at h <;> cases h
    exact .begins _ _

/-- What comes after markup has been built by the markup. -/
theorem built_resume {result : Except Fault Reader} (h : Reader.resume result after = .ok r') :
    ∃ next, result = .ok next ∧ built r' = built next ∧ r'.mode = .text after [] := by
  cases result with
  | error fault => cases h
  | ok next =>
      cases h
      exact ⟨next, rfl, rfl, rfl⟩

theorem moves_inTag {quote : Option Char} {c : Char}
    (h : r.inTag position start quote read c = .ok r') : Moves (built r) (built r') := by
  cases quote with
  | some q =>
      cases h
      exact .stays _
  | none =>
      simp only [Reader.inTag] at h
      split at h
      · obtain ⟨next, hnext, hbuilt, -⟩ := built_resume h
        rw [hbuilt]
        exact moves_endTag hnext
      · cases h
        exact .stays _

/-- One character makes one move. There is a case for each mode of the reader. -/
theorem moves_take {c : Char} (h : r.take c = .ok r') : Moves (built r) (built r') := by
  unfold Reader.take at h
  split at h
  case h_1 start read hmode =>
      split at h
      · cases hend : r.endText start read with
        | error fault => rw [hend] at h; cases h
        | ok next =>
            have hmoves : Moves (built r) (built next) := moves_endText hend
            rw [hend] at h
            cases h
            exact hmoves
      · cases h
        exact .stays _
  case h_2 position hmode =>
      split at h
      · cases h
        exact .stays _
      · split at h
        · cases h
          exact .stays _
        · split at h
          · cases h
            exact .stays _
          · exact moves_inTag h
  case h_3 position start hmode =>
      split at h <;> cases h
      exact .stays _
  case h_4 kind position start read hmode =>
      split at h
      · obtain ⟨next, hnext, hbuilt, -⟩ := built_resume h
        rw [hbuilt]
        exact moves_endBang hnext
      · cases h
        exact .stays _
  case h_5 position start read hmode =>
      split at h
      · obtain ⟨next, hnext, hbuilt, -⟩ := built_resume h
        rw [hbuilt]
        exact moves_closeElement hnext
      · cases h
        exact .stays _
  case h_6 start read hmode =>
      split at h
      · obtain ⟨next, hnext, hbuilt, -⟩ := built_resume h
        rw [hbuilt]
        exact moves_endInstruction hnext
      · cases h
        exact .stays _
  case h_7 position start quote read hmode => exact moves_inTag h

/-- A character that is read has been taken, and counted. -/
theorem take_of_step {c : Char} (h : Reader.machine.step r c = .ok r') :
    ∃ next, r.take c = .ok next ∧ built r' = built next ∧ r'.mode = next.mode := by
  rw [readerStep_eq] at h
  cases htake : r.take c with
  | error fault => rw [htake] at h; cases h
  | ok next =>
      rw [htake] at h
      cases h
      exact ⟨next, rfl, rfl, rfl⟩

theorem moves_step {c : Char} (h : Reader.machine.step r c = .ok r') :
    Moves (built r) (built r') := by
  obtain ⟨next, htake, hbuilt, -⟩ := take_of_step h
  rw [hbuilt]
  exact moves_take htake

theorem moves_endPiece (h : r.endPiece = .ok r') : Moves (built r) (built r') := by
  unfold Reader.endPiece at h
  split at h
  · exact moves_endText h
  · cases h
    exact .stays _
  · cases h
  · cases h
  · exact moves_closeElement h
  · exact moves_endInstruction h
  · cases h

/-- The end of a document that is accepted makes one move, after which the tree is all that was
built. -/
theorem moves_finish {tree : Node} (h : Reader.machine.finish r = .ok tree) :
    Moves (built r) ⟨[], some tree⟩ := by
  have hfinish : r.endPiece.bind Reader.complete = .ok tree := h
  cases hend : r.endPiece with
  | error fault => rw [hend] at hfinish; cases hfinish
  | ok last =>
      rw [hend] at hfinish
      have hmoves := moves_endPiece hend
      obtain ⟨offset, opened, root, mode⟩ := last
      cases opened with
      | cons o outer => cases hfinish
      | nil =>
          cases root <;> cases hfinish
          exact hmoves

/-- What every move keeps is kept by a text. -/
theorem feed_keeps {P : Built → Prop} (hP : ∀ {b b'}, Moves b b' → P b → P b') {cs : List Char}
    (h : Reader.machine.feed r cs = .ok r') (hr : P (built r)) : P (built r') :=
  Machine.feed_keeps (fun hstep => hP (moves_step hstep)) h hr

end

/-! ### What stays in a tree -/

variable {b b' : Built} {node node' : Node} {name : String}

/-- An element that goes where nothing is open, before it or after it, becomes the root. -/
theorem eq_of_takes_root (h : Takes node b b')
    (hopened : b.opened = [] ∨ b'.opened = []) : b = ⟨[], none⟩ ∧ b' = ⟨[], some node⟩ := by
  cases h with
  | child => rcases hopened with hnil | hnil <;> cases hnil
  | root => exact ⟨rfl, rfl⟩

/-- A complete root takes the place of none. -/
theorem root_of_takes (h : Takes node' b b') (hroot : b.root = some node) :
    b'.root = some node := by
  cases h with
  | child => exact hroot
  | root => cases hroot

theorem root_of_moves (h : Moves b b') (hroot : b.root = some node) : b'.root = some node := by
  cases h with
  | stays => exact hroot
  | writes => exact hroot
  | begins => exact hroot
  | takes h => exact root_of_takes h hroot
  | closes h => exact root_of_takes h hroot

/-- An element of a name is inside of another one. -/
def Contains (name : String) (b : Built) : Prop :=
  (∃ o ∈ b.opened, name ∈ namesAll o.children) ∨
    ∃ node, b.root = some node ∧ name ∈ namesAll node.children

theorem contains_of_takes (h : Takes node b b') (hb : Contains name b) : Contains name b' := by
  cases h with
  | child =>
      refine hb.imp ?_ id
      rintro ⟨o, ho, hname⟩
      rcases List.mem_cons.mp ho with rfl | ho
      · exact ⟨_, List.mem_cons_self, List.mem_append_right _ hname⟩
      · exact ⟨o, List.mem_cons_of_mem _ ho, hname⟩
  | root =>
      rcases hb with ⟨o, ho, -⟩ | ⟨node', hroot, -⟩
      · cases ho
      · cases hroot

/-- An element goes into the tree with all that is inside of it. -/
theorem contains_of_inside (h : Takes node b b') (hname : name ∈ namesAll node.children) :
    Contains name b' := by
  cases h with
  | child =>
      have hnode : name ∈ names node := by
        rw [names_eq]
        exact List.mem_cons_of_mem _ hname
      exact Or.inl ⟨_, List.mem_cons_self, List.mem_append_left _ hnode⟩
  | root => exact Or.inr ⟨node, rfl, hname⟩

theorem contains_of_moves (h : Moves b b') (hb : Contains name b) : Contains name b' := by
  cases h with
  | stays => exact hb
  | writes o outer root text =>
      refine hb.imp ?_ id
      rintro ⟨o', ho', hname⟩
      rcases List.mem_cons.mp ho' with rfl | ho'
      · exact ⟨_, List.mem_cons_self, hname⟩
      · exact ⟨o', List.mem_cons_of_mem _ ho', hname⟩
  | begins o =>
      refine hb.imp ?_ id
      rintro ⟨o', ho', hname⟩
      exact ⟨o', List.mem_cons_of_mem _ ho', hname⟩
  | takes h => exact contains_of_takes h hb
  | @closes o outer root _ h =>
      -- The element is inside of the one that is closed, or of one that is not touched.
      rcases hb with ⟨o', ho', hname⟩ | hroot
      · rcases List.mem_cons.mp ho' with rfl | ho'
        · exact contains_of_inside h (mem_namesAll_reverse.mpr hname)
        · exact contains_of_takes h (Or.inl ⟨o', ho', hname⟩)
      · exact contains_of_takes h (Or.inr hroot)

/-! ### Stopping at the end tag of the root -/

/-- A bracket where character data may stand begins markup. -/
theorem angle_of_step {r r' : Reader} {start : Nat} {read : List Char}
    (hmode : r.mode = .text start read) (h : Reader.machine.step r '<' = .ok r') :
    ∃ position, r'.mode = .angle position := by
  obtain ⟨next, htake, -, hnext⟩ := take_of_step h
  simp only [Reader.take, hmode, if_true] at htake
  cases hend : r.endText start read with
  | error fault => rw [hend] at htake; cases htake
  | ok last =>
      rw [hend] at htake
      cases htake
      exact ⟨_, hnext⟩

/-- An end tag where character data may stand closes the innermost open element, which has its
name. -/
theorem takes_of_endTag {r r' : Reader} {start : Nat} {read tag : List Char}
    (htag : FullName tag) (hmode : r.mode = .text start read)
    (h : Reader.machine.feed r ('<' :: '/' :: (tag ++ ['>'])) = .ok r') :
    ∃ (o : Opened) (outer : List Opened) (root : Option Node), o.fullName = tag ∧
      Takes o.close ⟨outer, root⟩ (built r') ∧ ∃ after, r'.mode = .text after [] := by
  obtain ⟨r₁, hstep, h⟩ := Machine.exists_of_feed_cons h
  obtain ⟨position, hposition⟩ := angle_of_step hmode hstep
  obtain ⟨offset, opened, root, mode⟩ := r₁
  obtain rfl : mode = .angle position := hposition
  obtain ⟨offset', hcollected⟩ := @feed_endTag offset position opened root _ htag
  have hread : (tag.reverse ++ ['/']).reverse = '/' :: tag := by simp
  rw [← List.cons_append, Machine.feed_append_of_ok hcollected] at h
  obtain ⟨last, hclose, hlast⟩ := Machine.exists_of_feed_cons h
  obtain rfl : last = r' := Except.ok.inj hlast
  obtain ⟨next, htake, hbuilt, hmode'⟩ := take_of_step hclose
  simp only [Reader.take, if_true] at htake
  obtain ⟨closed, hclosed, hbuilt', hafter⟩ := built_resume htake
  obtain ⟨o, outer, -, hname, htakes⟩ := takes_closeElement hclosed
  rw [hread, endName_of_fullName htag] at hname
  refine ⟨o, outer, root, hname.symm, ?_, _, hmode'.trans hafter⟩
  rw [hbuilt, hbuilt']
  exact htakes

/-- A document may stop at the first end tag of a name that no element inside of the root has.
The tree is the same, as what follows adds nothing to it. -/
theorem readDocument_cut {before after tag : List Char} {r : Reader} {start : Nat}
    {read : List Char} {tree : Node} (htag : FullName tag)
    (hbracket : before.head? = some '<')
    (hbefore : Reader.machine.feed Reader.start before = .ok r) (hmode : r.mode = .text start read)
    (hread : readDocument (before ++ '<' :: '/' :: (tag ++ ['>']) ++ after) = .ok tree)
    (halone : shortName tag ∉ namesAll tree.children) :
    readDocument (before ++ '<' :: '/' :: (tag ++ ['>'])) = .ok tree := by
  -- The document begins with a bracket, so there is no byte order mark to leave out.
  have hmark : ∀ rest, withoutMark (before ++ rest) = before ++ rest := by
    intro rest
    obtain ⟨cs, rfl⟩ := List.head?_eq_some_iff.mp hbracket
    rfl
  rw [readDocument, List.append_assoc, hmark] at hread
  rw [readDocument, hmark, Machine.run_eq_bind, Machine.feed_append_of_ok hbefore]
  obtain ⟨last, hfeed, hend⟩ := Machine.exists_of_run hread
  rw [Machine.feed_append_of_ok hbefore] at hfeed
  obtain ⟨next, hclose, hrest⟩ := Machine.exists_of_feed_append hfeed
  obtain ⟨o, outer, root, rfl, htakes, place, hplace⟩ := takes_of_endTag htag hmode hclose
  have hfinish : Moves (built last) ⟨[], some tree⟩ := moves_finish hend
  rw [hclose]
  generalize hb : built next = b at htakes
  cases htakes with
  | child =>
      -- The element is inside of another one, and it has the name.
      have hcontains : Contains (shortName o.fullName) (built next) := by
        rw [hb]
        exact Or.inl ⟨_, List.mem_cons_self, List.mem_append_left _ (by
          rw [names_eq]
          exact List.mem_cons_self)⟩
      have hlast := feed_keeps contains_of_moves hrest hcontains
      rcases contains_of_moves hfinish hlast with ⟨o', ho', -⟩ | ⟨node, hroot, hname⟩
      · cases ho'
      · obtain rfl : tree = node := Option.some.inj hroot
        exact absurd hname halone
  | root =>
      have hroot : (built next).root = some o.close := by rw [hb]
      have hlast := feed_keeps root_of_moves hrest hroot
      obtain rfl : tree = o.close := Option.some.inj (root_of_moves hfinish hlast)
      obtain ⟨offset, opened, root, mode⟩ := next
      obtain rfl : mode = .text place [] := hplace
      obtain ⟨rfl, rfl⟩ : opened = [] ∧ root = some o.close :=
        ⟨congrArg Built.opened hb, congrArg Built.root hb⟩
      exact (Stands.blank rfl).finish

end AuditTables.Proofs.Xml
