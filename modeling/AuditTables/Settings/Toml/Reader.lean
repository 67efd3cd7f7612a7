import AuditTables.Settings.Toml.Fault

/-!
# `AuditTables.Settings.Toml.Reader`: readers that can be tried

A reader takes a value off the front of a text or stops with a fault. A fault is
soft at first: whoever tried the reader may try another one at the same place.
`commit` makes the faults of a reader final, once what has been read leaves no
other reading. `label` and `expecting` name what is read, for the report.

A reader that is repeated takes at least one character each time, so the length
of the text bounds how often `many` repeats it.
-/

set_option autoImplicit false

namespace AuditTables.Settings.Toml

/-- A reader of values of a type. -/
abbrev Reader (α : Type) : Type := StateT (List Char) (Except Fault) α

namespace Reader

variable {α β : Type}

/-- Nothing can be read here. -/
def stop : Reader α := fun cs => .error (.here cs)

/-- A character of a class. -/
def one (isMember : Char → Bool) : Reader Char := fun cs =>
  match cs with
  | c :: rest => if isMember c then .ok (c, rest) else .error (.here cs)
  | [] => .error (.here cs)

/-- One certain character. -/
def mark (c : Char) : Reader Unit := do
  let _ ← one (· == c)

/-- A certain text. -/
def word (text : String) : Reader Unit := fun cs =>
  if text.toList.isPrefixOf cs then .ok ((), cs.drop text.length) else .error (.here cs)

/-- As many characters of a class as there are. -/
def run (isMember : Char → Bool) : Reader (List Char) := fun cs =>
  .ok (cs.takeWhile isMember, cs.dropWhile isMember)

/-- The same, but at least one. -/
def someRun (isMember : Char → Bool) : Reader (List Char) := fun cs =>
  if (cs.takeWhile isMember).isEmpty then .error (.here cs) else run isMember cs

/-- As many characters of a class as there are, up to a number. -/
def upTo (count : Nat) (isMember : Char → Bool) : Reader (List Char) := fun cs =>
  let taken := (cs.take count).takeWhile isMember
  .ok (taken, cs.drop taken.length)

/-- The next character, left where it is. -/
def next : Reader (Option Char) := fun cs => .ok (cs.head?, cs)

/-- The end of the text. -/
def atEnd : Reader Unit := fun cs => if cs.isEmpty then .ok ((), cs) else .error (.here cs)

/-- A reader whose faults are final. -/
def commit (p : Reader α) : Reader α := fun cs =>
  (p cs).mapError fun f => { f with final := true }

/-- A reader of something that has a name. -/
def label (name : String) (p : Reader α) : Reader α := fun cs =>
  (p cs).mapError fun f => { f with label := some (f.label.getD name) }

/-- A reader of something that could stand here. -/
def expecting (what : String) (p : Reader α) : Reader α := fun cs =>
  (p cs).mapError fun f => { f with expected := f.expected ++ [what] }

/-- A reader, or nothing if it stops softly. -/
def perhaps (p : Reader α) : Reader (Option α) := fun cs =>
  match p cs with
  | .ok (a, rest) => .ok (some a, rest)
  | .error f => if f.final then .error f else .ok (none, cs)

/-- A reader, or another one if it stops softly. -/
def either (p q : Reader α) : Reader α := fun cs =>
  match p cs with
  | .ok r => .ok r
  | .error f => if f.final then .error f else q cs

/-- A reader whose value has to pass a test. If it does not, reading stops where
it began. -/
def check (p : Reader α) (test : α → Except (Option String) β) : Reader β := fun cs =>
  match p cs with
  | .error f => .error f
  | .ok (a, rest) =>
    match test a with
    | .ok b => .ok (b, rest)
    | .error cause => .error { Fault.here cs with cause := cause }

/-- A reader whose value has to pass a test, without which no other reading is to
be tried. -/
def settle (p : Reader α) (test : α → Except (Option String) β) : Reader β := fun cs =>
  match p cs with
  | .error f => .error f
  | .ok r => commit (check (fun _ => .ok r) test) cs

/-- So many characters of a class. -/
def exactly (count : Nat) (isMember : Char → Bool) : Reader (List Char) :=
  check (upTo count isMember) fun cs => if cs.length = count then .ok cs else .error none

/-- Whether a reader would succeed here. Nothing is read. -/
def ahead (p : Reader α) : Reader Unit := fun cs =>
  match p cs with
  | .ok _ => .ok ((), cs)
  | .error f => .error { f with rest := cs }

/-- A reader repeated at most so many times, after values already read, latest
first. -/
def manyWithin (p : Reader α) : Nat → List α → Reader (List α)
  | 0, read => pure read.reverse
  | bound + 1, read => fun cs =>
    match p cs with
    | .error f => if f.final then .error f else .ok (read.reverse, cs)
    | .ok (a, rest) => manyWithin p bound (a :: read) rest

/-- A reader repeated until it stops softly. -/
def many (p : Reader α) : Reader (List α) := fun cs => manyWithin p cs.length [] cs

/-- The same, but at least once. -/
def someMany (p : Reader α) : Reader (List α) := do
  let first ← p
  let rest ← many p
  pure (first :: rest)

/-- A reader repeated with a separator between. A separator after which the
reader stops softly is not read. -/
def separated (p : Reader α) (separator : Reader Unit) : Reader (List α) := do
  let first ← p
  let rest ← many (do separator; p)
  pure (first :: rest)

end Reader

end AuditTables.Settings.Toml
