import AuditTables.Settings.Toml.Text

/-!
# `AuditTables.Settings.Toml.Moment`: dates and times

A moment is a date, a time of day, or both, and then perhaps a distance from
universal time. It is written as in `1979-05-27T07:32:00.5-08:00`; the `T` may
be a `t` or a space. Parts of a second count down to the billionth, what lies
below is cut off. Settings know no moments, so one becomes the text that writes
it (`Moment.text`).

`Moment.reader` reads a moment of a document, and `Moment.ofText` a text that is
to be one, in which midnight may be written as hour 24.
-/

set_option autoImplicit false

namespace AuditTables.Settings.Toml

open Reader

/-- A day of the calendar. -/
structure Date where
  year : Nat
  month : Nat
  day : Nat
  deriving DecidableEq, Repr

/-- A time of day. -/
structure Time where
  hour : Nat
  minute : Nat
  second : Nat
  /-- Billionths of a second. -/
  fraction : Nat
  deriving DecidableEq, Repr

/-- The distance of a time from universal time. -/
inductive Offset where
  | universal
  | minutes (n : Int)
  deriving DecidableEq, Repr

/-- A moment. Only one with date and time has an offset. -/
structure Moment where
  date : Option Date
  time : Option Time
  offset : Option Offset
  deriving DecidableEq, Repr

/-- A number with zeros in front, up to a width. -/
def padded (width n : Nat) : List Char :=
  let digits := Nat.toDigits 10 n
  List.replicate (width - digits.length) '0' ++ digits

/-- A date as it is written. -/
def Date.chars (d : Date) : List Char :=
  padded 4 d.year ++ '-' :: padded 2 d.month ++ '-' :: padded 2 d.day

/-- A time as it is written, without needless zeros at its end. -/
def Time.chars (t : Time) : List Char :=
  let billionths := (padded 9 t.fraction).reverse.dropWhile (· == '0')
  padded 2 t.hour ++ ':' :: padded 2 t.minute ++ ':' :: padded 2 t.second
    ++ (if billionths.isEmpty then [] else '.' :: billionths.reverse)

/-- An offset as it is written. -/
def Offset.chars : Offset → List Char
  | .universal => ['Z']
  | .minutes n =>
    (if n < 0 then '-' else '+') :: padded 2 (n.natAbs / 60) ++ ':' :: padded 2 (n.natAbs % 60)

namespace Moment

/-- A moment as it is written. -/
def text (m : Moment) : String :=
  let date := (m.date.map Date.chars).getD []
  let time := (m.time.map Time.chars).getD []
  let offset := (m.offset.map Offset.chars).getD []
  String.ofList (date ++ (if date.isEmpty || time.isEmpty then [] else ['T']) ++ time ++ offset)

/-- How far the parts of a moment may go. -/
structure Limits where
  hour : Nat
  offsetHour : Nat
  offsetMinute : Nat
  deriving DecidableEq, Repr

/-- The limits within a document. -/
def strict : Limits := ⟨23, 23, 59⟩

/-- The limits within a text that is to be a moment. -/
def lenient : Limits := ⟨24, 99, 99⟩

/-- A number of so many digits between two bounds. -/
def number (count low high : Nat) : Reader Nat :=
  check (exactly count Decimal.isDigit) fun ds =>
    let n := (Decimal.readNatural 10 ds).getD 0
    if low ≤ n ∧ n ≤ high then .ok n else .error (some outOfRange)

/-- The number of days of a month. -/
def daysOf (year month : Nat) : Nat :=
  let leap := year % 4 = 0 ∧ (year % 100 ≠ 0 ∨ year % 400 = 0)
  if month = 2 then (if leap then 29 else 28)
  else if [4, 6, 9, 11].contains month then 30
  else 31

/-- A date. -/
def dateReader : Reader Date := do
  let year ← number 4 0 9999
  mark '-'
  commit do
    let month ← number 2 1 12
    mark '-'
    let day ← number 2 1 (daysOf year month)
    pure ⟨year, month, day⟩

/-- Billionths from the digits after a point. -/
def billionthsOf (ds : List Char) : Nat :=
  let kept := ds.take 9
  (Decimal.readNatural 10 (kept ++ List.replicate (9 - kept.length) '0')).getD 0

/-- A time. -/
def timeReader (limits : Limits) : Reader Time := do
  let hour ← number 2 0 limits.hour
  mark ':'
  commit do
    let minute ← number 2 0 59
    mark ':'
    let second ← number 2 0 60
    let parts ← perhaps do
      mark '.'
      someRun Decimal.isDigit
    pure ⟨hour, minute, second, billionthsOf (parts.getD [])⟩

/-- A distance from universal time other than none, of one day at most. -/
def distance (limits : Limits) : Reader Offset :=
  check
    (do
      let direction ← one fun c => c == '+' || c == '-'
      commit do
        let hours ← number 2 0 limits.offsetHour
        mark ':'
        let minutes ← number 2 0 limits.offsetMinute
        let total := Int.ofNat (hours * 60 + minutes)
        pure (if direction = '-' then -total else total))
    fun n => if n.natAbs ≤ 24 * 60 then .ok (.minutes n) else .error none

/-- A distance from universal time. -/
def offsetReader (limits : Limits) : Reader Offset :=
  label "time offset"
    (either
      (do
        let _ ← one fun c => c == 'Z' || c == 'z'
        pure .universal)
      (distance limits))

/-- A moment that begins with a date. -/
def dated (limits : Limits) : Reader Moment := do
  let date ← dateReader
  let rest ← perhaps do
    let _ ← one fun c => c == 'T' || c == 't' || c == ' '
    let time ← timeReader limits
    let offset ← perhaps (offsetReader limits)
    pure (time, offset)
  pure ⟨some date, rest.map (·.1), rest.bind (·.2)⟩

/-- A moment. -/
def reader (limits : Limits) : Reader Moment :=
  either (label "date-time" (dated limits))
    (label "time" do
      let time ← timeReader limits
      pure ⟨none, some time, none⟩)

/-- The moment that a text is. -/
def ofText (s : String) : Option Moment :=
  match (do let m ← reader lenient; atEnd; pure m : Reader Moment) s.toList with
  | .ok (m, _) => some m
  | .error _ => none

end Moment

end AuditTables.Settings.Toml
