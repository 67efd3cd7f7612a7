import AuditTables.Text.Machine

/-!
# `AuditTables.Text.Utf8`: text as octets

Positions in a record count octets, so `byteLength` measures text in the octets
of its UTF-8 form, and `encode` gives those octets. Files may hold octets that
are no text at all. `decode` reads them anyway: each longest run of octets that
begins a well-formed sequence but does not finish one becomes a single U+FFFD,
and so does each octet that begins none.

`Decoder.step` looks at one octet at a time. What an unfinished sequence still
needs is kept as the range its next octet has to lie in, which is how the
overlong forms, the surrogates and the numbers above U+10FFFF are refused at
the first octet that gives them away.
-/

set_option autoImplicit false

namespace AuditTables.Text.Utf8

/-- How many octets a list of characters takes. -/
def byteLength (cs : List Char) : Nat :=
  cs.foldl (fun n c => n + c.utf8Size) 0

@[simp] theorem byteLength_nil : byteLength [] = 0 := rfl

theorem byteLength_append (cs ds : List Char) :
    byteLength (cs ++ ds) = byteLength cs + byteLength ds := by
  -- The fold over the second list starts with what the first one takes.
  have hfold (n : Nat) (ds : List Char) :
      ds.foldl (fun n c => n + c.utf8Size) n = n + byteLength ds := by
    induction ds generalizing n with
    | nil => rfl
    | cons d ds ih =>
        rw [byteLength, List.foldl_cons, List.foldl_cons, ih, ih]
        omega
  rw [byteLength, List.foldl_append, hfold]
  rfl

theorem byteLength_cons (c : Char) (cs : List Char) :
    byteLength (c :: cs) = c.utf8Size + byteLength cs := by
  have happend := byteLength_append [c] cs
  have hone : byteLength [c] = c.utf8Size := Nat.zero_add c.utf8Size
  rwa [List.singleton_append, hone] at happend

/-- Every character takes an octet or more. -/
theorem length_le_byteLength (cs : List Char) : cs.length ≤ byteLength cs := by
  induction cs with
  | nil => exact Nat.le_refl 0
  | cons c cs ih =>
      have hpos := c.utf8Size_pos
      rw [byteLength_cons, List.length_cons]
      omega

/-- The octets of a list of characters. -/
def encodeChars (cs : List Char) : List UInt8 := cs.flatMap String.utf8EncodeChar

/-- The octets of a string. -/
def encode (s : String) : List UInt8 := encodeChars s.toList

/-- The first octet of a character, shown as the character of that number. -/
def leadByte (c : Char) : Char :=
  Char.ofNat ((String.utf8EncodeChar c).headD 0).toNat

/-- An unfinished sequence: how many octets it still needs, the range of the
next one, and the number read so far. -/
structure Pending where
  missing : Nat
  low : UInt8
  high : UInt8
  value : Nat
  deriving DecidableEq, Repr

/-- What the decoder has written, latest first, and what it is in the middle
of. -/
structure Decoder where
  written : List Char
  pending : Option Pending
  deriving DecidableEq, Repr

/-- The character put in the place of octets that are no text. -/
def replacement : Char := Char.ofNat 0xFFFD

/-- What an octet starts: a character of its own, a sequence, or nothing. -/
inductive Lead where
  | alone (c : Char)
  | opens (p : Pending)
  | stray
  deriving DecidableEq, Repr

/-- How an octet can begin a character. -/
def lead (b : UInt8) : Lead :=
  let n := b.toNat
  if n < 0x80 then .alone (Char.ofNat n)
  else if n < 0xC2 then .stray
  else if n < 0xE0 then .opens ⟨1, 0x80, 0xBF, n - 0xC0⟩
  else if n = 0xE0 then .opens ⟨2, 0xA0, 0xBF, 0⟩
  else if n = 0xED then .opens ⟨2, 0x80, 0x9F, n - 0xE0⟩
  else if n < 0xF0 then .opens ⟨2, 0x80, 0xBF, n - 0xE0⟩
  else if n = 0xF0 then .opens ⟨3, 0x90, 0xBF, 0⟩
  else if n < 0xF4 then .opens ⟨3, 0x80, 0xBF, n - 0xF0⟩
  else if n = 0xF4 then .opens ⟨3, 0x80, 0x8F, n - 0xF0⟩
  else .stray

namespace Decoder

/-- The decoder before any octet. -/
def start : Decoder := ⟨[], none⟩

/-- An octet where no sequence is open. -/
def begin (written : List Char) (b : UInt8) : Decoder :=
  match lead b with
  | .alone c => ⟨c :: written, none⟩
  | .opens p => ⟨written, some p⟩
  | .stray => ⟨replacement :: written, none⟩

/-- One octet. An octet that cannot continue the open sequence ends it as one
replacement and is looked at afresh. -/
def step (d : Decoder) (b : UInt8) : Decoder :=
  match d.pending with
  | none => begin d.written b
  | some p =>
    if p.low ≤ b ∧ b ≤ p.high then
      let value := p.value * 64 + (b.toNat - 0x80)
      if p.missing ≤ 1 then ⟨Char.ofNat value :: d.written, none⟩
      else ⟨d.written, some ⟨p.missing - 1, 0x80, 0xBF, value⟩⟩
    else begin (replacement :: d.written) b

/-- The text when the octets end here. A sequence cut off by the end is one
replacement. -/
def finish (d : Decoder) : List Char :=
  match d.pending with
  | none => d.written.reverse
  | some _ => (replacement :: d.written).reverse

end Decoder

/-- The text that octets stand for, with a replacement for each part that is
none. -/
def decode (bytes : List UInt8) : String :=
  String.ofList (bytes.foldl Decoder.step Decoder.start).finish

/-- The text that octets stand for, if they are all text. -/
def decode? (bytes : List UInt8) : Option String :=
  let s := decode bytes
  if encode s = bytes then some s else none

end AuditTables.Text.Utf8
