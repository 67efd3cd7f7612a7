import AuditTables.Octets

/-!
# `AuditTables.Digest.Sha1`: the SHA-1 digest

The message is padded to a whole number of blocks of 64 octets (`pad`). Each
block is spread over eighty words (`schedule`), which eighty rounds mix into the
five words of the state (`compress`). The digest is the final state, most
significant octet first.
-/

set_option autoImplicit false

namespace AuditTables.Digest.Sha1

/-- The five words of the state. -/
structure State where
  a : UInt32
  b : UInt32
  c : UInt32
  d : UInt32
  e : UInt32
  deriving DecidableEq, Repr

/-- The state before any block. -/
def initial : State := ⟨0x67452301, 0xEFCDAB89, 0x98BADCFE, 0x10325476, 0xC3D2E1F0⟩

/-- A word turned left by less than its width. -/
def rotate (n : UInt32) (w : UInt32) : UInt32 := (w <<< n) ||| (w >>> (32 - n))

/-- A message with a one bit, zeros and its length in bits behind it. -/
def pad (message : List UInt8) : List UInt8 :=
  let zeros := (119 - message.length % 64) % 64
  message ++ 0x80 :: List.replicate zeros 0 ++ bigEndian 8 (message.length * 8)

/-- Four octets as a word. -/
def word (a b c d : UInt8) : UInt32 :=
  (a.toUInt32 <<< 24) ||| (b.toUInt32 <<< 16) ||| (c.toUInt32 <<< 8) ||| d.toUInt32

/-- Octets as words. Octets that fill no word are left out. -/
def words : List UInt8 → List UInt32
  | a :: b :: c :: d :: rest => word a b c d :: words rest
  | _ => []

/-- The words of a block followed by words mixed from earlier ones. `recent`
holds the words so far, latest first. -/
def extend : Nat → List UInt32 → List UInt32
  | 0, recent => recent
  | count + 1, recent =>
    let back (n : Nat) : UInt32 := recent.getD (n - 1) 0
    extend count (rotate 1 (back 3 ^^^ back 8 ^^^ back 14 ^^^ back 16) :: recent)

/-- The eighty words that a block is spread over. -/
def schedule (block : List UInt32) : List UInt32 := (extend 64 block.reverse).reverse

/-- The mixing function and the constant of a round. -/
def roundPart (round : Nat) (b c d : UInt32) : UInt32 × UInt32 :=
  if round < 20 then ((b &&& c) ||| (~~~b &&& d), 0x5A827999)
  else if round < 40 then (b ^^^ c ^^^ d, 0x6ED9EBA1)
  else if round < 60 then ((b &&& c) ||| (b &&& d) ||| (c &&& d), 0x8F1BBCDC)
  else (b ^^^ c ^^^ d, 0xCA62C1D6)

/-- One round. -/
def mix (s : State) (round : Nat) (w : UInt32) : State :=
  let (f, k) := roundPart round s.b s.c s.d
  ⟨rotate 5 s.a + f + s.e + k + w, s.a, rotate 30 s.b, s.c, s.d⟩

/-- The rounds of the words from a round on. -/
def mixAll (round : Nat) (s : State) : List UInt32 → State
  | [] => s
  | w :: rest => mixAll (round + 1) (mix s round w) rest

/-- The state after one more block. -/
def compress (s : State) (block : List UInt32) : State :=
  let t := mixAll 0 s (schedule block)
  ⟨s.a + t.a, s.b + t.b, s.c + t.c, s.d + t.d, s.e + t.e⟩

/-- The state after so many blocks of sixteen words. -/
def absorb : Nat → State → List UInt32 → State
  | 0, s, _ => s
  | count + 1, s, ws => absorb count (compress s (ws.take 16)) (ws.drop 16)

/-- The twenty octets of a state. -/
def State.octets (s : State) : List UInt8 :=
  [s.a, s.b, s.c, s.d, s.e].flatMap fun w => bigEndian 4 w.toNat

/-- The digest of a message. -/
def digest (message : List UInt8) : List UInt8 :=
  let padded := pad message
  (absorb (padded.length / 64) initial (words padded)).octets

end AuditTables.Digest.Sha1
