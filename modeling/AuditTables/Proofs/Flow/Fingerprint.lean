import AuditTables.Flow.Key
import Mathlib.Data.Nat.ModEq

/-!
# `AuditTables.Proofs.Flow.Fingerprint`: what the fingerprint of a flow tells apart

The digest of a flow is taken of an octet string without marks of where one address ends and
the next begins. `hashInput_canonical_eq_iff` says that nothing is lost by that. Two flows
have the same input exactly if they have the same protocol and the same two endpoints, in
either direction. The length of the input tells how many of its two addresses are long, and
in a flow put in order a short address comes before a long one, so the length tells which.

`fingerprint_identifies_flow` adds what that means for raw values: the fingerprint is the
same in both directions, only the lowest octet of the protocol number matters, and the
fingerprint is empty for exactly those values that are no flow. Of all others it is the
digest in letters, of which there are always 28.
-/

set_option autoImplicit false

namespace AuditTables.Proofs.Flow

open AuditTables.Flow AuditTables.Flow.Key AuditTables.Text AuditTables.Digest

/-! ### Octets -/

/-- The octets of a number tell its remainder. -/
theorem mod_eq_of_bigEndian_eq {count n m : Nat} (h : bigEndian count n = bigEndian count m) :
    n % 256 ^ count = m % 256 ^ count := by
  induction count with
  | zero => rw [Nat.pow_zero, Nat.mod_one, Nat.mod_one]
  | succ count ih =>
      -- The first octet is the highest digit to base 256, the others are the lower ones.
      obtain ⟨hhead, htail⟩ := List.cons.inj h
      have hpow : 2 ^ (8 * count) = 256 ^ count := by rw [Nat.pow_mul]
      have hdigit : n / 256 ^ count % 256 = m / 256 ^ count % 256 := by
        have hnat := congrArg UInt8.toNat hhead
        rw [UInt8.toNat_ofNat', UInt8.toNat_ofNat', Nat.shiftRight_eq_div_pow,
          Nat.shiftRight_eq_div_pow, hpow] at hnat
        exact hnat
      rw [Nat.pow_succ, Nat.mod_mul, Nat.mod_mul, ih htail, hdigit]

/-- Numbers that have room in some octets are told apart by them. -/
theorem eq_of_bigEndian_eq {count n m : Nat} (hn : n < 256 ^ count) (hm : m < 256 ^ count)
    (h : bigEndian count n = bigEndian count m) : n = m := by
  have hmod := mod_eq_of_bigEndian_eq h
  rwa [Nat.mod_eq_of_lt hn, Nat.mod_eq_of_lt hm] at hmod

/-- Ports are told apart by their octets. -/
theorem eq_of_portOctets_eq {p q : UInt16} (h : portOctets p = portOctets q) : p = q :=
  UInt16.toNat_inj.mp (eq_of_bigEndian_eq p.toNat_lt q.toNat_lt h)

/-! ### Addresses -/

/-- An address has 4 octets or 16. -/
theorem length_octets (a : Address) : a.octets.length = 4 ∨ a.octets.length = 16 := by
  cases a with
  | short bits => exact .inl (length_bigEndian 4 _)
  | long bits => exact .inr (length_bigEndian 16 _)

/-- Addresses are told apart by their octets, short ones from long ones by the number of
octets. -/
theorem eq_of_octets_eq {a b : Address} (h : a.octets = b.octets) : a = b := by
  have hlength := congrArg List.length h
  cases a with
  | short bits =>
      cases b with
      | short bits' =>
          have hnat : bits.toNat = bits'.toNat := eq_of_bigEndian_eq bits.isLt bits'.isLt h
          rw [BitVec.eq_of_toNat_eq hnat]
      | long bits' => simp [Address.octets] at hlength
  | long bits =>
      cases b with
      | short bits' => simp [Address.octets] at hlength
      | long bits' =>
          have hnat : bits.toNat = bits'.toNat := eq_of_bigEndian_eq bits.isLt bits'.isLt h
          rw [BitVec.eq_of_toNat_eq hnat]

/-- No address is less than another and greater as well. -/
theorem lt_asymm {a b : Address} (h : a.lt b = true) : b.lt a = false := by
  cases a <;> cases b <;> simp [Address.lt] at h ⊢
  all_goals omega

theorem lt_irrefl (a : Address) : a.lt a = false := by
  cases a <;> simp [Address.lt]

/-- Of two different addresses, one is less. -/
theorem eq_of_not_lt {a b : Address} (h : a.lt b = false) (h' : b.lt a = false) : a = b := by
  cases a <;> cases b <;> simp [Address.lt] at h h'
  all_goals exact congrArg _ (BitVec.eq_of_toNat_eq (by omega))

/-- An address that is not less than another is no shorter. -/
theorem length_octets_le {a b : Address} (h : a.lt b = false) :
    b.octets.length ≤ a.octets.length := by
  cases a <;> cases b <;> simp [Address.lt, Address.octets] at h ⊢

/-! ### Flows in order -/

/-- Two flows go from the same endpoint to the same endpoint. -/
def SameDirection (k k' : Key) : Prop :=
  (k.source = k'.source ∧ k.sourcePort = k'.sourcePort) ∧
    (k.destination = k'.destination ∧ k.destinationPort = k'.destinationPort)

/-- Two flows go between the same endpoints, one from where the other goes to. -/
def OppositeDirection (k k' : Key) : Prop :=
  (k.source = k'.destination ∧ k.sourcePort = k'.destinationPort) ∧
    (k.destination = k'.source ∧ k.destinationPort = k'.sourcePort)

/-- A flow is its protocol and its endpoints. -/
theorem eq_iff_sameDirection (k k' : Key) :
    k = k' ↔ k.protocol = k'.protocol ∧ SameDirection k k' := by
  obtain ⟨source, destination, sourcePort, destinationPort, protocol⟩ := k
  obtain ⟨source', destination', sourcePort', destinationPort', protocol'⟩ := k'
  simp only [SameDirection, Key.mk.injEq]
  constructor
  · rintro ⟨h1, h2, h3, h4, h5⟩
    exact ⟨h5, ⟨h1, h3⟩, h2, h4⟩
  · rintro ⟨h5, ⟨h1, h3⟩, h2, h4⟩
    exact ⟨h1, h2, h3, h4, h5⟩

/-- A flow turned around goes in the opposite direction. -/
theorem eq_flip_iff_oppositeDirection (k k' : Key) :
    k = k'.flip ↔ k.protocol = k'.protocol ∧ OppositeDirection k k' :=
  eq_iff_sameDirection k k'.flip

@[simp] theorem flip_flip (k : Key) : k.flip.flip = k := rfl

/-- A flow is in order if its first endpoint is less, by address and then by port. -/
theorem isOrdered_iff (k : Key) : k.isOrdered = true ↔
    k.source.lt k.destination = true ∨
      (k.source = k.destination ∧ k.sourcePort < k.destinationPort) := by
  simp only [isOrdered, Bool.or_eq_true, Bool.and_eq_true, beq_iff_eq, decide_eq_true_eq]

/-- A flow that is in order is not in order when turned around. -/
theorem not_isOrdered_flip {k : Key} (h : k.isOrdered = true) : ¬ k.flip.isOrdered = true := by
  rw [isOrdered_iff] at h ⊢
  show ¬ (k.destination.lt k.source = true ∨
    (k.destination = k.source ∧ k.destinationPort < k.sourcePort))
  rintro (hback | ⟨heq', hback⟩)
  · rcases h with hlt | ⟨heq, -⟩
    · rw [lt_asymm hlt] at hback
      cases hback
    · rw [heq, lt_irrefl] at hback
      cases hback
  · rcases h with hlt | ⟨-, hport⟩
    · rw [heq', lt_irrefl] at hlt
      cases hlt
    · exact UInt16.lt_asymm hport hback

/-- A flow that is in order in neither direction is the same in both. -/
theorem flip_eq_of_not_isOrdered {k : Key} (h : ¬ k.isOrdered = true)
    (h' : ¬ k.flip.isOrdered = true) : k.flip = k := by
  rw [isOrdered_iff, not_or, Bool.not_eq_true] at h h'
  have haddress : k.source = k.destination := eq_of_not_lt h.1 h'.1
  have hport : k.sourcePort = k.destinationPort := by
    have hle : k.destinationPort ≤ k.sourcePort :=
      UInt16.not_lt.mp fun hlt => h.2 ⟨haddress, hlt⟩
    have hle' : k.sourcePort ≤ k.destinationPort :=
      UInt16.not_lt.mp fun hlt => h'.2 ⟨haddress.symm, hlt⟩
    exact UInt16.le_antisymm hle' hle
  exact (eq_iff_sameDirection _ _).mpr ⟨rfl, ⟨haddress.symm, hport.symm⟩, haddress, hport⟩

/-- Both directions of a flow are put in the same order. -/
theorem canonical_flip (k : Key) : k.flip.canonical = k.canonical := by
  by_cases h : k.isOrdered = true
  · rw [canonical, canonical, if_pos h, if_neg (not_isOrdered_flip h), flip_flip]
  · by_cases h' : k.flip.isOrdered = true
    · rw [canonical, canonical, if_neg h, if_pos h']
    · rw [flip_eq_of_not_isOrdered h h']

/-- A flow put in order is the flow or the flow turned around. -/
theorem canonical_cases (k : Key) : k.canonical = k ∨ k.canonical = k.flip := by
  rw [canonical]
  split
  · exact Or.inl rfl
  · exact Or.inr rfl

/-- Flows are put in the same order exactly if they are the same or each other's opposite. -/
theorem canonical_eq_iff (k k' : Key) : k.canonical = k'.canonical ↔ k = k' ∨ k = k'.flip := by
  constructor
  · intro h
    -- Each of the two is kept or turned around.
    rcases canonical_cases k with hk | hk <;> rcases canonical_cases k' with hk' | hk' <;>
      rw [hk, hk'] at h
    · exact Or.inl h
    · exact Or.inr h
    · exact Or.inr (by rw [← h, flip_flip])
    · exact Or.inl (by rw [← flip_flip k, h, flip_flip])
  · rintro (rfl | rfl)
    · rfl
    · exact canonical_flip k'

/-- The first address of a flow put in order is no longer than the second. -/
theorem length_source_le_of_canonical (k : Key) :
    k.canonical.source.octets.length ≤ k.canonical.destination.octets.length := by
  rw [canonical]
  split
  · rename_i h
    rcases (isOrdered_iff k).mp h with hlt | ⟨heq, -⟩
    · exact length_octets_le (lt_asymm hlt)
    · rw [heq]
  · rename_i h
    rw [isOrdered_iff, not_or, Bool.not_eq_true] at h
    exact length_octets_le h.1

/-! ### The input of the digest -/

/-- Flows whose first address is no longer than the second are told apart by the input of
their digests, for each seed. -/
theorem eq_of_hashInput_eq {k k' : Key} {seed : UInt16}
    (hk : k.source.octets.length ≤ k.destination.octets.length)
    (hk' : k'.source.octets.length ≤ k'.destination.octets.length)
    (h : k.hashInput seed = k'.hashInput seed) : k = k' := by
  simp only [hashInput, List.append_assoc] at h
  have hrest := List.append_cancel_left h
  have htotal := congrArg List.length hrest
  simp only [List.length_append, portOctets, length_bigEndian] at htotal
  -- The inputs are of one length, so both flows have as many long addresses.
  have hsource : k.source.octets.length = k'.source.octets.length := by
    have h1 := length_octets k.source
    have h2 := length_octets k.destination
    have h3 := length_octets k'.source
    have h4 := length_octets k'.destination
    simp only [List.length_cons, List.length_nil] at htotal
    omega
  -- With the lengths known, the inputs are taken apart from the front.
  obtain ⟨hsources, hrest⟩ := List.append_inj hrest hsource
  have hdestination : k.destination.octets.length = k'.destination.octets.length := by
    simp only [List.length_cons, List.length_nil] at htotal
    omega
  obtain ⟨hdestinations, hrest⟩ := List.append_inj hrest hdestination
  obtain ⟨hprotocols, hrest⟩ := List.append_inj hrest rfl
  obtain ⟨hports, hports'⟩ := List.append_inj hrest (by simp only [portOctets, length_bigEndian])
  refine (eq_iff_sameDirection k k').mpr ⟨(List.cons.inj hprotocols).1, ⟨?_, ?_⟩, ?_, ?_⟩
  · exact eq_of_octets_eq hsources
  · exact eq_of_portOctets_eq hports
  · exact eq_of_octets_eq hdestinations
  · exact eq_of_portOctets_eq hports'

/-- The input of the digest tells flows apart up to their direction. -/
theorem hashInput_canonical_eq_iff (k k' : Key) :
    k.canonical.hashInput 0 = k'.canonical.hashInput 0 ↔
      k.protocol = k'.protocol ∧ (SameDirection k k' ∨ OppositeDirection k k') := by
  have hiff : k.canonical.hashInput 0 = k'.canonical.hashInput 0 ↔ k.canonical = k'.canonical :=
    ⟨eq_of_hashInput_eq (length_source_le_of_canonical k) (length_source_le_of_canonical k'),
      fun h => by rw [h]⟩
  rw [hiff, canonical_eq_iff, eq_iff_sameDirection, eq_flip_iff_oppositeDirection]
  exact and_or_left.symm

/-! ### The digest in letters -/

/-- A digest has twenty octets. -/
theorem length_digest (message : List UInt8) : (Sha1.digest message).length = 20 := by
  simp [Sha1.digest, Sha1.State.octets]

/-- The letter of every number is a letter of the alphabet. -/
theorem letter_mem (n : Nat) : Base64.letter n ∈ Base64.alphabet := by
  have hlt : n % 64 < Base64.alphabet.length := Nat.mod_lt n (by decide)
  rw [Base64.letter, List.getD_eq_getElem?_getD, List.getElem?_eq_getElem hlt]
  exact List.getElem_mem hlt

/-- The letters of octets are of the alphabet, four for every three octets, with equals signs
in place of those that the last octets do not fill. -/
theorem encode_letters (octets : List UInt8) :
    ∃ letters, Base64.encode octets
        = letters ++ List.replicate ((3 - octets.length % 3) % 3) '=' ∧
      letters.length = (octets.length * 4 + 2) / 3 ∧ ∀ c ∈ letters, c ∈ Base64.alphabet := by
  fun_induction Base64.encode octets with
  | case1 a b c rest n ih =>
      obtain ⟨letters, hencode, hlength, hmem⟩ := ih
      refine ⟨Base64.letter (n / 262144) :: Base64.letter (n / 4096) :: Base64.letter (n / 64)
        :: Base64.letter n :: letters, ?_, ?_, ?_⟩
      · -- Three octets are four letters and change nothing in what is filled up at the end.
        have hcount : (a :: b :: c :: rest).length % 3 = rest.length % 3 := by
          simp only [List.length_cons]
          omega
        rw [hencode, hcount]
        rfl
      · simp only [List.length_cons, hlength]
        omega
      · simp only [List.forall_mem_cons]
        exact ⟨letter_mem _, letter_mem _, letter_mem _, letter_mem _, hmem⟩
  | case2 a b n =>
      refine ⟨[Base64.letter (n / 1024), Base64.letter (n / 16), Base64.letter (n * 4)], rfl,
        by simp, ?_⟩
      simp only [List.forall_mem_cons]
      exact ⟨letter_mem _, letter_mem _, letter_mem _, fun c hc => absurd hc List.not_mem_nil⟩
  | case3 a =>
      refine ⟨[Base64.letter (a.toNat / 4), Base64.letter (a.toNat * 16)], rfl, by simp, ?_⟩
      simp only [List.forall_mem_cons]
      exact ⟨letter_mem _, letter_mem _, fun c hc => absurd hc List.not_mem_nil⟩
  | case4 => exact ⟨[], rfl, rfl, fun c hc => absurd hc List.not_mem_nil⟩

/-! ### Raw values -/

/-- A number is a port if it is in range. -/
theorem port?_eq_none_iff (n : Int) : port? n = none ↔ n < 0 ∨ 65535 < n := by
  rw [port?]
  split
  · rename_i h
    simp only [reduceCtorEq, false_iff]
    omega
  · rename_i h
    simp only [true_iff]
    omega

/-- A number in range is the port that it is read as. -/
theorem toNat_of_port? {n : Int} {p : UInt16} (h : port? n = some p) : (p.toNat : Int) = n := by
  rw [port?] at h
  split at h
  · rename_i hrange
    rw [← Option.some.inj h, UInt16.toNat_ofNat']
    omega
  · cases h

/-- The lowest octet of a number is its remainder. -/
theorem toNat_lowOctet (n : Int) : ((lowOctet n).toNat : Int) = n % 256 := by
  rw [lowOctet, UInt8.toNat_ofNat']
  omega

/-- A flow is what raw values describe. -/
structure Describes (a b : String) (p q r : Int) (k : Key) : Prop where
  source : Address.read a = some k.source
  destination : Address.read b = some k.destination
  sourcePort : (k.sourcePort.toNat : Int) = p
  destinationPort : (k.destinationPort.toNat : Int) = q
  protocol : (k.protocol.toNat : Int) = r % 256

/-- Raw values are no flow exactly if an address or a port is not valid. -/
theorem read_eq_none_iff (a b : String) (p q r : Int) :
    Key.read a b p q r = none ↔ Address.read a = none ∨ Address.read b = none ∨
      (p < 0 ∨ 65535 < p) ∨ (q < 0 ∨ 65535 < q) := by
  rw [← port?_eq_none_iff, ← port?_eq_none_iff]
  unfold Key.read
  cases Address.read a <;> cases Address.read b <;> cases port? p <;> cases port? q <;> simp

/-- The flow read from raw values is what they describe. -/
theorem describes_of_read {a b : String} {p q r : Int} {k : Key}
    (h : Key.read a b p q r = some k) : Describes a b p q r k := by
  unfold Key.read at h
  cases ha : Address.read a with
  | none => rw [ha] at h; cases h
  | some source =>
      cases hb : Address.read b with
      | none => rw [ha, hb] at h; cases h
      | some destination =>
          cases hp : port? p with
          | none => rw [ha, hb, hp] at h; cases h
          | some sourcePort =>
              cases hq : port? q with
              | none => rw [ha, hb, hp, hq] at h; cases h
              | some destinationPort =>
                  rw [ha, hb, hp, hq] at h
                  cases h
                  exact ⟨ha, hb, toNat_of_port? hp, toNat_of_port? hq, toNat_lowOctet r⟩

/-- Raw values with the endpoints exchanged are the flow turned around. -/
theorem read_exchanged (a b : String) (p q r : Int) :
    Key.read b a q p r = (Key.read a b p q r).map Key.flip := by
  unfold Key.read
  cases Address.read a <;> cases Address.read b <;> cases port? p <;> cases port? q <;> rfl

/-- Only the lowest octet of the protocol number is read. -/
theorem read_mod (a b : String) (p q r : Int) :
    Key.read a b p q (r % 256) = Key.read a b p q r := by
  have hoctet : lowOctet (r % 256) = lowOctet r := by
    rw [lowOctet, lowOctet, Int.emod_emod]
  unfold Key.read
  rw [hoctet]

/-- The fingerprint of a flow is never empty. -/
theorem communityId_ne_empty (k : Key) : k.communityId ≠ "" := by
  intro h
  have hlist := congrArg String.toList h
  rw [Key.communityId, String.toList_append] at hlist
  cases hlist

/-- The fingerprint of raw values is the same with the endpoints exchanged. -/
theorem communityId_exchanged (a b : String) (p q r : Int) :
    Flow.communityId a b p q r = Flow.communityId b a q p r := by
  unfold Flow.communityId
  rw [read_exchanged a b p q r]
  cases Key.read a b p q r with
  | none => rfl
  | some k =>
      show k.communityId = k.flip.communityId
      rw [Key.communityId, Key.communityId, canonical_flip]

/-- The fingerprint of a flow tells what its endpoints and its protocol are, not its
direction. The digest is taken of an input that two flows share exactly if they have the same
protocol and the same endpoints, in the same direction or exchanged. The fingerprint of raw
values is the same with the endpoints exchanged, and only the lowest octet of the protocol
number matters. It is empty exactly if an address or a port is not valid. Otherwise it is a
mark and the digest of twenty octets in 28 letters, the last of them an equals sign. -/
theorem fingerprint_identifies_flow :
    (∀ k k' : Key, k.canonical.hashInput 0 = k'.canonical.hashInput 0 ↔
      k.protocol = k'.protocol ∧ (SameDirection k k' ∨ OppositeDirection k k')) ∧
    ∀ (a b : String) (p q r : Int),
      Flow.communityId a b p q r = Flow.communityId b a q p r ∧
      Flow.communityId a b p q r = Flow.communityId a b p q (r % 256) ∧
      (Flow.communityId a b p q r = "" ↔ Address.read a = none ∨ Address.read b = none ∨
        (p < 0 ∨ 65535 < p) ∨ (q < 0 ∨ 65535 < q)) ∧
      (Flow.communityId a b p q r = "" ∨
        ∃ (k : Key) (letters : List Char),
          Key.read a b p q r = some k ∧ Describes a b p q r k ∧
          Flow.communityId a b p q r = "1:" ++ String.ofList letters ∧
          letters = Base64.encode (Sha1.digest (k.canonical.hashInput 0)) ∧
          (Sha1.digest (k.canonical.hashInput 0)).length = 20 ∧ letters.length = 28 ∧
          ∃ first, letters = first ++ ['='] ∧ ∀ c ∈ first, c ∈ Base64.alphabet) := by
  refine ⟨hashInput_canonical_eq_iff,
    fun a b p q r => ⟨communityId_exchanged a b p q r, ?_, ?_, ?_⟩⟩
  · rw [Flow.communityId, Flow.communityId, read_mod]
  · rw [← read_eq_none_iff a b p q r, Flow.communityId]
    cases Key.read a b p q r with
    | none => simp only
    | some k => simp only [communityId_ne_empty, reduceCtorEq]
  · rw [Flow.communityId]
    cases hread : Key.read a b p q r with
    | none => exact Or.inl rfl
    | some k =>
        have hdigest := length_digest (k.canonical.hashInput 0)
        obtain ⟨first, hencode, hlength, hmem⟩ :=
          encode_letters (Sha1.digest (k.canonical.hashInput 0))
        rw [hdigest] at hencode hlength
        refine Or.inr ⟨k, _, rfl, describes_of_read hread, rfl, rfl, hdigest, ?_, first, hencode,
          hmem⟩
        rw [hencode, List.length_append, hlength]
        rfl

end AuditTables.Proofs.Flow
