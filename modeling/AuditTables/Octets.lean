/-!
# `AuditTables.Octets`: numbers as octets

Digests and addresses write numbers as octets, most significant first, in a
fixed number of them.
-/

set_option autoImplicit false

namespace AuditTables

/-- The lowest `count` octets of a number, most significant first. -/
def bigEndian : Nat → Nat → List UInt8
  | 0, _ => []
  | count + 1, n => UInt8.ofNat (n >>> (8 * count)) :: bigEndian count n

@[simp] theorem length_bigEndian (count n : Nat) : (bigEndian count n).length = count := by
  induction count with
  | zero => rfl
  | succ count ih => rw [bigEndian, List.length_cons, ih]

end AuditTables
