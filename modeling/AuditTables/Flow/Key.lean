import AuditTables.Digest.Sha1
import AuditTables.Flow.Address
import AuditTables.Text.Base64

/-!
# `AuditTables.Flow.Key`: the fingerprint of a network flow

A flow has two endpoints and a protocol. Its fingerprint (Community ID,
version 1) is the same in both directions: the endpoints are put in order first
(`canonical`), the lesser address and port in front, and the digest is taken of
the ordered flow.
-/

set_option autoImplicit false

namespace AuditTables.Flow

open AuditTables.Text AuditTables.Digest

/-- A flow: where it comes from, where it goes, and the protocol's number. -/
structure Key where
  source : Address
  destination : Address
  sourcePort : UInt16
  destinationPort : UInt16
  protocol : UInt8
  deriving DecidableEq, Repr

namespace Key

/-- A port number, if it is one. -/
def port? (n : Int) : Option UInt16 :=
  if 0 ≤ n ∧ n ≤ 65535 then some (UInt16.ofNat n.toNat) else none

/-- The low octet of a number. A protocol takes one octet on the wire. -/
def lowOctet (n : Int) : UInt8 := UInt8.ofNat (n % 256).toNat

/-- The flow of raw values, if the addresses and ports are valid. -/
def read (source destination : String) (sourcePort destinationPort protocol : Int) :
    Option Key := do
  let a ← Address.read source
  let b ← Address.read destination
  let p ← port? sourcePort
  let q ← port? destinationPort
  pure ⟨a, b, p, q, lowOctet protocol⟩

/-- The flow in the other direction. -/
def flip (k : Key) : Key :=
  ⟨k.destination, k.source, k.destinationPort, k.sourcePort, k.protocol⟩

/-- Whether the source endpoint is less than the destination. -/
def isOrdered (k : Key) : Bool :=
  k.source.lt k.destination || (k.source == k.destination && k.sourcePort < k.destinationPort)

/-- The flow with the lesser endpoint in front. -/
def canonical (k : Key) : Key := if k.isOrdered then k else k.flip

/-- The protocols that the fingerprint is defined for. -/
def definedProtocols : List UInt8 := [1, 6, 17, 46, 58, 132]

/-- Whether the fingerprint is defined for the flow's protocol. It is computed
for all the same. -/
def isDefined (k : Key) : Bool := definedProtocols.contains k.protocol

/-- A port as two octets. -/
def portOctets (p : UInt16) : List UInt8 := bigEndian 2 p.toNat

/-- What the digest is taken of: a seed, the addresses, the protocol, two zero
octets and the ports. -/
def hashInput (k : Key) (seed : UInt16) : List UInt8 :=
  portOctets seed ++ k.source.octets ++ k.destination.octets ++ [k.protocol, 0, 0]
    ++ portOctets k.sourcePort ++ portOctets k.destinationPort

/-- The fingerprint of a flow. -/
def communityId (k : Key) : String :=
  "1:" ++ String.ofList (Base64.encode (Sha1.digest (k.canonical.hashInput 0)))

end Key

/-- The fingerprint of raw values, empty if they are no flow. -/
def communityId (source destination : String) (sourcePort destinationPort protocol : Int) :
    String :=
  match Key.read source destination sourcePort destinationPort protocol with
  | some k => k.communityId
  | none => ""

end AuditTables.Flow
