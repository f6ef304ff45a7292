import SafeNetwork.NetworkKnowledge.SectionsDag
import SafeNetwork.XorName

/-!
# Section authority providers

`section_authority_provider.rs`: a section authority provider (SAP) says which elders lead the
section of a prefix under which key. It is signed as a whole by its own section key.
-/

namespace SafeNetwork

open Std

/-- `SectionAuthorityProvider` — details of section authority. -/
structure SectionAuthorityProvider (PublicKeySet NodeId NodeState : Type) [Ord NodeId]
    [Ord NodeState] where
  /-- `prefix` — it matches all the members' names. -/
  sapPrefix : Prefix
  publicKeySet : PublicKeySet
  elders : ExtTreeSet NodeId
  members : ExtTreeSet NodeState
  membershipGen : UInt64

/-- What the section tree uses of its crates, beyond the keys: key sets (`blsttc`), the encodings
of what is signed (`bincode`) and the distances of `xor_name`. -/
structure SectionScheme extends KeyScheme where
  PublicKeySet : Type
  NodeId : Type
  NodeState : Type
  [ordNodeId : Ord NodeId]
  [ordNodeState : Ord NodeState]
  [transOrdNodeState : TransOrd NodeState]
  publicKey : PublicKeySet → PublicKey
  serializeSap : SectionAuthorityProvider PublicKeySet NodeId NodeState → Option (List UInt8)
  /-- `bincode::serialize` of a node state. -/
  serializeNodeState : NodeState → Option (List UInt8)
  /-- `Prefix::common_prefix` with a name. -/
  commonPrefix : Prefix → XorName → Nat
  /-- `Prefix::cmp_distance` of two prefixes to a name. -/
  cmpDistance : Prefix → Prefix → XorName → Ordering

attribute [instance] SectionScheme.ordNodeId SectionScheme.ordNodeState
  SectionScheme.transOrdNodeState

/-- `SectionSig` — a signature and the section key that made it. -/
structure SectionSig (K : KeyScheme) where
  publicKey : K.PublicKey
  signature : K.Signature

def SectionSig.verify {K : KeyScheme} (self : SectionSig K) (payload : List UInt8) : Bool :=
  K.verify self.publicKey self.signature payload

/-- `SectionSigned` — a value signed by a section. -/
structure SectionSigned (K : KeyScheme) (T : Type) where
  value : T
  sig : SectionSig K

/-- `SectionAuthUtils::self_verify` — whether the signature is one over the value. -/
def SectionSigned.selfVerify {K : KeyScheme} {T : Type} (serialize : T → Option (List UInt8))
    (self : SectionSigned K T) : Bool :=
  match serialize self.value with
  | some bytes => self.sig.verify bytes
  | none => false

namespace SectionScheme

/-- `SectionAuthorityProvider`. -/
abbrev Sap (S : SectionScheme) : Type :=
  SectionAuthorityProvider S.PublicKeySet S.NodeId S.NodeState

/-- `SectionSigned<SectionAuthorityProvider>`. -/
abbrev SignedSap (S : SectionScheme) : Type := SectionSigned S.toKeyScheme S.Sap

end SectionScheme

variable {S : SectionScheme}

def SectionScheme.sectionKey (sap : S.Sap) : S.PublicKey := S.publicKey sap.publicKeySet

namespace SectionSigned

def sectionKey (self : S.SignedSap) : S.PublicKey := SectionScheme.sectionKey self.value

def sapPrefix (self : S.SignedSap) : Prefix := self.value.sapPrefix

end SectionSigned

end SafeNetwork
