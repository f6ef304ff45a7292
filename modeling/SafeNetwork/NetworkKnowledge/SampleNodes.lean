import SafeNetwork.NetworkKnowledge.NodeState
import SafeNetwork.NetworkKnowledge.SectionTree

/-!
# Sample nodes

Nodes over the sample keys, in sections with one elder: numbers stand for socket addresses and for
relocation triggers. A node state is encoded by as many bytes as its address says, and a decision is
valid under a key that signed each of its proposals.
-/

namespace SafeNetwork

open Std

abbrev sampleNodeScheme : NodeScheme where
  toKeyScheme := sampleKeys
  PublicKeySet := Nat
  SocketAddr := Nat
  RelocationTrigger := Nat
  publicKey key := key
  serializeSap sap := some (List.replicate sap.publicKeySet 0)
  serializeNodeState node := some (List.replicate node.addr 0)
  commonPrefix := sampleCommonPrefix
  cmpDistance left right name :=
    compare (sampleCommonPrefix right name) (sampleCommonPrefix left name)
  elderCount := 1

abbrev sampleNodes : MemberScheme where
  toNodeScheme := sampleNodeScheme
  validate key decision := decision.proposals.toList.all fun proposal =>
    proposal.2.1 == key && proposal.2.2 == proposal.1.addr

def sampleNodeName (bits : List Bool) : XorName :=
  ⟨bits.takeD 256 false, List.takeD_length ..⟩

def sampleNodeId (bits : List Bool) (addr : Nat) : NodeId Nat := ⟨sampleNodeName bits, addr⟩

def sampleDecision (key generation : Nat) (nodes : List sampleNodes.State) :
    Decision sampleNodes.sections :=
  ⟨generation, .ofList (nodes.map fun node => (node, key, node.addr))⟩

end SafeNetwork
