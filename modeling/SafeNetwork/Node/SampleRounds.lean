import SafeNetwork.Library.SoloRounds
import SafeNetwork.Node.Membership

/-!
# Sample rounds on members

The rounds of one elder over the sample nodes: the elder's first vote in a round is its decision,
signed by the elder's key. They meet what is asked of the rounds on members.
-/

namespace SafeNetwork

open Std Consensus

theorem mem_sampleDecision {key generation : Nat} {nodes : List sampleNodes.State} {node : sampleNodes.State} :
    node ∈ (sampleDecision key generation nodes).proposals ↔ node ∈ nodes := by
  rw [sampleDecision, ExtTreeMap.mem_ofList, List.contains_iff_mem, List.map_map]
  simp [Function.comp_def]

abbrev sampleRounds : MemberRounds sampleNodes.toNodeScheme := soloRounds sampleDecision

theorem sampleRounds_decidesProposals : DecidesProposals sampleRounds fun decision => decision.proposals.keys :=
  soloRounds_decidesProposals fun _ _ _ _ listed =>
    mem_sampleDecision.mp (ExtTreeMap.mem_keys.mp listed)

theorem sampleRounds_decidesGeneration : DecidesGeneration sampleRounds Decision.generation :=
  soloRounds_decidesGeneration fun _ _ _ => rfl

theorem sampleRounds_decidesValid :
    DecidesValid sampleRounds fun key decision => sampleNodes.validate key decision = true := by
  refine soloRounds_decidesValid fun key generation nodes => ?_
  rw [List.all_eq_true]
  rintro ⟨node, sig⟩ listed
  rw [ExtTreeMap.mem_toList_iff_getElem?_eq_some] at listed
  obtain ⟨_, _, same⟩ := List.mem_map.mp (OrderedMap.mem_of_getElem?_ofList listed)
  obtain ⟨rfl, rfl⟩ := Prod.mk.inj same
  simp

end SafeNetwork
