import SafeNetwork.NetworkKnowledge.Knowledge

/-!
# The chain of our section

Our section key only moves down the history: an update that replaces our SAP brings a key below the
one we had, for a prefix that is the same or longer. So a key that was among the latest of our chain
and is so again has been so in between.
-/

namespace SafeNetwork

open Std Forest Walk

/-- `latest_section_keys` of `SectionMemberHistory::prune_members_archive`, for our section chain. -/
def NetworkKnowledge.latestSectionKeys {S : SectionScheme} (self : NetworkKnowledge S) :
    List S.PublicKey :=
  match self.sectionChain.getAncestors self.sectionKey with
  | .ok ancestors => ancestors.take (elderChurnEventsToPruneArchive - 1) ++ [self.sectionKey]
  | .error _ => []

namespace History

variable {S : SectionScheme} {H : History S} {knowledge after : NetworkKnowledge S}
  {key : S.PublicKey} {ourName : XorName} {update : SectionTreeUpdate S}

theorem path_of_branch {chain : SectionsDAG S.toKeyScheme} {bottom : S.PublicKey} {ancestors : List S.PublicKey}
    (is : SectionsDAG.IsBranch H.dag chain H.dag.genesisKey bottom)
    (known : chain.hasKey key = true) (path : Path chain.parentOf key ancestors) :
    Path H.dag.parentOf key ancestors := by
  have embedded := is.embedded H.tidy
  induction path with
  | stop ends =>
    refine .stop ?_
    obtain rfl | parent := embedded.tidy.hasKey_iff_parentOf.mp known
    · rw [is.genesis]
      exact H.dag.parentOf_genesisKey
    · rw [ends] at parent
      cases parent
  | step goes _ ih =>
    exact .step (embedded.parentOf goes) (ih (embedded.tidy.hasKey_of_parentOf goes))

namespace Follows

variable (follows : H.Follows knowledge)
include follows

theorem own_key :
    knowledge.sectionTree.sectionsDag.hasKey knowledge.sectionKey = true ∧
      knowledge.signedSap = H.sap knowledge.sectionKey := by
  obtain ⟨key, known, same⟩ := follows.own
  have named : knowledge.sectionKey = key := by
    rw [NetworkKnowledge.sectionKey, same, follows.synced.sap_key known]
  rw [named]
  exact ⟨known, same⟩

theorem mem_latestSectionKeys {ancestors : List S.PublicKey}
    (path : Path H.dag.parentOf knowledge.sectionKey ancestors) : key ∈ knowledge.latestSectionKeys ↔
      key ∈ (knowledge.sectionKey :: ancestors).take elderChurnEventsToPruneArchive := by
  obtain ⟨known, -⟩ := follows.own_key
  obtain ⟨chain, returned, is⟩ := follows.synced.exists_chain known
  have tidy := (is.embedded H.tidy).tidy
  obtain ⟨listed, chained⟩ := tidy.ends knowledge.sectionKey
  obtain rfl := (path_of_branch is is.hasKey_bottom chained).unique path
  have section_chain : knowledge.sectionChain = chain := by
    rw [NetworkKnowledge.sectionChain, NetworkKnowledge.getProofChainToCurrentSection,
      NetworkKnowledge.genesisKey]
    rw [NetworkKnowledge.sectionKey] at returned
    rw [returned]
  rw [NetworkKnowledge.latestSectionKeys, section_chain,
    (tidy.getAncestors_eq_ok is.hasKey_bottom).mpr chained]
  rw [List.mem_append, List.mem_singleton, elderChurnEventsToPruneArchive, List.take_succ_cons,
    List.mem_cons]
  exact or_comm

theorem above_step (honest : H.IsUpdate update)
    (ours : knowledge.ourPrefix.matchesName ourName = true) :
    let after := (knowledge.updateSapKnowledgeIfValid update ourName).2
    Above H.dag.parentOf knowledge.sectionKey after.sectionKey ∧
      after.ourPrefix.matchesName ourName = true := by
  intro after
  obtain ⟨known, own⟩ := follows.own_key
  obtain ⟨top, key, whole, same, is⟩ := honest.exists_branch
  have unchanged : after.signedSap = knowledge.signedSap →
      Above H.dag.parentOf knowledge.sectionKey after.sectionKey ∧
        after.ourPrefix.matchesName ourName = true := by
    intro kept
    rw [NetworkKnowledge.ourPrefix, NetworkKnowledge.sectionKey, NetworkKnowledge.sectionKey, kept]
    exact ⟨.refl, ours⟩
  obtain ⟨-, kept⟩ | ⟨accepts, -, -, sap⟩ := follows.update_cases whole same is ourName
  · exact unchanged kept
  · split at sap
    · rename_i matching
      have fresh := accepts.fresh
      rw [same, H.sap_key whole] at fresh
      have next : after.sectionKey = key := by
        rw [NetworkKnowledge.sectionKey, sap, same, H.sap_key whole]
      have prefixes : (H.prefixOf knowledge.sectionKey).Covers (H.prefixOf key) ∨
          (H.prefixOf key).Covers (H.prefixOf knowledge.sectionKey) := by
        rw [NetworkKnowledge.ourPrefix, own] at ours
        rw [same] at matching
        exact List.prefix_or_prefix_of_prefix (List.isPrefixOf_iff_prefix.mp ours)
          (List.isPrefixOf_iff_prefix.mp matching)
      have held := follows.synced.hasKey_whole known
      -- A key above ours is in view already, so the fresh one is below.
      have notAbove : ¬ Above H.dag.parentOf key knowledge.sectionKey := by
        intro above
        rw [follows.synced.hasKey_of_above known whole above] at fresh
        cases fresh
      refine ⟨?_, by rw [NetworkKnowledge.ourPrefix, sap]; exact matching⟩
      rw [next]
      obtain covers | covers := prefixes
      · exact (above_of_covers held whole covers).resolve_right fun back => notAbove back.2
      · obtain back | ⟨-, above⟩ := above_of_covers whole held covers
        · exact absurd back notAbove
        · exact above
    · exact unchanged sap

theorem latest_of_later (later : H.Follows after)
    (down : Above H.dag.parentOf knowledge.sectionKey after.sectionKey)
    (above : Above H.dag.parentOf key knowledge.sectionKey) (latest : key ∈ after.latestSectionKeys) :
    key ∈ knowledge.latestSectionKeys := by
  obtain ⟨ancestors, path⟩ := H.tidy.ends after.sectionKey
  obtain ⟨passed, rest, whole, lower⟩ := path.split (path.mem_of_reaches down)
  rw [later.mem_latestSectionKeys path, whole] at latest
  rw [follows.mem_latestSectionKeys lower]
  have nodup := path.nodup
  rw [whole] at nodup
  rw [List.take_append] at latest
  obtain early | late := List.mem_append.mp latest
  · exact absurd (lower.mem_of_reaches above)
      (List.disjoint_of_nodup_append nodup (List.mem_of_mem_take early))
  · exact (List.take_subset_take_left _ (Nat.sub_le _ _)) late

theorem matchesName_of_later (later : H.Follows after)
    (down : Above H.dag.parentOf knowledge.sectionKey after.sectionKey) {name : XorName}
    (matching : after.ourPrefix.matchesName name = true) : knowledge.ourPrefix.matchesName name = true := by
  rw [NetworkKnowledge.ourPrefix, later.own_key.2] at matching
  rw [NetworkKnowledge.ourPrefix, follows.own_key.2]
  have shorter : (H.sap knowledge.sectionKey).sapPrefix.Covers (H.sap after.sectionKey).sapPrefix :=
    covers_of_above down
  exact List.isPrefixOf_iff_prefix.mpr
    (List.IsPrefix.trans shorter (List.isPrefixOf_iff_prefix.mp matching))

end Follows

end History

end SafeNetwork
