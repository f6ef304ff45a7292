import SafeNetwork.Messaging
import SafeNetwork.NetworkKnowledge.Knowledge

/-!
# Anti-entropy

`sn_node/src/node/messaging/anti_entropy.rs`: an elder that gets a message for another section, or
for its own section under another key than the one it knows, answers with a SAP and a proof chain.
The chain starts at the key the message carried when that key is on the elder's branch, and at the
genesis key otherwise. Either start is in the sender's view of the history.
-/

namespace SafeNetwork

open Std

/-- The errors of `sn_node` that the entropy check returns. -/
inductive NodeError (M : MessageScheme) where
  | noMatchingSection
  | messaging (error : M.MessagingError)

/-- `generate_ae_section_tree_update` — our SAP with a chain from the destination key, or from the
genesis key when there is no such chain. -/
def generateAeSectionTreeUpdate {S : SectionScheme} (networkKnowledge : NetworkKnowledge S)
    (dstSectionKey : Option S.PublicKey) : SectionTreeUpdate S where
  signedSap := networkKnowledge.signedSap
  proofChain :=
    (dstSectionKey.bind fun key =>
      (networkKnowledge.getProofChainToCurrentSection key).toOption).getD
    networkKnowledge.sectionChain

/-- `MyNode::check_for_entropy` — the answer to a message, if it shows entropy. -/
def checkForEntropy {M : MessageScheme} (isSelfElder : Bool) (wireMsg : WireMsg M)
    (networkKnowledge : NetworkKnowledge M.toSectionScheme) :
    Except (NodeError M)
      (Option (SectionTreeUpdate M.toSectionScheme × AntiEntropyKind M.toSectionScheme)) :=
  let dst := wireMsg.dst
  let ourPrefix := networkKnowledge.ourPrefix
  if !ourPrefix.matchesName dst.name then
    if !isSelfElder then .ok none
    else
      match networkKnowledge.closestSignedSapWithChain dst.name with
      | some (signedSap, proofChain) => do
        let bouncedMsg ← wireMsg.serialize.mapError .messaging
        return some (⟨signedSap, proofChain⟩, .redirect bouncedMsg)
      | none => .error .noMatchingSection
  else if dst.sectionKey = networkKnowledge.sectionKey then .ok none
  else do
    let sectionTreeUpdate := generateAeSectionTreeUpdate networkKnowledge (some dst.sectionKey)
    let bouncedMsg ← wireMsg.serialize.mapError .messaging
    return some (sectionTreeUpdate, .retry bouncedMsg)

variable {M : MessageScheme} {H : History M.toSectionScheme} {isSelfElder : Bool}
  {wireMsg : WireMsg M} {knowledge : NetworkKnowledge M.toSectionScheme}
  {update : SectionTreeUpdate M.toSectionScheme} {kind : AntiEntropyKind M.toSectionScheme}

theorem update_of_bounced {bounced : Except M.MessagingError UsrMsgBytes}
    {reply : SectionTreeUpdate M.toSectionScheme} {answer : UsrMsgBytes → AntiEntropyKind M.toSectionScheme}
    (answered : (do
        let bouncedMsg ← bounced.mapError (NodeError.messaging : _ → NodeError M)
        return some (reply, answer bouncedMsg)) = Except.ok (some (update, kind))) : reply = update := by
  cases bounced with
  | error error => cases answered
  | ok bytes =>
    obtain ⟨same, -⟩ := Prod.mk.inj (Option.some.inj (Except.ok.inj answered))
    exact same

theorem checkForEntropy_cases (answered : checkForEntropy isSelfElder wireMsg knowledge = .ok (some (update, kind))) :
    knowledge.closestSignedSapWithChain wireMsg.dst.name = some (update.signedSap, update.proofChain) ∨
      update = generateAeSectionTreeUpdate knowledge (some wireMsg.dst.sectionKey) := by
  simp only [checkForEntropy] at answered
  split at answered
  · left
    split at answered
    · cases answered
    · split at answered
      · rename_i closest
        rw [closest, ← update_of_bounced answered]
      · cases answered
  · right
    split at answered
    · cases answered
    · exact (update_of_bounced answered).symm

namespace History

theorem Follows.sectionChain (follows : H.Follows knowledge) {key : M.PublicKey}
    (known : knowledge.sectionTree.sectionsDag.hasKey key = true) (own : knowledge.signedSap.sectionKey = key) :
    SectionsDAG.IsBranch H.dag knowledge.sectionChain H.dag.genesisKey key := by
  obtain ⟨chain, returned, is⟩ := follows.synced.exists_chain known
  simp only [NetworkKnowledge.sectionChain, NetworkKnowledge.getProofChainToCurrentSection,
    NetworkKnowledge.genesisKey, own, returned]
  exact is

theorem Follows.checkForEntropy (follows : H.Follows knowledge)
    (answered : checkForEntropy isSelfElder wireMsg knowledge = .ok (some (update, kind))) :
    ∃ top key, H.dag.hasKey key = true ∧ update.signedSap = H.sap key ∧
      SectionsDAG.IsBranch H.dag update.proofChain top key ∧
      (top = H.dag.genesisKey ∨ top = wireMsg.dst.sectionKey) := by
  obtain redirect | rfl := checkForEntropy_cases answered
  · obtain ⟨⟨known, found⟩, returned⟩ :=
      NetworkKnowledge.closestSignedSapWithChain_eq_some redirect
    obtain ⟨key, seen, same, -⟩ := follows.synced.exists_key found
    have whole := follows.synced.hasKey_whole seen
    rw [same, H.sap_key whole] at returned
    exact ⟨H.dag.genesisKey, key, whole, same,
      follows.synced.genesis ▸ follows.synced.isBranch returned, Or.inl rfl⟩
  · obtain ⟨key, seen, same⟩ := follows.own
    have whole := follows.synced.hasKey_whole seen
    have own : knowledge.signedSap.sectionKey = key := by rw [same, H.sap_key whole]
    cases returned : knowledge.getProofChainToCurrentSection wireMsg.dst.sectionKey with
    | ok chain =>
      refine ⟨wireMsg.dst.sectionKey, key, whole, same, ?_, Or.inr rfl⟩
      simp only [generateAeSectionTreeUpdate, Option.bind_some, returned, Except.toOption,
        Option.getD_some]
      exact own ▸ follows.synced.isBranch returned
    | error error =>
      refine ⟨H.dag.genesisKey, key, whole, same, ?_, Or.inl rfl⟩
      simp only [generateAeSectionTreeUpdate, Option.bind_some, returned, Except.toOption,
        Option.getD_none]
      exact follows.sectionChain seen own

/-- Anti-entropy heals in one round: a node and an elder have seen any updates of one history. When
the node sends a message for a name under the key it knows for the name, and the elder answers, then
the node takes the answer without error and knows the key of the SAP afterwards. -/
theorem checkForEntropy_heals {tree : SectionTree M.toSectionScheme}
    (built : SectionTree.new (H.sap H.dag.genesisKey) = .ok tree)
    {earlier elderUpdates updates : List (SectionTreeUpdate M.toSectionScheme)}
    {sapPrefix : Prefix} {elder : NetworkKnowledge M.toSectionScheme} {elderName : XorName} {sap : M.SignedSap}
    (earlier_honest : ∀ update ∈ earlier, H.IsUpdate update)
    (created : NetworkKnowledge.new sapPrefix (tree.run earlier) = .ok elder)
    (elder_honest : ∀ update ∈ elderUpdates, H.IsUpdate update) (honest : ∀ update ∈ updates, H.IsUpdate update)
    (addressed : (tree.run updates).getSignedByName wireMsg.dst.name = .ok sap)
    (dst_key : wireMsg.dst.sectionKey = sap.sectionKey)
    (answered : checkForEntropy isSelfElder wireMsg (elder.run elderName elderUpdates) = .ok (some (update, kind))) :
    (∃ changed, ((tree.run updates).updateTheSectionTree update).1 = .ok changed) ∧
      ((tree.run updates).updateTheSectionTree update).2.sectionsDag.hasKey update.signedSap.sectionKey = true := by
  have initial := synced_new built
  have follows := (Follows.new (initial.run earlier_honest).1 created).run elder_honest elderName
  have synced := (initial.run honest).1
  obtain ⟨top, key, whole, same, is, start⟩ := follows.checkForEntropy answered
  have trusted : (tree.run updates).sectionsDag.hasKey top = true := by
    obtain rfl | rfl := start
    · exact synced.hasKey_genesis
    · obtain ⟨known, found⟩ := SectionTree.mem_of_getSignedByName addressed
      obtain ⟨leaf, seen, rfl, -⟩ := synced.exists_key found
      rw [dst_key, synced.sap_key seen]
      exact seen
  rw [same, H.sap_key whole]
  exact synced.update_ok whole same is trusted

end History

abbrev sampleMessages : MessageScheme where
  toSectionScheme := sampleScheme
  WireMsgHeader := Unit
  MessagingError := Unit
  serializeHeader _ := .ok []
  serializeDstPayload _ := .ok []

def sampleMsg : WireMsg sampleMessages := ⟨(), none, [], ⟨sampleName, (0 : Nat)⟩, none⟩

namespace History

theorem checkForEntropy_heals_sampleMsg :
    checkForEntropy true sampleMsg (sampleKnowledge.run sampleName [sampleFirstHalf]) =
      .ok (some (sampleFirstHalf, .retry ([], [], []))) ∧
    (∃ changed, (sampleGenesis.updateTheSectionTree sampleFirstHalf).1 = .ok changed) ∧
    (sampleGenesis.updateTheSectionTree sampleFirstHalf).2.sectionsDag.hasKey (2 : Nat) = true := by
  have created : NetworkKnowledge.new default (sampleGenesis.run []) = .ok sampleKnowledge := rfl
  have none : ∀ update ∈ ([] : List (SectionTreeUpdate sampleScheme)),
      sampleHistory.IsUpdate update := by simp
  have honest : ∀ update ∈ [sampleFirstHalf], sampleHistory.IsUpdate update := by
    simp [sampleFirstHalf_isUpdate]
  have addressed : (sampleGenesis.run []).getSignedByName sampleMsg.dst.name =
    .ok (sampleSap 0 []) := rfl
  have answered : checkForEntropy true sampleMsg (sampleKnowledge.run sampleName [sampleFirstHalf]) =
    .ok (some (sampleFirstHalf, .retry ([], [], []))) := rfl
  have healed := checkForEntropy_heals sampleHistory_built none created honest none addressed rfl
    answered
  exact ⟨answered, healed⟩

end History

end SafeNetwork
